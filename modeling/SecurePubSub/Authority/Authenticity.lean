import Mathlib.Logic.Relation
import SecurePubSub.Authority.CallRules
import SecurePubSub.Authority.Publishing
import SecurePubSub.Data.History

namespace SecurePubSub.Authority

open SecurePubSub.Data SecurePubSub.Data.Fallible SecurePubSub.Data.Program SecurePubSub.Protocol

/-! Who a stored record and a delivery come from, whatever frames an adversary sends.

The first half is a contract for `process`: as long as the stored records were
built by their owners, so is everything it stores, and it seals a delivery only
for a publication and a subscription that were built. The second half puts the
CA and its agents into one history with an adversary between them.
-/

/-! ## Evidence -/

def SubscriptionKind.request (kind : SubscriptionKind) (typeId : TypeId) (handler : HandlerId)
    (predicate : List ClauseRef) : AgentCore.Request :=
  match kind with
  | .oneShot => .subscribe typeId handler predicate
  | .permanent => .subscribePermanent typeId handler predicate

/-- The provisioned keys and the requests that agents have built. -/
structure Evidence where
  directory : SortedMap AgentId PublicKeys
  built : AgentId → AgentCore.Request → Prop

namespace Evidence

variable (evidence : Evidence)

/-- The environment of an agent is one that it built a request for. -/
def Environment (agent : AgentId) (encoded : Bytes) : Prop :=
  ∃ attributes, evidence.built agent (.setEnvironment attributes) ∧
    encoded = (AgentCore.Request.setEnvironment attributes).plaintext

/-- All fields of a subscription are those of one request that its subscriber built. -/
def Subscription (subscription : StoredSubscription) : Prop :=
  ∃ predicate,
    evidence.built subscription.subscriber
      (subscription.kind.request subscription.typeId subscription.handler predicate) ∧
    subscription.encoded =
      (subscription.kind.request subscription.typeId subscription.handler predicate).plaintext

/-- The publication of a delivery and a subscription to it were built. -/
structure Delivery (delivery : Addressed) : Prop where
  published : ∃ predicate, evidence.built delivery.publisher
    (.publish delivery.typeId predicate delivery.value)
  subscribed : ∃ (kind : SubscriptionKind) (predicate : List ClauseRef),
    evidence.built delivery.recipient (kind.request delivery.typeId delivery.handler predicate)

/-- What `process` may rely on in its replies and guarantees of its calls. -/
def contract : Contract caInterface where
  rely := fun call =>
    match call with
    | .keys agent => fun reply => ∀ keys, reply = .ok keys →
        evidence.directory.get agent = some keys
    | .environment agent => fun reply => ∀ encoded, reply = .ok (some encoded) →
        evidence.Environment agent encoded
    | .subscriptionsFor typeId => fun reply => ∀ entries, reply = .ok entries →
        ∀ entry ∈ entries, entry.typeId = typeId ∧ evidence.Subscription entry
    | _ => fun _ => True
  guarantee := fun call =>
    match call with
    | .setEnvironment agent encoded => evidence.Environment agent encoded
    | .putSubscription subscription => evidence.Subscription subscription
    | .delivery publisher recipient handler typeId value recipientX25519 =>
        evidence.Delivery ⟨recipient, handler, typeId, publisher, value⟩ ∧
          ∃ keys, evidence.directory.get recipient = some keys ∧ keys.x25519 = recipientX25519
    | _ => True

/-- A store whose records are all accounted for. -/
structure Accounts (state : StoreState) : Prop where
  keys : state.keys = evidence.directory
  environments : ∀ agent encoded, state.environments.get agent = some encoded →
    evidence.Environment agent encoded
  subscriptions : ∀ typeId, ∀ entry ∈ state.subscriptions.forType typeId,
    evidence.Subscription entry

end Evidence

/-- The bytes of a frame that its signature covers. -/
def signedPart (frame : Bytes) : Bytes := frame.take (frame.length - signatureLen)

theorem signedPart_frame (header : EnvelopeHeader) (ciphertext : Bytes) (tag : FixedBytes tagLen)
    (signature : FixedBytes signatureLen) :
    signedPart (header.frame ciphertext tag signature) =
      header.encoded ciphertext.length ++ ciphertext ++ tag.bytes := by
  rw [signedPart, EnvelopeHeader.frame, List.length_append, FixedBytes.length_bytes,
    Nat.add_sub_cancel]
  exact List.take_left

/-! ## A CA that keeps to its contract -/

section Process

variable {authority : CertificateAuthority} {evidence : Evidence} {publication : Publication}
  {subscription : StoredSubscription}

/-- A frame that verifies under its sender's key has the signed bytes of a request that the
sender built for this CA. -/
def Genuine (authority : CertificateAuthority) (evidence : Evidence) (frame : Bytes) : Prop :=
  ∀ envelope keys, CertificateAuthority.acceptEnvelope frame = .ok envelope →
    evidence.directory.get envelope.sender = some keys →
    authority.suite.verifyStrict keys.ed25519 envelope.signedBytes envelope.signature = true →
    ∃ agent request original, AgentCore.BuiltFrame authority.suite agent request original ∧
      agent.ca.x25519 = authority.suite.x25519Public authority.keys.x25519 ∧
      envelope.signedBytes = signedPart original ∧ evidence.built agent.id request

/-- A request that its sender built, as it was opened. -/
def Meant (evidence : Evidence) (admitted : CertificateAuthority.Admitted) : Prop :=
  ∃ request, evidence.built admitted.envelope.sender request ∧
    admitted.envelope.messageType = request.messageType ∧
    admitted.envelope.handler = request.handler ∧ admitted.plaintext = request.plaintext ∧
    request.Means admitted.operation

theorem acceptEnvelope_eq_ok {frame : Bytes} {envelope : EnvelopeRef}
    (accepted : CertificateAuthority.acceptEnvelope frame = .ok envelope) :
    parseEnvelope frame = .ok envelope ∧ envelope.recipient = .ca ∧ envelope.sender ≠ .ca ∧
      envelope.messageType ≠ .publicationResponse := by
  obtain ⟨parsedEnvelope, parsed, accepted⟩ := bind_eq_ok.mp accepted
  obtain ⟨addressed, accepted⟩ := rejectIf_bind_eq_ok accepted
  obtain ⟨kind, same⟩ := rejectIf_bind_eq_ok accepted
  cases same
  obtain ⟨recipient, sender⟩ := not_or.mp addressed
  exact ⟨parsed, not_not.mp recipient, sender, kind⟩

/-- Opening a genuine frame gives back the request it was built for. -/
theorem Genuine.meant {frame : Bytes} {envelope : EnvelopeRef} {keys : PublicKeys}
    {plaintext : Bytes} {operation : OperationRef} (genuine : Genuine authority evidence frame)
    (correct : authority.suite.Correct)
    (accepted : CertificateAuthority.acceptEnvelope frame = .ok envelope)
    (known : evidence.directory.get envelope.sender = some keys)
    (verified : authority.verifySender envelope keys = .ok ())
    (opened : authority.openRequest frame envelope keys = .ok (plaintext, operation)) :
    Meant evidence ⟨envelope, plaintext, operation⟩ := by
  obtain ⟨parsed, recipient, _, _⟩ := acceptEnvelope_eq_ok accepted
  have signature := CryptoSuite.verifyEnvelopeSignature_eq_ok.mp (rejectIf_bind_eq_ok verified).2
  obtain ⟨agent, request, original, built, trusted, signed, logged⟩ :=
    genuine envelope keys accepted known signature
  obtain ⟨header, ephemeralSecret, ciphertext, tag, messageType, sender, addressee, handler,
    message, written⟩ := built.framed
  rw [written, signedPart_frame] at signed
  have short : ciphertext.length ≤ maxPlaintextLen := message.length_eq ▸ message.short
  have view := parseEnvelope_of_signedBytes parsed signed short
  rw [trusted] at message
  have decrypted := message.opens correct parsed signed signature
  obtain ⟨bytes, unsealed, opened⟩ := bind_eq_ok.mp opened
  obtain ⟨meaning, read, same⟩ := bind_eq_ok.mp opened
  cases same
  have fields : envelope.toEnvelopeHeader = header := by
    rw [view]
    rfl
  have sameType : envelope.messageType = header.messageType :=
    congrArg EnvelopeHeader.messageType fields
  have sameSender : envelope.sender = header.sender := congrArg EnvelopeHeader.sender fields
  have sameHandler : envelope.handler = header.handler := congrArg EnvelopeHeader.handler fields
  rw [addressee, ← sameType] at decrypted
  cases unsealed.symm.trans decrypted
  refine ⟨request, ?_, sameType.trans messageType, sameHandler.trans handler, rfl,
    built.meaning operation read⟩
  rw [sameSender.trans sender]
  exact logged

theorem Evidence.allowsReads (evidence : Evidence) : AllowsReads evidence.contract where
  keys := fun _ => trivial
  environment := fun _ => trivial
  subscriptionsFor := fun _ => trivial
  claimSubscription := fun _ => trivial

theorem admission_obeys {frame : Bytes} {nowSeconds : UInt64} (correct : authority.suite.Correct)
    (genuine : Genuine authority evidence frame) :
    Obeys evidence.contract (Meant evidence) (authority.admission frame nowSeconds) := by
  refine obeys_bind (obeys_ofExcept fun _ => id) fun envelope accepted => ?_
  have directory : Obeys evidence.contract
      (fun keys => evidence.directory.get envelope.sender = some keys)
      (Effect.keys envelope.sender) :=
    obeys_perform trivial fun keys relied => relied keys rfl
  refine obeys_bind directory fun keys known => ?_
  refine obeys_bind (obeys_ofExcept fun _ => id) fun _ verified => ?_
  refine obeys_bind (obeys_perform trivial fun _ _ => trivial) fun _ _ => ?_
  refine obeys_bind (obeys_ofExcept fun _ => id) fun opened result => ?_
  exact obeys_pure (genuine.meant correct accepted known verified result)

theorem Evidence.Subscription.allowsDelivery (owned : evidence.Subscription subscription)
    (published : ∃ predicate, evidence.built publication.publisher
      (.publish publication.typeId predicate publication.value))
    (own : subscription.typeId = publication.typeId) :
    AllowsDelivery evidence.contract publication subscription := by
  intro keys relied
  obtain ⟨predicate, built, _⟩ := owned
  have known : evidence.directory.get subscription.subscriber = some keys := relied keys rfl
  have delivery : evidence.Delivery ⟨subscription.subscriber, subscription.handler,
      publication.typeId, publication.publisher, publication.value⟩ :=
    ⟨published, subscription.kind, predicate, own ▸ built⟩
  exact ⟨delivery, keys, known, rfl⟩

theorem processPublish_obeys {envelope : EnvelopeRef} {typeId : TypeId} {predicate : PredicateRef}
    {value : Bytes}
    (published : ∃ audience, evidence.built envelope.sender (.publish typeId audience value)) :
    Obeys evidence.contract (fun _ => True)
      (authority.processPublish envelope typeId predicate value) := by
  apply CertificateAuthority.processPublish_obeys evidence.allowsReads
  intro subscriptions relied entry member environment
  obtain ⟨own, owned⟩ := relied subscriptions rfl entry member
  exact owned.allowsDelivery published own

/-- `process` keeps to its contract on every genuine frame. -/
theorem process_obeys {frame : Bytes} {nowSeconds : UInt64} (correct : authority.suite.Correct)
    (genuine : Genuine authority evidence frame) :
    Obeys evidence.contract (fun _ => True) (authority.process frame nowSeconds) := by
  refine obeys_bind (admission_obeys correct genuine) fun admitted meant => ?_
  obtain ⟨request, built, messageType, handler, plaintext, means⟩ := meant
  rw [CertificateAuthority.dispatch]
  split
  · rename_i proposed sameType operation
    rw [sameType] at messageType
    cases request with
    | setEnvironment attributes =>
        exact CertificateAuthority.processSetEnvironment_obeys evidence.allowsReads
          ⟨attributes, built, plaintext⟩ proposed
    | subscribe => cases messageType
    | subscribePermanent => cases messageType
    | publish => cases messageType
  · rename_i typeId predicate sameType operation
    rw [sameType] at messageType
    cases request with
    | subscribe wanted chosen clauses =>
        rw [AgentCore.Request.Means, operation] at means
        cases means
        rw [AgentCore.Request.handler] at handler
        subst handler
        exact CertificateAuthority.processSubscribe_obeys evidence.allowsReads
          ⟨clauses, built, plaintext⟩
    | setEnvironment => cases messageType
    | subscribePermanent => cases messageType
    | publish => cases messageType
  · rename_i typeId predicate sameType operation
    rw [sameType] at messageType
    cases request with
    | subscribePermanent wanted chosen clauses =>
        rw [AgentCore.Request.Means, operation] at means
        cases means
        rw [AgentCore.Request.handler] at handler
        subst handler
        exact CertificateAuthority.processSubscribe_obeys evidence.allowsReads
          ⟨clauses, built, plaintext⟩
    | setEnvironment => cases messageType
    | subscribe => cases messageType
    | publish => cases messageType
  · rename_i typeId predicate value sameType operation
    rw [sameType] at messageType
    cases request with
    | publish wanted clauses sent =>
        rw [AgentCore.Request.Means, operation] at means
        cases means
        exact processPublish_obeys ⟨clauses, built⟩
    | setEnvironment => cases messageType
    | subscribe => cases messageType
    | subscribePermanent => cases messageType
  · exact obeys_fail _

end Process

/-! ## A store that answers as the contract relies on -/

section Answers

variable {ρ : Type} (random : CryptoRandom ρ) (authority : CertificateAuthority)
  {evidence : Evidence}

theorem Evidence.Accounts.setEnvironment {store : Store} (accounts : evidence.Accounts store.state)
    {agent : AgentId} {encoded : Bytes} (owned : evidence.Environment agent encoded) :
    evidence.Accounts (store.setEnvironment agent encoded).2.state := by
  obtain ⟨_, edited, _, result⟩ | ⟨_, _, kept⟩ := store.setEnvironment_cases agent encoded
  · rw [result, (StoreState.setEnvironment_eq_ok edited).2]
    refine ⟨accounts.keys, fun other stored found => ?_, accounts.subscriptions⟩
    rw [SortedMap.get_insert] at found
    split at found
    · rename_i same
      cases found
      exact same ▸ owned
    · exact accounts.environments other stored found
  · rw [kept]
    exact accounts

theorem Evidence.Accounts.putSubscription {store : Store}
    (accounts : evidence.Accounts store.state) {subscription : StoredSubscription}
    (owned : evidence.Subscription subscription) :
    evidence.Accounts (store.putSubscription subscription).2.state := by
  have put : evidence.Accounts (store.state.putSubscription store.limits subscription).2 := by
    refine ⟨accounts.keys, accounts.environments, fun typeId entry member => ?_⟩
    have table : (store.state.putSubscription store.limits subscription).2.subscriptions =
        (store.state.subscriptions.put store.limits.subscriptions subscription).2 := rfl
    rw [table] at member
    obtain ⟨bucket, stored, _, buckets⟩ | ⟨_, _, buckets⟩ :=
      store.state.subscriptions.put_cases store.limits.subscriptions subscription
    · rw [buckets] at member
      split at member
      · cases mem_of_mem_upsert stored member with
        | inl same => exact same ▸ owned
        | inr old => exact accounts.subscriptions _ entry old
      · exact accounts.subscriptions _ entry member
    · rw [buckets] at member
      exact accounts.subscriptions _ entry member
  obtain ⟨_, _, result⟩ | ⟨_, _, kept | ⟨_, result⟩⟩ := store.putSubscription_cases subscription
  · rw [result]
    exact put
  · rw [kept]
    exact accounts
  · rw [result]
    exact put

theorem Evidence.Accounts.claimSubscription {store : Store}
    (accounts : evidence.Accounts store.state) (subscription : StoredSubscription) :
    evidence.Accounts (store.claimSubscription subscription).2.state := by
  obtain ⟨_, result⟩ | ⟨_, _, kept⟩ := store.claimSubscription_cases subscription
  · rw [result]
    refine ⟨accounts.keys, accounts.environments, fun typeId entry member => ?_⟩
    have table : (store.state.claimSubscription subscription).2.subscriptions =
        (store.state.subscriptions.claim subscription).2 := rfl
    rw [table, SubscriptionTable.forType_claim] at member
    split at member
    · exact accounts.subscriptions _ entry (List.mem_of_mem_erase member)
    · exact accounts.subscriptions _ entry member
  · rw [kept]
    exact accounts

/-- One effect answers as relied on and keeps the accounts in order. -/
theorem perform_accounts (call : CaCall) (world : World ρ)
    (accounts : evidence.Accounts world.store.state) (allowed : evidence.contract.guarantee call) :
    evidence.contract.rely call (authority.perform random call world).1 ∧
      evidence.Accounts (authority.perform random call world).2.store.state := by
  cases call with
  | keys agent =>
      refine ⟨fun keys replied => ?_, accounts⟩
      rw [CertificateAuthority.perform, StoreState.keysOf, accounts.keys] at replied
      dsimp only at replied
      split at replied
      · rename_i held found
        cases replied
        exact found
      · cases replied
  | environment agent =>
      refine ⟨fun encoded replied => ?_, accounts⟩
      exact accounts.environments agent encoded (Except.ok.inj replied)
  | subscriptionsFor typeId =>
      refine ⟨fun entries replied entry member => ?_, accounts⟩
      cases replied
      exact ⟨SubscriptionTable.typeId_of_mem member, accounts.subscriptions typeId entry member⟩
  | delivery => exact ⟨trivial, accounts⟩
  | checkAndMark sender session nowSeconds =>
      refine ⟨trivial, ?_⟩
      change evidence.Accounts (world.marked sender session nowSeconds).store.state
      rw [World.marked_state]
      exact ⟨accounts.keys, accounts.environments, accounts.subscriptions⟩
  | setEnvironment agent encoded => exact ⟨trivial, accounts.setEnvironment allowed⟩
  | putSubscription subscription => exact ⟨trivial, accounts.putSubscription allowed⟩
  | claimSubscription subscription => exact ⟨trivial, accounts.claimSubscription subscription⟩

def sealedFrame (event : caInterface.Event) : Option Bytes :=
  match event with
  | ⟨.delivery .., .ok frame⟩ => some frame
  | _ => none

/-- The frames that one call of `process` signs, those that it fails to push included. -/
def sealedFrames (frame : Bytes) (nowSeconds : UInt64) (world : World ρ) : List Bytes :=
  (events (authority.perform random) (authority.process frame nowSeconds) world).filterMap
    sealedFrame

/-- A genuine frame keeps the accounts in order, and only accounted deliveries are signed. -/
theorem handle_accounts {frame : Bytes} {nowSeconds : UInt64} {world : World ρ}
    (correct : authority.suite.Correct) (genuine : Genuine authority evidence frame)
    (accounts : evidence.Accounts world.store.state) :
    evidence.Accounts (authority.handle random frame nowSeconds world).2.store.state ∧
      ∀ made ∈ sealedFrames random authority frame nowSeconds world, ∃ delivery keys,
        evidence.Delivery delivery ∧ evidence.directory.get delivery.recipient = some keys ∧
          Seals authority delivery keys.x25519 made := by
  obtain ⟨kept, _, made⟩ := (process_obeys correct genuine).run
    (fun current : World ρ => evidence.Accounts current.store.state)
    (fun call current holds allowed => perform_accounts random authority call current holds allowed)
    accounts
  refine ⟨kept, fun frame member => ?_⟩
  obtain ⟨⟨call, reply⟩, happened, found⟩ := List.mem_filterMap.mp member
  obtain ⟨allowed, before, _, answered⟩ := made _ happened
  cases call with
  | delivery publisher recipient handler typeId value recipientX25519 =>
      cases reply with
      | error error => cases found
      | ok sealing =>
          cases found
          obtain ⟨delivery, keys, known, rfl⟩ := allowed
          have drawn : (authority.delivery random publisher recipient handler typeId value
              keys.x25519 before.rng).1 = .ok frame := answered.symm
          exact ⟨_, keys, delivery, known, delivery_eq_ok drawn⟩
  | keys => cases found
  | environment => cases found
  | subscriptionsFor => cases found
  | checkAndMark => cases found
  | setEnvironment => cases found
  | putSubscription => cases found
  | claimSubscription => cases found

end Answers

/-! ## Agents, their CA and an adversary between them -/

/-- What the honest parties did. -/
inductive Happening where
  | built (agent : AgentCore.Agent) (request : AgentCore.Request) (frame : Bytes)
  | signed (frame : Bytes)
  | received (agent : AgentCore.Agent) (delivery : AgentCore.Delivery)

/-- An agent of this identity built the request. -/
def Built (history : List Happening) (agent : AgentId) (request : AgentCore.Request) : Prop :=
  ∃ owner frame, owner.id = agent ∧ .built owner request frame ∈ history

/-- A CA and the honest agents. -/
structure Deployment where
  authority : CertificateAuthority
  agents : List AgentCore.Agent

/-- The store of the CA and all that happened so far. -/
structure Network (ρ : Type) where
  world : World ρ
  history : List Happening

namespace Deployment

variable (deployment : Deployment)

def publicKeys (agent : AgentCore.Agent) : PublicKeys :=
  ⟨deployment.authority.suite.verifyingKey agent.keys.signing,
    deployment.authority.suite.x25519Public agent.keys.x25519⟩

def caPublicKeys : AgentCore.CaPublicKeys :=
  ⟨deployment.authority.suite.verifyingKey deployment.authority.keys.signing,
    deployment.authority.suite.x25519Public deployment.authority.keys.x25519⟩

/-- The verifying keys that belong to an honest party. -/
def verifyingKeys : List Key32 :=
  deployment.caPublicKeys.ed25519 ::
    deployment.agents.map (fun agent => (deployment.publicKeys agent).ed25519)

/-- The verifying key and the bytes of the signature that an event made. -/
def signature : Happening → Option (Key32 × Bytes)
  | .built agent _ frame => some ((deployment.publicKeys agent).ed25519, signedPart frame)
  | .signed frame => some (deployment.caPublicKeys.ed25519, signedPart frame)
  | .received .. => none

/-- Ideal signatures: one that verifies under an honest party's key is on bytes that this party
signed. -/
def Ideal (history : List Happening) (frame : Bytes) : Prop :=
  ∀ envelope, parseEnvelope frame = .ok envelope → ∀ key ∈ deployment.verifyingKeys,
    deployment.authority.suite.verifyStrict key envelope.signedBytes envelope.signature = true →
      (key, envelope.signedBytes) ∈ history.filterMap deployment.signature

/-- The CA knows the honest agents by their keys, and these know the CA. -/
structure Provisioned (directory : SortedMap AgentId PublicKeys) : Prop where
  honest : ∀ agent keys, directory.get agent = some keys →
    ∃ owner ∈ deployment.agents, owner.id = agent
  matching : ∀ agent ∈ deployment.agents, ∀ keys, directory.get agent.id = some keys →
    keys = deployment.publicKeys agent
  trusted : ∀ agent ∈ deployment.agents, agent.ca = deployment.caPublicKeys

/-- Agents build requests, and the adversary hands frames to the CA and to agents. -/
inductive Step {ρ : Type} (random : CryptoRandom ρ) : Network ρ → Network ρ → Prop where
  | build {network : Network ρ} (agent : AgentCore.Agent) (member : agent ∈ deployment.agents)
      (outputLen : Nat) (request : AgentCore.Request) (state : ρ) (frame : Bytes)
      (built : (AgentCore.build deployment.authority.suite random agent outputLen request
        state).1 = .ok frame) :
      Step random network
        { network with history := network.history ++ [.built agent request frame] }
  | process {network : Network ρ} (frame : Bytes) (nowSeconds : UInt64)
      (ideal : deployment.Ideal network.history frame) :
      Step random network
        ⟨(deployment.authority.handle random frame nowSeconds network.world).2,
          network.history ++ (sealedFrames random deployment.authority frame nowSeconds
            network.world).map .signed⟩
  | receive {network : Network ρ} {R : Type} (protector : AgentCore.ReplayProtector R)
      (agent : AgentCore.Agent) (member : agent ∈ deployment.agents) (frame : Bytes)
      (handler : HandlerId) (nowSeconds : UInt64) (replay : R)
      (ideal : deployment.Ideal network.history frame) :
      Step random network
        { network with history := network.history ++
          (AgentCore.receive deployment.authority.suite protector agent frame handler nowSeconds
            replay).1.toOption.toList.map (.received agent) }

abbrev Run {ρ : Type} (random : CryptoRandom ρ) : Network ρ → Network ρ → Prop :=
  Relation.ReflTransGen (deployment.Step random)

/-- A provisioned store without records, before anything happened. -/
structure Initial {ρ : Type} (network : Network ρ) : Prop where
  provisioned : deployment.Provisioned network.world.store.state.keys
  environments : ∀ agent, network.world.store.state.environments.get agent = none
  subscriptions : ∀ typeId, network.world.store.state.subscriptions.forType typeId = []
  history : network.history = []

/-- Where an event came from. -/
def Explains (directory : SortedMap AgentId PublicKeys) (earlier : List Happening) :
    Happening → Prop
  | .built agent request frame => agent ∈ deployment.agents ∧
      AgentCore.BuiltFrame deployment.authority.suite agent request frame
  | .signed frame => ∃ delivery keys, Evidence.Delivery ⟨directory, Built earlier⟩ delivery ∧
      directory.get delivery.recipient = some keys ∧
      Seals deployment.authority delivery keys.x25519 frame
  | .received agent delivery => Evidence.Delivery ⟨directory, Built earlier⟩
      ⟨agent.id, delivery.handler, delivery.typeId, delivery.publisher, delivery.value⟩

/-- All that happened is explained, and so is all that the CA has stored. -/
structure Authentic {ρ : Type} (network : Network ρ) : Prop where
  provisioned : deployment.Provisioned network.world.store.state.keys
  causal : Causal (deployment.Explains network.world.store.state.keys) network.history
  accounts : Evidence.Accounts ⟨network.world.store.state.keys, Built network.history⟩
    network.world.store.state

section Steps

variable {deployment} {ρ : Type} {random : CryptoRandom ρ} {network next start : Network ρ}
  {directory : SortedMap AgentId PublicKeys} {history : List Happening}

theorem built_append {agent : AgentId} {request : AgentCore.Request} (more : List Happening)
    (built : Built history agent request) : Built (history ++ more) agent request := by
  obtain ⟨owner, frame, same, member⟩ := built
  exact ⟨owner, frame, same, List.mem_append.mpr (.inl member)⟩

theorem delivery_append {delivery : Addressed} (more : List Happening)
    (accounted : Evidence.Delivery ⟨directory, Built history⟩ delivery) :
    Evidence.Delivery ⟨directory, Built (history ++ more)⟩ delivery := by
  obtain ⟨⟨predicate, published⟩, kind, clauses, subscribed⟩ := accounted
  exact ⟨⟨predicate, built_append more published⟩, kind, clauses, built_append more subscribed⟩

theorem accounts_append {state : StoreState} (more : List Happening)
    (accounts : Evidence.Accounts ⟨directory, Built history⟩ state) :
    Evidence.Accounts ⟨directory, Built (history ++ more)⟩ state := by
  refine ⟨accounts.keys, fun agent encoded found => ?_, fun typeId entry member => ?_⟩
  · obtain ⟨attributes, built, same⟩ := accounts.environments agent encoded found
    exact ⟨attributes, built_append more built, same⟩
  · obtain ⟨predicate, built, same⟩ := accounts.subscriptions typeId entry member
    exact ⟨predicate, built_append more built, same⟩

theorem explains_append (earlier more : List Happening) (event : Happening)
    (explained : deployment.Explains directory earlier event) :
    deployment.Explains directory (earlier ++ more) event := by
  cases event with
  | built agent request frame => exact explained
  | signed frame =>
      obtain ⟨delivery, keys, accounted, known, sealing⟩ := explained
      exact ⟨delivery, keys, delivery_append more accounted, known, sealing⟩
  | received agent delivery => exact delivery_append more explained

theorem Ideal.signer {frame : Bytes} {envelope : EnvelopeRef} {key : Key32}
    (ideal : deployment.Ideal history frame) (parsed : parseEnvelope frame = .ok envelope)
    (owned : key ∈ deployment.verifyingKeys)
    (verified : deployment.authority.suite.verifyStrict key envelope.signedBytes
      envelope.signature = true) :
    (∃ agent request original, .built agent request original ∈ history ∧
        envelope.signedBytes = signedPart original) ∨
      (∃ original, .signed original ∈ history ∧ envelope.signedBytes = signedPart original) := by
  obtain ⟨event, member, made⟩ := List.mem_filterMap.mp (ideal envelope parsed key owned verified)
  cases event with
  | built agent request original =>
      exact .inl ⟨agent, request, original, member,
        (congrArg Prod.snd (Option.some.inj made)).symm⟩
  | signed original =>
      exact .inr ⟨original, member, (congrArg Prod.snd (Option.some.inj made)).symm⟩
  | received agent delivery => cases made

theorem envelope_of_built {suite : CryptoSuite} {agent : AgentCore.Agent}
    {request : AgentCore.Request} {original frame : Bytes} {envelope : EnvelopeRef}
    (built : AgentCore.BuiltFrame suite agent request original)
    (parsed : parseEnvelope frame = .ok envelope)
    (signed : envelope.signedBytes = signedPart original) :
    envelope.messageType = request.messageType := by
  obtain ⟨header, ephemeralSecret, ciphertext, tag, messageType, _, _, _, message, written⟩ :=
    built.framed
  rw [written, signedPart_frame] at signed
  have view := parseEnvelope_of_signedBytes parsed signed (message.length_eq ▸ message.short)
  rw [view]
  exact messageType

/-- Under ideal signatures a frame is genuine for the CA. -/
theorem Authentic.genuine (authentic : deployment.Authentic network) {frame : Bytes}
    (ideal : deployment.Ideal network.history frame) :
    Genuine deployment.authority ⟨network.world.store.state.keys, Built network.history⟩ frame := by
  intro envelope keys accepted known verified
  obtain ⟨parsed, _, _, request⟩ := acceptEnvelope_eq_ok accepted
  obtain ⟨owner, member, same⟩ := authentic.provisioned.honest _ _ known
  have own := authentic.provisioned.matching owner member keys (same ▸ known)
  have owned : keys.ed25519 ∈ deployment.verifyingKeys := by
    rw [own]
    exact List.mem_cons_of_mem _ (List.mem_map_of_mem member)
  obtain ⟨agent, made, original, happened, signed⟩ | ⟨original, happened, signed⟩ :=
    ideal.signer parsed owned verified
  · obtain ⟨honest, built⟩ := authentic.causal.explained explains_append happened
    have trusted := congrArg AgentCore.CaPublicKeys.x25519
      (authentic.provisioned.trusted agent honest)
    exact ⟨agent, made, original, built, trusted, signed, agent, original, rfl, happened⟩
  · obtain ⟨delivery, recipientKeys, _, _, header, ephemeralSecret, ciphertext, tag, messageType, _,
      _, _, _, message, written⟩ := authentic.causal.explained explains_append happened
    rw [written, signedPart_frame] at signed
    have view := parseEnvelope_of_signedBytes parsed signed (message.length_eq ▸ message.short)
    rw [view] at request
    exact absurd messageType request

/-- A delivery that an honest agent accepts is one that the CA sealed for it. -/
theorem Authentic.received (correct : deployment.authority.suite.Correct)
    (authentic : deployment.Authentic network) {R : Type}
    {protector : AgentCore.ReplayProtector R} {agent : AgentCore.Agent}
    (member : agent ∈ deployment.agents) {frame : Bytes} {handler : HandlerId}
    {nowSeconds : UInt64} {replay : R} {delivery : AgentCore.Delivery}
    (ideal : deployment.Ideal network.history frame)
    (accepted : (AgentCore.receive deployment.authority.suite protector agent frame handler
      nowSeconds replay).1 = .ok delivery) :
    deployment.Explains network.world.store.state.keys network.history
      (.received agent delivery) := by
  obtain ⟨envelope, authenticated, opened⟩ := AgentCore.receive_eq_ok accepted
  obtain ⟨_, parsed, recipient, messageType, sameHandler, _, verified⟩ :=
    AgentCore.authenticate_eq_ok.mp authenticated
  obtain ⟨plaintext, decrypted, read, expected⟩ := AgentCore.openDelivery_eq_ok opened
  have trusted := authentic.provisioned.trusted agent member
  have owned : agent.ca.ed25519 ∈ deployment.verifyingKeys := by
    rw [trusted]
    exact List.mem_cons_self
  obtain ⟨other, made, original, happened, signed⟩ | ⟨original, happened, signed⟩ :=
    ideal.signer parsed owned verified
  · obtain ⟨_, built⟩ := authentic.causal.explained explains_append happened
    have request := (envelope_of_built built parsed signed).symm.trans messageType
    cases made <;> cases request
  · obtain ⟨addressed, keys, accounted, known, header, ephemeralSecret, ciphertext, tag, responds, _,
      addressee, chosen, short, message, written⟩ :=
        authentic.causal.explained explains_append happened
    rw [written, signedPart_frame] at signed
    have view := parseEnvelope_of_signedBytes parsed signed (message.length_eq ▸ message.short)
    have fields : envelope.toEnvelopeHeader = header := by
      rw [view]
      rfl
    have sameRecipient : addressed.recipient = agent.id := by
      rw [← addressee, ← fields, recipient]
    rw [sameRecipient] at known
    rw [authentic.provisioned.matching agent member keys known] at message
    have unsealed := message.opens correct parsed signed verified
    rw [addressee, sameRecipient, responds] at unsealed
    cases decrypted.symm.trans unsealed
    have meaning := read.symm.trans (parseOperation_response short)
    simp only [Except.ok.injEq, OperationRef.publicationResponse.injEq] at meaning
    obtain ⟨sameType, samePublisher, sameValue⟩ := meaning
    have sameAddress : addressed.handler = delivery.handler := by
      rw [← chosen, ← fields, sameHandler, expected]
    rw [Explains, ← sameRecipient, sameType, samePublisher, sameValue, ← sameAddress]
    exact accounted

theorem Step.authentic (correct : deployment.authority.suite.Correct)
    (step : deployment.Step random network next) (authentic : deployment.Authentic network) :
    deployment.Authentic next := by
  cases step with
  | build agent member outputLen request state frame built =>
      refine ⟨authentic.provisioned, authentic.causal.snoc ?_, accounts_append _ authentic.accounts⟩
      exact ⟨member, AgentCore.build_eq_ok built⟩
  | process frame nowSeconds ideal =>
      obtain ⟨accounts, made⟩ := handle_accounts random deployment.authority correct
        (authentic.genuine ideal) authentic.accounts
      have keys : (deployment.authority.handle random frame nowSeconds
          network.world).2.store.state.keys = network.world.store.state.keys := accounts.keys
      refine ⟨keys ▸ authentic.provisioned, ?_, ?_⟩
      · dsimp only
        rw [keys]
        refine authentic.causal.append explains_append fun event member => ?_
        obtain ⟨signed, inside, rfl⟩ := List.mem_map.mp member
        exact made signed inside
      · dsimp only
        rw [keys]
        exact accounts_append _ accounts
  | receive protector agent member frame handler nowSeconds replay ideal =>
      refine ⟨authentic.provisioned, ?_, accounts_append _ authentic.accounts⟩
      refine authentic.causal.append explains_append fun event inside => ?_
      obtain ⟨delivery, returned, rfl⟩ := List.mem_map.mp inside
      cases answer : (AgentCore.receive deployment.authority.suite protector agent frame handler
          nowSeconds replay).1 with
      | error error =>
          rw [answer] at returned
          cases returned
      | ok accepted =>
          rw [answer] at returned
          cases List.mem_singleton.mp returned
          exact authentic.received correct member ideal answer

theorem Initial.authentic (initial : deployment.Initial network) :
    deployment.Authentic network := by
  refine ⟨initial.provisioned, ?_, rfl, fun agent encoded found => ?_, fun typeId entry member => ?_⟩
  · rw [initial.history]
    exact .nil _
  · rw [initial.environments agent] at found
    cases found
  · rw [initial.subscriptions typeId] at member
    cases member

theorem Run.authentic (correct : deployment.authority.suite.Correct)
    (run : deployment.Run random start network) (initial : deployment.Initial start) :
    deployment.Authentic network := by
  induction run with
  | refl => exact initial.authentic
  | tail _ step ih => exact step.authentic correct ih

/-- End-to-end authenticity: what an honest agent receives was published by its publisher and
subscribed to by that agent, and what the CA stores was requested by its owner. -/
theorem run_authentic (correct : deployment.authority.suite.Correct)
    (run : deployment.Run random start network) (initial : deployment.Initial start) :
    (∀ earlier agent delivery later,
        network.history = earlier ++ .received agent delivery :: later →
        (∃ predicate, Built earlier delivery.publisher
          (.publish delivery.typeId predicate delivery.value)) ∧
        ∃ (kind : SubscriptionKind) (predicate : List ClauseRef), Built earlier agent.id
          (kind.request delivery.typeId delivery.handler predicate)) ∧
      (∀ agent encoded, network.world.store.state.environments.get agent = some encoded →
        ∃ attributes, Built network.history agent (.setEnvironment attributes) ∧
          encoded = (AgentCore.Request.setEnvironment attributes).plaintext) ∧
      (∀ typeId, ∀ entry ∈ network.world.store.state.subscriptions.forType typeId,
        ∃ predicate, Built network.history entry.subscriber
            (entry.kind.request entry.typeId entry.handler predicate) ∧
          entry.encoded = (entry.kind.request entry.typeId entry.handler predicate).plaintext) := by
  have authentic := run.authentic correct initial
  refine ⟨fun earlier agent delivery later split => ?_, authentic.accounts.environments,
    authentic.accounts.subscriptions⟩
  obtain ⟨published, subscribed⟩ := authentic.causal earlier _ later split
  exact ⟨published, subscribed⟩

end Steps

end Deployment

/-! ## One publication from its building to its receipt -/

namespace Sample

def deployment : Deployment := ⟨authority, [agent 1, agent 2]⟩

def deployed : Network Nat :=
  ⟨(provision 2 (.fill 32 2) (provision 1 (.fill 32 1) start)).world, []⟩

/-- An agent builds a request and the CA processes it. -/
def exchange (number : UInt8) (request : AgentCore.Request) (seed : Nat) (network : Network Nat) :
    Network Nat :=
  let sent := frame number request seed
  ⟨(authority.handle .counting sent 10 network.world).2,
    (network.history ++ [.built (agent number) request sent]) ++
      (sealedFrames .counting authority sent 10 network.world).map .signed⟩

/-- Two agents set their environments, and agent 2 subscribes. -/
def prepared : Network Nat :=
  exchange 2 (.subscribe typeId handler []) 40 (exchange 2 (.setEnvironment []) 20
    (exchange 1 (.setEnvironment []) 10 deployed))

/-- The frame that the CA signs for the publication of agent 1. -/
def response : Bytes :=
  (sealedFrames .counting authority publication 10 prepared.world).headD []

def received : Except Error AgentCore.Delivery :=
  (AgentCore.receive authority.suite ⟨fun _ _ _ _ => (.ok (), ())⟩ (agent 2) response handler 10
    ()).1

/-- Agent 2 receives the publication of agent 1. -/
def delivered : Network Nat :=
  let published := exchange 1 (.publish typeId [] [42]) 60 prepared
  ⟨published.world, published.history ++ received.toOption.toList.map (.received (agent 2))⟩

/-- In this suite a frame ends with its owner's key, so it is ideal once its owner signed it. -/
theorem ideal_of_signed {history : List Happening} {event : Happening} {key : Key32} {sent : Bytes}
    (member : event ∈ history) (made : deployment.signature event = some (key, signedPart sent))
    (ends : sent.drop (sent.length - signatureLen) = key.bytes ++ key.bytes) :
    deployment.Ideal history sent := by
  intro envelope parsed other _ verified
  obtain ⟨_, _, whole, _⟩ := parseEnvelope_eq_ok parsed
  have cut : sent.length - signatureLen = envelope.signedBytes.length := by
    rw [whole, List.length_append, FixedBytes.length_bytes, Nat.add_sub_cancel]
  have signed : signedPart sent = envelope.signedBytes := by
    rw [signedPart, cut, whole]
    exact List.take_left
  have signature : envelope.signature.bytes = key.bytes ++ key.bytes := by
    rw [← ends, cut, whole]
    exact List.drop_left.symm
  have same : other = key := by
    have equal : other.bytes ++ other.bytes = key.bytes ++ key.bytes :=
      (of_decide_eq_true verified).symm.trans signature
    exact FixedBytes.ext (List.append_inj_left equal
      (other.length_bytes.trans key.length_bytes.symm))
  rw [same, ← signed]
  exact List.mem_filterMap.mpr ⟨event, member, made⟩

theorem exchange_run (number : UInt8) (request : AgentCore.Request) (seed : Nat)
    {network : Network Nat} (honest : agent number ∈ deployment.agents)
    (built : (AgentCore.build .transparent .counting (agent number) maxFrameLen request
      seed).1.isOk = true)
    (ends : (frame number request seed).drop ((frame number request seed).length - signatureLen) =
      (deployment.publicKeys (agent number)).ed25519.bytes ++
        (deployment.publicKeys (agent number)).ed25519.bytes) :
    deployment.Run .counting network (exchange number request seed network) := by
  have made : (AgentCore.build .transparent .counting (agent number) maxFrameLen request seed).1 =
      .ok (frame number request seed) := by
    rw [frame]
    cases returned : (AgentCore.build .transparent .counting (agent number) maxFrameLen request
        seed).1 with
    | error error =>
        rw [returned] at built
        cases built
    | ok sent => rfl
  have first : deployment.Step .counting network { network with
      history := network.history ++ [.built (agent number) request (frame number request seed)] } :=
    .build (agent number) honest maxFrameLen request seed _ made
  exact (Relation.ReflTransGen.single first).tail (.process _ 10
    (ideal_of_signed (List.mem_append.mpr (.inr List.mem_cons_self)) rfl ends))

theorem prepared_run : deployment.Run .counting deployed prepared := by
  refine .trans (exchange_run 1 (.setEnvironment []) 10 (by simp [deployment])
    (by decide +kernel) (by decide +kernel)) ?_
  refine .trans (exchange_run 2 (.setEnvironment []) 20 (by simp [deployment])
    (by decide +kernel) (by decide +kernel)) ?_
  exact exchange_run 2 (.subscribe typeId handler []) 40 (by simp [deployment])
    (by decide +kernel) (by decide +kernel)

theorem delivered_run : deployment.Run .counting deployed delivered := by
  refine prepared_run.trans (.tail (exchange_run 1 (.publish typeId [] [42]) 60
    (by simp [deployment]) (by decide +kernel) (by decide +kernel)) ?_)
  refine .receive _ (agent 2) (by simp [deployment]) response handler 10 () ?_
  have signed : response ∈ sealedFrames .counting authority publication 10 prepared.world := by
    decide +kernel
  refine ideal_of_signed (List.mem_append.mpr (.inr (List.mem_map_of_mem signed))) rfl ?_
  decide +kernel

theorem deployed_keys : deployed.world.store.state.keys.entries =
    [((agent 1).id, deployment.publicKeys (agent 1)),
      ((agent 2).id, deployment.publicKeys (agent 2))] := by
  decide +kernel

theorem deployed_initial : deployment.Initial deployed where
  provisioned := by
    have known (agent : AgentId) (keys : PublicKeys)
        (found : deployed.world.store.state.keys.get agent = some keys) :
        ∃ owner ∈ deployment.agents, owner.id = agent := by
      have member := SortedMap.get_eq_some.mp found
      rw [deployed_keys] at member
      obtain first | second := List.mem_cons.mp member
      · cases first
        exact ⟨_, List.mem_cons_self, rfl⟩
      · cases List.mem_singleton.mp second
        exact ⟨_, List.mem_cons_of_mem _ List.mem_cons_self, rfl⟩
    have matching : ∀ owner ∈ deployment.agents, deployed.world.store.state.keys.get owner.id =
        some (deployment.publicKeys owner) := by
      intro owner member
      refine SortedMap.get_eq_some.mpr ?_
      rw [deployed_keys]
      obtain rfl | second := List.mem_cons.mp member
      · exact List.mem_cons_self
      · cases List.mem_singleton.mp second
        exact List.mem_cons_of_mem _ List.mem_cons_self
    refine ⟨known, fun owner member keys found => ?_, fun owner member => ?_⟩
    · exact Option.some.inj (found.symm.trans (matching owner member))
    · obtain rfl | second := List.mem_cons.mp member
      · rfl
      · cases List.mem_singleton.mp second
        rfl
  environments := fun agent => by
    have none : deployed.world.store.state.environments = .empty :=
      SortedMap.ext (List.isEmpty_iff.mp (by decide +kernel))
    rw [none]
    rfl
  subscriptions := fun typeId => by
    have none : deployed.world.store.state.subscriptions.buckets = .empty :=
      SortedMap.ext (List.isEmpty_iff.mp (by decide +kernel))
    rw [SubscriptionTable.forType, none]
    rfl
  history := rfl

end Sample

theorem sample_authentic : ∃ earlier delivery,
    Sample.delivered.history = earlier ++ [.received (Sample.agent 2) delivery] ∧
      delivery.value = [42] ∧
      (∃ predicate, Built earlier delivery.publisher
        (.publish delivery.typeId predicate delivery.value)) ∧
      ∃ (kind : SubscriptionKind) (predicate : List ClauseRef), Built earlier (Sample.agent 2).id
        (kind.request delivery.typeId delivery.handler predicate) := by
  have authentic := Deployment.run_authentic CryptoSuite.transparent_correct Sample.delivered_run
    Sample.deployed_initial
  have value : Sample.received.toOption.map AgentCore.Delivery.value = some [42] := by
    decide +kernel
  cases answer : Sample.received with
  | error error =>
      rw [answer] at value
      cases value
  | ok delivery =>
      rw [answer] at value
      have split : Sample.delivered.history =
          (Sample.exchange 1 (.publish Sample.typeId [] [42]) 60 Sample.prepared).history ++
            [.received (Sample.agent 2) delivery] := by
        rw [Sample.delivered, answer]
        rfl
      exact ⟨_, delivery, split, Option.some.inj value, authentic.1 _ _ _ [] split⟩

end SecurePubSub.Authority

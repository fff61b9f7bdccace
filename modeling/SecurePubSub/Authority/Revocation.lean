import SecurePubSub.Authority.CallRules
import SecurePubSub.Authority.ReplayWindow
import SecurePubSub.Data.Interleaving
import SecurePubSub.Data.Machine

namespace SecurePubSub.Authority

open SecurePubSub.Data SecurePubSub.Data.Program SecurePubSub.Protocol

/-! Requests in progress while agents are removed or change their keys.

Requests run as threads over one persistent store, and a reconciliation may come between
any two of their calls. Beside the store stands the history that the guarantee speaks of:
under which keys each record was verified, and which keys a reconciliation withdrew.
-/

/-- What an agent owns in the store. -/
inductive Record where
  | environment (agent : AgentId)
  | subscription (agent : AgentId) (typeId : TypeId) (handler : HandlerId)
deriving DecidableEq

def Record.owner : Record → AgentId
  | environment agent => agent
  | subscription agent _ _ => agent

def StoreState.Has (state : StoreState) : Record → Prop
  | .environment agent => state.environments.contains agent = true
  | .subscription agent typeId handler => ∃ entry ∈ state.subscriptions.forType typeId,
      entry.subscriber = agent ∧ entry.handler = handler

def CaCall.record : CaCall → Option Record
  | .setEnvironment agent _ => some (.environment agent)
  | .putSubscription subscription =>
      some (.subscription subscription.subscriber subscription.typeId subscription.handler)
  | _ => none

def written (event : caInterface.Event) : Option Record :=
  match event.reply with
  | .ok _ => event.call.record
  | .error _ => none

/-- The keys of an agent that a request was verified with: its first call asks for them. -/
def verifiedKeys (agent : AgentId) (history : List caInterface.Event) : Option PublicKeys :=
  match history with
  | ⟨.keys asked, .ok keys⟩ :: _ => if asked = agent then some keys else none
  | _ => none

/-- Threads of requests over one store, and what has become of records and keys. -/
structure Service (ρ : Type) where
  world : World ρ
  threads : List (Thread caInterface ProcessResult)
  sources : Record → Option PublicKeys
  withdrawn : AgentId → PublicKeys → Bool

inductive ServiceInput where
  | request (frame : Bytes) (nowSeconds : UInt64)
  | turn (index : Nat)
  | reconcile (configured : List (AgentId × PublicKeys))

namespace Service

variable {ρ : Type} (random : CryptoRandom ρ) (authority : CertificateAuthority)

def state (service : Service ρ) : StoreState := service.world.store.state

/-- Every record of the store was verified with the keys in its directory. -/
def start (store : PersistentStore) (rng : ρ) : Service ρ where
  world := ⟨.persistent store, rng⟩
  threads := []
  sources := fun record => store.state.keys.get record.owner
  withdrawn := fun _ _ => false

def sourcesAfter (service : Service ρ) (history : List caInterface.Event)
    (event : caInterface.Event) : Record → Option PublicKeys :=
  match written event with
  | some record => Function.update service.sources record (verifiedKeys record.owner history)
  | none => service.sources

/-- The keys that the former directory had for an agent and the new one has not are withdrawn,
until a directory has them again. -/
def withdrawnAfter (service : Service ρ) (former current : SortedMap AgentId PublicKeys)
    (agent : AgentId) (keys : PublicKeys) : Bool :=
  decide (current.get agent ≠ some keys) &&
    (decide (former.get agent = some keys) || service.withdrawn agent keys)

def advance (service : Service ρ) (index : Nat) (program : CaProgram ProcessResult)
    (history : List caInterface.Event) (request : CaCall)
    (resume : caInterface.Reply request → CaProgram ProcessResult) : Service ρ :=
  let answer := authority.perform random request service.world
  let event : caInterface.Event := ⟨request, answer.1⟩
  { service with
    world := answer.2
    threads := service.threads.set index ⟨program, history ++ [event], resume answer.1⟩
    sources := service.sourcesAfter history event }

def step (service : Service ρ) : ServiceInput → Service ρ
  | .request frame nowSeconds =>
      let program := authority.process frame nowSeconds
      { service with threads := service.threads ++ [⟨program, [], program⟩] }
  | .turn index =>
      match service.threads[index]? with
      | some ⟨program, history, .call request resume⟩ =>
          service.advance random authority index program history request resume
      | _ => service
  | .reconcile configured =>
      match service.world.store with
      | .memory _ => service
      | .persistent store =>
          let answer := store.reconcileAgents configured
          { service with
            world := { service.world with store := .persistent answer.2 }
            withdrawn :=
              match answer.1 with
              | .ok () => service.withdrawnAfter store.state.keys answer.2.state.keys
              | .error _ => service.withdrawn }

/-- No record is left whose request was verified with withdrawn keys. -/
def Clean (service : Service ρ) : Prop :=
  ∀ record keys, service.state.Has record → service.sources record = some keys →
    service.withdrawn record.owner keys = false

/-- A record is only stored while the directory has the keys it was verified with. -/
def timely (service : Service ρ) (input : ServiceInput) : Bool :=
  match input with
  | .turn index =>
      match service.threads[index]? with
      | some ⟨_, history, .call request _⟩ =>
          match written ⟨request, (authority.perform random request service.world).1⟩ with
          | some record =>
              decide (service.state.keys.get record.owner = verifiedKeys record.owner history)
          | none => true
      | _ => true
  | _ => true

end Service

/-! ## What calls and reconciliations do to the records -/

section Records

variable {ρ : Type} {random : CryptoRandom ρ} {authority : CertificateAuthority}
  {state : StoreState} {record : Record}

theorem written_eq_some {call : CaCall} {reply : caInterface.Reply call}
    (stored : written ⟨call, reply⟩ = some record) :
    (∃ value, reply = .ok value) ∧ call.record = some record := by
  cases reply with
  | error fault => cases stored
  | ok value => exact ⟨⟨value, rfl⟩, stored⟩

theorem has_setEnvironment {agent : AgentId} {encoded : Bytes} :
    { state with environments := state.environments.insert agent encoded }.Has record ↔
      state.Has record ∨ record = .environment agent := by
  cases record with
  | subscription other typeId handler => simp [StoreState.Has]
  | environment other =>
      simp only [StoreState.Has, SortedMap.contains_eq, SortedMap.get_insert,
        Record.environment.injEq]
      by_cases same : other = agent <;> simp [same]

theorem has_of_putSubscription {limits : StoreLimits} {subscription : StoredSubscription}
    (has : (state.putSubscription limits subscription).2.Has record) :
    state.Has record ∨ (state.putSubscription limits subscription).1 = .ok () ∧
      CaCall.record (.putSubscription subscription) = some record := by
  cases record with
  | environment agent => exact .inl has
  | subscription agent typeId handler =>
      obtain ⟨entry, member, subscriber, sameHandler⟩ := has
      change entry ∈ (state.subscriptions.put limits.subscriptions subscription).2.forType typeId
        at member
      obtain ⟨bucket, stored, accepted, buckets⟩ | ⟨error, _, buckets⟩ :=
        state.subscriptions.put_cases limits.subscriptions subscription
      · rw [buckets] at member
        split at member
        · rename_i same
          subst same
          rcases mem_of_mem_upsert stored member with rfl | old
          · refine .inr ⟨accepted, ?_⟩
            rw [CaCall.record, subscriber, sameHandler]
          · exact .inl ⟨entry, old, subscriber, sameHandler⟩
        · exact .inl ⟨entry, member, subscriber, sameHandler⟩
      · rw [buckets] at member
        exact .inl ⟨entry, member, subscriber, sameHandler⟩

theorem has_putSubscription {limits : StoreLimits} {subscription : StoredSubscription}
    (accepted : (state.putSubscription limits subscription).1 = .ok ()) :
    (state.putSubscription limits subscription).2.Has
      (.subscription subscription.subscriber subscription.typeId subscription.handler) := by
  obtain ⟨bucket, stored, _, buckets⟩ | ⟨error, refused, _⟩ :=
    state.subscriptions.put_cases limits.subscriptions subscription
  · refine ⟨subscription, ?_, rfl, rfl⟩
    change subscription ∈
      (state.subscriptions.put limits.subscriptions subscription).2.forType subscription.typeId
    rw [buckets, if_pos rfl]
    exact mem_upsert stored
  · cases refused.symm.trans accepted

theorem has_of_claimSubscription {subscription : StoredSubscription}
    (has : (state.claimSubscription subscription).2.Has record) : state.Has record := by
  cases record with
  | environment agent => exact has
  | subscription agent typeId handler =>
      obtain ⟨entry, member, same⟩ := has
      exact ⟨entry, (StoreState.forType_claim_sublist subscription typeId).subset member, same⟩

theorem has_of_perform {call : CaCall} {world : World ρ}
    (has : (authority.perform random call world).2.store.state.Has record) :
    world.store.state.Has record ∨
      written ⟨call, (authority.perform random call world).1⟩ = some record := by
  cases call with
  | keys agent => exact .inl has
  | environment agent => exact .inl has
  | subscriptionsFor typeId => exact .inl has
  | delivery => exact .inl has
  | checkAndMark sender session nowSeconds =>
      change (world.marked sender session nowSeconds).store.state.Has record at has
      rw [World.marked_state] at has
      cases record <;> exact .inl has
  | setEnvironment agent encoded =>
      change (world.store.setEnvironment agent encoded).2.state.Has record at has
      obtain ⟨next, edited, accepted, result⟩ | ⟨_, _, kept⟩ :=
        world.store.setEnvironment_cases agent encoded
      · rw [result, (StoreState.setEnvironment_eq_ok edited).2, has_setEnvironment] at has
        refine has.imp id fun same => ?_
        have reply : (authority.perform random (.setEnvironment agent encoded) world).1 = .ok () :=
          accepted
        rw [reply, same]
        rfl
      · rw [kept] at has
        exact .inl has
  | putSubscription subscription =>
      change (world.store.putSubscription subscription).2.state.Has record at has
      obtain ⟨stored, accepted, result⟩ | ⟨_, _, kept | ⟨refused, result⟩⟩ :=
        world.store.putSubscription_cases subscription
      · rw [result] at has
        refine (has_of_putSubscription has).imp id fun added => ?_
        have reply : (authority.perform random (.putSubscription subscription) world).1 = .ok () :=
          accepted
        rw [reply]
        exact added.2
      · rw [kept] at has
        exact .inl has
      · rw [result] at has
        obtain old | ⟨stored, _⟩ := has_of_putSubscription has
        · exact .inl old
        · cases refused.symm.trans stored
  | claimSubscription subscription =>
      change (world.store.claimSubscription subscription).2.state.Has record at has
      obtain ⟨_, result⟩ | ⟨_, _, kept⟩ := world.store.claimSubscription_cases subscription
      · rw [result] at has
        exact .inl (has_of_claimSubscription has)
      · rw [kept] at has
        exact .inl has

theorem has_written {call : CaCall} {world : World ρ}
    (stored : written ⟨call, (authority.perform random call world).1⟩ = some record) :
    (authority.perform random call world).2.store.state.Has record := by
  obtain ⟨⟨value, replied⟩, same⟩ := written_eq_some stored
  cases call with
  | setEnvironment agent encoded =>
      cases same
      change (world.store.setEnvironment agent encoded).1 = .ok value at replied
      change (world.store.setEnvironment agent encoded).2.state.Has _
      obtain ⟨next, edited, _, result⟩ | ⟨_, refused, _⟩ :=
        world.store.setEnvironment_cases agent encoded
      · rw [result, (StoreState.setEnvironment_eq_ok edited).2]
        exact has_setEnvironment.mpr (.inr rfl)
      · rw [refused] at replied
        cases replied
  | putSubscription subscription =>
      cases same
      change (world.store.putSubscription subscription).1 = .ok value at replied
      change (world.store.putSubscription subscription).2.state.Has _
      obtain ⟨accepted, _, result⟩ | ⟨_, refused, _⟩ :=
        world.store.putSubscription_cases subscription
      · rw [result]
        exact has_putSubscription accepted
      · rw [refused] at replied
        cases replied
  | keys agent => cases same
  | environment agent => cases same
  | subscriptionsFor typeId => cases same
  | delivery => cases same
  | checkAndMark => cases same
  | claimSubscription => cases same

/-- What a reconciliation leaves belongs to an agent whose keys it did not change. -/
theorem has_of_reconcile {keys : SortedMap AgentId PublicKeys}
    (has : (state.reconcile keys).Has record) :
    state.Has record ∧ keys.get record.owner = state.keys.get record.owner := by
  have same : StoreState.unchanged state.keys keys record.owner = true →
      keys.get record.owner = state.keys.get record.owner := by
    intro kept
    rw [StoreState.unchanged] at kept
    split at kept
    · rename_i old new former current
      rw [former, current, of_decide_eq_true kept]
    · cases kept
  cases record with
  | environment agent =>
      simp only [StoreState.Has, StoreState.reconcile, SortedMap.contains_eq,
        SortedMap.get_retain] at has
      obtain ⟨encoded, found⟩ := Option.isSome_iff_exists.mp has
      obtain ⟨held, kept⟩ := Option.filter_eq_some_iff.mp found
      refine ⟨?_, same kept⟩
      rw [StoreState.Has, SortedMap.contains_eq, held]
      rfl
  | subscription agent typeId handler =>
      obtain ⟨entry, member, subscriber, sameHandler⟩ := has
      rw [StoreState.reconcile, SubscriptionTable.forType_retain] at member
      obtain ⟨old, kept⟩ := List.mem_filter.mp member
      rw [subscriber] at kept
      exact ⟨⟨entry, old, subscriber, sameHandler⟩, same kept⟩

end Records

/-! ## A request stores records of its sender only -/

section Requests

variable {authority : CertificateAuthority} {sender : AgentId}

/-- Every record that is stored belongs to one agent. -/
def ownRecords (sender : AgentId) : Contract caInterface where
  rely := fun _ _ => True
  guarantee := fun call => ∀ record, CaCall.record call = some record → record.owner = sender

theorem ownRecords_allowsReads : AllowsReads (ownRecords sender) where
  keys := fun _ _ stored => by cases stored
  environment := fun _ _ stored => by cases stored
  subscriptionsFor := fun _ _ stored => by cases stored
  claimSubscription := fun _ _ stored => by cases stored

theorem ownRecords_allowsDelivery (publication : Publication)
    (subscription : StoredSubscription) :
    AllowsDelivery (ownRecords sender) publication subscription :=
  fun _ _ _ stored => by cases stored

theorem ownRecords_setEnvironment (encoded : Bytes) :
    (ownRecords sender).guarantee (.setEnvironment sender encoded) := by
  intro record stored
  cases stored
  rfl

theorem ownRecords_putSubscription (typeId : TypeId) (handler : HandlerId)
    (kind : SubscriptionKind) (encoded : Bytes) :
    (ownRecords sender).guarantee (.putSubscription ⟨sender, typeId, handler, kind, encoded⟩) := by
  intro record stored
  cases stored
  rfl

theorem dispatch_own (request : CertificateAuthority.Admitted) :
    Obeys (ownRecords request.envelope.sender) (fun _ => True) (authority.dispatch request) := by
  rw [CertificateAuthority.dispatch]
  split
  · exact CertificateAuthority.processSetEnvironment_obeys ownRecords_allowsReads
      (ownRecords_setEnvironment _) _
  · exact CertificateAuthority.processSubscribe_obeys ownRecords_allowsReads
      (ownRecords_putSubscription _ _ _ _)
  · exact CertificateAuthority.processSubscribe_obeys ownRecords_allowsReads
      (ownRecords_putSubscription _ _ _ _)
  · apply CertificateAuthority.processPublish_obeys ownRecords_allowsReads
    intro _ _ entry _ _
    exact ownRecords_allowsDelivery _ entry
  · exact obeys_fail _

/-- What `process` does once it has the keys of the sender. -/
def CertificateAuthority.withKeys (authority : CertificateAuthority) (frame : Bytes)
    (nowSeconds : UInt64) (envelope : EnvelopeRef) (publicKeys : PublicKeys) :
    CaProgram ProcessResult := do
  let request ← (do
    ofExcept (authority.verifySender envelope publicKeys)
    Effect.checkAndMark envelope.sender envelope.sessionId nowSeconds
    let opened ← ofExcept (authority.openRequest frame envelope publicKeys)
    pure ⟨envelope, opened.1, opened.2⟩ : CaProgram CertificateAuthority.Admitted)
  authority.dispatch request

theorem withKeys_own (frame : Bytes) (nowSeconds : UInt64) (envelope : EnvelopeRef)
    (publicKeys : PublicKeys) :
    Obeys (ownRecords envelope.sender) (fun _ => True)
      (authority.withKeys frame nowSeconds envelope publicKeys) := by
  have admitted : Obeys (ownRecords envelope.sender)
      (fun request => request.envelope = envelope) (do
        ofExcept (authority.verifySender envelope publicKeys)
        Effect.checkAndMark envelope.sender envelope.sessionId nowSeconds
        let opened ← ofExcept (authority.openRequest frame envelope publicKeys)
        pure ⟨envelope, opened.1, opened.2⟩ : CaProgram CertificateAuthority.Admitted) := by
    refine obeys_bind (ofExcept_obeys _) fun _ _ => ?_
    refine obeys_bind (effect_obeys fun record stored => nomatch stored) fun _ _ => ?_
    exact obeys_bind (ofExcept_obeys _) fun _ _ => obeys_pure rfl
  refine obeys_bind admitted fun request same => ?_
  rw [← same]
  exact dispatch_own request

/-- The first call of a request asks for the keys of its sender. -/
theorem process_calls {frame : Bytes} {nowSeconds : UInt64} {history : List caInterface.Event}
    {request : CaCall} {resume : caInterface.Reply request → CaProgram ProcessResult}
    (consumed : Consumes (authority.process frame nowSeconds) history (.call request resume)) :
    history = [] ∧ request.record = none ∨
      ∃ envelope keys rest, history = ⟨.keys envelope.sender, .ok keys⟩ :: rest ∧
        Consumes (authority.withKeys frame nowSeconds envelope keys) rest
          (.call request resume) := by
  rw [CertificateAuthority.process, CertificateAuthority.admission] at consumed
  cases accepted : CertificateAuthority.acceptEnvelope frame with
  | error error =>
      rw [accepted] at consumed
      cases consumed
  | ok envelope =>
      rw [accepted] at consumed
      cases consumed with
      | here => exact .inl ⟨rfl, rfl⟩
      | @step _ _ reply rest _ tail =>
          cases reply with
          | error error => cases tail
          | ok keys => exact .inr ⟨envelope, keys, rest, rfl, tail⟩

/-- A record is only stored by a request that was verified with keys of its owner. -/
theorem process_verified {frame : Bytes} {nowSeconds : UInt64} {history : List caInterface.Event}
    {request : CaCall} {resume : caInterface.Reply request → CaProgram ProcessResult}
    {record : Record}
    (consumed : Consumes (authority.process frame nowSeconds) history (.call request resume))
    (stored : request.record = some record) :
    ∃ keys, verifiedKeys record.owner history = some keys := by
  obtain ⟨_, nothing⟩ | ⟨envelope, keys, rest, rfl, later⟩ := process_calls consumed
  · rw [nothing] at stored
    cases stored
  · have own := (withKeys_own frame nowSeconds envelope keys).left later fun _ _ => trivial
    have owner : record.owner = envelope.sender := own.1 record stored
    refine ⟨keys, ?_⟩
    rw [verifiedKeys, owner, if_pos rfl]

end Requests

/-! ## Runs -/

namespace Service

variable {ρ : Type} {random : CryptoRandom ρ} {authority : CertificateAuthority}
  {service : Service ρ} {input : ServiceInput}

theorem step_cases (service : Service ρ) (random : CryptoRandom ρ)
    (authority : CertificateAuthority) (input : ServiceInput) :
    (∃ threads, service.step random authority input = { service with threads } ∧
      ∀ thread ∈ threads, thread ∈ service.threads ∨ ∃ frame nowSeconds,
        thread = ⟨authority.process frame nowSeconds, [], authority.process frame nowSeconds⟩) ∨
    (∃ index program history request resume, input = .turn index ∧
      service.threads[index]? = some ⟨program, history, .call request resume⟩ ∧
      service.step random authority input =
        service.advance random authority index program history request resume) ∨
    (∃ world keys, world.store.state = service.state.reconcile keys ∧
      service.step random authority input =
        { service with world, withdrawn := service.withdrawnAfter service.state.keys keys }) ∨
    ∃ world, world.store.state = service.state ∧
      service.step random authority input = { service with world } := by
  cases input with
  | request frame nowSeconds =>
      refine .inl ⟨_, rfl, fun thread member => ?_⟩
      rcases List.mem_append.mp member with old | new
      · exact .inl old
      · exact .inr ⟨frame, nowSeconds, List.mem_singleton.mp new⟩
  | turn index =>
      rw [step]
      split
      · rename_i program history request resume found
        exact .inr (.inl ⟨index, program, history, request, resume, rfl, found, rfl⟩)
      · exact .inl ⟨service.threads, rfl, fun _ => .inl⟩
  | reconcile configured =>
      rw [step]
      split
      · exact .inl ⟨service.threads, rfl, fun _ => .inl⟩
      · rename_i store held
        have former : service.state = store.state := by
          rw [state, held]
          rfl
        let world : World ρ :=
          ⟨.persistent (store.reconcileAgents configured).2, service.world.rng⟩
        obtain ⟨keys, accepted, result⟩ | ⟨error, refused, same⟩ :=
          TimedCa.reconcileAgents_cases store configured
        · refine .inr (.inr (.inl ⟨world, keys, ?_, ?_⟩))
          · exact result.trans (congrArg (StoreState.reconcile · keys) former.symm)
          · simp only [accepted, result, former]
            rfl
        · refine .inr (.inr (.inr ⟨world, ?_, ?_⟩))
          · exact same.trans former.symm
          · simp only [refused]
            rfl

/-- Every stored record has the current keys of its owner as its source. -/
structure Sound (service : Service ρ) : Prop where
  sources : ∀ record keys, service.state.Has record → service.sources record = some keys →
    service.state.keys.get record.owner = some keys
  withdrawn : ∀ agent keys, service.withdrawn agent keys = true →
    service.state.keys.get agent ≠ some keys

theorem Sound.clean (sound : service.Sound) : service.Clean := by
  intro record keys has source
  apply Bool.eq_false_iff.mpr
  intro withdrawn
  exact sound.withdrawn _ _ withdrawn (sound.sources record keys has source)

theorem sound_start (store : PersistentStore) (rng : ρ) : (start store rng).Sound where
  sources := fun _ _ _ source => source
  withdrawn := fun _ _ withdrawn => by cases withdrawn

theorem withdrawnAfter_eq_true {former keys : SortedMap AgentId PublicKeys} {agent : AgentId}
    {held : PublicKeys} :
    service.withdrawnAfter former keys agent held = true ↔
      keys.get agent ≠ some held ∧
        (former.get agent = some held ∨ service.withdrawn agent held = true) := by
  simp [withdrawnAfter]

theorem keys_advance (service : Service ρ) (index : Nat) (program : CaProgram ProcessResult)
    (history : List caInterface.Event) (request : CaCall)
    (resume : caInterface.Reply request → CaProgram ProcessResult) :
    (service.advance random authority index program history request resume).state.keys =
      service.state.keys :=
  perform_keys request service.world

theorem Sound.advance {index : Nat} {program : CaProgram ProcessResult}
    {history : List caInterface.Event} {request : CaCall}
    {resume : caInterface.Reply request → CaProgram ProcessResult} (sound : service.Sound)
    (running : service.threads[index]? = some ⟨program, history, .call request resume⟩)
    (timely : service.timely random authority (.turn index) = true) :
    (service.advance random authority index program history request resume).Sound where
  sources := by
    intro record keys has source
    rw [keys_advance]
    change (service.sourcesAfter history _) record = some keys at source
    rw [sourcesAfter] at source
    cases stored : written ⟨request, (authority.perform random request service.world).1⟩ with
    | none =>
        rw [stored] at source
        obtain old | new := has_of_perform has
        · exact sound.sources record keys old source
        · rw [stored] at new
          cases new
    | some added =>
        rw [stored] at source
        dsimp only at source
        by_cases same : record = added
        · subst same
          rw [Function.update_self] at source
          rw [Service.timely, running] at timely
          simp only [stored] at timely
          exact (of_decide_eq_true timely).trans source
        · rw [Function.update_of_ne same] at source
          obtain old | new := has_of_perform has
          · exact sound.sources record keys old source
          · rw [stored] at new
            exact absurd (Option.some.inj new).symm same
  withdrawn := by
    intro agent keys withdrawn
    rw [keys_advance]
    exact sound.withdrawn agent keys withdrawn

theorem Sound.step (sound : service.Sound)
    (timely : service.timely random authority input = true) :
    (service.step random authority input).Sound := by
  obtain ⟨threads, stepped, _⟩ | ⟨index, program, history, request, resume, rfl, running, stepped⟩ |
    ⟨world, keys, reconciled, stepped⟩ | ⟨world, same, stepped⟩ :=
    service.step_cases random authority input
  · rw [stepped]
    exact ⟨sound.sources, sound.withdrawn⟩
  · rw [stepped]
    exact sound.advance running timely
  · rw [stepped]
    constructor
    · intro record held has source
      change world.store.state.Has record at has
      change world.store.state.keys.get record.owner = some held
      rw [reconciled] at has ⊢
      obtain ⟨old, kept⟩ := has_of_reconcile has
      exact kept.trans (sound.sources record held old source)
    · intro agent held withdrawn
      change world.store.state.keys.get agent ≠ some held
      rw [reconciled]
      exact (withdrawnAfter_eq_true.mp withdrawn).1
  · rw [stepped]
    constructor
    · intro record held has source
      change world.store.state.Has record at has
      change world.store.state.keys.get record.owner = some held
      rw [same] at has ⊢
      exact sound.sources record held has source
    · intro agent held withdrawn
      change world.store.state.keys.get agent ≠ some held
      rw [same]
      exact sound.withdrawn agent held withdrawn

/-- Threads run requests, and keys that one was verified with are current or withdrawn. -/
structure Started (authority : CertificateAuthority) (service : Service ρ) : Prop where
  requests : ∀ thread ∈ service.threads, ∃ frame nowSeconds,
    Consumes (authority.process frame nowSeconds) thread.history thread.left
  known : ∀ thread ∈ service.threads, ∀ agent keys,
    verifiedKeys agent thread.history = some keys →
    service.state.keys.get agent = some keys ∨ service.withdrawn agent keys = true

theorem started_start (store : PersistentStore) (rng : ρ) :
    (start store rng).Started authority where
  requests := fun _ member => by cases member
  known := fun _ member => by cases member

/-- Only the first call of a request tells its keys. -/
theorem verifiedKeys_cons (agent : AgentId) (first : caInterface.Event)
    (rest : List caInterface.Event) :
    verifiedKeys agent (first :: rest) = verifiedKeys agent [first] := by
  rcases first with ⟨call, reply⟩
  cases call with
  | keys asked => cases reply <;> rfl
  | _ => rfl

theorem verifiedKeys_snoc {world : World ρ} {agent : AgentId} {keys : PublicKeys}
    {history : List caInterface.Event} {request : CaCall}
    (verified : verifiedKeys agent
      (history ++ [⟨request, (authority.perform random request world).1⟩]) = some keys) :
    verifiedKeys agent history = some keys ∨ world.store.state.keys.get agent = some keys := by
  cases history with
  | cons first rest =>
      rw [List.cons_append, verifiedKeys_cons] at verified
      rw [verifiedKeys_cons]
      exact .inl verified
  | nil =>
      cases request with
      | keys asked =>
          change (match ⟨.keys asked, world.store.state.keysOf asked⟩ ::
            ([] : List caInterface.Event) with
            | ⟨.keys asked, .ok keys⟩ :: _ => if asked = agent then some keys else none
            | _ => none) = some keys at verified
          rw [StoreState.keysOf] at verified
          cases found : world.store.state.keys.get asked with
          | none =>
              rw [found] at verified
              cases verified
          | some held =>
              rw [found] at verified
              dsimp only at verified
              split at verified
              · rename_i same
                rw [← same, found]
                exact .inr verified
              · cases verified
      | _ => cases verified

theorem Started.advance {index : Nat} {program : CaProgram ProcessResult}
    {history : List caInterface.Event} {request : CaCall}
    {resume : caInterface.Reply request → CaProgram ProcessResult}
    (started : service.Started authority)
    (running : service.threads[index]? = some ⟨program, history, .call request resume⟩) :
    (service.advance random authority index program history request resume).Started authority := by
  have member := List.mem_of_getElem? running
  constructor
  · intro thread present
    rcases List.mem_or_eq_of_mem_set present with old | rfl
    · exact started.requests thread old
    · obtain ⟨frame, nowSeconds, consumed⟩ := started.requests _ member
      exact ⟨frame, nowSeconds, consumed.snoc _⟩
  · intro thread present agent keys verified
    rw [keys_advance]
    rcases List.mem_or_eq_of_mem_set present with old | rfl
    · exact started.known thread old agent keys verified
    · obtain earlier | now := verifiedKeys_snoc verified
      · exact started.known _ member agent keys earlier
      · exact .inl now

theorem Started.step (started : service.Started authority) :
    (service.step random authority input).Started authority := by
  obtain ⟨threads, stepped, each⟩ |
    ⟨index, program, history, request, resume, _, running, stepped⟩ |
    ⟨world, keys, reconciled, stepped⟩ | ⟨world, same, stepped⟩ :=
    service.step_cases random authority input
  · rw [stepped]
    constructor
    · intro thread member
      rcases each thread member with old | ⟨frame, nowSeconds, rfl⟩
      · exact started.requests thread old
      · exact ⟨frame, nowSeconds, .here⟩
    · intro thread member agent held verified
      rcases each thread member with old | ⟨frame, nowSeconds, rfl⟩
      · exact started.known thread old agent held verified
      · cases verified
  · rw [stepped]
    exact started.advance running
  · rw [stepped]
    refine ⟨started.requests, fun thread member agent held verified => ?_⟩
    change world.store.state.keys.get agent = some held ∨
      service.withdrawnAfter service.state.keys keys agent held = true
    rw [reconciled]
    by_cases kept : keys.get agent = some held
    · exact .inl kept
    · exact .inr (withdrawnAfter_eq_true.mpr
        ⟨kept, started.known thread member agent held verified⟩)
  · rw [stepped]
    refine ⟨started.requests, fun thread member agent held verified => ?_⟩
    change world.store.state.keys.get agent = some held ∨ _
    rw [same]
    exact started.known thread member agent held verified

/-- A record that is stored after its keys were withdrawn breaks the guarantee. -/
theorem Started.stale (started : service.Started authority)
    (stale : service.timely random authority input = false) :
    ¬ (service.step random authority input).Clean := by
  intro clean
  cases input with
  | request frame nowSeconds => cases stale
  | reconcile configured => cases stale
  | turn index =>
      rw [Service.timely] at stale
      split at stale
      · rename_i program history request resume running
        cases stored : written ⟨request, (authority.perform random request service.world).1⟩ with
        | none =>
            simp only [stored] at stale
            cases stale
        | some record =>
            simp only [stored, decide_eq_false_iff_not] at stale
            have member := List.mem_of_getElem? running
            obtain ⟨frame, nowSeconds, consumed⟩ := started.requests _ member
            obtain ⟨keys, verified⟩ := process_verified consumed (written_eq_some stored).2
            rw [verified] at stale
            have withdrawn : service.withdrawn record.owner keys = true :=
              (started.known _ member _ _ verified).resolve_left stale
            have stepped : service.step random authority (.turn index) =
                service.advance random authority index program history request resume := by
              rw [Service.step, running]
            have source : (service.advance random authority index program history request
                resume).sources record = some keys := by
              change service.sourcesAfter history _ record = some keys
              rw [sourcesAfter, stored]
              exact (Function.update_self _ _ _).trans verified
            rw [stepped] at clean
            have kept := clean record keys (has_written stored) source
            exact Bool.noConfusion (withdrawn.symm.trans kept)
      · cases stale

theorem Started.along (started : service.Started authority) {inputs : List ServiceInput}
    (clean : ∀ front, front <+: inputs →
      (Machine.run (Service.step random authority) service front).Clean) :
    Machine.Along (Service.step random authority)
      (fun service input => service.timely random authority input = true) service inputs := by
  induction inputs generalizing service with
  | nil => trivial
  | cons input rest ih =>
      constructor
      · apply Bool.of_not_eq_false
        intro stale
        exact started.stale stale (clean [input] ⟨rest, rfl⟩)
      · apply ih started.step
        intro front within
        exact clean (input :: front) (List.cons_prefix_cons.mpr ⟨rfl, within⟩)

/-- Removing an agent or changing its keys leaves none of its records behind, in any state of a
run, exactly if every record of the run is stored while the keys it was verified with are
current. -/
theorem revocation_holds_iff (random : CryptoRandom ρ) (authority : CertificateAuthority)
    (store : PersistentStore) (rng : ρ) (inputs : List ServiceInput) :
    (∀ front, front <+: inputs →
      (Machine.run (step random authority) (start store rng) front).Clean) ↔
    Machine.Along (step random authority)
      (fun service input => service.timely random authority input = true) (start store rng)
      inputs := by
  constructor
  · intro clean
    exact (started_start store rng).along clean
  · intro along front within
    obtain ⟨back, rfl⟩ := within
    have timely := (Machine.along_append.mp along).1
    have sound := timely.preserves Sound (fun _ _ sound timely => sound.step timely)
      (sound_start store rng)
    exact sound.clean

end Service

/-! ## A request that is overtaken by the removal of its sender -/

namespace Sample

/-- Agent 1 is removed between the last two calls of its request. -/
def overtaken : List ServiceInput :=
  [.reconcile configuration, .request request 10, .turn 0, .turn 0, .turn 0, .reconcile [],
    .turn 0]

def emptyStore : PersistentStore := ⟨.empty limits, ⟨none, none, []⟩, limits⟩

def oldKeys : PublicKeys := ⟨.fill 32 1, .fill 32 1⟩

def overtakenService : Service Nat :=
  Machine.run (Service.step .counting authority) (.start emptyStore 0) overtaken

end Sample

theorem overtaken_request_is_stored :
    ¬ ∀ (authority : CertificateAuthority) (store : PersistentStore) (rng : Nat)
      (inputs : List ServiceInput),
      (Machine.run (Service.step .counting authority) (.start store rng) inputs).Clean := by
  intro clean
  have has : Sample.overtakenService.state.environments.contains (Sample.agent 1).id = true := by
    decide +kernel
  have source : Sample.overtakenService.sources (.environment (Sample.agent 1).id) =
      some Sample.oldKeys := by
    decide +kernel
  have withdrawn : Sample.overtakenService.withdrawn (Sample.agent 1).id Sample.oldKeys =
      true := by
    decide +kernel
  have overtaken : Sample.overtakenService.Clean :=
    clean Sample.authority Sample.emptyStore 0 Sample.overtaken
  have kept := overtaken (.environment (Sample.agent 1).id) Sample.oldKeys has source
  rw [Record.owner, withdrawn] at kept
  cases kept

end SecurePubSub.Authority

import Mathlib.Data.List.Forall2
import SecurePubSub.Authority.FailedRequest
import SecurePubSub.Protocol.PayloadCanonical

namespace SecurePubSub.Authority

open SecurePubSub.Data SecurePubSub.Data.Fallible SecurePubSub.Data.Program SecurePubSub.Protocol

/-! What an accepted publication delivers, and to whom. -/

/-! ## Delivery frames -/

/-- What one delivery says, and to whom. -/
structure Addressed where
  recipient : AgentId
  handler : HandlerId
  typeId : TypeId
  publisher : AgentId
  value : Bytes

/-- A frame in which the CA sealed a delivery to a key and signed it. -/
def Seals (authority : CertificateAuthority) (delivery : Addressed) (recipientX25519 : Key32)
    (frame : Bytes) : Prop :=
  ∃ header ephemeralSecret ciphertext tag,
    header.messageType = .publicationResponse ∧ header.sender = .ca ∧
    header.recipient = delivery.recipient ∧ header.handler = delivery.handler ∧
    delivery.value.length ≤ maxValueBytes ∧
    authority.suite.Sealed header ephemeralSecret recipientX25519
      (responseBytes delivery.typeId delivery.publisher delivery.value) ciphertext tag ∧
    frame = header.frame ciphertext tag (authority.suite.sign authority.keys.signing
      (header.encoded ciphertext.length ++ ciphertext ++ tag.bytes))

section Frames

variable {ρ : Type} {random : CryptoRandom ρ} {authority : CertificateAuthority} {frame : Bytes}

theorem delivery_eq_ok {publisher recipient : AgentId} {handler : HandlerId} {typeId : TypeId}
    {value : Bytes} {recipientX25519 : Key32} {state : ρ}
    (made : (authority.delivery random publisher recipient handler typeId value recipientX25519
      state).1 = .ok frame) :
    Seals authority ⟨recipient, handler, typeId, publisher, value⟩ recipientX25519 frame := by
  unfold CertificateAuthority.delivery at made
  split at made
  · cases made
  · rename_i plaintext encoded
    obtain ⟨rfl, short⟩ := encodeResponse_eq_ok encoded
    obtain ⟨header, ciphertext, tag, fields, message, written⟩ :=
      CryptoSuite.sealInPlace_eq_ok made
    subst fields
    exact ⟨_, _, ciphertext, tag, rfl, rfl, rfl, rfl, short, message, written⟩

variable (random) in
/-- Sealing a delivery fails only for a key without a contribution. -/
theorem delivery_ok (total : authority.suite.Total) {publisher recipient : AgentId}
    {handler : HandlerId} {typeId : TypeId} {value : Bytes} {recipientX25519 : Key32}
    (short : value.length ≤ maxValueBytes)
    (contributes : ∀ secret, authority.suite.diffieHellman secret recipientX25519 ≠ zeroSecret)
    (state : ρ) :
    ∃ frame, (authority.delivery random publisher recipient handler typeId value recipientX25519
      state).1 = .ok frame := by
  have limit : value.length ≤ 3072 := short
  have length : (responseBytes typeId publisher value).length = value.length + 23 := by
    simp only [responseBytes, List.length_append, beBytes_length, FixedBytes.length_bytes]
    omega
  have encoded : encodeResponse (maxFrameLen - headerLen) typeId publisher value =
      .ok (responseBytes typeId publisher value) := by
    apply encodeResponse_ok short
    rw [length, maxFrameLen, maxPlaintextLen]
    omega
  rw [CertificateAuthority.delivery, encoded]
  refine CryptoSuite.sealInPlace_ok total ?_ ?_ (contributes _)
  · simp only [length, maxPlaintextLen]
    omega
  · simp only [length, frameLen, maxFrameLen, headerLen, maxPlaintextLen, tagLen, signatureLen]
    omega

variable (random) in
/-- Nothing can be sealed to a key of low order. -/
theorem delivery_error {publisher recipient : AgentId} {handler : HandlerId} {typeId : TypeId}
    {value : Bytes} {recipientX25519 : Key32} (low : authority.suite.LowOrder recipientX25519)
    (state : ρ) :
    ∃ error, (authority.delivery random publisher recipient handler typeId value recipientX25519
      state).1 = .error error := by
  rw [CertificateAuthority.delivery]
  cases encodeResponse (maxFrameLen - headerLen) typeId publisher value with
  | error error => exact ⟨error, rfl⟩
  | ok plaintext => exact CryptoSuite.sealInPlace_error (low _)

/-- An agent to whom the CA is provisioned receives what is sealed to its key. -/
theorem Seals.received {delivery : Addressed} {agent : AgentCore.Agent}
    (sealing : Seals authority delivery (authority.suite.x25519Public agent.keys.x25519) frame)
    (correct : authority.suite.Correct) (own : agent.id = delivery.recipient)
    (trusted : agent.ca.ed25519 = authority.suite.verifyingKey authority.keys.signing)
    (handler : delivery.handler ≠ .none) :
    ∃ envelope, parseEnvelope frame = .ok envelope ∧
      ∀ {R : Type} (protector : AgentCore.ReplayProtector R) (nowSeconds : UInt64) (replay : R),
        (protector.checkAndMark envelope.sender envelope.sessionId nowSeconds replay).1 = .ok () →
        (AgentCore.receive authority.suite protector agent frame delivery.handler nowSeconds
          replay).1 = .ok ⟨delivery.typeId, delivery.publisher, delivery.handler,
            delivery.value⟩ := by
  obtain ⟨header, ephemeralSecret, ciphertext, tag, messageType, sender, recipient, handlerEq,
    short, message, written⟩ := sealing
  have few : ciphertext.length ≤ maxPlaintextLen := message.length_eq ▸ message.short
  have parsed := parseEnvelope_frame header tag (authority.suite.sign authority.keys.signing
      (header.encoded ciphertext.length ++ ciphertext ++ tag.bytes)) few
  rw [← written] at parsed
  refine ⟨_, parsed, fun protector nowSeconds replay fresh => ?_⟩
  have verified : authority.suite.verifyStrict agent.ca.ed25519
      (header.encoded ciphertext.length ++ ciphertext ++ tag.bytes)
      (authority.suite.sign authority.keys.signing
        (header.encoded ciphertext.length ++ ciphertext ++ tag.bytes)) = true := by
    rw [trusted]
    exact correct.verification _ _
  have authenticated := AgentCore.authenticate_eq_ok.mpr ⟨trusted ▸ correct.decoding _, parsed,
    recipient.trans own.symm, messageType, handlerEq, handler, verified⟩
  have opened := message.opens correct parsed rfl verified
  rw [recipient, ← own, messageType] at opened
  exact AgentCore.receive_ok authenticated fresh
    (AgentCore.openDelivery_ok opened (parseOperation_response short))

end Frames

/-! ## Authorized matches -/

/-- A subscription whose predicate holds on the publisher's environment, whose subscriber's
environment satisfies the audience predicate, and to which the policy lets the publisher deliver. -/
def Matches (policy : EnvironmentPolicy) (state : StoreState) (publication : Publication)
    (subscription : StoredSubscription) : Prop :=
  ∃ predicate encoded subscriberEnvironment,
    parseOperation subscription.encoded = .ok (match subscription.kind with
      | .oneShot => .subscribe publication.typeId predicate
      | .permanent => .subscribePermanent publication.typeId predicate) ∧
    predicate.evaluate publication.environment = true ∧
    state.environments.get subscription.subscriber = some encoded ∧
    parseOperation encoded = .ok (.setEnvironment subscriberEnvironment) ∧
    publication.predicate.evaluate subscriberEnvironment = true ∧
    policy.authorizeDelivery publication.publisher publication.environment
      subscription.subscriber subscriberEnvironment publication.typeId = true

section Matching

variable {policy : EnvironmentPolicy} {state : StoreState} {limits : StoreLimits}
  {publication : Publication} {subscription : StoredSubscription}

theorem storedPredicate_eq_ok {typeId : TypeId} {predicate : PredicateRef} :
    storedPredicate typeId subscription = .ok predicate ↔
      parseOperation subscription.encoded = .ok (match subscription.kind with
        | .oneShot => .subscribe typeId predicate
        | .permanent => .subscribePermanent typeId predicate) := by
  rw [storedPredicate]
  cases parsed : parseOperation subscription.encoded with
  | error error => simp
  | ok operation =>
      rw [ok_bind]
      cases subscription.kind <;> cases operation <;> simp [pure, Except.pure] <;> grind

theorem storedEnvironment_eq_ok {encoded : Bytes} {environment : EnvironmentRef} :
    storedEnvironment encoded = .ok environment ↔
      parseOperation encoded = .ok (.setEnvironment environment) := by
  rw [storedEnvironment]
  cases parsed : parseOperation encoded with
  | error error => simp
  | ok operation => cases operation <;> simp [pure, Except.pure]

theorem route_eq_some {recipientKeys : PublicKeys} :
    route policy state publication subscription = .ok (some recipientKeys) ↔
      Matches policy state publication subscription ∧
        state.keysOf subscription.subscriber = .ok recipientKeys := by
  constructor
  · intro routed
    obtain ⟨predicate, read, routed⟩ := bind_eq_ok.mp routed
    split at routed
    · cases routed
    · rename_i wanted
      split at routed
      · cases routed
      · rename_i encoded stored
        obtain ⟨environment, parsed, routed⟩ := bind_eq_ok.mp routed
        split at routed
        · cases routed
        · rename_i audience
          split at routed
          · cases routed
          · rename_i allowed
            obtain ⟨keys, known, same⟩ := bind_eq_ok.mp routed
            cases same
            exact ⟨⟨predicate, encoded, environment, storedPredicate_eq_ok.mp read,
              Bool.not_eq_false _ ▸ wanted, stored, storedEnvironment_eq_ok.mp parsed,
              Bool.not_eq_false _ ▸ audience, Bool.not_eq_false _ ▸ allowed⟩, known⟩
  · intro ⟨⟨predicate, encoded, environment, read, wanted, stored, parsed, audience, allowed⟩,
      known⟩
    rw [route, storedPredicate_eq_ok.mpr read, ok_bind, if_neg (by simp [wanted]), stored]
    dsimp only
    rw [storedEnvironment_eq_ok.mpr parsed, ok_bind, if_neg (by simp [audience]),
      if_neg (by simp [allowed]), known]
    rfl

/-- The loop selects exactly the authorized matches of subscribers it has keys for. -/
theorem selects_iff :
    selects policy state publication subscription = true ↔
      Matches policy state publication subscription ∧
        ∃ recipientKeys, state.keysOf subscription.subscriber = .ok recipientKeys := by
  rw [selects]
  constructor
  · intro selected
    split at selected
    · rename_i recipientKeys routed
      obtain ⟨wanted, known⟩ := route_eq_some.mp routed
      exact ⟨wanted, recipientKeys, known⟩
    · cases selected
  · rintro ⟨wanted, recipientKeys, known⟩
    rw [route_eq_some.mpr ⟨wanted, known⟩]

end Matching

/-- The environment that is stored for an agent. -/
def StoredFor (state : StoreState) (agent : AgentId) (environment : EnvironmentRef) : Prop :=
  ∃ encoded, state.environments.get agent = some encoded ∧
    parseOperation encoded = .ok (.setEnvironment environment)

/-- Every delivery in an answer was pushed for a stored subscription to an admitted publication. -/
theorem pushes_of_deliveries {ρ : Type} {random : CryptoRandom ρ} {authority : CertificateAuthority}
    {world : World ρ} {frame sent : Bytes} {nowSeconds : UInt64} {frames : List Bytes}
    (answer : (authority.handle random frame nowSeconds world).1 = .ok (.deliveries frames))
    (member : sent ∈ frames) :
    ∃ request publication subscription,
      ReachesLoop authority world.store frame nowSeconds request publication ∧
      subscription ∈ world.store.state.subscriptions.forType publication.typeId ∧
      Pushes random authority world.store.state publication subscription sent := by
  obtain ⟨request, publication, reaches⟩ := reachesLoop_of_deliveries random ⟨frames, answer⟩
  obtain ⟨_, _, _, _, error, after, _, _, _, _, ran, _⟩ | ⟨pushed, after, _, ran, _, each⟩ :=
    handle_publication random reaches
  · rw [ran] at answer
    cases answer
  · rw [ran] at answer
    cases answer
    obtain ⟨place, bound, rfl⟩ := List.mem_iff_getElem.mp member
    have paired := List.forall₂_iff_get.mp each
    have inside := paired.1 ▸ bound
    have selected := List.mem_of_mem_filter (List.getElem_mem inside)
    exact ⟨request, publication, _, reaches, selected, paired.2 place inside bound⟩

/-! ## Publications without faults -/

def Store.FaultFree : Store → Prop
  | .memory _ => True
  | .persistent store => store.snapshot.FaultFree

def Store.isMemory : Store → Bool
  | .memory _ => true
  | .persistent _ => false

theorem Store.FaultFree.of_isMemory {store : Store} (inMemory : store.isMemory = true) :
    store.FaultFree := by
  cases store with
  | memory store => trivial
  | persistent store => cases inMemory

theorem Store.FaultFree.headD {store : Store} (sound : store.FaultFree) (used : Nat) :
    (store.faults.drop used).headD .none = .none := by
  cases store with
  | memory store => simp [faults]
  | persistent store =>
      rw [faults]
      cases schedule : store.snapshot.faults.drop used with
      | nil => rfl
      | cons fault rest =>
          have member : fault ∈ store.snapshot.faults.drop used := schedule ▸ List.mem_cons_self
          exact sound.2 fault (List.mem_of_mem_drop member)

/-- The frame pushed for a subscription, and what its subscriber makes of it. -/
structure Delivers (authority : CertificateAuthority) (state : StoreState)
    (publication : Publication) (subscription : StoredSubscription) (frame : Bytes) : Prop where
  sealing : ∃ recipientKeys, state.keysOf subscription.subscriber = .ok recipientKeys ∧
    Seals authority ⟨subscription.subscriber, subscription.handler, publication.typeId,
      publication.publisher, publication.value⟩ recipientKeys.x25519 frame
  received : ∀ (agent : AgentCore.Agent) (recipientKeys : PublicKeys),
    agent.id = subscription.subscriber →
    state.keysOf subscription.subscriber = .ok recipientKeys →
    recipientKeys.x25519 = authority.suite.x25519Public agent.keys.x25519 →
    agent.ca.ed25519 = authority.suite.verifyingKey authority.keys.signing →
    ∃ envelope, parseEnvelope frame = .ok envelope ∧
      ∀ {R : Type} (protector : AgentCore.ReplayProtector R) (nowSeconds : UInt64) (replay : R),
        (protector.checkAndMark envelope.sender envelope.sessionId nowSeconds replay).1 = .ok () →
        (AgentCore.receive authority.suite protector agent frame subscription.handler nowSeconds
          replay).1 = .ok ⟨publication.typeId, publication.publisher, subscription.handler,
            publication.value⟩

section Publishing

variable {ρ : Type} {random : CryptoRandom ρ} {authority : CertificateAuthority}
  {state : StoreState} {publication : Publication} {subscription : StoredSubscription}
  {frame : Bytes}

theorem Pushes.delivers (pushes : Pushes random authority state publication subscription frame)
    (correct : authority.suite.Correct) (handler : subscription.handler ≠ .none) :
    Delivers authority state publication subscription frame := by
  obtain ⟨recipientKeys, rng, routed, sealing⟩ := pushes
  have known := (route_eq_some.mp routed).2
  have sealed := delivery_eq_ok sealing
  refine ⟨⟨recipientKeys, known, sealed⟩, fun agent keys own knownAgain degree trusted => ?_⟩
  cases known.symm.trans knownAgain
  rw [degree] at sealed
  exact sealed.received correct own trusted handler

/-- A position does not fail when its records are readable, its key contributes and its commit is
taken. -/
theorem not_failsAt {faults : List CommitFault} {rng : ρ} {handled : List StoredSubscription}
    (total : authority.suite.Total) (short : publication.value.length ≤ maxValueBytes)
    (decided : ∃ decision, route authority.policy state publication subscription = .ok decision)
    (sealable : ∀ recipientKeys,
      route authority.policy state publication subscription = .ok (some recipientKeys) →
      ∀ secret, authority.suite.diffieHellman secret recipientKeys.x25519 ≠ zeroSecret)
    (taken : consumes authority.policy state publication subscription = true →
      (faults.drop (handled.countP (consumes authority.policy state publication))).headD .none =
        .none) :
    ¬ FailsAt random authority state rng faults publication handled subscription := by
  rw [FailsAt]
  obtain ⟨decision, routed⟩ := decided
  rw [routed]
  cases decision with
  | none => exact id
  | some recipientKeys =>
      intro fails
      obtain ⟨error, refused⟩ | ⟨kind, faulty⟩ := fails
      · obtain ⟨frame, made⟩ := delivery_ok random total short (sealable recipientKeys routed) _
        cases refused.symm.trans made
      · refine faulty (taken ?_)
        rw [consumes, selects, routed, decide_eq_true kind]
        rfl

theorem Progress.forType_done {start after : World ρ} {snapshot : List StoredSubscription}
    (ended : Progress random authority start publication snapshot [] after)
    (snapshotEq : start.store.state.subscriptions.forType publication.typeId = snapshot)
    (typeId : TypeId) :
    after.store.state.subscriptions.forType typeId =
      (start.store.state.subscriptions.forType typeId).filter (fun entry =>
        !decide (entry ∈ snapshot.filter (selects authority.policy start.store.state publication) ∧
          entry.kind = .oneShot)) := by
  by_cases own : typeId = publication.typeId
  · rw [own, ended.bucket, List.append_nil, snapshotEq]
    refine List.filter_congr (fun entry member => ?_)
    simp only [consumes, List.mem_filter, member, true_and, Bool.decide_and, Bool.decide_eq_true]
  · rw [ended.others typeId own]
    refine (List.filter_eq_self.mpr (fun entry member => ?_)).symm
    have other : entry ∉ snapshot := fun inside => own
      ((SubscriptionTable.typeId_of_mem member).symm.trans
        (SubscriptionTable.typeId_of_mem (snapshotEq ▸ inside)))
    simp only [List.mem_filter, other, false_and, decide_false, Bool.not_false]

end Publishing

/-- An accepted publication delivers to exactly the authorized matches, in order, each of which
its subscriber receives, and removes exactly the one-shot subscriptions among them. -/
theorem CaSystem.publish_delivers {ρ : Type} {random : CryptoRandom ρ} {start system : CaSystem ρ}
    {frame : Bytes} {nowSeconds : UInt64} {request : CertificateAuthority.Admitted}
    {publication : Publication} (initial : start.Initial) (reached : Reachable random start system)
    (correct : system.authority.suite.Correct) (total : system.authority.suite.Total)
    (healthy : system.world.store.FaultFree)
    (accepted : ReachesLoop system.authority system.world.store frame nowSeconds request publication)
    (sealable : ∀ subscription ∈ system.world.store.state.subscriptions.forType publication.typeId,
      Matches system.authority.policy system.world.store.state publication subscription →
      ∀ recipientKeys,
        system.world.store.state.keysOf subscription.subscriber = .ok recipientKeys →
        ∀ secret, system.authority.suite.diffieHellman secret recipientKeys.x25519 ≠ zeroSecret) :
    ∃ chosen frames after,
      system.authority.handle random frame nowSeconds system.world =
        (.ok (.deliveries frames), after) ∧
      BucketSorted chosen ∧
      (∀ subscription, subscription ∈ chosen ↔
        subscription ∈ system.world.store.state.subscriptions.forType publication.typeId ∧
          Matches system.authority.policy system.world.store.state publication subscription) ∧
      List.Forall₂ (Delivers system.authority system.world.store.state publication) chosen frames ∧
      (∀ typeId, after.store.state.subscriptions.forType typeId =
        (system.world.store.state.subscriptions.forType typeId).filter
          (fun subscription => !decide (subscription ∈ chosen ∧ subscription.kind = .oneShot))) ∧
      after.store.state.keys = system.world.store.state.keys ∧
      after.store.state.environments = system.world.store.state.environments := by
  obtain ⟨sound, _⟩ := reached.sound initial
  obtain ⟨publicKeys, admits⟩ := accepted.admits
  have parsed := parseOperation_of_admits admits
  rw [accepted.operation] at parsed
  have short := parseOperation_publish_short parsed
  obtain ⟨earlier, failing, later, _, _, _, split, _, fails, _⟩ |
    ⟨frames, after, _, ran, ended, pushed⟩ := handle_publication random accepted
  · have member : failing ∈
        system.world.store.state.subscriptions.forType publication.typeId := by
      rw [split]
      exact List.mem_append_right _ List.mem_cons_self
    refine absurd fails (not_failsAt total short
      (route_of_wellFormed _ sound publication member) (fun recipientKeys routed => ?_)
      (fun _ => ?_))
    · obtain ⟨wanted, known⟩ := route_eq_some.mp routed
      exact sealable failing member wanted recipientKeys known
    · rw [← List.drop_one, List.drop_drop]
      exact healthy.headD _
  · let chosen := (system.world.store.state.subscriptions.forType publication.typeId).filter
      (selects system.authority.policy system.world.store.state publication)
    have tables := system.world.marked_state request.envelope.sender request.envelope.sessionId
      nowSeconds
    have members : ∀ subscription, subscription ∈ chosen ↔
        subscription ∈ system.world.store.state.subscriptions.forType publication.typeId ∧
          Matches system.authority.policy system.world.store.state publication subscription := by
      intro subscription
      rw [List.mem_filter, selects_iff]
      refine and_congr_right (fun member => and_iff_left ?_)
      have known := sound.subscribers_known _ _ member
      rw [SortedMap.contains_eq, Option.isSome_iff_exists] at known
      obtain ⟨keys, found⟩ := known
      exact ⟨keys, StoreState.keysOf_eq_ok.mpr found⟩
    refine ⟨chosen, frames, after, ran, (sound.sorted publication.typeId).sublist
      List.filter_sublist, members, ?_, fun typeId => ?_, ?_, ?_⟩
    · have handlers : ∀ subscription ∈ chosen, subscription.handler ≠ .none :=
        fun subscription member => (sound.subscriptions_parse _ _ ((members _).mp member).1).2.2
      exact ((List.forall₂_and_left _ _).mpr ⟨handlers, pushed⟩).imp
        (fun _ _ both => both.2.delivers correct both.1)
    · have left := ended.forType_done (by rw [tables]) typeId
      rw [tables] at left
      exact left
    · exact ended.keys.trans (by rw [tables])
    · exact ended.environments.trans (by rw [tables])

namespace Sample

def isDelivering (answer : Except Error ProcessResult) : Bool :=
  match answer with
  | .ok (.deliveries _) => true
  | _ => false

theorem exists_of_isDelivering {answer : Except Error ProcessResult}
    (delivering : isDelivering answer = true) : ∃ frames, answer = .ok (.deliveries frames) := by
  cases answer with
  | error error => cases delivering
  | ok result =>
      cases result with
      | accepted => cases delivering
      | deliveries frames => exact ⟨frames, rfl⟩

end Sample

theorem sample_publish_delivers :
    ∃ request publication, ReachesLoop Sample.authority
        (Sample.subscribed (.fill 32 3)).world.store Sample.publication 10 request publication ∧
      ∃ chosen frames after,
        Sample.authority.handle .counting Sample.publication 10
          (Sample.subscribed (.fill 32 3)).world = (.ok (.deliveries frames), after) ∧
        List.Forall₂ (Delivers Sample.authority
          (Sample.subscribed (.fill 32 3)).world.store.state publication) chosen frames := by
  have answered : Sample.isDelivering (Sample.authority.handle .counting Sample.publication 10
      (Sample.subscribed (.fill 32 3)).world).1 = true := by decide +kernel
  have accepted : ∃ request publication, ReachesLoop Sample.authority
      (Sample.subscribed (.fill 32 3)).world.store Sample.publication 10 request publication :=
    reachesLoop_of_deliveries .counting (Sample.exists_of_isDelivering answered)
  have inMemory : (Sample.subscribed (.fill 32 3)).world.store.isMemory = true := by
    decide +kernel
  have contributing : ∀ entry ∈ (Sample.subscribed (.fill 32 3)).world.store.state.keys.entries,
      entry.2.x25519 ≠ zeroSecret := by decide +kernel
  obtain ⟨request, publication, reaches⟩ := accepted
  have sealable : ∀ recipientKeys agent,
      (Sample.subscribed (.fill 32 3)).world.store.state.keysOf agent = .ok recipientKeys →
      ∀ secret, Sample.authority.suite.diffieHellman secret recipientKeys.x25519 ≠ zeroSecret := by
    intro recipientKeys agent known secret
    have contributes := contributing _
      (SortedMap.get_eq_some.mp (StoreState.keysOf_eq_ok.mp known))
    exact (if_neg contributes).trans_ne (by decide)
  have suite := Sample.subscribed_authority (.fill 32 3)
  have reached := Sample.reachable_subscribed (.fill 32 3)
  clear answered contributing
  generalize Sample.subscribed (.fill 32 3) = system at *
  rw [← suite] at sealable reaches
  obtain ⟨chosen, frames, after, ran, _, _, delivered, _⟩ := CaSystem.publish_delivers
    Sample.start_initial reached (suite ▸ CryptoSuite.transparent_correct)
    (suite ▸ CryptoSuite.transparent_total) (.of_isMemory inMemory) reaches
    (fun _ _ _ recipientKeys known => sealable recipientKeys _ known)
  rw [suite] at reaches ran delivered
  exact ⟨request, publication, reaches, chosen, frames, after, ran, delivered⟩

end SecurePubSub.Authority

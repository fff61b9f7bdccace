import SecurePubSub.Authority.Process

namespace SecurePubSub.Authority

open SecurePubSub.Data SecurePubSub.Data.Fallible SecurePubSub.Data.Program SecurePubSub.Protocol

/-! What a request that nothing interleaves with does to the world.

Each stage of `process` has one lemma that says what its run returns and which
state it leaves, so later modules never unfold a program.
-/

/-- Who a subscription is delivered to, decided from the tables alone. -/
def route (policy : EnvironmentPolicy) (state : StoreState) (publication : Publication)
    (subscription : StoredSubscription) : Except Error (Option PublicKeys) := do
  let predicate ← storedPredicate publication.typeId subscription
  if predicate.evaluate publication.environment = false then pure none
  else
    match state.environments.get subscription.subscriber with
    | none => pure none
    | some encoded => do
        let subscriberEnvironment ← storedEnvironment encoded
        if publication.predicate.evaluate subscriberEnvironment = false then pure none
        else if policy.authorizeDelivery publication.publisher publication.environment
            subscription.subscriber subscriberEnvironment publication.typeId = false then pure none
        else do
          let recipientKeys ← state.keysOf subscription.subscriber
          pure (some recipientKeys)

/-- The decision reads only the environments and the directory. -/
theorem route_congr {policy : EnvironmentPolicy} {left right : StoreState}
    (environments : left.environments = right.environments) (keys : left.keys = right.keys)
    (publication : Publication) (subscription : StoredSubscription) :
    route policy left publication subscription = route policy right publication subscription := by
  simp only [route, StoreState.keysOf, environments, keys]

section Runs

variable {ρ α β : Type} {random : CryptoRandom ρ} {authority : CertificateAuthority} {world : World ρ}

theorem run_checked (result : Except Error α) (next : α → CaProgram β) :
    run (authority.perform random) (ofExcept result >>= next) world =
      match result with
      | .ok value => run (authority.perform random) (next value) world
      | .error error => (.error error, world) := by
  rw [run_bind, run_ofExcept]
  cases result <;> rfl

/-- A call that changes the store and then continues with its value. -/
def continueStore {γ : Type} (world : World ρ) (answer : Except Error γ × Store)
    (next : γ → World ρ → Except Error β × World ρ) : Except Error β × World ρ :=
  match answer.1 with
  | .ok value => next value { world with store := answer.2 }
  | .error error => (.error error, { world with store := answer.2 })

theorem run_keys (agent : AgentId) (next : PublicKeys → CaProgram β) :
    run (authority.perform random) (Effect.keys agent >>= next) world =
      match world.store.state.keysOf agent with
      | .ok keys => run (authority.perform random) (next keys) world
      | .error error => (.error error, world) := by
  rw [Effect.keys, run_bind, run_perform, CertificateAuthority.perform]
  cases world.store.state.keysOf agent <;> rfl

theorem run_environment (agent : AgentId) (next : Option Bytes → CaProgram β) :
    run (authority.perform random) (Effect.environment agent >>= next) world =
      run (authority.perform random) (next (world.store.state.environments.get agent)) world := by
  rw [Effect.environment, run_bind, run_perform]
  rfl

theorem run_subscriptionsFor (typeId : TypeId) (next : List StoredSubscription → CaProgram β) :
    run (authority.perform random) (Effect.subscriptionsFor typeId >>= next) world =
      run (authority.perform random) (next (world.store.state.subscriptions.forType typeId))
        world := by
  rw [Effect.subscriptionsFor, run_bind, run_perform]
  rfl

theorem run_checkAndMark (sender : AgentId) (session : SessionId) (nowSeconds : UInt64)
    (next : Unit → CaProgram β) :
    run (authority.perform random) (Effect.checkAndMark sender session nowSeconds >>= next) world =
      continueStore world (world.store.checkAndMark sender session nowSeconds)
        (fun value after => run (authority.perform random) (next value) after) := by
  rw [Effect.checkAndMark, run_bind, run_perform, CertificateAuthority.perform, continueStore]
  cases (world.store.checkAndMark sender session nowSeconds).1 <;> rfl

theorem run_setEnvironment (agent : AgentId) (encoded : Bytes) (next : Unit → CaProgram β) :
    run (authority.perform random) (Effect.setEnvironment agent encoded >>= next) world =
      continueStore world (world.store.setEnvironment agent encoded)
        (fun value after => run (authority.perform random) (next value) after) := by
  rw [Effect.setEnvironment, run_bind, run_perform, CertificateAuthority.perform, continueStore]
  cases (world.store.setEnvironment agent encoded).1 <;> rfl

theorem run_putSubscription (subscription : StoredSubscription) (next : Unit → CaProgram β) :
    run (authority.perform random) (Effect.putSubscription subscription >>= next) world =
      continueStore world (world.store.putSubscription subscription)
        (fun value after => run (authority.perform random) (next value) after) := by
  rw [Effect.putSubscription, run_bind, run_perform, CertificateAuthority.perform, continueStore]
  cases (world.store.putSubscription subscription).1 <;> rfl

theorem run_claimSubscription (subscription : StoredSubscription) (next : Bool → CaProgram β) :
    run (authority.perform random) (Effect.claimSubscription subscription >>= next) world =
      continueStore world (world.store.claimSubscription subscription)
        (fun value after => run (authority.perform random) (next value) after) := by
  rw [Effect.claimSubscription, run_bind, run_perform, CertificateAuthority.perform, continueStore]
  cases (world.store.claimSubscription subscription).1 <;> rfl

theorem run_delivery (publisher recipient : AgentId) (handler : HandlerId) (typeId : TypeId)
    (value : Bytes) (recipientX25519 : Key32) (next : Bytes → CaProgram β) :
    run (authority.perform random)
        (Effect.delivery publisher recipient handler typeId value recipientX25519 >>= next) world =
      let answer := authority.delivery random publisher recipient handler typeId value
        recipientX25519 world.rng
      match answer.1 with
      | .ok frame => run (authority.perform random) (next frame) { world with rng := answer.2 }
      | .error error => (.error error, { world with rng := answer.2 }) := by
  rw [Effect.delivery, run_bind, run_perform, CertificateAuthority.perform]
  dsimp only
  cases (authority.delivery random publisher recipient handler typeId value recipientX25519
    world.rng).1 <;> rfl

/-- The world after one session was checked, whether it was accepted or not. -/
def World.marked (world : World ρ) (sender : AgentId) (session : SessionId)
    (nowSeconds : UInt64) : World ρ :=
  { world with store := (world.store.checkAndMark sender session nowSeconds).2 }

/-- A request that `process` authenticated and opened against the given tables. -/
structure Admits (authority : CertificateAuthority) (store : Store) (frame : Bytes)
    (nowSeconds : UInt64) (request : CertificateAuthority.Admitted) (publicKeys : PublicKeys) :
    Prop where
  accepted : CertificateAuthority.acceptEnvelope frame = .ok request.envelope
  known : store.state.keysOf request.envelope.sender = .ok publicKeys
  verified : authority.verifySender request.envelope publicKeys = .ok ()
  marked : (store.checkAndMark request.envelope.sender request.envelope.sessionId nowSeconds).1 =
    .ok ()
  opened : authority.openRequest frame request.envelope publicKeys =
    .ok (request.plaintext, request.operation)

variable (random authority world) in
/-- A run of the common part either authenticates and opens the request or ends it, having at
most checked its session. -/
theorem run_admission (frame : Bytes) (nowSeconds : UInt64) :
    (∃ request publicKeys, Admits authority world.store frame nowSeconds request publicKeys ∧
      run (authority.perform random) (authority.admission frame nowSeconds) world =
        (.ok request,
          world.marked request.envelope.sender request.envelope.sessionId nowSeconds)) ∨
    (∃ error after, run (authority.perform random) (authority.admission frame nowSeconds) world =
        (.error error, after) ∧
      (after = world ∨ ∃ envelope, CertificateAuthority.acceptEnvelope frame = .ok envelope ∧
        after = world.marked envelope.sender envelope.sessionId nowSeconds)) := by
  simp only [CertificateAuthority.admission, run_checked, run_keys, run_checkAndMark, continueStore]
  cases accepted : CertificateAuthority.acceptEnvelope frame with
  | error error => exact .inr ⟨error, world, rfl, .inl rfl⟩
  | ok envelope =>
      dsimp only
      cases known : world.store.state.keysOf envelope.sender with
      | error error => exact .inr ⟨error, world, rfl, .inl rfl⟩
      | ok publicKeys =>
          dsimp only
          cases verified : authority.verifySender envelope publicKeys with
          | error error => exact .inr ⟨error, world, rfl, .inl rfl⟩
          | ok passed =>
              dsimp only
              cases marked : (world.store.checkAndMark envelope.sender envelope.sessionId
                  nowSeconds).1 with
              | error error => exact .inr ⟨error, _, rfl, .inr ⟨envelope, rfl, rfl⟩⟩
              | ok fresh =>
                  dsimp only
                  cases opened : authority.openRequest frame envelope publicKeys with
                  | error error => exact .inr ⟨error, _, rfl, .inr ⟨envelope, rfl, rfl⟩⟩
                  | ok pair =>
                      exact .inl ⟨⟨envelope, pair.1, pair.2⟩, publicKeys,
                        ⟨accepted, known, verified, marked, opened⟩, rfl⟩

theorem run_admission_of_admits {frame : Bytes} {nowSeconds : UInt64}
    {request : CertificateAuthority.Admitted} {publicKeys : PublicKeys}
    (admits : Admits authority world.store frame nowSeconds request publicKeys) :
    run (authority.perform random) (authority.admission frame nowSeconds) world =
      (.ok request, world.marked request.envelope.sender request.envelope.sessionId nowSeconds) := by
  simp only [CertificateAuthority.admission, run_checked, run_keys, run_checkAndMark, continueStore,
    admits.accepted, admits.known, admits.verified, admits.marked, admits.opened]
  rfl

/-- The world after one delivery was sealed, whether that succeeded or not. -/
def World.drawn (world : World ρ) (random : CryptoRandom ρ) (authority : CertificateAuthority)
    (publication : Publication) (subscription : StoredSubscription) (recipientKeys : PublicKeys) :
    Except Error Bytes × World ρ :=
  let answer := authority.delivery random publication.publisher subscription.subscriber
    subscription.handler publication.typeId publication.value recipientKeys.x25519 world.rng
  (answer.1, { world with rng := answer.2 })

/-- The world after one subscription was claimed, whether that succeeded or not. -/
def World.claimed (world : World ρ) (subscription : StoredSubscription) :
    Except Error Bool × World ρ :=
  let answer := world.store.claimSubscription subscription
  (answer.1, { world with store := answer.2 })

theorem run_deliverTo (publication : Publication) (subscription : StoredSubscription)
    (recipientKeys : PublicKeys) :
    run (authority.perform random)
        (CertificateAuthority.deliverTo publication subscription recipientKeys) world =
      match world.drawn random authority publication subscription recipientKeys with
      | (.error error, after) => (.error error, after)
      | (.ok frame, after) =>
          match after.claimed subscription with
          | (.error error, last) => (.error error, last)
          | (.ok true, last) => (.ok (some frame), last)
          | (.ok false, last) => (.ok none, last) := by
  rw [CertificateAuthority.deliverTo, run_delivery]
  simp only [World.drawn, run_claimSubscription, continueStore, World.claimed]
  cases (authority.delivery random publication.publisher subscription.subscriber
    subscription.handler publication.typeId publication.value recipientKeys.x25519 world.rng).1 with
  | error error => rfl
  | ok frame =>
      dsimp only
      cases (world.store.claimSubscription subscription).1 with
      | error error => rfl
      | ok held => cases held <;> rfl

/-- One iteration follows the decision of `route`. -/
theorem run_offer (publication : Publication) (subscription : StoredSubscription) :
    run (authority.perform random) (authority.offer publication subscription) world =
      match route authority.policy world.store.state publication subscription with
      | .error error => (.error error, world)
      | .ok none => (.ok none, world)
      | .ok (some recipientKeys) => run (authority.perform random)
          (CertificateAuthority.deliverTo publication subscription recipientKeys) world := by
  simp only [CertificateAuthority.offer, run_checked, route]
  cases storedPredicate publication.typeId subscription with
  | error error => rfl
  | ok predicate =>
      simp only [ok_bind]
      split
      · rfl
      · rw [run_environment]
        cases world.store.state.environments.get subscription.subscriber with
        | none => rfl
        | some encoded =>
            simp only [run_checked]
            cases storedEnvironment encoded with
            | error error => rfl
            | ok environment =>
                simp only [ok_bind]
                split
                · rfl
                · split
                  · rfl
                  · rw [run_keys]
                    cases world.store.state.keysOf subscription.subscriber <;> rfl

theorem run_deliverAll_cons (publication : Publication) (subscription : StoredSubscription)
    (rest : List StoredSubscription) :
    run (authority.perform random) (authority.deliverAll publication (subscription :: rest)) world =
      match run (authority.perform random) (authority.offer publication subscription) world with
      | (.error error, after) => (.error error, after)
      | (.ok pushed, after) =>
          match run (authority.perform random) (authority.deliverAll publication rest) after with
          | (.error error, last) => (.error error, last)
          | (.ok later, last) => (.ok (pushed.toList ++ later), last) := by
  rw [CertificateAuthority.deliverAll, run_bind]
  rcases run (authority.perform random) (authority.offer publication subscription) world with
    ⟨result, after⟩
  cases result with
  | error error => rfl
  | ok pushed =>
      dsimp only
      rw [continueWith_ok, run_bind]
      rcases run (authority.perform random) (authority.deliverAll publication rest) after with
        ⟨last, final⟩
      cases last <;> rfl

variable (random authority) in
theorem run_offer_preserves (holds : World ρ → Prop)
    (sealing : ∀ world rng, holds world → holds { world with rng := rng })
    (claiming : ∀ world subscription, holds world → holds (World.claimed world subscription).2)
    (publication : Publication) (subscription : StoredSubscription) (start : holds world) :
    holds (run (authority.perform random) (authority.offer publication subscription) world).2 := by
  rw [run_offer]
  split
  · exact start
  · exact start
  · rename_i recipientKeys _
    rw [run_deliverTo]
    rcases drawn : world.drawn random authority publication subscription recipientKeys with
      ⟨result, after⟩
    have sealedHolds : holds after := by
      cases drawn
      exact sealing world _ start
    cases result with
    | error error => exact sealedHolds
    | ok frame =>
        have claimedHolds := claiming after subscription sealedHolds
        dsimp only
        rcases claimed : after.claimed subscription with ⟨held, last⟩
        rw [claimed] at claimedHolds
        cases held with
        | error error => exact claimedHolds
        | ok answer => cases answer <;> exact claimedHolds

variable (random authority) in
theorem run_deliverAll_preserves (holds : World ρ → Prop)
    (sealing : ∀ world rng, holds world → holds { world with rng := rng })
    (claiming : ∀ world subscription, holds world → holds (World.claimed world subscription).2)
    (publication : Publication) (subscriptions : List StoredSubscription) (start : holds world) :
    holds (run (authority.perform random)
      (authority.deliverAll publication subscriptions) world).2 := by
  induction subscriptions generalizing world with
  | nil => exact start
  | cons subscription rest ih =>
      rw [run_deliverAll_cons]
      have first : holds (run (authority.perform random)
          (authority.offer publication subscription) world).2 :=
        run_offer_preserves random authority holds sealing claiming publication subscription start
      rcases offered : run (authority.perform random)
        (authority.offer publication subscription) world with ⟨result, after⟩
      rw [offered] at first
      cases result with
      | error error => exact first
      | ok pushed =>
          have later := ih first
          dsimp only
          rcases looped : run (authority.perform random)
            (authority.deliverAll publication rest) after with ⟨last, final⟩
          rw [looped] at later
          cases last <;> exact later

variable (random authority world) in
theorem run_validateStoredEnvironment (agent : AgentId) :
    (run (authority.perform random) (authority.validateStoredEnvironment agent) world).2 = world := by
  rw [CertificateAuthority.validateStoredEnvironment, run_environment]
  cases world.store.state.environments.get agent with
  | none => rfl
  | some encoded =>
      simp only [run_checked]
      cases storedEnvironment encoded with
      | error error => rfl
      | ok environment =>
          dsimp only
          rw [run_ofExcept]

variable (random authority world) in
/-- Setting an environment changes the store by that one call or not at all. -/
theorem run_processSetEnvironment (envelope : EnvelopeRef) (plaintext : Bytes)
    (proposed : EnvironmentRef) :
    (∃ error, run (authority.perform random)
        (authority.processSetEnvironment envelope plaintext proposed) world =
          (.error error, world)) ∨
      (envelope.handler = .none ∧
        run (authority.perform random)
          (authority.processSetEnvironment envelope plaintext proposed) world =
            continueStore world (world.store.setEnvironment envelope.sender plaintext)
              (fun _ after => (.ok .accepted, after))) := by
  simp only [CertificateAuthority.processSetEnvironment, run_checked, run_environment,
    run_setEnvironment]
  by_cases handler : envelope.handler = .none
  · rw [rejectIf_pass _ (not_not.mpr handler)]
    dsimp only
    cases (world.store.state.environments.get envelope.sender).mapM storedEnvironment with
    | error error => exact .inl ⟨error, rfl⟩
    | ok current =>
        dsimp only
        cases authority.validateEnvironment envelope.sender current proposed with
        | error error => exact .inl ⟨error, rfl⟩
        | ok valid => exact .inr ⟨handler, rfl⟩
  · rw [rejectIf_fail _ handler]
    exact .inl ⟨_, rfl⟩

variable (random authority world) in
/-- Subscribing changes the store by that one call or not at all. -/
theorem run_processSubscribe (envelope : EnvelopeRef) (plaintext : Bytes) (typeId : TypeId)
    (kind : SubscriptionKind) :
    (∃ error, run (authority.perform random)
        (authority.processSubscribe envelope plaintext typeId kind) world =
          (.error error, world)) ∨
      (envelope.handler ≠ .none ∧ world.store.state.environments.contains envelope.sender = true ∧
        run (authority.perform random)
          (authority.processSubscribe envelope plaintext typeId kind) world =
            continueStore world (world.store.putSubscription
                ⟨envelope.sender, typeId, envelope.handler, kind, plaintext⟩)
              (fun _ after => (.ok .accepted, after))) := by
  rw [CertificateAuthority.processSubscribe, run_checked]
  by_cases handler : envelope.handler = .none
  · rw [rejectIf_fail _ handler]
    exact .inl ⟨_, rfl⟩
  · rw [rejectIf_pass _ handler]
    dsimp only
    rw [run_bind]
    have unchanged : (run (authority.perform random)
        (authority.validateStoredEnvironment envelope.sender) world).2 = world :=
      run_validateStoredEnvironment random authority world envelope.sender
    have stored : ∀ value, (run (authority.perform random)
        (authority.validateStoredEnvironment envelope.sender) world).1 = .ok value →
        world.store.state.environments.contains envelope.sender = true := by
      intro value ran
      rw [CertificateAuthority.validateStoredEnvironment, run_environment] at ran
      rw [SortedMap.contains_eq]
      cases found : world.store.state.environments.get envelope.sender with
      | none => rw [found] at ran; cases ran
      | some encoded => rfl
    rcases ran : run (authority.perform random)
      (authority.validateStoredEnvironment envelope.sender) world with ⟨result, after⟩
    rw [ran] at unchanged stored
    cases unchanged
    cases result with
    | error error => exact .inl ⟨error, rfl⟩
    | ok value =>
        rw [continueWith_ok, run_putSubscription]
        exact .inr ⟨handler, stored value rfl, rfl⟩

/-- What a publication request was checked for before its delivery loop. -/
structure Publishes (authority : CertificateAuthority) (state : StoreState) (envelope : EnvelopeRef)
    (typeId : TypeId) (predicate : PredicateRef) (value : Bytes) (publication : Publication) :
    Prop where
  handler : envelope.handler = .none
  stored : ∃ encoded, state.environments.get envelope.sender = some encoded ∧
    storedEnvironment encoded = .ok publication.environment
  valid : authority.validateEnvironment envelope.sender none publication.environment = .ok ()
  publication_eq : publication =
    ⟨envelope.sender, publication.environment, typeId, predicate, value⟩

variable (random authority world) in
/-- A publication is refused without a trace or runs its delivery loop. -/
theorem run_processPublish (envelope : EnvelopeRef) (typeId : TypeId) (predicate : PredicateRef)
    (value : Bytes) :
    (∃ error, run (authority.perform random)
        (authority.processPublish envelope typeId predicate value) world = (.error error, world) ∧
        ∀ publication, ¬ Publishes authority world.store.state envelope typeId predicate value
          publication) ∨
      (∃ publication, Publishes authority world.store.state envelope typeId predicate value
          publication ∧
        run (authority.perform random)
          (authority.processPublish envelope typeId predicate value) world =
            match run (authority.perform random) (authority.deliverAll publication
              (world.store.state.subscriptions.forType typeId)) world with
            | (.ok frames, after) => (.ok (.deliveries frames), after)
            | (.error error, after) => (.error error, after)) := by
  rw [CertificateAuthority.processPublish, run_checked]
  by_cases handler : envelope.handler = .none
  · rw [rejectIf_pass _ (not_not.mpr handler)]
    dsimp only
    rw [run_environment]
    cases stored : world.store.state.environments.get envelope.sender with
    | none =>
        refine .inl ⟨_, rfl, fun publication publishes => ?_⟩
        obtain ⟨encoded, found, _⟩ := publishes.stored
        cases stored.symm.trans found
    | some encoded =>
        simp only [run_checked]
        cases parsed : storedEnvironment encoded with
        | error error =>
            refine .inl ⟨error, rfl, fun publication publishes => ?_⟩
            obtain ⟨other, found, read⟩ := publishes.stored
            cases stored.symm.trans found
            cases parsed.symm.trans read
        | ok environment =>
            dsimp only
            cases valid : authority.validateEnvironment envelope.sender none environment with
            | error error =>
                refine .inl ⟨error, rfl, fun publication publishes => ?_⟩
                obtain ⟨other, found, read⟩ := publishes.stored
                cases stored.symm.trans found
                cases parsed.symm.trans read
                cases valid.symm.trans publishes.valid
            | ok passed =>
                refine .inr ⟨⟨envelope.sender, environment, typeId, predicate, value⟩,
                  ⟨handler, ⟨encoded, stored, parsed⟩, valid, rfl⟩, ?_⟩
                dsimp only
                rw [run_subscriptionsFor, run_bind]
                rcases run (authority.perform random) (authority.deliverAll _ _) world with
                  ⟨result, after⟩
                cases result <;> rfl
  · rw [rejectIf_fail _ handler]
    exact .inl ⟨_, rfl, fun publication publishes => handler publishes.handler⟩

/-- The result of a request whose delivery loop ran. -/
def publicationResult : Except Error (List Bytes) × World ρ → Except Error ProcessResult × World ρ
  | (.ok frames, after) => (.ok (.deliveries frames), after)
  | (.error error, after) => (.error error, after)

theorem publicationResult_world (outcome : Except Error (List Bytes) × World ρ) :
    (publicationResult outcome).2 = outcome.2 := by
  obtain ⟨result, after⟩ := outcome
  cases result <;> rfl

/-- A frame that is admitted as a publication and reaches the delivery loop. -/
structure ReachesLoop (authority : CertificateAuthority) (store : Store) (frame : Bytes)
    (nowSeconds : UInt64) (request : CertificateAuthority.Admitted) (publication : Publication) :
    Prop where
  admits : ∃ publicKeys, Admits authority store frame nowSeconds request publicKeys
  messageType : request.envelope.messageType = .publish
  operation : request.operation = .publish publication.typeId publication.predicate
    publication.value
  publishes : Publishes authority store.state request.envelope publication.typeId
    publication.predicate publication.value publication

/-- All the ways one call of `process` can end, with the store calls that changed the world. -/
inductive Handled (random : CryptoRandom ρ) (authority : CertificateAuthority) (world : World ρ)
    (frame : Bytes) (nowSeconds : UInt64) : Except Error ProcessResult × World ρ → Prop where
  | refused (error : Error) : Handled random authority world frame nowSeconds (.error error, world)
  | rejected (error : Error) (envelope : EnvelopeRef)
      (accepted : CertificateAuthority.acceptEnvelope frame = .ok envelope) :
      Handled random authority world frame nowSeconds
        (.error error, world.marked envelope.sender envelope.sessionId nowSeconds)
  | environment (request : CertificateAuthority.Admitted) (publicKeys : PublicKeys)
      (proposed : EnvironmentRef)
      (admits : Admits authority world.store frame nowSeconds request publicKeys)
      (messageType : request.envelope.messageType = .setEnvironment)
      (operation : request.operation = .setEnvironment proposed) :
      Handled random authority world frame nowSeconds
        (let marked := world.marked request.envelope.sender request.envelope.sessionId nowSeconds
        continueStore marked
          (marked.store.setEnvironment request.envelope.sender request.plaintext)
          (fun _ after => (.ok .accepted, after)))
  | subscription (request : CertificateAuthority.Admitted) (publicKeys : PublicKeys)
      (typeId : TypeId) (predicate : PredicateRef) (kind : SubscriptionKind)
      (admits : Admits authority world.store frame nowSeconds request publicKeys)
      (operation : match kind with
        | .oneShot => request.envelope.messageType = .subscribe ∧
            request.operation = .subscribe typeId predicate
        | .permanent => request.envelope.messageType = .subscribePermanent ∧
            request.operation = .subscribePermanent typeId predicate)
      (handler : request.envelope.handler ≠ .none) :
      Handled random authority world frame nowSeconds
        (let marked := world.marked request.envelope.sender request.envelope.sessionId nowSeconds
        continueStore marked
          (marked.store.putSubscription ⟨request.envelope.sender, typeId, request.envelope.handler,
            kind, request.plaintext⟩)
          (fun _ after => (.ok .accepted, after)))
  | publication (request : CertificateAuthority.Admitted) (publication : Publication)
      (reaches : ReachesLoop authority world.store frame nowSeconds request publication) :
      Handled random authority world frame nowSeconds
        (let marked := world.marked request.envelope.sender request.envelope.sessionId nowSeconds
        publicationResult (run (authority.perform random) (authority.deliverAll publication
          (marked.store.state.subscriptions.forType publication.typeId)) marked))

theorem World.marked_state (world : World ρ) (sender : AgentId) (session : SessionId)
    (nowSeconds : UInt64) :
    (world.marked sender session nowSeconds).store.state =
      { world.store.state with
        replay := (world.marked sender session nowSeconds).store.state.replay } := by
  obtain ⟨_, _, _, marked⟩ | ⟨_, _, kept | purged⟩ :=
    world.store.checkAndMark_cases sender session nowSeconds
  · rw [World.marked, marked]
  · rw [World.marked, kept]
  · rw [World.marked, purged]

theorem publishes_marked {world : World ρ} (sender : AgentId) (session : SessionId)
    (nowSeconds : UInt64) {envelope : EnvelopeRef} {typeId : TypeId} {predicate : PredicateRef}
    {value : Bytes} {publication : Publication} :
    Publishes authority (world.marked sender session nowSeconds).store.state envelope typeId
        predicate value publication ↔
      Publishes authority world.store.state envelope typeId predicate value publication := by
  rw [World.marked_state]
  exact ⟨fun ⟨handler, stored, valid, same⟩ => ⟨handler, stored, valid, same⟩,
    fun ⟨handler, stored, valid, same⟩ => ⟨handler, stored, valid, same⟩⟩

theorem handle_of_admits {frame : Bytes} {nowSeconds : UInt64}
    {request : CertificateAuthority.Admitted} {publicKeys : PublicKeys}
    (admits : Admits authority world.store frame nowSeconds request publicKeys) :
    authority.handle random frame nowSeconds world =
      run (authority.perform random) (authority.dispatch request)
        (world.marked request.envelope.sender request.envelope.sessionId nowSeconds) := by
  rw [CertificateAuthority.handle, CertificateAuthority.process, run_bind,
    run_admission_of_admits admits]
  rfl

/-- A request that reaches the loop runs it in the world where its session is marked. -/
theorem handle_of_reachesLoop {frame : Bytes} {nowSeconds : UInt64}
    {request : CertificateAuthority.Admitted} {publication : Publication}
    (reaches : ReachesLoop authority world.store frame nowSeconds request publication) :
    authority.handle random frame nowSeconds world =
      let marked := world.marked request.envelope.sender request.envelope.sessionId nowSeconds
      publicationResult (run (authority.perform random) (authority.deliverAll publication
        (marked.store.state.subscriptions.forType publication.typeId)) marked) := by
  obtain ⟨publicKeys, admits⟩ := reaches.admits
  rw [handle_of_admits admits, CertificateAuthority.dispatch, reaches.messageType,
    reaches.operation]
  dsimp only
  have publishes := (publishes_marked request.envelope.sender request.envelope.sessionId
    nowSeconds).mpr reaches.publishes
  obtain ⟨error, _, none⟩ | ⟨other, same, ran⟩ := run_processPublish random authority
    (world.marked request.envelope.sender request.envelope.sessionId nowSeconds) request.envelope
    publication.typeId publication.predicate publication.value
  · exact absurd publishes (none publication)
  · have equal : other = publication := by
      obtain ⟨encoded, found, read⟩ := same.stored
      obtain ⟨again, foundAgain, readAgain⟩ := publishes.stored
      cases found.symm.trans foundAgain
      have environments : other.environment = publication.environment :=
        Except.ok.inj (read.symm.trans readAgain)
      rw [same.publication_eq, environments, ← publishes.publication_eq]
    rw [ran, equal]
    rfl

theorem handle_handled (frame : Bytes) (nowSeconds : UInt64) :
    Handled random authority world frame nowSeconds
      (authority.handle random frame nowSeconds world) := by
  obtain ⟨request, publicKeys, admits, _⟩ | ⟨error, after, ran, changed⟩ :=
    run_admission random authority world frame nowSeconds
  · rw [handle_of_admits admits, CertificateAuthority.dispatch]
    generalize marking : world.marked request.envelope.sender request.envelope.sessionId
      nowSeconds = marked
    have rejected (error : Error) : Handled random authority world frame nowSeconds
        (.error error, marked) := marking ▸ .rejected error request.envelope admits.accepted
    split
    · rename_i proposed messageType operation
      obtain ⟨error, ran⟩ | ⟨_, ran⟩ := run_processSetEnvironment random authority marked
        request.envelope request.plaintext proposed
      · rw [ran]
        exact rejected error
      · rw [ran, ← marking]
        exact .environment request publicKeys proposed admits messageType operation
    · rename_i typeId predicate messageType operation
      obtain ⟨error, ran⟩ | ⟨handler, _, ran⟩ := run_processSubscribe random authority marked
        request.envelope request.plaintext typeId .oneShot
      · rw [ran]
        exact rejected error
      · rw [ran, ← marking]
        exact .subscription request publicKeys typeId predicate .oneShot admits
          ⟨messageType, operation⟩ handler
    · rename_i typeId predicate messageType operation
      obtain ⟨error, ran⟩ | ⟨handler, _, ran⟩ := run_processSubscribe random authority marked
        request.envelope request.plaintext typeId .permanent
      · rw [ran]
        exact rejected error
      · rw [ran, ← marking]
        exact .subscription request publicKeys typeId predicate .permanent admits
          ⟨messageType, operation⟩ handler
    · rename_i typeId predicate value messageType operation
      obtain ⟨error, ran, _⟩ | ⟨publication, publishes, _⟩ := run_processPublish random authority
        marked request.envelope typeId predicate value
      · rw [ran]
        exact rejected error
      · have same := publishes.publication_eq
        rw [← marking, publishes_marked] at publishes
        have reaches : ReachesLoop authority world.store frame nowSeconds request publication := by
          rw [same] at publishes ⊢
          exact ⟨⟨publicKeys, admits⟩, messageType, operation, publishes⟩
        have ran : authority.handle random frame nowSeconds world = _ :=
          handle_of_reachesLoop reaches
        rw [handle_of_admits admits, CertificateAuthority.dispatch, messageType, operation] at ran
        rw [← marking, ran]
        exact .publication request publication reaches
    · exact rejected _
  · rw [CertificateAuthority.handle, CertificateAuthority.process, run_bind, ran]
    obtain unchanged | ⟨envelope, accepted, marked⟩ := changed
    · subst unchanged
      exact .refused error
    · subst marked
      exact .rejected error envelope accepted

variable (random) in
/-- Only a publication that reached its delivery loop is answered with deliveries. -/
theorem reachesLoop_of_deliveries {frame : Bytes} {nowSeconds : UInt64}
    (delivers : ∃ frames, (authority.handle random frame nowSeconds world).1 =
      .ok (.deliveries frames)) :
    ∃ request publication,
      ReachesLoop authority world.store frame nowSeconds request publication := by
  have handled : Handled random authority world frame nowSeconds
      (authority.handle random frame nowSeconds world) := handle_handled frame nowSeconds
  generalize authority.handle random frame nowSeconds world = outcome at handled delivers
  obtain ⟨frames, answer⟩ := delivers
  cases handled with
  | refused error => cases answer
  | rejected error envelope accepted => cases answer
  | environment request publicKeys proposed admits messageType operation =>
      dsimp only [continueStore] at answer
      split at answer <;> cases answer
  | subscription request publicKeys typeId predicate kind admits operation handler =>
      dsimp only [continueStore] at answer
      split at answer <;> cases answer
  | publication request publication reaches => exact ⟨request, publication, reaches⟩

end Runs

end SecurePubSub.Authority

import SecurePubSub.Agent.Core
import SecurePubSub.Authority.Invariants

namespace SecurePubSub.Authority

open SecurePubSub.Data SecurePubSub.Data.Fallible SecurePubSub.Data.Program SecurePubSub.Protocol

/-! The states a CA reaches from an empty store, and the invariant they share. -/

/-- A CA with the world its requests run in. -/
structure CaSystem (ρ : Type) where
  authority : CertificateAuthority
  world : World ρ

namespace CaSystem

variable {ρ : Type}

def withStore (system : CaSystem ρ) (store : Store) : CaSystem ρ :=
  { system with world := { system.world with store } }

/-- An empty store of either kind; its file system may misbehave later in any way. -/
def Initial (system : CaSystem ρ) : Prop :=
  ∃ limits, system.world.store = .memory (.new limits) ∨
    ∃ snapshot, system.world.store = .persistent ⟨.empty limits, snapshot, limits⟩

/-- Administration and requests, none of which interleave. -/
inductive Step (random : CryptoRandom ρ) : CaSystem ρ → CaSystem ρ → Prop where
  | provision {system : CaSystem ρ} (agent : AgentId) (keys : PublicKeys) :
      Step random system (system.withStore (system.world.store.provision agent keys).2)
  | reconcile {system : CaSystem ρ} (store : PersistentStore)
      (held : system.world.store = .persistent store)
      (configured : List (AgentId × PublicKeys)) :
      Step random system (system.withStore (.persistent (store.reconcileAgents configured).2))
  | replacePolicy {system : CaSystem ρ} (policy : EnvironmentPolicy) :
      Step random system { system with authority := { system.authority with policy } }
  | process {system : CaSystem ρ} (frame : Bytes) (nowSeconds : UInt64) :
      Step random system
        { system with world := (system.authority.handle random frame nowSeconds system.world).2 }

abbrev Reachable (random : CryptoRandom ρ) : CaSystem ρ → CaSystem ρ → Prop :=
  Relation.ReflTransGen (Step random)

end CaSystem

/-! ## Requests keep the invariant -/

/-- The tables are well formed within the store's own limits. -/
def Store.Sound (store : Store) : Prop := store.state.WellFormed store.limits

section Preservation

variable {ρ : Type} {random : CryptoRandom ρ} {authority : CertificateAuthority}

theorem Store.Sound.marked {world : World ρ} (sound : world.store.Sound) (sender : AgentId)
    (session : SessionId) (nowSeconds : UInt64) :
    (world.marked sender session nowSeconds).store.Sound := by
  have limits := world.store.checkAndMark_limits sender session nowSeconds
  have purgedBound : (world.store.state.replay.purge nowSeconds).entries.size ≤
      world.store.limits.replays :=
    Nat.le_trans (SortedMap.size_retain_le _ _) sound.replays_bounded
  rw [Store.Sound, World.marked, limits]
  obtain ⟨_, room, _, marked⟩ | ⟨_, _, kept | purged⟩ :=
    world.store.checkAndMark_cases sender session nowSeconds
  · rw [marked]
    refine sound.with_replay (SortedMap.size_insert_le_of_room purgedBound (.inr ?_))
      sound.replays_limited
    exact sound.replays_limited ▸ room
  · rw [kept]
    exact sound
  · rw [purged]
    exact sound.with_replay purgedBound sound.replays_limited

theorem Store.Sound.provision {store : Store} (sound : store.Sound) (agent : AgentId)
    (keys : PublicKeys) : (store.provision agent keys).2.Sound := by
  rw [Store.Sound, store.provision_limits]
  obtain ⟨next, edited, _, result⟩ | ⟨_, _, kept⟩ := store.provision_cases agent keys
  · rw [result]
    exact StoreState.WellFormed.provision sound edited
  · rw [kept]
    exact sound

theorem Store.Sound.setEnvironment {store : Store} (sound : store.Sound) {agent : AgentId}
    {encoded : Bytes} {environment : EnvironmentRef}
    (known : store.state.keys.contains agent = true)
    (parsed : parseOperation encoded = .ok (.setEnvironment environment)) :
    (store.setEnvironment agent encoded).2.Sound := by
  rw [Store.Sound, store.setEnvironment_limits]
  obtain ⟨next, edited, _, result⟩ | ⟨_, _, kept⟩ := store.setEnvironment_cases agent encoded
  · rw [result]
    exact StoreState.WellFormed.setEnvironment sound edited known parsed
  · rw [kept]
    exact sound

theorem Store.Sound.putSubscription {store : Store} (sound : store.Sound)
    {subscription : StoredSubscription}
    (known : store.state.keys.contains subscription.subscriber = true)
    (valid : subscription.Parses ∧ subscription.handler ≠ .none) :
    (store.putSubscription subscription).2.Sound := by
  have stored := StoreState.WellFormed.putSubscription sound known valid
  rw [Store.Sound, store.putSubscription_limits]
  obtain ⟨_, _, result⟩ | ⟨_, _, kept | ⟨_, result⟩⟩ := store.putSubscription_cases subscription
  · rw [result]
    exact stored
  · rw [kept]
    exact sound
  · rw [result]
    exact stored

theorem Store.Sound.claimSubscription {store : Store} (sound : store.Sound)
    (subscription : StoredSubscription) : (store.claimSubscription subscription).2.Sound := by
  rw [Store.Sound, store.claimSubscription_limits]
  obtain ⟨_, result⟩ | ⟨_, _, kept⟩ := store.claimSubscription_cases subscription
  · rw [result]
    exact StoreState.WellFormed.claimSubscription sound subscription
  · rw [kept]
    exact sound

theorem Store.Sound.reconcileAgents {store : PersistentStore}
    (sound : (Store.persistent store).Sound) (configured : List (AgentId × PublicKeys)) :
    (Store.persistent (store.reconcileAgents configured).2).Sound := by
  rw [PersistentStore.reconcileAgents]
  split
  · exact sound
  · rename_i few
    rw [Store.Sound, Store.limits, Store.state, store.transact_limits]
    obtain ⟨next, edited, _, result⟩ | ⟨_, _, kept⟩ := store.transact_cases
      ((StoreState.configuredKeys configured .empty).map store.state.reconcile)
    · rw [result]
      cases accepted : StoreState.configuredKeys configured .empty with
      | error error => rw [accepted] at edited; cases edited
      | ok keys =>
          rw [accepted] at edited
          cases edited
          have size := StoreState.configuredKeys_size accepted
          have bounded : keys.size ≤ store.limits.agents := by
            simp only [SortedMap.size, SortedMap.entries_empty, List.length_nil] at size ⊢
            omega
          exact StoreState.WellFormed.reconcile sound bounded
    · rw [kept]
      exact sound

theorem continueStore_store {α β : Type} {world : World ρ} {answer : Except Error α × Store}
    {result : α → Except Error β} :
    (continueStore world answer (fun value after => (result value, after))).2.store = answer.2 := by
  rw [continueStore]
  cases answer.1 <;> rfl

theorem parseOperation_of_admits {store : Store} {frame : Bytes} {nowSeconds : UInt64}
    {request : CertificateAuthority.Admitted} {publicKeys : PublicKeys}
    (admits : Admits authority store frame nowSeconds request publicKeys) :
    parseOperation request.plaintext = .ok request.operation := by
  obtain ⟨plaintext, _, opened⟩ := bind_eq_ok.mp admits.opened
  obtain ⟨operation, parsed, result⟩ := bind_eq_ok.mp opened
  cases result
  exact parsed

/-- One request keeps the invariant, whatever its frame. -/
theorem Store.Sound.handle {world : World ρ} (sound : world.store.Sound) (frame : Bytes)
    (nowSeconds : UInt64) : (authority.handle random frame nowSeconds world).2.store.Sound := by
  have handled : Handled random authority world frame nowSeconds
      (authority.handle random frame nowSeconds world) := handle_handled frame nowSeconds
  generalize authority.handle random frame nowSeconds world = outcome at handled
  cases handled with
  | refused error => exact sound
  | rejected error envelope accepted => exact sound.marked _ _ _
  | environment request publicKeys proposed admits messageType operation =>
      have parsed := parseOperation_of_admits admits
      rw [operation] at parsed
      have known := StoreState.contains_of_keysOf admits.known
      dsimp only
      rw [continueStore_store]
      refine (sound.marked _ _ _).setEnvironment ?_ parsed
      rw [World.marked_state]
      exact known
  | subscription request publicKeys typeId predicate kind admits operation handler =>
      have parsed := parseOperation_of_admits admits
      have known := StoreState.contains_of_keysOf admits.known
      dsimp only
      rw [continueStore_store]
      refine (sound.marked _ _ _).putSubscription ?_ ⟨⟨predicate, ?_⟩, handler⟩
      · rw [World.marked_state]
        exact known
      · cases kind with
        | oneShot => exact operation.2 ▸ parsed
        | permanent => exact operation.2 ▸ parsed
  | publication request publication reaches =>
      dsimp only
      rw [publicationResult_world]
      exact run_deliverAll_preserves random authority (fun current => current.store.Sound)
        (fun _ _ same => same)
        (fun current subscription same => same.claimSubscription subscription)
        publication _ (sound.marked _ _ _)

theorem perform_limits (call : CaCall) (world : World ρ) :
    (authority.perform random call world).2.store.limits = world.store.limits := by
  cases call with
  | keys agent => rfl
  | environment agent => rfl
  | subscriptionsFor typeId => rfl
  | delivery => rfl
  | checkAndMark sender session nowSeconds => exact world.store.checkAndMark_limits _ _ _
  | setEnvironment agent encoded => exact world.store.setEnvironment_limits _ _
  | putSubscription subscription => exact world.store.putSubscription_limits _
  | claimSubscription subscription => exact world.store.claimSubscription_limits _

theorem handle_limits (frame : Bytes) (nowSeconds : UInt64) (world : World ρ) :
    (authority.handle random frame nowSeconds world).2.store.limits = world.store.limits := by
  have each : ∀ call (current : World ρ), current.store.limits = world.store.limits →
      (authority.perform random call current).2.store.limits = world.store.limits :=
    fun call current same => (perform_limits call current).trans same
  exact run_preserves _ each (authority.process frame nowSeconds) rfl

end Preservation

/-! ## What an admitted request can fail with -/

/-- An error other than those of a bad stored record or a missing key, unless it is about the
publisher's own missing environment. -/
def BlamesRequestOnly (state : StoreState) (request : CertificateAuthority.Admitted)
    (error : Error) : Prop :=
  error ≠ .badSignature ∧ (error = .malformed → request.envelope.messageType = .publish ∧
    state.environments.get request.envelope.sender = none)

theorem dispatch_fails {ρ : Type} (random : CryptoRandom ρ) (authority : CertificateAuthority)
    {world : World ρ} {limits : StoreLimits} {request : CertificateAuthority.Admitted}
    (sound : world.store.state.WellFormed limits)
    (parsed : parseOperation request.plaintext = .ok request.operation) :
    FailsOnly (BlamesRequestOnly world.store.state request)
      (run (authority.perform random) (authority.dispatch request) world).1 := by
  have blameless : ∀ error : Error, error.BlamesNoRecord →
      BlamesRequestOnly world.store.state request error :=
    fun error clear => ⟨clear.2, fun same => absurd same clear.1⟩
  rw [CertificateAuthority.dispatch]
  split
  · rename_i proposed messageType operation
    rw [operation] at parsed
    exact fun error failed => blameless error (processSetEnvironment_fails sound parsed error failed)
  · rename_i typeId predicate messageType operation
    rw [operation] at parsed
    have kind : StateCursor.subscriptionKind request.plaintext typeId = some .oneShot := by
      rw [StateCursor.subscriptionKind, parsed]
      exact if_pos rfl
    exact fun error failed => blameless error (processSubscribe_fails sound kind error failed)
  · rename_i typeId predicate messageType operation
    rw [operation] at parsed
    have kind : StateCursor.subscriptionKind request.plaintext typeId = some .permanent := by
      rw [StateCursor.subscriptionKind, parsed]
      exact if_pos rfl
    exact fun error failed => blameless error (processSubscribe_fails sound kind error failed)
  · rename_i typeId predicate value messageType operation
    intro error failed
    obtain clear | ⟨malformed, missing⟩ := processPublish_fails sound error failed
    · exact blameless error clear
    · rw [malformed]
      exact ⟨by decide, fun _ => ⟨messageType, missing⟩⟩
  · exact failsOnly_error (blameless _ (by decide))

/-! ## Every reachable state -/

namespace CaSystem

variable {ρ : Type} {random : CryptoRandom ρ} {start system next : CaSystem ρ}

theorem Initial.sound (initial : start.Initial) : start.world.store.Sound := by
  obtain ⟨limits, empty | ⟨snapshot, empty⟩⟩ := initial
  · rw [empty]
    exact StoreState.wellFormed_empty limits
  · rw [empty]
    exact StoreState.wellFormed_empty limits

theorem Step.sound (step : Step random system next) (sound : system.world.store.Sound) :
    next.world.store.Sound ∧ next.world.store.limits = system.world.store.limits := by
  cases step with
  | provision agent keys =>
      exact ⟨sound.provision agent keys, system.world.store.provision_limits agent keys⟩
  | reconcile store held configured =>
      rw [held] at sound ⊢
      exact ⟨sound.reconcileAgents configured, store.reconcileAgents_limits configured⟩
  | replacePolicy policy => exact ⟨sound, rfl⟩
  | process frame nowSeconds =>
      exact ⟨sound.handle frame nowSeconds, handle_limits frame nowSeconds system.world⟩

theorem Reachable.sound (reached : Reachable random start system) (initial : start.Initial) :
    system.world.store.Sound ∧ system.world.store.limits = start.world.store.limits := by
  induction reached with
  | refl => exact ⟨initial.sound, rfl⟩
  | tail _ step ih =>
      obtain ⟨sound, limits⟩ := step.sound ih.1
      exact ⟨sound, limits.trans ih.2⟩

/-- Stored data never poisons the CA: its tables stay well formed within the limits, and an
admitted request fails neither for another Agent's record nor for a subscriber's missing keys. -/
theorem reachable_wellFormed (reached : Reachable random start system) (initial : start.Initial) :
    system.world.store.state.WellFormed start.world.store.limits ∧
      ∀ frame nowSeconds request publicKeys, Admits system.authority system.world.store frame
          nowSeconds request publicKeys →
        FailsOnly (BlamesRequestOnly system.world.store.state request)
          (system.authority.handle random frame nowSeconds system.world).1 := by
  obtain ⟨sound, limits⟩ := reached.sound initial
  refine ⟨limits ▸ sound, ?_⟩
  intro frame nowSeconds request publicKeys admits
  have marked : (system.world.marked request.envelope.sender request.envelope.sessionId
      nowSeconds).store.state.WellFormed _ := sound.marked _ _ _
  have fails := dispatch_fails random system.authority marked
    (parseOperation_of_admits admits)
  rw [handle_of_admits admits]
  rw [World.marked_state] at fails
  exact fails

/-- Requests served one after the other. -/
def serve (random : CryptoRandom ρ) (frames : List Bytes) (nowSeconds : UInt64)
    (system : CaSystem ρ) : CaSystem ρ :=
  frames.foldl (fun system frame => { system with
    world := (system.authority.handle random frame nowSeconds system.world).2 }) system

theorem serve_authority (frames : List Bytes) (nowSeconds : UInt64) (system : CaSystem ρ) :
    (system.serve random frames nowSeconds).authority = system.authority := by
  induction frames generalizing system with
  | nil => rfl
  | cons frame rest ih => exact ih _

theorem reachable_serve (frames : List Bytes) (nowSeconds : UInt64)
    (reached : Reachable random start system) :
    Reachable random start (system.serve random frames nowSeconds) := by
  induction frames generalizing system with
  | nil => exact reached
  | cons frame rest ih => exact ih (reached.tail (.process frame nowSeconds))

end CaSystem

/-! ## A CA with three agents -/

namespace Sample

def agent (number : UInt8) : AgentCore.Agent where
  id := ⟨.fill 16 number⟩
  keys := ⟨.fill 32 number, .fill 32 number⟩
  ca := ⟨.fill 32 7, .fill 32 8⟩

def authority : CertificateAuthority where
  suite := .transparent
  keys := ⟨.fill 32 7, .fill 32 8⟩
  policy := allowAllEnvironmentPolicy

def limits : StoreLimits := ⟨8, 8, 8, 16, 100⟩

def typeId : TypeId := ⟨5⟩

def handler : HandlerId := ⟨.fill 16 9⟩

/-- What the agent of a number sends for a request, with a session drawn from `seed`. -/
def frame (number : UInt8) (request : AgentCore.Request) (seed : Nat) : Bytes :=
  ((AgentCore.build .transparent .counting (agent number) maxFrameLen request
    seed).1.toOption).getD []

def start : CaSystem Nat := ⟨authority, ⟨.memory (.new limits), 0⟩⟩

def provision (number : UInt8) (x25519 : Key32) (system : CaSystem Nat) : CaSystem Nat :=
  system.withStore (system.world.store.provision (agent number).id ⟨.fill 32 number, x25519⟩).2

/-- Agent 3 has the given key agreement key. -/
def provisioned (x25519 : Key32) : CaSystem Nat :=
  provision 3 x25519 (provision 2 (.fill 32 2) (provision 1 (.fill 32 1) start))

/-- All agents have an environment and agent 2 subscribes once. -/
def awaiting (x25519 : Key32) : CaSystem Nat :=
  (provisioned x25519).serve .counting [frame 1 (.setEnvironment []) 10,
    frame 2 (.setEnvironment []) 20, frame 3 (.setEnvironment []) 30,
    frame 2 (.subscribe typeId handler []) 40] 10

/-- Agent 3 subscribes permanently too. -/
def subscribed (x25519 : Key32) : CaSystem Nat :=
  (awaiting x25519).serve .counting [frame 3 (.subscribePermanent typeId handler []) 50] 10

def publication : Bytes := frame 1 (.publish typeId [] [42]) 60

theorem awaiting_authority (x25519 : Key32) : (awaiting x25519).authority = authority := by
  rw [awaiting, CaSystem.serve_authority]
  rfl

theorem subscribed_authority (x25519 : Key32) : (subscribed x25519).authority = authority := by
  rw [subscribed, CaSystem.serve_authority, awaiting_authority]

theorem subscribed_world (x25519 : Key32) : (subscribed x25519).world =
    (authority.handle .counting (frame 3 (.subscribePermanent typeId handler []) 50) 10
      (awaiting x25519).world).2 := by
  rw [subscribed, CaSystem.serve, List.foldl_cons, List.foldl_nil, awaiting_authority]

theorem start_initial : start.Initial := ⟨limits, .inl rfl⟩

theorem reachable_awaiting (x25519 : Key32) :
    CaSystem.Reachable .counting start (awaiting x25519) := by
  have first : CaSystem.Reachable .counting start (provision 1 (.fill 32 1) start) :=
    .tail .refl (.provision _ _)
  have second : CaSystem.Reachable .counting start
      (provision 2 (.fill 32 2) (provision 1 (.fill 32 1) start)) := first.tail (.provision _ _)
  exact CaSystem.reachable_serve _ 10 (second.tail (.provision _ _))

theorem reachable_subscribed (x25519 : Key32) :
    CaSystem.Reachable .counting start (subscribed x25519) :=
  CaSystem.reachable_serve _ 10 (reachable_awaiting x25519)

theorem publication_admitted (x25519 : Key32)
    (opens : (run (authority.perform .counting) (authority.admission publication 10)
      (subscribed x25519).world).1.isOk = true) :
    ∃ request publicKeys,
      Admits authority (subscribed x25519).world.store publication 10 request publicKeys := by
  obtain ⟨request, publicKeys, admits, _⟩ | ⟨error, after, ran, _⟩ :=
    run_admission .counting authority (subscribed x25519).world publication 10
  · exact ⟨request, publicKeys, admits⟩
  · rw [ran] at opens
    cases opens

end Sample

theorem sample_wellFormed :
    (Sample.subscribed zeroSecret).world.store.state.WellFormed Sample.limits ∧
      ∃ request publicKeys,
        Admits Sample.authority (Sample.subscribed zeroSecret).world.store Sample.publication 10
          request publicKeys ∧
        FailsOnly (BlamesRequestOnly (Sample.subscribed zeroSecret).world.store.state request)
          (Sample.authority.handle .counting Sample.publication 10
            (Sample.subscribed zeroSecret).world).1 := by
  obtain ⟨sound, fails⟩ := CaSystem.reachable_wellFormed (Sample.reachable_subscribed zeroSecret)
    Sample.start_initial
  obtain ⟨request, publicKeys, admits⟩ := Sample.publication_admitted zeroSecret (by decide +kernel)
  exact ⟨sound, request, publicKeys, admits, fails _ _ _ _ admits⟩

end SecurePubSub.Authority

import SecurePubSub.Authority.Snapshot

namespace SecurePubSub.Authority

open SecurePubSub.Data SecurePubSub.Data.Fallible SecurePubSub.Protocol

/-! The two CA stores and what one call to either can do. -/

/-! ## Edits of the tables -/

namespace StoreState

def keysOf (state : StoreState) (agent : AgentId) : Except Error PublicKeys :=
  match state.keys.get agent with
  | some keys => .ok keys
  | none => .error .badSignature

def provision (state : StoreState) (limits : StoreLimits) (agent : AgentId) (keys : PublicKeys) :
    Except Error StoreState := do
  rejectIf (agent = .ca) .malformed
  rejectIf (state.keys.contains agent = false ∧ limits.agents ≤ state.keys.size) .capacity
  pure { state with keys := state.keys.insert agent keys }

def setEnvironment (state : StoreState) (limits : StoreLimits) (agent : AgentId)
    (encoded : Bytes) : Except Error StoreState := do
  rejectIf (state.environments.contains agent = false ∧
    limits.environments ≤ state.environments.size) .capacity
  pure { state with environments := state.environments.insert agent encoded }

def putSubscription (state : StoreState) (limits : StoreLimits)
    (subscription : StoredSubscription) : Except Error Unit × StoreState :=
  let stored := state.subscriptions.put limits.subscriptions subscription
  (stored.1, { state with subscriptions := stored.2 })

def claimSubscription (state : StoreState) (subscription : StoredSubscription) :
    Bool × StoreState :=
  let claimed := state.subscriptions.claim subscription
  (claimed.1, { state with subscriptions := claimed.2 })

def checkAndMark (state : StoreState) (sender : AgentId) (session : SessionId)
    (nowSeconds : UInt64) : Except Error Unit × StoreState :=
  let marked := state.replay.checkAndMark sender session nowSeconds
  (marked.1, { state with replay := marked.2 })

/-- The candidate directory, unless an identity is reserved or repeated. -/
def configuredKeys : List (AgentId × PublicKeys) → SortedMap AgentId PublicKeys →
    Except Error (SortedMap AgentId PublicKeys)
  | [], known => .ok known
  | (agent, keys) :: rest, known =>
      if agent = .ca ∨ known.contains agent then .error .malformed
      else configuredKeys rest (known.insert agent keys)

/-- An identity present in both directories with the same keys. -/
def unchanged (previous next : SortedMap AgentId PublicKeys) (agent : AgentId) : Bool :=
  match previous.get agent, next.get agent with
  | some old, some new => old = new
  | _, _ => false

/-- Replaces the directory; whatever belongs to a removed or rotated identity goes with it. -/
def reconcile (state : StoreState) (keys : SortedMap AgentId PublicKeys) : StoreState :=
  let kept := unchanged state.keys keys
  { keys
    environments := state.environments.retain (fun agent _ => kept agent)
    subscriptions := state.subscriptions.retain (fun subscription => kept subscription.subscriber)
    replay := { state.replay with
      entries := state.replay.entries.retain (fun key _ => kept (ofLex key).1) } }

end StoreState

/-! ## The stores -/

/-- Bounded in-memory store. -/
structure MemoryStore where
  state : StoreState
  limits : StoreLimits

/-- Transactional file-backed store. -/
structure PersistentStore where
  state : StoreState
  snapshot : SnapshotFile
  limits : StoreLimits

namespace MemoryStore

def new (limits : StoreLimits) : MemoryStore := ⟨.empty limits, limits⟩

def replace (store : MemoryStore) (edited : Except Error StoreState) :
    Except Error Unit × MemoryStore :=
  match edited with
  | .ok next => (.ok (), { store with state := next })
  | .error error => (.error error, store)

def provision (store : MemoryStore) (agent : AgentId) (keys : PublicKeys) :
    Except Error Unit × MemoryStore :=
  store.replace (store.state.provision store.limits agent keys)

def setEnvironment (store : MemoryStore) (agent : AgentId) (encoded : Bytes) :
    Except Error Unit × MemoryStore :=
  store.replace (store.state.setEnvironment store.limits agent encoded)

def putSubscription (store : MemoryStore) (subscription : StoredSubscription) :
    Except Error Unit × MemoryStore :=
  let stored := store.state.putSubscription store.limits subscription
  (stored.1, { store with state := stored.2 })

def claimSubscription (store : MemoryStore) (subscription : StoredSubscription) :
    Except Error Bool × MemoryStore :=
  let claimed := store.state.claimSubscription subscription
  (.ok claimed.1, { store with state := claimed.2 })

def checkAndMark (store : MemoryStore) (sender : AgentId) (session : SessionId)
    (nowSeconds : UInt64) : Except Error Unit × MemoryStore :=
  let marked := store.state.checkAndMark sender session nowSeconds
  (marked.1, { store with state := marked.2 })

end MemoryStore

namespace PersistentStore

/-- Opens or creates a bounded store on a snapshot path. -/
def «open» (snapshot : SnapshotFile) (limits : StoreLimits) (readFails : Bool) :
    Except Error PersistentStore := do
  match ← snapshot.load readFails with
  | some bytes =>
      let state ← decodeState bytes limits
      pure { state, snapshot, limits }
  | none => pure { state := .empty limits, snapshot, limits }

/-- The new state becomes visible only once its snapshot is in place. -/
def commit (store : PersistentStore) (next : StoreState) : Except Error Unit × PersistentStore :=
  match encodeState next with
  | .error error => (.error error, store)
  | .ok encoded =>
      match store.snapshot.commit encoded with
      | (.error error, snapshot) => (.error error, { store with snapshot })
      | (.ok _, snapshot) => (.ok (), { store with state := next, snapshot })

/-- Commits the outcome of an edit unless the edit was rejected. -/
def transact (store : PersistentStore) (edited : Except Error StoreState) :
    Except Error Unit × PersistentStore :=
  match edited with
  | .ok next => store.commit next
  | .error error => (.error error, store)

def provision (store : PersistentStore) (agent : AgentId) (keys : PublicKeys) :
    Except Error Unit × PersistentStore :=
  store.transact (store.state.provision store.limits agent keys)

def setEnvironment (store : PersistentStore) (agent : AgentId) (encoded : Bytes) :
    Except Error Unit × PersistentStore :=
  if StateCursor.isEnvironment encoded then
    store.transact (store.state.setEnvironment store.limits agent encoded)
  else (.error .malformed, store)

def putSubscription (store : PersistentStore) (subscription : StoredSubscription) :
    Except Error Unit × PersistentStore :=
  if StateCursor.subscriptionKind subscription.encoded subscription.typeId =
      some subscription.kind then
    let stored := store.state.putSubscription store.limits subscription
    store.transact (stored.1.map (fun _ => stored.2))
  else (.error .malformed, store)

def claimSubscription (store : PersistentStore) (subscription : StoredSubscription) :
    Except Error Bool × PersistentStore :=
  let claimed := store.state.claimSubscription subscription
  match subscription.kind, claimed.1 with
  | .permanent, held => (.ok held, store)
  | .oneShot, false => (.ok false, store)
  | .oneShot, true =>
      let committed := store.commit claimed.2
      (committed.1.map (fun _ => true), committed.2)

def checkAndMark (store : PersistentStore) (sender : AgentId) (session : SessionId)
    (nowSeconds : UInt64) : Except Error Unit × PersistentStore :=
  let marked := store.state.checkAndMark sender session nowSeconds
  store.transact (marked.1.map (fun _ => marked.2))

/-- Makes the key directory exactly match the configuration. -/
def reconcileAgents (store : PersistentStore) (configured : List (AgentId × PublicKeys)) :
    Except Error Unit × PersistentStore :=
  if configured.length > store.limits.agents then (.error .capacity, store)
  else store.transact ((StoreState.configuredKeys configured .empty).map store.state.reconcile)

end PersistentStore

/-- Either of the two stores. -/
inductive Store where
  | memory (store : MemoryStore)
  | persistent (store : PersistentStore)

namespace Store

def state : Store → StoreState
  | memory store => store.state
  | persistent store => store.state

def limits : Store → StoreLimits
  | memory store => store.limits
  | persistent store => store.limits

def provision (store : Store) (agent : AgentId) (keys : PublicKeys) : Except Error Unit × Store :=
  match store with
  | memory store => (store.provision agent keys).map id memory
  | persistent store => (store.provision agent keys).map id persistent

def setEnvironment (store : Store) (agent : AgentId) (encoded : Bytes) :
    Except Error Unit × Store :=
  match store with
  | memory store => (store.setEnvironment agent encoded).map id memory
  | persistent store => (store.setEnvironment agent encoded).map id persistent

def putSubscription (store : Store) (subscription : StoredSubscription) :
    Except Error Unit × Store :=
  match store with
  | memory store => (store.putSubscription subscription).map id memory
  | persistent store => (store.putSubscription subscription).map id persistent

def claimSubscription (store : Store) (subscription : StoredSubscription) :
    Except Error Bool × Store :=
  match store with
  | memory store => (store.claimSubscription subscription).map id memory
  | persistent store => (store.claimSubscription subscription).map id persistent

def checkAndMark (store : Store) (sender : AgentId) (session : SessionId) (nowSeconds : UInt64) :
    Except Error Unit × Store :=
  match store with
  | memory store => (store.checkAndMark sender session nowSeconds).map id memory
  | persistent store => (store.checkAndMark sender session nowSeconds).map id persistent

/-! ## What one call can do -/

end Store

theorem PersistentStore.commit_cases (store : PersistentStore) (next : StoreState) :
    ((store.commit next).1 = .ok () ∧ (store.commit next).2.state = next) ∨
      (∃ error, (store.commit next).1 = .error error ∧
        (store.commit next).2.state = store.state) := by
  unfold PersistentStore.commit
  split
  · exact .inr ⟨_, rfl, rfl⟩
  · split
    · exact .inr ⟨_, rfl, rfl⟩
    · exact .inl ⟨rfl, rfl⟩

theorem PersistentStore.commit_eq_ok {store : PersistentStore} {next : StoreState} :
    (store.commit next).1 = .ok () ↔ ∃ bytes, encodeState next = .ok bytes ∧
      (store.snapshot.commit bytes).1 = .ok () := by
  unfold PersistentStore.commit
  cases encoded : encodeState next with
  | error error => simp
  | ok bytes =>
      simp only [Except.ok.injEq, exists_eq_left']
      split
      · rename_i failed
        simp only [failed]
      · rename_i committed
        simp only [committed]

theorem PersistentStore.commit_of_ok {store : PersistentStore} {next : StoreState}
    (committed : (store.commit next).1 = .ok ()) :
    ∃ bytes, encodeState next = .ok bytes ∧ bytes.length ≤ maxSnapshotLen ∧
      (store.commit next).2 =
        { store with state := next, snapshot := ⟨some bytes, none, store.snapshot.faults.tail⟩ } := by
  obtain ⟨bytes, encoded, written⟩ := commit_eq_ok.mp committed
  have file := SnapshotFile.commit_of_ok written
  refine ⟨bytes, encoded, (SnapshotFile.commit_eq_ok.mp written).1, ?_⟩
  unfold PersistentStore.commit
  rw [encoded]
  dsimp only
  rw [← Prod.eta (store.snapshot.commit bytes), written, file]

@[simp] theorem PersistentStore.commit_limits (store : PersistentStore) (next : StoreState) :
    (store.commit next).2.limits = store.limits := by
  unfold PersistentStore.commit
  split
  · rfl
  · split <;> rfl

theorem PersistentStore.transact_cases (store : PersistentStore)
    (edited : Except Error StoreState) :
    (∃ next, edited = .ok next ∧ (store.transact edited).1 = .ok () ∧
        (store.transact edited).2.state = next) ∨
      (∃ error, (store.transact edited).1 = .error error ∧
        (store.transact edited).2.state = store.state) := by
  cases edited with
  | error error => exact .inr ⟨error, rfl, rfl⟩
  | ok next =>
      obtain ⟨accepted, published⟩ | rejected := store.commit_cases next
      · exact .inl ⟨next, rfl, accepted, published⟩
      · exact .inr rejected

@[simp] theorem PersistentStore.transact_limits (store : PersistentStore)
    (edited : Except Error StoreState) : (store.transact edited).2.limits = store.limits := by
  cases edited with
  | error error => rfl
  | ok next => exact store.commit_limits next

@[simp] theorem PersistentStore.reconcileAgents_limits (store : PersistentStore)
    (configured : List (AgentId × PublicKeys)) :
    (store.reconcileAgents configured).2.limits = store.limits := by
  rw [reconcileAgents]
  split
  · rfl
  · exact store.transact_limits _

theorem MemoryStore.replace_cases (store : MemoryStore) (edited : Except Error StoreState) :
    (∃ next, edited = .ok next ∧ (store.replace edited).1 = .ok () ∧
        (store.replace edited).2.state = next) ∨
      (∃ error, (store.replace edited).1 = .error error ∧
        (store.replace edited).2.state = store.state) := by
  cases edited with
  | error error => exact .inr ⟨error, rfl, rfl⟩
  | ok next => exact .inl ⟨next, rfl, rfl, rfl⟩

@[simp] theorem MemoryStore.replace_limits (store : MemoryStore)
    (edited : Except Error StoreState) : (store.replace edited).2.limits = store.limits := by
  cases edited <;> rfl

theorem StoreState.provision_eq_ok {state next : StoreState} {limits : StoreLimits}
    {agent : AgentId} {keys : PublicKeys}
    (edited : state.provision limits agent keys = .ok next) :
    agent ≠ .ca ∧ (state.keys.contains agent = true ∨ state.keys.size < limits.agents) ∧
      next = { state with keys := state.keys.insert agent keys } := by
  obtain ⟨ordinary, edited⟩ := rejectIf_bind_eq_ok edited
  obtain ⟨room, result⟩ := rejectIf_bind_eq_ok edited
  cases result
  refine ⟨ordinary, ?_, rfl⟩
  cases present : state.keys.contains agent with
  | true => exact .inl rfl
  | false => exact .inr (Nat.not_le.mp (fun full => room ⟨present, full⟩))

theorem StoreState.setEnvironment_eq_ok {state next : StoreState} {limits : StoreLimits}
    {agent : AgentId} {encoded : Bytes}
    (edited : state.setEnvironment limits agent encoded = .ok next) :
    (state.environments.contains agent = true ∨
        state.environments.size < limits.environments) ∧
      next = { state with environments := state.environments.insert agent encoded } := by
  obtain ⟨room, result⟩ := rejectIf_bind_eq_ok edited
  cases result
  refine ⟨?_, rfl⟩
  cases present : state.environments.contains agent with
  | true => exact .inl rfl
  | false => exact .inr (Nat.not_le.mp (fun full => room ⟨present, full⟩))

namespace Store

section Calls

variable (store : Store)

theorem provision_cases (agent : AgentId) (keys : PublicKeys) :
    (∃ next, store.state.provision store.limits agent keys = .ok next ∧
        (store.provision agent keys).1 = .ok () ∧ (store.provision agent keys).2.state = next) ∨
      (∃ error, (store.provision agent keys).1 = .error error ∧
        (store.provision agent keys).2.state = store.state) := by
  cases store with
  | memory store => exact store.replace_cases _
  | persistent store => exact store.transact_cases _

theorem setEnvironment_cases (agent : AgentId) (encoded : Bytes) :
    (∃ next, store.state.setEnvironment store.limits agent encoded = .ok next ∧
        (store.setEnvironment agent encoded).1 = .ok () ∧
        (store.setEnvironment agent encoded).2.state = next) ∨
      (∃ error, (store.setEnvironment agent encoded).1 = .error error ∧
        (store.setEnvironment agent encoded).2.state = store.state) := by
  cases store with
  | memory store => exact store.replace_cases _
  | persistent store =>
      simp only [setEnvironment, PersistentStore.setEnvironment]
      split
      · exact store.transact_cases _
      · exact .inr ⟨_, rfl, rfl⟩

theorem putSubscription_cases (subscription : StoredSubscription) :
    ((store.state.putSubscription store.limits subscription).1 = .ok () ∧
        (store.putSubscription subscription).1 = .ok () ∧
        (store.putSubscription subscription).2.state =
          (store.state.putSubscription store.limits subscription).2) ∨
      (∃ error, (store.putSubscription subscription).1 = .error error ∧
        ((store.putSubscription subscription).2.state = store.state ∨
          (store.state.putSubscription store.limits subscription).1 = .error error ∧
          (store.putSubscription subscription).2.state =
            (store.state.putSubscription store.limits subscription).2)) := by
  cases store with
  | memory store =>
      cases stored : (store.state.putSubscription store.limits subscription).1 with
      | ok accepted => exact .inl ⟨stored, stored, rfl⟩
      | error error => exact .inr ⟨error, stored, .inr ⟨stored, rfl⟩⟩
  | persistent store =>
      simp only [putSubscription, PersistentStore.putSubscription]
      split
      · cases stored : (store.state.putSubscription store.limits subscription).1 with
        | error error => exact .inr ⟨error, rfl, .inl rfl⟩
        | ok accepted =>
            obtain ⟨next, edited, committed, published⟩ | ⟨error, failed, kept⟩ :=
              store.transact_cases
                (.ok (store.state.putSubscription store.limits subscription).2)
            · cases edited
              exact .inl ⟨stored, committed, published⟩
            · exact .inr ⟨error, failed, .inl kept⟩
      · exact .inr ⟨_, rfl, .inl rfl⟩

theorem claimSubscription_cases (subscription : StoredSubscription) :
    ((store.claimSubscription subscription).1 =
          .ok (store.state.claimSubscription subscription).1 ∧
        (store.claimSubscription subscription).2.state =
          (store.state.claimSubscription subscription).2) ∨
      (∃ error, (store.claimSubscription subscription).1 = .error error ∧
        (store.claimSubscription subscription).2.state = store.state) := by
  cases store with
  | memory store => exact .inl ⟨rfl, rfl⟩
  | persistent store =>
      simp only [claimSubscription, PersistentStore.claimSubscription]
      split
      · rename_i permanent
        refine .inl ⟨rfl, ?_⟩
        change store.state = _
        simp only [state, StoreState.claimSubscription,
          SubscriptionTable.claim_unchanged (.inr permanent)]
      · rename_i oneShot absent
        refine .inl ⟨by rw [state, absent]; rfl, ?_⟩
        change store.state = _
        simp only [state, StoreState.claimSubscription,
          SubscriptionTable.claim_unchanged (.inl absent)]
      · rename_i oneShot present
        obtain ⟨committed, published⟩ | ⟨error, failed, kept⟩ :=
          store.commit_cases (store.state.claimSubscription subscription).2
        · refine .inl ⟨?_, published⟩
          simp only [Prod.map, id, committed, state, present]
          rfl
        · refine .inr ⟨error, ?_, kept⟩
          simp only [Prod.map, id, failed]
          rfl

theorem checkAndMark_cases (sender : AgentId) (session : SessionId) (nowSeconds : UInt64) :
    ((store.state.replay.purge nowSeconds).entries.contains (replayKey sender session) = false ∧
        (store.state.replay.purge nowSeconds).entries.size < store.state.replay.maximum ∧
        (store.checkAndMark sender session nowSeconds).1 = .ok () ∧
        (store.checkAndMark sender session nowSeconds).2.state =
          { store.state with
            replay := (store.state.replay.purge nowSeconds).mark sender session nowSeconds }) ∨
      (∃ error, (store.checkAndMark sender session nowSeconds).1 = .error error ∧
        ((store.checkAndMark sender session nowSeconds).2.state = store.state ∨
          (store.checkAndMark sender session nowSeconds).2.state =
            { store.state with replay := store.state.replay.purge nowSeconds })) := by
  have cases := store.state.replay.checkAndMark_cases sender session nowSeconds
  cases store with
  | memory store =>
      simp only [checkAndMark, MemoryStore.checkAndMark, StoreState.checkAndMark, state] at cases ⊢
      obtain ⟨error, rejected⟩ | ⟨absent, room, accepted⟩ := cases
      · exact .inr ⟨error, by simp [rejected], .inr (by simp [rejected])⟩
      · exact .inl ⟨absent, room, by simp [accepted], by simp [accepted]⟩
  | persistent store =>
      simp only [checkAndMark, PersistentStore.checkAndMark, StoreState.checkAndMark, state] at cases ⊢
      obtain ⟨error, rejected⟩ | ⟨absent, room, accepted⟩ := cases
      · exact .inr ⟨error, by simp [rejected, Except.map, PersistentStore.transact], .inl (by
          simp [rejected, Except.map, PersistentStore.transact])⟩
      · simp only [accepted, Except.map]
        obtain ⟨next, edited, committed, published⟩ | ⟨error, failed, kept⟩ :=
          store.transact_cases (.ok { store.state with
            replay := (store.state.replay.purge nowSeconds).mark sender session nowSeconds })
        · cases edited
          exact .inl ⟨absent, room, committed, published⟩
        · exact .inr ⟨error, failed, .inl kept⟩

@[simp] theorem provision_limits (agent : AgentId) (keys : PublicKeys) :
    (store.provision agent keys).2.limits = store.limits := by
  cases store with
  | memory store => exact store.replace_limits _
  | persistent store => exact store.transact_limits _

@[simp] theorem setEnvironment_limits (agent : AgentId) (encoded : Bytes) :
    (store.setEnvironment agent encoded).2.limits = store.limits := by
  cases store with
  | memory store => exact store.replace_limits _
  | persistent store =>
      simp only [setEnvironment, PersistentStore.setEnvironment]
      split
      · exact store.transact_limits _
      · rfl

@[simp] theorem putSubscription_limits (subscription : StoredSubscription) :
    (store.putSubscription subscription).2.limits = store.limits := by
  cases store with
  | memory store => rfl
  | persistent store =>
      simp only [putSubscription, PersistentStore.putSubscription]
      split
      · exact store.transact_limits _
      · rfl

@[simp] theorem claimSubscription_limits (subscription : StoredSubscription) :
    (store.claimSubscription subscription).2.limits = store.limits := by
  cases store with
  | memory store => rfl
  | persistent store =>
      simp only [claimSubscription, PersistentStore.claimSubscription]
      split
      · rfl
      · rfl
      · exact store.commit_limits _

@[simp] theorem checkAndMark_limits (sender : AgentId) (session : SessionId)
    (nowSeconds : UInt64) :
    (store.checkAndMark sender session nowSeconds).2.limits = store.limits := by
  cases store with
  | memory store => rfl
  | persistent store => exact store.transact_limits _

end Calls

end Store

/-! ## What a call can fail with -/

theorem PersistentStore.commit_fails (store : PersistentStore) (next : StoreState) :
    FailsOnly (fun error => error = .oversized ∨ error = .capacity) (store.commit next).1 := by
  unfold PersistentStore.commit
  cases encoded : encodeState next with
  | error error => exact failsOnly_error (.inl (encodeState_fails next error encoded))
  | ok bytes =>
      have committed := store.snapshot.commit_fails bytes
      dsimp only
      rcases outcome : store.snapshot.commit bytes with ⟨result, snapshot⟩
      rw [outcome] at committed
      cases result with
      | error error => exact failsOnly_error (committed error rfl)
      | ok value => exact failsOnly_ok ()

theorem PersistentStore.transact_fails {allowed : Error → Prop} (store : PersistentStore)
    {edited : Except Error StoreState} (early : FailsOnly allowed edited)
    (storage : allowed .oversized ∧ allowed .capacity) :
    FailsOnly allowed (store.transact edited).1 := by
  cases edited with
  | error error => exact failsOnly_error (early error rfl)
  | ok next =>
      intro error failed
      obtain full | refused := store.commit_fails next error failed
      · exact full ▸ storage.1
      · exact refused ▸ storage.2

theorem MemoryStore.replace_fails {allowed : Error → Prop} (store : MemoryStore)
    {edited : Except Error StoreState} (early : FailsOnly allowed edited) :
    FailsOnly allowed (store.replace edited).1 := by
  cases edited with
  | error error => exact failsOnly_error (early error rfl)
  | ok next => exact failsOnly_ok ()

theorem StoreState.setEnvironment_fails (state : StoreState) (limits : StoreLimits)
    (agent : AgentId) (encoded : Bytes) :
    FailsOnly (· = .capacity) (state.setEnvironment limits agent encoded) :=
  failsOnly_bind (failsOnly_rejectIf rfl) fun _ => failsOnly_ok _

theorem StoreState.putSubscription_fails (state : StoreState) (limits : StoreLimits)
    (subscription : StoredSubscription) :
    FailsOnly (· = .capacity) (state.putSubscription limits subscription).1 := by
  rw [StoreState.putSubscription]
  intro error failed
  dsimp only at failed
  cases stored : upsert state.subscriptions.count limits.subscriptions
      (state.subscriptions.forType subscription.typeId) subscription with
  | ok bucket => rw [SubscriptionTable.put_ok stored] at failed; cases failed
  | error refused =>
      rw [SubscriptionTable.put_error stored] at failed
      cases failed
      simp only [upsert] at stored
      split at stored
      · cases stored
      · split at stored
        · cases stored
          rfl
        · cases stored

namespace Store

theorem setEnvironment_fails (store : Store) (agent : AgentId) {encoded : Bytes}
    (valid : StateCursor.isEnvironment encoded = true) :
    FailsOnly Error.BlamesNoRecord (store.setEnvironment agent encoded).1 := by
  have edit : FailsOnly Error.BlamesNoRecord
      (store.state.setEnvironment store.limits agent encoded) := fun error failed =>
    store.state.setEnvironment_fails _ _ _ error failed ▸ ⟨nofun, nofun⟩
  cases store with
  | memory store => exact store.replace_fails edit
  | persistent store =>
      rw [setEnvironment, PersistentStore.setEnvironment, if_pos valid]
      exact store.transact_fails edit ⟨⟨nofun, nofun⟩, ⟨nofun, nofun⟩⟩

theorem putSubscription_fails (store : Store) {subscription : StoredSubscription}
    (valid : StateCursor.subscriptionKind subscription.encoded subscription.typeId =
      some subscription.kind) :
    FailsOnly Error.BlamesNoRecord (store.putSubscription subscription).1 := by
  have edit : FailsOnly Error.BlamesNoRecord
      (store.state.putSubscription store.limits subscription).1 := fun error failed =>
    store.state.putSubscription_fails _ _ error failed ▸ ⟨nofun, nofun⟩
  cases store with
  | memory store => exact edit
  | persistent store =>
      rw [putSubscription, PersistentStore.putSubscription, if_pos valid]
      exact store.transact_fails (failsOnly_map _ edit) ⟨⟨nofun, nofun⟩, ⟨nofun, nofun⟩⟩

theorem claimSubscription_fails (store : Store) (subscription : StoredSubscription) :
    FailsOnly (fun error => error = .oversized ∨ error = .capacity)
      (store.claimSubscription subscription).1 := by
  cases store with
  | memory store => exact failsOnly_ok _
  | persistent store =>
      simp only [claimSubscription, PersistentStore.claimSubscription]
      split
      · exact failsOnly_ok _
      · exact failsOnly_ok _
      · exact failsOnly_map _ (store.commit_fails _)

end Store

end SecurePubSub.Authority

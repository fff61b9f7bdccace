import SecurePubSub.Authority.Reachability
import SecurePubSub.Authority.Reopening
import SecurePubSub.Data.Transactions

namespace SecurePubSub.Authority

open SecurePubSub.Data SecurePubSub.Data.Program SecurePubSub.Protocol

/-! The two locks of the file-backed store.

A mutation holds `transaction` while it clones the state, edits the clone, writes the
snapshot and publishes; `state` is only held for the clone, for the publication and for
one look of a reading call. Requests and reconciliations of any number of threads that
interleave at these points are compared with calls that each happen at once.
-/

/-- The effects of requests, and the calls that the daemon makes itself. -/
inductive DaemonCall where
  | effect (call : CaCall)
  | provision (agent : AgentId) (keys : PublicKeys)
  | reconcileAgents (configured : List (AgentId × PublicKeys))

abbrev DaemonCall.Value : DaemonCall → Type
  | effect request => request.Value
  | provision .. => Unit
  | reconcileAgents _ => Unit

abbrev daemonInterface : Interface := ⟨DaemonCall, DaemonCall.Value, Error⟩

/-- A program of a request among those of the daemon. -/
def onBehalf {α : Type} : CaProgram α → Program daemonInterface α
  | .done value => .done value
  | .fail fault => .fail fault
  | .call request resume => .call (.effect request) (fun reply => onBehalf (resume reply))

/-- What an edit of the clone goes on to commit, or returns instead. -/
def proposal (edited : Except Error StoreState) :
    Except Error Unit ⊕ StoreState × Except Error Unit :=
  match edited with
  | .ok next => .inr (next, .ok ())
  | .error error => .inl (.error error)

namespace PersistentStore

variable {ρ : Type}

/-- Writes the snapshot of a state that is not visible yet. -/
def persist (next : StoreState) (snapshot : SnapshotFile) : Except Error Unit × SnapshotFile :=
  match encodeState next with
  | .error error => (.error error, snapshot)
  | .ok encoded => snapshot.commit encoded

/-- Where each call takes the locks. What a mutation rejects before it asks for `transaction` is
answered without it. -/
def locking (limits : StoreLimits) (random : CryptoRandom ρ) (authority : CertificateAuthority) :
    (call : DaemonCall) → Plan daemonInterface call StoreState ρ
  | .effect (.keys agent) => .glance fun state rng => (state.keysOf agent, rng)
  | .effect (.environment agent) =>
      .glance fun state rng => (.ok (state.environments.get agent), rng)
  | .effect (.subscriptionsFor typeId) =>
      .glance fun state rng => (.ok (state.subscriptions.forType typeId), rng)
  | .effect (.checkAndMark sender session nowSeconds) =>
      .update fun state =>
        let marked := state.checkAndMark sender session nowSeconds
        proposal (marked.1.map (fun _ => marked.2))
  | .effect (.setEnvironment agent encoded) =>
      if StateCursor.isEnvironment encoded then
        .update fun state => proposal (state.setEnvironment limits agent encoded)
      else .glance fun _ rng => (.error .malformed, rng)
  | .effect (.putSubscription subscription) =>
      if StateCursor.subscriptionKind subscription.encoded subscription.typeId =
          some subscription.kind then
        .update fun state =>
          let stored := state.putSubscription limits subscription
          proposal (stored.1.map (fun _ => stored.2))
      else .glance fun _ rng => (.error .malformed, rng)
  | .effect (.claimSubscription subscription) =>
      match subscription.kind with
      | .permanent => .glance fun state rng => (.ok (state.claimSubscription subscription).1, rng)
      | .oneShot =>
          .update fun state =>
            let claimed := state.claimSubscription subscription
            if claimed.1 then .inr (claimed.2, .ok true) else .inl (.ok false)
  | .effect (.delivery publisher recipient handler typeId value recipientX25519) =>
      .glance fun _ rng =>
        authority.delivery random publisher recipient handler typeId value recipientX25519 rng
  | .provision agent keys =>
      if agent = .ca then .glance fun _ rng => (.error .malformed, rng)
      else .update fun state => proposal (state.provision limits agent keys)
  | .reconcileAgents configured =>
      if configured.length > limits.agents then .glance fun _ rng => (.error .capacity, rng)
      else
        match StoreState.configuredKeys configured .empty with
        | .error error => .glance fun _ rng => (.error error, rng)
        | .ok keys => .update fun state => .inr (state.reconcile keys, .ok ())

def transactional (limits : StoreLimits) (random : CryptoRandom ρ)
    (authority : CertificateAuthority) : Transactional daemonInterface StoreState SnapshotFile ρ :=
  ⟨locking limits random authority, persist⟩

/-- Every call of the daemon as one step of its store. -/
def serve (random : CryptoRandom ρ) (authority : CertificateAuthority) :
    Handler daemonInterface (PersistentStore × ρ) := fun call (store, rng) =>
  match call with
  | .effect (.keys agent) => (store.state.keysOf agent, store, rng)
  | .effect (.environment agent) => (.ok (store.state.environments.get agent), store, rng)
  | .effect (.subscriptionsFor typeId) =>
      (.ok (store.state.subscriptions.forType typeId), store, rng)
  | .effect (.checkAndMark sender session nowSeconds) =>
      let answer := store.checkAndMark sender session nowSeconds
      (answer.1, answer.2, rng)
  | .effect (.setEnvironment agent encoded) =>
      let answer := store.setEnvironment agent encoded
      (answer.1, answer.2, rng)
  | .effect (.putSubscription subscription) =>
      let answer := store.putSubscription subscription
      (answer.1, answer.2, rng)
  | .effect (.claimSubscription subscription) =>
      let answer := store.claimSubscription subscription
      (answer.1, answer.2, rng)
  | .effect (.delivery publisher recipient handler typeId value recipientX25519) =>
      let answer := authority.delivery random publisher recipient handler typeId value
        recipientX25519 rng
      (answer.1, store, answer.2)
  | .provision agent keys =>
      let answer := store.provision agent keys
      (answer.1, answer.2, rng)
  | .reconcileAgents configured =>
      let answer := store.reconcileAgents configured
      (answer.1, answer.2, rng)

/-- On the effects of requests this is `CertificateAuthority.perform`. -/
theorem serve_effect (random : CryptoRandom ρ) (authority : CertificateAuthority) (call : CaCall)
    (store : PersistentStore) (rng : ρ) :
    authority.perform random call ⟨.persistent store, rng⟩ =
      ((serve random authority (.effect call) (store, rng)).1,
        ⟨.persistent (serve random authority (.effect call) (store, rng)).2.1,
          (serve random authority (.effect call) (store, rng)).2.2⟩) := by
  cases call <;> rfl

/-- The store that a guarded state holds. -/
def unguarded (limits : StoreLimits) (state : Guarded StoreState SnapshotFile ρ) :
    PersistentStore × ρ :=
  (⟨state.visible, state.durable, limits⟩, state.loose)

/-! ## The calls under the locks are the calls of the store -/

variable (limits : StoreLimits) (random : CryptoRandom ρ) (authority : CertificateAuthority)

theorem commit_unguarded {α : Type} (state : Guarded StoreState SnapshotFile ρ)
    (next : StoreState) (value : α) :
    (((unguarded limits state).1.commit next).1.map (fun _ => value),
        ((unguarded limits state).1.commit next).2, state.loose) =
      ((Transactional.conclude persist state (.inr (next, .ok value))).1,
        unguarded limits (Transactional.conclude persist state (.inr (next, .ok value))).2) := by
  rw [commit, unguarded, Transactional.conclude, persist]
  cases encodeState next with
  | error error => rfl
  | ok encoded =>
      dsimp only
      rcases state.durable.commit encoded with ⟨result, durable⟩
      cases result with
      | error error => rfl
      | ok done => rfl

theorem map_unit (result : Except Error Unit) : result.map (fun _ => ()) = result := by
  cases result <;> rfl

theorem transact_unguarded (state : Guarded StoreState SnapshotFile ρ)
    (edited : Except Error StoreState) :
    (((unguarded limits state).1.transact edited).1, ((unguarded limits state).1.transact edited).2,
        state.loose) =
      ((Transactional.conclude persist state (proposal edited)).1,
        unguarded limits (Transactional.conclude persist state (proposal edited)).2) := by
  cases edited with
  | error error => rfl
  | ok next =>
      have committed := commit_unguarded limits state next ()
      rw [map_unit] at committed
      exact committed

/-- Each call under the locks, when nothing comes between, is that of the store. -/
theorem serve_unguarded (call : DaemonCall) (state : Guarded StoreState SnapshotFile ρ) :
    serve random authority call (unguarded limits state) =
      (((transactional limits random authority).atomic call state).1,
        unguarded limits ((transactional limits random authority).atomic call state).2) := by
  cases call with
  | provision agent keys =>
      by_cases reserved : agent = .ca
      · subst reserved
        rfl
      · simp only [Transactional.atomic, transactional, locking, if_neg reserved]
        exact transact_unguarded limits state _
  | reconcileAgents configured =>
      by_cases large : configured.length > limits.agents
      · have rejected : (unguarded limits state).1.reconcileAgents configured =
            (.error .capacity, (unguarded limits state).1) := if_pos large
        simp only [Transactional.atomic, transactional, locking, serve, rejected, if_pos large]
      · cases accepted : StoreState.configuredKeys configured .empty with
        | error error =>
            simp only [Transactional.atomic, transactional, locking, serve, reconcileAgents,
              unguarded, if_neg large, accepted]
            rfl
        | ok keys =>
            simp only [Transactional.atomic, transactional, locking, if_neg large, accepted, serve,
              reconcileAgents, unguarded]
            exact transact_unguarded limits state (.ok (state.visible.reconcile keys))
  | effect request =>
      cases request with
      | keys agent => rfl
      | environment agent => rfl
      | subscriptionsFor typeId => rfl
      | delivery => rfl
      | checkAndMark sender session nowSeconds => exact transact_unguarded limits state _
      | setEnvironment agent encoded =>
          by_cases valid : StateCursor.isEnvironment encoded = true
          · simp only [Transactional.atomic, transactional, locking, serve, setEnvironment,
              if_pos valid]
            exact transact_unguarded limits state _
          · simp only [Transactional.atomic, transactional, locking, serve, setEnvironment,
              if_neg valid]
      | putSubscription subscription =>
          by_cases valid : StateCursor.subscriptionKind subscription.encoded subscription.typeId =
              some subscription.kind
          · simp only [Transactional.atomic, transactional, locking, serve, putSubscription,
              if_pos valid]
            exact transact_unguarded limits state _
          · simp only [Transactional.atomic, transactional, locking, serve, putSubscription,
              if_neg valid]
      | claimSubscription subscription =>
          cases kind : subscription.kind with
          | permanent =>
              simp only [Transactional.atomic, transactional, locking, serve, claimSubscription,
                kind]
              rfl
          | oneShot =>
              simp only [Transactional.atomic, transactional, locking, serve, claimSubscription,
                kind, unguarded]
              cases held : (state.visible.claimSubscription subscription).1 with
              | false => rfl
              | true => exact commit_unguarded limits state _ true

/-- What shows of the store and of the threads is as in a pool, and so is the file while nobody
holds `transaction`. -/
structure Shows {α : Type} (limits : StoreLimits)
    (system : Transactional.System daemonInterface StoreState SnapshotFile ρ α)
    (pool : Pool daemonInterface (PersistentStore × ρ) α) : Prop where
  threads : pool.threads = system.workers.map Transactional.Worker.thread
  state : pool.shared.1.state = system.state.visible
  rng : pool.shared.2 = system.state.loose
  unlocked : system.taken = false → pool.shared = unguarded limits system.state

variable {limits random authority} {α : Type}

theorem shows_of_stands
    {system : Transactional.System daemonInterface StoreState SnapshotFile ρ α}
    {pool : Pool daemonInterface (Guarded StoreState SnapshotFile ρ) α}
    (stands : Transactional.Stands (transactional limits random authority) system pool) :
    Shows limits system ⟨unguarded limits pool.shared, pool.threads⟩ := by
  refine ⟨stands.threads, stands.visible, stands.loose, fun free => ?_⟩
  have durable : pool.shared.durable = system.state.durable := by
    refine stands.settled fun worker member => Bool.eq_false_iff.mpr fun writing => ?_
    have counted := stands.exclusive
    rw [free, Bool.toNat_false, List.countP_eq_zero] at counted
    exact counted worker member (Transactional.Worker.writing_locks writing)
  obtain ⟨⟨visible, base, loose⟩, threads⟩ := pool
  obtain ⟨⟨shown, written, drawn⟩, taken, workers⟩ := system
  cases stands.visible
  cases stands.loose
  cases durable
  rfl

/-- Under the two locks every run of requests and reconciliations is one of calls that happen at
once, each between the moments it starts and returns. -/
theorem locks_make_calls_atomic (store : PersistentStore) (rng : ρ)
    {admissible : Program daemonInterface α → Prop}
    {middle final : Transactional.System daemonInterface StoreState SnapshotFile ρ α}
    (first : Transactional.Reachable (transactional store.limits random authority) admissible
      (.idle ⟨store.state, store.snapshot, rng⟩) middle)
    (second : Transactional.Reachable (transactional store.limits random authority) admissible
      middle final) :
    ∃ before after, Pool.Reachable (serve random authority) admissible (.idle (store, rng)) before ∧
      Pool.Reachable (serve random authority) admissible before after ∧
      Shows store.limits middle before ∧ Shows store.limits final after := by
  obtain ⟨before, reached, stands⟩ := (Transactional.stands_idle
    (transactional store.limits random authority) ⟨store.state, store.snapshot, rng⟩).run first
  obtain ⟨after, more, later⟩ := stands.run second
  have commutes (call : DaemonCall) (state : Guarded StoreState SnapshotFile ρ) :=
    serve_unguarded store.limits random authority call state
  exact ⟨_, _, reached.map commutes, more.map commutes, shows_of_stands stands,
    shows_of_stands later⟩

end PersistentStore

/-! ## Two agents provisioned at once -/

namespace Sample

def provisioning (number : UInt8) : Program daemonInterface Unit :=
  @perform daemonInterface (.provision (agent number).id ⟨.fill 32 number, .fill 32 number⟩)

/-- The first has written the snapshot and not published yet; the second waits for the lock. -/
def midway : Transactional.System daemonInterface StoreState SnapshotFile Nat Unit :=
  .schedule (PersistentStore.transactional limits .counting authority)
    ⟨.empty limits, ⟨none, none, []⟩, 0⟩ [provisioning 1, provisioning 2] [0, 0, 1, 0]

def provisionedBoth : Transactional.System daemonInterface StoreState SnapshotFile Nat Unit :=
  [0, 0, 1, 1, 1, 1, 1].foldl
    (.advance (PersistentStore.transactional limits .counting authority)) midway

end Sample

theorem sample_locks_make_calls_atomic :
    Sample.midway.state.visible.keys.size = 0 ∧
      Sample.provisionedBoth.state.visible.keys.size = 2 ∧
      ∃ before after,
        Pool.Reachable (PersistentStore.serve .counting Sample.authority) (fun _ => True)
          (.idle (.fresh Sample.limits, 0)) before ∧
        Pool.Reachable (PersistentStore.serve .counting Sample.authority) (fun _ => True) before
          after ∧
        PersistentStore.Shows Sample.limits Sample.midway before ∧
        PersistentStore.Shows Sample.limits Sample.provisionedBoth after :=
  ⟨by decide +kernel, by decide +kernel,
    PersistentStore.locks_make_calls_atomic (.fresh Sample.limits) 0
      (Transactional.reachable_schedule _ (fun _ _ => trivial) _) (.schedule .refl _)⟩

end SecurePubSub.Authority

import SecurePubSub.Authority.Reachability
import SecurePubSub.Authority.SnapshotRead

namespace SecurePubSub.Authority

open SecurePubSub.Data SecurePubSub.Data.Fallible SecurePubSub.Data.Program SecurePubSub.Protocol

/-! How long a persistent store remembers an accepted session. -/

/-! ## The replay check of one request -/

/-- `process` up to its replay check: what was authenticated, if the session was accepted. -/
def replayCheck (authority : CertificateAuthority) (store : Store) (frame : Bytes)
    (nowSeconds : UInt64) : Except Error (EnvelopeRef × PublicKeys) := do
  let envelope ← CertificateAuthority.acceptEnvelope frame
  let publicKeys ← store.state.keysOf envelope.sender
  authority.verifySender envelope publicKeys
  (store.checkAndMark envelope.sender envelope.sessionId nowSeconds).1
  pure (envelope, publicKeys)

section Checks

variable {ρ : Type} {random : CryptoRandom ρ} {authority : CertificateAuthority} {world : World ρ}
  {frame : Bytes} {nowSeconds : UInt64} {envelope : EnvelopeRef} {publicKeys : PublicKeys}

theorem replayCheck_eq_ok {store : Store} :
    replayCheck authority store frame nowSeconds = .ok (envelope, publicKeys) ↔
      CertificateAuthority.acceptEnvelope frame = .ok envelope ∧
      store.state.keysOf envelope.sender = .ok publicKeys ∧
      authority.verifySender envelope publicKeys = .ok () ∧
      (store.checkAndMark envelope.sender envelope.sessionId nowSeconds).1 = .ok () := by
  constructor
  · intro checked
    obtain ⟨accepted, parsed, checked⟩ := bind_eq_ok.mp checked
    obtain ⟨keys, known, checked⟩ := bind_eq_ok.mp checked
    obtain ⟨⟨⟩, verified, checked⟩ := bind_eq_ok.mp checked
    obtain ⟨⟨⟩, marked, checked⟩ := bind_eq_ok.mp checked
    cases checked
    exact ⟨parsed, known, verified, marked⟩
  · intro ⟨parsed, known, verified, marked⟩
    rw [replayCheck, parsed, ok_bind, known, ok_bind, verified, ok_bind, marked, ok_bind]
    rfl

/-- A request whose session was accepted is opened in the world where that is marked. -/
theorem run_admission_of_checked
    (checked : replayCheck authority world.store frame nowSeconds = .ok (envelope, publicKeys)) :
    run (authority.perform random) (authority.admission frame nowSeconds) world =
      ((authority.openRequest frame envelope publicKeys).map
          (fun opened => ⟨envelope, opened.1, opened.2⟩),
        world.marked envelope.sender envelope.sessionId nowSeconds) := by
  obtain ⟨accepted, known, verified, marked⟩ := replayCheck_eq_ok.mp checked
  simp only [CertificateAuthority.admission, run_checked, run_keys, run_checkAndMark, continueStore,
    accepted, known, verified, marked]
  cases authority.openRequest frame envelope publicKeys <;> rfl

end Checks

/-! ## What requests do to the replay table and the directory -/

section Tables

variable {ρ : Type} {random : CryptoRandom ρ} {authority : CertificateAuthority} {world : World ρ}
  {frame : Bytes} {nowSeconds : UInt64}

theorem setEnvironment_replay (store : Store) (agent : AgentId) (encoded : Bytes) :
    (store.setEnvironment agent encoded).2.state.replay = store.state.replay := by
  obtain ⟨next, edited, _, result⟩ | ⟨_, _, kept⟩ := store.setEnvironment_cases agent encoded
  · rw [result, (StoreState.setEnvironment_eq_ok edited).2]
  · rw [kept]

theorem putSubscription_replay (store : Store) (subscription : StoredSubscription) :
    (store.putSubscription subscription).2.state.replay = store.state.replay := by
  obtain ⟨_, _, result⟩ | ⟨_, _, kept | ⟨_, result⟩⟩ := store.putSubscription_cases subscription
  · rw [result]
    rfl
  · rw [kept]
  · rw [result]
    rfl

theorem claimSubscription_replay (store : Store) (subscription : StoredSubscription) :
    (store.claimSubscription subscription).2.state.replay = store.state.replay := by
  obtain ⟨_, result⟩ | ⟨_, _, kept⟩ := store.claimSubscription_cases subscription
  · rw [result]
    rfl
  · rw [kept]

/-- Nothing behind the replay check changes the replay table. -/
theorem dispatch_replay (request : CertificateAuthority.Admitted) :
    (run (authority.perform random) (authority.dispatch request) world).2.store.state.replay =
      world.store.state.replay := by
  rw [CertificateAuthority.dispatch]
  split
  · obtain ⟨error, ran⟩ | ⟨_, ran⟩ := run_processSetEnvironment random authority world
      request.envelope request.plaintext _
    · rw [ran]
    · rw [ran, continueStore_store]
      exact setEnvironment_replay _ _ _
  · obtain ⟨error, ran⟩ | ⟨_, _, ran⟩ := run_processSubscribe random authority world
      request.envelope request.plaintext _ .oneShot
    · rw [ran]
    · rw [ran, continueStore_store]
      exact putSubscription_replay _ _
  · obtain ⟨error, ran⟩ | ⟨_, _, ran⟩ := run_processSubscribe random authority world
      request.envelope request.plaintext _ .permanent
    · rw [ran]
    · rw [ran, continueStore_store]
      exact putSubscription_replay _ _
  · rename_i typeId predicate value _ _
    obtain ⟨error, ran, _⟩ | ⟨publication, _, ran⟩ := run_processPublish random authority world
      request.envelope typeId predicate value
    · rw [ran]
    · rw [ran]
      have kept := run_deliverAll_preserves random authority
        (fun current => current.store.state.replay = world.store.state.replay)
        (fun _ _ same => same)
        (fun current entry same => (claimSubscription_replay current.store entry).trans same)
        publication (world.store.state.subscriptions.forType typeId) rfl
      rcases looped : run (authority.perform random) _ _ with ⟨result, after⟩
      rw [looped] at kept
      cases result <;> exact kept
  · rfl

theorem handle_replay :
    (authority.handle random frame nowSeconds world).2.store.state.replay =
        world.store.state.replay ∨
      ∃ envelope : EnvelopeRef,
        (authority.handle random frame nowSeconds world).2.store.state.replay =
        (world.marked envelope.sender envelope.sessionId nowSeconds).store.state.replay := by
  obtain ⟨request, publicKeys, admits, _⟩ | ⟨error, after, ran, changed⟩ :=
    run_admission random authority world frame nowSeconds
  · rw [handle_of_admits admits]
    exact .inr ⟨request.envelope, dispatch_replay request⟩
  · rw [CertificateAuthority.handle, CertificateAuthority.process, run_bind, ran]
    obtain unchanged | ⟨envelope, _, marked⟩ := changed
    · exact .inl (by rw [unchanged]; rfl)
    · exact .inr ⟨envelope, by rw [marked]; rfl⟩

theorem handle_replay_of_checked {envelope : EnvelopeRef} {publicKeys : PublicKeys}
    (checked : replayCheck authority world.store frame nowSeconds = .ok (envelope, publicKeys)) :
    (authority.handle random frame nowSeconds world).2.store.state.replay =
      (world.marked envelope.sender envelope.sessionId nowSeconds).store.state.replay := by
  rw [CertificateAuthority.handle, CertificateAuthority.process, run_bind,
    run_admission_of_checked checked]
  cases authority.openRequest frame envelope publicKeys with
  | error error => rfl
  | ok opened => exact dispatch_replay _

theorem perform_keys (call : CaCall) (world : World ρ) :
    (authority.perform random call world).2.store.state.keys = world.store.state.keys := by
  cases call with
  | keys agent => rfl
  | environment agent => rfl
  | subscriptionsFor typeId => rfl
  | delivery => rfl
  | checkAndMark sender session nowSeconds =>
      change (world.marked sender session nowSeconds).store.state.keys = _
      rw [World.marked_state]
  | setEnvironment agent encoded =>
      change (world.store.setEnvironment agent encoded).2.state.keys = _
      obtain ⟨next, edited, _, result⟩ | ⟨_, _, kept⟩ :=
        world.store.setEnvironment_cases agent encoded
      · rw [result, (StoreState.setEnvironment_eq_ok edited).2]
      · rw [kept]
  | putSubscription subscription =>
      change (world.store.putSubscription subscription).2.state.keys = _
      obtain ⟨_, _, result⟩ | ⟨_, _, kept | ⟨_, result⟩⟩ :=
        world.store.putSubscription_cases subscription
      · rw [result]
        rfl
      · rw [kept]
      · rw [result]
        rfl
  | claimSubscription subscription => exact (claimed_tables world subscription).2

theorem handle_keys :
    (authority.handle random frame nowSeconds world).2.store.state.keys =
      world.store.state.keys := by
  have each : ∀ call (current : World ρ), current.store.state.keys = world.store.state.keys →
      (authority.perform random call current).2.store.state.keys = world.store.state.keys :=
    fun call current same => (perform_keys call current).trans same
  exact run_preserves _ each (authority.process frame nowSeconds) rfl

end Tables

/-! ## What a store keeps on disk -/

/-- What reopening the store would give back of the directory and the replay table. -/
def StoreState.Recovered (state : StoreState) (limits : StoreLimits) (contents : Option Bytes) :
    Prop :=
  match contents with
  | none => state.keys = .empty ∧ state.replay.entries = .empty
  | some bytes => ∀ reopened, decodeState bytes limits = .ok reopened →
      reopened.keys = state.keys ∧ reopened.replay.entries = state.replay.entries

/-- The snapshot agrees with the tables and these use the time to live of the store. -/
structure PersistentStore.Coherent (store : PersistentStore) : Prop where
  ttl : store.state.replay.ttlSeconds = store.limits.replayTtlSeconds
  recovered : store.state.Recovered store.limits store.snapshot.contents

namespace PersistentStore.Coherent

theorem opened {snapshot : SnapshotFile} {limits : StoreLimits} {readFails : Bool}
    {store : PersistentStore} (accepted : «open» snapshot limits readFails = .ok store) :
    store.Coherent ∧ store.limits = limits := by
  obtain ⟨contents, loaded, accepted⟩ := bind_eq_ok.mp accepted
  have held := SnapshotFile.load_eq_ok loaded
  cases contents with
  | none =>
      cases accepted
      refine ⟨⟨rfl, ?_⟩, rfl⟩
      rw [held]
      exact ⟨rfl, rfl⟩
  | some bytes =>
      obtain ⟨state, decoded, result⟩ := bind_eq_ok.mp accepted
      cases result
      refine ⟨⟨?_, ?_⟩, rfl⟩
      · exact decodeState_ttl decoded
      · rw [held]
        intro reopened read
        cases decoded.symm.trans read
        exact ⟨rfl, rfl⟩

variable {store : PersistentStore}

theorem reopened (coherent : store.Coherent) {snapshot : SnapshotFile} {readFails : Bool}
    {later : PersistentStore} (same : snapshot.contents = store.snapshot.contents)
    (accepted : «open» snapshot store.limits readFails = .ok later) :
    later.state.keys = store.state.keys ∧
      later.state.replay.entries = store.state.replay.entries := by
  have recovered := coherent.recovered
  obtain ⟨contents, loaded, accepted⟩ := bind_eq_ok.mp accepted
  rw [← same, SnapshotFile.load_eq_ok loaded] at recovered
  cases contents with
  | none =>
      cases accepted
      exact ⟨recovered.1.symm, recovered.2.symm⟩
  | some bytes =>
      obtain ⟨state, decoded, result⟩ := bind_eq_ok.mp accepted
      cases result
      exact recovered state decoded

theorem commit (coherent : store.Coherent) {next : StoreState}
    (ttl : next.replay.ttlSeconds = store.limits.replayTtlSeconds) :
    (store.commit next).2.Coherent := by
  cases committed : (store.commit next).1 with
  | ok accepted =>
      obtain ⟨bytes, written, _, result⟩ := commit_of_ok committed
      rw [result]
      refine ⟨ttl, fun reopened read => ?_⟩
      obtain ⟨keys, _, replay, _⟩ := decodeState_encodeState written read
      exact ⟨keys, by rw [replay]⟩
  | error error =>
      unfold PersistentStore.commit at committed ⊢
      cases written : encodeState next with
      | error reason => exact coherent
      | ok bytes =>
          rw [written] at committed
          dsimp only at committed ⊢
          have kept (reason : Error) (failed : (store.snapshot.commit bytes).1 = .error reason) :
              (store.snapshot.commit bytes).2.contents = store.snapshot.contents :=
            SnapshotFile.commit_of_error failed
          rcases outcome : store.snapshot.commit bytes with ⟨result, snapshot⟩
          rw [outcome] at committed kept
          cases result with
          | ok accepted => cases committed
          | error reason =>
              refine ⟨coherent.ttl, ?_⟩
              have same : snapshot.contents = store.snapshot.contents := kept reason rfl
              dsimp only
              rw [same]
              exact coherent.recovered

theorem transact (coherent : store.Coherent) {edited : Except Error StoreState}
    (ttl : ∀ next, edited = .ok next →
      next.replay.ttlSeconds = store.limits.replayTtlSeconds) :
    (store.transact edited).2.Coherent := by
  cases edited with
  | error error => exact coherent
  | ok next => exact coherent.commit (ttl next rfl)

theorem setEnvironment (coherent : store.Coherent) (agent : AgentId) (encoded : Bytes) :
    (store.setEnvironment agent encoded).2.Coherent := by
  rw [PersistentStore.setEnvironment]
  split
  · refine coherent.transact fun next edited => ?_
    rw [(StoreState.setEnvironment_eq_ok edited).2]
    exact coherent.ttl
  · exact coherent

theorem putSubscription (coherent : store.Coherent) (subscription : StoredSubscription) :
    (store.putSubscription subscription).2.Coherent := by
  rw [PersistentStore.putSubscription]
  split
  · refine coherent.transact fun next edited => ?_
    obtain ⟨_, _, result⟩ := map_eq_ok.mp edited
    rw [← result]
    exact coherent.ttl
  · exact coherent

theorem claimSubscription (coherent : store.Coherent) (subscription : StoredSubscription) :
    (store.claimSubscription subscription).2.Coherent := by
  rw [PersistentStore.claimSubscription]
  dsimp only
  split
  · exact coherent
  · exact coherent
  · exact coherent.commit coherent.ttl

theorem checkAndMark (coherent : store.Coherent) (sender : AgentId) (session : SessionId)
    (nowSeconds : UInt64) : (store.checkAndMark sender session nowSeconds).2.Coherent := by
  refine coherent.transact fun next edited => ?_
  obtain ⟨_, _, result⟩ := map_eq_ok.mp edited
  rw [← result]
  exact (ReplayCache.checkAndMark_bounds _ sender session nowSeconds).2.trans coherent.ttl

theorem reconcileAgents (coherent : store.Coherent) (configured : List (AgentId × PublicKeys)) :
    (store.reconcileAgents configured).2.Coherent := by
  rw [PersistentStore.reconcileAgents]
  split
  · exact coherent
  · refine coherent.transact fun next edited => ?_
    obtain ⟨_, _, result⟩ := map_eq_ok.mp edited
    rw [← result]
    exact coherent.ttl

end PersistentStore.Coherent

def StoreState.Holds (state : StoreState) (sender : AgentId) (session : SessionId)
    (expires : UInt64) : Prop :=
  state.keys.contains sender = true ∧
    state.replay.entries.get (replayKey sender session) = some expires

abbrev Store.Holds (store : Store) : AgentId → SessionId → UInt64 → Prop := store.state.Holds

/-- A persistent store of the given limits whose snapshot agrees with its tables. -/
def Store.Durable (limits : StoreLimits) (store : Store) : Prop :=
  ∃ held : PersistentStore, store = .persistent held ∧ held.limits = limits ∧ held.Coherent

section Durable

variable {ρ : Type} {random : CryptoRandom ρ} {authority : CertificateAuthority}
  {limits : StoreLimits}

theorem perform_durable (call : CaCall) {world : World ρ} (durable : world.store.Durable limits) :
    (authority.perform random call world).2.store.Durable limits := by
  obtain ⟨held, kind, bound, coherent⟩ := durable
  have same := (@perform_limits _ random authority call world).trans
    ((congrArg Store.limits kind).trans bound)
  cases call with
  | keys agent => exact ⟨held, kind, bound, coherent⟩
  | environment agent => exact ⟨held, kind, bound, coherent⟩
  | subscriptionsFor typeId => exact ⟨held, kind, bound, coherent⟩
  | delivery => exact ⟨held, kind, bound, coherent⟩
  | checkAndMark sender session nowSeconds =>
      rw [CertificateAuthority.perform, kind] at same ⊢
      exact ⟨_, rfl, same, coherent.checkAndMark sender session nowSeconds⟩
  | setEnvironment agent encoded =>
      rw [CertificateAuthority.perform, kind] at same ⊢
      exact ⟨_, rfl, same, coherent.setEnvironment agent encoded⟩
  | putSubscription subscription =>
      rw [CertificateAuthority.perform, kind] at same ⊢
      exact ⟨_, rfl, same, coherent.putSubscription subscription⟩
  | claimSubscription subscription =>
      rw [CertificateAuthority.perform, kind] at same ⊢
      exact ⟨_, rfl, same, coherent.claimSubscription subscription⟩

theorem handle_durable {world : World ρ} (frame : Bytes) (nowSeconds : UInt64)
    (durable : world.store.Durable limits) :
    (authority.handle random frame nowSeconds world).2.store.Durable limits :=
  run_preserves (fun current : World ρ => current.store.Durable limits)
    (fun call _ kept => perform_durable call kept) (authority.process frame nowSeconds) durable

end Durable

/-! ## Runs over a persistent store -/

/-- A CA with the latest time that a request was processed at. -/
structure TimedCa (ρ : Type) where
  system : CaSystem ρ
  clock : UInt64

/-- What can happen to a CA over a persistent store. -/
inductive CaAction where
  | process (frame : Bytes) (nowSeconds : UInt64)
  | reconcile (configured : List (AgentId × PublicKeys))
  | reopen

namespace TimedCa

variable {ρ : Type}

def store (ca : TimedCa ρ) : Store := ca.system.world.store

/-- One action; a store is reopened on the bytes of its snapshot and with its limits. -/
inductive Step (random : CryptoRandom ρ) : TimedCa ρ → CaAction → TimedCa ρ → Prop where
  | process {ca : TimedCa ρ} (frame : Bytes) (nowSeconds : UInt64)
      (later : ca.clock ≤ nowSeconds) :
      Step random ca (.process frame nowSeconds)
        ⟨{ ca.system with
          world := (ca.system.authority.handle random frame nowSeconds ca.system.world).2 },
          nowSeconds⟩
  | reconcile {ca : TimedCa ρ} (store : PersistentStore) (held : ca.store = .persistent store)
      (configured : List (AgentId × PublicKeys)) :
      Step random ca (.reconcile configured)
        { ca with system :=
          ca.system.withStore (.persistent (store.reconcileAgents configured).2) }
  | reopen {ca : TimedCa ρ} (store reopened : PersistentStore)
      (held : ca.store = .persistent store) (snapshot : SnapshotFile) (readFails : Bool)
      (same : snapshot.contents = store.snapshot.contents)
      (accepted : PersistentStore.open snapshot store.limits readFails = .ok reopened) :
      Step random ca .reopen { ca with system := ca.system.withStore (.persistent reopened) }

/-- A run of any actions. -/
abbrev Run (random : CryptoRandom ρ) : TimedCa ρ → TimedCa ρ → Prop :=
  Relation.ReflTransGen (fun ca next => ∃ action, Step random ca action next)

/-- The action is a successful reconciliation that removes the agent or changes its keys. -/
def Revokes (agent : AgentId) (ca : TimedCa ρ) (action : CaAction) : Prop :=
  ∃ configured store, action = .reconcile configured ∧ ca.store = .persistent store ∧
    (store.reconcileAgents configured).1 = .ok () ∧
    (store.reconcileAgents configured).2.state.keys.get agent ≠ store.state.keys.get agent

/-- A run in which no reconciliation revokes the agent. -/
abbrev RunKeeping (random : CryptoRandom ρ) (agent : AgentId) : TimedCa ρ → TimedCa ρ → Prop :=
  Relation.ReflTransGen (fun ca next => ∃ action, Step random ca action next ∧
    ¬ Revokes agent ca action)

/-- Whose session the replay check accepts for a frame, and the key that verified it. -/
def accepts (ca : TimedCa ρ) (frame : Bytes) (nowSeconds : UInt64) :
    Option (AgentId × SessionId × Key32) :=
  match replayCheck ca.system.authority ca.store frame nowSeconds with
  | .ok (envelope, publicKeys) => some (envelope.sender, envelope.sessionId, publicKeys.ed25519)
  | .error _ => none

/-- Processing the frame at the given time passes the replay check for a session of the sender,
under its signing key. -/
def Passes (ca : TimedCa ρ) (frame : Bytes) (nowSeconds : UInt64) (sender : AgentId)
    (session : SessionId) (ed25519 : Key32) : Prop :=
  ca.accepts frame nowSeconds = some (sender, session, ed25519)

instance (ca : TimedCa ρ) (frame : Bytes) (nowSeconds : UInt64) (sender : AgentId)
    (session : SessionId) (ed25519 : Key32) :
    Decidable (ca.Passes frame nowSeconds sender session ed25519) :=
  inferInstanceAs (Decidable (_ = _))

theorem passes_iff {ca : TimedCa ρ} {frame : Bytes} {nowSeconds : UInt64} {sender : AgentId}
    {session : SessionId} {ed25519 : Key32} :
    ca.Passes frame nowSeconds sender session ed25519 ↔ ∃ envelope publicKeys,
      replayCheck ca.system.authority ca.store frame nowSeconds = .ok (envelope, publicKeys) ∧
        envelope.sender = sender ∧ envelope.sessionId = session ∧
        publicKeys.ed25519 = ed25519 := by
  rw [Passes, accepts]
  constructor
  · intro passes
    split at passes
    · rename_i envelope publicKeys checked
      cases passes
      exact ⟨envelope, publicKeys, checked, rfl, rfl, rfl⟩
    · cases passes
  · intro ⟨envelope, publicKeys, checked, sameSender, sameSession, sameKey⟩
    rw [checked]
    dsimp only
    rw [sameSender, sameSession, sameKey]

def Opened (ca : TimedCa ρ) : Prop :=
  ∃ snapshot limits readFails store, PersistentStore.open snapshot limits readFails = .ok store ∧
    ca.store = .persistent store

/-- The session expired or is still in the replay table of a known sender. -/
structure Remembers (limits : StoreLimits) (sender : AgentId) (session : SessionId)
    (expires : UInt64) (ca : TimedCa ρ) : Prop where
  durable : ca.store.Durable limits
  remembered : expires ≤ ca.clock ∨ ca.store.Holds sender session expires

section Window

variable {random : CryptoRandom ρ} {ca start next later : TimedCa ρ} {action : CaAction}
  {limits : StoreLimits} {sender : AgentId} {session : SessionId} {expires nowSeconds : UInt64}

theorem Opened.durable (opened : start.Opened) : start.store.Durable start.store.limits := by
  obtain ⟨snapshot, limits, readFails, store, accepted, held⟩ := opened
  obtain ⟨coherent, bound⟩ := PersistentStore.Coherent.opened accepted
  exact ⟨store, held, by rw [held]; rfl, coherent⟩

theorem Step.durable (step : Step random ca action next) (durable : ca.store.Durable limits) :
    next.store.Durable limits := by
  cases step with
  | process frame nowSeconds later => exact handle_durable frame nowSeconds durable
  | reconcile store held configured =>
      obtain ⟨same, kind, bound, coherent⟩ := durable
      cases held.symm.trans kind
      exact ⟨_, rfl, (store.reconcileAgents_limits configured).trans bound,
        coherent.reconcileAgents configured⟩
  | reopen store reopened held snapshot readFails same accepted =>
      obtain ⟨old, kind, bound, _⟩ := durable
      cases held.symm.trans kind
      obtain ⟨coherent, limits⟩ := PersistentStore.Coherent.opened accepted
      exact ⟨reopened, rfl, limits.trans bound, coherent⟩

theorem Run.durable (run : Run random start ca) (opened : start.Opened) :
    ca.store.Durable start.store.limits := by
  induction run with
  | refl => exact opened.durable
  | tail _ last ih =>
      obtain ⟨action, step⟩ := last
      exact step.durable ih

/-- A session that has not expired is still there after another one was checked. -/
theorem marked_remembers {world : World ρ} (other : AgentId) (otherSession : SessionId)
    (fresh : nowSeconds < expires)
    (held : world.store.state.replay.entries.get (replayKey sender session) = some expires) :
    (world.marked other otherSession nowSeconds).store.state.replay.entries.get
      (replayKey sender session) = some expires := by
  have purged : (world.store.state.replay.purge nowSeconds).entries.get
      (replayKey sender session) = some expires := by
    rw [ReplayCache.purge_get, held]
    simp [fresh]
  obtain ⟨absent, _, _, marked⟩ | ⟨_, _, kept | purge⟩ :=
    world.store.checkAndMark_cases other otherSession nowSeconds
  · rw [World.marked, marked]
    dsimp only
    rw [ReplayCache.mark_get, if_neg, purged]
    intro same
    rw [← same, SortedMap.contains_eq, purged] at absent
    cases absent
  · rw [World.marked, kept]
    exact held
  · rw [World.marked, purge]
    exact purged

theorem handle_holds {authority : CertificateAuthority} {world : World ρ} (frame : Bytes)
    (fresh : nowSeconds < expires) (held : world.store.Holds sender session expires) :
    (authority.handle random frame nowSeconds world).2.store.Holds sender session expires := by
  refine ⟨?_, ?_⟩
  · rw [handle_keys]
    exact held.1
  · obtain same | ⟨envelope, marked⟩ := @handle_replay _ random authority world frame nowSeconds
    · rw [same]
      exact held.2
    · rw [marked]
      exact marked_remembers envelope.sender envelope.sessionId fresh held.2

theorem reconcileAgents_cases (store : PersistentStore)
    (configured : List (AgentId × PublicKeys)) :
    (∃ keys, (store.reconcileAgents configured).1 = .ok () ∧
        (store.reconcileAgents configured).2.state = store.state.reconcile keys) ∨
      ∃ error, (store.reconcileAgents configured).1 = .error error ∧
        (store.reconcileAgents configured).2.state = store.state := by
  rw [PersistentStore.reconcileAgents]
  split
  · exact .inr ⟨_, rfl, rfl⟩
  · obtain ⟨_, edited, accepted, result⟩ | refused := store.transact_cases
      ((StoreState.configuredKeys configured .empty).map store.state.reconcile)
    · obtain ⟨keys, _, same⟩ := map_eq_ok.mp edited
      exact .inl ⟨keys, accepted, result.trans same.symm⟩
    · exact .inr refused

/-- A reconciliation that keeps an agent's keys keeps its sessions. -/
theorem reconcile_holds {state : StoreState} {keys : SortedMap AgentId PublicKeys}
    (holds : state.Holds sender session expires)
    (kept : keys.get sender = state.keys.get sender) :
    (state.reconcile keys).Holds sender session expires := by
  obtain ⟨known, held⟩ := holds
  have unchanged : StoreState.unchanged state.keys keys sender = true := by
    rw [SortedMap.contains_eq] at known
    obtain ⟨old, found⟩ := Option.isSome_iff_exists.mp known
    rw [StoreState.unchanged, kept, found]
    exact decide_eq_true rfl
  refine ⟨?_, ?_⟩
  · rw [SortedMap.contains_eq] at known ⊢
    exact (congrArg Option.isSome kept).trans known
  · refine (SortedMap.get_retain _ _ _).trans ?_
    rw [held]
    change Option.filter (fun _ => StoreState.unchanged state.keys keys sender) _ = _
    rw [unchanged]
    rfl

/-- Every action but a revocation keeps a session until it expires. -/
theorem Step.remembers (step : Step random ca action next)
    (kept : ¬ Revokes sender ca action) (before : ca.Remembers limits sender session expires) :
    next.Remembers limits sender session expires := by
  refine ⟨step.durable before.durable, ?_⟩
  cases step with
  | process frame nowSeconds later =>
      by_cases fresh : nowSeconds < expires
      · obtain expired | held := before.remembered
        · exact absurd (UInt64.lt_of_lt_of_le fresh expired) (UInt64.not_lt.mpr later)
        · exact .inr (handle_holds frame fresh held)
      · exact .inl (UInt64.not_lt.mp fresh)
  | reconcile store held configured =>
      refine before.remembered.imp id fun holds => ?_
      rw [held] at holds
      obtain ⟨keys, accepted, result⟩ | ⟨_, _, same⟩ :=
        reconcileAgents_cases store configured
      · have keysKept : keys.get sender = store.state.keys.get sender := by
          by_contra changed
          refine kept ⟨configured, store, rfl, held, accepted, ?_⟩
          rw [result]
          exact changed
        have remembered : (store.state.reconcile keys).Holds sender session expires :=
          reconcile_holds holds keysKept
        rw [← result] at remembered
        exact remembered
      · have remembered : store.state.Holds sender session expires := holds
        rw [← same] at remembered
        exact remembered
  | reopen store reopened held snapshot readFails same accepted =>
      refine before.remembered.imp id fun holds => ?_
      obtain ⟨old, kind, bound, coherent⟩ := before.durable
      cases held.symm.trans kind
      rw [held] at holds
      obtain ⟨keys, replay⟩ := coherent.reopened same accepted
      have remembered : store.state.Holds sender session expires := holds
      rw [StoreState.Holds, ← keys, ← replay] at remembered
      exact remembered

theorem RunKeeping.remembers (run : RunKeeping random sender next later)
    (before : next.Remembers limits sender session expires) :
    later.Remembers limits sender session expires := by
  induction run with
  | refl => exact before
  | tail _ last ih =>
      obtain ⟨action, step, kept⟩ := last
      exact step.remembers kept ih

theorem Passes.remembers {frame : Bytes} {ed25519 : Key32}
    (passes : ca.Passes frame nowSeconds sender session ed25519)
    (durable : ca.store.Durable limits)
    (step : Step random ca (.process frame nowSeconds) next) :
    next.Remembers limits sender session (saturatingAdd nowSeconds limits.replayTtlSeconds) := by
  refine ⟨step.durable durable, .inr ?_⟩
  obtain ⟨envelope, publicKeys, checked, rfl, rfl, _⟩ := passes_iff.mp passes
  obtain ⟨_, known, _, accepted⟩ := replayCheck_eq_ok.mp checked
  obtain ⟨held, kind, bound, coherent⟩ := durable
  have ttl : ca.store.state.replay.ttlSeconds = limits.replayTtlSeconds := by
    rw [kind, ← bound]
    exact coherent.ttl
  have marked : (ca.store.checkAndMark envelope.sender envelope.sessionId
      nowSeconds).2.state.replay.entries.get (replayKey envelope.sender envelope.sessionId) =
        some (saturatingAdd nowSeconds limits.replayTtlSeconds) := by
    obtain ⟨_, _, _, marked⟩ | ⟨error, failed, _⟩ :=
      ca.store.checkAndMark_cases envelope.sender envelope.sessionId nowSeconds
    · rw [marked, ← ttl]
      exact (ReplayCache.mark_get _ _ _ _ _).trans (if_pos rfl)
    · rw [accepted] at failed
      cases failed
  cases step with
  | process frame nowSeconds later =>
      have replay := @handle_replay_of_checked _ random _ ca.system.world _ _ _ _ checked
      have keys := @handle_keys _ random ca.system.authority ca.system.world frame nowSeconds
      exact ⟨keys ▸ StoreState.contains_of_keysOf known, replay ▸ marked⟩

/-- No request is accepted twice inside its replay window unless its sender was removed or got
other keys in between. -/
theorem accepted_once {frame repeated : Bytes} {ed25519 otherKey : Key32} {repeatedAt : UInt64}
    (opened : start.Opened) (run : Run random start ca)
    (passes : ca.Passes frame nowSeconds sender session ed25519)
    (processed : Step random ca (.process frame nowSeconds) next)
    (kept : RunKeeping random sender next later) (ordered : later.clock ≤ repeatedAt)
    (inside : repeatedAt < saturatingAdd nowSeconds start.store.limits.replayTtlSeconds) :
    ¬ later.Passes repeated repeatedAt sender session otherKey := by
  have remembers := kept.remembers (passes.remembers (run.durable opened) processed)
  intro again
  obtain ⟨envelope, publicKeys, checked, rfl, rfl, _⟩ := passes_iff.mp again
  obtain ⟨_, _, _, accepted⟩ := replayCheck_eq_ok.mp checked
  obtain expired | ⟨_, held⟩ := remembers.remembered
  · exact absurd inside (UInt64.not_lt.mpr (UInt64.le_trans expired ordered))
  · obtain ⟨absent, _⟩ | ⟨error, failed, _⟩ :=
      later.store.checkAndMark_cases envelope.sender envelope.sessionId repeatedAt
    · rw [SortedMap.contains_eq, ReplayCache.purge_get, held] at absent
      simp [inside] at absent
    · rw [accepted] at failed
      cases failed

end Window

end TimedCa

/-! ## A session that is accepted again -/

namespace Sample

def request : Bytes := frame 1 (.setEnvironment []) 10

def session : SessionId := ⟨.fill 16 10⟩

def configuration : List (AgentId × PublicKeys) := [((agent 1).id, ⟨.fill 32 1, .fill 32 1⟩)]

def fresh : TimedCa Nat :=
  ⟨⟨authority, ⟨.persistent ⟨.empty limits, ⟨none, none, []⟩, limits⟩, 0⟩⟩, 0⟩

def reconciled (configured : List (AgentId × PublicKeys)) (ca : TimedCa Nat) : TimedCa Nat :=
  match ca.store with
  | .persistent store =>
      ⟨ca.system.withStore (.persistent (store.reconcileAgents configured).2), ca.clock⟩
  | .memory _ => ca

def processed (ca : TimedCa Nat) : TimedCa Nat :=
  ⟨{ ca.system with
    world := (ca.system.authority.handle .counting request 10 ca.system.world).2 }, 10⟩

def configured : TimedCa Nat := reconciled configuration fresh

def reinstated : TimedCa Nat := reconciled configuration (reconciled [] (processed configured))

theorem fresh_opened : fresh.Opened := ⟨⟨none, none, []⟩, limits, false, _, rfl, rfl⟩

theorem reconciled_run (configured : List (AgentId × PublicKeys)) (ca : TimedCa Nat) :
    TimedCa.Run .counting ca (reconciled configured ca) := by
  rw [reconciled]
  split
  · rename_i store held
    exact .single ⟨_, .reconcile store held configured⟩
  · exact .refl

theorem reconciled_clock (configured : List (AgentId × PublicKeys)) (ca : TimedCa Nat) :
    (reconciled configured ca).clock = ca.clock := by
  rw [reconciled]
  split <;> rfl

theorem configured_passes :
    configured.Passes request 10 (agent 1).id session (.fill 32 1) := by
  decide +kernel

end Sample

theorem sample_accepted_once :
    ¬ (Sample.processed Sample.configured).Passes Sample.request 60 (Sample.agent 1).id
      Sample.session (.fill 32 1) :=
  TimedCa.accepted_once Sample.fresh_opened (Sample.reconciled_run _ _) Sample.configured_passes
    (.process _ _ (by decide)) .refl (by decide) (by decide)

/-- A reconciliation that removes the sender forgets its sessions. -/
theorem revoked_session_passes_again :
    ¬ ∀ (start ca next later : TimedCa Nat) (frame repeated : Bytes) (sender : AgentId)
      (session : SessionId) (ed25519 : Key32) (nowSeconds repeatedAt : UInt64),
      start.Opened → TimedCa.Run .counting start ca →
      ca.Passes frame nowSeconds sender session ed25519 →
      TimedCa.Step .counting ca (.process frame nowSeconds) next →
      TimedCa.Run .counting next later → later.clock ≤ repeatedAt →
      repeatedAt < saturatingAdd nowSeconds start.store.limits.replayTtlSeconds →
      ¬ later.Passes repeated repeatedAt sender session ed25519 := by
  intro once
  have again : Sample.reinstated.Passes Sample.request 10 (Sample.agent 1).id Sample.session
      (.fill 32 1) := by
    decide +kernel
  have run : TimedCa.Run .counting (Sample.processed Sample.configured) Sample.reinstated :=
    (Sample.reconciled_run _ _).trans (Sample.reconciled_run _ _)
  have clock : Sample.reinstated.clock ≤ 10 := by
    rw [Sample.reinstated, Sample.reconciled_clock, Sample.reconciled_clock]
    exact UInt64.le_refl 10
  exact once _ _ _ _ _ _ _ _ _ _ _ Sample.fresh_opened (Sample.reconciled_run _ _)
    Sample.configured_passes (.process _ _ (by decide)) run clock (by decide) again

end SecurePubSub.Authority

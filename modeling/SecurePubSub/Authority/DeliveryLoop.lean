import Mathlib.Logic.Function.Iterate
import SecurePubSub.Authority.Runs

namespace SecurePubSub.Authority

open SecurePubSub.Data SecurePubSub.Data.Fallible SecurePubSub.Data.Program SecurePubSub.Protocol

/-! What the delivery loop does, position by position.

Whether an iteration fails is decided by the state before the loop and by how
many of the subscriptions in front of it are selected, so the outcome of the
whole loop is known before it runs.
-/

/-! ## Lists with a failing position -/

section Positions

variable {α : Type} {fails : List α → α → Prop}

/-- No item of `rest` fails behind what precedes it. -/
def Clear (fails : List α → α → Prop) (handled rest : List α) : Prop :=
  ∀ front item back, rest = front ++ item :: back → ¬ fails (handled ++ front) item

theorem clear_nil (handled : List α) : Clear fails handled [] := by
  intro front item back split
  simp at split

theorem clear_cons {handled rest : List α} {item : α} :
    Clear fails handled (item :: rest) ↔
      ¬ fails handled item ∧ Clear fails (handled ++ [item]) rest := by
  constructor
  · intro clear
    refine ⟨?_, fun front other back split => ?_⟩
    · have here := clear [] item rest rfl
      rwa [List.append_nil] at here
    · have later := clear (item :: front) other back (by rw [split]; rfl)
      rwa [List.append_assoc, List.singleton_append]
  · intro ⟨here, later⟩ front other back split
    cases front with
    | nil =>
        cases split
        rwa [List.append_nil]
    | cons head front =>
        cases split
        have behind := later front other back rfl
        rwa [List.append_assoc, List.singleton_append] at behind

theorem clear_unique {whole left right leftRest rightRest : List α} {leftItem rightItem : α}
    (leftSplit : whole = left ++ leftItem :: leftRest) (leftClear : Clear fails [] left)
    (leftFails : fails left leftItem) (rightSplit : whole = right ++ rightItem :: rightRest)
    (rightClear : Clear fails [] right) (rightFails : fails right rightItem) : left = right := by
  obtain ⟨between, extended, rest⟩ | ⟨between, extended, rest⟩ :=
    List.append_eq_append_iff.mp (leftSplit.symm.trans rightSplit)
  · cases between with
    | nil => rw [extended, List.append_nil]
    | cons head tail =>
        cases rest
        exact absurd leftFails (rightClear left leftItem tail extended)
  · cases between with
    | nil => rw [extended, List.append_nil]
    | cons head tail =>
        cases rest
        exact absurd rightFails (leftClear right rightItem tail extended)

end Positions

/-! ## Stores between two commits -/

/-- What the file system will do to the next commits; a store in memory makes none. -/
def Store.faults : Store → List CommitFault
  | .memory _ => []
  | .persistent store => store.snapshot.faults

/-- A store that could commit its present state again. -/
def Store.Settled : Store → Prop
  | .memory _ => True
  | .persistent store => store.snapshot.temporary = none ∧
      ∃ bytes, encodeState store.state = .ok bytes ∧ bytes.length ≤ maxSnapshotLen

/-- A commit that succeeded leaves a settled store and used one entry of the schedule. -/
theorem PersistentStore.commit_settles {store : PersistentStore} {next : StoreState}
    (committed : (store.commit next).1 = .ok ()) :
    (Store.persistent (store.commit next).2).Settled ∧
      (store.commit next).2.snapshot.faults = store.snapshot.faults.tail ∧
      (store.commit next).2.state = next := by
  obtain ⟨bytes, encoded, fits, result⟩ := PersistentStore.commit_of_ok committed
  rw [result]
  exact ⟨⟨rfl, bytes, encoded, fits⟩, rfl, rfl⟩

theorem Store.checkAndMark_settles {store : Store} {sender : AgentId} {session : SessionId}
    {nowSeconds : UInt64} (accepted : (store.checkAndMark sender session nowSeconds).1 = .ok ()) :
    (store.checkAndMark sender session nowSeconds).2.Settled ∧
      (store.checkAndMark sender session nowSeconds).2.faults = store.faults.tail := by
  cases store with
  | memory store => exact ⟨trivial, rfl⟩
  | persistent store =>
      simp only [checkAndMark, PersistentStore.checkAndMark, Prod.map, id] at accepted ⊢
      cases edited : (store.state.checkAndMark sender session nowSeconds).1 with
      | error error =>
          rw [edited] at accepted
          cases accepted
      | ok marked =>
          rw [edited] at accepted
          obtain ⟨settled, faults, _⟩ := PersistentStore.commit_settles accepted
          exact ⟨settled, faults⟩

/-- What the claim of a stored subscription does to a settled store. -/
theorem Store.Settled.claim {store : Store} (settled : store.Settled)
    {subscription : StoredSubscription}
    (stored : subscription ∈ store.state.subscriptions.forType subscription.typeId) :
    (subscription.kind = .oneShot ∧ store.faults.headD .none ≠ .none ∧
        ∃ error, (store.claimSubscription subscription).1 = .error error ∧
          (store.claimSubscription subscription).2.state = store.state) ∨
      (¬ (subscription.kind = .oneShot ∧ store.faults.headD .none ≠ .none) ∧
        (store.claimSubscription subscription).1 = .ok true ∧
        (store.claimSubscription subscription).2.state =
          (store.state.claimSubscription subscription).2 ∧
        (store.claimSubscription subscription).2.Settled ∧
        (store.claimSubscription subscription).2.faults =
          store.faults.drop (if subscription.kind = .oneShot then 1 else 0)) := by
  have found : (store.state.claimSubscription subscription).1 = true :=
    SubscriptionTable.claim_eq_true.mpr stored
  cases store with
  | memory store =>
      refine .inr ⟨fun both => both.2 rfl, congrArg Except.ok found, rfl, trivial, ?_⟩
      simp [claimSubscription, faults]
  | persistent store =>
      change (store.state.claimSubscription subscription).1 = true at found
      obtain ⟨absent, bytes, encoded, fits⟩ := settled
      simp only [claimSubscription, PersistentStore.claimSubscription, faults, state]
      cases kind : subscription.kind with
      | permanent =>
          refine .inr ⟨?_, congrArg Except.ok found, ?_, ⟨absent, bytes, encoded, fits⟩, rfl⟩
          · intro both
            cases both.1
          · simp only [Prod.map, id, StoreState.claimSubscription,
              SubscriptionTable.claim_unchanged (.inr kind)]
      | oneShot =>
          rw [found]
          obtain ⟨shorter, encodedAfter, short⟩ := encodeState_shrinks encoded
            (SubscriptionTable.listed_claim store.state.subscriptions subscription)
            (SubscriptionTable.count_claim_le _ _)
          have commits : (store.commit (store.state.claimSubscription subscription).2).1 = .ok () ↔
              store.snapshot.faults.headD .none = .none := by
            refine ⟨fun committed => ?_, fun fault => ?_⟩
            · obtain ⟨_, _, written⟩ := PersistentStore.commit_eq_ok.mp committed
              exact (SnapshotFile.commit_eq_ok.mp written).2.2
            · exact PersistentStore.commit_eq_ok.mpr ⟨shorter, encodedAfter,
                SnapshotFile.commit_eq_ok.mpr ⟨Nat.le_trans short fits, absent, fault⟩⟩
          by_cases fault : store.snapshot.faults.headD .none = .none
          · have committed := commits.mpr fault
            obtain ⟨settledAfter, faultsAfter, published⟩ :=
              PersistentStore.commit_settles committed
            refine .inr ⟨fun both => both.2 fault, ?_, published, settledAfter, ?_⟩
            · simp only [Prod.map, id, committed]
              rfl
            · rw [if_pos rfl, List.drop_one]
              exact faultsAfter
          · obtain ⟨committed, _⟩ | ⟨error, failed, kept⟩ :=
              store.commit_cases (store.state.claimSubscription subscription).2
            · exact absurd (commits.mp committed) fault
            · refine .inl ⟨rfl, fault, error, ?_, kept⟩
              simp only [Prod.map, id, failed]
              rfl

/-! ## One iteration -/

section Iterations

variable {ρ : Type} (random : CryptoRandom ρ) (authority : CertificateAuthority)

def drawDelivery (state : ρ) : ρ :=
  let session := random.fillBytes 16 state
  let salt := random.fillBytes 32 session.2
  (random.fillBytes 32 salt.2).2

/-- The frame for one subscription, sealed with what the generator gives in `rng`. -/
def sealFor (publication : Publication) (subscription : StoredSubscription)
    (recipientKeys : PublicKeys) (rng : ρ) : Except Error Bytes :=
  (authority.delivery random publication.publisher subscription.subscriber subscription.handler
    publication.typeId publication.value recipientKeys.x25519 rng).1

def selects (policy : EnvironmentPolicy) (state : StoreState) (publication : Publication)
    (subscription : StoredSubscription) : Bool :=
  match route policy state publication subscription with
  | .ok (some _) => true
  | _ => false

def consumes (policy : EnvironmentPolicy) (state : StoreState) (publication : Publication)
    (subscription : StoredSubscription) : Bool :=
  selects policy state publication subscription && decide (subscription.kind = .oneShot)

/-- The loop ends with an error at `subscription`, behind `handled`: its decision fails, or it is
selected and either its delivery cannot be sealed or its removal cannot be committed. -/
def FailsAt (state : StoreState) (rng : ρ) (faults : List CommitFault) (publication : Publication)
    (handled : List StoredSubscription) (subscription : StoredSubscription) : Prop :=
  match route authority.policy state publication subscription with
  | .error _ => True
  | .ok none => False
  | .ok (some recipientKeys) =>
      (∃ error, sealFor random authority publication subscription recipientKeys
          ((drawDelivery random)^[handled.countP (selects authority.policy state publication)]
            rng) = .error error) ∨
        subscription.kind = .oneShot ∧
          (faults.drop (handled.countP (consumes authority.policy state publication))).headD
            .none ≠ .none

def Pushes (state : StoreState) (publication : Publication) (subscription : StoredSubscription)
    (frame : Bytes) : Prop :=
  ∃ recipientKeys rng, route authority.policy state publication subscription =
      .ok (some recipientKeys) ∧
    sealFor random authority publication subscription recipientKeys rng = .ok frame

/-- The loop is between two iterations: what is in front of `rest` was handled. -/
structure Progress (start : World ρ) (publication : Publication)
    (handled rest : List StoredSubscription) (current : World ρ) : Prop where
  keys : current.store.state.keys = start.store.state.keys
  environments : current.store.state.environments = start.store.state.environments
  replay : current.store.state.replay = start.store.state.replay
  bucket : current.store.state.subscriptions.forType publication.typeId =
    handled.filter (fun entry => !consumes authority.policy start.store.state publication entry) ++
      rest
  others : ∀ typeId, typeId ≠ publication.typeId →
    current.store.state.subscriptions.forType typeId =
      start.store.state.subscriptions.forType typeId
  rng : current.rng =
    (drawDelivery random)^[handled.countP
      (selects authority.policy start.store.state publication)] start.rng
  faults : current.store.faults = start.store.faults.drop
    (handled.countP (consumes authority.policy start.store.state publication))
  settled : current.store.Settled

variable {random authority} {start current : World ρ} {publication : Publication}
  {handled rest : List StoredSubscription} {subscription : StoredSubscription}

theorem Progress.begins (settled : start.store.Settled) :
    Progress random authority start publication []
      (start.store.state.subscriptions.forType publication.typeId) start :=
  ⟨rfl, rfl, rfl, rfl, fun _ _ => rfl, rfl, rfl, settled⟩

theorem delivery_draws {publisher recipient : AgentId} {handler : HandlerId} {typeId : TypeId}
    {value frame : Bytes} {recipientX25519 : Key32} {state : ρ}
    (made : (authority.delivery random publisher recipient handler typeId value recipientX25519
      state).1 = .ok frame) :
    (authority.delivery random publisher recipient handler typeId value recipientX25519 state).2 =
      drawDelivery random state := by
  unfold CertificateAuthority.delivery at made ⊢
  split
  · rename_i error failed
    simp only [failed, reduceCtorEq] at made
  · rfl

theorem Progress.head_mem (progress : Progress random authority start publication handled
      (subscription :: rest) current) :
    subscription ∈ current.store.state.subscriptions.forType publication.typeId := by
  rw [progress.bucket]
  exact List.mem_append_right _ List.mem_cons_self

theorem Progress.head_typeId (progress : Progress random authority start publication handled
      (subscription :: rest) current) : subscription.typeId = publication.typeId :=
  SubscriptionTable.typeId_of_mem progress.head_mem

theorem Progress.head_stored (progress : Progress random authority start publication handled
      (subscription :: rest) current) :
    subscription ∈ current.store.state.subscriptions.forType subscription.typeId :=
  progress.head_typeId ▸ progress.head_mem

/-- A subscription that is passed over leaves the loop's state as it is. -/
theorem Progress.skip (progress : Progress random authority start publication handled
      (subscription :: rest) current)
    (passed : selects authority.policy start.store.state publication subscription = false) :
    Progress random authority start publication (handled ++ [subscription]) rest current := by
  have kept : consumes authority.policy start.store.state publication subscription = false := by
    rw [consumes, passed, Bool.false_and]
  refine { progress with bucket := ?_, rng := ?_, faults := ?_ }
  · rw [progress.bucket, List.filter_append, List.filter_cons, kept]
    simp
  · rw [progress.rng, List.countP_append, List.countP_cons, passed]
    rfl
  · rw [progress.faults, List.countP_append, List.countP_cons, kept]
    rfl

theorem not_mem_kept (consumed : consumes authority.policy start.store.state publication
    subscription = true) : subscription ∉ handled.filter
      (fun entry => !consumes authority.policy start.store.state publication entry) := by
  intro member
  have kept := (List.mem_filter.mp member).2
  rw [consumed] at kept
  cases kept

/-- A delivered subscription advances the loop, consumed or not. -/
theorem Progress.deliver (progress : Progress random authority start publication handled
      (subscription :: rest) current)
    (selected : selects authority.policy start.store.state publication subscription = true)
    (claims : ¬ (subscription.kind = .oneShot ∧ current.store.faults.headD .none ≠ .none)) :
    let claimed := ({ current with rng := drawDelivery random current.rng } : World ρ).claimed
      subscription
    claimed.1 = .ok true ∧
      Progress random authority start publication (handled ++ [subscription]) rest claimed.2 := by
  have sameType := progress.head_typeId
  have consumed : consumes authority.policy start.store.state publication subscription =
      decide (subscription.kind = .oneShot) := by
    rw [consumes, selected, Bool.true_and]
  obtain ⟨kind, fault, _⟩ | ⟨_, answer, edited, settled, faults⟩ :=
    progress.settled.claim progress.head_stored
  · exact absurd ⟨kind, fault⟩ claims
  · refine ⟨answer, ?_⟩
    simp only [World.claimed]
    refine ⟨?_, ?_, ?_, ?_, ?_, ?_, ?_, settled⟩
    · rw [edited]
      exact progress.keys
    · rw [edited]
      exact progress.environments
    · rw [edited]
      exact progress.replay
    · rw [edited, StoreState.claimSubscription, SubscriptionTable.forType_claim, sameType,
        progress.bucket, List.filter_append]
      by_cases kind : subscription.kind = .oneShot
      · rw [decide_eq_true kind] at consumed
        rw [if_pos ⟨rfl, kind⟩, List.erase_append_right _ (not_mem_kept consumed),
          List.erase_cons_head]
        simp [consumed]
      · rw [decide_eq_false kind] at consumed
        rw [if_neg (fun both => kind both.2)]
        simp [consumed]
    · intro typeId other
      rw [edited, StoreState.claimSubscription, SubscriptionTable.forType_claim, sameType,
        if_neg (fun both => other both.1)]
      exact progress.others typeId other
    · rw [progress.rng, List.countP_append, List.countP_singleton, selected, if_pos rfl,
        Function.iterate_succ_apply']
    · rw [faults, progress.faults, List.drop_drop, List.countP_append, List.countP_singleton,
        consumed]
      by_cases kind : subscription.kind = .oneShot <;> simp [kind]

/-- One iteration fails where `FailsAt` says, without touching the tables, and advances the loop
elsewhere. -/
theorem run_offer_step (progress : Progress random authority start publication handled
      (subscription :: rest) current) :
    (FailsAt random authority start.store.state start.rng start.store.faults publication handled
          subscription ∧
        ∃ error after, run (authority.perform random) (authority.offer publication subscription)
          current = (.error error, after) ∧ after.store.state = current.store.state) ∨
      (¬ FailsAt random authority start.store.state start.rng start.store.faults publication handled
          subscription ∧
        ∃ pushed after, run (authority.perform random) (authority.offer publication subscription)
          current = (.ok pushed, after) ∧
          Progress random authority start publication (handled ++ [subscription]) rest after ∧
          if selects authority.policy start.store.state publication subscription then
            ∃ frame, pushed = some frame ∧
              Pushes random authority start.store.state publication subscription frame
          else pushed = none) := by
  rw [run_offer, route_congr progress.environments progress.keys]
  cases routed : route authority.policy start.store.state publication subscription with
  | error error =>
      refine .inl ⟨?_, error, current, rfl, rfl⟩
      rw [FailsAt, routed]
      trivial
  | ok decision =>
      cases decision with
      | none =>
          have passed : selects authority.policy start.store.state publication subscription =
              false := by
            rw [selects, routed]
          refine .inr ⟨?_, none, current, rfl, progress.skip passed, ?_⟩
          · rw [FailsAt, routed]
            exact id
          · rw [if_neg (Bool.eq_false_iff.mp passed)]
      | some recipientKeys =>
          have selected : selects authority.policy start.store.state publication subscription =
              true := by
            rw [selects, routed]
          dsimp only
          rw [run_deliverTo, World.drawn]
          dsimp only
          cases made : (authority.delivery random publication.publisher subscription.subscriber
              subscription.handler publication.typeId publication.value recipientKeys.x25519
              current.rng).1 with
          | error error =>
              refine .inl ⟨?_, error, _, rfl, rfl⟩
              rw [FailsAt, routed]
              refine .inl ⟨error, ?_⟩
              rw [← progress.rng]
              exact made
          | ok frame =>
              dsimp only
              rw [delivery_draws made]
              have sealing : sealFor random authority publication subscription recipientKeys
                  ((drawDelivery random)^[handled.countP
                    (selects authority.policy start.store.state publication)] start.rng) =
                  .ok frame := by
                rw [← progress.rng]
                exact made
              have failing : FailsAt random authority start.store.state start.rng
                  start.store.faults publication handled subscription ↔
                  subscription.kind = .oneShot ∧ current.store.faults.headD .none ≠ .none := by
                rw [FailsAt, routed, progress.faults]
                dsimp only
                rw [sealing]
                simp only [reduceCtorEq, exists_false, false_or]
              by_cases claims : subscription.kind = .oneShot ∧
                  current.store.faults.headD .none ≠ .none
              · refine .inl ⟨failing.mpr claims, ?_⟩
                obtain ⟨_, _, error, refused, kept⟩ | ⟨allowed, _⟩ :=
                  progress.settled.claim progress.head_stored
                · exact ⟨error, _, by simp only [World.claimed, refused]; rfl, kept⟩
                · exact absurd claims allowed
              · obtain ⟨claimed, advanced⟩ := progress.deliver selected claims
                refine .inr ⟨failing.not.mpr claims, some frame, _, ?_, advanced, ?_⟩
                · rw [← Prod.eta (World.claimed _ subscription), claimed]
                · rw [if_pos selected]
                  exact ⟨frame, rfl, recipientKeys, _, routed, sealing⟩

/-- The whole loop fails at the first position where `FailsAt` holds and otherwise delivers to
the selected subscriptions in their order. -/
theorem run_deliverAll_cases (progress : Progress random authority start publication handled rest
      current) :
    (∃ earlier subscription later middle error after,
        rest = earlier ++ subscription :: later ∧
        Clear (FailsAt random authority start.store.state start.rng start.store.faults publication)
          handled earlier ∧
        FailsAt random authority start.store.state start.rng start.store.faults publication
          (handled ++ earlier) subscription ∧
        Progress random authority start publication (handled ++ earlier) (subscription :: later)
          middle ∧
        run (authority.perform random) (authority.deliverAll publication rest) current =
          (.error error, after) ∧ after.store.state = middle.store.state) ∨
      (∃ frames after,
        Clear (FailsAt random authority start.store.state start.rng start.store.faults publication)
          handled rest ∧
        run (authority.perform random) (authority.deliverAll publication rest) current =
          (.ok frames, after) ∧
        Progress random authority start publication (handled ++ rest) [] after ∧
        List.Forall₂ (Pushes random authority start.store.state publication)
          (rest.filter (selects authority.policy start.store.state publication)) frames) := by
  induction rest generalizing handled current with
  | nil =>
      refine .inr ⟨[], current, clear_nil handled, rfl, ?_, .nil⟩
      rw [List.append_nil]
      exact progress
  | cons subscription rest ih =>
      rw [run_deliverAll_cons]
      obtain ⟨fails, error, after, ran, kept⟩ | ⟨passes, pushed, after, ran, advanced, result⟩ :=
        run_offer_step progress
      · refine .inl ⟨[], subscription, rest, current, error, after, rfl, clear_nil handled, ?_⟩
        rw [List.append_nil, ran]
        exact ⟨fails, progress, rfl, kept⟩
      · rw [ran]
        dsimp only
        obtain ⟨earlier, failing, later, middle, error, last, split, clear, fails, reached, looped,
          kept⟩ | ⟨frames, last, clear, looped, ended, delivered⟩ := ih advanced
        · refine .inl ⟨subscription :: earlier, failing, later, middle, error, last,
            by rw [split]; rfl, clear_cons.mpr ⟨passes, clear⟩, ?_⟩
          rw [List.append_assoc, List.singleton_append] at fails reached
          rw [looped]
          exact ⟨fails, reached, rfl, kept⟩
        · refine .inr ⟨pushed.toList ++ frames, last, clear_cons.mpr ⟨passes, clear⟩, ?_, ?_, ?_⟩
          · rw [looped]
          · rw [List.append_assoc, List.singleton_append] at ended
            exact ended
          · rw [List.filter_cons]
            split at result
            · rename_i selected
              obtain ⟨frame, same, pushes⟩ := result
              rw [if_pos selected, same]
              exact .cons pushes delivered
            · rename_i passed
              rw [if_neg passed, result]
              exact delivered

end Iterations

/-! ## Publications -/

section Publications

variable {ρ : Type} {random : CryptoRandom ρ} {authority : CertificateAuthority} {world : World ρ}
  {frame : Bytes} {nowSeconds : UInt64} {request : CertificateAuthority.Admitted}
  {publication : Publication}

variable (random) in
/-- The loop of a publication that reaches it starts between two iterations. -/
theorem ReachesLoop.begins
    (reaches : ReachesLoop authority world.store frame nowSeconds request publication) :
    let marked := world.marked request.envelope.sender request.envelope.sessionId nowSeconds
    Progress random authority marked publication []
        (world.store.state.subscriptions.forType publication.typeId) marked ∧
      marked.store.faults = world.store.faults.tail := by
  obtain ⟨publicKeys, admits⟩ := reaches.admits
  obtain ⟨settled, faults⟩ := Store.checkAndMark_settles admits.marked
  refine ⟨⟨rfl, rfl, rfl, ?_, fun _ _ => rfl, rfl, rfl, settled⟩, faults⟩
  rw [World.marked_state]
  rfl

variable (random) in
/-- A publication either ends at its first failing position or answers with its deliveries. -/
theorem handle_publication
    (reaches : ReachesLoop authority world.store frame nowSeconds request publication) :
    let marked := world.marked request.envelope.sender request.envelope.sessionId nowSeconds
    let fails := FailsAt random authority world.store.state world.rng world.store.faults.tail
      publication
    let snapshot := world.store.state.subscriptions.forType publication.typeId
    (∃ earlier failing later middle error after, snapshot = earlier ++ failing :: later ∧
        Clear fails [] earlier ∧ fails earlier failing ∧
        Progress random authority marked publication earlier (failing :: later) middle ∧
        authority.handle random frame nowSeconds world = (.error error, after) ∧
        after.store.state = middle.store.state) ∨
      (∃ frames after, Clear fails [] snapshot ∧
        authority.handle random frame nowSeconds world = (.ok (.deliveries frames), after) ∧
        Progress random authority marked publication snapshot [] after ∧
        List.Forall₂ (Pushes random authority world.store.state publication)
          (snapshot.filter (selects authority.policy world.store.state publication)) frames) := by
  intro marked fails snapshot
  obtain ⟨begun, faults⟩ := reaches.begins random
  have tables : marked.store.state = { world.store.state with
      replay := marked.store.state.replay } :=
    world.marked_state request.envelope.sender request.envelope.sessionId nowSeconds
  have sameFails : FailsAt random authority marked.store.state marked.rng marked.store.faults
      publication = fails := by
    rw [faults, tables]
    rfl
  have sameSelects : selects authority.policy marked.store.state publication =
      selects authority.policy world.store.state publication := by
    rw [tables]
    rfl
  have samePushes : Pushes random authority marked.store.state publication =
      Pushes random authority world.store.state publication := by
    rw [tables]
    rfl
  have sameSnapshot : marked.store.state.subscriptions.forType publication.typeId = snapshot := by
    rw [tables]
  have ran : authority.handle random frame nowSeconds world =
      publicationResult (run (authority.perform random) (authority.deliverAll publication
        (marked.store.state.subscriptions.forType publication.typeId)) marked) :=
    handle_of_reachesLoop reaches
  rw [sameSnapshot] at ran
  have looped := run_deliverAll_cases begun
  rw [sameFails, sameSelects, samePushes] at looped
  obtain ⟨earlier, failing, later, middle, error, after, split, clear, fail, reached, loop, kept⟩ |
    ⟨frames, after, clear, loop, ended, delivered⟩ := looped
  · rw [loop] at ran
    exact .inl ⟨earlier, failing, later, middle, error, after, split, clear, fail, reached, ran,
      kept⟩
  · rw [loop] at ran
    exact .inr ⟨frames, after, clear, ran, ended, delivered⟩

end Publications

end SecurePubSub.Authority

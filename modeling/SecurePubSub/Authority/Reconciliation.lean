import SecurePubSub.Authority.Store

namespace SecurePubSub.Authority

open SecurePubSub.Data SecurePubSub.Data.Fallible SecurePubSub.Protocol

/-! Reconciling the key directory with a configuration.

`Reconciled` says what the tables are afterwards without saying how they are
computed. It determines them, so an accepted call is characterised by it, and
repeating a call in any order finds what it would leave behind.
-/

namespace StoreState

variable {state before after : StoreState} {configured : List (AgentId × PublicKeys)}

/-- An agent of the directory that the configuration lists with the same keys. -/
def keeps (state : StoreState) (configured : List (AgentId × PublicKeys)) (agent : AgentId) : Bool :=
  (state.keys.get agent).any (fun keys => decide ((agent, keys) ∈ configured))

theorem keeps_iff {agent : AgentId} : state.keeps configured agent = true ↔
    ∃ keys, state.keys.get agent = some keys ∧ (agent, keys) ∈ configured := by
  simp [keeps, Option.any_eq_true]

theorem keeps_perm {permuted : List (AgentId × PublicKeys)} (same : permuted.Perm configured) :
    state.keeps permuted = state.keeps configured := by
  funext agent
  simp only [keeps, same.mem_iff]

/-- The tables of a store after its directory was made to match a configuration. -/
structure Reconciled (before : StoreState) (configured : List (AgentId × PublicKeys))
    (after : StoreState) : Prop where
  directory : after.keys.entries.Perm configured
  environments : after.environments.entries =
    before.environments.entries.filter (fun entry => before.keeps configured entry.1)
  subscriptions : ∀ typeId, after.subscriptions.forType typeId =
    (before.subscriptions.forType typeId).filter
      (fun subscription => before.keeps configured subscription.subscriber)
  occupied : ∀ typeId, after.subscriptions.buckets.get typeId ≠ some []
  sessions : after.replay.entries.entries =
    before.replay.entries.entries.filter (fun entry => before.keeps configured (ofLex entry.1).1)
  maximum : after.replay.maximum = before.replay.maximum
  ttlSeconds : after.replay.ttlSeconds = before.replay.ttlSeconds

theorem Reconciled.get_keys (reconciled : Reconciled before configured after) {agent : AgentId}
    {keys : PublicKeys} : after.keys.get agent = some keys ↔ (agent, keys) ∈ configured := by
  rw [SortedMap.get_eq_some, reconciled.directory.mem_iff]

/-- Without empty buckets a table is determined by what it stores for each type. -/
theorem subscriptions_eq {left right : SubscriptionTable}
    (leftOccupied : ∀ typeId, left.buckets.get typeId ≠ some [])
    (rightOccupied : ∀ typeId, right.buckets.get typeId ≠ some [])
    (same : ∀ typeId, left.forType typeId = right.forType typeId) : left = right := by
  have buckets : left.buckets = right.buckets := by
    apply SortedMap.eq_of_get
    intro typeId
    have stored := same typeId
    have leftOccupied := leftOccupied typeId
    have rightOccupied := rightOccupied typeId
    simp only [SubscriptionTable.forType] at stored
    cases leftBucket : left.buckets.get typeId with
    | none =>
        cases rightBucket : right.buckets.get typeId with
        | none => rfl
        | some bucket => simp_all
    | some bucket =>
        cases rightBucket : right.buckets.get typeId with
        | none => simp_all
        | some other => simp_all
  cases left
  cases right
  cases buckets
  rfl

/-- A configuration in any order determines the tables. -/
theorem Reconciled.unique {permuted : List (AgentId × PublicKeys)} {other : StoreState}
    (reconciled : Reconciled before configured after)
    (otherReconciled : Reconciled before permuted other) (same : permuted.Perm configured) :
    other = after := by
  have keys : other.keys = after.keys := by
    apply SortedMap.eq_of_get
    intro agent
    apply Option.ext
    intro held
    rw [otherReconciled.get_keys, reconciled.get_keys, same.mem_iff]
  have kept := @keeps_perm before _ _ same
  have environments : other.environments = after.environments := by
    apply SortedMap.ext
    rw [otherReconciled.environments, reconciled.environments, kept]
  have subscriptions : other.subscriptions = after.subscriptions := by
    apply subscriptions_eq otherReconciled.occupied reconciled.occupied
    intro typeId
    rw [otherReconciled.subscriptions, reconciled.subscriptions, kept]
  have sessions : other.replay.entries = after.replay.entries := by
    apply SortedMap.ext
    rw [otherReconciled.sessions, reconciled.sessions, kept]
  have maximum := otherReconciled.maximum.trans reconciled.maximum.symm
  have ttlSeconds := otherReconciled.ttlSeconds.trans reconciled.ttlSeconds.symm
  obtain ⟨_, _, _, ⟨_, _, _⟩⟩ := other
  obtain ⟨_, _, _, ⟨_, _, _⟩⟩ := after
  simp_all

/-- What is kept belongs to agents that the configuration lists, so all of it is kept again. -/
theorem Reconciled.again {permuted : List (AgentId × PublicKeys)}
    (reconciled : Reconciled before configured after) (same : permuted.Perm configured) :
    Reconciled after permuted after := by
  have stays : ∀ agent, before.keeps configured agent = true →
      after.keeps permuted agent = true := by
    intro agent kept
    obtain ⟨keys, _, listed⟩ := keeps_iff.mp kept
    exact keeps_iff.mpr ⟨keys, reconciled.get_keys.mpr listed, same.mem_iff.mpr listed⟩
  constructor
  · exact reconciled.directory.trans same.symm
  · symm
    apply List.filter_eq_self.mpr
    intro entry member
    rw [reconciled.environments] at member
    exact stays _ (List.mem_filter.mp member).2
  · intro typeId
    symm
    apply List.filter_eq_self.mpr
    intro subscription member
    rw [reconciled.subscriptions] at member
    exact stays _ (List.mem_filter.mp member).2
  · exact reconciled.occupied
  · symm
    apply List.filter_eq_self.mpr
    intro entry member
    rw [reconciled.sessions] at member
    exact stays _ (List.mem_filter.mp member).2
  · rfl
  · rfl

/-! ## The candidate directory -/

theorem configuredKeys_eq_ok {known keys : SortedMap AgentId PublicKeys}
    (accepted : configuredKeys configured known = .ok keys) :
    AgentId.ca ∉ configured.map Prod.fst ∧ (configured.map Prod.fst).Nodup ∧
      (∀ agent ∈ configured.map Prod.fst, known.contains agent = false) ∧
      ∀ agent held, keys.get agent = some held ↔
        (agent, held) ∈ configured ∨ known.get agent = some held := by
  induction configured generalizing known with
  | nil =>
      cases accepted
      simp
  | cons head rest ih =>
      obtain ⟨name, own⟩ := head
      simp only [configuredKeys] at accepted
      split at accepted
      · cases accepted
      · rename_i allowed
        obtain ⟨ordinary, distinct, fresh, listed⟩ := ih accepted
        have notCa : name ≠ .ca := fun same => allowed (.inl same)
        have unknown : known.contains name = false := by
          cases known : known.contains name with
          | false => rfl
          | true => exact absurd (.inr known) allowed
        have later : ∀ agent ∈ rest.map Prod.fst, agent ≠ name ∧ known.contains agent = false := by
          intro agent member
          have absent := fresh agent member
          rw [SortedMap.contains_eq, SortedMap.get_insert] at absent
          by_cases same : agent = name
          · simp [same] at absent
          · rw [if_neg same] at absent
            exact ⟨same, absent⟩
        refine ⟨?_, ?_, ?_, ?_⟩
        · rw [List.map_cons, List.mem_cons, not_or]
          exact ⟨notCa.symm, ordinary⟩
        · rw [List.map_cons, List.nodup_cons]
          exact ⟨fun member => (later name member).1 rfl, distinct⟩
        · intro agent member
          rcases List.mem_cons.mp member with rfl | member
          · exact unknown
          · exact (later agent member).2
        · intro agent held
          have absent : known.get name = none := by
            rw [SortedMap.contains_eq] at unknown
            exact Option.isNone_iff_eq_none.mp (Option.isSome_eq_false_iff.mp unknown)
          rw [listed, SortedMap.get_insert, List.mem_cons, Prod.mk.injEq]
          by_cases same : agent = name
          · subst same
            simp [absent, or_comm, eq_comm]
          · simp [same]

theorem configuredKeys_accepts {known : SortedMap AgentId PublicKeys}
    (ordinary : AgentId.ca ∉ configured.map Prod.fst) (distinct : (configured.map Prod.fst).Nodup)
    (fresh : ∀ agent ∈ configured.map Prod.fst, known.contains agent = false) :
    ∃ keys, configuredKeys configured known = .ok keys := by
  induction configured generalizing known with
  | nil => exact ⟨known, rfl⟩
  | cons head rest ih =>
      obtain ⟨name, own⟩ := head
      rw [List.map_cons, List.mem_cons, not_or] at ordinary
      rw [List.map_cons, List.nodup_cons] at distinct
      have unknown := fresh name (by simp)
      have allowed : ¬ (name = .ca ∨ known.contains name = true) := by
        rintro (same | present)
        · exact ordinary.1 same.symm
        · rw [unknown] at present
          cases present
      rw [configuredKeys, if_neg allowed]
      apply ih ordinary.2 distinct.2
      intro agent member
      have different : agent ≠ name := by
        rintro rfl
        exact distinct.1 member
      have absent := fresh agent (by simp [member])
      rw [SortedMap.contains_eq, SortedMap.get_insert, if_neg different]
      exact absent

theorem unchanged_eq_keeps {keys : SortedMap AgentId PublicKeys}
    (accepted : configuredKeys configured .empty = .ok keys) :
    unchanged state.keys keys = state.keeps configured := by
  obtain ⟨_, _, _, listed⟩ := configuredKeys_eq_ok accepted
  funext agent
  rw [Bool.eq_iff_iff, keeps_iff]
  simp only [SortedMap.get_empty, reduceCtorEq, or_false] at listed
  simp only [← listed, unchanged]
  cases state.keys.get agent with
  | none => simp
  | some old =>
      cases keys.get agent with
      | none => simp
      | some new => simp [eq_comm]

theorem reconcile_reconciled {keys : SortedMap AgentId PublicKeys}
    (accepted : configuredKeys configured .empty = .ok keys) :
    Reconciled state configured (state.reconcile keys) := by
  obtain ⟨_, distinct, _, listed⟩ := configuredKeys_eq_ok accepted
  simp only [SortedMap.get_empty, reduceCtorEq, or_false] at listed
  have kept := @unchanged_eq_keeps state _ _ accepted
  constructor
  · apply (List.perm_ext_iff_of_nodup keys.keys_nodup.of_map distinct.of_map).mpr
    intro entry
    obtain ⟨agent, held⟩ := entry
    exact SortedMap.get_eq_some.symm.trans (listed agent held)
  · simp only [reconcile, SortedMap.retain, kept]
  · intro typeId
    simp only [reconcile, SubscriptionTable.forType_retain, kept]
  · intro typeId
    simp only [reconcile, SubscriptionTable.retain, SortedMap.get_retain]
    intro emptied
    obtain ⟨_, nonempty⟩ := Option.filter_eq_some_iff.mp emptied
    simp at nonempty
  · simp only [reconcile, SortedMap.retain, kept]
  · rfl
  · rfl

end StoreState

namespace PersistentStore

variable {store : PersistentStore} {configured : List (AgentId × PublicKeys)}

/-- The configurations that the checks admit. -/
structure Admissible (store : PersistentStore) (configured : List (AgentId × PublicKeys)) :
    Prop where
  small : configured.length ≤ store.limits.agents
  ordinary : AgentId.ca ∉ configured.map Prod.fst
  distinct : (configured.map Prod.fst).Nodup

theorem not_admissible_iff : ¬ store.Admissible configured ↔
    store.limits.agents < configured.length ∨ AgentId.ca ∈ configured.map Prod.fst ∨
      ¬ (configured.map Prod.fst).Nodup := by
  constructor
  · intro refused
    by_contra checked
    simp only [not_or, not_lt, not_not] at checked
    exact refused ⟨checked.1, checked.2.1, checked.2.2⟩
  · rintro (large | named | repeated) admissible
    · exact Nat.not_le.mpr large admissible.small
    · exact admissible.ordinary named
    · exact repeated admissible.distinct

/-- A call is refused as it stands, or the commit of its candidate decides it. -/
theorem reconcileAgents_cases (store : PersistentStore)
    (configured : List (AgentId × PublicKeys)) :
    (¬ store.Admissible configured ∧
        ∃ error, store.reconcileAgents configured = (.error error, store)) ∨
      (store.Admissible configured ∧
        ∃ next, StoreState.Reconciled store.state configured next ∧
          store.reconcileAgents configured = store.commit next) := by
  rw [reconcileAgents]
  split
  · rename_i large
    refine .inl ⟨fun admissible => ?_, _, rfl⟩
    exact Nat.not_le.mpr large admissible.small
  · rename_i small
    cases built : StoreState.configuredKeys configured .empty with
    | error error =>
        refine .inl ⟨fun admissible => ?_, error, rfl⟩
        obtain ⟨keys, accepted⟩ := @StoreState.configuredKeys_accepts _ .empty
          admissible.ordinary admissible.distinct (fun _ _ => rfl)
        rw [built] at accepted
        cases accepted
    | ok keys =>
        obtain ⟨ordinary, distinct, _⟩ := StoreState.configuredKeys_eq_ok built
        exact .inr ⟨⟨Nat.not_lt.mp small, ordinary, distinct⟩, _,
          StoreState.reconcile_reconciled built, rfl⟩

/-- An accepted call leaves the tables reconciled, and the file holds them. -/
theorem reconcileAgents_of_ok (accepted : (store.reconcileAgents configured).1 = .ok ()) :
    StoreState.Reconciled store.state configured (store.reconcileAgents configured).2.state ∧
      ∃ bytes, encodeState (store.reconcileAgents configured).2.state = .ok bytes ∧
        (store.reconcileAgents configured).2.snapshot.contents = some bytes := by
  obtain ⟨_, error, refused⟩ | ⟨_, next, reconciled, committed⟩ :=
    store.reconcileAgents_cases configured
  · rw [refused] at accepted
    cases accepted
  · rw [committed] at accepted ⊢
    obtain ⟨bytes, encoded, _, saved⟩ := commit_of_ok accepted
    rw [saved]
    exact ⟨reconciled, bytes, encoded, rfl⟩

/-- A failed commit leaves the tables and the file that is there. -/
theorem commit_of_error {next : StoreState} {error : Error}
    (failed : (store.commit next).1 = .error error) :
    (store.commit next).2.state = store.state ∧
      (store.commit next).2.snapshot.contents = store.snapshot.contents := by
  rw [commit] at failed ⊢
  split at failed
  · exact ⟨rfl, rfl⟩
  · split at failed
    · rename_i written
      have kept := SnapshotFile.commit_of_error (congrArg Prod.fst written)
      rw [written] at kept
      exact ⟨rfl, kept⟩
    · cases failed

theorem reconcileAgents_of_error {error : Error}
    (refused : (store.reconcileAgents configured).1 = .error error) :
    (store.reconcileAgents configured).2.state = store.state ∧
      (store.reconcileAgents configured).2.snapshot.contents = store.snapshot.contents := by
  obtain ⟨_, reason, same⟩ | ⟨_, next, _, committed⟩ := store.reconcileAgents_cases configured
  · rw [same]
    exact ⟨rfl, rfl⟩
  · rw [committed] at refused ⊢
    exact commit_of_error refused

theorem reconcileAgents_again {permuted : List (AgentId × PublicKeys)}
    (accepted : (store.reconcileAgents configured).1 = .ok ()) (same : permuted.Perm configured) :
    ((store.reconcileAgents configured).2.reconcileAgents permuted).2.state =
        (store.reconcileAgents configured).2.state ∧
      ((store.reconcileAgents configured).2.reconcileAgents permuted).2.snapshot.contents =
        (store.reconcileAgents configured).2.snapshot.contents := by
  obtain ⟨first, before, encodedBefore, savedBefore⟩ := reconcileAgents_of_ok accepted
  cases second : ((store.reconcileAgents configured).2.reconcileAgents permuted).1 with
  | error error => exact reconcileAgents_of_error second
  | ok done =>
      cases done
      obtain ⟨reconciled, after, encodedAfter, savedAfter⟩ := reconcileAgents_of_ok second
      have tables := (first.again same).unique reconciled (List.Perm.refl _)
      rw [tables, encodedBefore] at encodedAfter
      cases encodedAfter
      exact ⟨tables, savedAfter.trans savedBefore.symm⟩

/-- Reconciliation is exact, can be repeated in any order, and is refused only for these reasons. -/
theorem reconcileAgents_exact (store : PersistentStore)
    (configured : List (AgentId × PublicKeys)) :
    ((store.reconcileAgents configured).1 = .ok () →
      StoreState.Reconciled store.state configured (store.reconcileAgents configured).2.state ∧
      ∀ permuted, permuted.Perm configured →
        ((store.reconcileAgents configured).2.reconcileAgents permuted).2.state =
            (store.reconcileAgents configured).2.state ∧
          ((store.reconcileAgents configured).2.reconcileAgents permuted).2.snapshot.contents =
            (store.reconcileAgents configured).2.snapshot.contents) ∧
    ((∃ error, (store.reconcileAgents configured).1 = .error error) ↔
      store.limits.agents < configured.length ∨ AgentId.ca ∈ configured.map Prod.fst ∨
        ¬ (configured.map Prod.fst).Nodup ∨
        ∃ next error, StoreState.Reconciled store.state configured next ∧
          (store.commit next).1 = .error error) ∧
    ∀ error, (store.reconcileAgents configured).1 = .error error →
      (store.reconcileAgents configured).2.state = store.state := by
  refine ⟨?_, ?_, fun error refused => (reconcileAgents_of_error refused).1⟩
  · intro accepted
    exact ⟨(reconcileAgents_of_ok accepted).1,
      fun permuted => reconcileAgents_again accepted⟩
  obtain ⟨refused, error, same⟩ | ⟨admissible, candidate, own, committed⟩ :=
    store.reconcileAgents_cases configured
  · constructor
    · intro _
      rcases not_admissible_iff.mp refused with large | named | repeated
      · exact .inl large
      · exact .inr (.inl named)
      · exact .inr (.inr (.inl repeated))
    · intro _
      rw [same]
      exact ⟨error, rfl⟩
  · rw [committed]
    constructor
    · rintro ⟨error, failed⟩
      exact .inr (.inr (.inr ⟨candidate, error, own, failed⟩))
    · rintro (large | named | repeated | ⟨next, error, reconciled, failed⟩)
      · exact absurd large (Nat.not_lt.mpr admissible.small)
      · exact absurd named admissible.ordinary
      · exact absurd admissible.distinct repeated
      · rw [reconciled.unique own (List.Perm.refl _)]
        exact ⟨error, failed⟩

end PersistentStore

end SecurePubSub.Authority

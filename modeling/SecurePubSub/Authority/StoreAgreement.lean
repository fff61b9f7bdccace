import SecurePubSub.Authority.StoreCalls

namespace SecurePubSub.Authority

open SecurePubSub.Data SecurePubSub.Data.Fallible SecurePubSub.Protocol

/-! The in-memory store and the file-backed store answer alike.

A rejected session leaves the expired ones purged in memory but not in the file,
and a rejected subscription an empty bucket. Neither shows: while time does not
run backwards, the session tables agree once both are purged at the last time.
-/

/-- The calls of the four store traits. -/
inductive TraitCall where
  | keys (agent : AgentId)
  | provision (agent : AgentId) (keys : PublicKeys)
  | environment (agent : AgentId)
  | setEnvironment (agent : AgentId) (encoded : Bytes)
  | putSubscription (subscription : StoredSubscription)
  | subscriptionsFor (typeId : TypeId)
  | claimSubscription (subscription : StoredSubscription)
  | checkAndMark (sender : AgentId) (session : SessionId) (nowSeconds : UInt64)

/-- Encoded arguments are operations of their kind and type. -/
def TraitCall.Valid : TraitCall → Prop
  | .setEnvironment _ encoded => StateCursor.isEnvironment encoded = true
  | .putSubscription subscription =>
      StateCursor.subscriptionKind subscription.encoded subscription.typeId =
        some subscription.kind
  | _ => True

instance (call : TraitCall) : Decidable call.Valid :=
  match call with
  | .setEnvironment _ encoded => inferInstanceAs (Decidable (StateCursor.isEnvironment encoded = true))
  | .putSubscription subscription =>
      inferInstanceAs (Decidable (StateCursor.subscriptionKind subscription.encoded
        subscription.typeId = some subscription.kind))
  | .keys _ | .provision _ _ | .environment _ | .subscriptionsFor _ | .claimSubscription _
  | .checkAndMark _ _ _ => inferInstanceAs (Decidable True)

def TraitCall.time : TraitCall → Option UInt64
  | .checkAndMark _ _ nowSeconds => some nowSeconds
  | _ => none

def TraitCall.toStoreCall : TraitCall → StoreCall
  | .keys agent => .keys agent
  | .provision agent publicKeys => .provision agent publicKeys
  | .environment agent => .environment agent
  | .setEnvironment agent encoded => .setEnvironment agent encoded
  | .putSubscription subscription => .putSubscription subscription
  | .subscriptionsFor typeId => .subscriptionsFor typeId
  | .claimSubscription subscription => .claimSubscription subscription
  | .checkAndMark sender session nowSeconds => .checkAndMark sender session nowSeconds

namespace MemoryStore

def run (store : MemoryStore) : TraitCall → StoreAnswer × MemoryStore
  | .keys agent => (.keys (store.state.keysOf agent), store)
  | .provision agent keys => (store.provision agent keys).map .done id
  | .environment agent => (.environment (store.state.environments.get agent), store)
  | .setEnvironment agent encoded => (store.setEnvironment agent encoded).map .done id
  | .putSubscription subscription => (store.putSubscription subscription).map .done id
  | .subscriptionsFor typeId => (.subscriptions (store.state.subscriptions.forType typeId), store)
  | .claimSubscription subscription => (store.claimSubscription subscription).map .claimed id
  | .checkAndMark sender session nowSeconds =>
      (store.checkAndMark sender session nowSeconds).map .done id

def answers (store : MemoryStore) : List TraitCall → List StoreAnswer
  | [] => []
  | call :: later => (store.run call).1 :: (store.run call).2.answers later

end MemoryStore

/-- Whether a state can be committed at all. -/
def StoreState.withinBound (state : StoreState) : Bool :=
  match encodeState state with
  | .ok bytes => bytes.length ≤ maxSnapshotLen
  | .error _ => false

namespace PersistentStore

/-- Every state that a sequence of calls commits stays within the snapshot bound. -/
def fits (store : PersistentStore) : List StoreCall → Bool
  | [] => true
  | call :: later =>
      (store.candidate call).all StoreState.withinBound && (store.run call).2.fits later

theorem fits_cons {store : PersistentStore} {call : StoreCall} {later : List StoreCall}
    (bounded : store.fits (call :: later) = true) :
    (∀ next, store.candidate call = some next → next.withinBound = true) ∧
      (store.run call).2.fits later = true := by
  obtain ⟨here, there⟩ := Bool.and_eq_true_iff.mp bounded
  refine ⟨fun next found => ?_, there⟩
  rw [found] at here
  exact here

theorem commit_within {store : PersistentStore} {next : StoreState} (quiet : store.snapshot.Quiet)
    (within : next.withinBound = true) :
    (store.commit next).1 = .ok () ∧ (store.commit next).2.state = next ∧
      (store.commit next).2.limits = store.limits ∧ (store.commit next).2.snapshot.Quiet := by
  rw [StoreState.withinBound] at within
  rw [commit]
  cases encoded : encodeState next with
  | error error => rw [encoded] at within; cases within
  | ok bytes =>
      rw [encoded] at within
      dsimp only
      rw [quiet.commit, if_neg (Nat.not_lt.mpr (of_decide_eq_true within))]
      exact ⟨rfl, rfl, rfl, rfl, rfl⟩

end PersistentStore

/-! ## The simulation -/

theorem ReplayCache.purge_purge (cache : ReplayCache) {early late : UInt64} (ordered : early ≤ late) :
    (cache.purge early).purge late = cache.purge late := by
  have entries : ((cache.purge early).purge late).entries = (cache.purge late).entries := by
    apply SortedMap.eq_of_get
    intro key
    rw [purge_get, purge_get, purge_get]
    cases cache.entries.get key with
    | none => rfl
    | some expires =>
        by_cases alive : late < expires
        · have aliveEarly : early < expires := UInt64.lt_of_le_of_lt ordered alive
          simp [Option.filter, alive, aliveEarly]
        · by_cases aliveEarly : early < expires <;> simp [Option.filter, alive, aliveEarly]
  exact congrArg (fun map : SortedMap ReplayKey UInt64 =>
    ({ cache with entries := map } : ReplayCache)) entries

/-- The outcome of a check depends on what is left after purging. -/
theorem ReplayCache.checkAndMark_of_purge {left right : ReplayCache} {nowSeconds : UInt64}
    (same : left.purge nowSeconds = right.purge nowSeconds) (sender : AgentId)
    (session : SessionId) :
    left.checkAndMark sender session nowSeconds = right.checkAndMark sender session nowSeconds := by
  simp only [checkAndMark, same]

/-- Equal tables but for empty buckets and for sessions that have expired at the given time. -/
structure StoreState.Agrees (time : UInt64) (left right : StoreState) : Prop where
  keys : left.keys = right.keys
  environments : left.environments = right.environments
  subscriptions : left.subscriptions.Same right.subscriptions
  replay : left.replay.purge time = right.replay.purge time

namespace StoreState.Agrees

variable {left right : StoreState} {time : UInt64}

theorem later (agrees : left.Agrees time right) {now : UInt64} (ordered : time ≤ now) :
    left.Agrees now right := by
  have purged := congrArg (ReplayCache.purge · now) agrees.replay
  simp only [ReplayCache.purge_purge _ ordered] at purged
  exact { agrees with replay := purged }

end StoreState.Agrees

/-- The in-memory store and the file-backed one agree at a time, and no file operation fails. -/
structure Mirrors (time : UInt64) (memory : MemoryStore) (store : PersistentStore) : Prop where
  limits : memory.limits = store.limits
  state : memory.state.Agrees time store.state
  quiet : store.snapshot.Quiet

namespace Mirrors

variable {time : UInt64} {memory : MemoryStore} {store : PersistentStore}

theorem commit (mirrors : Mirrors time memory store) {now : UInt64} {edited next : StoreState}
    (within : next.withinBound = true) (agrees : edited.Agrees now next) :
    (store.commit next).1 = .ok () ∧
      Mirrors now { memory with state := edited } (store.commit next).2 := by
  obtain ⟨done, state, limits, quiet⟩ := PersistentStore.commit_within mirrors.quiet within
  exact ⟨done, mirrors.limits.trans limits.symm, by rw [state]; exact agrees, quiet⟩

/-- Edits that are both accepted or both rejected for the same reason. -/
theorem transact (mirrors : Mirrors time memory store) {edited other : Except Error StoreState}
    (within : ∀ next, other.toOption = some next → next.withinBound = true)
    (alike : (∃ error, edited = .error error ∧ other = .error error) ∨
      ∃ next otherNext, edited = .ok next ∧ other = .ok otherNext ∧ next.Agrees time otherNext) :
    (memory.replace edited).1 = (store.transact other).1 ∧
      Mirrors time (memory.replace edited).2 (store.transact other).2 := by
  obtain ⟨error, rfl, rfl⟩ | ⟨next, otherNext, rfl, rfl, agrees⟩ := alike
  · exact ⟨rfl, mirrors⟩
  · obtain ⟨done, mirrored⟩ := mirrors.commit (within otherNext rfl) agrees
    exact ⟨done.symm, mirrored⟩

theorem provision (mirrors : Mirrors time memory store) (agent : AgentId) (keys : PublicKeys)
    (within : ∀ next, store.candidate (.provision agent keys) = some next →
      next.withinBound = true) :
    (memory.provision agent keys).1 = (store.provision agent keys).1 ∧
      Mirrors time (memory.provision agent keys).2 (store.provision agent keys).2 := by
  apply mirrors.transact within
  rw [StoreState.provision, StoreState.provision, mirrors.limits, mirrors.state.keys]
  by_cases reserved : agent = .ca
  · exact .inl ⟨.malformed, by rw [rejectIf_fail _ reserved]; exact ⟨rfl, rfl⟩⟩
  · rw [rejectIf_pass _ reserved]
    by_cases full : store.state.keys.contains agent = false ∧
        store.limits.agents ≤ store.state.keys.size
    · exact .inl ⟨.capacity, by rw [rejectIf_fail _ full]; exact ⟨rfl, rfl⟩⟩
    · rw [rejectIf_pass _ full]
      exact .inr ⟨_, _, rfl, rfl, rfl, mirrors.state.environments, mirrors.state.subscriptions,
        mirrors.state.replay⟩

theorem setEnvironment (mirrors : Mirrors time memory store) {agent : AgentId} {encoded : Bytes}
    (valid : StateCursor.isEnvironment encoded = true)
    (within : ∀ next, store.candidate (.setEnvironment agent encoded) = some next →
      next.withinBound = true) :
    (memory.setEnvironment agent encoded).1 = (store.setEnvironment agent encoded).1 ∧
      Mirrors time (memory.setEnvironment agent encoded).2
        (store.setEnvironment agent encoded).2 := by
  rw [PersistentStore.candidate, if_pos valid] at within
  rw [PersistentStore.setEnvironment, if_pos valid]
  apply mirrors.transact within
  rw [StoreState.setEnvironment, StoreState.setEnvironment, mirrors.limits,
    mirrors.state.environments]
  by_cases full : store.state.environments.contains agent = false ∧
      store.limits.environments ≤ store.state.environments.size
  · exact .inl ⟨.capacity, by rw [rejectIf_fail _ full]; exact ⟨rfl, rfl⟩⟩
  · rw [rejectIf_pass _ full]
    exact .inr ⟨_, _, rfl, rfl, mirrors.state.keys, rfl, mirrors.state.subscriptions,
      mirrors.state.replay⟩

/-- A rejected subscription may leave an empty bucket in memory only. -/
theorem putSubscription (mirrors : Mirrors time memory store) {subscription : StoredSubscription}
    (valid : StateCursor.subscriptionKind subscription.encoded subscription.typeId =
      some subscription.kind)
    (within : ∀ next, store.candidate (.putSubscription subscription) = some next →
      next.withinBound = true) :
    (memory.putSubscription subscription).1 = (store.putSubscription subscription).1 ∧
      Mirrors time (memory.putSubscription subscription).2
        (store.putSubscription subscription).2 := by
  obtain ⟨result, tables⟩ :=
    mirrors.state.subscriptions.put memory.limits.subscriptions subscription
  rw [PersistentStore.candidate, if_pos valid] at within
  rw [PersistentStore.putSubscription, if_pos valid, MemoryStore.putSubscription]
  simp only [StoreState.putSubscription, ← mirrors.limits] at within ⊢
  have agreed : StoreState.Agrees time
      { memory.state with
        subscriptions := (memory.state.subscriptions.put memory.limits.subscriptions
          subscription).2 }
      { store.state with
        subscriptions := (store.state.subscriptions.put memory.limits.subscriptions
          subscription).2 } :=
    ⟨mirrors.state.keys, mirrors.state.environments, tables, mirrors.state.replay⟩
  rw [← result] at within ⊢
  obtain ⟨bucket, _, accepted, _⟩ | ⟨error, rejected, kept⟩ :=
    memory.state.subscriptions.put_cases memory.limits.subscriptions subscription
  · rw [accepted] at within ⊢
    obtain ⟨done, mirrored⟩ := mirrors.commit (within _ rfl) agreed
    exact ⟨done.symm, mirrored⟩
  · rw [rejected]
    have same : (memory.state.subscriptions.put memory.limits.subscriptions subscription).2.Same
        store.state.subscriptions :=
      fun typeId => (kept typeId).trans (mirrors.state.subscriptions typeId)
    exact ⟨rfl, mirrors.limits, { agreed with subscriptions := same }, mirrors.quiet⟩

theorem claimSubscription (mirrors : Mirrors time memory store) (subscription : StoredSubscription)
    (within : ∀ next, store.candidate (.claimSubscription subscription) = some next →
      next.withinBound = true) :
    (memory.claimSubscription subscription).1 = (store.claimSubscription subscription).1 ∧
      Mirrors time (memory.claimSubscription subscription).2
        (store.claimSubscription subscription).2 := by
  obtain ⟨result, tables⟩ := mirrors.state.subscriptions.claim subscription
  have agreed : StoreState.Agrees time
      { memory.state with subscriptions := (memory.state.subscriptions.claim subscription).2 }
      { store.state with subscriptions := (store.state.subscriptions.claim subscription).2 } :=
    ⟨mirrors.state.keys, mirrors.state.environments, tables, mirrors.state.replay⟩
  -- The file-backed store does not touch its table where the other leaves it as it is.
  have unchanged : (store.state.subscriptions.claim subscription).1 = false ∨
      subscription.kind = .permanent →
        Mirrors time (memory.claimSubscription subscription).2 store := by
    intro kept
    rw [SubscriptionTable.claim_unchanged kept] at agreed
    exact ⟨mirrors.limits, agreed, mirrors.quiet⟩
  rw [PersistentStore.candidate] at within
  rw [PersistentStore.claimSubscription, MemoryStore.claimSubscription]
  simp only [StoreState.claimSubscription, result] at within ⊢
  cases kind : subscription.kind with
  | permanent => exact ⟨rfl, unchanged (.inr kind)⟩
  | oneShot =>
      cases held : (store.state.subscriptions.claim subscription).1 with
      | false => exact ⟨rfl, unchanged (.inl held)⟩
      | true =>
          simp only [kind, held] at within
          obtain ⟨done, mirrored⟩ := mirrors.commit (within _ rfl) agreed
          exact ⟨by rw [done]; rfl, mirrored⟩

/-- Time moves on to that of the call, and both purge at it. -/
theorem checkAndMark (mirrors : Mirrors time memory store) {nowSeconds : UInt64}
    (ordered : time ≤ nowSeconds) (sender : AgentId) (session : SessionId)
    (within : ∀ next, store.candidate (.checkAndMark sender session nowSeconds) = some next →
      next.withinBound = true) :
    (memory.checkAndMark sender session nowSeconds).1 =
        (store.checkAndMark sender session nowSeconds).1 ∧
      Mirrors nowSeconds (memory.checkAndMark sender session nowSeconds).2
        (store.checkAndMark sender session nowSeconds).2 := by
  have agrees := mirrors.state.later ordered
  have same := ReplayCache.checkAndMark_of_purge agrees.replay sender session
  rw [PersistentStore.candidate] at within
  rw [PersistentStore.checkAndMark, MemoryStore.checkAndMark]
  simp only [StoreState.checkAndMark, same] at within ⊢
  obtain ⟨error, rejected⟩ | ⟨_, _, accepted⟩ :=
    store.state.replay.checkAndMark_cases sender session nowSeconds
  · have purged : ((store.state.replay.purge nowSeconds).purge nowSeconds) =
        store.state.replay.purge nowSeconds :=
      ReplayCache.purge_purge _ (UInt64.le_refl nowSeconds)
    rw [rejected]
    exact ⟨rfl, mirrors.limits, { agrees with replay := purged }, mirrors.quiet⟩
  · have marked : StoreState.Agrees nowSeconds
        { memory.state with
          replay := (store.state.replay.purge nowSeconds).mark sender session nowSeconds }
        { store.state with
          replay := (store.state.replay.purge nowSeconds).mark sender session nowSeconds } :=
      { agrees with replay := rfl }
    rw [accepted] at within ⊢
    obtain ⟨done, mirrored⟩ := mirrors.commit (within _ rfl) marked
    exact ⟨done.symm, mirrored⟩

theorem run (mirrors : Mirrors time memory store) {call : TraitCall} (valid : call.Valid)
    (ordered : ∀ now, call.time = some now → time ≤ now)
    (within : ∀ next, store.candidate call.toStoreCall = some next → next.withinBound = true) :
    (memory.run call).1 = (store.run call.toStoreCall).1 ∧
      Mirrors (call.time.getD time) (memory.run call).2 (store.run call.toStoreCall).2 := by
  have agrees := mirrors.state
  cases call with
  | keys agent =>
      refine ⟨?_, mirrors⟩
      simp only [MemoryStore.run, TraitCall.toStoreCall, PersistentStore.run, StoreState.keysOf,
        agrees.keys]
  | environment agent =>
      refine ⟨?_, mirrors⟩
      simp only [MemoryStore.run, TraitCall.toStoreCall, PersistentStore.run, agrees.environments]
  | subscriptionsFor typeId =>
      exact ⟨congrArg StoreAnswer.subscriptions (agrees.subscriptions typeId), mirrors⟩
  | provision agent keys =>
      obtain ⟨same, next⟩ := mirrors.provision agent keys within
      exact ⟨congrArg StoreAnswer.done same, next⟩
  | setEnvironment agent encoded =>
      obtain ⟨same, next⟩ := mirrors.setEnvironment valid within
      exact ⟨congrArg StoreAnswer.done same, next⟩
  | putSubscription subscription =>
      obtain ⟨same, next⟩ := mirrors.putSubscription valid within
      exact ⟨congrArg StoreAnswer.done same, next⟩
  | claimSubscription subscription =>
      obtain ⟨same, next⟩ := mirrors.claimSubscription subscription within
      exact ⟨congrArg StoreAnswer.claimed same, next⟩
  | checkAndMark sender session nowSeconds =>
      obtain ⟨same, next⟩ :=
        mirrors.checkAndMark (ordered nowSeconds rfl) sender session within
      exact ⟨congrArg StoreAnswer.done same, next⟩

theorem answers_eq (mirrors : Mirrors time memory store) {calls : List TraitCall}
    (valid : ∀ call ∈ calls, call.Valid)
    (ordered : (time :: calls.filterMap TraitCall.time).Pairwise (· ≤ ·))
    (bounded : store.fits (calls.map TraitCall.toStoreCall) = true) :
    memory.answers calls = store.answers (calls.map TraitCall.toStoreCall) := by
  induction calls generalizing time memory store with
  | nil => rfl
  | cons call later ih =>
      obtain ⟨within, boundedLater⟩ := PersistentStore.fits_cons bounded
      have validLater := fun other member => valid other (List.mem_cons_of_mem call member)
      have orderedCall : ∀ now, call.time = some now → time ≤ now := by
        intro now given
        rw [List.filterMap_cons_some given] at ordered
        exact List.rel_of_pairwise_cons ordered List.mem_cons_self
      have orderedLater :
          (call.time.getD time :: later.filterMap TraitCall.time).Pairwise (· ≤ ·) := by
        cases given : call.time with
        | none =>
            rw [List.filterMap_cons_none given] at ordered
            exact ordered
        | some now =>
            rw [List.filterMap_cons_some given] at ordered
            exact ordered.of_cons
      obtain ⟨same, next⟩ := mirrors.run (valid call List.mem_cons_self) orderedCall within
      rw [List.map_cons, MemoryStore.answers, PersistentStore.answers, same,
        ih next validLater orderedLater boundedLater]

end Mirrors

/-- An in-memory store and a file-backed one created empty with the same limits give the same
answers. -/
theorem stores_agree {limits : StoreLimits} {store : PersistentStore} {calls : List TraitCall}
    (created : PersistentStore.open ⟨none, none, []⟩ limits false = .ok store)
    (valid : ∀ call ∈ calls, call.Valid)
    (ordered : (calls.filterMap TraitCall.time).Pairwise (· ≤ ·))
    (bounded : store.fits (calls.map TraitCall.toStoreCall) = true) :
    (MemoryStore.new limits).answers calls = store.answers (calls.map TraitCall.toStoreCall) := by
  cases created
  have mirrors : Mirrors 0 (MemoryStore.new limits) (PersistentStore.fresh limits) :=
    ⟨rfl, ⟨rfl, rfl, fun _ => rfl, rfl⟩, rfl, rfl⟩
  exact mirrors.answers_eq valid
    (List.pairwise_cons.mpr ⟨fun now _ => UInt64.zero_le, ordered⟩) bounded

/-- A run in which both stores reject a replay, a subscription over the limit and a directory
entry, and the tables left behind differ. -/
def sampleTraitCalls : List TraitCall :=
  [.provision ⟨.fill 16 1⟩ ⟨.fill 32 1, .fill 32 1⟩, .provision .ca ⟨.fill 32 1, .fill 32 1⟩,
    .checkAndMark ⟨.fill 16 1⟩ ⟨.fill 16 4⟩ 600, .checkAndMark ⟨.fill 16 1⟩ ⟨.fill 16 5⟩ 650,
    .checkAndMark ⟨.fill 16 1⟩ ⟨.fill 16 5⟩ 720,
    .setEnvironment ⟨.fill 16 1⟩ (environmentBytes [⟨⟨3⟩, .bool true⟩]),
    .putSubscription (PersistentStore.sampleSubscription ⟨.fill 16 9⟩),
    .putSubscription (PersistentStore.sampleSubscription ⟨.fill 16 8⟩), .subscriptionsFor ⟨5⟩,
    .claimSubscription (PersistentStore.sampleSubscription ⟨.fill 16 9⟩),
    .checkAndMark ⟨.fill 16 1⟩ ⟨.fill 16 4⟩ 720]

theorem sample_stores_agree :
    (MemoryStore.new ⟨8, 8, 1, 8, 100⟩).answers sampleTraitCalls =
      (PersistentStore.fresh ⟨8, 8, 1, 8, 100⟩).answers
        (sampleTraitCalls.map TraitCall.toStoreCall) := by
  apply @stores_agree ⟨8, 8, 1, 8, 100⟩ (PersistentStore.fresh ⟨8, 8, 1, 8, 100⟩) sampleTraitCalls
  · rfl
  · decide +kernel
  · decide +kernel
  · decide +kernel

end SecurePubSub.Authority

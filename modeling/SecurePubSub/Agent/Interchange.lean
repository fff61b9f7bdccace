import SecurePubSub.Agent.ReplayCache
import SecurePubSub.Data.Vacancies

namespace SecurePubSub.AgentCore

open SecurePubSub.Data SecurePubSub.Protocol SecurePubSub.Authority

/-! The two replay caches answer alike.

The relation between them says that the taken slots of the one are the entries
of the other, in some order. It holds of new caches of one capacity, every call
finds both in the same case, and leaves them related again.
-/

structure ReplayCall where
  sender : AgentId
  session : SessionId
  nowSeconds : UInt64

/-- A run of calls with the result of each. -/
def ReplayProtector.run {R : Type} (protector : ReplayProtector R) :
    List ReplayCall → R → List (Except Error Unit) × R
  | [], replay => ([], replay)
  | call :: later, replay =>
      let marked := protector.checkAndMark call.sender call.session call.nowSeconds replay
      let rest := protector.run later marked.2
      (marked.1 :: rest.1, rest.2)

/-- An entry as the ordered cache files it. -/
def ReplayEntry.filed (entry : ReplayEntry) : ReplayKey × UInt64 :=
  (replayKey entry.sender entry.session, entry.expiresAt)

theorem replayKey_inj {sender other : AgentId} {session otherSession : SessionId} :
    replayKey sender session = replayKey other otherSession ↔
      sender = other ∧ session = otherSession := by
  rw [replayKey, replayKey, toLex_inj, Prod.mk.injEq]

theorem ReplayEntry.filed_injective : Function.Injective ReplayEntry.filed := by
  intro left right same
  obtain ⟨sender, session, expiresAt⟩ := left
  obtain ⟨other, otherSession, otherExpiresAt⟩ := right
  obtain ⟨keys, expiries⟩ := Prod.mk.inj same
  obtain ⟨senders, sessions⟩ := replayKey_inj.mp keys
  cases senders
  cases sessions
  cases expiries
  rfl

namespace FixedReplayCache

variable {slots : Nat}

/-- The sessions that are remembered, by slot. -/
def occupied (cache : FixedReplayCache slots) : List ReplayEntry :=
  Vacancies.taken cache.entries

/-- The slots of the one cache hold the entries of the other. -/
structure Agrees (cache : FixedReplayCache slots) (ordered : ReplayCache) : Prop where
  entries : (cache.occupied.map ReplayEntry.filed).Perm ordered.entries.entries
  maximum : ordered.maximum = slots
  ttlSeconds : ordered.ttlSeconds = cache.ttlSeconds

variable {cache : FixedReplayCache slots} {ordered : ReplayCache} {sender : AgentId}
  {session : SessionId} {nowSeconds : UInt64}

theorem occupied_reclaim : (cache.reclaim nowSeconds).occupied =
    cache.occupied.filter (fun entry => decide (nowSeconds < entry.expiresAt)) := by
  have evicted := @Vacancies.taken_evict _ _ cache.entries
    (fun entry => decide (entry.expiresAt ≤ nowSeconds))
  rw [occupied, reclaim, evicted]
  apply List.filter_congr
  intro entry _
  rw [← decide_not, decide_eq_decide]
  exact UInt64.not_le

theorem contains_iff : cache.contains sender session = true ↔
    replayKey sender session ∈ (cache.occupied.map ReplayEntry.filed).map Prod.fst := by
  rw [contains, Vacancies.any_eq_true, List.map_map, List.mem_map]
  simp only [decide_eq_true_eq, Function.comp_apply, ReplayEntry.filed, replayKey_inj]
  rfl

theorem occupy_eq_none {entry : ReplayEntry} :
    cache.occupy entry = none ↔ cache.occupied.length = slots := by
  rw [occupy, Option.map_eq_none_iff]
  exact Vacancies.findVacant_eq_none

theorem occupied_occupy {entry : ReplayEntry} {after : FixedReplayCache slots}
    (stored : cache.occupy entry = some after) :
    after.occupied.Perm (entry :: cache.occupied) ∧ after.ttlSeconds = cache.ttlSeconds := by
  obtain ⟨vacant, found, rfl⟩ := Option.map_eq_some_iff.mp stored
  exact ⟨Vacancies.taken_set_perm entry found, rfl⟩

theorem agrees_new (slots : Nat) (ttlSeconds : UInt64) :
    Agrees (new slots ttlSeconds) (.new slots ttlSeconds) := by
  constructor
  · rw [occupied, new, Vacancies.taken_replicate]
    exact List.Perm.refl _
  · rfl
  · rfl

namespace Agrees

theorem reclaim (agrees : Agrees cache ordered) (nowSeconds : UInt64) :
    Agrees (cache.reclaim nowSeconds) (ordered.purge nowSeconds) := by
  constructor
  · rw [occupied_reclaim]
    have kept := agrees.entries.filter (fun entry => decide (nowSeconds < entry.2))
    rw [List.filter_map] at kept
    exact kept
  · exact agrees.maximum
  · exact agrees.ttlSeconds

theorem contains_eq (agrees : Agrees cache ordered) :
    cache.contains sender session = ordered.entries.contains (replayKey sender session) := by
  rw [Bool.eq_iff_iff, contains_iff, (agrees.entries.map Prod.fst).mem_iff,
    SortedMap.contains_eq, Option.isSome_iff_exists]
  simp only [SortedMap.get_eq_some, List.mem_map, Prod.exists, exists_and_right, exists_eq_right]

theorem size_eq (agrees : Agrees cache ordered) :
    ordered.entries.size = cache.occupied.length := by
  have lengths := agrees.entries.length_eq
  rw [List.length_map] at lengths
  exact lengths.symm

/-- Both caches answer a call alike and agree after it. -/
theorem checkAndMark (agrees : Agrees cache ordered) (sender : AgentId) (session : SessionId)
    (nowSeconds : UInt64) :
    (cache.checkAndMark sender session nowSeconds).1 =
        (ordered.checkAndMark sender session nowSeconds).1 ∧
      Agrees (cache.checkAndMark sender session nowSeconds).2
        (ordered.checkAndMark sender session nowSeconds).2 := by
  have purged := agrees.reclaim nowSeconds
  have known := @contains_eq _ _ _ sender session purged
  have size := purged.size_eq
  have bounded : (cache.reclaim nowSeconds).occupied.length ≤ slots := Vacancies.length_taken_le
  rw [FixedReplayCache.checkAndMark, ReplayCache.checkAndMark, known, size]
  split
  · exact ⟨rfl, purged⟩
  · rename_i absent
    have full := @occupy_eq_none _ (cache.reclaim nowSeconds)
      ⟨sender, session, saturatingAdd nowSeconds (cache.reclaim nowSeconds).ttlSeconds⟩
    cases stored : (cache.reclaim nowSeconds).occupy
        ⟨sender, session, saturatingAdd nowSeconds (cache.reclaim nowSeconds).ttlSeconds⟩ with
    | none =>
        have filled := full.mp stored
        have limit : (ordered.purge nowSeconds).maximum ≤
            (cache.reclaim nowSeconds).occupied.length := by
          rw [purged.maximum, filled]
        rw [if_pos limit]
        exact ⟨rfl, purged⟩
    | some after =>
        have room : (cache.reclaim nowSeconds).occupied.length ≠ slots := by
          intro filled
          rw [full.mpr filled] at stored
          cases stored
        have limit : ¬ (ordered.purge nowSeconds).maximum ≤
            (cache.reclaim nowSeconds).occupied.length := by
          rw [purged.maximum]
          omega
        obtain ⟨added, ttl⟩ := occupied_occupy stored
        rw [if_neg limit]
        refine ⟨rfl, ?_, purged.maximum, purged.ttlSeconds.trans ttl.symm⟩
        have fresh := Bool.eq_false_iff.mpr absent
        have inserted := @SortedMap.entries_insert_perm _ _ _ _ _
          (saturatingAdd nowSeconds (ordered.purge nowSeconds).ttlSeconds) fresh
        have grown := (added.map ReplayEntry.filed).trans (purged.entries.cons _)
        rw [ReplayEntry.filed, ← purged.ttlSeconds] at grown
        exact grown.trans inserted.symm

theorem run (agrees : Agrees cache ordered) (calls : List ReplayCall) :
    ((protector slots).run calls cache).1 = (replayCacheProtector.run calls ordered).1 ∧
      Agrees ((protector slots).run calls cache).2 (replayCacheProtector.run calls ordered).2 := by
  induction calls generalizing cache ordered with
  | nil => exact ⟨rfl, agrees⟩
  | cons call later ih =>
      obtain ⟨result, after⟩ := agrees.checkAndMark call.sender call.session call.nowSeconds
      obtain ⟨results, last⟩ := ih after
      exact ⟨congrArg₂ List.cons result results, last⟩

end Agrees

end FixedReplayCache

/-- Whatever calls are made, at whatever times, the two caches return the same results and
remember the same sessions until the same times, each once. -/
theorem replayCaches_interchangeable (slots : Nat) (ttlSeconds : UInt64)
    (calls : List ReplayCall) :
    let fixed := (FixedReplayCache.protector slots).run calls (.new slots ttlSeconds)
    let ordered := replayCacheProtector.run calls (.new slots ttlSeconds)
    fixed.1 = ordered.1 ∧
      (∀ sender session expires, some ⟨sender, session, expires⟩ ∈ fixed.2.entries ↔
        ordered.2.entries.get (replayKey sender session) = some expires) ∧
      (fixed.2.occupied.map ReplayEntry.filed).Perm ordered.2.entries.entries := by
  intro fixed ordered
  obtain ⟨results, agrees⟩ :=
    (FixedReplayCache.agrees_new slots ttlSeconds).run calls
  refine ⟨results, ?_, agrees.entries⟩
  intro sender session expires
  have filed := @List.mem_map_of_injective _ _ _ ReplayEntry.filed_injective
    ⟨sender, session, expires⟩ fixed.2.occupied
  rw [← Vacancies.mem_taken, SortedMap.get_eq_some, ← agrees.entries.mem_iff]
  exact filed.symm

end SecurePubSub.AgentCore

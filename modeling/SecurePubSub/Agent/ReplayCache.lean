import SecurePubSub.Agent.Core
import SecurePubSub.Authority.Replay

namespace SecurePubSub.AgentCore

open SecurePubSub.Data SecurePubSub.Protocol SecurePubSub.Authority

/-! The replay protectors an Agent can be given and the law that both obey.

An accepted session is remembered until it expires. Until then it is refused, and no call,
whether it is accepted or not, makes the protector forget it.
-/

structure ReplayEntry where
  sender : AgentId
  session : SessionId
  expiresAt : UInt64

/-- Fixed-capacity replay protector for embedded Agents. -/
structure FixedReplayCache (slots : Nat) where
  entries : Vector (Option ReplayEntry) slots
  ttlSeconds : UInt64

namespace FixedReplayCache

variable {slots : Nat}

def new (slots : Nat) (ttlSeconds : UInt64) : FixedReplayCache slots :=
  ⟨.replicate slots none, ttlSeconds⟩

/-- Empties every slot whose entry has expired. -/
def reclaim (cache : FixedReplayCache slots) (nowSeconds : UInt64) : FixedReplayCache slots :=
  { cache with
    entries := cache.entries.map fun entry =>
      if entry.any (fun entry => decide (entry.expiresAt ≤ nowSeconds)) then none else entry }

def contains (cache : FixedReplayCache slots) (sender : AgentId) (session : SessionId) : Bool :=
  cache.entries.any fun entry =>
    entry.any fun entry => decide (entry.sender = sender ∧ entry.session = session)

/-- Puts an entry into the first vacant slot. -/
def occupy (cache : FixedReplayCache slots) (entry : ReplayEntry) :
    Option (FixedReplayCache slots) :=
  (cache.entries.findFinIdx? Option.isNone).map fun (vacant : Fin slots) =>
    { cache with entries := cache.entries.set vacant (some entry) }

def checkAndMark (cache : FixedReplayCache slots) (sender : AgentId) (session : SessionId)
    (nowSeconds : UInt64) : Except Error Unit × FixedReplayCache slots :=
  let cache := cache.reclaim nowSeconds
  if cache.contains sender session then (.error .replay, cache)
  else
    match cache.occupy ⟨sender, session, saturatingAdd nowSeconds cache.ttlSeconds⟩ with
    | none => (.error .capacity, cache)
    | some cache => (.ok (), cache)

end FixedReplayCache

def FixedReplayCache.protector (slots : Nat) : ReplayProtector (FixedReplayCache slots) :=
  ⟨fun sender session nowSeconds cache => cache.checkAndMark sender session nowSeconds⟩

def replayCacheProtector : ReplayProtector ReplayCache :=
  ⟨fun sender session nowSeconds cache => cache.checkAndMark sender session nowSeconds⟩

/-- The protector `holds` an accepted session until it expires. -/
structure Remembers {R : Type} (protector : ReplayProtector R) (ttlSeconds : R → UInt64)
    (holds : R → AgentId → SessionId → UInt64 → Prop) : Prop where
  marked : ∀ {replay sender session nowSeconds},
    (protector.checkAndMark sender session nowSeconds replay).1 = .ok () →
    holds (protector.checkAndMark sender session nowSeconds replay).2 sender session
      (saturatingAdd nowSeconds (ttlSeconds replay))
  refused : ∀ {replay sender session expires nowSeconds}, holds replay sender session expires →
    nowSeconds < expires → (protector.checkAndMark sender session nowSeconds replay).1 ≠ .ok ()
  kept : ∀ {replay sender session expires nowSeconds} (other otherSession),
    holds replay sender session expires → nowSeconds < expires →
    holds (protector.checkAndMark other otherSession nowSeconds replay).2 sender session expires
  ttl : ∀ {replay} (sender session nowSeconds),
    ttlSeconds (protector.checkAndMark sender session nowSeconds replay).2 = ttlSeconds replay

namespace FixedReplayCache

variable {slots : Nat} {cache : FixedReplayCache slots} {entry : ReplayEntry}
  {sender : AgentId} {session : SessionId} {nowSeconds : UInt64}

theorem reclaim_keeps (held : some entry ∈ cache.entries) (live : nowSeconds < entry.expiresAt) :
    some entry ∈ (cache.reclaim nowSeconds).entries := by
  have kept : (some entry).any (fun entry => decide (entry.expiresAt ≤ nowSeconds)) = false := by
    rw [Option.any_some, decide_eq_false_iff_not]
    exact UInt64.not_le.mpr live
  apply Vector.mem_map.mpr
  exact ⟨some entry, held, by rw [kept]; rfl⟩

theorem contains_of_mem (held : some entry ∈ cache.entries) :
    cache.contains entry.sender entry.session = true := by
  obtain ⟨index, inside, found⟩ := Vector.mem_iff_getElem.mp held
  apply Vector.any_eq_true.mpr
  refine ⟨index, inside, ?_⟩
  rw [found, Option.any_some]
  exact decide_eq_true ⟨rfl, rfl⟩

theorem occupy_eq_some {after : FixedReplayCache slots} (occupied : cache.occupy entry = some after) :
    after.ttlSeconds = cache.ttlSeconds ∧ some entry ∈ after.entries ∧
      ∀ {other : ReplayEntry}, some other ∈ cache.entries → some other ∈ after.entries := by
  obtain ⟨vacant, found, rfl⟩ := Option.map_eq_some_iff.mp occupied
  obtain ⟨position, located, rfl⟩ := Option.map_eq_some_iff.mp found
  have empty := (Array.findFinIdx?_eq_some_iff.mp located).1
  refine ⟨rfl, ?_, fun {other} held => ?_⟩
  · apply Vector.mem_iff_getElem.mpr
    exact ⟨_, Fin.isLt _, Vector.getElem_set_self _⟩
  · obtain ⟨index, inside, same⟩ := Vector.mem_iff_getElem.mp held
    apply Vector.mem_iff_getElem.mpr
    refine ⟨index, inside, ?_⟩
    rw [Vector.getElem_set_ne _ inside, same]
    intro clash
    subst clash
    change cache.entries.toArray[position] = some other at same
    rw [same] at empty
    cases empty

/-- All that one call can do: empty expired slots and, on success, fill a vacant one. -/
theorem checkAndMark_cases (cache : FixedReplayCache slots) (sender : AgentId)
    (session : SessionId) (nowSeconds : UInt64) :
    (∃ error, cache.checkAndMark sender session nowSeconds =
      (.error error, cache.reclaim nowSeconds)) ∨
    (cache.reclaim nowSeconds).contains sender session = false ∧
      ∃ after, (cache.reclaim nowSeconds).occupy
          ⟨sender, session, saturatingAdd nowSeconds cache.ttlSeconds⟩ = some after ∧
        cache.checkAndMark sender session nowSeconds = (.ok (), after) := by
  simp only [checkAndMark]
  split
  · exact .inl ⟨_, rfl⟩
  · rename_i absent
    split
    · exact .inl ⟨_, rfl⟩
    · rename_i after occupied
      exact .inr ⟨Bool.eq_false_iff.mpr absent, after, occupied, rfl⟩

theorem remembers (slots : Nat) :
    Remembers (protector slots) ttlSeconds
      (fun cache sender session expires => some ⟨sender, session, expires⟩ ∈ cache.entries) where
  marked := by
    intro cache sender session nowSeconds accepted
    change (cache.checkAndMark sender session nowSeconds).1 = _ at accepted
    change _ ∈ (cache.checkAndMark sender session nowSeconds).2.entries
    obtain ⟨error, rejected⟩ | ⟨_, after, occupied, result⟩ :=
      cache.checkAndMark_cases sender session nowSeconds
    · rw [rejected] at accepted
      cases accepted
    · rw [result]
      exact (occupy_eq_some occupied).2.1
  refused := by
    intro cache sender session expires nowSeconds held live accepted
    change (cache.checkAndMark sender session nowSeconds).1 = _ at accepted
    obtain ⟨error, rejected⟩ | ⟨absent, _⟩ := cache.checkAndMark_cases sender session nowSeconds
    · rw [rejected] at accepted
      cases accepted
    · have present := contains_of_mem (reclaim_keeps held live)
      rw [absent] at present
      cases present
  kept := by
    intro cache sender session expires nowSeconds other otherSession held live
    change _ ∈ (cache.checkAndMark other otherSession nowSeconds).2.entries
    have remaining := reclaim_keeps held live
    obtain ⟨error, rejected⟩ | ⟨_, after, occupied, result⟩ :=
      cache.checkAndMark_cases other otherSession nowSeconds
    · rw [rejected]
      exact remaining
    · rw [result]
      exact (occupy_eq_some occupied).2.2 remaining
  ttl := by
    intro cache sender session nowSeconds
    change (cache.checkAndMark sender session nowSeconds).2.ttlSeconds = cache.ttlSeconds
    obtain ⟨error, rejected⟩ | ⟨_, after, occupied, result⟩ :=
      cache.checkAndMark_cases sender session nowSeconds
    · rw [rejected]
      rfl
    · rw [result]
      exact (occupy_eq_some occupied).1

end FixedReplayCache

theorem replayCache_remembers :
    Remembers replayCacheProtector ReplayCache.ttlSeconds
      (fun cache sender session expires =>
        cache.entries.get (replayKey sender session) = some expires) where
  marked := by
    intro cache sender session nowSeconds accepted
    change (cache.checkAndMark sender session nowSeconds).1 = _ at accepted
    change (cache.checkAndMark sender session nowSeconds).2.entries.get _ = _
    obtain ⟨error, rejected⟩ | ⟨_, _, result⟩ := cache.checkAndMark_cases sender session nowSeconds
    · rw [rejected] at accepted
      cases accepted
    · rw [result, ReplayCache.mark_get, if_pos rfl]
      rfl
  refused := by
    intro cache sender session expires nowSeconds held live accepted
    change (cache.checkAndMark sender session nowSeconds).1 = _ at accepted
    obtain ⟨error, rejected⟩ | ⟨absent, _⟩ := cache.checkAndMark_cases sender session nowSeconds
    · rw [rejected] at accepted
      cases accepted
    · rw [SortedMap.contains_eq, ReplayCache.purge_get, held] at absent
      simp [live] at absent
  kept := by
    intro cache sender session expires nowSeconds other otherSession held live
    change (cache.checkAndMark other otherSession nowSeconds).2.entries.get _ = _
    have remaining : (cache.purge nowSeconds).entries.get (replayKey sender session) =
        some expires := by
      rw [ReplayCache.purge_get, held, Option.filter_some, decide_eq_true live, if_pos rfl]
    obtain ⟨error, rejected⟩ | ⟨absent, _, result⟩ :=
      cache.checkAndMark_cases other otherSession nowSeconds
    · rw [rejected]
      exact remaining
    · have different : replayKey sender session ≠ replayKey other otherSession := by
        intro same
        rw [← same, SortedMap.contains_eq, remaining] at absent
        cases absent
      rw [result, ReplayCache.mark_get, if_neg different]
      exact remaining
  ttl := by
    intro cache sender session nowSeconds
    exact (cache.checkAndMark_bounds sender session nowSeconds).2

end SecurePubSub.AgentCore

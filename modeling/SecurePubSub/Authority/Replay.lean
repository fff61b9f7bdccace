import Mathlib.Data.Prod.Lex
import SecurePubSub.Data.SortedMap
import SecurePubSub.Protocol.Types

namespace SecurePubSub.Authority

open SecurePubSub.Data SecurePubSub.Protocol

/-! The bounded replay cache. -/

abbrev ReplayKey := AgentId ×ₗ SessionId

def replayKey (sender : AgentId) (session : SessionId) : ReplayKey := toLex (sender, session)

/-- Bounded deterministic replay cache. Capacity exhaustion fails closed. -/
structure ReplayCache where
  entries : SortedMap ReplayKey UInt64
  maximum : Nat
  ttlSeconds : UInt64

namespace ReplayCache

def new (maximum : Nat) (ttlSeconds : UInt64) : ReplayCache := ⟨.empty, maximum, ttlSeconds⟩

/-- Drops every entry whose expiry has been reached. -/
def purge (cache : ReplayCache) (nowSeconds : UInt64) : ReplayCache :=
  { cache with entries := cache.entries.retain (fun _ expires => decide (nowSeconds < expires)) }

def mark (cache : ReplayCache) (sender : AgentId) (session : SessionId) (nowSeconds : UInt64) :
    ReplayCache :=
  let expires := saturatingAdd nowSeconds cache.ttlSeconds
  { cache with entries := cache.entries.insert (replayKey sender session) expires }

/-- Checks and marks one session. Expired entries are gone also when it is rejected. -/
def checkAndMark (cache : ReplayCache) (sender : AgentId) (session : SessionId)
    (nowSeconds : UInt64) : Except Error Unit × ReplayCache :=
  let cache := cache.purge nowSeconds
  if cache.entries.contains (replayKey sender session) then (.error .replay, cache)
  else if cache.maximum ≤ cache.entries.size then (.error .capacity, cache)
  else (.ok (), cache.mark sender session nowSeconds)

/-- All that one call can do: drop expired entries and, on success, add one session. -/
theorem checkAndMark_cases (cache : ReplayCache) (sender : AgentId) (session : SessionId)
    (nowSeconds : UInt64) :
    (∃ error, cache.checkAndMark sender session nowSeconds = (.error error, cache.purge nowSeconds)) ∨
      ((cache.purge nowSeconds).entries.contains (replayKey sender session) = false ∧
        (cache.purge nowSeconds).entries.size < cache.maximum ∧
        cache.checkAndMark sender session nowSeconds =
          (.ok (), (cache.purge nowSeconds).mark sender session nowSeconds)) := by
  simp only [checkAndMark]
  split
  · exact .inl ⟨_, rfl⟩
  · rename_i absent
    split
    · exact .inl ⟨_, rfl⟩
    · rename_i room
      exact .inr ⟨Bool.eq_false_iff.mpr absent, Nat.not_le.mp room, rfl⟩

theorem purge_get (cache : ReplayCache) (nowSeconds : UInt64) (key : ReplayKey) :
    (cache.purge nowSeconds).entries.get key =
      (cache.entries.get key).filter (fun expires => decide (nowSeconds < expires)) :=
  SortedMap.get_retain _ _ _

theorem mark_get (cache : ReplayCache) (sender : AgentId) (session : SessionId)
    (nowSeconds : UInt64) (key : ReplayKey) :
    (cache.mark sender session nowSeconds).entries.get key =
      if key = replayKey sender session then some (saturatingAdd nowSeconds cache.ttlSeconds)
      else cache.entries.get key :=
  SortedMap.get_insert _ _ _ _

theorem checkAndMark_bounds (cache : ReplayCache) (sender : AgentId) (session : SessionId)
    (nowSeconds : UInt64) :
    (cache.checkAndMark sender session nowSeconds).2.maximum = cache.maximum ∧
      (cache.checkAndMark sender session nowSeconds).2.ttlSeconds = cache.ttlSeconds := by
  obtain ⟨error, rejected⟩ | ⟨_, _, accepted⟩ :=
    cache.checkAndMark_cases sender session nowSeconds
  · rw [rejected]
    exact ⟨rfl, rfl⟩
  · rw [accepted]
    exact ⟨rfl, rfl⟩

theorem checkAndMark_size (cache : ReplayCache) (sender : AgentId) (session : SessionId)
    (nowSeconds : UInt64) (bounded : cache.entries.size ≤ cache.maximum) :
    (cache.checkAndMark sender session nowSeconds).2.entries.size ≤ cache.maximum := by
  have purged : (cache.purge nowSeconds).entries.size ≤ cache.maximum :=
    Nat.le_trans (SortedMap.size_retain_le _ _) bounded
  obtain ⟨error, rejected⟩ | ⟨_, room, accepted⟩ :=
    cache.checkAndMark_cases sender session nowSeconds
  · rw [rejected]
    exact purged
  · rw [accepted]
    exact SortedMap.size_insert_le_of_room purged (.inr room)

end ReplayCache

end SecurePubSub.Authority

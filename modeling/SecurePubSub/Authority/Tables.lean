import Mathlib.Data.List.Sort
import SecurePubSub.Authority.Replay

namespace SecurePubSub.Authority

open SecurePubSub.Data SecurePubSub.Protocol

/-! The tables of a CA store.

`MemoryStore` and `PersistentState` hold the same four tables. The type of the
subscription table records that every entry lies in the bucket of its own type,
which holds of every table either store can build or load.
-/

/-- Provisioned public keys of one Agent. -/
structure PublicKeys where
  ed25519 : Key32
  x25519 : Key32
deriving DecidableEq

/-- Lifetime of a stored subscription. -/
inductive SubscriptionKind where
  | oneShot
  | permanent
deriving DecidableEq

/-- Stored subscription with its canonical encoded operation. -/
structure StoredSubscription where
  subscriber : AgentId
  typeId : TypeId
  handler : HandlerId
  kind : SubscriptionKind
  encoded : Bytes
deriving DecidableEq

/-- Explicit store limits. -/
structure StoreLimits where
  agents : Nat
  environments : Nat
  subscriptions : Nat
  replays : Nat
  replayTtlSeconds : UInt64

/-- The key by which a bucket is sorted and its entries are replaced. -/
def StoredSubscription.slot (subscription : StoredSubscription) : AgentId ×ₗ HandlerId :=
  toLex (subscription.subscriber, subscription.handler)

/-- Overwrites the first entry of the same slot. -/
def replaceFirst (subscription : StoredSubscription) :
    List StoredSubscription → Option (List StoredSubscription)
  | [] => none
  | entry :: rest =>
      if entry.slot = subscription.slot then some (subscription :: rest)
      else (replaceFirst subscription rest).map (entry :: ·)

def sortBucket (bucket : List StoredSubscription) : List StoredSubscription :=
  bucket.insertionSort (fun left right => left.slot ≤ right.slot)

/-- The bucket after `put_subscription`, where `count` subscriptions are stored in all. -/
def upsert (count maximum : Nat) (bucket : List StoredSubscription)
    (subscription : StoredSubscription) : Except Error (List StoredSubscription) :=
  match replaceFirst subscription bucket with
  | some replaced => .ok replaced
  | none =>
      if maximum ≤ count then .error .capacity
      else .ok (sortBucket (bucket ++ [subscription]))

theorem replaceFirst_eq_some {subscription : StoredSubscription}
    {bucket replaced : List StoredSubscription}
    (found : replaceFirst subscription bucket = some replaced) :
    ∃ front old back, bucket = front ++ old :: back ∧ replaced = front ++ subscription :: back ∧
      old.slot = subscription.slot := by
  induction bucket generalizing replaced with
  | nil => cases found
  | cons entry rest ih =>
      simp only [replaceFirst] at found
      split at found
      · rename_i same
        cases found
        exact ⟨[], entry, rest, rfl, rfl, same⟩
      · obtain ⟨later, foundLater, joined⟩ := Option.map_eq_some_iff.mp found
        obtain ⟨front, old, back, split, result, same⟩ := ih foundLater
        refine ⟨entry :: front, old, back, by rw [split]; rfl, ?_, same⟩
        rw [← joined, result]
        rfl

theorem replaceFirst_eq_none {subscription : StoredSubscription}
    {bucket : List StoredSubscription} (absent : replaceFirst subscription bucket = none) :
    ∀ entry ∈ bucket, entry.slot ≠ subscription.slot := by
  induction bucket with
  | nil => exact fun _ member => nomatch member
  | cons entry rest ih =>
      simp only [replaceFirst] at absent
      split at absent
      · cases absent
      · rename_i different
        have later := ih (Option.map_eq_none_iff.mp absent)
        intro candidate member
        cases List.mem_cons.mp member with
        | inl same => exact same ▸ different
        | inr inRest => exact later candidate inRest

/-- A successful upsert either overwrites one entry in place or files a new one in order. -/
theorem upsert_eq_ok {count maximum : Nat} {bucket after : List StoredSubscription}
    {subscription : StoredSubscription}
    (stored : upsert count maximum bucket subscription = .ok after) :
    (∃ front old back, bucket = front ++ old :: back ∧ after = front ++ subscription :: back ∧
        old.slot = subscription.slot) ∨
      ((∀ entry ∈ bucket, entry.slot ≠ subscription.slot) ∧ count < maximum ∧
        after = sortBucket (bucket ++ [subscription])) := by
  simp only [upsert] at stored
  split at stored
  · rename_i replaced found
    cases stored
    exact .inl (replaceFirst_eq_some found)
  · rename_i absent
    split at stored
    · cases stored
    · rename_i room
      cases stored
      exact .inr ⟨replaceFirst_eq_none absent, Nat.not_le.mp room, rfl⟩

theorem mem_sortBucket {bucket : List StoredSubscription} {subscription : StoredSubscription} :
    subscription ∈ sortBucket bucket ↔ subscription ∈ bucket :=
  List.mem_insertionSort _

theorem mem_of_mem_upsert {count maximum : Nat} {bucket after : List StoredSubscription}
    {subscription candidate : StoredSubscription}
    (stored : upsert count maximum bucket subscription = .ok after) (member : candidate ∈ after) :
    candidate = subscription ∨ candidate ∈ bucket := by
  obtain ⟨front, old, back, split, result, _⟩ | ⟨_, _, result⟩ := upsert_eq_ok stored
  · subst split result
    simp only [List.mem_append, List.mem_cons] at member ⊢
    tauto
  · rw [result, mem_sortBucket, List.mem_append, List.mem_singleton] at member
    exact member.symm

theorem mem_upsert {count maximum : Nat} {bucket after : List StoredSubscription}
    {subscription : StoredSubscription}
    (stored : upsert count maximum bucket subscription = .ok after) : subscription ∈ after := by
  obtain ⟨front, old, back, _, result, _⟩ | ⟨_, _, result⟩ := upsert_eq_ok stored
  · rw [result]
    exact List.mem_append_right _ List.mem_cons_self
  · rw [result, mem_sortBucket]
    exact List.mem_append_right _ List.mem_cons_self

/-- Entries in strictly increasing slot order, hence no two of one slot. -/
def BucketSorted (bucket : List StoredSubscription) : Prop :=
  bucket.Pairwise (fun left right => left.slot < right.slot)

theorem bucketSorted_iff_map {bucket : List StoredSubscription} :
    BucketSorted bucket ↔ (bucket.map StoredSubscription.slot).Pairwise (· < ·) := by
  rw [BucketSorted, List.pairwise_map]

theorem bucketSorted_upsert {count maximum : Nat} {bucket after : List StoredSubscription}
    {subscription : StoredSubscription} (sorted : BucketSorted bucket)
    (stored : upsert count maximum bucket subscription = .ok after) : BucketSorted after := by
  obtain ⟨front, old, back, split, result, same⟩ | ⟨absent, _, result⟩ := upsert_eq_ok stored
  · rw [bucketSorted_iff_map] at sorted ⊢
    rw [split, List.map_append, List.map_cons, same] at sorted
    rw [result, List.map_append, List.map_cons]
    exact sorted
  · subst result
    have ordered : (sortBucket (bucket ++ [subscription])).Pairwise
        (fun left right => left.slot ≤ right.slot) := by
      have total : Std.Total (fun left right : StoredSubscription => left.slot ≤ right.slot) :=
        ⟨fun left right => le_total left.slot right.slot⟩
      have transitive : IsTrans StoredSubscription (fun left right => left.slot ≤ right.slot) :=
        ⟨fun _ _ _ => le_trans⟩
      exact List.pairwise_insertionSort _ _
    have distinct : (bucket ++ [subscription]).Pairwise
        (fun left right => left.slot ≠ right.slot) := by
      refine List.pairwise_append.mpr ⟨sorted.imp ne_of_lt, List.pairwise_singleton _ _, ?_⟩
      intro entry member other last
      rw [List.mem_singleton.mp last]
      exact absent entry member
    have apart : (sortBucket (bucket ++ [subscription])).Pairwise
        (fun left right => left.slot ≠ right.slot) :=
      ((List.perm_insertionSort _ _).pairwise_iff (fun different => Ne.symm different)).mpr distinct
    exact (ordered.and apart).imp (fun both => lt_of_le_of_ne both.1 both.2)

theorem bucketSorted_erase {bucket : List StoredSubscription} (sorted : BucketSorted bucket)
    (subscription : StoredSubscription) : BucketSorted (bucket.erase subscription) :=
  sorted.sublist List.erase_sublist

/-- Subscriptions indexed by publication type. -/
structure SubscriptionTable where
  buckets : SortedMap TypeId (List StoredSubscription)
  filed : ∀ entry ∈ buckets.entries, ∀ subscription ∈ entry.2, subscription.typeId = entry.1

namespace SubscriptionTable

def empty : SubscriptionTable := ⟨.empty, fun _ member => nomatch member⟩

def forType (table : SubscriptionTable) (typeId : TypeId) : List StoredSubscription :=
  (table.buckets.get typeId).getD []

def count (table : SubscriptionTable) : Nat := table.buckets.total List.length

theorem typeId_of_mem {table : SubscriptionTable} {typeId : TypeId}
    {subscription : StoredSubscription} (member : subscription ∈ table.forType typeId) :
    subscription.typeId = typeId := by
  cases found : table.buckets.get typeId with
  | none => simp [forType, found] at member
  | some bucket =>
      have inside : subscription ∈ bucket := by simpa [forType, found] using member
      exact table.filed (typeId, bucket) (SortedMap.get_eq_some.mp found) subscription inside

def setBucket (table : SubscriptionTable) (typeId : TypeId) (bucket : List StoredSubscription)
    (own : ∀ subscription ∈ bucket, subscription.typeId = typeId) : SubscriptionTable where
  buckets := table.buckets.insert typeId bucket
  filed := by
    intro entry member
    cases SortedMap.mem_insertEntry member with
    | inl same => exact same ▸ own
    | inr old => exact table.filed entry old

theorem forType_setBucket (table : SubscriptionTable) (typeId wanted : TypeId)
    (bucket : List StoredSubscription)
    (own : ∀ subscription ∈ bucket, subscription.typeId = typeId) :
    (table.setBucket typeId bucket own).forType wanted =
      if wanted = typeId then bucket else table.forType wanted := by
  by_cases hit : wanted = typeId <;> simp [setBucket, forType, hit]

/-- Replacing a bucket changes the count by the difference of the lengths. -/
theorem count_setBucket (table : SubscriptionTable) (typeId : TypeId)
    (bucket : List StoredSubscription)
    (own : ∀ subscription ∈ bucket, subscription.typeId = typeId) :
    (table.setBucket typeId bucket own).count + (table.forType typeId).length =
      table.count + bucket.length := by
  have traded := table.buckets.total_insert List.length typeId bucket
  have held : (table.forType typeId).length =
      (table.buckets.get typeId).elim 0 List.length := by
    rw [forType]
    cases table.buckets.get typeId <;> rfl
  rw [held]
  exact traded

theorem typeId_of_mem_upsert {table : SubscriptionTable} {maximum : Nat}
    {subscription : StoredSubscription} {bucket : List StoredSubscription}
    (stored : upsert table.count maximum (table.forType subscription.typeId) subscription =
      .ok bucket) : ∀ entry ∈ bucket, entry.typeId = subscription.typeId := by
  intro entry member
  cases mem_of_mem_upsert stored member with
  | inl same => exact same ▸ rfl
  | inr old => exact typeId_of_mem old

/-- Upserts by subscriber, type and handler. A rejected call leaves its bucket behind, empty
when it was absent. -/
def put (table : SubscriptionTable) (maximum : Nat) (subscription : StoredSubscription) :
    Except Error Unit × SubscriptionTable :=
  let typeId := subscription.typeId
  match stored : upsert table.count maximum (table.forType typeId) subscription with
  | .ok bucket => (.ok (), table.setBucket typeId bucket (typeId_of_mem_upsert stored))
  | .error error =>
      (.error error, table.setBucket typeId (table.forType typeId) (fun _ => typeId_of_mem))

/-- Removes a one-shot entry that is still stored; a permanent entry is only looked up. -/
def claim (table : SubscriptionTable) (subscription : StoredSubscription) :
    Bool × SubscriptionTable :=
  let typeId := subscription.typeId
  let bucket := table.forType typeId
  if subscription ∈ bucket then
    match subscription.kind with
    | .oneShot =>
        (true, table.setBucket typeId (bucket.erase subscription)
          (fun _ member => typeId_of_mem (List.mem_of_mem_erase member)))
    | .permanent => (true, table)
  else (false, table)

/-- Keeps the subscriptions that satisfy `keep` and drops buckets left empty. -/
def retain (table : SubscriptionTable) (keep : StoredSubscription → Bool) : SubscriptionTable where
  buckets := (table.buckets.mapValues (List.filter keep)).retain (fun _ bucket => !bucket.isEmpty)
  filed := by
    intro entry member subscription inside
    obtain ⟨original, kept, same⟩ := List.mem_map.mp (List.mem_filter.mp member).1
    subst same
    exact table.filed original kept subscription (List.mem_filter.mp inside).1

theorem put_ok {table : SubscriptionTable} {maximum : Nat} {subscription : StoredSubscription}
    {bucket : List StoredSubscription}
    (stored : upsert table.count maximum (table.forType subscription.typeId) subscription =
      .ok bucket) :
    table.put maximum subscription =
      (.ok (), table.setBucket subscription.typeId bucket (typeId_of_mem_upsert stored)) := by
  simp only [put]
  split
  · rename_i other again
    cases stored.symm.trans again
    rfl
  · rename_i error again
    cases stored.symm.trans again

theorem put_error {table : SubscriptionTable} {maximum : Nat} {subscription : StoredSubscription}
    {error : Error}
    (rejected : upsert table.count maximum (table.forType subscription.typeId) subscription =
      .error error) :
    table.put maximum subscription = (.error error, table.setBucket subscription.typeId
      (table.forType subscription.typeId) (fun _ => typeId_of_mem)) := by
  simp only [put]
  split
  · rename_i other again
    cases rejected.symm.trans again
  · rename_i other again
    cases rejected.symm.trans again
    rfl

/-- All that an upsert can do to the buckets. -/
theorem put_cases (table : SubscriptionTable) (maximum : Nat) (subscription : StoredSubscription) :
    (∃ bucket, upsert table.count maximum (table.forType subscription.typeId) subscription =
        .ok bucket ∧ (table.put maximum subscription).1 = .ok () ∧
      ∀ typeId, (table.put maximum subscription).2.forType typeId =
        if typeId = subscription.typeId then bucket else table.forType typeId) ∨
    (∃ error, (table.put maximum subscription).1 = .error error ∧
      ∀ typeId, (table.put maximum subscription).2.forType typeId = table.forType typeId) := by
  cases stored : upsert table.count maximum (table.forType subscription.typeId) subscription with
  | ok bucket =>
      rw [put_ok stored]
      exact .inl ⟨bucket, rfl, rfl, fun typeId =>
        forType_setBucket table _ typeId bucket (typeId_of_mem_upsert stored)⟩
  | error error =>
      rw [put_error stored]
      refine .inr ⟨error, rfl, fun typeId => ?_⟩
      rw [forType_setBucket]
      split
      · rename_i same
        rw [same]
      · rfl

/-- An upsert stays within the limit it checks. -/
theorem count_put_le {table : SubscriptionTable} {maximum : Nat}
    (subscription : StoredSubscription) (bounded : table.count ≤ maximum) :
    (table.put maximum subscription).2.count ≤ maximum := by
  cases stored : upsert table.count maximum (table.forType subscription.typeId) subscription with
  | error error =>
      rw [put_error stored]
      have counted := table.count_setBucket subscription.typeId
        (table.forType subscription.typeId) (fun _ => typeId_of_mem)
      dsimp only
      omega
  | ok bucket =>
      rw [put_ok stored]
      have counted := table.count_setBucket subscription.typeId bucket (typeId_of_mem_upsert stored)
      dsimp only
      obtain ⟨front, old, back, split, result, _⟩ | ⟨_, room, result⟩ := upsert_eq_ok stored
      · have sameLength : bucket.length = (table.forType subscription.typeId).length := by
          simp only [split, result, List.length_append, List.length_cons]
        omega
      · have oneMore : bucket.length = (table.forType subscription.typeId).length + 1 := by
          simp only [result, sortBucket, List.length_insertionSort, List.length_append,
            List.length_singleton]
        omega

theorem claim_eq_true {table : SubscriptionTable} {subscription : StoredSubscription} :
    (table.claim subscription).1 = true ↔ subscription ∈ table.forType subscription.typeId := by
  unfold claim
  by_cases present : subscription ∈ table.forType subscription.typeId
  · simp only [if_pos present]
    cases subscription.kind <;> simp [present]
  · simp only [if_neg present]
    simp [present]

/-- Only the claim of a stored one-shot entry changes the table. -/
theorem claim_unchanged {table : SubscriptionTable} {subscription : StoredSubscription}
    (kept : (table.claim subscription).1 = false ∨ subscription.kind = .permanent) :
    (table.claim subscription).2 = table := by
  unfold claim at kept ⊢
  by_cases present : subscription ∈ table.forType subscription.typeId
  · simp only [if_pos present] at kept ⊢
    cases kind : subscription.kind with
    | permanent => rfl
    | oneShot => simp [kind] at kept
  · simp only [if_neg present]

/-- What a claim leaves in every bucket. -/
theorem forType_claim (table : SubscriptionTable) (subscription : StoredSubscription)
    (typeId : TypeId) :
    (table.claim subscription).2.forType typeId =
      if typeId = subscription.typeId ∧ subscription.kind = .oneShot then
        (table.forType typeId).erase subscription
      else table.forType typeId := by
  unfold claim
  by_cases present : subscription ∈ table.forType subscription.typeId
  · simp only [if_pos present]
    cases kind : subscription.kind with
    | permanent => simp
    | oneShot =>
        simp only [forType_setBucket, and_true]
        split
        · rename_i same
          rw [same]
        · rfl
  · simp only [if_neg present]
    split
    · rename_i same
      rw [same.1, List.erase_of_not_mem present]
    · rfl

theorem count_claim_le (table : SubscriptionTable) (subscription : StoredSubscription) :
    (table.claim subscription).2.count ≤ table.count := by
  unfold claim
  dsimp only
  split
  · split
    · have counted := table.count_setBucket subscription.typeId
        ((table.forType subscription.typeId).erase subscription)
        (fun _ member => typeId_of_mem (List.mem_of_mem_erase member))
      have shorter : ((table.forType subscription.typeId).erase subscription).length ≤
          (table.forType subscription.typeId).length := List.erase_sublist.length_le
      dsimp only
      omega
    · exact Nat.le_refl _
  · exact Nat.le_refl _

theorem count_retain_le (table : SubscriptionTable) (keep : StoredSubscription → Bool) :
    (table.retain keep).count ≤ table.count :=
  Nat.le_trans (SortedMap.total_retain_le _ _ _)
    (SortedMap.total_mapValues_le _ _ _ (fun bucket => List.length_filter_le keep bucket))

theorem forType_retain (table : SubscriptionTable) (keep : StoredSubscription → Bool)
    (typeId : TypeId) : (table.retain keep).forType typeId = (table.forType typeId).filter keep := by
  simp only [forType, retain, SortedMap.get_retain, SortedMap.get_mapValues]
  cases table.buckets.get typeId with
  | none => rfl
  | some bucket =>
      cases emptied : bucket.filter keep with
      | nil => simp [Option.filter, emptied]
      | cons head rest => simp [Option.filter, emptied]

end SubscriptionTable

/-- The four tables of a store. -/
structure StoreState where
  keys : SortedMap AgentId PublicKeys
  environments : SortedMap AgentId Bytes
  subscriptions : SubscriptionTable
  replay : ReplayCache

def StoreState.empty (limits : StoreLimits) : StoreState :=
  ⟨.empty, .empty, .empty, .new limits.replays limits.replayTtlSeconds⟩

end SecurePubSub.Authority

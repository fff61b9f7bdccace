import SecurePubSub.Link.Frames

namespace SecurePubSub.Link

open SecurePubSub.Data

/-! The bounded state of a link endpoint: unacknowledged frames and acquired ids.

Both structures keep a queue of ids beside the collection that it orders, and carry
the proof that the two agree. `entries` and `order` are what the rest reads them as.
-/

/-! ## Unacknowledged frames -/

/-- Bounded collection of all sent but unacknowledged frames. -/
structure PendingFrames (α : Type) where
  maximum : Nat
  frames : SortedMap MessageId α
  order : List MessageId
  distinct : order.Nodup
  listed : ∀ id, id ∈ order ↔ frames.contains id = true

namespace PendingFrames

variable {α : Type}

def new (maximum : Nat) : PendingFrames α :=
  ⟨maximum, .empty, [], List.nodup_nil, fun id => by simp [SortedMap.contains_eq]⟩

def len (pending : PendingFrames α) : Nat := pending.frames.size

def isEmpty (pending : PendingFrames α) : Bool := pending.len == 0

/-- Whether another distinct frame cannot be acquired. -/
def isFull (pending : PendingFrames α) : Bool := decide (pending.len ≥ pending.maximum)

def remaining (pending : PendingFrames α) : Nat := pending.maximum - pending.len

/-- Acquires a frame before it may be sent. -/
def insert (pending : PendingFrames α) (id : MessageId) (frame : α) :
    Except LinkError (PendingFrames α) :=
  if known : pending.frames.contains id = true then .error .invalidFrame
  else if pending.len ≥ pending.maximum then .error .queueFull
  else .ok {
    maximum := pending.maximum
    frames := pending.frames.insert id frame
    order := pending.order ++ [id]
    distinct := by
      apply List.nodup_append.mpr
      refine ⟨pending.distinct, List.nodup_singleton id, ?_⟩
      rintro other old _ new rfl
      cases List.mem_singleton.mp new
      exact known ((pending.listed _).mp old)
    listed := fun other => by
      rw [List.mem_append, pending.listed, List.mem_singleton]
      by_cases same : other = id
      · simp [SortedMap.contains_eq, same]
      · simp [SortedMap.contains_eq, same] }

/-- Completes one frame after its acknowledgement. -/
def acknowledge (pending : PendingFrames α) (id : MessageId) : PendingFrames α where
  maximum := pending.maximum
  frames := pending.frames.erase id
  order :=
    if pending.frames.contains id then pending.order.filter (fun candidate => candidate ≠ id)
    else pending.order
  distinct := by
    split
    · exact pending.distinct.filter _
    · exact pending.distinct
  listed := fun other => by
    by_cases same : other = id
    · subst same
      split
      · simp [SortedMap.contains_eq, SortedMap.get_erase]
      · rename_i absent
        simpa [SortedMap.contains_eq, SortedMap.get_erase, pending.listed] using absent
    · split <;> simp [SortedMap.contains_eq, SortedMap.get_erase, pending.listed, same]

/-- Stable retransmission snapshot. -/
def snapshot (pending : PendingFrames α) : List α := pending.order.filterMap pending.frames.get

/-- The pending frames with their ids, oldest first. -/
def entries (pending : PendingFrames α) : List (MessageId × α) :=
  pending.order.filterMap (fun id => (pending.frames.get id).map (id, ·))

variable {pending : PendingFrames α}

theorem snapshot_eq : pending.snapshot = pending.entries.map Prod.snd := by
  unfold snapshot entries
  rw [List.map_filterMap]
  congr 1
  funext id
  cases pending.frames.get id <;> rfl

theorem ids_entries : pending.entries.map Prod.fst = pending.order := by
  unfold entries
  rw [List.map_filterMap]
  have every : ∀ id ∈ pending.order,
      ((pending.frames.get id).map (id, ·)).map Prod.fst = some id := by
    intro id member
    have present := (pending.listed id).mp member
    rw [SortedMap.contains_eq] at present
    obtain ⟨frame, found⟩ := Option.isSome_iff_exists.mp present
    simp [found]
  rw [List.filterMap_congr every, List.filterMap_some]

theorem mem_ids {id : MessageId} :
    id ∈ pending.entries.map Prod.fst ↔ pending.frames.contains id = true := by
  rw [ids_entries, pending.listed]

theorem len_eq : pending.len = pending.entries.length := by
  have lengths : pending.entries.length = pending.order.length := by
    rw [← ids_entries, List.length_map]
  have keys : pending.order.Perm (pending.frames.entries.map Prod.fst) := by
    apply (List.perm_ext_iff_of_nodup pending.distinct pending.frames.keys_nodup).mpr
    intro id
    rw [pending.listed, SortedMap.contains_eq, Option.isSome_iff_exists]
    simp only [SortedMap.get_eq_some, List.mem_map, Prod.exists, exists_and_right, exists_eq_right]
  rw [lengths, keys.length_eq, List.length_map]
  rfl

theorem isEmpty_iff : pending.isEmpty = true ↔ pending.entries = [] := by
  simp [isEmpty, len_eq]

theorem insert_eq_ok {id : MessageId} {frame : α} (fresh : id ∉ pending.entries.map Prod.fst)
    (room : pending.entries.length < pending.maximum) :
    ∃ acquired, pending.insert id frame = .ok acquired ∧ acquired.maximum = pending.maximum ∧
      acquired.entries = pending.entries ++ [(id, frame)] := by
  have absent : ¬ pending.frames.contains id = true := fun known => fresh (mem_ids.mpr known)
  unfold insert
  rw [dif_neg absent, if_neg (by rw [len_eq]; omega)]
  refine ⟨_, rfl, rfl, ?_⟩
  unfold entries
  rw [List.filterMap_append]
  congr 1
  · apply List.filterMap_congr
    intro other member
    have different : other ≠ id := by
      rintro rfl
      exact absent ((pending.listed _).mp member)
    simp [different]
  · simp

theorem of_insert {id : MessageId} {frame : α} {acquired : PendingFrames α}
    (inserted : pending.insert id frame = .ok acquired) :
    id ∉ pending.entries.map Prod.fst ∧ acquired.maximum = pending.maximum ∧
      acquired.entries = pending.entries ++ [(id, frame)] := by
  by_cases known : pending.frames.contains id = true
  · simp [insert, known] at inserted
  · by_cases full : pending.len ≥ pending.maximum
    · simp [insert, known, full] at inserted
    · have fresh := mt mem_ids.mp known
      rw [len_eq] at full
      obtain ⟨other, same, maximum, entries⟩ :=
        @insert_eq_ok _ pending id frame fresh (Nat.not_le.mp full)
      rw [inserted] at same
      cases same
      exact ⟨fresh, maximum, entries⟩

theorem entries_acknowledge (id : MessageId) :
    (pending.acknowledge id).entries = pending.entries.filter (fun entry => entry.1 ≠ id) := by
  have order : (pending.acknowledge id).order =
      pending.order.filter (fun candidate => candidate ≠ id) := by
    simp only [acknowledge]
    split
    · rfl
    · rename_i absent
      symm
      apply List.filter_eq_self.mpr
      intro other member
      have different : other ≠ id := by
        rintro rfl
        exact absent ((pending.listed _).mp member)
      simp [different]
  unfold entries
  rw [order, List.filterMap_filter, List.filter_filterMap]
  apply List.filterMap_congr
  intro other _
  by_cases same : other = id
  · subst same
    cases pending.frames.get other <;> simp [Option.filter]
  · cases found : pending.frames.get other <;>
      simp [acknowledge, SortedMap.get_erase, same, found, Option.filter]

end PendingFrames

/-! ## Acquired ids -/

/-- Bounded FIFO deduplication window. -/
structure DedupWindow where
  maximum : Nat
  order : List MessageId
  ids : Finset MessageId
  distinct : order.Nodup
  listed : order.toFinset = ids

namespace DedupWindow

def new (maximum : Nat) : DedupWindow := ⟨maximum, [], ∅, List.nodup_nil, rfl⟩

def contains (window : DedupWindow) (id : MessageId) : Bool := decide (id ∈ window.ids)

variable {window : DedupWindow}

theorem contains_iff {id : MessageId} : window.contains id = true ↔ id ∈ window.order := by
  simp [contains, ← window.listed]

theorem card_ids : window.ids.card = window.order.length := by
  rw [← window.listed, List.toFinset_card_of_nodup window.distinct]

/-- What is kept before another identifier is recorded: a full window evicts its oldest. -/
def room (window : DedupWindow) : List MessageId × Finset MessageId :=
  if window.ids.card = window.maximum then
    match window.order with
    | [] => ([], window.ids)
    | oldest :: rest => (rest, window.ids.erase oldest)
  else (window.order, window.ids)

theorem room_order : window.room.1 =
    if window.order.length = window.maximum then window.order.tail else window.order := by
  unfold room
  rw [card_ids]
  split
  · cases window.order <;> rfl
  · rfl

theorem room_sublist : window.room.1.Sublist window.order := by
  rw [room_order]
  split
  · exact List.tail_sublist _
  · exact List.Sublist.refl _

theorem room_listed : window.room.1.toFinset = window.room.2 := by
  obtain ⟨maximum, order, ids, distinct, rfl⟩ := window
  unfold room
  split
  · cases order with
    | nil => rfl
    | cons oldest rest =>
        have absent : oldest ∉ rest := (List.nodup_cons.mp distinct).1
        simp [absent]
  · rfl

def insert (window : DedupWindow) (id : MessageId) : Except LinkError DedupWindow :=
  if window.maximum = 0 then .error .queueFull
  else if known : id ∈ window.ids then .ok window
  else .ok {
    maximum := window.maximum
    order := window.room.1 ++ [id]
    ids := Insert.insert id window.room.2
    distinct := by
      apply List.nodup_append.mpr
      refine ⟨window.distinct.sublist room_sublist, List.nodup_singleton id, ?_⟩
      rintro other old _ new rfl
      cases List.mem_singleton.mp new
      apply known
      rw [← window.listed]
      exact List.mem_toFinset.mpr (room_sublist.subset old)
    listed := by
      rw [List.toFinset_append, room_listed, Finset.union_comm]
      rfl }

/-- What recording an identifier does to a window that can hold one. -/
theorem insert_eq_ok (positive : 0 < window.maximum) (id : MessageId) :
    ∃ recorded, window.insert id = .ok recorded ∧ recorded.maximum = window.maximum ∧
      recorded.order =
        if id ∈ window.order then window.order
        else if window.order.length = window.maximum then window.order.tail ++ [id]
        else window.order ++ [id] := by
  have same : id ∈ window.ids ↔ id ∈ window.order := by
    rw [← window.listed, List.mem_toFinset]
  unfold insert
  rw [if_neg positive.ne']
  split
  · rename_i known
    exact ⟨window, rfl, rfl, by rw [if_pos (same.mp known)]⟩
  · rename_i unknown
    refine ⟨_, rfl, rfl, ?_⟩
    simp only [room_order, if_neg (mt same.mpr unknown)]
    split <;> rfl

theorem of_insert {id : MessageId} {recorded : DedupWindow}
    (inserted : window.insert id = .ok recorded) :
    recorded.maximum = window.maximum ∧ id ∈ recorded.order ∧
      ∀ other ∈ recorded.order, other = id ∨ other ∈ window.order := by
  have positive : 0 < window.maximum := by
    by_contra zero
    simp [insert, Nat.eq_zero_of_not_pos zero] at inserted
  obtain ⟨same, result, maximum, order⟩ := @insert_eq_ok window positive id
  rw [inserted] at result
  cases result
  refine ⟨maximum, ?_, fun other member => ?_⟩
  · rw [order]
    split
    · assumption
    · split <;> simp
  · rw [order] at member
    split at member
    · exact .inr member
    · split at member
      · rcases List.mem_append.mp member with old | new
        · exact .inr (List.mem_of_mem_tail old)
        · exact .inl (List.mem_singleton.mp new)
      · rcases List.mem_append.mp member with old | new
        · exact .inr old
        · exact .inl (List.mem_singleton.mp new)

/-- What is recorded last stays recorded while it is not the whole window. -/
theorem insert_recent {id : MessageId} {recorded : DedupWindow} {older recent : List MessageId}
    (inserted : window.insert id = .ok recorded) (unknown : id ∉ window.order)
    (split : window.order = older ++ recent) (room : recent.length < window.maximum) :
    ∃ rest, recorded.order = rest ++ (recent ++ [id]) := by
  obtain ⟨same, result, _, order⟩ := @insert_eq_ok window (Nat.zero_lt_of_lt room) id
  rw [inserted] at result
  cases result
  rw [order, if_neg unknown]
  by_cases full : window.order.length = window.maximum
  · rw [if_pos full, split]
    cases older with
    | nil =>
        rw [split, List.nil_append] at full
        omega
    | cons oldest rest => exact ⟨rest, by simp⟩
  · rw [if_neg full, split]
    exact ⟨older, by simp⟩

end DedupWindow

end SecurePubSub.Link

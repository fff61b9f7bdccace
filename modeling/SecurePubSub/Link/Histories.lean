import SecurePubSub.Data.History
import SecurePubSub.Data.Machine
import SecurePubSub.Link.Pending

namespace SecurePubSub.Link

open SecurePubSub.Data

/-! What the bounded link state is after any sequence of calls.

The state is compared with the history of the calls: pending frames are those
inserted and not acknowledged since, and a window holds the latest ids that were
new when they were recorded.
-/

/-! ## Unacknowledged frames -/

namespace PendingFrames

variable {α : Type}

inductive Call (α : Type) where
  | insert (id : MessageId) (frame : α)
  | acknowledge (id : MessageId)

/-- What came of a call. -/
inductive Event (α : Type) where
  | inserted (id : MessageId) (frame : α)
  | rejected (id : MessageId) (error : LinkError)
  | acknowledged (id : MessageId)

def perform (pending : PendingFrames α) : Call α → Event α × PendingFrames α
  | .insert id frame =>
      match pending.insert id frame with
      | .ok acquired => (.inserted id frame, acquired)
      | .error error => (.rejected id error, pending)
  | .acknowledge id => (.acknowledged id, pending.acknowledge id)

/-- The events of a sequence of calls and the state after it. -/
def history : List (Call α) → PendingFrames α → List (Event α) × PendingFrames α
  | [], pending => ([], pending)
  | call :: later, pending =>
      let performed := pending.perform call
      let rest := history later performed.2
      (performed.1 :: rest.1, rest.2)

def Event.acknowledges (id : MessageId) : Event α → Bool
  | .acknowledged other => decide (other = id)
  | _ => false

/-- The frames that were inserted and not acknowledged since, in the order of insertion. -/
def outstanding : List (Event α) → List (MessageId × α)
  | [] => []
  | .inserted id frame :: later =>
      if later.any (Event.acknowledges id) then outstanding later
      else (id, frame) :: outstanding later
  | .rejected _ _ :: later => outstanding later
  | .acknowledged _ :: later => outstanding later

variable {pending : PendingFrames α}

theorem insert_eq_error {id : MessageId} {frame : α} :
    (∃ error, pending.insert id frame = .error error) ↔
      pending.frames.contains id = true ∨ pending.maximum ≤ pending.len := by
  rw [insert]
  split
  · rename_i known
    simp [known]
  · rename_i fresh
    split
    · rename_i full
      simp [fresh, full]
    · rename_i room
      simp [fresh, room]

/-- Every event of a sequence decides which of the earlier entries are left. -/
theorem entries_history (calls : List (Call α)) (pending : PendingFrames α) :
    (history calls pending).2.entries =
      pending.entries.filter
          (fun entry => !(history calls pending).1.any (Event.acknowledges entry.1)) ++
        outstanding (history calls pending).1 := by
  induction calls generalizing pending with
  | nil => simp [history, outstanding]
  | cons call later ih =>
      cases call with
      | acknowledge id =>
          have rest := ih (pending.acknowledge id)
          rw [history, perform]
          dsimp only
          rw [rest, entries_acknowledge, List.filter_filter, outstanding]
          congr 1
          apply List.filter_congr
          intro entry _
          simp [Event.acknowledges, Bool.and_comm, eq_comm]
      | insert id frame =>
          rw [history, perform]
          cases inserted : pending.insert id frame with
          | error error =>
              have rest := ih pending
              dsimp only
              rw [rest, outstanding]
              congr 1
          | ok acquired =>
              have rest := ih acquired
              obtain ⟨_, _, entries⟩ := of_insert inserted
              dsimp only
              rw [rest, entries, List.filter_append, List.append_assoc, outstanding]
              congr 1
              split
              · rename_i acknowledged
                simp [acknowledged]
              · rename_i kept
                simp [kept]

theorem history_bounded (calls : List (Call α)) (bounded : pending.len ≤ pending.maximum) :
    (history calls pending).2.maximum = pending.maximum ∧
      (history calls pending).2.len ≤ pending.maximum := by
  induction calls generalizing pending with
  | nil => exact ⟨rfl, bounded⟩
  | cons call later ih =>
      cases call with
      | acknowledge id =>
          have shorter : (pending.acknowledge id).len ≤ pending.maximum := by
            rw [len_eq, entries_acknowledge]
            rw [len_eq] at bounded
            exact Nat.le_trans (List.length_filter_le _ _) bounded
          exact @ih (pending.acknowledge id) shorter
      | insert id frame =>
          rw [history, perform]
          cases inserted : pending.insert id frame with
          | error error => exact ih bounded
          | ok acquired =>
              obtain ⟨_, maximum, entries⟩ := of_insert inserted
              have room : ¬ pending.maximum ≤ pending.len := by
                intro full
                obtain ⟨error, refused⟩ := (@insert_eq_error _ pending id frame).mpr (.inr full)
                rw [inserted] at refused
                cases refused
              have longer : acquired.len ≤ acquired.maximum := by
                rw [maximum, len_eq, entries, List.length_append, List.length_singleton, ← len_eq]
                omega
              obtain ⟨same, within⟩ := ih longer
              exact ⟨same.trans maximum, Nat.le_trans within (Nat.le_of_eq maximum)⟩

/-- After any sequence of calls the two containers agree, stay within the maximum, and a snapshot
returns exactly the frames inserted and not acknowledged since. A refused insertion, for a pending
id or for want of room, changes nothing. -/
theorem pending_exact (maximum : Nat) (calls : List (Call α)) :
    let events := (history calls (new maximum)).1
    let pending := (history calls (new maximum)).2
    pending.order.Nodup ∧ (∀ id, id ∈ pending.order ↔ pending.frames.contains id = true) ∧
      pending.order.length = pending.len ∧ pending.len ≤ maximum ∧
      pending.order = (outstanding events).map Prod.fst ∧
      pending.snapshot = (outstanding events).map Prod.snd ∧
      ∀ id frame, ((∃ error, pending.insert id frame = .error error) ↔
          id ∈ pending.order ∨ pending.len = maximum) ∧
        ∀ error, pending.insert id frame = .error error →
          pending.perform (.insert id frame) = (.rejected id error, pending) := by
  intro events pending
  obtain ⟨sameMaximum, bounded⟩ := @history_bounded _ (new maximum) calls (Nat.zero_le _)
  have bounded : pending.len ≤ maximum := bounded
  have entries : pending.entries = outstanding events := entries_history calls (new maximum)
  refine ⟨pending.distinct, pending.listed, ?_, bounded, ?_, ?_, ?_⟩
  · rw [len_eq, ← ids_entries, List.length_map]
  · rw [← ids_entries, entries]
  · rw [snapshot_eq, entries]
  · intro id frame
    constructor
    · have limit : pending.maximum = maximum := sameMaximum
      rw [insert_eq_error, pending.listed, limit]
      constructor
      · rintro (known | full)
        · exact .inl known
        · exact .inr (Nat.le_antisymm bounded full)
      · rintro (known | full)
        · exact .inl known
        · exact .inr (Nat.le_of_eq full.symm)
    · intro error refused
      rw [perform, refused]

end PendingFrames

/-! ## Acquired ids -/

namespace DedupWindow

/-- The window after a call; a call that fails leaves it as it was. -/
def record (window : DedupWindow) (id : MessageId) : DedupWindow :=
  match window.insert id with
  | .ok recorded => recorded
  | .error _ => window

/-- The insertions of ids that were absent at their moment. -/
def effective : List MessageId → DedupWindow → List MessageId
  | [], _ => []
  | id :: later, window =>
      if window.contains id then effective later (window.record id)
      else id :: effective later (window.record id)

variable {window : DedupWindow}

theorem record_eq (positive : 0 < window.maximum) (id : MessageId) :
    window.insert id = .ok (window.record id) ∧ (window.record id).maximum = window.maximum ∧
      (window.record id).order =
        if id ∈ window.order then window.order
        else if window.order.length = window.maximum then window.order.tail ++ [id]
        else window.order ++ [id] := by
  obtain ⟨recorded, inserted, maximum, order⟩ := @insert_eq_ok window positive id
  rw [record, inserted]
  exact ⟨rfl, maximum, order⟩

/-- A window that holds the latest of some ids holds the latest ones after more of them. -/
theorem order_run {past : List MessageId} (positive : 0 < window.maximum)
    (latest : window.order = past.rtake window.maximum) (ids : List MessageId) :
    (Machine.run record window ids).maximum = window.maximum ∧
      (Machine.run record window ids).order =
        (past ++ effective ids window).rtake window.maximum := by
  induction ids generalizing window past with
  | nil => exact ⟨rfl, by rw [effective, List.append_nil]; exact latest⟩
  | cons id later ih =>
      obtain ⟨_, maximum, order⟩ := record_eq positive id
      rw [Machine.run_cons, effective]
      by_cases known : id ∈ window.order
      · rw [if_pos known] at order
        rw [if_pos (contains_iff.mpr known), ← maximum]
        apply ih
        · rwa [maximum]
        · rw [order, maximum]
          exact latest
      · have grown : (window.record id).order = (past ++ [id]).rtake window.maximum := by
          rw [order, if_neg known, rtake_snoc positive, ← latest]
          split <;> rfl
        rw [if_neg (mt contains_iff.mp known), ← maximum, List.append_cons]
        apply ih
        · rwa [maximum]
        · rw [grown, maximum]

/-- After any sequence of insertions a window that can hold an id holds exactly the latest
`maximum` effective ones, in their order and each once. -/
theorem window_exact (maximum : Nat) (positive : 1 ≤ maximum) (ids : List MessageId) :
    let window := Machine.run record (new maximum) ids
    let inserted := effective ids (new maximum)
    window.order.Nodup ∧ (∀ id, id ∈ window.order ↔ id ∈ window.ids) ∧
      window.order.length = min maximum inserted.length ∧
      window.order = inserted.drop (inserted.length - maximum) ∧
      (∀ id, window.contains id = true ↔ id ∈ inserted.drop (inserted.length - maximum)) ∧
      ∀ id, window.insert id = .ok (window.record id) := by
  intro window inserted
  have latest : (new maximum).order = ([] : List MessageId).rtake maximum := by simp [new]
  obtain ⟨sameMaximum, order⟩ := @order_run (new maximum) [] positive latest ids
  have order : window.order = inserted.rtake maximum := order
  refine ⟨window.distinct, ?_, ?_, order, ?_, ?_⟩
  · intro id
    rw [← window.listed, List.mem_toFinset]
  · rw [order, length_rtake]
  · intro id
    rw [contains_iff, order, rtake_eq_drop]
  · intro id
    have room : 0 < window.maximum := Nat.lt_of_lt_of_eq positive sameMaximum.symm
    exact (record_eq room id).1

theorem window_exact_pair :
    (Machine.run record (new 2) [⟨.fill 16 1⟩, ⟨.fill 16 2⟩, ⟨.fill 16 1⟩, ⟨.fill 16 3⟩,
      ⟨.fill 16 1⟩]).order = [⟨.fill 16 3⟩, ⟨.fill 16 1⟩] := by
  have latest := (window_exact 2 (by decide) [⟨.fill 16 1⟩, ⟨.fill 16 2⟩, ⟨.fill 16 1⟩,
    ⟨.fill 16 3⟩, ⟨.fill 16 1⟩]).2.2.2.1
  rw [latest]
  decide +kernel

end DedupWindow

end SecurePubSub.Link

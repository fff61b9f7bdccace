import Mathlib.Data.List.Perm.Basic
import Mathlib.Data.List.ReduceOption

namespace SecurePubSub.Data.Vacancies

/-! Arrays whose slots are vacant or taken.

What such an array stores is the list of its taken slots. Eviction filters it,
and filling any vacant slot adds one item to it, up to the order.
-/

variable {α : Type} {capacity : Nat}

def taken (slots : Vector (Option α) capacity) : List α := slots.toList.reduceOption

variable {slots : Vector (Option α) capacity}

theorem mem_taken {item : α} : item ∈ taken slots ↔ some item ∈ slots := by
  rw [taken, List.reduceOption_mem_iff, Vector.mem_toList_iff]

theorem taken_replicate : taken (.replicate capacity (none : Option α)) = [] := by
  rw [taken, Vector.toList_replicate, List.reduceOption_replicate_none]

theorem reduceOption_evict (drop : α → Bool) (items : List (Option α)) :
    (items.map fun slot => if slot.any drop then none else slot).reduceOption =
      items.reduceOption.filter (fun item => !drop item) := by
  induction items with
  | nil => rfl
  | cons slot rest ih =>
      cases slot with
      | none => simpa using ih
      | some item =>
          by_cases dropped : drop item = true
          · simpa [dropped] using ih
          · simpa [dropped] using ih

theorem taken_evict (drop : α → Bool) :
    taken (slots.map fun slot => if slot.any drop then none else slot) =
      (taken slots).filter (fun item => !drop item) := by
  rw [taken, Vector.toList_map]
  exact reduceOption_evict drop slots.toList

theorem any_eq_true {meets : α → Bool} :
    slots.any (fun slot => slot.any meets) = true ↔ ∃ item ∈ taken slots, meets item = true := by
  constructor
  · intro met
    obtain ⟨index, inside, holds⟩ := Vector.any_eq_true.mp met
    obtain ⟨item, found, holds⟩ := (Option.any_eq_true _ _).mp holds
    exact ⟨item, mem_taken.mpr (Vector.mem_iff_getElem.mpr ⟨index, inside, found⟩), holds⟩
  · rintro ⟨item, member, holds⟩
    obtain ⟨index, inside, found⟩ := Vector.mem_iff_getElem.mp (mem_taken.mp member)
    apply Vector.any_eq_true.mpr
    refine ⟨index, inside, ?_⟩
    rw [found]
    exact holds

theorem length_taken_le : (taken slots).length ≤ capacity := by
  have bounded := List.reduceOption_length_le slots.toList
  rwa [Vector.length_toList] at bounded

/-- A vacant slot is found unless all are taken. -/
theorem findVacant_eq_none :
    slots.findFinIdx? Option.isNone = none ↔ (taken slots).length = capacity := by
  rw [taken, Vector.findFinIdx?_eq_none_iff]
  have full := @List.reduceOption_length_eq_iff _ slots.toList
  rw [Vector.length_toList] at full
  rw [full]
  simp [Option.isSome_iff_ne_none]

theorem reduceOption_set_perm {items : List (Option α)} {index : Nat} (item : α)
    (vacant : items[index]? = some none) :
    (items.set index (some item)).reduceOption.Perm (item :: items.reduceOption) := by
  induction items generalizing index with
  | nil => simp at vacant
  | cons slot rest ih =>
      cases index with
      | zero =>
          have empty : slot = none := by simpa using vacant
          subst empty
          simp
      | succ index =>
          have later := ih (by simpa using vacant)
          cases slot with
          | none => simpa using later
          | some other =>
              simp only [List.set_cons_succ, List.reduceOption_cons_of_some]
              exact (later.cons other).trans (List.Perm.swap item other _)

theorem taken_set_perm {vacant : Fin capacity} (item : α)
    (found : slots.findFinIdx? Option.isNone = some vacant) :
    (taken (slots.set vacant (some item) vacant.isLt)).Perm (item :: taken slots) := by
  obtain ⟨position, located, rfl⟩ := Option.map_eq_some_iff.mp found
  have empty := (Array.findFinIdx?_eq_some_iff.mp located).1
  rw [taken, Vector.toList_set]
  apply reduceOption_set_perm
  simp only [Option.isNone_iff_eq_none] at empty
  have inside : (position : Nat) < capacity := Nat.lt_of_lt_of_eq position.isLt slots.size_toArray
  simpa [Vector.getElem?_eq_some_iff] using ⟨inside, empty⟩

end SecurePubSub.Data.Vacancies

import Mathlib.Data.List.TakeDrop

namespace SecurePubSub.Data

/-! Arrays of a fixed capacity that are filled from the front.

What lies behind the filled part is never looked at: such an array is the list of what was
put into it, and it takes one more item exactly when the list is shorter than the capacity.
-/

structure Slots (α : Type) (capacity : Nat) where
  entries : Vector α capacity
  len : Nat
  within : len ≤ capacity

namespace Slots

variable {α : Type} {capacity : Nat}

def new (capacity : Nat) (unused : α) : Slots α capacity :=
  ⟨.replicate capacity unused, 0, Nat.zero_le _⟩

def filled (slots : Slots α capacity) : List α := slots.entries.toList.take slots.len

def push (slots : Slots α capacity) (item : α) : Option (Slots α capacity) :=
  if room : slots.len < capacity then
    some ⟨slots.entries.set slots.len item, slots.len + 1, room⟩
  else
    none

@[simp] theorem length_filled (slots : Slots α capacity) : slots.filled.length = slots.len := by
  rw [filled, List.length_take, Vector.length_toList, Nat.min_eq_left slots.within]

theorem length_filled_le (slots : Slots α capacity) : slots.filled.length ≤ capacity := by
  rw [length_filled]
  exact slots.within

theorem filled_push {slots after : Slots α capacity} {item : α}
    (pushed : slots.push item = some after) : after.filled = slots.filled ++ [item] := by
  rw [push] at pushed
  split at pushed
  · rename_i room
    cases pushed
    have inside : slots.len < (slots.entries.toList.set slots.len item).length := by
      rwa [List.length_set, Vector.length_toList]
    rw [filled, filled, Vector.toList_set, List.take_succ_eq_append_getElem inside,
      List.take_set_of_le (Nat.le_refl _), List.getElem_set_self]
  · cases pushed

end Slots

end SecurePubSub.Data

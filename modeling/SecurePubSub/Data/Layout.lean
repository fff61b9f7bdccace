import SecurePubSub.Data.Bytes

namespace SecurePubSub.Data

/-! Byte strings laid out as a sequence of fields.

A reader that slices a frame at fixed offsets and a writer that appends its
fields meet here: the slice between the offsets of one field is that field.
-/

/-- The bytes from offset `start` up to and excluding offset `stop`. -/
def slice (input : Bytes) (start stop : Nat) : Bytes := (input.take stop).drop start

def byteAt (input : Bytes) (index : Nat) : UInt8 := input.getD index 0

@[simp] theorem slice_length {input : Bytes} {start stop : Nat} :
    (slice input start stop).length = min stop input.length - start := by
  simp [slice]

theorem slice_length_of_le {input : Bytes} {start stop : Nat} (within : stop ≤ input.length) :
    (slice input start stop).length = stop - start := by
  rw [slice_length, Nat.min_eq_left within]

theorem slice_append_slice {input : Bytes} {start middle stop : Nat} (ordered : start ≤ middle)
    (within : middle ≤ stop) :
    slice input start middle ++ slice input middle stop = slice input start stop := by
  have shorter : input.take middle = (input.take stop).take middle := by
    rw [List.take_take, Nat.min_eq_left within]
  have back : ((input.take stop).drop middle).drop (start - ((input.take stop).take middle).length)
      = (input.take stop).drop middle := by
    rw [List.drop_drop]
    by_cases inside : middle ≤ (input.take stop).length
    · rw [List.length_take_of_le inside, Nat.sub_eq_zero_of_le ordered, Nat.add_zero]
    · have beyond := Nat.le_of_not_le inside
      rw [List.drop_eq_nil_of_le beyond, List.drop_eq_nil_of_le (Nat.le_add_right_of_le beyond)]
  rw [slice, slice, slice, shorter]
  conv_rhs => rw [← List.take_append_drop middle (input.take stop), List.drop_append, back]

theorem slice_zero_length (input : Bytes) : slice input 0 input.length = input := by
  simp [slice]

theorem slice_succ {input : Bytes} {index : Nat} (inside : index < input.length) :
    slice input index (index + 1) = [byteAt input index] := by
  have front : (input.take index).length = index := List.length_take_of_le inside.le
  have byte : byteAt input index = input[index] := by
    rw [byteAt, List.getD_eq_getElem?_getD, List.getElem?_eq_getElem inside, Option.getD_some]
  rw [slice, List.take_succ_eq_append_getElem inside, List.drop_left' front, byte]

theorem byteAt_of_slice {input : Bytes} {index : Nat} {byte : UInt8}
    (found : slice input index (index + 1) = [byte]) : byteAt input index = byte := by
  have inside : index < input.length := by
    have length := congrArg List.length found
    simp only [slice_length, List.length_singleton] at length
    omega
  rw [slice_succ inside] at found
  exact List.singleton_injective found

theorem slice_flatten {parts : List Bytes} (index : Nat) {start stop : Nat} {part : Bytes}
    (found : parts[index]? = some part) (begins : (parts.take index).flatten.length = start)
    (ends : start + part.length = stop) : slice parts.flatten start stop = part := by
  obtain ⟨inside, same⟩ := List.getElem?_eq_some_iff.mp found
  have split : parts = parts.take index ++ part :: parts.drop (index + 1) := by
    rw [← same, List.getElem_cons_drop, List.take_append_drop]
  have joined : parts.flatten =
      (parts.take index).flatten ++ (part ++ (parts.drop (index + 1)).flatten) := by
    conv_lhs => rw [split]
    rw [List.flatten_append, List.flatten_cons]
  rw [joined, slice, List.take_append, List.drop_append]
  subst begins ends
  simp

end SecurePubSub.Data

import SecurePubSub.Data.Cursor

namespace SecurePubSub.Data.Cursor

/-! What a successful read depends on.

A local read looks at no byte behind the ones it takes, so an input on which it
ends exactly is rejected when it is cut short and when it is extended.
-/

variable {ε α β : Type} {read : Cursor ε α} {next : α → Cursor ε β}

/-- A successful read takes a front of its input and goes the same way with anything behind it. -/
def Local (read : Cursor ε α) : Prop :=
  ∀ ⦃input rest value⦄, read input = .ok (value, rest) →
    ∃ front, input = front ++ rest ∧ ∀ other, read (front ++ other) = .ok (value, other)

theorem local_pure (value : α) : Local (pure value : Cursor ε α) := by
  intro input rest result done
  cases done
  exact ⟨[], rfl, fun _ => rfl⟩

theorem local_fail (fault : ε) : Local (fail fault : Cursor ε α) :=
  fun _ _ _ done => nomatch done

theorem local_take (fault : ε) (length : Nat) : Local (take fault length) := by
  intro input rest value done
  obtain ⟨split, exact⟩ := take_eq_ok done
  exact ⟨value, split, fun other => take_append fault other exact⟩

theorem local_bind (first : Local read) (later : ∀ value, Local (next value)) :
    Local (read >>= next) := by
  intro input last result done
  obtain ⟨value, rest, firstDone, laterDone⟩ := bind_eq_ok done
  obtain ⟨front, split, firstAgain⟩ := first firstDone
  obtain ⟨middle, splitRest, laterAgain⟩ := later value laterDone
  refine ⟨front ++ middle, by rw [split, splitRest, List.append_assoc], fun other => ?_⟩
  rw [List.append_assoc, bind_ok (firstAgain _), laterAgain]

theorem local_array (fault : ε) (width : Nat) : Local (array fault width) := by
  refine local_bind (local_take fault width) (fun slice => ?_)
  cases FixedBytes.ofSlice? width slice with
  | none => exact local_fail fault
  | some value => exact local_pure value

theorem local_number (fault : ε) (width : Nat) : Local (number fault width) :=
  local_bind (local_array fault width) (fun _ => local_pure _)

theorem local_ite {condition : Prop} [Decidable condition] {other : Cursor ε α}
    (positive : Local read) (negative : Local other) :
    Local (if condition then read else other) := by
  split
  · exact positive
  · exact negative

/-- An input that a local read takes to its end is not accepted when it is cut short. -/
theorem Local.no_prefix (sound : Local read) {input front : Bytes} {value other : α}
    (whole : read input = .ok (value, [])) (cut : front <+: input) (shorter : front ≠ input) :
    read front ≠ .ok (other, []) := by
  intro accepted
  obtain ⟨taken, split, again⟩ := sound accepted
  rw [List.append_nil] at split
  subst split
  obtain ⟨rest, same⟩ := cut
  rw [← same, again] at whole
  cases whole
  exact shorter (by rw [← same, List.append_nil])

/-- Nor when something is put behind it. -/
theorem Local.no_extension (sound : Local read) {input extra : Bytes} {value other : α}
    (whole : read input = .ok (value, [])) (longer : extra ≠ []) :
    read (input ++ extra) ≠ .ok (other, []) := by
  intro accepted
  obtain ⟨taken, split, again⟩ := sound whole
  rw [List.append_nil] at split
  subst split
  rw [again] at accepted
  cases accepted
  exact longer rfl

end SecurePubSub.Data.Cursor

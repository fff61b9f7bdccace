import SecurePubSub.Data.CursorLocal

namespace SecurePubSub.Data.Cursor

/-! Canonical codecs: a cursor that accepts exactly what one encoding function writes.

Since an accepted input is the encoding of its value, no two inputs have the same
value, and the cursor of a codec is local.
-/

variable {ε α : Type}

/-- The cursor reads back the encoding of every valid value and accepts nothing else. -/
structure Codec (read : Cursor ε α) (encode : α → Bytes) (valid : α → Prop) : Prop where
  reads : ∀ {value}, valid value → ∀ rest, read (encode value ++ rest) = .ok (value, rest)
  canonical : ∀ {input rest value}, read input = .ok (value, rest) →
    valid value ∧ input = encode value ++ rest

namespace Codec

variable {read : Cursor ε α} {encode : α → Bytes} {valid : α → Prop}

theorem isLocal (codec : Codec read encode valid) : Local read := by
  intro input rest value done
  obtain ⟨holds, split⟩ := codec.canonical done
  exact ⟨encode value, split, codec.reads holds⟩

theorem word {toNat : α → Nat} {ofNat : Nat → α} (fault : ε) (width : Nat)
    (range : ∀ value, toNat value < 256 ^ width) (inverse : ∀ value, ofNat (toNat value) = value)
    (kept : ∀ digits, digits < 256 ^ width → toNat (ofNat digits) = digits) :
    Codec (number fault width >>= fun digits => pure (ofNat digits))
      (fun value => beBytes width (toNat value)) (fun _ => True) where
  reads := by
    intro value _ rest
    rw [bind_ok (number_append fault (range value) rest), inverse]
    rfl
  canonical := by
    intro input rest value done
    obtain ⟨digits, middle, digitsDone, result⟩ := bind_eq_ok done
    obtain ⟨split, small⟩ := number_eq_ok digitsDone
    cases result
    rw [kept digits small]
    exact ⟨trivial, split⟩

theorem repeated (codec : Codec read encode valid) (count : Nat) :
    Codec (Cursor.repeated read count) (List.flatMap encode)
      (fun items => items.length = count ∧ ∀ item ∈ items, valid item) := by
  induction count with
  | zero =>
      constructor
      · intro items ⟨empty, _⟩ rest
        rw [List.eq_nil_of_length_eq_zero empty]
        rfl
      · intro input rest items done
        cases done
        exact ⟨⟨rfl, fun _ member => nomatch member⟩, rfl⟩
  | succ count ih =>
      constructor
      · intro items ⟨length, holds⟩ rest
        have each := @repeated_append _ _ read encode items
          (fun item member => codec.reads (holds item member)) rest
        rwa [length] at each
      · intro input rest items done
        obtain ⟨head, middle, headDone, done⟩ := bind_eq_ok done
        obtain ⟨tail, last, tailDone, done⟩ := bind_eq_ok done
        cases done
        obtain ⟨headHolds, headSplit⟩ := codec.canonical headDone
        obtain ⟨⟨length, tailHolds⟩, tailSplit⟩ := ih.canonical tailDone
        refine ⟨⟨by rw [List.length_cons, length], ?_⟩, ?_⟩
        · intro item member
          cases List.mem_cons.mp member with
          | inl same => exact same ▸ headHolds
          | inr later => exact tailHolds item later
        · rw [headSplit, tailSplit, List.flatMap_cons, List.append_assoc]

/-- The span of a read is the encoding of its value. -/
theorem spanning (codec : Codec read encode valid) :
    Codec (Cursor.spanning read) Prod.snd
      (fun pair => valid pair.1 ∧ pair.2 = encode pair.1) where
  reads := by
    intro (value, bytes) ⟨holds, same⟩ rest
    simp only at same
    subst same
    exact spanning_append (codec.reads holds rest)
  canonical := by
    intro input rest (value, bytes) done
    rw [Cursor.spanning] at done
    cases first : read input with
    | error fault => rw [first] at done; cases done
    | ok result =>
        obtain ⟨found, last⟩ := result
        rw [first] at done
        cases done
        obtain ⟨holds, split⟩ := codec.canonical first
        have front : input.take (input.length - rest.length) = encode value := by
          rw [split, List.length_append, Nat.add_sub_cancel, List.take_left' rfl]
        exact ⟨⟨holds, front⟩, by rw [front, split]⟩

end Codec

end SecurePubSub.Data.Cursor

import SecurePubSub.Data.Bytes

namespace SecurePubSub.Data

/-! Cursors over a byte string.

A cursor reads from the front of the bytes that are left, and either fails or
returns a value with the bytes after it. `take` is the only primitive read.
-/

abbrev Cursor (ε : Type) (α : Type) := StateT Bytes (Except ε) α

namespace Cursor

variable {ε α β : Type}

def fail (fault : ε) : Cursor ε α := fun _ => .error fault

def take (fault : ε) (length : Nat) : Cursor ε Bytes := fun input =>
  if length ≤ input.length then .ok (input.take length, input.drop length) else .error fault

def array (fault : ε) (width : Nat) : Cursor ε (FixedBytes width) := do
  let slice ← take fault width
  match FixedBytes.ofSlice? width slice with
  | some value => pure value
  | none => fail fault

def number (fault : ε) (width : Nat) : Cursor ε Nat := do
  let digits ← array fault width
  pure (beNat digits.bytes)

/-- Reads with `read` and also returns the bytes it read. -/
def spanning (read : Cursor ε α) : Cursor ε (α × Bytes) := fun input =>
  match read input with
  | .ok (value, rest) => .ok ((value, input.take (input.length - rest.length)), rest)
  | .error fault => .error fault

def repeated (read : Cursor ε α) : Nat → Cursor ε (List α)
  | 0 => pure []
  | count + 1 => do
      let head ← read
      let tail ← repeated read count
      pure (head :: tail)

theorem bind_ok {read : Cursor ε α} {next : α → Cursor ε β} {input rest : Bytes} {value : α}
    (first : read input = .ok (value, rest)) : (read >>= next) input = next value rest := by
  change (read input >>= fun result => next result.1 result.2) = _
  rw [first]
  rfl

theorem bind_eq_ok {read : Cursor ε α} {next : α → Cursor ε β} {input last : Bytes} {result : β}
    (both : (read >>= next) input = .ok (result, last)) :
    ∃ value rest, read input = .ok (value, rest) ∧ next value rest = .ok (result, last) := by
  change (read input >>= fun result => next result.1 result.2) = _ at both
  cases first : read input with
  | error fault => rw [first] at both; cases both
  | ok pair =>
      rw [first] at both
      exact ⟨pair.1, pair.2, rfl, both⟩

@[simp] theorem pure_apply (value : α) (input : Bytes) :
    (pure value : Cursor ε α) input = .ok (value, input) := rfl

@[simp] theorem fail_apply (fault : ε) (input : Bytes) :
    (fail fault : Cursor ε α) input = .error fault := rfl

theorem take_append (fault : ε) {length : Nat} {bytes : Bytes} (rest : Bytes)
    (exact : bytes.length = length) : take fault length (bytes ++ rest) = .ok (bytes, rest) := by
  have enough : length ≤ (bytes ++ rest).length := by rw [List.length_append]; omega
  simp only [take, if_pos enough, List.take_left' exact, List.drop_left' exact]

theorem take_eq_ok {fault : ε} {length : Nat} {input bytes rest : Bytes}
    (read : take fault length input = .ok (bytes, rest)) :
    input = bytes ++ rest ∧ bytes.length = length := by
  simp only [take] at read
  split at read
  · rename_i enough
    cases read
    exact ⟨(List.take_append_drop length input).symm, List.length_take_of_le enough⟩
  · cases read

theorem array_append (fault : ε) {width : Nat} (value : FixedBytes width) (rest : Bytes) :
    array fault width (value.bytes ++ rest) = .ok (value, rest) := by
  rw [array, bind_ok (take_append fault rest value.length_eq)]
  simp

theorem array_eq_ok {fault : ε} {width : Nat} {input rest : Bytes} {value : FixedBytes width}
    (read : array fault width input = .ok (value, rest)) : input = value.bytes ++ rest := by
  obtain ⟨slice, middle, taken, converted⟩ := bind_eq_ok read
  obtain ⟨split, exact⟩ := take_eq_ok taken
  simp only [FixedBytes.ofSlice?, dif_pos exact, pure_apply] at converted
  cases converted
  exact split

theorem number_append (fault : ε) {width value : Nat} (bounded : value < 256 ^ width)
    (rest : Bytes) : number fault width (beBytes width value ++ rest) = .ok (value, rest) := by
  rw [number, bind_ok (array_append fault ⟨beBytes width value, beBytes_length width value⟩ rest)]
  simp only [pure_apply, beNat_beBytes width bounded]

theorem number_eq_ok {fault : ε} {width value : Nat} {input rest : Bytes}
    (read : number fault width input = .ok (value, rest)) :
    input = beBytes width value ++ rest ∧ value < 256 ^ width := by
  obtain ⟨digits, middle, taken, converted⟩ := bind_eq_ok read
  cases converted
  have width := digits.length_eq
  have canonical := beBytes_beNat digits.bytes
  rw [width] at canonical
  refine ⟨by rw [canonical]; exact array_eq_ok taken, ?_⟩
  simpa [width] using beNat_lt digits.bytes

theorem bind_of_ok {read : Cursor ε α} {next : α → Cursor ε β} {input rest last : Bytes} {value : α}
    {result : β} (both : (read >>= next) input = .ok (result, last))
    (first : read input = .ok (value, rest)) : next value rest = .ok (result, last) :=
  (bind_ok first).symm.trans both

theorem spanning_append {read : Cursor ε α} {value : α} {bytes rest : Bytes}
    (reads : read (bytes ++ rest) = .ok (value, rest)) :
    spanning read (bytes ++ rest) = .ok ((value, bytes), rest) := by
  have front : (bytes ++ rest).length - rest.length = bytes.length := by
    rw [List.length_append]; omega
  simp only [spanning, reads, front, List.take_left]

/-- A list of encoded items is read back item by item. -/
theorem repeated_append {read : Cursor ε α} {encode : α → Bytes} {items : List α}
    (each : ∀ item ∈ items, ∀ rest, read (encode item ++ rest) = .ok (item, rest))
    (rest : Bytes) :
    repeated read items.length (items.flatMap encode ++ rest) = .ok (items, rest) := by
  induction items with
  | nil => rfl
  | cons head tail ih =>
      have first := each head List.mem_cons_self (tail.flatMap encode ++ rest)
      have later := ih (fun item member => each item (List.mem_cons_of_mem _ member))
      rw [List.flatMap_cons, List.append_assoc, List.length_cons, repeated, bind_ok first,
        bind_ok later, pure_apply]

end Cursor

end SecurePubSub.Data

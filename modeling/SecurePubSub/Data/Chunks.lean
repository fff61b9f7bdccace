import SecurePubSub.Data.Bytes

namespace SecurePubSub.Data

/-! Byte streams that are read in chunks.

A read returns at most the bytes asked for and may return fewer. A buffer is therefore
filled by a loop of reads. The loop ends because every read but the last shortens what is
left, and what it puts into the buffer does not depend on the chunks.
-/

/-- A stream whose reads never return more than was asked for. -/
structure ByteReader (State Failure : Type) where
  read : Nat → State → Except Failure Bytes × State
  read_le : ∀ {wanted state bytes}, (read wanted state).1 = .ok bytes → bytes.length ≤ wanted

namespace ByteReader

variable {State Failure Error : Type} (reader : ByteReader State Failure)
  (failed : Failure → Error) (ended : Error)

/-- Reads until the buffer is full, with at most `reads` calls; none if they do not suffice. -/
def fill : Nat → Nat → State → Option (Except Error Bytes × State)
  | _, 0, state => some (.ok [], state)
  | 0, _ + 1, _ => none
  | reads + 1, wanted + 1, state =>
      match reader.read (wanted + 1) state with
      | (.error reason, after) => some (.error (failed reason), after)
      | (.ok [], after) => some (.error ended, after)
      | (.ok bytes, after) =>
          (fill reads (wanted + 1 - bytes.length) after).map fun (filled, last) =>
            (filled.map (bytes ++ ·), last)

/-- The stream hands out a fixed string, in chunks that are empty only at its end. -/
structure Delivers (remaining : State → Bytes) : Prop where
  chunk : ∀ {wanted} state, 0 < wanted →
    ∃ bytes after, reader.read wanted state = (.ok bytes, after) ∧
      remaining state = bytes ++ remaining after ∧ (bytes = [] → remaining after = [])

variable {reader failed ended} {remaining : State → Bytes} {reads wanted : Nat} {state : State}

theorem fill_step {byte : UInt8} {chunk : Bytes} {after : State} (positive : 0 < wanted)
    (read : reader.read wanted state = (.ok (byte :: chunk), after)) :
    reader.fill failed ended (reads + 1) wanted state =
      (reader.fill failed ended reads (wanted - (byte :: chunk).length) after).map
        fun (filled, last) => (filled.map (byte :: chunk ++ ·), last) := by
  obtain ⟨wanted, rfl⟩ := Nat.exists_eq_add_one.mpr positive
  rw [fill, read]

/-- As many reads as bytes are wanted suffice, whatever the stream does. -/
theorem fill_terminates (wanted : Nat) (state : State) :
    ∃ result, ∀ reads, wanted ≤ reads →
      reader.fill failed ended reads wanted state = some result := by
  induction wanted using Nat.strongRecOn generalizing state with
  | ind wanted ih =>
      cases wanted with
      | zero => exact ⟨(.ok [], state), fun reads _ => by cases reads <;> rfl⟩
      | succ wanted =>
          cases read : reader.read (wanted + 1) state with
          | mk answer after =>
              cases answer with
              | error reason =>
                  refine ⟨(.error (failed reason), after), fun reads enough => ?_⟩
                  obtain ⟨reads, rfl⟩ := Nat.exists_eq_add_one.mpr (Nat.zero_lt_of_lt enough)
                  rw [fill, read]
              | ok bytes =>
                  cases bytes with
                  | nil =>
                      refine ⟨(.error ended, after), fun reads enough => ?_⟩
                      obtain ⟨reads, rfl⟩ := Nat.exists_eq_add_one.mpr (Nat.zero_lt_of_lt enough)
                      rw [fill, read]
                  | cons byte chunk =>
                      have shorter : wanted + 1 - (byte :: chunk).length < wanted + 1 := by
                        rw [List.length_cons]
                        omega
                      obtain ⟨rest, filled⟩ := ih _ shorter after
                      refine ⟨(rest.1.map (byte :: chunk ++ ·), rest.2), fun reads enough => ?_⟩
                      obtain ⟨reads, rfl⟩ := Nat.exists_eq_add_one.mpr (Nat.zero_lt_of_lt enough)
                      have left : wanted + 1 - (byte :: chunk).length ≤ reads := by omega
                      rw [fill_step (Nat.succ_pos wanted) read, filled reads left, Option.map_some]

/-- If the stream still holds what is wanted, the buffer gets exactly that. -/
theorem Delivers.fill_enough (delivers : reader.Delivers remaining) {wantedBytes rest : Bytes}
    (enough : wantedBytes.length ≤ reads) (holds : remaining state = wantedBytes ++ rest) :
    ∃ after, reader.fill failed ended reads wantedBytes.length state = some (.ok wantedBytes, after)
      ∧ remaining after = rest := by
  induction reads generalizing wantedBytes state with
  | zero =>
      have none : wantedBytes = [] := List.eq_nil_of_length_eq_zero (Nat.le_zero.mp enough)
      subst none
      exact ⟨state, rfl, holds⟩
  | succ reads ih =>
      cases wantedBytes with
      | nil => exact ⟨state, rfl, holds⟩
      | cons first others =>
          have positive : 0 < (first :: others).length := Nat.succ_pos _
          obtain ⟨bytes, after, read, split, last⟩ := delivers.chunk state positive
          have fits : bytes.length ≤ (first :: others).length :=
            reader.read_le (congrArg Prod.fst read)
          cases bytes with
          | nil =>
              rw [List.nil_append] at split
              rw [split, last rfl] at holds
              contradiction
          | cons byte chunk =>
              have same : byte :: chunk ++ remaining after = first :: others ++ rest :=
                split.symm.trans holds
              have taken : (first :: others).take (byte :: chunk).length = byte :: chunk := by
                have both := congrArg (List.take (byte :: chunk).length) same
                rw [List.take_left, List.take_append_of_le_length fits] at both
                exact both.symm
              have whole :
                  byte :: chunk ++ (first :: others).drop (byte :: chunk).length
                    = first :: others := by
                have parts := List.take_append_drop (byte :: chunk).length (first :: others)
                rwa [taken] at parts
              have remains :
                  remaining after = (first :: others).drop (byte :: chunk).length ++ rest := by
                have both := congrArg (List.drop (byte :: chunk).length) same
                rwa [List.drop_left, List.drop_append_of_le_length fits] at both
              have shorter : ((first :: others).drop (byte :: chunk).length).length ≤ reads := by
                simp only [List.length_drop, List.length_cons] at enough ⊢
                omega
              obtain ⟨final, filled, left⟩ := ih shorter remains
              rw [List.length_drop] at filled
              refine ⟨final, ?_, left⟩
              rw [fill_step positive read, filled]
              exact congrArg (fun bytes => some (Except.ok bytes, final)) whole

/-- If the stream holds less than what is wanted, it is read to its end. -/
theorem Delivers.fill_short (delivers : reader.Delivers remaining)
    (enough : wanted ≤ reads) (short : (remaining state).length < wanted) :
    ∃ after, reader.fill failed ended reads wanted state = some (.error ended, after)
      ∧ remaining after = [] := by
  induction reads generalizing wanted state with
  | zero => omega
  | succ reads ih =>
      have positive : 0 < wanted := Nat.zero_lt_of_lt short
      obtain ⟨bytes, after, read, split, last⟩ := delivers.chunk state positive
      cases bytes with
      | nil =>
          refine ⟨after, ?_, last rfl⟩
          obtain ⟨wanted, rfl⟩ := Nat.exists_eq_add_one.mpr positive
          rw [fill, read]
      | cons byte chunk =>
          have lengths := congrArg List.length split
          rw [List.length_append, List.length_cons] at lengths
          have fewer : wanted - (byte :: chunk).length ≤ reads := by
            rw [List.length_cons]
            omega
          have still : (remaining after).length < wanted - (byte :: chunk).length := by
            rw [List.length_cons]
            omega
          obtain ⟨final, filled, left⟩ := ih fewer still
          refine ⟨final, ?_, left⟩
          rw [fill_step positive read, filled]
          rfl

end ByteReader

/-- A stream that cuts its bytes where it is told to; behind the last cut it gives all it has. -/
def chunkReader (Failure : Type) : ByteReader (List Nat × Bytes) Failure where
  read wanted state :=
    let count := min wanted (max 1 (state.1.headD wanted))
    (.ok (state.2.take count), (state.1.tail, state.2.drop count))
  read_le := by
    intro wanted state bytes read
    cases read
    rw [List.length_take]
    omega

theorem chunkReader_delivers (Failure : Type) : (chunkReader Failure).Delivers Prod.snd where
  chunk := by
    intro wanted state positive
    refine ⟨_, _, rfl, (List.take_append_drop _ state.2).symm, fun none => ?_⟩
    rcases List.take_eq_nil_iff.mp none with zero | empty
    · omega
    · change state.2.drop _ = []
      rw [empty, List.drop_nil]

end SecurePubSub.Data

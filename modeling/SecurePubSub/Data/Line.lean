import Mathlib.Data.List.Perm.Subperm

namespace SecurePubSub.Data

/-! Waiting lines that hand items out in the order of their arrival.

The item handed out last may come back to the front, and a line may be cut short.
Whatever happens, order is kept and nothing is handed out twice; nothing is lost
exactly when no cut was too short.
-/

/-- What a line took in, what it handed out for good and what waits in it. -/
structure Line (α : Type) where
  accepted : List α
  handedOut : List α
  waiting : List α

inductive Move (α : Type) where
  | accept (item : α)
  | handOut
  | giveBack
  | keep (count : Nat)

namespace Line

variable {α : Type}

def start : Line α := ⟨[], [], []⟩

def move (line : Line α) : Move α → Line α
  | .accept item => ⟨line.accepted ++ [item], line.handedOut, line.waiting ++ [item]⟩
  | .handOut =>
      match line.waiting with
      | item :: rest => ⟨line.accepted, line.handedOut ++ [item], rest⟩
      | [] => line
  | .giveBack =>
      match line.handedOut.getLast? with
      | some item => ⟨line.accepted, line.handedOut.dropLast, item :: line.waiting⟩
      | none => line
  | .keep count => ⟨line.accepted, line.handedOut, line.waiting.take count⟩

def run (line : Line α) (moves : List (Move α)) : Line α := moves.foldl move line

def known (line : Line α) : List α := line.handedOut ++ line.waiting

/-- Order is kept and no item is used twice. -/
def Ordered (line : Line α) : Prop := line.known.Sublist line.accepted

/-- Every accepted item was handed out or waits. -/
def Conserved [BEq α] (line : Line α) : Prop :=
  ∀ item, line.accepted.count item ≤ line.handedOut.count item + line.waiting.count item

/-- A move that cuts waiting items off. -/
def Cuts (line : Line α) : Move α → Prop
  | .keep count => count < line.waiting.length
  | _ => False

@[simp] theorem run_nil (line : Line α) : line.run [] = line := rfl

@[simp] theorem run_cons (line : Line α) (first : Move α) (rest : List (Move α)) :
    line.run (first :: rest) = (line.move first).run rest := rfl

theorem move_giveBack {line : Line α} {earlier : List α} {item : α}
    (last : line.handedOut = earlier ++ [item]) :
    line.move .giveBack = ⟨line.accepted, earlier, item :: line.waiting⟩ := by
  simp [move, last]

theorem known_move (line : Line α) (made : Move α) :
    (line.move made).known =
      match made with
      | .accept item => line.known ++ [item]
      | .handOut => line.known
      | .giveBack => line.known
      | .keep count => line.handedOut ++ line.waiting.take count := by
  cases made with
  | accept item => simp [move, known]
  | handOut =>
      cases waiting : line.waiting with
      | nil => simp [move, known, waiting]
      | cons item rest => simp [move, known, waiting]
  | giveBack =>
      rcases line.handedOut.eq_nil_or_concat with none | ⟨earlier, item, last⟩
      · simp [move, known, none]
      · rw [List.concat_eq_append] at last
        rw [move_giveBack last]
        simp [known, last]
  | keep count => rfl

theorem accepted_move (line : Line α) (made : Move α) :
    (line.move made).accepted =
      match made with
      | .accept item => line.accepted ++ [item]
      | _ => line.accepted := by
  cases made with
  | handOut => cases waiting : line.waiting <;> simp [move, waiting]
  | giveBack => cases last : line.handedOut.getLast? <;> simp [move, last]
  | _ => rfl

theorem Ordered.start : (start : Line α).Ordered := List.Sublist.refl []

theorem Ordered.move {line : Line α} (ordered : line.Ordered) (made : Move α) :
    (line.move made).Ordered := by
  unfold Ordered
  rw [known_move, accepted_move]
  cases made with
  | accept item => exact ordered.append (List.Sublist.refl [item])
  | handOut => exact ordered
  | giveBack => exact ordered
  | keep count =>
      have shorter : (line.handedOut ++ line.waiting.take count).Sublist line.known :=
        (List.Sublist.refl _).append (List.take_sublist count line.waiting)
      exact shorter.trans ordered

theorem Ordered.run {line : Line α} (ordered : line.Ordered) (moves : List (Move α)) :
    (line.run moves).Ordered := by
  induction moves generalizing line with
  | nil => exact ordered
  | cons first rest ih => exact ih (ordered.move first)

/-- What was handed out is an ordered part of what was accepted. -/
theorem Ordered.handedOut {line : Line α} (ordered : line.Ordered) :
    line.handedOut.Sublist line.accepted :=
  (List.sublist_append_left _ _).trans ordered

def missing (line : Line α) : Nat := line.accepted.length - line.known.length

theorem Ordered.length {line : Line α} (ordered : line.Ordered) :
    line.known.length + line.missing = line.accepted.length := by
  have shorter := ordered.length_le
  unfold missing
  omega

theorem missing_move {line : Line α} (ordered : line.Ordered) (made : Move α) :
    line.missing ≤ (line.move made).missing ∧
      (line.Cuts made ↔ line.missing < (line.move made).missing) := by
  have shorter := ordered.length_le
  have after := (ordered.move made).length_le
  unfold missing
  rw [known_move, accepted_move] at *
  cases made with
  | accept item => simp [Cuts]
  | handOut => simp [Cuts]
  | giveBack => simp [Cuts]
  | keep count =>
      simp only [known, List.length_append, List.length_take, Cuts] at *
      omega

theorem conserved_iff_missing [BEq α] [LawfulBEq α] {line : Line α} (ordered : line.Ordered) :
    line.Conserved ↔ line.missing = 0 := by
  have lengths := ordered.length
  constructor
  · intro conserved
    have part : line.accepted.Subperm line.known := by
      apply List.subperm_ext_iff.mpr
      intro item _
      rw [known, List.count_append]
      exact conserved item
    have longer := part.length_le
    omega
  · intro none item
    have same : line.known = line.accepted := ordered.eq_of_length (by omega)
    apply Nat.le_of_eq
    rw [← same, known, List.count_append]

end Line

end SecurePubSub.Data

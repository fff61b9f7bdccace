import Mathlib.Data.List.Basic

namespace SecurePubSub.Data

/-! Sequences of operations on a disk that may fail and be cut off.

An operation reports an error by itself or because the environment makes it, and
the process may stop at any of them. What only the last operation changes is
therefore changed either not at all or by the whole sequence.
-/

/-- What the environment does at an operation: how much of it is done when it is stopped. -/
inductive Event where
  | succeeds
  | fails (done : Nat)
  | crashes (done : Nat)
deriving DecidableEq

inductive Outcome where
  | completed
  | failed
  | crashed
deriving DecidableEq

/-- The effect of each operation, none if it reports an error by itself, and what a stopped one
has done. -/
structure Operations (Disk Op : Type) where
  effect : Op → Disk → Option Disk
  partially : Op → Nat → Disk → Disk

namespace Operations

variable {Disk Op View : Type} (operations : Operations Disk Op)

/-- Behind the last operation there is one more event: the process may stop before it goes on. -/
def attempt : List Op → List Event → Disk → Outcome × Disk
  | [], events, disk =>
      match events.headD .succeeds with
      | .crashes _ => (.crashed, disk)
      | _ => (.completed, disk)
  | operation :: rest, events, disk =>
      match events.headD .succeeds with
      | .crashes done => (.crashed, operations.partially operation done disk)
      | .fails done => (.failed, operations.partially operation done disk)
      | .succeeds =>
          match operations.effect operation disk with
          | none => (.failed, disk)
          | some next => attempt rest events.tail next

/-- The effect of a sequence in which nothing is stopped. -/
def effects : List Op → Disk → Option Disk
  | [], disk => some disk
  | operation :: rest, disk => (operations.effect operation disk).bind (effects rest)

/-- An operation does not show in a view of the disk, whether it is stopped or not. -/
structure Hidden (view : Disk → View) (operation : Op) : Prop where
  effect : ∀ {disk next}, operations.effect operation disk = some next → view next = view disk
  partially : ∀ done disk, view (operations.partially operation done disk) = view disk

variable {operations} {view : Disk → View}

/-- Without a disturbance a sequence completes if all its operations do. -/
theorem attempt_undisturbed {sequence : List Op} {events : List Event} {disk next : Disk}
    (undisturbed : ∀ event ∈ events, event = .succeeds)
    (applied : operations.effects sequence disk = some next) :
    operations.attempt sequence events disk = (.completed, next) := by
  induction sequence generalizing events disk with
  | nil =>
      cases applied
      cases events with
      | nil => rfl
      | cons event later =>
          cases undisturbed event List.mem_cons_self
          rfl
  | cons operation rest ih =>
      obtain ⟨middle, first, later⟩ := Option.bind_eq_some_iff.mp applied
      have head : events.headD .succeeds = .succeeds := by
        cases events with
        | nil => rfl
        | cons event others => exact undisturbed event List.mem_cons_self
      have tail : ∀ event ∈ events.tail, event = .succeeds :=
        fun event member => undisturbed event (List.mem_of_mem_tail member)
      rw [attempt, head]
      simp only [first]
      exact ih tail later

/-- When all but the last operation are hidden, an attempt that does not show did not complete,
and one that shows did not fail and has had the effect of the whole sequence. -/
theorem attempt_cases {front : List Op} {last : Op} {events : List Event} {disk : Disk}
    (hidden : ∀ operation ∈ front, operations.Hidden view operation)
    (stopped : ∀ done disk, view (operations.partially last done disk) = view disk) :
    ((operations.attempt (front ++ [last]) events disk).1 ≠ .completed ∧
        view (operations.attempt (front ++ [last]) events disk).2 = view disk) ∨
      ((operations.attempt (front ++ [last]) events disk).1 ≠ .failed ∧
        operations.effects (front ++ [last]) disk =
          some (operations.attempt (front ++ [last]) events disk).2) := by
  induction front generalizing events disk with
  | nil =>
      simp only [List.nil_append, attempt]
      cases events.headD .succeeds with
      | crashes done => exact .inl ⟨nofun, stopped done disk⟩
      | fails done => exact .inl ⟨nofun, stopped done disk⟩
      | succeeds =>
          cases applied : operations.effect last disk with
          | none => exact .inl ⟨nofun, rfl⟩
          | some next =>
              have whole : operations.effects [last] disk = some next := by
                rw [effects, applied]
                rfl
              dsimp only
              rw [whole]
              cases events.tail.headD .succeeds with
              | crashes done => exact .inr ⟨nofun, rfl⟩
              | fails done => exact .inr ⟨nofun, rfl⟩
              | succeeds => exact .inr ⟨nofun, rfl⟩
  | cons operation rest ih =>
      have here := hidden operation List.mem_cons_self
      rw [List.cons_append, attempt]
      cases events.headD .succeeds with
      | crashes done => exact .inl ⟨nofun, here.partially done disk⟩
      | fails done => exact .inl ⟨nofun, here.partially done disk⟩
      | succeeds =>
          cases applied : operations.effect operation disk with
          | none => exact .inl ⟨nofun, rfl⟩
          | some next =>
              dsimp only
              rw [effects, applied, ← here.effect applied]
              exact ih fun other member => hidden other (List.mem_cons_of_mem _ member)

end Operations

end SecurePubSub.Data

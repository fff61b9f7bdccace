import Mathlib.Data.List.Basic
import Mathlib.Data.Nat.Find
import SecurePubSub.Data.Machine

namespace SecurePubSub.Data

/-! Runs that never end, and what must happen in them eventually.

A queue that is served while it holds something brings each of its items to the
front, and a backlog on which progress is never given up is worked off.
-/

/-! ## Endless runs -/

namespace Machine

variable {σ ι : Type} {step : σ → ι → σ} {condition : σ → ι → Prop} {state : σ} {inputs : Nat → ι}

/-- The states of an endless run. -/
def states (step : σ → ι → σ) (state : σ) (inputs : Nat → ι) : Nat → σ
  | 0 => state
  | time + 1 => step (states step state inputs time) (inputs time)

/-- Every step of an endless run meets a condition on the state before it. -/
def Throughout (step : σ → ι → σ) (condition : σ → ι → Prop) (state : σ) (inputs : Nat → ι) :
    Prop :=
  ∀ time, condition (states step state inputs time) (inputs time)

theorem Throughout.preserves (throughout : Throughout step condition state inputs)
    (holds : σ → Prop)
    (each : ∀ current input, holds current → condition current input → holds (step current input))
    (initially : holds state) (time : Nat) : holds (states step state inputs time) := by
  induction time with
  | zero => exact initially
  | succ time ih => exact each _ _ ih (throughout time)

/-- The inputs of a list and then one input for ever. -/
def padded (list : List ι) (idle : ι) (time : Nat) : ι := list.getD time idle

theorem states_padded_cons (first : ι) (rest : List ι) (idle : ι) (time : Nat) :
    states step state (padded (first :: rest) idle) (time + 1) =
      states step (step state first) (padded rest idle) time := by
  induction time with
  | zero => rfl
  | succ time ih => rw [states, ih, states]; rfl

/-- A run over a list that ends where the last input changes nothing goes on for ever. -/
theorem throughout_padded {list : List ι} {idle : ι}
    (along : Along step condition state list)
    (rests : step (run step state list) idle = run step state list)
    (quiet : condition (run step state list) idle) :
    Throughout step condition state (padded list idle) ∧
      ∀ time, list.length ≤ time →
        states step state (padded list idle) time = run step state list := by
  induction list generalizing state with
  | nil =>
      have still (time : Nat) : states step state (padded [] idle) time = state := by
        induction time with
        | zero => rfl
        | succ time ih =>
            rw [states, ih]
            exact rests
      refine ⟨fun time => ?_, fun time _ => still time⟩
      rw [still]
      exact quiet
  | cons first rest ih =>
      obtain ⟨here, later⟩ := along
      obtain ⟨throughout, still⟩ := ih later rests quiet
      constructor
      · intro time
        cases time with
        | zero => exact here
        | succ time =>
            rw [states_padded_cons]
            exact throughout time
      · intro time reached
        cases time with
        | zero => cases reached
        | succ time =>
            rw [states_padded_cons]
            exact still time (Nat.le_of_succ_le_succ reached)

end Machine

/-! ## Fairness -/

/-- What stays possible for ever is done at some time. -/
def WeaklyFair (possible done : Nat → Prop) : Prop :=
  ∀ start, (∀ time, start ≤ time → possible time) → ∃ time, start ≤ time ∧ done time

/-- The first time from a start on at which something holds. -/
theorem first_time {holds : Nat → Prop} {start : Nat}
    (eventually : ∃ time, start ≤ time ∧ holds time) :
    ∃ time, start ≤ time ∧ holds time ∧ ∀ other, start ≤ other → other < time → ¬ holds other := by
  classical
  let time := Nat.find eventually
  have found := Nat.find_spec eventually
  refine ⟨time, found.1, found.2, fun other after earlier held => ?_⟩
  exact Nat.find_min eventually earlier ⟨after, held⟩

/-- What each step keeps holds from a time on. -/
theorem holds_onwards {holds : Nat → Prop} {start finish : Nat}
    (each : ∀ time, start ≤ time → time < finish → holds time → holds (time + 1))
    (initially : holds start) {time : Nat} (after : start ≤ time) (until_ : time ≤ finish) :
    holds time := by
  induction after with
  | refl => exact initially
  | step after ih =>
      exact each _ after until_ (ih (Nat.le_of_succ_le until_))

/-- A rank that falls again and again, unless the goal is reached, leads to the goal. -/
theorem eventually_of_rank {goal : Nat → Prop} (rank : Nat → Nat) {start : Nat}
    (falls : ∀ time, start ≤ time → (∃ later, time ≤ later ∧ goal later) ∨
      ∃ later, time ≤ later ∧ rank later < rank time) :
    ∃ time, start ≤ time ∧ goal time := by
  induction measure : rank start using Nat.strongRecOn generalizing start with
  | ind value ih =>
      rcases falls start le_rfl with reached | ⟨later, after, lower⟩
      · exact reached
      · obtain ⟨time, onwards, reached⟩ := ih (rank later) (measure ▸ lower)
          (fun time onwards => falls time (Nat.le_trans after onwards)) rfl
        exact ⟨time, Nat.le_trans after onwards, reached⟩

/-! ## Queues -/

/-- A FIFO queue over time: it is served from the front, and not left alone while it holds
something. -/
structure Fifo {α : Type} (queue : Nat → List α) (served : Nat → Prop) : Prop where
  serves : ∀ time, served time → ∃ back, queue (time + 1) = (queue time).tail ++ back
  keeps : ∀ time, ¬ served time → ∃ back, queue (time + 1) = queue time ++ back
  fair : WeaklyFair (fun time => queue time ≠ []) served

namespace Fifo

variable {α : Type} {queue : Nat → List α} {served : Nat → Prop}

theorem grows (fifo : Fifo queue served) {start finish : Nat}
    (unserved : ∀ time, start ≤ time → time < finish → ¬ served time) {time : Nat}
    (after : start ≤ time) (until_ : time ≤ finish) : ∃ back, queue time = queue start ++ back := by
  have each (time : Nat) (after : start ≤ time) (before : time < finish)
      (grown : ∃ back, queue time = queue start ++ back) :
      ∃ back, queue (time + 1) = queue start ++ back := by
    obtain ⟨back, grown⟩ := grown
    obtain ⟨more, kept⟩ := fifo.keeps time (unserved time after before)
    exact ⟨back ++ more, by rw [kept, grown, List.append_assoc]⟩
  exact holds_onwards each ⟨[], (List.append_nil _).symm⟩ after until_

/-- The next time at which a queue that holds something is served. -/
theorem next (fifo : Fifo queue served) {start : Nat} (some : queue start ≠ []) :
    ∃ time back, start ≤ time ∧ served time ∧ queue time = queue start ++ back := by
  have eventually : ∃ time, start ≤ time ∧ served time := by
    by_contra never
    have unserved : ∀ time, start ≤ time → ¬ served time :=
      fun time after serving => never ⟨time, after, serving⟩
    refine never (fifo.fair start fun time after => ?_)
    obtain ⟨back, grown⟩ := fifo.grows (fun other after _ => unserved other after) after le_rfl
    rw [grown]
    exact List.append_ne_nil_of_left_ne_nil some back
  obtain ⟨time, after, serving, first⟩ := first_time eventually
  obtain ⟨back, grown⟩ := fifo.grows first after le_rfl
  exact ⟨time, back, after, serving, grown⟩

/-- Each item is at the front when the queue is served some time. -/
theorem reaches_front (fifo : Fifo queue served) {start : Nat} {item : α}
    (waiting : item ∈ queue start) :
    ∃ time rest, start ≤ time ∧ served time ∧ queue time = item :: rest := by
  obtain ⟨front, behind, split⟩ := List.append_of_mem waiting
  clear waiting
  induction front generalizing start behind with
  | nil =>
      have some : queue start ≠ [] := by simp [split]
      obtain ⟨time, back, after, serving, grown⟩ := fifo.next some
      exact ⟨time, behind ++ back, after, serving, by rw [grown, split]; rfl⟩
  | cons first front ih =>
      have some : queue start ≠ [] := by simp [split]
      obtain ⟨time, back, after, serving, grown⟩ := fifo.next some
      obtain ⟨more, moved⟩ := fifo.serves time serving
      rw [grown, split] at moved
      obtain ⟨later, rest, onwards, serving, reached⟩ :=
        ih (behind ++ back ++ more) (moved.trans (by simp))
      exact ⟨later, rest, Nat.le_trans after (Nat.le_of_succ_le onwards), serving, reached⟩

end Fifo

/-- Work is done in the order in which it comes in. If some is done whenever some is left, then
all that has come in is done at some time. -/
theorem worked_off {α : Type} {incoming finished : Nat → List α}
    (comes : ∀ time, incoming time <+: incoming (time + 1))
    (within : ∀ time, finished time <+: incoming time)
    (progress : ∀ time, finished time ≠ incoming time →
      ∃ later, time ≤ later ∧ (finished time).length < (finished later).length)
    (start : Nat) : ∃ time, start ≤ time ∧ incoming start <+: finished time := by
  have grown {time : Nat} (after : start ≤ time) : incoming start <+: incoming time := by
    induction after with
    | refl => exact List.prefix_refl _
    | step after ih => exact ih.trans (comes _)
  refine eventually_of_rank (fun time => (incoming start).length - (finished time).length)
    fun time after => ?_
  by_cases enough : (incoming start).length ≤ (finished time).length
  · exact .inl ⟨time, le_rfl,
      List.prefix_of_prefix_length_le (grown after) (within time) enough⟩
  · have left : finished time ≠ incoming time := by
      intro same
      have longer := (grown after).length_le
      rw [← same] at longer
      exact enough longer
    obtain ⟨later, onwards, more⟩ := progress time left
    exact .inr ⟨later, onwards, by omega⟩

end SecurePubSub.Data

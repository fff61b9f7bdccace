import SecurePubSub.Data.Fallible

namespace SecurePubSub.Data

open SecurePubSub.Data.Fallible

/-! Programs that call an interface whose calls may fail.

A program is a tree of calls and of what it does with each reply, so one
definition can be run to its end against a state, or be advanced one call at a
time while others use the same state.
-/

/-- The calls of an interface and the value each returns unless it faults. -/
structure Interface where
  Call : Type
  Value : Call → Type
  Fault : Type

namespace Interface

/-- What a call answers. -/
abbrev Reply (interface : Interface) (call : interface.Call) : Type :=
  Except interface.Fault (interface.Value call)

/-- One call together with its reply. -/
structure Event (interface : Interface) where
  call : interface.Call
  reply : interface.Reply call

end Interface

inductive Program (interface : Interface) (α : Type) where
  | done (value : α)
  | fail (fault : interface.Fault)
  | call (request : interface.Call) (resume : interface.Reply request → Program interface α)

/-- How a state of type `σ` answers each call. -/
def Handler (interface : Interface) (σ : Type) : Type :=
  (call : interface.Call) → σ → interface.Reply call × σ

namespace Program

variable {interface : Interface} {σ α β : Type}

def bind : Program interface α → (α → Program interface β) → Program interface β
  | done value, next => next value
  | fail fault, _ => fail fault
  | call request resume, next => call request (fun reply => bind (resume reply) next)

instance : Monad (Program interface) where
  pure := done
  bind := bind

/-- Lifts a pure fallible computation; its error ends the program. -/
def ofExcept : Except interface.Fault α → Program interface α
  | .ok value => done value
  | .error fault => fail fault

/-- Makes one call; its fault ends the program. -/
def perform (request : interface.Call) : Program interface (interface.Value request) :=
  call request ofExcept

/-- Runs a program to its end. The state reached is kept also when it fails. -/
def run (handler : Handler interface σ) : Program interface α → σ → Except interface.Fault α × σ
  | done value, state => (.ok value, state)
  | fail fault, state => (.error fault, state)
  | call request resume, state =>
      let answer := handler request state
      run handler (resume answer.1) answer.2

/-- The calls of a run in their order. -/
def events (handler : Handler interface σ) :
    Program interface α → σ → List interface.Event
  | done _, _ => []
  | fail _, _ => []
  | call request resume, state =>
      let answer := handler request state
      ⟨request, answer.1⟩ :: events handler (resume answer.1) answer.2

section Running

variable (handler : Handler interface σ) (state : σ)

@[simp] theorem run_pure (value : α) :
    run handler (pure value : Program interface α) state = (.ok value, state) := rfl

@[simp] theorem run_done (value : α) :
    run handler (done value : Program interface α) state = (.ok value, state) := rfl

@[simp] theorem run_fail (fault : interface.Fault) :
    run handler (fail fault : Program interface α) state = (.error fault, state) := rfl

@[simp] theorem run_ofExcept (result : Except interface.Fault α) :
    run handler (ofExcept result) state = (result, state) := by
  cases result <;> rfl

@[simp] theorem run_perform (request : interface.Call) :
    run handler (perform request) state = handler request state := by
  simp only [perform, run, run_ofExcept]

/-- What a sequence of two programs does, from what its first half does. -/
def continueWith (next : α → Program interface β) :
    Except interface.Fault α × σ → Except interface.Fault β × σ
  | (.ok value, state) => run handler (next value) state
  | (.error fault, state) => (.error fault, state)

theorem run_bind (program : Program interface α) (next : α → Program interface β) :
    run handler (program >>= next) state =
      continueWith handler next (run handler program state) := by
  change run handler (bind program next) state = _
  induction program generalizing state with
  | done value => rfl
  | fail fault => rfl
  | call request resume ih => exact ih _ _

@[simp] theorem continueWith_ok (next : α → Program interface β) (value : α) :
    continueWith handler next (.ok value, state) = run handler (next value) state := rfl

@[simp] theorem continueWith_error (next : α → Program interface β) (fault : interface.Fault) :
    continueWith handler next (.error fault, state) = (.error fault, state) := rfl

/-- Every error of a sequence is one of its first half or of what followed it. -/
theorem run_bind_fails {allowed : interface.Fault → Prop} {program : Program interface α}
    {next : α → Program interface β}
    (early : FailsOnly allowed (run handler program state).1)
    (late : ∀ value middle, run handler program state = (.ok value, middle) →
      FailsOnly allowed (run handler (next value) middle).1) :
    FailsOnly allowed (run handler (program >>= next) state).1 := by
  rw [run_bind]
  rcases half : run handler program state with ⟨result, middle⟩
  rw [half] at early
  cases result with
  | error fault => exact failsOnly_error (early fault rfl)
  | ok value => exact late value middle half

end Running

theorem run_preserves {handler : Handler interface σ} (holds : σ → Prop)
    (step : ∀ request state, holds state → holds (handler request state).2)
    (program : Program interface α) {state : σ} (start : holds state) :
    holds (run handler program state).2 := by
  induction program generalizing state with
  | done value => exact start
  | fail fault => exact start
  | call request resume ih => exact ih _ (step request state start)

/-- The replies a program has had so far and the program that is left. -/
inductive Consumes : Program interface α → List interface.Event → Program interface α → Prop where
  | here {program : Program interface α} : Consumes program [] program
  | step {request : interface.Call} {resume : interface.Reply request → Program interface α}
      {reply : interface.Reply request} {rest : List interface.Event}
      {left : Program interface α} (tail : Consumes (resume reply) rest left) :
      Consumes (call request resume) (⟨request, reply⟩ :: rest) left

theorem Consumes.snoc {program : Program interface α} {front : List interface.Event}
    {request : interface.Call} {resume : interface.Reply request → Program interface α}
    (consumed : Consumes program front (call request resume)) (reply : interface.Reply request) :
    Consumes program (front ++ [⟨request, reply⟩]) (resume reply) := by
  generalize left : call request resume = rest at consumed
  induction consumed with
  | here => subst left; exact .step .here
  | step _ ih => exact .step (ih left)

/-- A sequence that returned made the calls of its first half and then those of what followed. -/
theorem Consumes.bind_done {program : Program interface α} {next : α → Program interface β}
    {history : List interface.Event} {result : β}
    (consumed : Consumes (program >>= next) history (done result)) :
    ∃ front back value, history = front ++ back ∧ Consumes program front (done value) ∧
      Consumes (next value) back (done result) := by
  change Consumes (bind program next) history (done result) at consumed
  induction program generalizing history with
  | done value => exact ⟨[], history, value, rfl, .here, consumed⟩
  | fail fault => cases consumed
  | call request resume ih =>
      cases consumed with
      | step tail =>
          obtain ⟨front, back, value, split, first, second⟩ := ih _ tail
          exact ⟨_ :: front, back, value, by rw [split]; rfl, .step first, second⟩

theorem Consumes.ofExcept_done {computed : Except interface.Fault α}
    {history : List interface.Event} {value : α}
    (consumed : Consumes (ofExcept computed) history (done value)) :
    history = [] ∧ computed = .ok value := by
  cases computed with
  | error fault => cases consumed
  | ok result => cases consumed; exact ⟨rfl, rfl⟩

theorem Consumes.perform_done {request : interface.Call} {history : List interface.Event}
    {value : interface.Value request}
    (consumed : Consumes (perform request) history (done value)) :
    history = [⟨request, .ok value⟩] := by
  cases consumed with
  | step tail =>
      obtain ⟨rfl, rfl⟩ := tail.ofExcept_done
      rfl

end Program

end SecurePubSub.Data

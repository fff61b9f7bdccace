import SecurePubSub.Data.Program

namespace SecurePubSub.Data

open SecurePubSub.Data.Fallible

/-! What a program may rely on in replies and must guarantee of its calls.

A program obeys a contract when, as long as every reply is as relied on, every
call is as guaranteed. The rules follow the way programs are built, and a run
against a handler that answers as relied on makes only guaranteed calls.
-/

structure Contract (interface : Interface) where
  rely : (request : interface.Call) → interface.Reply request → Prop
  guarantee : interface.Call → Prop

namespace Program

variable {interface : Interface} {σ α β : Type} {contract : Contract interface}

/-- The program keeps its side of the contract and returns only values that satisfy `returns`. -/
def Obeys (contract : Contract interface) (returns : α → Prop) : Program interface α → Prop
  | done value => returns value
  | fail _ => True
  | call request resume => contract.guarantee request ∧
      ∀ reply, contract.rely request reply → Obeys contract returns (resume reply)

theorem obeys_pure {returns : α → Prop} {value : α} (holds : returns value) :
    Obeys contract returns (pure value : Program interface α) := holds

theorem obeys_fail {returns : α → Prop} (fault : interface.Fault) :
    Obeys contract returns (fail fault : Program interface α) := trivial

theorem obeys_ofExcept {returns : α → Prop} {computed : Except interface.Fault α}
    (holds : ∀ value, computed = .ok value → returns value) :
    Obeys contract returns (ofExcept computed) := by
  cases computed with
  | error fault => trivial
  | ok value => exact holds value rfl

theorem obeys_perform {request : interface.Call} {returns : interface.Value request → Prop}
    (allowed : contract.guarantee request)
    (holds : ∀ value, contract.rely request (.ok value) → returns value) :
    Obeys contract returns (perform request) := by
  refine ⟨allowed, fun reply relied => obeys_ofExcept fun value replied => ?_⟩
  exact holds value (replied ▸ relied)

/-- A sequence obeys when its first half returns what its second half needs. -/
theorem obeys_bind {between : α → Prop} {returns : β → Prop} {program : Program interface α}
    {next : α → Program interface β} (first : Obeys contract between program)
    (second : ∀ value, between value → Obeys contract returns (next value)) :
    Obeys contract returns (program >>= next) := by
  change Obeys contract returns (bind program next)
  induction program with
  | done value => exact second value first
  | fail fault => trivial
  | call request resume ih => exact ⟨first.1, fun reply relied => ih reply (first.2 reply relied)⟩

/-- What is left of a program keeps to its contract as long as the replies were as relied on. -/
theorem Obeys.left {program left : Program interface α} {returns : α → Prop}
    {history : List interface.Event} (obeys : Obeys contract returns program)
    (consumed : Consumes program history left)
    (relied : ∀ event ∈ history, contract.rely event.call event.reply) :
    Obeys contract returns left := by
  induction consumed with
  | here => exact obeys
  | step _ ih =>
      apply ih
      · exact obeys.2 _ (relied _ List.mem_cons_self)
      · exact fun event member => relied event (List.mem_cons_of_mem _ member)

/-- A program that relies on nothing has only made guaranteed calls. -/
theorem Obeys.made {program left : Program interface α} {returns : α → Prop}
    {history : List interface.Event} (obeys : Obeys contract returns program)
    (unconditional : ∀ request reply, contract.rely request reply)
    (consumed : Consumes program history left) :
    ∀ event ∈ history, contract.guarantee event.call := by
  induction consumed with
  | here => exact fun event member => nomatch member
  | step _ ih =>
      intro event member
      rcases List.mem_cons.mp member with same | later
      · subst same
        exact obeys.1
      · exact ih (obeys.2 _ (unconditional _ _)) event later

/-- A handler that answers as relied on and keeps its invariant keeps that over a whole run, which
then makes only guaranteed calls. -/
theorem Obeys.run {program : Program interface α} {returns : α → Prop}
    (obeys : Obeys contract returns program) {handler : Handler interface σ} (holds : σ → Prop)
    (answers : ∀ request state, holds state → contract.guarantee request →
      contract.rely request (handler request state).1 ∧ holds (handler request state).2)
    {state : σ} (start : holds state) :
    holds (run handler program state).2 ∧
      (∀ value, (run handler program state).1 = .ok value → returns value) ∧
      ∀ event ∈ events handler program state, contract.guarantee event.call ∧
        ∃ before, holds before ∧ event.reply = (handler event.call before).1 := by
  induction program generalizing state with
  | done value =>
      exact ⟨start, fun result same => Except.ok.inj same ▸ obeys, fun _ member => nomatch member⟩
  | fail fault =>
      exact ⟨start, fun result same => (nomatch same), fun _ member => nomatch member⟩
  | call request resume ih =>
      obtain ⟨relied, kept⟩ := answers request state start obeys.1
      obtain ⟨last, returned, later⟩ := ih _ (obeys.2 _ relied) kept
      refine ⟨last, returned, fun event member => ?_⟩
      rcases List.mem_cons.mp member with same | rest
      · subst same
        exact ⟨obeys.1, state, start, rfl⟩
      · exact later event rest

end Program

end SecurePubSub.Data

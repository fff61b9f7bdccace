import Mathlib.Algebra.Order.BigOperators.Group.List
import Mathlib.Algebra.Order.Group.Nat
import SecurePubSub.Data.History
import SecurePubSub.Data.Interleaving

namespace SecurePubSub.Data

/-! Threads whose only shared state is the journal of all calls.

Each reply may depend on everything that happened before, so an adversary that
schedules, reads and answers the calls is one way to answer them.
-/

variable {interface : Interface} {α : Type}

/-- A reply for each call, given the calls before it. -/
abbrev Answers (interface : Interface) : Type :=
  (call : interface.Call) → List interface.Event → interface.Reply call

def journal (answers : Answers interface) : Handler interface (List interface.Event) :=
  fun call log => (answers call log, log ++ [⟨call, answers call log⟩])

/-- An event stands in the journal as the answer to what was there before. -/
def Given (answers : Answers interface) (earlier : List interface.Event)
    (event : interface.Event) : Prop :=
  event.reply = answers event.call earlier

namespace Pool

variable {answers : Answers interface} {admissible : Program interface α → Prop}
  {pool : Pool interface (List interface.Event) α}

theorem Reachable.given (reached : Reachable (journal answers) admissible (idle []) pool) :
    Causal (Given answers) pool.shared := by
  induction reached with
  | refl => exact .nil _
  | tail _ step ih =>
      cases step with
      | start program allowed => exact ih
      | advance program history request resume => exact ih.snoc rfl

/-- The journal is what the threads have done, shuffled. -/
theorem Reachable.shuffled (reached : Reachable (journal answers) admissible (idle []) pool) :
    (pool.threads.flatMap Thread.history).Perm pool.shared := by
  induction reached with
  | refl => exact .nil
  | tail _ step ih =>
      cases step with
      | start program allowed =>
          simpa only [spawn, List.flatMap_append, List.flatMap_singleton, List.append_nil] using ih
      | @advance shared front back program history request resume =>
          simp only [List.flatMap_append, List.flatMap_cons, List.append_assoc, journal] at ih ⊢
          have last := ih.append_right [⟨request, answers request shared⟩]
          refine List.Perm.trans ?_ last
          simp only [List.append_assoc]
          exact (List.perm_append_comm.append_left _).append_left _

/-- Two threads that did what was done once are the same one. -/
theorem Reachable.separate (reached : Reachable (journal answers) admissible (idle []) pool)
    {wanted : interface.Event → Bool} (once : pool.shared.countP wanted ≤ 1) {first second : Nat}
    {left right : Thread interface α} (foundLeft : pool.threads[first]? = some left)
    (foundRight : pool.threads[second]? = some right)
    (inLeft : ∃ event ∈ left.history, wanted event = true)
    (inRight : ∃ event ∈ right.history, wanted event = true) : first = second := by
  have total := reached.shuffled.countP_eq wanted
  rw [List.countP_flatMap] at total
  have apart (counts : List Nat) (small : counts.sum ≤ 1) :
      ∀ i j : Nat, i < j → ∀ a b, counts[i]? = some a → counts[j]? = some b → 0 < a → 0 < b →
        False := by
    induction counts with
    | nil => exact fun i j _ a b found => nomatch found
    | cons head rest ih =>
        intro i j below a b atI atJ positiveA positiveB
        rw [List.sum_cons] at small
        cases j with
        | zero => omega
        | succ later =>
            rw [List.getElem?_cons_succ] at atJ
            have inRest := List.le_sum_of_mem (List.mem_of_getElem? atJ)
            cases i with
            | zero =>
                cases atI
                omega
            | succ earlier =>
                exact ih (by omega) earlier later (by omega) a b atI atJ positiveA positiveB
  have counted (index : Nat) {thread : Thread interface α}
      (found : pool.threads[index]? = some thread) :
      (pool.threads.map (List.countP wanted ∘ Thread.history))[index]? =
        some (thread.history.countP wanted) := by
    rw [List.getElem?_map, found]
    rfl
  have positive {history : List interface.Event} (made : ∃ event ∈ history, wanted event = true) :
      0 < history.countP wanted := List.countP_pos_iff.mpr made
  rw [← total] at once
  rcases Nat.lt_trichotomy first second with below | same | above
  · exact (apart _ once first second below _ _ (counted first foundLeft)
      (counted second foundRight) (positive inLeft) (positive inRight)).elim
  · exact same
  · exact (apart _ once second first above _ _ (counted second foundRight)
      (counted first foundLeft) (positive inRight) (positive inLeft)).elim

end Pool

end SecurePubSub.Data

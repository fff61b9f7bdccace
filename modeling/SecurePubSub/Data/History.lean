import Mathlib.Data.List.Basic
import Mathlib.Data.List.DropRight

namespace SecurePubSub.Data

/-! Histories in which every event is explained by what happened before it, and the
latest part of a history.
-/

variable {ε : Type}

/-- Each event is explained by the events before it. -/
def Causal (explains : List ε → ε → Prop) (history : List ε) : Prop :=
  ∀ earlier event later, history = earlier ++ event :: later → explains earlier event

namespace Causal

variable {explains : List ε → ε → Prop} {history : List ε}

theorem nil (explains : List ε → ε → Prop) : Causal explains [] := by
  intro earlier event later split
  cases earlier <;> cases split

theorem snoc (causal : Causal explains history) {event : ε} (explained : explains history event) :
    Causal explains (history ++ [event]) := by
  intro earlier other later split
  rcases later.eq_nil_or_concat with rfl | ⟨front, last, rfl⟩
  · obtain ⟨rfl, same⟩ := List.append_inj' split rfl
    cases same
    exact explained
  · rw [List.concat_eq_append, ← List.cons_append, ← List.append_assoc] at split
    obtain ⟨same, _⟩ := List.append_inj' split rfl
    exact causal earlier other front same

/-- Several events that the history so far explains. -/
theorem append (causal : Causal explains history)
    (monotone : ∀ earlier more event, explains earlier event → explains (earlier ++ more) event)
    {events : List ε} (explained : ∀ event ∈ events, explains history event) :
    Causal explains (history ++ events) := by
  induction events generalizing history with
  | nil =>
      rw [List.append_nil]
      exact causal
  | cons first rest ih =>
      have next := causal.snoc (explained first List.mem_cons_self)
      rw [← List.singleton_append, ← List.append_assoc]
      exact ih next fun event member =>
        monotone _ _ _ (explained event (List.mem_cons_of_mem _ member))

theorem front {earlier later : List ε} (causal : Causal explains (earlier ++ later)) :
    Causal explains earlier := by
  intro before event after split
  apply causal before event (after ++ later)
  rw [split, List.append_assoc, List.cons_append]

theorem explained (causal : Causal explains history)
    (monotone : ∀ earlier more event, explains earlier event → explains (earlier ++ more) event)
    {event : ε} (member : event ∈ history) : explains history event := by
  obtain ⟨earlier, later, rfl⟩ := List.append_of_mem member
  exact monotone _ _ _ (causal earlier event later rfl)

end Causal

/-! ## The latest events -/

section Latest

variable {history : List ε} {maximum : Nat}

theorem rtake_eq_drop : history.rtake maximum = history.drop (history.length - maximum) := rfl

theorem length_rtake : (history.rtake maximum).length = min maximum history.length := by
  rw [rtake_eq_drop, List.length_drop]
  omega

/-- One more event pushes the oldest of the latest ones out when they are full. -/
theorem rtake_snoc (positive : 0 < maximum) (event : ε) :
    (history ++ [event]).rtake maximum =
      (if (history.rtake maximum).length = maximum then (history.rtake maximum).tail
        else history.rtake maximum) ++ [event] := by
  obtain ⟨smaller, rfl⟩ := Nat.exists_eq_add_one.mpr positive
  rw [List.rtake_concat_succ, length_rtake]
  congr 1
  by_cases full : smaller + 1 ≤ history.length
  · rw [if_pos (Nat.min_eq_left full), rtake_eq_drop, rtake_eq_drop, List.tail_drop]
    congr 1
    omega
  · rw [if_neg (by omega), rtake_eq_drop, rtake_eq_drop]
    congr 1
    omega

end Latest

end SecurePubSub.Data

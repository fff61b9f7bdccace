import Mathlib.Logic.Basic

namespace SecurePubSub.Data.Fallible

/-! Sequencing of computations that return a value or an error. -/

variable {ε α β : Type}

theorem bind_eq_ok {first : Except ε α} {next : α → Except ε β} {result : β} :
    (first >>= next) = .ok result ↔ ∃ value, first = .ok value ∧ next value = .ok result := by
  cases first with
  | error fault =>
      change Except.error fault = Except.ok result ↔ _
      simp
  | ok value =>
      change next value = .ok result ↔ _
      simp

@[simp] theorem ok_bind (value : α) (next : α → Except ε β) :
    ((.ok value : Except ε α) >>= next) = next value := rfl

@[simp] theorem error_bind (fault : ε) (next : α → Except ε β) :
    ((.error fault : Except ε α) >>= next) = .error fault := rfl

theorem map_eq_ok {computed : Except ε α} {change : α → β} {result : β} :
    computed.map change = .ok result ↔ ∃ value, computed = .ok value ∧ change value = result := by
  cases computed <;> simp [Except.map]

theorem mapError_eq_ok {ζ : Type} {computed : Except ε α} {change : ε → ζ} {result : α} :
    computed.mapError change = .ok result ↔ computed = .ok result := by
  cases computed with
  | error fault => constructor <;> intro done <;> cases done
  | ok value => constructor <;> intro done <;> cases done <;> rfl

def rejectIf (refused : Prop) [Decidable refused] (fault : ε) : Except ε Unit :=
  if refused then .error fault else .ok ()

@[simp] theorem rejectIf_eq_ok {refused : Prop} [Decidable refused] {fault : ε} {result : Unit} :
    rejectIf refused fault = .ok result ↔ ¬ refused := by
  by_cases holds : refused <;> simp [rejectIf, holds]

theorem rejectIf_pass {refused : Prop} [Decidable refused] (fault : ε) (allowed : ¬ refused) :
    rejectIf refused fault = .ok () :=
  if_neg allowed

theorem rejectIf_fail {refused : Prop} [Decidable refused] (fault : ε) (holds : refused) :
    rejectIf refused fault = .error fault :=
  if_pos holds

/-- What was passed by a check and then returned was returned after it. -/
theorem rejectIf_bind_eq_ok {refused : Prop} [Decidable refused] {fault : ε}
    {next : Unit → Except ε β} {result : β}
    (passed : (rejectIf refused fault >>= next) = .ok result) :
    ¬ refused ∧ next () = .ok result := by
  obtain ⟨⟨⟩, allowed, rest⟩ := bind_eq_ok.mp passed
  exact ⟨rejectIf_eq_ok.mp allowed, rest⟩

theorem mapM_cons_eq_ok {read : α → Except ε β} {head : α} {tail : List α} {results : List β} :
    (head :: tail).mapM read = .ok results ↔ ∃ first later, read head = .ok first ∧
      tail.mapM read = .ok later ∧ results = first :: later := by
  rw [List.mapM_cons]
  constructor
  · intro done
    obtain ⟨first, headRead, done⟩ := bind_eq_ok.mp done
    obtain ⟨later, tailRead, same⟩ := bind_eq_ok.mp done
    cases same
    exact ⟨first, later, headRead, tailRead, rfl⟩
  · intro ⟨first, later, headRead, tailRead, same⟩
    rw [headRead, ok_bind, tailRead, ok_bind, same]
    rfl

theorem mapM_sublist {read : α → Except ε β} {items all : List α} {results : List β}
    (part : items.Sublist all) (done : all.mapM read = .ok results) :
    ∃ kept, items.mapM read = .ok kept ∧ kept.Sublist results := by
  induction part generalizing results with
  | slnil => exact ⟨results, done, .refl _⟩
  | cons head _ ih =>
      obtain ⟨_, later, _, read, rfl⟩ := mapM_cons_eq_ok.mp done
      obtain ⟨kept, readPart, short⟩ := ih read
      exact ⟨kept, readPart, .cons _ short⟩
  | cons_cons head _ ih =>
      obtain ⟨first, later, readHead, read, rfl⟩ := mapM_cons_eq_ok.mp done
      obtain ⟨kept, readPart, short⟩ := ih read
      have readBoth := mapM_cons_eq_ok.mpr ⟨first, kept, readHead, readPart, rfl⟩
      exact ⟨first :: kept, readBoth, .cons_cons _ short⟩

theorem mapM_ok {read : α → Except ε β} {items : List α}
    (each : ∀ item ∈ items, ∃ result, read item = .ok result) :
    ∃ results, items.mapM read = .ok results := by
  induction items with
  | nil => exact ⟨[], rfl⟩
  | cons head tail ih =>
      obtain ⟨first, headRead⟩ := each head List.mem_cons_self
      obtain ⟨later, tailRead⟩ := ih (fun item member => each item (List.mem_cons_of_mem _ member))
      exact ⟨first :: later, mapM_cons_eq_ok.mpr ⟨first, later, headRead, tailRead, rfl⟩⟩

/-- What a fallible fold has established about the items it is done with. -/
theorem foldlM_induction {σ : Type} {step : σ → α → Except ε σ} {holds : List α → σ → Prop}
    (one : ∀ {done item state next}, holds done state → step state item = .ok next →
      holds (done ++ [item]) next) {items : List α} {first last : σ} (start : holds [] first)
    (folded : items.foldlM step first = .ok last) : holds items last := by
  suffices general : ∀ (items done : List α) (state : σ), holds done state →
      items.foldlM step state = .ok last → holds (done ++ items) last from
    general items [] first start folded
  intro items
  induction items with
  | nil =>
      intro done state held folded
      cases folded
      rw [List.append_nil]
      exact held
  | cons head rest ih =>
      intro done state held folded
      rw [List.foldlM_cons] at folded
      obtain ⟨next, stepped, folded⟩ := bind_eq_ok.mp folded
      have result := ih (done ++ [head]) next (one held stepped) folded
      rwa [List.append_assoc] at result

theorem foldlM_preserves {σ : Type} {step : σ → α → Except ε σ} {holds : σ → Prop}
    (one : ∀ {item state next}, holds state → step state item = .ok next → holds next)
    {items : List α} {first last : σ} (start : holds first)
    (folded : items.foldlM step first = .ok last) : holds last :=
  @foldlM_induction _ _ _ step (fun _ => holds) (fun held stepped => one held stepped) items _ _
    start folded

/-! ## Which errors a computation can return -/

/-- Every error this result can be is allowed. -/
def FailsOnly (allowed : ε → Prop) (result : Except ε α) : Prop :=
  ∀ fault, result = .error fault → allowed fault

section FailsOnly

variable {allowed : ε → Prop}

theorem failsOnly_ok (value : α) : FailsOnly allowed (.ok value : Except ε α) :=
  fun _ failed => nomatch failed

theorem failsOnly_error {fault : ε} (permitted : allowed fault) :
    FailsOnly allowed (.error fault : Except ε α) :=
  fun _ failed => Except.error.inj failed ▸ permitted

theorem failsOnly_rejectIf {refused : Prop} [Decidable refused] {fault : ε}
    (permitted : allowed fault) : FailsOnly allowed (rejectIf refused fault) := by
  by_cases holds : refused
  · rw [rejectIf_fail fault holds]
    exact failsOnly_error permitted
  · rw [rejectIf_pass fault holds]
    exact failsOnly_ok ()

theorem failsOnly_bind {first : Except ε α} {next : α → Except ε β}
    (early : FailsOnly allowed first) (late : ∀ value, FailsOnly allowed (next value)) :
    FailsOnly allowed (first >>= next) := by
  cases first with
  | error fault => exact failsOnly_error (early fault rfl)
  | ok value => exact late value

theorem failsOnly_map {result : Except ε α} (change : α → β) (early : FailsOnly allowed result) :
    FailsOnly allowed (result.map change) := by
  cases result with
  | error fault => exact failsOnly_error (early fault rfl)
  | ok value => exact failsOnly_ok _

theorem failsOnly_mapM {read : α → Except ε β} (each : ∀ item, FailsOnly allowed (read item))
    (items : List α) : FailsOnly allowed (items.mapM read) := by
  induction items with
  | nil => exact failsOnly_ok []
  | cons head tail ih =>
      rw [List.mapM_cons]
      exact failsOnly_bind (each head) (fun _ => failsOnly_bind ih (fun _ => failsOnly_ok _))

end FailsOnly

end SecurePubSub.Data.Fallible

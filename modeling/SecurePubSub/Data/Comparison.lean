namespace SecurePubSub.Data

/-! Comparisons that decide a strict order.

A comparison of items extends to lists of them: the first difference decides,
and a proper prefix comes first.
-/

/-- The three answers of a comparison are less, the same, and greater. -/
structure Decides {α : Type} (cmp : α → α → Ordering) (less : α → α → Prop) : Prop where
  lt : ∀ {left right}, cmp left right = .lt ↔ less left right
  eq : ∀ {left right}, cmp left right = .eq ↔ left = right
  gt : ∀ {left right}, cmp left right = .gt ↔ less right left

namespace Decides

variable {α : Type} {cmp : α → α → Ordering} {less : α → α → Prop}

theorem compareLex_lt (decides : Decides cmp less) {left right : List α} :
    List.compareLex cmp left right = .lt ↔ List.Lex less left right := by
  induction left generalizing right with
  | nil => cases right <;> simp [List.compareLex]
  | cons head tail ih =>
      cases right with
      | nil => simp [List.compareLex]
      | cons other rest =>
          rw [List.compareLex_cons_cons, Ordering.then_eq_lt, decides.lt, decides.eq, ih,
            List.cons_lex_cons_iff]

theorem compareLex_gt (decides : Decides cmp less) {left right : List α} :
    List.compareLex cmp left right = .gt ↔ List.Lex less right left := by
  induction left generalizing right with
  | nil => cases right <;> simp [List.compareLex]
  | cons head tail ih =>
      cases right with
      | nil => simp [List.compareLex]
      | cons other rest =>
          rw [List.compareLex_cons_cons, Ordering.then_eq_gt, decides.gt, decides.eq, ih,
            List.cons_lex_cons_iff, @eq_comm _ head other]

theorem compareLex_eq (decides : Decides cmp less) {left right : List α} :
    List.compareLex cmp left right = .eq ↔ left = right := by
  induction left generalizing right with
  | nil => cases right <;> simp [List.compareLex]
  | cons head tail ih =>
      cases right with
      | nil => simp [List.compareLex]
      | cons other rest =>
          rw [List.compareLex_cons_cons, Ordering.then_eq_eq, decides.eq, ih, List.cons.injEq]

/-- The lexicographic comparison decides the lexicographic order. -/
theorem lexicographic (decides : Decides cmp less) :
    Decides (List.compareLex cmp) (List.Lex less) :=
  ⟨decides.compareLex_lt, decides.compareLex_eq, decides.compareLex_gt⟩

end Decides

end SecurePubSub.Data

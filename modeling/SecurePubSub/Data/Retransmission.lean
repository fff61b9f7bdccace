import Mathlib.Data.List.Nodup
import Mathlib.Data.List.Perm.Subperm

namespace SecurePubSub.Data

/-! A sequence that is sent in order and sent again from where it is known to have arrived.

`Continues whole done items` says of what is under way that a receiver which drops
what it knows, and has the first `done` items, takes the others in order.
-/

inductive Continues {α : Type} (whole : List α) : Nat → List α → Prop where
  | nil (done : Nat) : Continues whole done []
  | again {done : Nat} {item : α} {rest : List α} (old : item ∈ whole.take done)
      (later : Continues whole done rest) : Continues whole done (item :: rest)
  | next {done : Nat} {item : α} {rest : List α} (new : whole[done]? = some item)
      (later : Continues whole (done + 1) rest) : Continues whole done (item :: rest)

namespace Continues

variable {α : Type} {whole items more rest : List α} {item : α} {done later : Nat}

theorem take_next (new : whole[done]? = some item) :
    whole.take (done + 1) = whole.take done ++ [item] := by
  rw [List.take_add_one, new]
  rfl

/-- What is under way does no harm to a receiver that is further on. -/
theorem mono (continues : Continues whole done items) (onwards : done ≤ later) :
    Continues whole later items := by
  induction continues generalizing later with
  | nil => exact .nil later
  | again old _ ih => exact .again (List.take_subset_take_left whole onwards old) (ih onwards)
  | @next done item rest new _ ih =>
      cases Nat.eq_or_lt_of_le onwards with
      | inl same =>
          subst same
          exact .next new (ih (Nat.le_refl _))
      | inr further =>
          have known : item ∈ whole.take (done + 1) := by simp [take_next new]
          exact .again (List.take_subset_take_left whole further known) (ih further)

theorem append (continues : Continues whole done items) (behind : Continues whole done more) :
    Continues whole done (items ++ more) := by
  induction continues with
  | nil => exact behind
  | again old _ ih => exact .again old (ih behind)
  | next new _ ih => exact .next new (ih (behind.mono (Nat.le_succ _)))

theorem front (continues : Continues whole done (items ++ more)) : Continues whole done items := by
  induction items generalizing done with
  | nil => exact .nil done
  | cons item rest ih =>
      cases continues with
      | again old later => exact .again old (ih later)
      | next new later => exact .next new (ih later)

theorem extend (continues : Continues whole done items) (more : List α) :
    Continues (whole ++ more) done items := by
  induction continues with
  | nil => exact .nil _
  | @again done item rest old _ ih =>
      refine .again ?_ ih
      rw [List.take_append]
      exact List.mem_append_left _ old
  | @next done item rest new _ ih =>
      have inside := (List.getElem?_eq_some_iff.mp new).1
      rw [← List.getElem?_append_left inside] at new
      exact .next new ih

theorem again_all (known : ∀ item ∈ items, item ∈ whole.take done) :
    Continues whole done items := by
  induction items with
  | nil => exact .nil done
  | cons item rest ih =>
      exact .again (known item List.mem_cons_self)
        (ih fun other member => known other (List.mem_cons_of_mem _ member))

theorem next_all (rest : items = whole.drop done) : Continues whole done items := by
  induction items generalizing done with
  | nil => exact .nil done
  | cons item items ih =>
      have new : whole[done]? = some item := by
        rw [← List.head?_drop, ← rest]
        rfl
      refine .next new (ih ?_)
      rw [← List.tail_drop, ← rest]
      rfl

/-- Sending again, in order, at least all that has not arrived. -/
theorem resend (part : items.Sublist whole) (distinct : whole.Nodup)
    (all : ∀ item ∈ whole.drop done, item ∈ items) : Continues whole done items := by
  rw [← List.take_append_drop done whole] at part
  obtain ⟨known, new, rfl, first, second⟩ := List.sublist_append_iff.mp part
  have apart := List.disjoint_take_drop distinct (Nat.le_refl done)
  have missing : whole.drop done ⊆ new := by
    intro item member
    rcases List.mem_append.mp (all item member) with early | late
    · exact absurd member (apart (first.subset early))
    · exact late
  have same : new = whole.drop done := by
    apply second.eq_of_length_le
    exact ((distinct.sublist (List.drop_sublist done whole)).subperm missing).length_le
  exact (again_all first.subset).append (next_all same)

theorem tail_of_known (continues : Continues whole done (item :: rest)) (distinct : whole.Nodup)
    (known : item ∈ whole.take done) : Continues whole done rest := by
  cases continues with
  | again _ later => exact later
  | next new _ =>
      have apart := List.disjoint_take_drop distinct (Nat.le_refl done)
      have member : item ∈ whole.drop done := by
        apply List.mem_of_mem_head?
        rw [List.head?_drop]
        exact new
      exact absurd member (apart known)

theorem tail_of_new (continues : Continues whole done (item :: rest))
    (unknown : item ∉ whole.take done) :
    whole.take (done + 1) = whole.take done ++ [item] ∧ Continues whole (done + 1) rest := by
  cases continues with
  | again old _ => exact absurd old unknown
  | next new later => exact ⟨take_next new, later⟩

end Continues

/-- What arrives of items that are sent one after the other, each as often as its sender likes. -/
inductive Copies {α : Type} : List α → List α → Prop where
  | nil : Copies [] []
  | again {item : α} {later arrived : List α} (others : Copies (item :: later) arrived) :
      Copies (item :: later) (item :: arrived)
  | next {item : α} {later arrived : List α} (others : Copies later arrived) :
      Copies (item :: later) arrived

namespace Copies

variable {α : Type} {sent arrived kept later more : List α} {item : α}

theorem none (sent : List α) : Copies sent [] := by
  induction sent with
  | nil => exact .nil
  | cons item later ih => exact .next ih

/-- A receiver that keeps nothing twice keeps a part of what was sent, in its order. -/
theorem sublist (copies : Copies sent arrived) (part : kept.Sublist arrived)
    (once : kept.Nodup) : kept.Sublist sent := by
  induction copies generalizing kept with
  | nil => exact part
  | @again item later arrived _ ih =>
      cases part with
      | cons _ others => exact ih others once
      | cons_cons _ others =>
          obtain ⟨fresh, distinct⟩ := List.nodup_cons.mp once
          have behind := ih others distinct
          cases behind with
          | cons _ rest => exact rest.cons_cons item
          | cons_cons _ rest => exact absurd List.mem_cons_self fresh
  | next _ ih => exact (ih part once).cons _

end Copies

end SecurePubSub.Data

import Mathlib.Algebra.GroupWithZero.Nat
import Mathlib.Logic.Relation
import SecurePubSub.Data.Program

namespace SecurePubSub.Data

/-! Programs that run concurrently against one state.

A step starts a program or makes the next call of one that is running. Calls are
atomic, so what each of them preserves holds throughout, and what calls take out
of a stock is bounded by what others put into it.
-/

/-- A program that was started, the calls it has made and what is left of it. -/
structure Thread (interface : Interface) (α : Type) where
  program : Program interface α
  history : List interface.Event
  left : Program interface α

/-- Threads over one shared state. -/
structure Pool (interface : Interface) (σ α : Type) where
  shared : σ
  threads : List (Thread interface α)

namespace Pool

open Program

variable {interface : Interface} {σ α : Type}

def idle (shared : σ) : Pool interface σ α := ⟨shared, []⟩

def spawn (pool : Pool interface σ α) (program : Program interface α) : Pool interface σ α :=
  ⟨pool.shared, pool.threads ++ [⟨program, [], program⟩]⟩

inductive Step (handler : Handler interface σ) (admissible : Program interface α → Prop) :
    Pool interface σ α → Pool interface σ α → Prop where
  | start {pool : Pool interface σ α} (program : Program interface α)
      (allowed : admissible program) : Step handler admissible pool (pool.spawn program)
  | advance {shared : σ} {front back : List (Thread interface α)} (program : Program interface α)
      (history : List interface.Event) (request : interface.Call)
      (resume : interface.Reply request → Program interface α) :
      Step handler admissible
        ⟨shared, front ++ ⟨program, history, .call request resume⟩ :: back⟩
        ⟨(handler request shared).2,
          front ++ ⟨program, history ++ [⟨request, (handler request shared).1⟩],
            resume (handler request shared).1⟩ :: back⟩

abbrev Reachable (handler : Handler interface σ) (admissible : Program interface α → Prop) :
    Pool interface σ α → Pool interface σ α → Prop :=
  Relation.ReflTransGen (Step handler admissible)

def total (weight : interface.Event → Nat) (pool : Pool interface σ α) : Nat :=
  (pool.threads.map (fun thread => (thread.history.map weight).sum)).sum

variable {handler : Handler interface σ} {admissible : Program interface α → Prop}
  {pool next start : Pool interface σ α}

/-- Whatever every call preserves holds of the shared state throughout. -/
theorem Reachable.shared (reached : Reachable handler admissible start pool) (holds : σ → Prop)
    (each : ∀ request state, holds state → holds (handler request state).2)
    (initially : holds start.shared) : holds pool.shared := by
  induction reached with
  | refl => exact initially
  | tail _ step ih =>
      cases step with
      | start program allowed => exact ih
      | advance program history request resume => exact each _ _ ih

/-- The same run over a state that answers alike. -/
theorem Reachable.map {τ : Type} {other : Handler interface τ} {translate : σ → τ}
    (reached : Reachable handler admissible start pool)
    (commutes : ∀ request state, other request (translate state) =
      ((handler request state).1, translate (handler request state).2)) :
    Reachable other admissible ⟨translate start.shared, start.threads⟩
      ⟨translate pool.shared, pool.threads⟩ := by
  induction reached with
  | refl => exact .refl
  | tail _ step ih =>
      cases step with
      | start program allowed => exact ih.tail (.start program allowed)
      | @advance shared front back program history request resume =>
          have advance := @Step.advance _ _ _ other admissible (translate shared) front back program
            history request resume
          rw [commutes] at advance
          exact ih.tail advance

/-- What the threads have done is in keeping with their programs and with the handler. -/
structure Thread.Follows (handler : Handler interface σ) (admissible : Program interface α → Prop)
    (thread : Thread interface α) : Prop where
  allowed : admissible thread.program
  consumed : Consumes thread.program thread.history thread.left
  answered : ∀ event ∈ thread.history, ∃ state, event.reply = (handler event.call state).1

theorem Step.follows (step : Step handler admissible pool next)
    (before : ∀ thread ∈ pool.threads, Thread.Follows handler admissible thread) :
    ∀ thread ∈ next.threads, Thread.Follows handler admissible thread := by
  intro thread member
  cases step with
  | start program allowed =>
      rcases List.mem_append.mp member with old | new
      · exact before thread old
      · cases List.mem_singleton.mp new
        exact ⟨allowed, .here, nofun⟩
  | @advance shared front back program history request resume =>
      have running := before ⟨program, history, .call request resume⟩
        (List.mem_append.mpr (.inr List.mem_cons_self))
      rcases List.mem_append.mp member with inFront | rest
      · exact before thread (List.mem_append.mpr (.inl inFront))
      · rcases List.mem_cons.mp rest with same | inBack
        · subst same
          refine ⟨running.allowed, running.consumed.snoc _, fun event made => ?_⟩
          rcases List.mem_append.mp made with earlier | last
          · exact running.answered event earlier
          · cases List.mem_singleton.mp last
            exact ⟨shared, rfl⟩
        · exact before thread (List.mem_append.mpr (.inr (List.mem_cons_of_mem _ inBack)))

theorem Reachable.follows {shared : σ} (reached : Reachable handler admissible (idle shared) pool) :
    ∀ thread ∈ pool.threads, Thread.Follows handler admissible thread := by
  induction reached with
  | refl => exact fun thread member => nomatch member
  | tail _ step ih => exact step.follows ih

/-- Whatever the calls of admissible programs preserve holds of the shared state throughout. -/
theorem Reachable.shared_within {shared : σ}
    (reached : Reachable handler admissible (idle shared) pool) (holds : σ → Prop)
    (allowed : interface.Call → Prop)
    (asks : ∀ program history request resume, admissible program →
      Consumes program history (.call request resume) → allowed request)
    (each : ∀ request state, allowed request → holds state → holds (handler request state).2)
    (initially : holds shared) : holds pool.shared := by
  induction reached with
  | refl => exact initially
  | tail earlier step ih =>
      have follows := Reachable.follows earlier
      cases step with
      | start program allowed => exact ih
      | advance program history request resume =>
          have running := follows ⟨program, history, .call request resume⟩
            (List.mem_append.mpr (.inr List.mem_cons_self))
          exact each _ _ (asks _ _ _ _ running.allowed running.consumed) ih

theorem total_advance (weight : interface.Event → Nat) (shared : σ) {later : σ}
    {front back : List (Thread interface α)} {program : Program interface α}
    {history : List interface.Event} (old : Program interface α) {new : Program interface α}
    (event : interface.Event) :
    (⟨later, front ++ ⟨program, history ++ [event], new⟩ :: back⟩ :
        Pool interface σ α).total weight =
      (⟨shared, front ++ ⟨program, history, old⟩ :: back⟩ : Pool interface σ α).total weight +
        weight event := by
  simp only [total, List.map_append, List.map_cons, List.map_nil, List.sum_append, List.sum_cons,
    List.sum_nil]
  omega

theorem total_spawn (weight : interface.Event → Nat) (pool : Pool interface σ α)
    (program : Program interface α) : (pool.spawn program).total weight = pool.total weight := by
  simp [total, spawn]

/-- When no call takes more out of a stock than it holds, all calls together take out no more than
was there and was put in. -/
theorem Reachable.balanced {shared : σ} (reached : Reachable handler admissible (idle shared) pool)
    (taken added : interface.Event → Nat) (stock : σ → Nat)
    (each : ∀ request state,
      taken ⟨request, (handler request state).1⟩ + stock (handler request state).2 ≤
        added ⟨request, (handler request state).1⟩ + stock state) :
    pool.total taken + stock pool.shared ≤ pool.total added + stock shared := by
  induction reached with
  | refl => exact Nat.le_refl _
  | tail _ step ih =>
      cases step with
      | start program allowed =>
          rw [total_spawn, total_spawn]
          exact ih
      | @advance current front back program history request resume =>
          have moved := each request current
          rw [total_advance taken current (.call request resume),
            total_advance added current (.call request resume)]
          dsimp only at ih ⊢
          omega

/-! ## Schedules -/

/-- Lets the thread at a position make its next call. -/
def turn (handler : Handler interface σ) (pool : Pool interface σ α) (index : Nat) :
    Pool interface σ α :=
  match pool.threads[index]? with
  | some ⟨program, history, .call request resume⟩ =>
      let answer := handler request pool.shared
      ⟨answer.2, pool.threads.set index
        ⟨program, history ++ [⟨request, answer.1⟩], resume answer.1⟩⟩
  | _ => pool

theorem reachable_turn (reached : Reachable handler admissible start pool) (index : Nat) :
    Reachable handler admissible start (pool.turn handler index) := by
  rw [turn]
  split
  · rename_i program history request resume found
    obtain ⟨inside, found⟩ := List.getElem?_eq_some_iff.mp found
    have before : pool.threads = pool.threads.take index ++
        ⟨program, history, .call request resume⟩ :: pool.threads.drop (index + 1) := by
      rw [← found, List.getElem_cons_drop, List.take_append_drop]
    have moved (thread : Thread interface α) : pool.threads.set index thread =
        pool.threads.take index ++ thread :: pool.threads.drop (index + 1) := by
      rw [List.set_eq_take_append_cons_drop, if_pos inside]
    have step := @Step.advance _ _ _ handler admissible pool.shared (pool.threads.take index)
      (pool.threads.drop (index + 1)) program history request resume
    rw [← before, ← moved] at step
    exact reached.tail step
  · exact reached

/-- Lets threads make their calls in a given order. -/
def schedule (handler : Handler interface σ) (turns : List Nat) (pool : Pool interface σ α) :
    Pool interface σ α :=
  turns.foldl (turn handler) pool

theorem reachable_schedule (turns : List Nat) (reached : Reachable handler admissible start pool) :
    Reachable handler admissible start (pool.schedule handler turns) := by
  induction turns generalizing pool with
  | nil => exact reached
  | cons index rest ih => exact ih (reachable_turn reached index)

end Pool

end SecurePubSub.Data

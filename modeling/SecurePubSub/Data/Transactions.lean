import Mathlib.Logic.Relation
import SecurePubSub.Data.Interleaving

namespace SecurePubSub.Data

/-! Calls that are not atomic, on a state behind two locks.

Whoever holds the outer lock copies the visible part of the state, computes a
successor from the copy, makes that durable and only then shows it. The inner lock
is held for a single look or a single replacement. Every run of such calls, by any
number of threads, is a run of `Pool` in which each call happens at once.
-/

/-- How a call uses the state. -/
inductive Plan (interface : Interface) (call : interface.Call) (μ ρ : Type) where
  | glance (look : μ → ρ → interface.Reply call × ρ)
  | update (edit : μ → interface.Reply call ⊕ μ × interface.Reply call)

/-- The visible part is behind the inner lock, the durable part behind the outer one. -/
structure Guarded (μ φ ρ : Type) where
  visible : μ
  durable : φ
  loose : ρ

structure Transactional (interface : Interface) (μ φ ρ : Type) where
  plan : (call : interface.Call) → Plan interface call μ ρ
  persist : μ → φ → Except interface.Fault Unit × φ

namespace Transactional

open Program

variable {interface : Interface} {μ φ ρ α : Type}

/-- What comes of an update whose edit gave a reply or a successor. -/
def conclude {ε β : Type} (persist : μ → φ → Except ε Unit × φ) (state : Guarded μ φ ρ) :
    Except ε β ⊕ μ × Except ε β → Except ε β × Guarded μ φ ρ
  | .inl reply => (reply, state)
  | .inr (next, reply) =>
      match persist next state.durable with
      | (.error fault, durable) => (.error fault, { state with durable })
      | (.ok _, durable) => (reply, { state with visible := next, durable })

/-- Each call as if nothing interleaved with it. -/
def atomic (store : Transactional interface μ φ ρ) : Handler interface (Guarded μ φ ρ) :=
  fun call state =>
    match store.plan call with
    | .glance look =>
        let answer := look state.visible state.loose
        (answer.1, { state with loose := answer.2 })
    | .update edit => conclude store.persist state (edit state.visible)

/-- Where a thread is in its program and in its current call. -/
inductive Stage (interface : Interface) (μ α : Type) where
  | running (left : Program interface α)
  | holding (request : interface.Call) (resume : interface.Reply request → Program interface α)
  | copied (request : interface.Call) (resume : interface.Reply request → Program interface α)
      (copy : μ)
  | written (request : interface.Call) (resume : interface.Reply request → Program interface α)
      (next : μ) (reply : interface.Reply request)
  | answered (request : interface.Call) (resume : interface.Reply request → Program interface α)
      (reply : interface.Reply request)

/-- From `acquire` to `release`. -/
def Stage.locks : Stage interface μ α → Bool
  | running _ => false
  | _ => true

structure Worker (interface : Interface) (μ α : Type) where
  program : Program interface α
  history : List interface.Event
  stage : Stage interface μ α

structure System (interface : Interface) (μ φ ρ α : Type) where
  state : Guarded μ φ ρ
  taken : Bool
  workers : List (Worker interface μ α)

def System.idle (state : Guarded μ φ ρ) : System interface μ φ ρ α := ⟨state, false, []⟩

/-- What one thread does next, with the state and the outer lock before and after. -/
inductive Turn (store : Transactional interface μ φ ρ) :
    Guarded μ φ ρ → Bool → Worker interface μ α → Guarded μ φ ρ → Bool → Worker interface μ α →
      Prop where
  | glance {state : Guarded μ φ ρ} {taken : Bool} {program : Program interface α}
      {history : List interface.Event} {request : interface.Call} {resume : interface.Reply request → Program interface α}
      {look : μ → ρ → interface.Reply request × ρ} (planned : store.plan request = .glance look) :
      Turn store state taken ⟨program, history, .running (.call request resume)⟩
        { state with loose := (look state.visible state.loose).2 } taken
        ⟨program, history ++ [⟨request, (look state.visible state.loose).1⟩],
          .running (resume (look state.visible state.loose).1)⟩
  | acquire {state : Guarded μ φ ρ} {program : Program interface α} {history : List interface.Event}
      {request : interface.Call} {resume : interface.Reply request → Program interface α}
      {edit : μ → interface.Reply request ⊕ μ × interface.Reply request}
      (planned : store.plan request = .update edit) :
      Turn store state false ⟨program, history, .running (.call request resume)⟩
        state true ⟨program, history, .holding request resume⟩
  | copy {state : Guarded μ φ ρ} {taken : Bool} {program : Program interface α}
      {history : List interface.Event} {request : interface.Call} {resume : interface.Reply request → Program interface α} :
      Turn store state taken ⟨program, history, .holding request resume⟩
        state taken ⟨program, history, .copied request resume state.visible⟩
  | decline {state : Guarded μ φ ρ} {taken : Bool} {program : Program interface α}
      {history : List interface.Event} {request : interface.Call} {resume : interface.Reply request → Program interface α}
      {copy : μ} {edit : μ → interface.Reply request ⊕ μ × interface.Reply request}
      {reply : interface.Reply request} (planned : store.plan request = .update edit)
      (edited : edit copy = .inl reply) :
      Turn store state taken ⟨program, history, .copied request resume copy⟩
        state taken ⟨program, history, .answered request resume reply⟩
  | abandon {state : Guarded μ φ ρ} {taken : Bool} {program : Program interface α}
      {history : List interface.Event} {request : interface.Call} {resume : interface.Reply request → Program interface α}
      {copy next : μ} {durable : φ}
      {edit : μ → interface.Reply request ⊕ μ × interface.Reply request}
      {reply : interface.Reply request} {fault : interface.Fault}
      (planned : store.plan request = .update edit) (edited : edit copy = .inr (next, reply))
      (failed : store.persist next state.durable = (.error fault, durable)) :
      Turn store state taken ⟨program, history, .copied request resume copy⟩
        { state with durable } taken ⟨program, history, .answered request resume (.error fault)⟩
  | write {state : Guarded μ φ ρ} {taken : Bool} {program : Program interface α}
      {history : List interface.Event} {request : interface.Call} {resume : interface.Reply request → Program interface α}
      {copy next : μ} {durable : φ}
      {edit : μ → interface.Reply request ⊕ μ × interface.Reply request}
      {reply : interface.Reply request} (planned : store.plan request = .update edit)
      (edited : edit copy = .inr (next, reply))
      (persisted : store.persist next state.durable = (.ok (), durable)) :
      Turn store state taken ⟨program, history, .copied request resume copy⟩
        { state with durable } taken ⟨program, history, .written request resume next reply⟩
  | publish {state : Guarded μ φ ρ} {taken : Bool} {program : Program interface α}
      {history : List interface.Event} {request : interface.Call} {resume : interface.Reply request → Program interface α}
      {next : μ} {reply : interface.Reply request} :
      Turn store state taken ⟨program, history, .written request resume next reply⟩
        { state with visible := next } taken ⟨program, history, .answered request resume reply⟩
  | release {state : Guarded μ φ ρ} {taken : Bool} {program : Program interface α}
      {history : List interface.Event} {request : interface.Call} {resume : interface.Reply request → Program interface α}
      {reply : interface.Reply request} :
      Turn store state taken ⟨program, history, .answered request resume reply⟩
        state false ⟨program, history ++ [⟨request, reply⟩], .running (resume reply)⟩

inductive Step (store : Transactional interface μ φ ρ)
    (admissible : Program interface α → Prop) :
    System interface μ φ ρ α → System interface μ φ ρ α → Prop where
  | start {system : System interface μ φ ρ α} (program : Program interface α)
      (allowed : admissible program) :
      Step store admissible system
        { system with workers := system.workers ++ [⟨program, [], .running program⟩] }
  | turn {state later : Guarded μ φ ρ} {taken still : Bool}
      {front back : List (Worker interface μ α)} {worker moved : Worker interface μ α}
      (turn : Turn store state taken worker later still moved) :
      Step store admissible ⟨state, taken, front ++ worker :: back⟩
        ⟨later, still, front ++ moved :: back⟩

abbrev Reachable (store : Transactional interface μ φ ρ)
    (admissible : Program interface α → Prop) :
    System interface μ φ ρ α → System interface μ φ ρ α → Prop :=
  Relation.ReflTransGen (Step store admissible)

/-! ## The run in which each call happens at once -/

/-- A call has happened once it is answered. -/
def Worker.thread : Worker interface μ α → Thread interface α
  | ⟨program, history, .running left⟩ => ⟨program, history, left⟩
  | ⟨program, history, .holding request resume⟩ => ⟨program, history, .call request resume⟩
  | ⟨program, history, .copied request resume _⟩ => ⟨program, history, .call request resume⟩
  | ⟨program, history, .written request resume _ _⟩ => ⟨program, history, .call request resume⟩
  | ⟨program, history, .answered request resume reply⟩ =>
      ⟨program, history ++ [⟨request, reply⟩], resume reply⟩

def Worker.locks (worker : Worker interface μ α) : Bool := worker.stage.locks

/-- Its successor is durable but not visible yet. -/
def Worker.writing : Worker interface μ α → Bool
  | ⟨_, _, .written ..⟩ => true
  | _ => false

/-- A copy is current, and a successor was computed from the visible part and follows what was
durable before. -/
def Worker.Sound (store : Transactional interface μ φ ρ) (state : Guarded μ φ ρ) (base : φ) :
    Worker interface μ α → Prop
  | ⟨_, _, .copied _ _ copy⟩ => copy = state.visible
  | ⟨_, _, .written request _ next reply⟩ =>
      (∃ edit, store.plan request = .update edit ∧ edit state.visible = .inr (next, reply)) ∧
        store.persist next base = (.ok (), state.durable)
  | _ => True

theorem Worker.writing_locks {worker : Worker interface μ α} (writing : worker.writing = true) :
    worker.locks = true := by
  obtain ⟨program, history, stage⟩ := worker
  cases stage with
  | written request resume next reply => rfl
  | running left => cases writing
  | holding request resume => cases writing
  | copied request resume copy => cases writing
  | answered request resume reply => cases writing

theorem Worker.sound_of_free {store : Transactional interface μ φ ρ} {state : Guarded μ φ ρ}
    {base : φ} {worker : Worker interface μ α} (free : worker.locks = false) :
    worker.Sound store state base := by
  obtain ⟨program, history, stage⟩ := worker
  cases stage with
  | running left => trivial
  | holding request resume => cases free
  | copied request resume copy => cases free
  | written request resume next reply => cases free
  | answered request resume reply => cases free

/-- A pool that a system stands for. Until a successor is visible, what it replaces still counts as
durable. -/
structure Stands (store : Transactional interface μ φ ρ) (system : System interface μ φ ρ α)
    (pool : Pool interface (Guarded μ φ ρ) α) : Prop where
  visible : pool.shared.visible = system.state.visible
  loose : pool.shared.loose = system.state.loose
  threads : pool.threads = system.workers.map Worker.thread
  exclusive : system.workers.countP Worker.locks = system.taken.toNat
  sound : ∀ worker ∈ system.workers, worker.Sound store system.state pool.shared.durable
  settled : (∀ worker ∈ system.workers, worker.writing = false) →
    pool.shared.durable = system.state.durable

variable {store : Transactional interface μ φ ρ} {admissible : Program interface α → Prop}
  {state later : Guarded μ φ ρ} {taken still : Bool} {base : φ}
  {worker moved : Worker interface μ α} {front back : List (Worker interface μ α)}

/-- Whoever holds the outer lock is alone in that. -/
theorem alone (exclusive : (front ++ worker :: back).countP Worker.locks = taken.toNat)
    (locks : worker.locks = true) :
    taken = true ∧ ∀ other, other ∈ front ∨ other ∈ back → other.locks = false := by
  rw [List.countP_append, List.countP_cons, if_pos locks] at exclusive
  have limit : taken.toNat ≤ 1 := Bool.toNat_le taken
  constructor
  · cases taken with
    | true => rfl
    | false =>
        simp only [Bool.toNat_false] at exclusive
        omega
  · intro other member
    apply Bool.eq_false_iff.mpr
    intro held
    rcases member with inFront | inBack
    · have positive := List.countP_pos_iff.mpr ⟨other, inFront, held⟩
      omega
    · have positive := List.countP_pos_iff.mpr ⟨other, inBack, held⟩
      omega

/-- The outer lock changes hands as the stages say. -/
theorem Turn.exclusive (turn : Turn store state taken worker later still moved)
    (before : (front ++ worker :: back).countP Worker.locks = taken.toNat) :
    (front ++ moved :: back).countP Worker.locks = still.toNat := by
  rw [List.countP_append, List.countP_cons] at before ⊢
  cases turn with
  | glance planned => exact before
  | acquire planned =>
      simp only [Worker.locks, Stage.locks, Bool.toNat_false, Bool.toNat_true, if_true] at before ⊢
      simp only [Bool.false_eq_true, if_false] at before
      omega
  | copy => exact before
  | decline planned edited => exact before
  | abandon planned edited failed => exact before
  | write planned edited persisted => exact before
  | publish => exact before
  | release =>
      have limit : taken.toNat ≤ 1 := Bool.toNat_le taken
      simp only [Worker.locks, Stage.locks, Bool.toNat_false, if_true] at before ⊢
      simp only [Bool.false_eq_true, if_false]
      omega

/-- A turn that changes what others rely on is one of the thread that holds the outer lock. -/
theorem Turn.frame (turn : Turn store state taken worker later still moved)
    (free : worker.locks = false) :
    later.visible = state.visible ∧ later.durable = state.durable ∧ moved.writing = false := by
  cases turn with
  | glance planned => exact ⟨rfl, rfl, rfl⟩
  | acquire planned => exact ⟨rfl, rfl, rfl⟩
  | copy => cases free
  | decline planned edited => cases free
  | abandon planned edited failed => cases free
  | write planned edited persisted => cases free
  | publish => cases free
  | release => cases free

/-- A thread of a pool stays where it is or makes its next call. -/
inductive Advances {σ : Type} (handler : Handler interface σ) :
    σ → Thread interface α → σ → Thread interface α → Prop where
  | stay {shared : σ} {thread : Thread interface α} : Advances handler shared thread shared thread
  | call {shared next : σ} {program : Program interface α} {history : List interface.Event}
      {request : interface.Call} {resume : interface.Reply request → Program interface α}
      {reply : interface.Reply request} (answer : handler request shared = (reply, next)) :
      Advances handler shared ⟨program, history, .call request resume⟩ next
        ⟨program, history ++ [⟨request, reply⟩], resume reply⟩

theorem Advances.reachable {σ : Type} {handler : Handler interface σ} {shared next : σ}
    {before after : Thread interface α} (advances : Advances handler shared before next after)
    (front back : List (Thread interface α)) :
    Pool.Reachable handler admissible ⟨shared, front ++ before :: back⟩
      ⟨next, front ++ after :: back⟩ := by
  cases advances with
  | stay => exact .refl
  | @call _ program history request resume reply answer =>
      have step := @Pool.Step.advance _ _ _ handler admissible shared front back program history
        request resume
      rw [answer] at step
      exact .single step

/-- What a turn is to the pool. -/
theorem Turn.simulates (turn : Turn store state taken worker later still moved)
    (sound : worker.Sound store state base)
    (current : worker.writing = false → worker.locks = true → base = state.durable) :
    ∃ durable, Advances store.atomic ⟨state.visible, base, state.loose⟩ worker.thread
        ⟨later.visible, durable, later.loose⟩ moved.thread ∧
      moved.Sound store later durable ∧
      (moved.writing = false → worker.locks = true → durable = later.durable) ∧
      (worker.locks = false → durable = base) := by
  cases turn with
  | glance planned =>
      refine ⟨base, .call ?_, trivial, fun _ => nofun, fun _ => rfl⟩
      simp only [atomic, planned]
  | acquire planned => exact ⟨base, .stay, trivial, fun _ => nofun, fun _ => rfl⟩
  | copy => exact ⟨base, .stay, rfl, fun _ => current rfl, nofun⟩
  | decline planned edited =>
      cases sound
      refine ⟨base, .call ?_, trivial, fun _ => current rfl, nofun⟩
      simp only [atomic, planned, edited, conclude]
  | abandon planned edited failed =>
      cases sound
      rw [← current rfl rfl] at failed
      refine ⟨_, .call ?_, trivial, fun _ _ => rfl, nofun⟩
      simp only [atomic, planned, edited, conclude, failed]
  | write planned edited persisted =>
      cases sound
      rw [← current rfl rfl] at persisted
      exact ⟨base, .stay, ⟨⟨_, planned, edited⟩, persisted⟩, nofun, nofun⟩
  | publish =>
      obtain ⟨⟨edit, planned, edited⟩, persisted⟩ := sound
      refine ⟨state.durable, .call ?_, trivial, fun _ _ => rfl, nofun⟩
      simp only [atomic, planned, edited, conclude, persisted]
  | release => exact ⟨base, .stay, trivial, fun _ => current rfl, nofun⟩

theorem Stands.turn {pool : Pool interface (Guarded μ φ ρ) α}
    (stands : Stands store ⟨state, taken, front ++ worker :: back⟩ pool)
    (turn : Turn store state taken worker later still moved) :
    ∃ next, Pool.Reachable store.atomic admissible pool next ∧
      Stands store ⟨later, still, front ++ moved :: back⟩ next := by
  obtain ⟨⟨visible, base, loose⟩, threads⟩ := pool
  obtain ⟨sameVisible, sameLoose, sameThreads, exclusive, sound, settled⟩ := stands
  dsimp only at sameVisible sameLoose sameThreads exclusive sound settled
  subst sameVisible sameLoose sameThreads
  have own := sound worker (List.mem_append_right _ List.mem_cons_self)
  have others (holds : worker.locks = true) (other : Worker interface μ α)
      (member : other ∈ front ∨ other ∈ back) : other.locks = false :=
    (alone exclusive holds).2 other member
  have current : worker.writing = false → worker.locks = true → base = state.durable := by
    intro quiet holds
    apply settled
    intro other member
    rcases List.mem_append.mp member with inFront | rest
    · exact Bool.eq_false_iff.mpr fun writing =>
        Bool.false_ne_true ((others holds other (.inl inFront)).symm.trans
          (Worker.writing_locks writing))
    · rcases List.mem_cons.mp rest with same | inBack
      · exact same ▸ quiet
      · exact Bool.eq_false_iff.mpr fun writing =>
          Bool.false_ne_true ((others holds other (.inr inBack)).symm.trans
            (Worker.writing_locks writing))
  obtain ⟨durable, advances, after, settles, keeps⟩ := turn.simulates own current
  refine ⟨⟨⟨later.visible, durable, later.loose⟩, front.map Worker.thread ++ moved.thread ::
    back.map Worker.thread⟩, ?_, rfl, rfl, ?_, turn.exclusive exclusive, ?_, ?_⟩
  · rw [List.map_append, List.map_cons]
    exact advances.reachable _ _
  · rw [List.map_append, List.map_cons]
  · have untouched (other : Worker interface μ α) (member : other ∈ front ∨ other ∈ back) :
        other.Sound store later durable := by
      cases holds : worker.locks with
      | true => exact Worker.sound_of_free (others holds other member)
      | false =>
          obtain ⟨sameVisible, sameDurable, _⟩ := turn.frame holds
          have before := sound other (by
            rcases member with inFront | inBack
            · exact List.mem_append_left _ inFront
            · exact List.mem_append_right _ (List.mem_cons_of_mem _ inBack))
          rw [keeps holds]
          obtain ⟨program, history, stage⟩ := other
          cases stage with
          | copied request resume copy => exact before.trans sameVisible.symm
          | written request resume next reply =>
              rw [Worker.Sound, sameVisible, sameDurable]
              exact before
          | running left => trivial
          | holding request resume => trivial
          | answered request resume reply => trivial
    intro other member
    rcases List.mem_append.mp member with inFront | rest
    · exact untouched other (.inl inFront)
    · rcases List.mem_cons.mp rest with same | inBack
      · exact same ▸ after
      · exact untouched other (.inr inBack)
  · intro quiet
    cases holds : worker.locks with
    | true => exact settles (quiet moved (List.mem_append_right _ List.mem_cons_self)) holds
    | false =>
        obtain ⟨_, sameDurable, _⟩ := turn.frame holds
        refine (keeps holds).trans ((settled fun other member => ?_).trans sameDurable.symm)
        rcases List.mem_append.mp member with inFront | rest
        · exact quiet other (List.mem_append_left _ inFront)
        · rcases List.mem_cons.mp rest with same | inBack
          · subst same
            exact Bool.eq_false_iff.mpr fun writing =>
              Bool.false_ne_true (holds.symm.trans (Worker.writing_locks writing))
          · exact quiet other (List.mem_append_right _ (List.mem_cons_of_mem _ inBack))

theorem Stands.step {system next : System interface μ φ ρ α}
    {pool : Pool interface (Guarded μ φ ρ) α} (stands : Stands store system pool)
    (step : Step store admissible system next) :
    ∃ after, Pool.Reachable store.atomic admissible pool after ∧ Stands store next after := by
  cases step with
  | start program allowed =>
      refine ⟨pool.spawn program, .single (.start program allowed), stands.visible, stands.loose,
        ?_, ?_, ?_, ?_⟩
      · rw [Pool.spawn, stands.threads, List.map_append]
        rfl
      · rw [List.countP_append, stands.exclusive]
        rfl
      · intro worker member
        rcases List.mem_append.mp member with old | new
        · exact stands.sound worker old
        · cases List.mem_singleton.mp new
          trivial
      · exact fun quiet => stands.settled fun worker member =>
          quiet worker (List.mem_append_left _ member)
  | turn turn => exact stands.turn turn

/-- A run of calls that are not atomic is one of calls that are, and each call happens between the
moments it starts and returns. -/
theorem Stands.run {system next : System interface μ φ ρ α}
    {pool : Pool interface (Guarded μ φ ρ) α} (stands : Stands store system pool)
    (reached : Reachable store admissible system next) :
    ∃ after, Pool.Reachable store.atomic admissible pool after ∧ Stands store next after := by
  induction reached with
  | refl => exact ⟨pool, .refl, stands⟩
  | tail _ step ih =>
      obtain ⟨middle, reached, stands⟩ := ih
      obtain ⟨after, more, stands⟩ := stands.step step
      exact ⟨after, reached.trans more, stands⟩

theorem stands_idle (store : Transactional interface μ φ ρ) (state : Guarded μ φ ρ) :
    Stands store (System.idle state : System interface μ φ ρ α) (Pool.idle state) :=
  ⟨rfl, rfl, rfl, rfl, nofun, fun _ => rfl⟩

/-! ## Schedules -/

/-- The turn a thread can take, unless its program has ended or it has to wait for the lock. -/
def move (store : Transactional interface μ φ ρ) (state : Guarded μ φ ρ) (taken : Bool) :
    Worker interface μ α → Option (Guarded μ φ ρ × Bool × Worker interface μ α)
  | ⟨program, history, .running (.call request resume)⟩ =>
      match store.plan request with
      | .glance look =>
          let answer := look state.visible state.loose
          some ({ state with loose := answer.2 }, taken,
            ⟨program, history ++ [⟨request, answer.1⟩], .running (resume answer.1)⟩)
      | .update _ =>
          if taken then none else some (state, true, ⟨program, history, .holding request resume⟩)
  | ⟨_, _, .running _⟩ => none
  | ⟨program, history, .holding request resume⟩ =>
      some (state, taken, ⟨program, history, .copied request resume state.visible⟩)
  | ⟨program, history, .copied request resume copy⟩ =>
      match store.plan request with
      | .glance _ => none
      | .update edit =>
          match edit copy with
          | .inl reply => some (state, taken, ⟨program, history, .answered request resume reply⟩)
          | .inr (next, reply) =>
              match store.persist next state.durable with
              | (.error fault, durable) => some ({ state with durable }, taken,
                  ⟨program, history, .answered request resume (.error fault)⟩)
              | (.ok _, durable) => some ({ state with durable }, taken,
                  ⟨program, history, .written request resume next reply⟩)
  | ⟨program, history, .written request resume next reply⟩ =>
      some ({ state with visible := next }, taken,
        ⟨program, history, .answered request resume reply⟩)
  | ⟨program, history, .answered request resume reply⟩ =>
      some (state, false, ⟨program, history ++ [⟨request, reply⟩], .running (resume reply)⟩)

theorem turn_of_move (moves : store.move state taken worker = some (later, still, moved)) :
    Turn store state taken worker later still moved := by
  obtain ⟨program, history, stage⟩ := worker
  cases stage with
  | running left =>
      cases left with
      | done value => cases moves
      | fail fault => cases moves
      | call request resume =>
          rw [move] at moves
          cases planned : store.plan request with
          | glance look =>
              rw [planned] at moves
              cases moves
              exact .glance planned
          | update edit =>
              rw [planned] at moves
              cases taken with
              | true => cases moves
              | false =>
                  cases moves
                  exact .acquire planned
  | holding request resume =>
      cases moves
      exact .copy
  | copied request resume copy =>
      rw [move] at moves
      cases planned : store.plan request with
      | glance look =>
          rw [planned] at moves
          cases moves
      | update edit =>
          rw [planned] at moves
          dsimp only at moves
          cases edited : edit copy with
          | inl reply =>
              rw [edited] at moves
              cases moves
              exact .decline planned edited
          | inr proposed =>
              obtain ⟨next, reply⟩ := proposed
              rw [edited] at moves
              dsimp only at moves
              cases written : store.persist next state.durable with
              | mk result durable =>
                  rw [written] at moves
                  cases result with
                  | error fault =>
                      cases moves
                      exact .abandon planned edited written
                  | ok done =>
                      cases moves
                      exact .write planned edited written
  | written request resume next reply =>
      cases moves
      exact .publish
  | answered request resume reply =>
      cases moves
      exact .release

/-- Lets the thread at a position take its turn, if it can. -/
def System.advance (store : Transactional interface μ φ ρ) (system : System interface μ φ ρ α)
    (index : Nat) : System interface μ φ ρ α :=
  match system.workers[index]? with
  | none => system
  | some worker =>
      match store.move system.state system.taken worker with
      | none => system
      | some (later, still, moved) => ⟨later, still, system.workers.set index moved⟩

theorem Reachable.advance {start system : System interface μ φ ρ α}
    (reached : Reachable store admissible start system) (index : Nat) :
    Reachable store admissible start (system.advance store index) := by
  rw [System.advance]
  split
  · exact reached
  · rename_i worker found
    split
    · exact reached
    · rename_i later still moved moves
      obtain ⟨inside, found⟩ := List.getElem?_eq_some_iff.mp found
      have before : system.workers = system.workers.take index ++
          worker :: system.workers.drop (index + 1) := by
        rw [← found, List.getElem_cons_drop, List.take_append_drop]
      have after : system.workers.set index moved = system.workers.take index ++
          moved :: system.workers.drop (index + 1) := by
        rw [List.set_eq_take_append_cons_drop, if_pos inside]
      have step := @Step.turn _ _ _ _ _ store admissible system.state later system.taken still
        (system.workers.take index) (system.workers.drop (index + 1)) worker moved
        (turn_of_move moves)
      rw [← before, ← after] at step
      exact reached.tail step

/-- Starts programs and then lets threads take turns in a given order. -/
def System.schedule (store : Transactional interface μ φ ρ) (state : Guarded μ φ ρ)
    (programs : List (Program interface α)) (turns : List Nat) : System interface μ φ ρ α :=
  turns.foldl (System.advance store)
    ⟨state, false, programs.map (fun program => ⟨program, [], .running program⟩)⟩

theorem Reachable.schedule {start system : System interface μ φ ρ α}
    (reached : Reachable store admissible start system) (turns : List Nat) :
    Reachable store admissible start (turns.foldl (System.advance store) system) := by
  induction turns generalizing system with
  | nil => exact reached
  | cons index rest ih => exact ih (reached.advance index)

theorem reachable_schedule (state : Guarded μ φ ρ) {programs : List (Program interface α)}
    (allowed : ∀ program ∈ programs, admissible program) (turns : List Nat) :
    Reachable store admissible (.idle state) (System.schedule store state programs turns) := by
  refine Reachable.schedule ?_ turns
  have started (before after : List (Program interface α))
      (known : ∀ program ∈ after, admissible program)
      (reached : Reachable store admissible (.idle state) ⟨state, false,
        before.map (fun program => ⟨program, [], .running program⟩)⟩) :
      Reachable store admissible (.idle state) ⟨state, false,
        (before ++ after).map (fun program => ⟨program, [], .running program⟩)⟩ := by
    induction after generalizing before with
    | nil =>
        rw [List.append_nil]
        exact reached
    | cons program rest ih =>
        have step := reached.tail (.start program (known program List.mem_cons_self))
        have next := ih (before ++ [program])
          (fun other member => known other (List.mem_cons_of_mem _ member)) (by
            rw [List.map_append]
            exact step)
        rw [List.append_assoc] at next
        exact next
  exact started [] programs allowed .refl

end Transactional

end SecurePubSub.Data

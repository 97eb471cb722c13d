import Mathlib.Logic.Function.Basic
import Quadcopter.Library.AtomicProgram

/-
Programs that take turns on one shared state.

A schedule names the thread that does its next operation; a program that has
returned does nothing more, and one that never takes a turn has not begun.  The
log keeps every operation with the thread that did it, in the order they were
done.
-/

namespace Quadcopter.AtomicProgram

structure Threads (Op : Type) (Answer : Op → Type) (ι : Type) (α : ι → Type)
    (σ : Type) where
  program : (thread : ι) → Program Op Answer (α thread)
  state : σ
  log : List (ι × Op)

namespace Threads

variable {Op : Type} {Answer : Op → Type} {ι : Type} [DecidableEq ι]
  {α : ι → Type} {σ : Type}

omit [DecidableEq ι] in
def start (program : (thread : ι) → Program Op Answer (α thread)) (state : σ) :
    Threads Op Answer ι α σ :=
  { program, state, log := [] }

def step (execute : Execution Op Answer σ) (threads : Threads Op Answer ι α σ)
    (thread : ι) : Threads Op Answer ι α σ :=
  match threads.program thread with
  | .ret _ => threads
  | .step op next =>
      { program := Function.update threads.program thread
          (next (execute op threads.state).1)
        state := (execute op threads.state).2
        log := threads.log ++ [(thread, op)] }

def run (execute : Execution Op Answer σ) (threads : Threads Op Answer ι α σ)
    (schedule : List ι) : Threads Op Answer ι α σ :=
  schedule.foldl (step execute) threads

theorem step_ret {execute : Execution Op Answer σ}
    {threads : Threads Op Answer ι α σ} {thread : ι} {value : α thread}
    (returned : threads.program thread = .ret value) :
    threads.step execute thread = threads := by
  unfold step
  rw [returned]

theorem step_step {execute : Execution Op Answer σ}
    {threads : Threads Op Answer ι α σ} {thread : ι} {op : Op}
    {next : Answer op → Program Op Answer (α thread)}
    (doing : threads.program thread = .step op next) :
    threads.step execute thread =
      { program := Function.update threads.program thread
          (next (execute op threads.state).1)
        state := (execute op threads.state).2
        log := threads.log ++ [(thread, op)] } := by
  unfold step
  rw [doing]

/-- What every step keeps, every run keeps. -/
theorem run_preserves {execute : Execution Op Answer σ}
    (kept : Threads Op Answer ι α σ → Prop)
    (each : ∀ threads thread, kept threads →
      kept (threads.step execute thread))
    {threads : Threads Op Answer ι α σ} (initially : kept threads)
    (schedule : List ι) : kept (threads.run execute schedule) := by
  induction schedule generalizing threads with
  | nil => exact initially
  | cons thread schedule ih => exact ih (each threads thread initially)

theorem run_append {execute : Execution Op Answer σ}
    (threads : Threads Op Answer ι α σ) (first second : List ι) :
    threads.run execute (first ++ second) =
      (threads.run execute first).run execute second :=
  List.foldl_append

theorem step_other (execute : Execution Op Answer σ)
    (threads : Threads Op Answer ι α σ) {thread other : ι}
    (different : other ≠ thread) :
    (threads.step execute thread).program other = threads.program other := by
  unfold step
  split
  · rfl
  · exact Function.update_of_ne different _ _

/-- A thread that takes as many turns as its program has operations gets to the
end of it, and nothing else moves. -/
theorem run_alone (execute : Execution Op Answer σ) {thread : ι}
    {program : Program Op Answer (α thread)}
    {threads : Threads Op Answer ι α σ}
    (doing : threads.program thread = program) :
    let done := threads.run execute
      (List.replicate (program.trace execute threads.state).length thread)
    done.state = (program.run execute threads.state).2 ∧
      ∀ other, other ≠ thread → done.program other = threads.program other := by
  induction program generalizing threads with
  | ret value => exact ⟨rfl, fun _ _ => rfl⟩
  | step op next ih =>
      have stepped : threads.step execute thread = _ := step_step doing
      have next_doing : (threads.step execute thread).program thread =
          next (execute op threads.state).1 := by
        rw [stepped]
        exact Function.update_self _ _ _
      have next_state : (threads.step execute thread).state =
          (execute op threads.state).2 := by rw [stepped]
      obtain ⟨state_eq, others⟩ := ih _ next_doing
      rw [next_state] at state_eq others
      refine ⟨state_eq, ?_⟩
      intro other different
      rw [← step_other execute threads different]
      exact others other different

def view {τ : Type} (threads : Threads Op Answer ι α σ) (see : σ → τ) :
    Threads Op Answer ι α τ :=
  { program := threads.program
    state := see threads.state
    log := threads.log }

theorem run_view {τ : Type} {execute : Execution Op Answer σ}
    {executeView : Execution Op Answer τ} {see : σ → τ}
    (respects : ∀ op state,
      executeView op (see state) =
        ((execute op state).1, see (execute op state).2))
    (threads : Threads Op Answer ι α σ) (schedule : List ι) :
    (threads.view see).run executeView schedule =
      (threads.run execute schedule).view see := by
  induction schedule generalizing threads with
  | nil => rfl
  | cons thread schedule ih =>
      have stepped : (threads.view see).step executeView thread =
          (threads.step execute thread).view see := by
        cases doing : threads.program thread with
        | ret value =>
            rw [step_ret doing]
            exact step_ret doing
        | step op next =>
            have viewing : (threads.view see).program thread =
              .step op next := doing
            rw [step_step doing, step_step viewing]
            simp only [view, respects]
      refine Eq.trans ?_ (ih (threads.step execute thread))
      exact congrArg (fun threads => Threads.run executeView threads schedule)
        stepped

end Threads

section Order

variable {Op ι : Type}

/-- The thread has begun before the other one does `op`, and goes on after. -/
def Straddles (thread : ι) (log : List (ι × Op)) (other : ι) (op : Op) : Prop :=
  ∃ before after : List (ι × Op), log = before ++ (other, op) :: after ∧
    (∃ own ∈ before, own.1 = thread) ∧ ∃ own ∈ after, own.1 = thread

theorem straddles_iff {thread other : ι} {op : Op} {before after : List (ι × Op)}
    (once : (other, op) ∉ before) (last : (other, op) ∉ after) :
    Straddles thread (before ++ (other, op) :: after) other op ↔
      (∃ own ∈ before, own.1 = thread) ∧ ∃ own ∈ after, own.1 = thread := by
  constructor
  · intro ⟨before', after', same, own⟩
    rcases List.append_eq_append_iff.mp same with
      ⟨middle, front, back⟩ | ⟨middle, front, back⟩
    · cases middle with
      | nil =>
          rw [List.append_nil] at front
          cases back
          exact front ▸ own
      | cons head middle =>
          cases back
          exact absurd (List.mem_append_right _ List.mem_cons_self) last
    · cases middle with
      | nil =>
          rw [List.append_nil] at front
          cases back
          exact front ▸ own
      | cons head middle =>
          cases back
          exact absurd (front ▸ List.mem_append_right _ List.mem_cons_self) once
  · intro own
    exact ⟨before, after, rfl, own⟩

/-- One entry comes before another, also when a log goes on: the second is the
new one, or both are old. -/
theorem pair_sublist_concat {α : Type*} {first second entry : α} {log : List α} :
    [first, second].Sublist (log ++ [entry]) ↔
      [first, second].Sublist log ∨ (second = entry ∧ first ∈ log) := by
  constructor
  · intro before
    obtain ⟨front, back, split, inFront, inBack⟩ :=
      List.sublist_append_iff.mp before
    rcases List.sublist_cons_iff.mp inBack with none_last | ⟨rest, rfl, empty⟩
    · rw [List.sublist_nil.mp none_last, List.append_nil] at split
      exact Or.inl (split ▸ inFront)
    · rw [List.sublist_nil.mp empty] at split
      have cut : [first] ++ [second] = front ++ [entry] := split
      obtain ⟨front_eq, last⟩ := List.append_inj' cut rfl
      rw [← front_eq] at inFront
      exact Or.inr ⟨List.head_eq_of_cons_eq last,
        List.singleton_sublist.mp inFront⟩
  · rintro (before | ⟨rfl, member⟩)
    · exact before.trans (List.sublist_append_left _ _)
    · exact (List.singleton_sublist.mpr member).append (List.Sublist.refl _)

/-- All operations of one thread are done before any of another's. -/
def InTurn (log : List (ι × Op)) : Prop :=
  ∃ first : ι, log.Pairwise
    (fun earlier later => later.1 = first → earlier.1 = first)

def Follows (thread : ι) (log : List (ι × Op)) : Prop :=
  ∃ before after : List (ι × Op), log = before ++ after ∧
    (∃ own ∈ after, own.1 = thread) ∧ ∃ foreign ∈ before, foreign.1 ≠ thread

theorem Follows.append {thread : ι} {log : List (ι × Op)}
    (follows : Follows thread log) (more : List (ι × Op)) :
    Follows thread (log ++ more) := by
  obtain ⟨before, after, rfl, ⟨own, member, same⟩, foreign⟩ := follows
  exact ⟨before, after ++ more, List.append_assoc _ _ _,
    ⟨own, List.mem_append_left _ member, same⟩, foreign⟩

theorem Follows.last {thread : ι} {log : List (ι × Op)} (op : Op)
    (foreign : ∃ earlier ∈ log, earlier.1 ≠ thread) :
    Follows thread (log ++ [(thread, op)]) :=
  ⟨log, [(thread, op)], rfl, ⟨(thread, op), List.mem_singleton_self _, rfl⟩,
    foreign⟩

/-- Threads that each have an operation after one of another's did not run one
after the other. -/
theorem not_inTurn {log : List (ι × Op)}
    (follows : ∀ thread, Follows thread log) : ¬ InTurn log := by
  intro ⟨first, ordered⟩
  obtain ⟨before, after, rfl, ⟨own, later, own_eq⟩,
    ⟨foreign, earlier, foreign_ne⟩⟩ := follows first
  have order := (List.pairwise_append.mp ordered).2.2 foreign earlier own later
  exact foreign_ne (order own_eq)

end Order

inductive Side where
  | left
  | right
deriving DecidableEq, Repr

def Side.other : Side → Side
  | .left => .right
  | .right => .left

@[simp] theorem Side.other_ne (side : Side) : side.other ≠ side := by
  cases side <;> decide

@[simp] theorem Side.other_other (side : Side) : side.other.other = side := by
  cases side <;> rfl

theorem Side.eq_or_other (side which : Side) :
    which = side ∨ which = side.other := by
  cases side <;> cases which <;> decide

namespace Threads

variable {Op : Type} {Answer : Op → Type} {α : Side → Type} {σ : Type}

/-- Each of the two threads goes on as specified, if the other does only what
its own `acts` allows. -/
def Agree (execute : Execution Op Answer σ) (acts : Side → σ → σ → Prop)
    (post : (side : Side) → α side → σ → Prop)
    (threads : Threads Op Answer Side α σ) : Prop :=
  ∀ side, Holds execute (acts side.other)
    (fun state op => acts side state (execute op state).2) (post side)
    (threads.program side) threads.state

variable {execute : Execution Op Answer σ} {acts : Side → σ → σ → Prop}
  {post : (side : Side) → α side → σ → Prop}
  (reflexive : ∀ side state, acts side state state)
  (transitive : ∀ side first second third,
    acts side first second → acts side second third → acts side first third)

include reflexive transitive in
theorem Agree.step {threads : Threads Op Answer Side α σ}
    (agree : threads.Agree execute acts post) (side : Side) :
    (threads.step execute side).Agree execute acts post := by
  cases doing : threads.program side with
  | ret value =>
      rw [step_ret doing]
      exact agree
  | step op next =>
      have own := agree side
      rw [doing] at own
      obtain ⟨acted, rest⟩ := own.during_next (reflexive side.other)
      rw [step_step doing]
      intro which
      rcases Side.eq_or_other side which with rfl | rfl
      · dsimp only
        rw [Function.update_self]
        exact rest
      · dsimp only
        rw [Function.update_of_ne (Side.other_ne side)]
        refine (agree side.other).after_rely (transitive side.other.other) ?_
        rw [Side.other_other]
        exact acted

include reflexive transitive in
theorem Agree.run {threads : Threads Op Answer Side α σ}
    (agree : threads.Agree execute acts post) (schedule : List Side) :
    (threads.run execute schedule).Agree execute acts post :=
  run_preserves (Agree execute acts post)
    (fun _ side agree => agree.step reflexive transitive side) agree schedule

include reflexive in
theorem Agree.acted {threads : Threads Op Answer Side α σ}
    (agree : threads.Agree execute acts post) (side : Side) :
    acts side threads.state (threads.step execute side).state := by
  cases doing : threads.program side with
  | ret value =>
      rw [step_ret doing]
      exact reflexive side threads.state
  | step op next =>
      have own := agree side
      rw [doing] at own
      rw [step_step doing]
      exact (own.during_next (reflexive side.other)).1

include reflexive transitive in
theorem Agree.run_keeps (kept : σ → Prop)
    (each : ∀ side state later, acts side state later → kept state → kept later)
    {threads : Threads Op Answer Side α σ}
    (agree : threads.Agree execute acts post) (initially : kept threads.state)
    (schedule : List Side) : kept (threads.run execute schedule).state := by
  have both := run_preserves
    (fun threads : Threads Op Answer Side α σ =>
      threads.Agree execute acts post ∧ kept threads.state)
    (fun threads side before =>
      ⟨before.1.step reflexive transitive side,
        each side _ _ (before.1.acted reflexive side) before.2⟩)
    ⟨agree, initially⟩ schedule
  exact both.2

include reflexive in
theorem Agree.returned {threads : Threads Op Answer Side α σ}
    (agree : threads.Agree execute acts post) {side : Side} {value : α side}
    (returned : threads.program side = .ret value) :
    post side value threads.state := by
  have own := agree side
  rw [returned] at own
  exact own.post_now (reflexive side.other)

end Threads

end Quadcopter.AtomicProgram

import Mathlib.Logic.Relation

/-
Programs made of atomic operations on a shared state.

A program is the tree of its possible continuations: either it has returned, or
it names the operation it does next and how it goes on with the answer.  The
same tree can be run alone to its end, or one operation at a time between the
operations of another party.  Specifications are therefore stated against an
environment that may act before every operation.
-/

namespace Quadcopter.AtomicProgram

/-- `Answer op` is what the shared state answers to the operation `op`. -/
inductive Program (Op : Type) (Answer : Op → Type) (α : Type) : Type where
  | ret (value : α)
  | step (op : Op) (next : Answer op → Program Op Answer α)

variable {Op : Type} {Answer : Op → Type} {σ α β : Type}

namespace Program

def bind : Program Op Answer α → (α → Program Op Answer β) →
    Program Op Answer β
  | .ret value, continuation => continuation value
  | .step op next, continuation =>
      .step op (fun answer => (next answer).bind continuation)

instance : Monad (Program Op Answer) where
  pure := .ret
  bind := bind

def perform (op : Op) : Program Op Answer (Answer op) :=
  .step op .ret

@[simp] theorem pure_eq (value : α) :
    (pure value : Program Op Answer α) = .ret value := rfl

@[simp] theorem perform_bind (op : Op)
    (continuation : Answer op → Program Op Answer β) :
    (perform op >>= continuation) = .step op continuation := rfl

@[simp] theorem ret_bind (value : α)
    (continuation : α → Program Op Answer β) :
    ((.ret value : Program Op Answer α) >>= continuation) =
      continuation value := rfl

@[simp] theorem step_bind (op : Op) (next : Answer op → Program Op Answer α)
    (continuation : α → Program Op Answer β) :
    ((.step op next : Program Op Answer α) >>= continuation) =
      .step op (fun answer => next answer >>= continuation) := rfl

theorem bind_assoc {γ : Type} (program : Program Op Answer α)
    (second : α → Program Op Answer β) (third : β → Program Op Answer γ) :
    ((program >>= second) >>= third) =
      (program >>= fun value => second value >>= third) := by
  induction program with
  | ret value => rfl
  | step op next ih => exact congrArg (Program.step op) (funext ih)

end Program

abbrev Execution (Op : Type) (Answer : Op → Type) (σ : Type) : Type :=
  (op : Op) → σ → Answer op × σ

namespace Program

def run (execute : Execution Op Answer σ) : Program Op Answer α → σ → α × σ
  | .ret value, state => (value, state)
  | .step op next, state =>
      (next (execute op state).1).run execute (execute op state).2

def trace (execute : Execution Op Answer σ) : Program Op Answer α → σ → List Op
  | .ret _, _ => []
  | .step op next, state =>
      op :: (next (execute op state).1).trace execute (execute op state).2

@[simp] theorem run_ret (execute : Execution Op Answer σ) (value : α)
    (state : σ) :
    (Program.ret value : Program Op Answer α).run execute state =
      (value, state) := rfl

@[simp] theorem run_step (execute : Execution Op Answer σ) (op : Op)
    (next : Answer op → Program Op Answer α) (state : σ) :
    (Program.step op next).run execute state =
      (next (execute op state).1).run execute (execute op state).2 := rfl

theorem run_bind (execute : Execution Op Answer σ)
    (program : Program Op Answer α)
    (continuation : α → Program Op Answer β) (state : σ) :
    (program >>= continuation).run execute state =
      (continuation (program.run execute state).1).run execute
        (program.run execute state).2 := by
  induction program generalizing state with
  | ret value => rfl
  | step op next ih => exact ih _ _

theorem trace_bind (execute : Execution Op Answer σ)
    (program : Program Op Answer α)
    (continuation : α → Program Op Answer β) (state : σ) :
    (program >>= continuation).trace execute state =
      program.trace execute state ++
        (continuation (program.run execute state).1).trace execute
          (program.run execute state).2 := by
  induction program generalizing state with
  | ret value => rfl
  | step op next ih => exact congrArg (List.cons op) (ih _ _)

theorem run_map {τ : Type} (execute : Execution Op Answer σ)
    (executeView : Execution Op Answer τ) (view : σ → τ)
    (respects : ∀ op state,
      executeView op (view state) =
        ((execute op state).1, view (execute op state).2))
    (program : Program Op Answer α) (state : σ) :
    program.run executeView (view state) =
      ((program.run execute state).1, view (program.run execute state).2) ∧
    program.trace executeView (view state) = program.trace execute state := by
  induction program generalizing state with
  | ret value => exact ⟨rfl, rfl⟩
  | step op next ih =>
      have tail := ih (execute op state).1 (execute op state).2
      simp only [run, trace, respects]
      exact ⟨tail.1, congrArg (List.cons op) tail.2⟩

end Program

namespace Program

def Forall (allowed : Op → Prop) : Program Op Answer α → Prop
  | .ret _ => True
  | .step op next => allowed op ∧ ∀ answer, (next answer).Forall allowed

theorem Forall.bind {allowed : Op → Prop} {program : Program Op Answer α}
    {continuation : α → Program Op Answer β} (first : program.Forall allowed)
    (rest : ∀ value, (continuation value).Forall allowed) :
    (program >>= continuation).Forall allowed := by
  induction program with
  | ret value => exact rest value
  | step op next ih =>
      constructor
      · exact first.1
      · intro answer
        exact ih answer (first.2 answer)

theorem Forall.mono {allowed weaker : Op → Prop} {program : Program Op Answer α}
    (implies : ∀ op, allowed op → weaker op) (all : program.Forall allowed) :
    program.Forall weaker := by
  induction program with
  | ret value => trivial
  | step op next ih =>
      constructor
      · exact implies op all.1
      · intro answer
        exact ih answer (all.2 answer)

theorem Forall.of_mem_trace {allowed : Op → Prop} {program : Program Op Answer α}
    (all : program.Forall allowed) (execute : Execution Op Answer σ) {state : σ}
    {op : Op} (done : op ∈ program.trace execute state) : allowed op := by
  induction program generalizing state with
  | ret value => cases done
  | step first next ih =>
      rcases List.mem_cons.mp done with now | later
      · exact now ▸ all.1
      · exact ih _ (all.2 _) later

theorem Forall.run_keeps {execute : Execution Op Answer σ} {kept : σ → Prop}
    {allowed : Op → Prop} {program : Program Op Answer α} {state : σ}
    (each : ∀ op s, allowed op → kept s → kept (execute op s).2)
    (all : program.Forall allowed) (initially : kept state) :
    kept (program.run execute state).2 := by
  induction program generalizing state with
  | ret value => exact initially
  | step op next ih => exact ih _ (all.2 _) (each op state all.1 initially)

/-- Every state that a run alone goes through, the last one included. -/
def Throughout (execute : Execution Op Answer σ) (kept : σ → Prop) :
    Program Op Answer α → σ → Prop
  | .ret _, state => kept state
  | .step op next, state =>
      kept state ∧
        (next (execute op state).1).Throughout execute kept
          (execute op state).2

theorem Throughout.first {execute : Execution Op Answer σ} {kept : σ → Prop}
    {program : Program Op Answer α} {state : σ}
    (throughout : program.Throughout execute kept state) : kept state := by
  cases program with
  | ret value => exact throughout
  | step op next => exact throughout.1

theorem Throughout.last {execute : Execution Op Answer σ} {kept : σ → Prop}
    {program : Program Op Answer α} {state : σ}
    (throughout : program.Throughout execute kept state) :
    kept (program.run execute state).2 := by
  induction program generalizing state with
  | ret value => exact throughout
  | step op next ih => exact ih _ throughout.2

theorem throughout_bind {execute : Execution Op Answer σ} {kept : σ → Prop}
    (program : Program Op Answer α) (continuation : α → Program Op Answer β)
    (state : σ) :
    (program >>= continuation).Throughout execute kept state ↔
      program.Throughout execute kept state ∧
        (continuation (program.run execute state).1).Throughout execute kept
          (program.run execute state).2 := by
  induction program generalizing state with
  | ret value =>
      constructor
      · intro throughout
        exact ⟨throughout.first, throughout⟩
      · intro both
        exact both.2
  | step op next ih =>
      constructor
      · intro ⟨now, later⟩
        obtain ⟨rest, last⟩ := (ih _ _).mp later
        exact ⟨⟨now, rest⟩, last⟩
      · intro ⟨⟨now, rest⟩, last⟩
        exact ⟨now, (ih _ _).mpr ⟨rest, last⟩⟩

theorem Throughout.mono {execute : Execution Op Answer σ} {kept weaker : σ → Prop}
    {program : Program Op Answer α} {state : σ}
    (implies : ∀ s, kept s → weaker s)
    (throughout : program.Throughout execute kept state) :
    program.Throughout execute weaker state := by
  induction program generalizing state with
  | ret value => exact implies state throughout
  | step op next ih => exact ⟨implies state throughout.1, ih _ throughout.2⟩

/-- What every allowed operation keeps holds throughout. -/
theorem Forall.throughout {execute : Execution Op Answer σ} {kept : σ → Prop}
    {allowed : Op → Prop} {program : Program Op Answer α} {state : σ}
    (each : ∀ op s, allowed op → kept s → kept (execute op s).2)
    (all : program.Forall allowed) (initially : kept state) :
    program.Throughout execute kept state := by
  induction program generalizing state with
  | ret value => exact initially
  | step op next ih =>
      constructor
      · exact initially
      · exact ih _ (all.2 _) (each op state all.1 initially)

end Program

/-- `Holds execute rely during post program state`: started from `state`, with
the environment taking `rely` steps at every point, each operation is done in a
state that satisfies `during`, and a value is returned in a state, and in all
states the environment can make of it, that satisfies `post`. -/
def Holds (execute : Execution Op Answer σ) (rely : σ → σ → Prop)
    (during : σ → Op → Prop) (post : α → σ → Prop) :
    Program Op Answer α → σ → Prop
  | .ret value, state => ∀ later, rely state later → post value later
  | .step op next, state => ∀ later, rely state later →
      during later op ∧
        Holds execute rely during post
          (next (execute op later).1) (execute op later).2

namespace Holds

variable {execute : Execution Op Answer σ} {rely : σ → σ → Prop}
  {during : σ → Op → Prop} {post : α → σ → Prop}

theorem ret {value : α} {state : σ}
    (done : ∀ later, rely state later → post value later) :
    Holds execute rely during post
      (Program.ret value : Program Op Answer α) state := done

theorem step {op : Op} {next : Answer op → Program Op Answer α} {state : σ}
    (each : ∀ later, rely state later →
      during later op ∧
        Holds execute rely during post
          (next (execute op later).1) (execute op later).2) :
    Holds execute rely during post (.step op next) state := each

theorem after_rely
    (transitive : ∀ a b c, rely a b → rely b c → rely a c)
    {program : Program Op Answer α} {state later : σ}
    (holds : Holds execute rely during post program state)
    (acted : rely state later) :
    Holds execute rely during post program later := by
  cases program with
  | ret value =>
      intro final moved
      exact holds final (transitive _ _ _ acted moved)
  | step op next =>
      intro final moved
      exact holds final (transitive _ _ _ acted moved)

theorem weaken {weaker : α → σ → Prop} {program : Program Op Answer α}
    {state : σ}
    (implies : ∀ value final, post value final → weaker value final)
    (holds : Holds execute rely during post program state) :
    Holds execute rely during weaker program state := by
  induction program generalizing state with
  | ret value =>
      intro later moved
      exact implies value later (holds later moved)
  | step op next ih =>
      intro later moved
      obtain ⟨checked, rest⟩ := holds later moved
      exact ⟨checked, ih _ rest⟩

theorem allow {allowed : σ → Op → Prop} {program : Program Op Answer α}
    {state : σ} (implies : ∀ s op, during s op → allowed s op)
    (holds : Holds execute rely during post program state) :
    Holds execute rely allowed post program state := by
  induction program generalizing state with
  | ret value => exact holds
  | step op next ih =>
      intro later moved
      obtain ⟨checked, rest⟩ := holds later moved
      exact ⟨implies later op checked, ih _ rest⟩

theorem bind {second : β → σ → Prop} {program : Program Op Answer α}
    {continuation : α → Program Op Answer β} {state : σ}
    (first : Holds execute rely during post program state)
    (reflexive : ∀ s, rely s s)
    (rest : ∀ value final, post value final →
      Holds execute rely during second (continuation value) final) :
    Holds execute rely during second (program >>= continuation) state := by
  induction program generalizing state with
  | ret value => exact rest value state (first state (reflexive state))
  | step op next ih =>
      intro later moved
      obtain ⟨checked, remaining⟩ := first later moved
      exact ⟨checked, ih _ remaining⟩

/-- What neither the environment nor the program's own operations undo is still
there at the end. -/
theorem keeps (kept : σ → Prop) {program : Program Op Answer α} {state : σ}
    (stable : ∀ s later, kept s → rely s later → kept later)
    (each : ∀ s op, kept s → during s op → kept (execute op s).2)
    (holds : Holds execute rely during post program state)
    (initially : kept state) :
    Holds execute rely during (fun value final => post value final ∧ kept final)
      program state := by
  induction program generalizing state with
  | ret value =>
      intro later moved
      exact ⟨holds later moved, stable state later initially moved⟩
  | step op next ih =>
      intro later moved
      obtain ⟨checked, rest⟩ := holds later moved
      have still := each later op (stable state later initially moved) checked
      exact ⟨checked, ih _ rest still⟩

theorem during_next {op : Op} {next : Answer op → Program Op Answer α}
    {state : σ} (reflexive : ∀ s, rely s s)
    (holds : Holds execute rely during post (.step op next) state) :
    during state op ∧
      Holds execute rely during post
        (next (execute op state).1) (execute op state).2 :=
  holds state (reflexive state)

theorem post_now {value : α} {state : σ} (reflexive : ∀ s, rely s s)
    (holds : Holds execute rely during post
      (Program.ret value : Program Op Answer α) state) :
    post value state :=
  holds state (reflexive state)

/-- A specification against an environment is one for running alone. -/
theorem run {program : Program Op Answer α} {state : σ}
    (reflexive : ∀ s, rely s s)
    (holds : Holds execute rely during post program state) :
    post (program.run execute state).1 (program.run execute state).2 ∧
      ∀ op ∈ program.trace execute state, ∃ at_, during at_ op := by
  induction program generalizing state with
  | ret value =>
      exact ⟨holds.post_now reflexive, fun op member => by cases member⟩
  | step op next ih =>
      obtain ⟨checked, rest⟩ := holds.during_next reflexive
      obtain ⟨final, others⟩ := ih _ rest
      refine ⟨final, ?_⟩
      intro other member
      rcases List.mem_cons.mp member with same | later
      · exact ⟨state, same ▸ checked⟩
      · exact others other later

/-- An invariant that the environment keeps, and that every operation of the
program keeps, is there before each operation. -/
theorem of_forall {allowed : Op → Prop} {kept : σ → Prop}
    {program : Program Op Answer α} {state : σ}
    (stable : ∀ s later, kept s → rely s later → kept later)
    (each : ∀ op s, allowed op → kept s →
      during s op ∧ kept (execute op s).2)
    (all : program.Forall allowed) (initially : kept state) :
    Holds execute rely during (fun _ => kept) program state := by
  induction program generalizing state with
  | ret value =>
      intro later moved
      exact stable state later initially moved
  | step op next ih =>
      intro later moved
      obtain ⟨checked, still⟩ :=
        each op later all.1 (stable state later initially moved)
      exact ⟨checked, ih _ (all.2 _) still⟩

theorem run_preserves {program : Program Op Answer α} {state : σ}
    (reflexive : ∀ s, rely s s) (kept : σ → Prop)
    (each : ∀ s op, kept s → during s op → kept (execute op s).2)
    (holds : Holds execute rely during post program state)
    (initially : kept state) :
    kept (program.run execute state).2 := by
  induction program generalizing state with
  | ret value => exact initially
  | step op next ih =>
      obtain ⟨checked, rest⟩ := holds.during_next reflexive
      exact ih _ rest (each state op initially checked)

end Holds

end Quadcopter.AtomicProgram

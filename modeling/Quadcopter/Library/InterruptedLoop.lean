import Quadcopter.Library.AtomicProgram

/-
A program that is run for ever, round after round, and interrupts between its
operations.

An interrupt runs whole before the next operation, if the state lets it in; one
that is held off does nothing, and comes again as a later one.  Where interrupts
are held off, a piece of the program runs as it does alone.
-/

namespace Quadcopter.AtomicProgram

/-- `round` begins with the local state that the round before has returned; an
error ends the loop.  `enabled` says whether interrupts are let in. -/
structure InterruptedLoop (Op : Type) (Answer : Op → Type) (η τ ε σ : Type)
    where
  execute : Execution Op Answer σ
  round : τ → Program Op Answer (Except η τ)
  enabled : σ → Bool
  handle : ε → σ → σ

inductive Turn (ε : Type) where
  | main
  | interrupt (event : ε)

structure LoopState (Op : Type) (Answer : Op → Type) (η τ σ : Type) where
  program : Program Op Answer (Except η τ)
  state : σ

namespace InterruptedLoop

variable {Op : Type} {Answer : Op → Type} {η τ ε σ α : Type}

def start (initial : τ) (state : σ) : LoopState Op Answer η τ σ :=
  { program := .ret (.ok initial), state }

def step (loop : InterruptedLoop Op Answer η τ ε σ)
    (machine : LoopState Op Answer η τ σ) : (turn : Turn ε) →
    LoopState Op Answer η τ σ
  | .main =>
      match machine.program with
      | .ret (.error _) => machine
      | .ret (.ok initial) => { machine with program := loop.round initial }
      | .step op next =>
          { program := next (loop.execute op machine.state).1
            state := (loop.execute op machine.state).2 }
  | .interrupt event =>
      if loop.enabled machine.state then
        { machine with state := loop.handle event machine.state }
      else machine

def run (loop : InterruptedLoop Op Answer η τ ε σ)
    (machine : LoopState Op Answer η τ σ) (turns : List (Turn ε)) :
    LoopState Op Answer η τ σ :=
  turns.foldl loop.step machine

variable (loop : InterruptedLoop Op Answer η τ ε σ)

inductive Interrupted : σ → σ → Prop where
  | refl (state : σ) : Interrupted state state
  | next {state later : σ} (before : Interrupted state later) (event : ε)
      (enabled : loop.enabled later = true) :
      Interrupted state (loop.handle event later)

variable {loop}

theorem Interrupted.trans {first second third : σ}
    (one : loop.Interrupted first second)
    (two : loop.Interrupted second third) : loop.Interrupted first third := by
  induction two with
  | refl => exact one
  | next before event enabled ih => exact .next ih event enabled

theorem Interrupted.keeps {kept : σ → Prop} {state later : σ}
    (interrupted : loop.Interrupted state later)
    (each : ∀ state event, loop.enabled state = true → kept state →
      kept (loop.handle event state)) (initially : kept state) :
    kept later := by
  induction interrupted with
  | refl => exact initially
  | next before event enabled ih => exact each _ event enabled ih

theorem Interrupted.held_off {state later : σ}
    (interrupted : loop.Interrupted state later)
    (disabled : loop.enabled state = false) : later = state := by
  induction interrupted with
  | refl => rfl
  | next before event enabled ih =>
      rw [ih, disabled] at enabled
      cases enabled

variable (loop)

/-- `program` keeps `inv` with each operation, whatever interrupts come, and
returns in a state as `post` says. -/
def Spec (inv : σ → Prop) (post : α → σ → Prop)
    (program : Program Op Answer α) (state : σ) : Prop :=
  Holds loop.execute loop.Interrupted
    (fun state op => inv (loop.execute op state).2) post program state

variable {loop} {inv : σ → Prop}

theorem Spec.ret {pre : σ → Prop} {post : α → σ → Prop} {value : α} {state : σ}
    (stable : ∀ state event, loop.enabled state = true → pre state →
      pre (loop.handle event state)) (now : pre state)
    (done : ∀ later, pre later → post value later) :
    loop.Spec inv post (Program.ret value) state := by
  intro later interrupted
  exact done later (interrupted.keeps stable now)

theorem Spec.perform {pre : σ → Prop} {post : α → σ → Prop} {op : Op}
    {next : Answer op → Program Op Answer α} {state : σ}
    (stable : ∀ state event, loop.enabled state = true → pre state →
      pre (loop.handle event state)) (now : pre state)
    (each : ∀ later, pre later → inv (loop.execute op later).2 ∧
      loop.Spec inv post (next (loop.execute op later).1)
        (loop.execute op later).2) :
    loop.Spec inv post (.step op next) state := by
  intro later interrupted
  exact each later (interrupted.keeps stable now)

theorem Spec.bind {β : Type} {middle : α → σ → Prop} {post : β → σ → Prop}
    {program : Program Op Answer α} {continuation : α → Program Op Answer β}
    {state : σ} (first : loop.Spec inv middle program state)
    (rest : ∀ value later, middle value later →
      loop.Spec inv post (continuation value) later) :
    loop.Spec inv post (program >>= continuation) state :=
  Holds.bind first .refl rest

theorem Spec.weaken {post weaker : α → σ → Prop}
    {program : Program Op Answer α} {state : σ}
    (implies : ∀ value later, post value later → weaker value later)
    (spec : loop.Spec inv post program state) :
    loop.Spec inv weaker program state :=
  Holds.weaken implies spec

theorem Spec.perform_held_off {post : α → σ → Prop} {op : Op}
    {next : Answer op → Program Op Answer α} {state : σ}
    (disabled : loop.enabled state = false)
    (kept : inv (loop.execute op state).2)
    (rest : loop.Spec inv post (next (loop.execute op state).1)
      (loop.execute op state).2) :
    loop.Spec inv post (.step op next) state := by
  intro later interrupted
  rw [interrupted.held_off disabled]
  exact ⟨kept, rest⟩

/-- A piece of the program that begins with interrupts held off, and does not let
them in, runs as it does alone. -/
theorem Spec.held_off {post : α → σ → Prop} {program : Program Op Answer α}
    {state : σ} (disabled : loop.enabled state = false)
    (throughout : program.Throughout loop.execute
      (fun state => inv state ∧ loop.enabled state = false) state)
    (done : post (program.run loop.execute state).1
      (program.run loop.execute state).2) :
    loop.Spec inv post program state := by
  induction program generalizing state with
  | ret value =>
      intro later interrupted
      rw [interrupted.held_off disabled]
      exact done
  | step op next ih =>
      intro later interrupted
      rw [interrupted.held_off disabled]
      obtain ⟨_, rest⟩ := throughout
      obtain ⟨kept, still⟩ := rest.first
      exact ⟨kept, ih _ still rest done⟩

def ended (ready : τ → σ → Prop) (stopped : η → σ → Prop) :
    Except η τ → σ → Prop
  | .ok initial => ready initial
  | .error reason => stopped reason

/-- Rounds that each keep an invariant, and end where the next one can begin. -/
structure Sound (loop : InterruptedLoop Op Answer η τ ε σ) (inv : σ → Prop)
    (ready : τ → σ → Prop) (stopped : η → σ → Prop) : Prop where
  interrupts : ∀ state event, loop.enabled state = true → inv state →
    inv (loop.handle event state)
  rounds : ∀ initial state, ready initial state →
    loop.Spec inv (ended ready stopped) (loop.round initial) state

structure Going (loop : InterruptedLoop Op Answer η τ ε σ) (inv : σ → Prop)
    (ready : τ → σ → Prop) (stopped : η → σ → Prop)
    (machine : LoopState Op Answer η τ σ) : Prop where
  kept : inv machine.state
  rest : loop.Spec inv (ended ready stopped) machine.program machine.state

variable {ready : τ → σ → Prop} {stopped : η → σ → Prop}
  {machine : LoopState Op Answer η τ σ}

theorem Sound.step (sound : loop.Sound inv ready stopped)
    (going : loop.Going inv ready stopped machine) (turn : Turn ε) :
    loop.Going inv ready stopped (loop.step machine turn) := by
  obtain ⟨kept, rest⟩ := going
  cases turn with
  | main =>
      unfold InterruptedLoop.step
      dsimp only
      cases left : machine.program with
      | ret result =>
          cases result with
          | error reason => exact ⟨kept, rest⟩
          | ok initial =>
              rw [left] at rest
              have ready_now : ready initial machine.state :=
                rest machine.state (.refl _)
              exact ⟨kept, sound.rounds initial machine.state ready_now⟩
      | step op next =>
          rw [left] at rest
          obtain ⟨now, later⟩ := Holds.during_next .refl rest
          exact ⟨now, later⟩
  | interrupt event =>
      unfold InterruptedLoop.step
      dsimp only
      by_cases enabled : loop.enabled machine.state = true
      · rw [if_pos enabled]
        constructor
        · exact sound.interrupts machine.state event enabled kept
        · exact Holds.after_rely (fun _ _ _ => .trans) rest
            (.next (.refl _) event enabled)
      · rw [if_neg enabled]
        exact ⟨kept, rest⟩

theorem Sound.run (sound : loop.Sound inv ready stopped)
    (going : loop.Going inv ready stopped machine) (turns : List (Turn ε)) :
    loop.Going inv ready stopped (loop.run machine turns) := by
  induction turns generalizing machine with
  | nil => exact going
  | cons turn turns ih => exact ih (sound.step going turn)

theorem Going.returned (going : loop.Going inv ready stopped machine)
    {result : Except η τ} (returned : machine.program = .ret result) :
    ended ready stopped result machine.state := by
  have rest := going.rest
  rw [returned] at rest
  exact rest machine.state (.refl _)

-- from here on, specifications are used through the rules above
attribute [irreducible] Spec

end InterruptedLoop

end Quadcopter.AtomicProgram

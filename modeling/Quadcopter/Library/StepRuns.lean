import Mathlib.Data.List.Basic
import Mathlib.Data.List.Induction

/-
Runs of a machine that takes one step for each action.

A condition on steps holds of a run if it holds of each step in the state that
the steps before it have reached.
-/

namespace Quadcopter

variable {σ ε : Type}

def runSteps (step : σ → ε → σ) (state : σ) (actions : List ε) : σ :=
  actions.foldl step state

theorem runSteps_append (step : σ → ε → σ) (state : σ) (first second : List ε) :
    runSteps step state (first ++ second) =
      runSteps step (runSteps step state first) second :=
  List.foldl_append

/-- Every step of the run is one that `holds` describes. -/
def EveryStep (step : σ → ε → σ) (holds : σ → ε → Prop) :
    σ → List ε → Prop
  | _, [] => True
  | state, action :: actions =>
      holds state action ∧ EveryStep step holds (step state action) actions

namespace EveryStep

variable {step : σ → ε → σ} {holds other : σ → ε → Prop} {state : σ}

instance decidable [∀ state action, Decidable (holds state action)] :
    ∀ (state : σ) (actions : List ε),
      Decidable (EveryStep step holds state actions)
  | _, [] => isTrue trivial
  | state, action :: actions =>
      @instDecidableAnd _ _ _ (decidable (step state action) actions)

theorem append {first second : List ε} :
    EveryStep step holds state (first ++ second) ↔
      EveryStep step holds state first ∧
        EveryStep step holds (runSteps step state first) second := by
  induction first generalizing state with
  | nil =>
      constructor
      · intro final
        exact ⟨trivial, final⟩
      · intro both
        exact both.2
  | cons action first ih =>
      have later := @ih (step state action)
      constructor
      · intro ⟨now, rest⟩
        obtain ⟨initial, final⟩ := later.mp rest
        exact ⟨⟨now, initial⟩, final⟩
      · intro ⟨⟨now, initial⟩, final⟩
        exact ⟨now, later.mpr ⟨initial, final⟩⟩

/-- What each described step keeps, a run of described steps keeps. -/
theorem invariant (kept : σ → Prop)
    (each : ∀ state action, kept state → holds state action →
      kept (step state action))
    {actions : List ε} (every : EveryStep step holds state actions)
    (initially : kept state) : kept (runSteps step state actions) := by
  induction actions generalizing state with
  | nil => exact initially
  | cons action actions ih =>
      exact ih every.2 (each state action initially every.1)

/-- Two descriptions that agree wherever an invariant of the described steps
holds describe the same runs. -/
theorem congr (kept : σ → Prop)
    (agree : ∀ state action, kept state →
      (holds state action ↔ other state action))
    (each : ∀ state action, kept state → holds state action →
      kept (step state action))
    (actions : List ε) (initially : kept state) :
    EveryStep step holds state actions ↔ EveryStep step other state actions := by
  induction actions generalizing state with
  | nil => exact Iff.rfl
  | cons action actions ih =>
      constructor
      · intro ⟨now, later⟩
        have next := each state action initially now
        exact ⟨(agree state action initially).mp now, (ih next).mp later⟩
      · intro ⟨now, later⟩
        have same := (agree state action initially).mpr now
        have next := each state action initially same
        exact ⟨same, (ih next).mpr later⟩

/-- A property of histories that a step keeps exactly if it is described holds
of every part of a run exactly if each of its steps is described. -/
theorem every_prefix_iff {good : List ε → Prop} (initially : good [])
    (agree : ∀ actions action, (∀ done, done <+: actions → good done) →
      (good (actions ++ [action]) ↔
        holds (runSteps step state actions) action))
    (actions : List ε) :
    (∀ done, done <+: actions → good done) ↔
      EveryStep step holds state actions := by
  induction actions using List.reverseRecOn with
  | nil =>
      constructor
      · intro _
        trivial
      · intro _ done part
        rw [List.prefix_nil.mp part]
        exact initially
  | append_singleton actions action ih =>
      rw [append, ← ih]
      constructor
      · intro every
        have before : ∀ done, done <+: actions → good done :=
          fun done part => every done (part.trans (List.prefix_append _ _))
        have now := (agree actions action before).mp
          (every _ (List.prefix_refl _))
        exact ⟨before, now, trivial⟩
      · rintro ⟨before, now, _⟩ done part
        rcases List.prefix_concat_iff.mp part with whole | earlier
        · rw [whole]
          exact (agree actions action before).mpr now
        · exact before done earlier

end EveryStep

end Quadcopter

import Mathlib.Algebra.Order.Ring.Defs
import Mathlib.Tactic.Ring
import Quadcopter.Library.StepRuns

/-
Runs whose steps bring a measure nearer to a band.

Each step takes the measure into the band, or shrinks it by a rate; then so many
steps shrink it by so many powers of the rate, until it is in the band, where it
stays.
-/

namespace Quadcopter

variable {σ ε K : Type}

theorem EveryStep.of_replicate {step : σ → ε → σ} {holds : σ → ε → Prop}
    {state : σ} {action : ε} {n : Nat}
    (every : EveryStep step holds state (List.replicate n action)) :
    EveryStep step (fun state taken => taken = action ∧ holds state action)
      state (List.replicate n action) := by
  induction n generalizing state with
  | zero => trivial
  | succ n ih => exact ⟨⟨rfl, every.1⟩, ih every.2⟩

variable [CommRing K] [LinearOrder K] [IsStrictOrderedRing K]

theorem EveryStep.settles {step : σ → ε → σ} {holds : σ → ε → Prop}
    (kept : σ → Prop) (measure : σ → K) {band rate : K}
    (band_nonneg : 0 ≤ band) (rate_nonneg : 0 ≤ rate) (rate_le : rate ≤ 1)
    (each : ∀ state action, kept state → holds state action →
      kept (step state action) ∧
        measure (step state action) ≤ max band (rate * measure state))
    {state : σ} {actions : List ε} (every : EveryStep step holds state actions)
    (initially : kept state) :
    kept (runSteps step state actions) ∧
      measure (runSteps step state actions) ≤
        max band (rate ^ actions.length * measure state) := by
  induction actions using List.reverseRecOn with
  | nil =>
      refine ⟨initially, ?_⟩
      rw [List.length_nil, pow_zero, one_mul]
      exact le_max_right _ _
  | append_singleton actions action ih =>
      obtain ⟨before, now, _⟩ := EveryStep.append.mp every
      obtain ⟨reached, near⟩ := ih before
      obtain ⟨next, nearer⟩ := each _ _ reached now
      rw [runSteps_append]
      refine ⟨next, le_trans nearer (max_le (le_max_left _ _) ?_)⟩
      calc
        rate * measure (runSteps step state actions) ≤
            rate * max band (rate ^ actions.length * measure state) :=
          mul_le_mul_of_nonneg_left near rate_nonneg
        _ = max (rate * band)
            (rate ^ (actions ++ [action]).length * measure state) := by
          rw [mul_max_of_nonneg _ _ rate_nonneg, List.length_append,
            List.length_singleton, pow_succ']
          ring_nf
        _ ≤ max band (rate ^ (actions ++ [action]).length * measure state) :=
          max_le_max_right _ (mul_le_of_le_one_left band_nonneg rate_le)

end Quadcopter

import Mathlib.Analysis.Normed.Algebra.QuaternionExponential
import Mathlib.Analysis.SpecialFunctions.ExpDeriv
import Mathlib.Analysis.SpecialFunctions.Exponential
import Mathlib.Analysis.SpecialFunctions.Trigonometric.ArctanDeriv
import Mathlib.Analysis.SpecialFunctions.Trigonometric.Bounds
import Quadcopter.Library.StepRuns

/-
Turns that are made of many small ones, as unit quaternions.

For an imaginary v, the product with exp v is a turn about v.  The normalised
product with 1 + v is one about the same axis by a smaller angle.  Errors of the
steps add up, as an exact turn does not change distances.
-/

section

open NormedSpace
open scoped Quaternion

namespace Quadcopter

theorem EveryStep.map {σ ε α : Type} {step : σ → ε → σ} {holds : σ → ε → Prop}
    {action : α → ε} {state : σ} {inputs : List α} :
    EveryStep step holds state (inputs.map action) ↔
      EveryStep (fun state input => step state (action input))
        (fun state input => holds state (action input)) state inputs := by
  induction inputs generalizing state with
  | nil => exact Iff.rfl
  | cons input inputs ih => exact and_congr Iff.rfl ih

/-- A run whose steps are near those of an exact one, which brings no two points
further apart. -/
theorem EveryStep.drifts {σ ε X : Type} [PseudoMetricSpace X]
    {step : σ → ε → σ} {holds : σ → ε → Prop} (kept : σ → Prop)
    (view : σ → X) (exactly : X → ε → X) (error : ε → ℝ)
    (each : ∀ state action, kept state → holds state action →
      kept (step state action) ∧
        dist (view (step state action)) (exactly (view state) action) ≤
          error action)
    (nonexpanding : ∀ point other action,
      dist (exactly point action) (exactly other action) ≤ dist point other)
    {state : σ} {actions : List ε} (every : EveryStep step holds state actions)
    (initially : kept state) (point : X) :
    dist (view (runSteps step state actions)) (runSteps exactly point actions) ≤
      dist (view state) point + (actions.map error).sum := by
  induction actions generalizing state point with
  | nil =>
      rw [List.map_nil, List.sum_nil, add_zero]
      exact le_refl _
  | cons action actions ih =>
      obtain ⟨next, near⟩ := each state action initially every.1
      have later := ih every.2 next (exactly point action)
      have apart := dist_triangle (view (step state action))
        (exactly (view state) action) (exactly point action)
      have still := nonexpanding (view state) point action
      rw [List.map_cons, List.sum_cons]
      calc
        dist (view (runSteps step (step state action) actions))
            (runSteps exactly (exactly point action) actions) ≤
            dist (view (step state action)) (exactly point action) +
              (actions.map error).sum := later
        _ ≤ dist (view state) point + (error action +
              (actions.map error).sum) := by linarith

section

variable {E : Type} [NormedAddCommGroup E] [NormedSpace ℝ E]

/-- What is added to a vector of length one or more moves its direction by twice
its length at most. -/
theorem norm_direction_sub_le {moved other : E} (long : 1 ≤ ‖moved‖) :
    ‖‖other‖⁻¹ • other - ‖moved‖⁻¹ • moved‖ ≤ 2 * ‖other - moved‖ := by
  have moved_pos : 0 < ‖moved‖ := by linarith
  have split : ‖other‖⁻¹ • other - ‖moved‖⁻¹ • moved =
      ‖moved‖⁻¹ • (other - moved) +
        (‖other‖⁻¹ - ‖moved‖⁻¹) • other := by
    rw [smul_sub, sub_smul]
    abel
  have short : ‖moved‖⁻¹ ≤ 1 := inv_le_one_of_one_le₀ long
  have stretched : ‖(‖other‖⁻¹ - ‖moved‖⁻¹) • other‖ ≤ ‖other - moved‖ := by
    rcases eq_or_ne other 0 with none | some
    · rw [none, smul_zero, norm_zero]
      exact norm_nonneg _
    · have other_pos : 0 < ‖other‖ := norm_pos_iff.mpr some
      have scaled : (‖other‖⁻¹ - ‖moved‖⁻¹) * ‖other‖ =
          (‖moved‖ - ‖other‖) * ‖moved‖⁻¹ := by
        field_simp
      rw [norm_smul, ← norm_norm other, ← norm_mul, norm_norm, scaled, norm_mul,
        norm_inv, norm_norm, Real.norm_eq_abs, abs_sub_comm]
      have apart := abs_norm_sub_norm_le other moved
      have apart_nonneg := abs_nonneg (‖other‖ - ‖moved‖)
      calc
        |‖other‖ - ‖moved‖| * ‖moved‖⁻¹ ≤ |‖other‖ - ‖moved‖| * 1 :=
          mul_le_mul_of_nonneg_left short apart_nonneg
        _ ≤ ‖other - moved‖ := by rw [mul_one]; exact apart
  rw [split, two_mul]
  refine (norm_add_le _ _).trans (add_le_add ?_ stretched)
  rw [norm_smul, norm_inv, norm_norm]
  exact mul_le_of_le_one_left (norm_nonneg _) short

end

theorem abs_arctan_sub_le {x : ℝ} (nonneg : 0 ≤ x) :
    |Real.arctan x - x| ≤ x ^ 3 / 3 := by
  have below : Real.arctan x ≤ x := by
    have tangent := Real.le_tan (Real.arctan_nonneg.mpr nonneg)
      (Real.arctan_lt_pi_div_two x)
    rw [Real.tan_arctan] at tangent
    exact tangent
  have slope : ∀ t : ℝ, HasDerivAt
      (fun x : ℝ => x ^ 3 / 3 - (x - Real.arctan x))
      (t ^ 2 - (1 - 1 / (1 + t ^ 2))) t := by
    intro t
    have cube := (hasDerivAt_pow 3 t).div_const 3
    have rest := (hasDerivAt_id' t).fun_sub (Real.hasDerivAt_arctan t)
    simpa using cube.fun_sub rest
  have grows : MonotoneOn (fun x : ℝ => x ^ 3 / 3 - (x - Real.arctan x))
      (Set.Ici 0) := by
    apply monotoneOn_of_deriv_nonneg (convex_Ici 0)
    · exact fun t _ => (slope t).continuousAt.continuousWithinAt
    · exact fun t _ => (slope t).differentiableAt.differentiableWithinAt
    · intro t _
      have square : 0 < 1 + t ^ 2 := by positivity
      have whole : t ^ 2 - (1 - 1 / (1 + t ^ 2)) = t ^ 4 / (1 + t ^ 2) := by
        field_simp
        ring
      rw [(slope t).deriv, whole]
      positivity
  have first := grows Set.self_mem_Ici nonneg nonneg
  dsimp only at first
  rw [Real.arctan_zero] at first
  rw [abs_sub_comm, abs_of_nonneg (by linarith)]
  linarith

theorem norm_sq_of_imaginary {v : ℍ[ℝ]} (imaginary : v.re = 0) (c k : ℝ) :
    ‖(c : ℍ[ℝ]) + k • v‖ ^ 2 = c ^ 2 + k ^ 2 * ‖v‖ ^ 2 := by
  rw [sq, sq ‖v‖, ← Quaternion.normSq_eq_norm_mul_self,
    ← Quaternion.normSq_eq_norm_mul_self, Quaternion.normSq_def',
    Quaternion.normSq_def']
  simp [imaginary]
  ring

theorem chord_sq_le (α β : ℝ) :
    (Real.cos α - Real.cos β) ^ 2 + (Real.sin α - Real.sin β) ^ 2 ≤
      (α - β) ^ 2 := by
  have one := Real.sin_sq_add_cos_sq α
  have two := Real.sin_sq_add_cos_sq β
  have between := Real.cos_sub α β
  have near := Real.one_sub_sq_div_two_le_cos (x := α - β)
  nlinarith

/-- 1 + v, normalised, is a turn about v by twice the arctangent. -/
theorem dist_direction_exp_le {v : ℍ[ℝ]} (imaginary : v.re = 0) :
    dist (‖1 + v‖⁻¹ • (1 + v)) (exp v) ≤ ‖v‖ ^ 3 / 3 := by
  rcases eq_or_ne v 0 with rfl | some
  · simp
  · have v_pos : 0 < ‖v‖ := norm_pos_iff.mpr some
    have long : ‖1 + v‖ = √(1 + ‖v‖ ^ 2) := by
      have squared := norm_sq_of_imaginary imaginary 1 1
      rw [Quaternion.coe_one, one_smul, one_pow, one_mul] at squared
      rw [← squared, Real.sqrt_sq (norm_nonneg _)]
    have turned : ‖1 + v‖⁻¹ • (1 + v) =
        ((Real.cos (Real.arctan ‖v‖) : ℝ) : ℍ[ℝ]) +
          (Real.sin (Real.arctan ‖v‖) / ‖v‖) • v := by
      have ratio : ‖v‖ / √(1 + ‖v‖ ^ 2) / ‖v‖ = (√(1 + ‖v‖ ^ 2))⁻¹ := by
        field_simp
      rw [Real.cos_arctan, Real.sin_arctan, long, ratio, one_div]
      generalize (√(1 + ‖v‖ ^ 2))⁻¹ = scale
      rw [smul_add, ← Quaternion.coe_one, ← Quaternion.coe_smul, smul_eq_mul,
        mul_one]
    have parts : ‖1 + v‖⁻¹ • (1 + v) - exp v =
        ((Real.cos (Real.arctan ‖v‖) - Real.cos ‖v‖ : ℝ) : ℍ[ℝ]) +
          ((Real.sin (Real.arctan ‖v‖) - Real.sin ‖v‖) / ‖v‖) • v := by
      rw [turned, Quaternion.exp_of_re_eq_zero _ imaginary, sub_div, sub_smul,
        Quaternion.coe_sub]
      abel
    have gap : ‖‖1 + v‖⁻¹ • (1 + v) - exp v‖ ^ 2 ≤
        (Real.arctan ‖v‖ - ‖v‖) ^ 2 := by
      rw [parts, norm_sq_of_imaginary imaginary, div_pow,
        div_mul_cancel₀ _ (by positivity)]
      exact chord_sq_le _ _
    rw [dist_eq_norm, ← abs_norm]
    exact (sq_le_sq.mp gap).trans (abs_arctan_sub_le v_pos.le)

theorem norm_exp_of_imaginary {v : ℍ[ℝ]} (imaginary : v.re = 0) :
    ‖exp v‖ = 1 := by
  rw [Quaternion.norm_exp, imaginary]
  simp

theorem one_le_norm_one_add {v : ℍ[ℝ]} (imaginary : v.re = 0) :
    1 ≤ ‖1 + v‖ := by
  have squared := norm_sq_of_imaginary imaginary 1 1
  rw [Quaternion.coe_one, one_smul, one_pow, one_mul] at squared
  have nonneg := sq_nonneg ‖v‖
  nlinarith [norm_nonneg (1 + v)]

/-- A step by 1 + v that is pushed aside, and the turn that it stands for. -/
theorem dist_step_exp_le {q v : ℍ[ℝ]} (push : ℍ[ℝ]) (unit : ‖q‖ = 1)
    (imaginary : v.re = 0) :
    dist (‖q * (1 + v) - push‖⁻¹ • (q * (1 + v) - push)) (q * exp v) ≤
      ‖v‖ ^ 3 / 3 + 2 * ‖push‖ := by
  have same : ‖q * (1 + v)‖ = ‖1 + v‖ := by rw [norm_mul, unit, one_mul]
  have long : 1 ≤ ‖q * (1 + v)‖ := by
    rw [same]
    exact one_le_norm_one_add imaginary
  have aside :=
    @norm_direction_sub_le _ _ _ _ (q * (1 + v) - push) long
  rw [sub_sub_cancel_left, norm_neg, ← dist_eq_norm] at aside
  have ahead : dist (‖q * (1 + v)‖⁻¹ • (q * (1 + v))) (q * exp v) ≤
      ‖v‖ ^ 3 / 3 := by
    rw [same, ← mul_smul_comm, dist_eq_norm, ← mul_sub, norm_mul, unit,
      one_mul, ← dist_eq_norm]
    exact dist_direction_exp_le imaginary
  have whole := dist_triangle
    (‖q * (1 + v) - push‖⁻¹ • (q * (1 + v) - push))
    (‖q * (1 + v)‖⁻¹ • (q * (1 + v))) (q * exp v)
  linarith

theorem hasDerivAt_turn (q rate : ℍ[ℝ]) (t : ℝ) :
    HasDerivAt (fun t : ℝ => q * exp (t • rate))
      (q * exp (t • rate) * rate) t := by
  have turn := hasDerivAt_exp_smul_const rate t
  have scaled := turn.const_mul q
  rw [← mul_assoc] at scaled
  exact scaled

end Quadcopter

end

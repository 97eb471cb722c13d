import Quadcopter.Library.SmallTurns
import Quadcopter.M3.AttitudeRotation
import Quadcopter.M3.VectorAlgebra

/-
The attitude filter as an integrator of the gyro (panda/m3/angle.c), over exact
real arithmetic.

Between two readings the board turns at the rate that the gyro reads.  The filter
takes one step of length dt along the tangent, less the step of the correction,
and normalises.
-/

section

open NormedSpace
open scoped Quaternion

namespace Quadcopter

structure AngleReading where
  gyro : Vector3 ℝ
  accel : Vector3 ℝ

def AngleReading.call (reading : AngleReading) : AngleCall ℝ :=
  .angleUpdate reading.gyro reading.accel

def Vector3.pure (v : Vector3 ℝ) : ℍ[ℝ] := ⟨0, v.x, v.y, v.z⟩

@[simp] theorem Vector3.pure_re (v : Vector3 ℝ) : v.pure.re = 0 := rfl

@[simp] theorem Vector3.pure_imI (v : Vector3 ℝ) : v.pure.imI = v.x := rfl

@[simp] theorem Vector3.pure_imJ (v : Vector3 ℝ) : v.pure.imJ = v.y := rfl

@[simp] theorem Vector3.pure_imK (v : Vector3 ℝ) : v.pure.imK = v.z := rfl

/-- The attitude after dt at the rate that is read. -/
noncomputable def turnedExactly (dt : ℝ) (q : ℍ[ℝ]) (reading : AngleReading) :
    ℍ[ℝ] :=
  q * exp ((dt / (2 : ℕ)) • reading.gyro.pure)

private theorem turnedExactly_def (dt : ℝ) (q : ℍ[ℝ]) (reading : AngleReading) :
    turnedExactly dt q reading = q * exp ((dt / 2) • reading.gyro.pure) := by
  unfold turnedExactly
  rw [Nat.cast_ofNat]

/-- It solves the equation of an attitude that turns, q' = q ω / 2. -/
theorem hasDerivAt_turnedExactly (q : ℍ[ℝ]) (reading : AngleReading) (t : ℝ) :
    HasDerivAt (fun t => turnedExactly t q reading)
      (turnedExactly t q reading * ((1 / 2 : ℝ) • reading.gyro.pure)) t := by
  have turn := hasDerivAt_turn q ((1 / 2 : ℝ) • reading.gyro.pure) t
  have half : ∀ t : ℝ, t • (1 / 2 : ℝ) • reading.gyro.pure =
      (t / 2) • reading.gyro.pure := by
    intro t
    rw [smul_smul, mul_one_div]
  simp only [half] at turn
  exact turn

/-- How far one update may leave the turn that is read: the chord of the tangent
step, and the correction. -/
noncomputable def driftBound (angle : AngleState ℝ) (reading : AngleReading) :
    ℝ :=
  (|angle.dt| * √reading.gyro.sq) ^ 3 / (24 : ℕ) +
    (2 : ℕ) * |angle.dt * angle.errorGain|

private theorem driftBound_def (angle : AngleState ℝ) (reading : AngleReading) :
    driftBound angle reading =
      (|angle.dt| * √reading.gyro.sq) ^ 3 / 24 +
        2 * |angle.dt * angle.errorGain| := by
  unfold driftBound
  simp only [Nat.cast_ofNat]

private theorem norm_toAlgebra (q : Quaternion ℝ) : ‖q.toAlgebra‖ = √q.sq := by
  have square : q.sq = ‖q.toAlgebra‖ * ‖q.toAlgebra‖ := by
    rw [← Quaternion.normSq_eq_norm_mul_self, normSq_toAlgebra]
    unfold Quaternion.sq quaternionSquares
    ring
  rw [square, Real.sqrt_mul_self (norm_nonneg _)]

private theorem norm_pure (v : Vector3 ℝ) : ‖v.pure‖ = √v.sq := by
  have square : v.sq = ‖v.pure‖ * ‖v.pure‖ := by
    rw [← Quaternion.normSq_eq_norm_mul_self, Quaternion.normSq_def']
    unfold Vector3.sq Vector3.pure
    ring
  rw [square, Real.sqrt_mul_self (norm_nonneg _)]

private theorem scale_toAlgebra (k : ℝ) (q : Quaternion ℝ) :
    (q.scale k).toAlgebra = k • q.toAlgebra := by
  ext <;> rfl

private theorem turned_toAlgebra (q : Quaternion ℝ) (dt : ℝ)
    (gyro : Vector3 ℝ) :
    (turned q dt gyro).toAlgebra =
      q.toAlgebra * (1 + (dt / 2) • gyro.pure) := by
  have tangent : (⟨1, dt / 2 * gyro.x, dt / 2 * gyro.y, dt / 2 * gyro.z⟩ :
      Quaternion ℝ).toAlgebra = 1 + (dt / 2) • gyro.pure := by
    ext <;> simp [Quaternion.toAlgebra]
  rw [← tangent, ← toAlgebra_mult]
  congr 1
  unfold turned quaternionMult
  apply Quaternion.ext_iff'.mpr
  refine ⟨?_, ?_, ?_, ?_⟩ <;> ring

/-- The correction is a step of length dt times the gain. -/
theorem advanced_toAlgebra (gyro accel : Vector3 ℝ) (angle : AngleState ℝ)
    (sloped : @slope ℝ realMath angle.q accel ≠ Quaternion.zero) :
    ∃ push : ℍ[ℝ], ‖push‖ = |angle.dt * angle.errorGain| ∧
      (@advanced ℝ realMath gyro accel angle).toAlgebra =
        angle.q.toAlgebra * (1 + (angle.dt / 2) • gyro.pure) - push := by
  have unit := quaternionNorm_sq sloped
  rw [quaternionNorm_real] at unit
  refine ⟨(angle.dt * angle.errorGain) •
    (Quaternion.scale (√(@slope ℝ realMath angle.q accel).sq)⁻¹
      (@slope ℝ realMath angle.q accel)).toAlgebra, ?_, ?_⟩
  · rw [norm_smul, norm_toAlgebra, unit, Real.sqrt_one, mul_one,
      Real.norm_eq_abs]
  · rw [← turned_toAlgebra, advanced_real]
    ext <;> rfl

private theorem update_near {angle : AngleState ℝ} {reading : AngleReading}
    (unit : angle.q.sq = 1) (clear : NormalisesNoZero angle reading.call) :
    dist (performReal angle reading.call).q.toAlgebra
        (turnedExactly angle.dt angle.q.toAlgebra reading) ≤
      driftBound angle reading := by
  have sloped : @slope ℝ realMath angle.q reading.accel ≠ Quaternion.zero :=
    clear _ List.mem_cons_self
  obtain ⟨push, push_norm, moved⟩ :=
    advanced_toAlgebra reading.gyro reading.accel angle sloped
  have updated : (performReal angle reading.call).q.toAlgebra =
      ‖(@advanced ℝ realMath reading.gyro reading.accel angle).toAlgebra‖⁻¹ •
        (@advanced ℝ realMath reading.gyro reading.accel angle).toAlgebra := by
    rw [norm_toAlgebra, ← scale_toAlgebra, ← quaternionNorm_real]
    rfl
  have unit_norm : ‖angle.q.toAlgebra‖ = 1 := by
    rw [norm_toAlgebra, unit, Real.sqrt_one]
  have imaginary : ((angle.dt / 2) • reading.gyro.pure).re = 0 := by simp
  have near := dist_step_exp_le push unit_norm imaginary
  have size : ‖(angle.dt / 2) • reading.gyro.pure‖ ^ 3 / 3 =
      (|angle.dt| * √reading.gyro.sq) ^ 3 / 24 := by
    rw [norm_smul, norm_pure, Real.norm_eq_abs, abs_div, abs_two]
    ring
  rw [size, push_norm] at near
  rw [updated, moved]
  exact near

/-- While no update normalises a zero vector, the attitude of the filter stays
near the one that turns as the gyro reads: the distance is at most the sum of the
bounds of the updates. -/
theorem attitude_tracks_gyro {angle : AngleState ℝ}
    (unit : angle.q.sq = 1) (readings : List AngleReading)
    (clear : EveryStep performReal NormalisesNoZero angle
      (readings.map AngleReading.call)) :
    dist
        (runSteps performReal angle
          (readings.map AngleReading.call)).q.toAlgebra
        (runSteps (turnedExactly angle.dt) angle.q.toAlgebra readings) ≤
      (readings.map (driftBound angle)).sum := by
  have drifted := (EveryStep.map.mp clear).drifts
    (fun state => state.q.sq = 1 ∧ state.dt = angle.dt ∧
      state.errorGain = angle.errorGain)
    (fun state => state.q.toAlgebra) (turnedExactly angle.dt)
    (driftBound angle)
    (by
      rintro state reading ⟨state_unit, dt_eq, gain_eq⟩ state_clear
      refine ⟨⟨perform_unit state_clear, dt_eq, gain_eq⟩, ?_⟩
      have near := update_near state_unit state_clear
      rw [driftBound_def] at near ⊢
      rw [dt_eq, gain_eq] at near
      exact near)
    (by
      intro point other reading
      have imaginary : ((angle.dt / 2) • reading.gyro.pure).re = 0 := by simp
      rw [turnedExactly_def, turnedExactly_def, dist_eq_norm, ← sub_mul,
        norm_mul, norm_exp_of_imaginary imaginary, mul_one, dist_eq_norm])
    ⟨unit, rfl, rfl⟩ angle.q.toAlgebra
  rw [dist_self, zero_add] at drifted
  unfold runSteps at drifted ⊢
  rw [List.foldl_map]
  exact drifted

/-- One turn from level, without gains. -/
theorem attitude_tracks_gyro_turning :
    dist
        (runSteps performReal (@AngleState.init ℝ realMath 1 0 0)
          [.angleUpdate ⟨1, 2, 3⟩ ⟨1, 0, 0⟩]).q.toAlgebra
        (runSteps (turnedExactly 1)
          (@AngleState.init ℝ realMath 1 0 0).q.toAlgebra
          [⟨⟨1, 2, 3⟩, ⟨1, 0, 0⟩⟩]) ≤
      ([⟨⟨1, 2, 3⟩, ⟨1, 0, 0⟩⟩].map
        (driftBound (@AngleState.init ℝ realMath 1 0 0))).sum :=
  attitude_tracks_gyro (init_unit 1 0 0) [⟨⟨1, 2, 3⟩, ⟨1, 0, 0⟩⟩]
    ⟨turning_clear, trivial⟩

end Quadcopter

end

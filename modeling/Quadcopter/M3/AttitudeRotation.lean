import Quadcopter.Library.StepRuns
import Quadcopter.M3.AttitudeNorms

/-
The attitude over runs of angle_init, update_gains and angle_update
(panda/m3/angle.c), over exact real arithmetic: it is a unit quaternion after
every call, as long as no vector that is normalised is zero.
-/

namespace Quadcopter

inductive AngleCall (R : Type) where
  | angleInit (newDt newGyroBiasGain newErrorGain : R)
  | updateGains (errorGain gyroBiasGain : R)
  | angleUpdate (gyro accel : Vector3 R)

namespace AngleCall

variable {R : Type} [CMath R]

/-- update_gains hands the present dt to angle_init. -/
def perform (angle : AngleState R) : AngleCall R → AngleState R
  | .angleInit newDt newGyroBiasGain newErrorGain =>
      AngleState.init newDt newGyroBiasGain newErrorGain
  | .updateGains errorGain gyroBiasGain =>
      AngleState.init angle.dt gyroBiasGain errorGain
  | .angleUpdate gyro accel => Quadcopter.angleUpdate gyro accel angle

def normalised (angle : AngleState R) : AngleCall R → List (Quaternion R)
  | .angleUpdate gyro accel =>
      [slope angle.q accel, advanced gyro accel angle]
  | _ => []

end AngleCall

def asinArgument {R : Type} [CMath R] (q : Quaternion R) : R :=
  let two : R := (2 : Int)
  two * (q.q1 * q.q3 - q.q4 * q.q2)

theorem angleGet_y {R : Type} [CMath R] (angle : AngleState R) :
    (angleGet angle).y = CMath.asin (asinArgument angle.q) := rfl

def staticAngle : AngleState ℝ :=
  { q := Quaternion.zero
    gyroBiasGain := 0
    errorGain := 0
    dt := 0 }

noncomputable def performReal : AngleState ℝ → AngleCall ℝ → AngleState ℝ :=
  @AngleCall.perform ℝ realMath

def NormalisesNoZero (angle : AngleState ℝ) (call : AngleCall ℝ) : Prop :=
  ∀ vector ∈ @AngleCall.normalised ℝ realMath angle call,
    vector ≠ Quaternion.zero

theorem perform_unit {angle : AngleState ℝ} {call : AngleCall ℝ}
    (clear : NormalisesNoZero angle call) :
    (performReal angle call).q.sq = 1 := by
  cases call with
  | angleInit newDt newGyroBiasGain newErrorGain =>
      exact init_unit newDt newGyroBiasGain newErrorGain
  | updateGains errorGain gyroBiasGain =>
      exact init_unit angle.dt gyroBiasGain errorGain
  | angleUpdate gyro accel =>
      have last : @advanced ℝ realMath gyro accel angle ≠ Quaternion.zero :=
        clear _ (List.mem_cons_of_mem _ List.mem_cons_self)
      exact quaternionNorm_sq last

theorem asinArgument_real (q : Quaternion ℝ) :
    @asinArgument ℝ realMath q = 2 * (q.q1 * q.q3 - q.q4 * q.q2) := by
  have two : ((2 : Int) : ℝ) = 2 := by norm_num
  rw [← two]
  rfl

private theorem asinArgument_range {q : Quaternion ℝ} (unit : q.sq = 1) :
    -1 ≤ @asinArgument ℝ realMath q ∧ @asinArgument ℝ realMath q ≤ 1 := by
  unfold Quaternion.sq at unit
  rw [asinArgument_real]
  have sum := add_nonneg (sq_nonneg (q.q1 + q.q3)) (sq_nonneg (q.q2 - q.q4))
  have difference :=
    add_nonneg (sq_nonneg (q.q1 - q.q3)) (sq_nonneg (q.q2 + q.q4))
  constructor
  · linarith only [unit, sum, show (q.q1 + q.q3) ^ 2 + (q.q2 - q.q4) ^ 2 =
      q.q1 ^ 2 + q.q2 ^ 2 + q.q3 ^ 2 + q.q4 ^ 2 +
        2 * (q.q1 * q.q3 - q.q4 * q.q2) by ring]
  · linarith only [unit, difference,
      show (q.q1 - q.q3) ^ 2 + (q.q2 + q.q4) ^ 2 =
        q.q1 ^ 2 + q.q2 ^ 2 + q.q3 ^ 2 + q.q4 ^ 2 -
          2 * (q.q1 * q.q3 - q.q4 * q.q2) by ring]

private theorem asinArgument_static :
    @asinArgument ℝ realMath staticAngle.q = 0 := by
  rw [asinArgument_real]
  unfold staticAngle Quaternion.zero
  norm_num

/-- Without a correction the attitude is turned by the gyro, which does not
shorten it. -/
theorem advanced_long {angle : AngleState ℝ} (gyro accel : Vector3 ℝ)
    (unit : angle.q.sq = 1) (no_gain : angle.errorGain = 0) :
    1 ≤ √(@advanced ℝ realMath gyro accel angle).sq := by
  have turned_only : @advanced ℝ realMath gyro accel angle =
      turned angle.q angle.dt gyro := by
    rw [advanced_real, no_gain]
    apply Quaternion.ext_iff'.mpr
    simp only [mul_zero, zero_mul, sub_zero, and_self]
  rw [turned_only]
  exact Real.one_le_sqrt.mpr (turned_sq_ge angle.dt gyro unit)

theorem level_sloped (dt gyroGain errorGain : ℝ) :
    @slope ℝ realMath (@AngleState.init ℝ realMath dt gyroGain errorGain).q
      ⟨1, 0, 0⟩ ≠ Quaternion.zero := by
  rw [slope_unit _ (init_unit dt gyroGain errorGain)]
  intro none
  have third := (Quaternion.ext_iff'.mp none).2.2.1
  unfold ascent Quaternion.zero AngleState.init at third
  norm_num at third

/-- Level and without gains, a turn with gravity read along x is clear. -/
theorem turning_clear : NormalisesNoZero (@AngleState.init ℝ realMath 1 0 0)
    (.angleUpdate ⟨1, 2, 3⟩ ⟨1, 0, 0⟩) := by
  have moved : @advanced ℝ realMath ⟨1, 2, 3⟩ ⟨1, 0, 0⟩
      (@AngleState.init ℝ realMath 1 0 0) ≠ Quaternion.zero := by
    intro none
    have long := advanced_long ⟨1, 2, 3⟩ ⟨1, 0, 0⟩ (init_unit 1 0 0) rfl
    rw [none, Quaternion.sq_eq_zero.mpr rfl, Real.sqrt_zero] at long
    norm_num at long
  intro vector member
  rcases List.mem_cons.mp member with first | rest
  · rw [first]
    exact level_sloped 1 0 0
  · rw [List.mem_singleton.mp rest]
    exact moved

theorem attitude_stays_rotation (calls : List (AngleCall ℝ))
    (clear : EveryStep performReal NormalisesNoZero staticAngle calls) :
    (∀ before later, calls = before ++ later →
      (before ≠ [] → (runSteps performReal staticAngle before).q.sq = 1) ∧
      -1 ≤ @asinArgument ℝ realMath
        (runSteps performReal staticAngle before).q ∧
      @asinArgument ℝ realMath
        (runSteps performReal staticAngle before).q ≤ 1) ∧
    ∀ (angle : AngleState ℝ) (gyro accel : Vector3 ℝ), angle.q.sq = 1 →
      angle.errorGain = 0 →
      @slope ℝ realMath angle.q accel ≠ Quaternion.zero →
      1 ≤ √(@advanced ℝ realMath gyro accel angle).sq := by
  constructor
  · intro before later split
    rw [split] at clear
    have clear_before := (EveryStep.append.mp clear).1
    rcases List.eq_nil_or_concat before with none | ⟨first, last, some⟩
    · subst none
      refine ⟨fun impossible => absurd rfl impossible, ?_⟩
      change -1 ≤ @asinArgument ℝ realMath staticAngle.q ∧
        @asinArgument ℝ realMath staticAngle.q ≤ 1
      rw [asinArgument_static]
      norm_num
    · rw [List.concat_eq_append] at some
      rw [some] at clear_before ⊢
      have clear_last := (EveryStep.append.mp clear_before).2.1
      have unit : (runSteps performReal staticAngle (first ++ [last])).q.sq =
          1 := by
        rw [runSteps_append]
        exact perform_unit clear_last
      exact ⟨fun _ => unit, asinArgument_range unit⟩
  · intro angle gyro accel unit no_gain _
    exact advanced_long gyro accel unit no_gain

/-- Level, without gains, and with gravity read along x. -/
theorem attitude_rotation_of_two :
    (runSteps performReal staticAngle
      [.angleInit 1 0 0, .angleUpdate ⟨1, 2, 3⟩ ⟨1, 0, 0⟩]).q.sq = 1 ∧
      1 ≤ √(@advanced ℝ realMath ⟨1, 2, 3⟩ ⟨1, 0, 0⟩
        (@AngleState.init ℝ realMath 1 0 0)).sq := by
  have clear : EveryStep performReal NormalisesNoZero staticAngle
      [.angleInit 1 0 0, .angleUpdate ⟨1, 2, 3⟩ ⟨1, 0, 0⟩] :=
    ⟨fun _ none => absurd none List.not_mem_nil, turning_clear, trivial⟩
  obtain ⟨states, updates⟩ := attitude_stays_rotation _ clear
  constructor
  · exact (states _ [] (List.append_nil _).symm).1 (List.cons_ne_nil _ _)
  · exact updates _ _ _ (init_unit 1 0 0) rfl (level_sloped 1 0 0)

end Quadcopter

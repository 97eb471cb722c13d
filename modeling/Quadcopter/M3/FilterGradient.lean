import Quadcopter.M3.AttitudeNorms

/-
The correction of the attitude filter (panda/m3/angle.c, and the same lines of
maple/angle.c) over any commutative ring: Jgfg is half the gradient of the squared
objective, and a unit attitude expects gravity along a unit vector.

`ringObjective` and `ringGradient` are the code's functions for every reading of
its two constants as two and a half.
-/

namespace Quadcopter

open Polynomial

variable {R : Type} [CommRing R]

/-- C's arithmetic read as the one of a ring: the constants of the source are
`literal`, and what is not of the ring is arbitrary. -/
@[reducible] def ringMath (literal : Nat → Bool → Nat → R) (div : R → R → R)
    (sqrt asin : R → R) (atan2 : R → R → R) : CMath R where
  toAdd := inferInstance
  toSub := inferInstance
  toMul := inferInstance
  toDiv := ⟨div⟩
  toNeg := inferInstance
  toIntCast := inferInstance
  toOfScientific := ⟨literal⟩
  sqrt := sqrt
  asin := asin
  atan2 := atan2

/-- 2.0f is two, and 0.5f a half. -/
structure ReadsConstants (literal : Nat → Bool → Nat → R) : Prop where
  two : literal 20 true 1 = 2
  half : 2 * literal 5 true 1 = 1

section

variable {literal : Nat → Bool → Nat → R} (div : R → R → R) (sqrt asin : R → R)
  (atan2 : R → R → R)

private theorem objective_eq (reads : ReadsConstants literal) (q : Quaternion R)
    (accel : Vector3 R) :
    @objective R (ringMath literal div sqrt asin atan2) q accel =
      ringObjective q accel := by
  have half : 2 * (literal 5 true 1 - q.q2 * q.q2 - q.q3 * q.q3) =
      1 - 2 * (q.q2 * q.q2 + q.q3 * q.q3) := by
    rw [← reads.half]
    ring
  unfold ringObjective
  rw [← half, ← reads.two]
  rfl

private theorem gradient_eq (reads : ReadsConstants literal) (q : Quaternion R)
    (fg : Vector3 R) :
    @gradient R (ringMath literal div sqrt asin atan2) q fg =
      ringGradient q fg := by
  unfold ringGradient
  rw [← reads.two]
  rfl

end

private theorem real_readsConstants : ReadsConstants realMath.ofScientific := by
  constructor
  · change (2.0 : ℝ) = 2
    norm_num
  · change 2 * (0.5 : ℝ) = 1
    norm_num

/-- Over the real numbers the filter descends along the ring's gradient. -/
theorem slope_eq_ringGradient (q : Quaternion ℝ) (accel : Vector3 ℝ) :
    @slope ℝ realMath q accel = ringGradient q (ringObjective q accel) := by
  have fg := objective_eq realMath.div realMath.sqrt realMath.asin
    realMath.atan2 real_readsConstants q accel
  have jgfg := gradient_eq realMath.div realMath.sqrt realMath.asin
    realMath.atan2 real_readsConstants q (ringObjective q accel)
  rw [← jgfg, ← fg]
  rfl

def Vector3.square (v : Vector3 R) : R := v.x ^ 2 + v.y ^ 2 + v.z ^ 2

def Quaternion.square (q : Quaternion R) : R :=
  q.q1 ^ 2 + q.q2 ^ 2 + q.q3 ^ 2 + q.q4 ^ 2

def Quaternion.inner (p q : Quaternion R) : R :=
  p.q1 * q.q1 + p.q2 * q.q2 + p.q3 * q.q3 + p.q4 * q.q4

/-- q + t * d, with t the indeterminate. -/
noncomputable def line (q d : Quaternion R) : Quaternion R[X] :=
  { q1 := C q.q1 + X * C d.q1
    q2 := C q.q2 + X * C d.q2
    q3 := C q.q3 + X * C d.q3
    q4 := C q.q4 + X * C d.q4 }

noncomputable def constant (v : Vector3 R) : Vector3 R[X] :=
  { x := C v.x
    y := C v.y
    z := C v.z }

private theorem coeff_one_eq (p : R[X]) :
    p.coeff 1 = (derivative p).eval 0 := by
  rw [← coeff_zero_eq_eval_zero, coeff_derivative]
  simp

private theorem square_line_coeff_one (q d : Quaternion R) (accel : Vector3 R) :
    (ringObjective (line q d) (constant accel)).square.coeff 1 =
      2 * Quaternion.inner d (ringGradient q (ringObjective q accel)) := by
  rw [coeff_one_eq]
  unfold Vector3.square ringObjective line constant Quaternion.inner ringGradient
  simp [derivative_pow]
  ring

def predicted (q : Quaternion R) : Vector3 R :=
  ringObjective q ⟨0, 0, 0⟩

private theorem predicted_square {q : Quaternion R} (unit : q.square = 1) :
    (predicted q).square = 1 := by
  unfold Quaternion.square at unit
  unfold predicted ringObjective Vector3.square
  dsimp only
  linear_combination
    (4 * q.q2 ^ 2 + 4 * q.q3 ^ 2) * unit

private theorem objective_predicted (q : Quaternion R) :
    ringObjective q (predicted q) = ⟨0, 0, 0⟩ := by
  unfold predicted ringObjective
  simp

theorem correction_is_gradient (q d : Quaternion R) (accel : Vector3 R) :
    (ringObjective (line q d) (constant accel)).square.coeff 1 =
        2 * Quaternion.inner d (ringGradient q (ringObjective q accel)) ∧
      (q.square = 1 →
        (predicted q).square = 1 ∧
          ringObjective q (predicted q) = ⟨0, 0, 0⟩) ∧
      ∀ (literal : Nat → Bool → Nat → R) (div : R → R → R) (sqrt asin : R → R)
        (atan2 : R → R → R), ReadsConstants literal →
        (∀ accel, @objective R (ringMath literal div sqrt asin atan2) q accel =
          ringObjective q accel) ∧
        ∀ fg, @gradient R (ringMath literal div sqrt asin atan2) q fg =
          ringGradient q fg := by
  refine ⟨square_line_coeff_one q d accel, ?_, ?_⟩
  · intro unit
    exact ⟨predicted_square unit, objective_predicted q⟩
  · intro literal div sqrt asin atan2 reads
    exact ⟨objective_eq div sqrt asin atan2 reads q,
      gradient_eq div sqrt asin atan2 reads q⟩

/-- The level attitude over the real numbers, without acceleration. -/
theorem correction_is_gradient_of_level :
    (predicted (⟨1, 0, 0, 0⟩ : Quaternion ℝ)).square = 1 ∧
      @objective ℝ (ringMath realMath.ofScientific realMath.div realMath.sqrt
        realMath.asin realMath.atan2) ⟨1, 0, 0, 0⟩ ⟨0, 0, 0⟩ =
          ringObjective ⟨1, 0, 0, 0⟩ ⟨0, 0, 0⟩ := by
  have unit : (⟨1, 0, 0, 0⟩ : Quaternion ℝ).square = 1 := by
    unfold Quaternion.square
    norm_num
  obtain ⟨_, level, code⟩ :=
    correction_is_gradient (⟨1, 0, 0, 0⟩ : Quaternion ℝ) ⟨0, 0, 0, 0⟩ ⟨0, 0, 0⟩
  constructor
  · exact (level unit).1
  · exact (code _ _ _ _ _ real_readsConstants).1 _

end Quadcopter

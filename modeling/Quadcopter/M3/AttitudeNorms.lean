import Mathlib.Data.List.Induction
import Quadcopter.M3.FilterTick

/-
The vectors that the attitude filter normalises, over exact real arithmetic.

At an attitude q gravity is expected along `gravity q`.  The gradient of the
objective vanishes where the accelerometer reads just that, and, if q is a pure
turn about the vertical, where it reads the opposite.
-/

namespace Quadcopter

/-- C's arithmetic and math.h on real numbers. -/
@[reducible] noncomputable def realMath : CMath ℝ where
  toAdd := inferInstance
  toSub := inferInstance
  toMul := inferInstance
  toDiv := inferInstance
  toNeg := inferInstance
  toIntCast := inferInstance
  toOfScientific := inferInstance
  sqrt := Real.sqrt
  asin := Real.arcsin
  atan2 := fun y x => Complex.arg ⟨x, y⟩

def Vector3.sq (v : Vector3 ℝ) : ℝ := v.x ^ 2 + v.y ^ 2 + v.z ^ 2

def Vector3.scale (k : ℝ) (v : Vector3 ℝ) : Vector3 ℝ :=
  ⟨k * v.x, k * v.y, k * v.z⟩

def Quaternion.sq (q : Quaternion ℝ) : ℝ :=
  q.q1 ^ 2 + q.q2 ^ 2 + q.q3 ^ 2 + q.q4 ^ 2

def Quaternion.scale (k : ℝ) (q : Quaternion ℝ) : Quaternion ℝ :=
  ⟨k * q.q1, k * q.q2, k * q.q3, k * q.q4⟩

def Vector3.zero : Vector3 ℝ := ⟨0, 0, 0⟩

def Quaternion.zero : Quaternion ℝ := ⟨0, 0, 0, 0⟩

/-- The direction in which an attitude expects gravity. -/
noncomputable def gravity (q : Quaternion ℝ) : Vector3 ℝ :=
  { x := 2 * (q.q2 * q.q4 - q.q1 * q.q3)
    y := 2 * (q.q1 * q.q2 + q.q3 * q.q4)
    z := 2 * (1 / 2 - q.q2 * q.q2 - q.q3 * q.q3) }

theorem Vector3.ext_iff' {v w : Vector3 ℝ} :
    v = w ↔ v.x = w.x ∧ v.y = w.y ∧ v.z = w.z := by
  cases v
  cases w
  simp

theorem Quaternion.ext_iff' {p q : Quaternion ℝ} :
    p = q ↔ p.q1 = q.q1 ∧ p.q2 = q.q2 ∧ p.q3 = q.q3 ∧ p.q4 = q.q4 := by
  cases p
  cases q
  simp

theorem Vector3.sq_eq_zero {v : Vector3 ℝ} : v.sq = 0 ↔ v = Vector3.zero := by
  rw [Vector3.ext_iff']
  unfold Vector3.sq Vector3.zero
  constructor
  · intro none
    have x_eq : v.x ^ 2 = 0 := by nlinarith [sq_nonneg v.x, sq_nonneg v.y, sq_nonneg v.z]
    have y_eq : v.y ^ 2 = 0 := by nlinarith [sq_nonneg v.x, sq_nonneg v.y, sq_nonneg v.z]
    have z_eq : v.z ^ 2 = 0 := by nlinarith [sq_nonneg v.x, sq_nonneg v.y, sq_nonneg v.z]
    exact ⟨pow_eq_zero_iff two_ne_zero |>.mp x_eq,
      pow_eq_zero_iff two_ne_zero |>.mp y_eq,
      pow_eq_zero_iff two_ne_zero |>.mp z_eq⟩
  · intro ⟨x_eq, y_eq, z_eq⟩
    rw [x_eq, y_eq, z_eq]
    norm_num

theorem Quaternion.sq_eq_zero {q : Quaternion ℝ} :
    q.sq = 0 ↔ q = Quaternion.zero := by
  rw [Quaternion.ext_iff']
  unfold Quaternion.sq Quaternion.zero
  constructor
  · intro none
    refine ⟨?_, ?_, ?_, ?_⟩ <;>
      nlinarith [sq_nonneg q.q1, sq_nonneg q.q2, sq_nonneg q.q3, sq_nonneg q.q4]
  · intro ⟨first, second, third, fourth⟩
    rw [first, second, third, fourth]
    norm_num

section

variable {R : Type} [CommRing R]

def ringObjective (q : Quaternion R) (accel : Vector3 R) : Vector3 R :=
  { x := 2 * (q.q2 * q.q4 - q.q1 * q.q3) - accel.x
    y := 2 * (q.q1 * q.q2 + q.q3 * q.q4) - accel.y
    z := 1 - 2 * (q.q2 * q.q2 + q.q3 * q.q3) - accel.z }

def ringGradient (q : Quaternion R) (fg : Vector3 R) : Quaternion R :=
  { q1 := 2 * (-fg.x * q.q3 + fg.y * q.q2)
    q2 := 2 * (fg.x * q.q4 + fg.y * q.q1 - 2 * fg.z * q.q2)
    q3 := 2 * (-fg.x * q.q1 + fg.y * q.q4 - 2 * fg.z * q.q3)
    q4 := 2 * (fg.x * q.q2 + fg.y * q.q3) }

end

/-! ### The operations on real numbers -/

private theorem slope_real (q : Quaternion ℝ) (accel : Vector3 ℝ) :
    @slope ℝ realMath q accel =
      { q1 := 2 * (-((gravity q).x - accel.x) * q.q3 +
          ((gravity q).y - accel.y) * q.q2)
        q2 := 2 * (((gravity q).x - accel.x) * q.q4 +
          ((gravity q).y - accel.y) * q.q1 -
            2 * ((gravity q).z - accel.z) * q.q2)
        q3 := 2 * (-((gravity q).x - accel.x) * q.q1 +
          ((gravity q).y - accel.y) * q.q4 -
            2 * ((gravity q).z - accel.z) * q.q3)
        q4 := 2 * (((gravity q).x - accel.x) * q.q2 +
          ((gravity q).y - accel.y) * q.q3) } := by
  have two : (2.0 : ℝ) = 2 := by norm_num
  have half : (0.5 : ℝ) = 1 / 2 := by norm_num
  unfold slope gradient objective gravity
  rw [← half, ← two]

theorem quaternionNorm_real (q : Quaternion ℝ) :
    @quaternionNorm ℝ realMath q = Quaternion.scale (√q.sq)⁻¹ q := by
  have sum : q.sq = q.q1 * q.q1 + q.q2 * q.q2 + q.q3 * q.q3 + q.q4 * q.q4 := by
    unfold Quaternion.sq
    ring
  unfold Quaternion.scale
  rw [sum]
  unfold quaternionNorm
  simp only [inv_mul_eq_div]
  rfl

private theorem vector3Norm_real (v : Vector3 ℝ) :
    @vector3Norm ℝ realMath v = Vector3.scale (√v.sq)⁻¹ v := by
  have sum : v.sq = v.x * v.x + v.y * v.y + v.z * v.z := by
    unfold Vector3.sq
    ring
  unfold Vector3.scale
  rw [sum]
  unfold vector3Norm vector3Div vector3Mag
  simp only [inv_mul_eq_div]
  rfl

/-- q turned on by the gyro alone. -/
noncomputable def turned (q : Quaternion ℝ) (dt : ℝ) (gyro : Vector3 ℝ) :
    Quaternion ℝ :=
  { q1 := q.q1 - dt / 2 * (q.q2 * gyro.x + q.q3 * gyro.y + q.q4 * gyro.z)
    q2 := q.q2 + dt / 2 * (q.q1 * gyro.x + q.q3 * gyro.z - q.q4 * gyro.y)
    q3 := q.q3 + dt / 2 * (q.q1 * gyro.y - q.q2 * gyro.z + q.q4 * gyro.x)
    q4 := q.q4 + dt / 2 * (q.q1 * gyro.z + q.q2 * gyro.y - q.q3 * gyro.x) }

private theorem turned_sq (q : Quaternion ℝ) (dt : ℝ) (gyro : Vector3 ℝ) :
    (turned q dt gyro).sq = q.sq * (1 + (dt / 2) ^ 2 * gyro.sq) := by
  unfold turned Quaternion.sq Vector3.sq
  ring

/-- The step of the filter: the turn by the gyro, less the normalised slope. -/
theorem advanced_real (gyro accel : Vector3 ℝ) (angle : AngleState ℝ) :
    @advanced ℝ realMath gyro accel angle =
      let down := Quaternion.scale (√(@slope ℝ realMath angle.q accel).sq)⁻¹
        (@slope ℝ realMath angle.q accel)
      let moved := turned angle.q angle.dt gyro
      { q1 := moved.q1 - angle.dt * angle.errorGain * down.q1
        q2 := moved.q2 - angle.dt * angle.errorGain * down.q2
        q3 := moved.q3 - angle.dt * angle.errorGain * down.q3
        q4 := moved.q4 - angle.dt * angle.errorGain * down.q4 } := by
  rw [← quaternionNorm_real]
  have half : (0.5 : ℝ) = 1 / 2 := by norm_num
  generalize down_eq : @quaternionNorm ℝ realMath
    (@slope ℝ realMath angle.q accel) = down
  have unfolded : @advanced ℝ realMath gyro accel angle =
      { q1 := angle.q.q1 + ((angle.q.q1 * ((0 : Int) : ℝ) -
          angle.q.q2 * gyro.x - angle.q.q3 * gyro.y -
            angle.q.q4 * gyro.z) * 0.5 - down.q1 * angle.errorGain) * angle.dt
        q2 := angle.q.q2 + ((angle.q.q1 * gyro.x +
          angle.q.q2 * ((0 : Int) : ℝ) + angle.q.q3 * gyro.z -
            angle.q.q4 * gyro.y) * 0.5 - down.q2 * angle.errorGain) * angle.dt
        q3 := angle.q.q3 + ((angle.q.q1 * gyro.y - angle.q.q2 * gyro.z +
          angle.q.q3 * ((0 : Int) : ℝ) +
            angle.q.q4 * gyro.x) * 0.5 - down.q3 * angle.errorGain) * angle.dt
        q4 := angle.q.q4 + ((angle.q.q1 * gyro.z + angle.q.q2 * gyro.y -
          angle.q.q3 * gyro.x +
            angle.q.q4 * ((0 : Int) : ℝ)) * 0.5 -
              down.q4 * angle.errorGain) * angle.dt } := by
    rw [← down_eq]
    rfl
  rw [unfolded, half, Int.cast_zero]
  unfold turned
  apply Quaternion.ext_iff'.mpr
  refine ⟨?_, ?_, ?_, ?_⟩ <;> ring

private theorem Vector3.scale_sq (k : ℝ) (v : Vector3 ℝ) :
    (v.scale k).sq = k ^ 2 * v.sq := by
  unfold Vector3.scale Vector3.sq
  ring

private theorem Quaternion.scale_sq (k : ℝ) (q : Quaternion ℝ) :
    (q.scale k).sq = k ^ 2 * q.sq := by
  unfold Quaternion.scale Quaternion.sq
  ring

private theorem Quaternion.scale_scale (j k : ℝ) (q : Quaternion ℝ) :
    (q.scale j).scale k = q.scale (k * j) := by
  unfold Quaternion.scale
  apply Quaternion.ext_iff'.mpr
  refine ⟨?_, ?_, ?_, ?_⟩ <;> ring

theorem Vector3.sq_nonneg (v : Vector3 ℝ) : 0 ≤ v.sq := by
  unfold Vector3.sq
  positivity

theorem Quaternion.sq_nonneg (q : Quaternion ℝ) : 0 ≤ q.sq := by
  unfold Quaternion.sq
  positivity

theorem Vector3.sq_pos {v : Vector3 ℝ} (nonzero : v ≠ Vector3.zero) :
    0 < v.sq :=
  lt_of_le_of_ne v.sq_nonneg
    (fun none => nonzero (Vector3.sq_eq_zero.mp none.symm))

theorem Quaternion.sq_pos {q : Quaternion ℝ} (nonzero : q ≠ Quaternion.zero) :
    0 < q.sq :=
  lt_of_le_of_ne q.sq_nonneg
    (fun none => nonzero (Quaternion.sq_eq_zero.mp none.symm))

theorem quaternionNorm_sq {q : Quaternion ℝ} (nonzero : q ≠ Quaternion.zero) :
    (@quaternionNorm ℝ realMath q).sq = 1 := by
  rw [quaternionNorm_real, Quaternion.scale_sq, inv_pow,
    Real.sq_sqrt q.sq_nonneg]
  exact inv_mul_cancel₀ (Quaternion.sq_pos nonzero).ne'

theorem gravity_sq {q : Quaternion ℝ} (unit : q.sq = 1) :
    (gravity q).sq = 1 := by
  have vertical : (gravity q).z = q.q1 ^ 2 - q.q2 ^ 2 - q.q3 ^ 2 + q.q4 ^ 2 := by
    unfold gravity
    unfold Quaternion.sq at unit
    linear_combination -unit
  have whole : (gravity q).sq = q.sq ^ 2 := by
    unfold Vector3.sq
    rw [vertical]
    unfold gravity Quaternion.sq
    ring
  rw [whole, unit, one_pow]

/-- A vector points along a unit vector exactly when it is a positive multiple of
it. -/
theorem vector3Norm_eq_iff {v unit : Vector3 ℝ} (nonzero : v ≠ Vector3.zero)
    (unit_sq : unit.sq = 1) :
    @vector3Norm ℝ realMath v = unit ↔ ∃ k, 0 ≤ k ∧ v = unit.scale k := by
  have positive := Vector3.sq_pos nonzero
  rw [vector3Norm_real]
  constructor
  · intro same
    refine ⟨√v.sq, Real.sqrt_nonneg _, ?_⟩
    rw [← same]
    have cancel : ∀ value : ℝ, √v.sq * ((√v.sq)⁻¹ * value) = value := by
      intro value
      rw [← mul_assoc, mul_inv_cancel₀ (Real.sqrt_ne_zero'.mpr positive),
        one_mul]
    apply Vector3.ext_iff'.mpr
    exact ⟨(cancel v.x).symm, (cancel v.y).symm, (cancel v.z).symm⟩
  · intro ⟨k, k_nonneg, same⟩
    have k_sq : v.sq = k ^ 2 := by
      rw [same, Vector3.scale_sq, unit_sq, mul_one]
    have root : √v.sq = k := by rw [k_sq, Real.sqrt_sq k_nonneg]
    have k_ne : k ≠ 0 := by
      intro zero
      rw [k_sq, zero] at positive
      norm_num at positive
    have cancel : ∀ value : ℝ, k⁻¹ * (k * value) = value := by
      intro value
      rw [← mul_assoc, inv_mul_cancel₀ k_ne, one_mul]
    rw [root, same]
    apply Vector3.ext_iff'.mpr
    exact ⟨cancel unit.x, cancel unit.y, cancel unit.z⟩

/-! ### Where the gradient vanishes -/

/-- The ascent of the objective at an attitude, for a gravity along `down`. -/
def ascent (q : Quaternion ℝ) (down : Vector3 ℝ) : Quaternion ℝ :=
  let tilt := q.q2 ^ 2 + q.q3 ^ 2
  { q1 := 4 * tilt * q.q1 - 2 * (q.q2 * down.y - q.q3 * down.x)
    q2 := 4 * tilt * q.q2 -
      2 * (q.q4 * down.x + q.q1 * down.y - 2 * q.q2 * down.z)
    q3 := 4 * tilt * q.q3 -
      2 * (q.q4 * down.y - q.q1 * down.x - 2 * q.q3 * down.z)
    q4 := 4 * tilt * q.q4 - 2 * (q.q2 * down.x + q.q3 * down.y) }

theorem slope_unit {q : Quaternion ℝ} (accel : Vector3 ℝ) (unit : q.sq = 1) :
    @slope ℝ realMath q accel = ascent q accel := by
  unfold Quaternion.sq at unit
  rw [slope_real]
  unfold gravity ascent
  apply Quaternion.ext_iff'.mpr
  refine ⟨?_, ?_, ?_, ?_⟩
  · ring
  · linear_combination 4 * q.q2 * unit
  · linear_combination 4 * q.q3 * unit
  · ring

private theorem ascent_gravity {q : Quaternion ℝ} (unit : q.sq = 1) :
    ascent q (gravity q) = Quaternion.zero := by
  unfold Quaternion.sq at unit
  unfold ascent gravity Quaternion.zero
  apply Quaternion.ext_iff'.mpr
  refine ⟨?_, ?_, ?_, ?_⟩
  · ring
  · linear_combination -4 * q.q2 * unit
  · linear_combination -4 * q.q3 * unit
  · ring

/-- An attitude that is a turn about the vertical cannot tell up from down. -/
theorem ascent_upright {q : Quaternion ℝ} {down : Vector3 ℝ} (second : q.q2 = 0)
    (third : q.q3 = 0) (x_eq : down.x = 0) (y_eq : down.y = 0) :
    ascent q down = Quaternion.zero := by
  unfold ascent Quaternion.zero
  rw [second, third, x_eq, y_eq]
  apply Quaternion.ext_iff'.mpr
  refine ⟨?_, ?_, ?_, ?_⟩ <;> ring

/-- Away from the turns about the vertical the ascent determines gravity. -/
theorem gravity_of_ascent {q : Quaternion ℝ} {down : Vector3 ℝ}
    (unit : q.sq = 1) (tilted : q.q2 ^ 2 + q.q3 ^ 2 ≠ 0)
    (flat : ascent q down = Quaternion.zero) : down = gravity q := by
  unfold Quaternion.sq at unit
  unfold ascent Quaternion.zero at flat
  obtain ⟨first, second, third, fourth⟩ := Quaternion.ext_iff'.mp flat
  dsimp only at first second third fourth
  have x_eq : down.x = 2 * (q.q2 * q.q4 - q.q1 * q.q3) := by
    apply mul_left_cancel₀ tilted
    linear_combination q.q3 / 2 * first - q.q2 / 2 * fourth
  have y_eq : down.y = 2 * (q.q1 * q.q2 + q.q3 * q.q4) := by
    apply mul_left_cancel₀ tilted
    linear_combination -q.q2 / 2 * first - q.q3 / 2 * fourth
  have z_eq : down.z = 2 * (1 / 2 - q.q2 * q.q2 - q.q3 * q.q3) := by
    apply mul_left_cancel₀ tilted
    rw [x_eq, y_eq] at second third
    linear_combination q.q2 / 4 * second + q.q3 / 4 * third +
      (q.q2 ^ 2 + q.q3 ^ 2) * unit
  exact Vector3.ext_iff'.mpr ⟨x_eq, y_eq, z_eq⟩

private theorem level_of_ascent {q : Quaternion ℝ} {down : Vector3 ℝ}
    (unit : q.sq = 1) (second : q.q2 = 0) (third : q.q3 = 0)
    (flat : ascent q down = Quaternion.zero) : down.x = 0 ∧ down.y = 0 := by
  unfold Quaternion.sq at unit
  unfold ascent Quaternion.zero at flat
  obtain ⟨_, about_x, about_y, _⟩ := Quaternion.ext_iff'.mp flat
  dsimp only at about_x about_y
  rw [second, third] at unit about_x about_y
  constructor
  · linear_combination -q.q4 / 2 * about_x + q.q1 / 2 * about_y -
      down.x * unit
  · linear_combination -q.q1 / 2 * about_x - q.q4 / 2 * about_y -
      down.y * unit

private theorem ascent_eq_zero_iff {q : Quaternion ℝ} {down : Vector3 ℝ}
    (unit : q.sq = 1) :
    ascent q down = Quaternion.zero ↔
      down = gravity q ∨ (q.q2 = 0 ∧ q.q3 = 0) ∧ down.x = 0 ∧ down.y = 0 := by
  constructor
  · intro flat
    by_cases upright : q.q2 = 0 ∧ q.q3 = 0
    · exact .inr ⟨upright, level_of_ascent unit upright.1 upright.2 flat⟩
    · left
      apply gravity_of_ascent unit _ flat
      intro none
      have second : q.q2 = 0 := by nlinarith
      have third : q.q3 = 0 := by nlinarith
      exact upright ⟨second, third⟩
  · intro flat
    rcases flat with same | ⟨⟨second, third⟩, x_eq, y_eq⟩
    · rw [same]
      exact ascent_gravity unit
    · exact ascent_upright second third x_eq y_eq

/-! ### A tick -/

noncomputable def Vector3.direction (v : Vector3 ℝ) : Vector3 ℝ :=
  v.scale (√v.sq)⁻¹

/-- A step of length `step` against `uphill` undoes the whole of `moved`. -/
def Undone (moved uphill : Quaternion ℝ) (step : ℝ) : Prop :=
  step ^ 2 = moved.sq ∧ ∃ k, 0 < k ∧ moved = uphill.scale (k * step)

private theorem undone_iff {moved uphill : Quaternion ℝ} (step : ℝ)
    (moved_ne : moved ≠ Quaternion.zero) (uphill_ne : uphill ≠ Quaternion.zero) :
    moved = (uphill.scale (√uphill.sq)⁻¹).scale step ↔
      Undone moved uphill step := by
  have positive := Quaternion.sq_pos uphill_ne
  rw [Quaternion.scale_scale]
  constructor
  · intro same
    constructor
    · rw [same, Quaternion.scale_sq, mul_pow, inv_pow,
        Real.sq_sqrt uphill.sq_nonneg, mul_assoc, inv_mul_cancel₀ positive.ne',
        mul_one]
    · refine ⟨(√uphill.sq)⁻¹, inv_pos.mpr (Real.sqrt_pos.mpr positive), ?_⟩
      rw [mul_comm, ← same]
  · intro ⟨step_sq, k, k_pos, same⟩
    have step_ne : step ^ 2 ≠ 0 := by
      rw [step_sq]
      exact (Quaternion.sq_pos moved_ne).ne'
    have whole : k ^ 2 * uphill.sq = 1 := by
      apply mul_left_cancel₀ step_ne
      rw [mul_one]
      calc
        step ^ 2 * (k ^ 2 * uphill.sq) = (uphill.scale (k * step)).sq := by
          rw [Quaternion.scale_sq]
          ring
        _ = step ^ 2 := by rw [← same, step_sq]
    have root : √uphill.sq = k⁻¹ := by
      have square : uphill.sq = k⁻¹ ^ 2 := by
        rw [inv_pow]
        exact eq_inv_of_mul_eq_one_right whole
      rw [square, Real.sqrt_sq (inv_nonneg.mpr k_pos.le)]
    rw [root, inv_inv, mul_comm]
    exact same

structure NoZeroNorm (calls : NormCalls ℝ) : Prop where
  accel : calls.accel ≠ Vector3.zero
  mag : ∀ mag, calls.mag = some mag → mag ≠ Vector3.zero
  gradF : calls.gradF ≠ Quaternion.zero
  q : calls.q ≠ Quaternion.zero

/-- What keeps the tick of an attitude `angle` clear of division by zero, given
the readings less their offsets. -/
structure ReadingsClear (angle : AngleState ℝ) (gyro accel : Vector3 ℝ) :
    Prop where
  aside : ∀ k, 0 ≤ k → accel ≠ (gravity angle.q).scale k
  upright : angle.q.q2 = 0 → angle.q.q3 = 0 → accel.x = 0 → accel.y ≠ 0
  moving : ¬ Undone (turned angle.q angle.dt gyro)
    (ascent angle.q accel.direction) (angle.dt * angle.errorGain)

structure TickClear (state : FilterState ℝ) (input : FilterInput ℝ) : Prop where
  readings : ReadingsClear state.angle
    (@gyroReading ℝ realMath (@filterCalibrate ℝ realMath input state).2
      input.gyro)
    (@accelReading ℝ realMath (@filterCalibrate ℝ realMath input state).2
      input.accel)
  mag : input.updateMag = true →
    @magReading ℝ realMath input.mag ≠ Vector3.zero

/-- The gyro never shortens the attitude. -/
theorem turned_sq_ge {q : Quaternion ℝ} (dt : ℝ) (gyro : Vector3 ℝ)
    (unit : q.sq = 1) : 1 ≤ (turned q dt gyro).sq := by
  have gyro_nonneg := gyro.sq_nonneg
  have added : 0 ≤ (dt / 2) ^ 2 * gyro.sq := by positivity
  rw [turned_sq, unit, one_mul]
  linarith

private theorem turned_ne_zero {q : Quaternion ℝ} (dt : ℝ) (gyro : Vector3 ℝ)
    (unit : q.sq = 1) : turned q dt gyro ≠ Quaternion.zero := by
  intro none
  have long := turned_sq_ge dt gyro unit
  rw [Quaternion.sq_eq_zero.mpr none] at long
  linarith

private theorem advanced_eq_zero_iff {gyro accel : Vector3 ℝ}
    {angle : AngleState ℝ}
    (unit : angle.q.sq = 1) :
    @advanced ℝ realMath gyro accel angle = Quaternion.zero ↔
      turned angle.q angle.dt gyro =
        ((ascent angle.q accel).scale (√(ascent angle.q accel).sq)⁻¹).scale
          (angle.dt * angle.errorGain) := by
  rw [advanced_real, slope_unit accel unit]
  unfold Quaternion.zero
  rw [Quaternion.ext_iff', Quaternion.ext_iff']
  simp only [sub_eq_zero]
  rfl

private theorem ascent_direction_eq_zero_iff {q : Quaternion ℝ}
    {accel : Vector3 ℝ}
    (unit : q.sq = 1) (nonzero : accel ≠ Vector3.zero) :
    ascent q accel.direction = Quaternion.zero ↔
      (∃ k, 0 ≤ k ∧ accel = (gravity q).scale k) ∨
        (q.q2 = 0 ∧ q.q3 = 0) ∧ accel.x = 0 ∧ accel.y = 0 := by
  have root_ne : (√accel.sq)⁻¹ ≠ 0 :=
    inv_ne_zero (Real.sqrt_ne_zero'.mpr (Vector3.sq_pos nonzero))
  have x_iff : accel.direction.x = 0 ↔ accel.x = 0 :=
    mul_eq_zero_iff_left root_ne
  have y_iff : accel.direction.y = 0 ↔ accel.y = 0 :=
    mul_eq_zero_iff_left root_ne
  rw [ascent_eq_zero_iff unit, x_iff, y_iff,
    ← vector3Norm_eq_iff nonzero (gravity_sq unit), vector3Norm_real]
  rfl

private theorem readingsClear_iff {gyro accel : Vector3 ℝ}
    {angle : AngleState ℝ}
    (unit : angle.q.sq = 1) :
    (accel ≠ Vector3.zero ∧
      @slope ℝ realMath angle.q (@vector3Norm ℝ realMath accel) ≠
        Quaternion.zero ∧
      @advanced ℝ realMath gyro (@vector3Norm ℝ realMath accel) angle ≠
        Quaternion.zero) ↔
      ReadingsClear angle gyro accel := by
  have direction : @vector3Norm ℝ realMath accel = accel.direction :=
    vector3Norm_real accel
  have moved_ne := turned_ne_zero angle.dt gyro unit
  rw [direction, slope_unit accel.direction unit]
  constructor
  · intro ⟨nonzero, sloped, kept⟩
    have flat := ascent_direction_eq_zero_iff unit nonzero
    constructor
    · intro k k_nonneg same
      exact sloped (flat.mpr (.inl ⟨k, k_nonneg, same⟩))
    · intro second third x_eq y_eq
      exact sloped (flat.mpr (.inr ⟨⟨second, third⟩, x_eq, y_eq⟩))
    · intro undone
      apply kept
      rw [advanced_eq_zero_iff unit]
      exact (undone_iff _ moved_ne sloped).mpr undone
  · intro clear
    have nonzero : accel ≠ Vector3.zero := by
      intro none
      apply clear.aside 0 le_rfl
      rw [none]
      unfold Vector3.scale Vector3.zero
      simp only [zero_mul]
    have sloped : ascent angle.q accel.direction ≠ Quaternion.zero := by
      intro flat
      rcases (ascent_direction_eq_zero_iff unit nonzero).mp flat with
        ⟨k, k_nonneg, same⟩ | ⟨⟨second, third⟩, x_eq, y_eq⟩
      · exact clear.aside k k_nonneg same
      · exact clear.upright second third x_eq y_eq
    refine ⟨nonzero, sloped, ?_⟩
    intro stopped
    rw [advanced_eq_zero_iff unit] at stopped
    exact clear.moving ((undone_iff _ moved_ne sloped).mp stopped)

private theorem tickClear_iff {state : FilterState ℝ} (input : FilterInput ℝ)
    (unit : state.angle.q.sq = 1) :
    NoZeroNorm (@normCalls ℝ realMath state input) ↔ TickClear state input := by
  have rates := @filterData_gyro ℝ realMath input
    (@filterCalibrate ℝ realMath input state).2
  have readings := @readingsClear_iff
    (@filterData ℝ realMath input (@filterCalibrate ℝ realMath input state).2).gyro
    (@accelReading ℝ realMath (@filterCalibrate ℝ realMath input state).2
      input.accel) state.angle unit
  rw [← @filterData_accel ℝ realMath] at readings
  have mag : (∀ mag, (@normCalls ℝ realMath state input).mag = some mag →
        mag ≠ Vector3.zero) ↔
      (input.updateMag = true →
        @magReading ℝ realMath input.mag ≠ Vector3.zero) := by
    unfold normCalls
    cases input.updateMag with
    | false => simp
    | true => simp
  constructor
  · intro clear
    have kept := readings.mp ⟨clear.accel, clear.gradF, clear.q⟩
    rw [rates] at kept
    exact ⟨kept, mag.mp clear.mag⟩
  · intro clear
    have kept := clear.readings
    rw [← rates] at kept
    obtain ⟨accel, gradF, q⟩ := readings.mpr kept
    exact ⟨accel, mag.mpr clear.mag, gradF, q⟩

/-! ### A run -/

theorem init_unit (dt gyroBiasGain errorGain : ℝ) :
    (@AngleState.init ℝ realMath dt gyroBiasGain errorGain).q.sq = 1 := by
  unfold AngleState.init Quaternion.sq
  simp

/-- A tick that divides by no zero leaves a unit attitude. -/
theorem filterTick_unit {state : FilterState ℝ} {input : FilterInput ℝ}
    (clear : NoZeroNorm (@normCalls ℝ realMath state input)) :
    (@filterTick ℝ realMath state input).angle.q.sq = 1 := by
  cases gains : input.gains with
  | none =>
      rw [@filterTick_q ℝ realMath state input gains]
      exact quaternionNorm_sq clear.q
  | some changed =>
      unfold filterTick
      rw [gains]
      exact init_unit _ _ _

/-- From angle_init on, whatever the readings and the gains, the filter divides by
no zero exactly as long as every tick is clear. -/
theorem attitude_norms_defined_iff (calibrating : Bool)
    (sensors : SensorsState ℝ) (dt gyroBiasGain errorGain : ℝ)
    (inputs : List (FilterInput ℝ)) :
    @EveryTick ℝ realMath
        (fun state input => NoZeroNorm (@normCalls ℝ realMath state input))
        { calibrating, sensors
          angle := @AngleState.init ℝ realMath dt gyroBiasGain errorGain }
        inputs ↔
      @EveryTick ℝ realMath TickClear
        { calibrating, sensors
          angle := @AngleState.init ℝ realMath dt gyroBiasGain errorGain }
        inputs := by
  apply @EveryTick.congr ℝ realMath _ _
    (fun state : FilterState ℝ => state.angle.q.sq = 1)
  · intro state input unit
    exact tickClear_iff input unit
  · intro state input _ clear
    exact filterTick_unit clear
  · exact init_unit dt gyroBiasGain errorGain

/-- The first sample of a calibration is its own offset. -/
theorem first_reading_plumb (input : FilterInput ℝ)
    (still : input.calibrateAccel = some input.accel) :
    let sensors := (@filterCalibrate ℝ realMath input
      (@filterStart ℝ realMath)).2
    (@accelReading ℝ realMath sensors input.accel).x = 0 ∧
      (@accelReading ℝ realMath sensors input.accel).y = 0 := by
  have sums :
      (@filterCalibrate ℝ realMath input
        (@filterStart ℝ realMath)).2.accelOffset =
      { x := ((0 : Int) : ℝ) + ((-axis (input.accel 1) (input.accel 0)).toInt : ℝ)
        y := ((0 : Int) : ℝ) + ((axis (input.accel 3) (input.accel 2)).toInt : ℝ)
        z := ((0 : Int) : ℝ) } := by
    unfold filterCalibrate filterStart sensorsCalibrate
    rw [still]
    rfl
  dsimp only
  unfold accelReading vector3SubEq
  rw [sums]
  constructor
  · change (_ : ℝ) - (((0 : Int) : ℝ) + _) = 0
    rw [Int.cast_zero, zero_add, sub_self]
  · change (_ : ℝ) - (((0 : Int) : ℝ) + _) = 0
    rw [Int.cast_zero, zero_add, sub_self]

/-- A craft whose first two samples agree loses its attitude at the first tick. -/
theorem first_tick_flat (input : FilterInput ℝ)
    (still : input.calibrateAccel = some input.accel) :
    (@normCalls ℝ realMath (@filterStart ℝ realMath) input).gradF =
      Quaternion.zero := by
  have unit : (@filterStart ℝ realMath).angle.q.sq = 1 := init_unit _ _ _
  obtain ⟨x_eq, y_eq⟩ := first_reading_plumb input still
  unfold normCalls
  dsimp only
  rw [@filterData_accel ℝ realMath, vector3Norm_real, slope_unit _ unit]
  apply ascent_upright
  · exact Int.cast_zero
  · exact Int.cast_zero
  · unfold Vector3.scale
    rw [x_eq, mul_zero]
  · unfold Vector3.scale
    rw [y_eq, mul_zero]

def onTable : FilterInput ℝ :=
  let accel : Buffer := fun offset => if offset = 5 then 0xFF else 0
  { calibrateStack := ⟨0, 0, 0⟩
    calibrateGyro := some (fun _ => 0)
    calibrateAccel := some accel
    stack := ⟨Vector3.zero, Vector3.zero, Vector3.zero⟩
    gyro := fun _ => 0
    accel
    mag := fun _ => 0
    updateMag := false
    gains := none }

example : axis (onTable.accel 5) (onTable.accel 4) = -256 := by decide

theorem attitude_lost_on_table :
    (@normCalls ℝ realMath (@filterStart ℝ realMath) onTable).gradF =
        Quaternion.zero ∧
      ¬ @EveryTick ℝ realMath
        (fun state input => NoZeroNorm (@normCalls ℝ realMath state input))
        (@filterStart ℝ realMath) [onTable] := by
  have flat := first_tick_flat onTable rfl
  constructor
  · exact flat
  · intro run
    exact run.1.gradF flat

end Quadcopter

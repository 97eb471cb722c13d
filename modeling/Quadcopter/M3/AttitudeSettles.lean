import Quadcopter.Library.Settling
import Quadcopter.M3.AttitudeRotation

/-
The attitude filter at rest (panda/m3/angle.c), over exact real arithmetic.

The gyro reads nothing and the accelerometer always the same unit vector, as
sensors_get_data makes it.  `leant q down` is half the gradient of the square of
gravity along `down`; it is an involution, and a step of the filter is a
combination of q and of it.  That makes the tangent of half the angle between
gravity as it is expected and as it is read shrink by a factor that the step
determines.
-/

namespace Quadcopter

def Vector3.dot (v w : Vector3 ℝ) : ℝ := v.x * w.x + v.y * w.y + v.z * w.z

def Quaternion.dot (p q : Quaternion ℝ) : ℝ :=
  p.q1 * q.q1 + p.q2 * q.q2 + p.q3 * q.q3 + p.q4 * q.q4

def leant (q : Quaternion ℝ) (down : Vector3 ℝ) : Quaternion ℝ :=
  { q1 := q.q2 * down.y - q.q3 * down.x + q.q1 * down.z
    q2 := q.q4 * down.x + q.q1 * down.y - q.q2 * down.z
    q3 := q.q4 * down.y - q.q1 * down.x - q.q3 * down.z
    q4 := q.q2 * down.x + q.q3 * down.y + q.q4 * down.z }

def combined (α β : ℝ) (p q : Quaternion ℝ) : Quaternion ℝ :=
  { q1 := α * p.q1 + β * q.q1
    q2 := α * p.q2 + β * q.q2
    q3 := α * p.q3 + β * q.q3
    q4 := α * p.q4 + β * q.q4 }

private theorem leant_leant (q : Quaternion ℝ) (down : Vector3 ℝ) :
    leant (leant q down) down = q.scale down.sq := by
  unfold leant Quaternion.scale Vector3.sq
  apply Quaternion.ext_iff'.mpr
  refine ⟨?_, ?_, ?_, ?_⟩ <;> ring

private theorem leant_sq (q : Quaternion ℝ) (down : Vector3 ℝ) :
    (leant q down).sq = down.sq * q.sq := by
  unfold leant Quaternion.sq Vector3.sq
  ring

private theorem dot_leant {q : Quaternion ℝ} (unit : q.sq = 1)
    (down : Vector3 ℝ) :
    q.dot (leant q down) = (gravity q).dot down := by
  unfold Quaternion.sq at unit
  unfold Quaternion.dot leant Vector3.dot gravity
  linear_combination down.z * unit

private theorem combined_sq (α β : ℝ) (p q : Quaternion ℝ) :
    (combined α β p q).sq =
      α ^ 2 * p.sq + 2 * α * β * p.dot q + β ^ 2 * q.sq := by
  unfold combined Quaternion.sq Quaternion.dot
  ring

private theorem leant_combined (α β : ℝ) (p q : Quaternion ℝ)
    (down : Vector3 ℝ) :
    leant (combined α β p q) down =
      combined α β (leant p down) (leant q down) := by
  unfold leant combined
  apply Quaternion.ext_iff'.mpr
  refine ⟨?_, ?_, ?_, ?_⟩ <;> ring

private theorem combined_dot_swapped (α β : ℝ) (p q : Quaternion ℝ) :
    (combined α β p q).dot (combined α β q p) =
      (α ^ 2 + β ^ 2) * p.dot q + α * β * (p.sq + q.sq) := by
  unfold combined Quaternion.sq Quaternion.dot
  ring

section

variable {q : Quaternion ℝ} {down : Vector3 ℝ}

/-- A combination moves the two parts of q, those along gravity and against it,
each by a factor of its own. -/
theorem parts_combined (unit : q.sq = 1) (down_unit : down.sq = 1) (α β : ℝ)
    {p : Quaternion ℝ} (moved : p = combined α β q (leant q down)) :
    p.sq - p.dot (leant p down) =
        (α - β) ^ 2 * (1 - (gravity q).dot down) ∧
      p.sq + p.dot (leant p down) =
        (α + β) ^ 2 * (1 + (gravity q).dot down) := by
  have back : leant (leant q down) down = q := by
    rw [leant_leant, down_unit]
    unfold Quaternion.scale
    simp only [one_mul]
  have leant_unit : (leant q down).sq = 1 := by
    rw [leant_sq, unit, down_unit, one_mul]
  rw [moved, leant_combined, back, combined_sq, combined_dot_swapped, unit,
    leant_unit, dot_leant unit]
  constructor <;> ring

/-- By how much gravity is expected too long along z. -/
noncomputable def excess (q : Quaternion ℝ) (down : Vector3 ℝ) : ℝ :=
  (gravity q).z - down.z

private theorem ascent_eq_combined (q : Quaternion ℝ) (down : Vector3 ℝ) :
    ascent q down =
      combined (2 * (1 - excess q down)) (-2) q (leant q down) := by
  unfold ascent combined leant excess gravity
  apply Quaternion.ext_iff'.mpr
  refine ⟨?_, ?_, ?_, ?_⟩ <;> ring

noncomputable def errorSq (q : Quaternion ℝ) (down : Vector3 ℝ) : ℝ :=
  (2 : ℕ) - (2 : ℕ) * (gravity q).dot down

private theorem errorSq_def :
    errorSq q down = 2 - 2 * (gravity q).dot down := by
  unfold errorSq
  rw [Nat.cast_ofNat]

private theorem errorSq_eq (unit : q.sq = 1) (down_unit : down.sq = 1) :
    errorSq q down = ((gravity q).x - down.x) ^ 2 +
      ((gravity q).y - down.y) ^ 2 + excess q down ^ 2 := by
  have gravity_unit := gravity_sq unit
  unfold Vector3.sq at gravity_unit down_unit
  rw [errorSq_def]
  unfold excess Vector3.dot
  linear_combination -gravity_unit - down_unit

private theorem excess_sq_le (unit : q.sq = 1) (down_unit : down.sq = 1) :
    excess q down ^ 2 ≤ errorSq q down := by
  rw [errorSq_eq unit down_unit]
  have x_nonneg := sq_nonneg ((gravity q).x - down.x)
  have y_nonneg := sq_nonneg ((gravity q).y - down.y)
  linarith

private theorem ascent_sq (unit : q.sq = 1) (down_unit : down.sq = 1) :
    (ascent q down).sq =
      4 * (errorSq q down * (1 - excess q down) + excess q down ^ 2) := by
  rw [ascent_eq_combined, combined_sq, unit, leant_sq, unit, down_unit,
    dot_leant unit]
  rw [errorSq_def]
  ring

end

/-! ### The factor of a step -/

/-- What a step of the filter works with: the square of its error, the excess, the
length of the slope, and the gain times dt. -/
structure Stride (m z N η : ℝ) : Prop where
  nonneg : 0 ≤ N
  sq : N ^ 2 = 4 * (m * (1 - z) + z ^ 2)
  excess : z ^ 2 ≤ m
  small : m ≤ 4
  gain_pos : 0 < η
  gain_le : η ≤ 1 / 4

variable {m z N η : ℝ}

theorem Stride.le (s : Stride m z N η) : N + 2 * η * z ≤ 8 + 4 * η := by
  obtain ⟨nonneg, sq, excess, small, gain_pos, gain_le⟩ := s
  have z_le : z ≤ 2 := by nlinarith
  have le_z : -2 ≤ z := by nlinarith
  have product := mul_nonneg (sub_nonneg.mpr small) (by linarith : 0 ≤ 2 + z)
  have length_le : N ≤ 8 := by
    apply (abs_le_of_sq_le_sq' _ (by norm_num)).2
    rw [sq]
    nlinarith
  nlinarith

theorem Stride.far (s : Stride m z N η) (far : 3 * η ^ 2 ≤ m) :
    3 * η ≤ N + 2 * η * z := by
  obtain ⟨nonneg, sq, excess, small, gain_pos, gain_le⟩ := s
  rcases le_total z 1 with below | above
  · have product := mul_le_mul_of_nonneg_right far (sub_nonneg.mpr below)
    have gain_sq : 0 ≤ 1 - η ^ 2 := by nlinarith
    have rest := mul_nonneg (sq_nonneg z) gain_sq
    have long : η * (3 - 2 * z) ≤ N := by
      apply (abs_le_of_sq_le_sq' _ nonneg).2
      rw [sq]
      nlinarith [sq_nonneg η]
    linarith
  · have z_le : z ≤ 2 := by nlinarith
    have long : 4 - 2 * z ≤ N := by
      apply (abs_le_of_sq_le_sq' _ nonneg).2
      rw [sq]
      nlinarith
    nlinarith

theorem Stride.near (s : Stride m z N η) (near : m < 3 * η ^ 2) :
    7 / 5 * √m ≤ N + 2 * η * z := by
  obtain ⟨nonneg, sq, excess, small, gain_pos, gain_le⟩ := s
  have m_nonneg : 0 ≤ m := le_trans (sq_nonneg z) excess
  have root := Real.sq_sqrt m_nonneg
  have root_nonneg := Real.sqrt_nonneg m
  have m_le : m ≤ 3 / 16 := by nlinarith
  have z_ge : -√m ≤ z := by
    apply (abs_le_of_sq_le_sq' _ root_nonneg).1
    rw [root]
    exact excess
  have long : 19 / 10 * √m ≤ N := by
    apply (abs_le_of_sq_le_sq' _ nonneg).2
    rw [mul_pow, root, sq]
    nlinarith [sq_nonneg (z - m / 2)]
  nlinarith

noncomputable def strideFactor (z N η : ℝ) : ℝ :=
  (N + (2 : ℕ) * η * z - (4 : ℕ) * η) / (N + (2 : ℕ) * η * z)

private theorem strideFactor_def (z N η : ℝ) :
    strideFactor z N η = (N + 2 * η * z - 4 * η) / (N + 2 * η * z) := by
  unfold strideFactor
  simp only [Nat.cast_ofNat]

private theorem Stride.shrinks_far (s : Stride m z N η) (far : 3 * η ^ 2 ≤ m) :
    strideFactor z N η ^ 2 ≤ (2 / (2 + η)) ^ 2 := by
  have from_below := s.far far
  have from_above := s.le
  have gain_pos := s.gain_pos
  have gain_le := s.gain_le
  rw [strideFactor_def]
  generalize N + 2 * η * z = whole at from_below from_above ⊢
  have whole_pos : 0 < whole := by linarith
  have sum_pos : 0 < 2 + η := by linarith
  apply sq_le_sq'
  · rw [← neg_div, div_le_div_iff₀ sum_pos whole_pos]
    nlinarith
  · rw [div_le_div_iff₀ whole_pos sum_pos]
    nlinarith

private theorem Stride.shrinks_near (s : Stride m z N η) (m_pos : 0 < m)
    (near : m < 3 * η ^ 2) :
    strideFactor z N η ^ 2 * (m / (4 - m)) ≤ 9 / 4 * η ^ 2 := by
  have from_below := s.near near
  have gain_pos := s.gain_pos
  have gain_le := s.gain_le
  have m_le : m ≤ 3 / 16 := by nlinarith
  have root_pos := Real.sqrt_pos.mpr m_pos
  have square : (7 / 5) ^ 2 * m ≤ (N + 2 * η * z) ^ 2 := by
    rw [← Real.sq_sqrt m_pos.le, ← mul_pow]
    exact pow_le_pow_left₀ (by positivity) from_below 2
  rw [strideFactor_def]
  generalize N + 2 * η * z = whole at from_below square ⊢
  have whole_pos : 0 < whole := by linarith
  have gap_pos : 0 < 4 - m := by linarith
  rw [div_pow, div_mul_div_comm, div_le_iff₀ (by positivity)]
  have room := mul_nonneg (sq_nonneg η)
    (mul_nonneg (sq_nonneg whole) (sub_nonneg.mpr m_le))
  rcases le_total whole (4 * η) with short | long
  · have numerator : (whole - 4 * η) ^ 2 ≤ 16 * η ^ 2 := by nlinarith
    have first := mul_le_mul_of_nonneg_right numerator m_pos.le
    have second := mul_le_mul_of_nonneg_left square (sq_nonneg η)
    nlinarith
  · have numerator : (whole - 4 * η) ^ 2 ≤ whole ^ 2 := by nlinarith
    have first := mul_le_mul_of_nonneg_right numerator m_pos.le
    have second := mul_le_mul_of_nonneg_left near.le (sq_nonneg whole)
    nlinarith

/-! ### One update -/

/-- Half the angle between gravity as it is expected and as it is read. -/
noncomputable def halfTilt (q : Quaternion ℝ) (down : Vector3 ℝ) : ℝ :=
  Real.arccos ((gravity q).dot down) / (2 : ℕ)

private theorem halfTilt_def (q : Quaternion ℝ) (down : Vector3 ℝ) :
    halfTilt q down = Real.arccos ((gravity q).dot down) / 2 := by
  unfold halfTilt
  rw [Nat.cast_ofNat]

private theorem dot_range {q : Quaternion ℝ} {down : Vector3 ℝ}
    (unit : q.sq = 1)
    (down_unit : down.sq = 1) :
    -1 ≤ (gravity q).dot down ∧ (gravity q).dot down ≤ 1 := by
  have same := errorSq_eq unit down_unit
  have excess_le := excess_sq_le unit down_unit
  have nonneg := sq_nonneg (excess q down)
  have gravity_unit := gravity_sq unit
  have sum := add_nonneg (add_nonneg (sq_nonneg ((gravity q).x + down.x))
    (sq_nonneg ((gravity q).y + down.y))) (sq_nonneg ((gravity q).z + down.z))
  rw [errorSq_def] at excess_le
  unfold Vector3.sq at gravity_unit down_unit
  constructor
  · unfold Vector3.dot
    linarith
  · linarith

private theorem halfTilt_range (q : Quaternion ℝ) (down : Vector3 ℝ) :
    0 ≤ halfTilt q down ∧ halfTilt q down ≤ Real.pi / 2 := by
  have nonneg := Real.arccos_nonneg ((gravity q).dot down)
  have le := Real.arccos_le_pi ((gravity q).dot down)
  rw [halfTilt_def]
  constructor <;> linarith

private theorem tan_halfTilt_sq {q : Quaternion ℝ} {down : Vector3 ℝ}
    (unit : q.sq = 1) (down_unit : down.sq = 1) :
    Real.tan (halfTilt q down) ^ 2 =
      (1 - (gravity q).dot down) / (1 + (gravity q).dot down) := by
  obtain ⟨from_below, from_above⟩ := dot_range unit down_unit
  have double : Real.cos (2 * halfTilt q down) = (gravity q).dot down := by
    rw [halfTilt_def]
    rw [mul_div_cancel₀ _ two_ne_zero]
    exact Real.cos_arccos from_below from_above
  have cos_sq := Real.cos_sq (halfTilt q down)
  have sin_sq := Real.sin_sq (halfTilt q down)
  rw [double] at cos_sq
  rw [Real.tan_eq_sin_div_cos, div_pow, sin_sq, cos_sq]
  rw [show 1 - (1 / 2 + (gravity q).dot down / 2) =
      (1 - (gravity q).dot down) / 2 by ring,
    show 1 / 2 + (gravity q).dot down / 2 =
      (1 + (gravity q).dot down) / 2 by ring]
  exact div_div_div_cancel_right₀ two_ne_zero _ _

private theorem dot_normalised {p : Quaternion ℝ} (down : Vector3 ℝ)
    (nonzero : p ≠ Quaternion.zero) :
    (gravity (@quaternionNorm ℝ realMath p)).dot down * p.sq =
      p.dot (leant p down) := by
  have positive := Quaternion.sq_pos nonzero
  have root := Real.sq_sqrt positive.le
  have root_ne : √p.sq ≠ 0 := (Real.sqrt_pos.mpr positive).ne'
  rw [← dot_leant (quaternionNorm_sq nonzero), quaternionNorm_real]
  have scaled : (p.scale (√p.sq)⁻¹).dot (leant (p.scale (√p.sq)⁻¹) down) =
      ((√p.sq)⁻¹) ^ 2 * p.dot (leant p down) := by
    unfold Quaternion.scale Quaternion.dot leant
    ring
  rw [scaled, inv_pow, root]
  field_simp

/-- The turn about gravity stays as it is: an update at rest is a combination. -/
theorem advanced_at_rest {angle : AngleState ℝ} (unit : angle.q.sq = 1)
    (down : Vector3 ℝ) :
    let step := angle.dt * angle.errorGain / √(ascent angle.q down).sq
    @advanced ℝ realMath Vector3.zero down angle =
      combined (1 - 2 * step * (1 - excess angle.q down)) (2 * step) angle.q
        (leant angle.q down) := by
  intro step
  rw [advanced_real, slope_unit down unit]
  have still : turned angle.q angle.dt Vector3.zero = angle.q := by
    unfold turned Vector3.zero
    apply Quaternion.ext_iff'.mpr
    refine ⟨?_, ?_, ?_, ?_⟩ <;> ring
  rw [still]
  have split : ∀ value : ℝ, angle.dt * angle.errorGain *
      ((√(ascent angle.q down).sq)⁻¹ * value) = step * value := by
    intro value
    change _ = angle.dt * angle.errorGain / √(ascent angle.q down).sq * value
    ring
  unfold Quaternion.scale
  simp only [split]
  rw [ascent_eq_combined]
  unfold combined
  apply Quaternion.ext_iff'.mpr
  refine ⟨?_, ?_, ?_, ?_⟩ <;> ring

private theorem stride_of_unit {q : Quaternion ℝ} {down : Vector3 ℝ} {η : ℝ}
    (unit : q.sq = 1) (down_unit : down.sq = 1) (gain_pos : 0 < η)
    (gain_le : η ≤ 1 / 4) :
    Stride (errorSq q down) (excess q down) (√(ascent q down).sq) η := by
  constructor
  · exact Real.sqrt_nonneg _
  · rw [Real.sq_sqrt (Quaternion.sq_nonneg _), ascent_sq unit down_unit]
  · exact excess_sq_le unit down_unit
  · have range := dot_range unit down_unit
    rw [errorSq_def]
    linarith
  · exact gain_pos
  · exact gain_le

private theorem errorSq_pos {q : Quaternion ℝ} {down : Vector3 ℝ}
    (unit : q.sq = 1)
    (down_unit : down.sq = 1) (sloped : ascent q down ≠ Quaternion.zero) :
    0 < errorSq q down := by
  have excess_le := excess_sq_le unit down_unit
  have square := ascent_sq unit down_unit
  have positive := Quaternion.sq_pos sloped
  refine lt_of_le_of_ne (le_trans (sq_nonneg _) excess_le) ?_
  intro none
  rw [← none] at excess_le square
  have flat : excess q down ^ 2 = 0 := le_antisymm excess_le (sq_nonneg _)
  rw [flat] at square
  linarith

structure Resting (down : Vector3 ℝ) (η : ℝ) (angle : AngleState ℝ) : Prop where
  unit : angle.q.sq = 1
  gain : angle.dt * angle.errorGain = η
  upright : (gravity angle.q).dot down ≠ -1

section

variable {angle : AngleState ℝ} {down : Vector3 ℝ} {η : ℝ}

private theorem performReal_q (gyro accel : Vector3 ℝ) :
    (performReal angle (.angleUpdate gyro accel)).q =
      @quaternionNorm ℝ realMath (@advanced ℝ realMath gyro accel angle) := rfl

private theorem update_parts (unit : angle.q.sq = 1) (down_unit : down.sq = 1)
    (clear : NormalisesNoZero angle (.angleUpdate Vector3.zero down)) :
    ∃ size step : ℝ, 0 < size ∧
      step = angle.dt * angle.errorGain / √(ascent angle.q down).sq ∧
      (1 - (gravity (performReal angle
          (.angleUpdate Vector3.zero down)).q).dot down) * size =
        (1 + 2 * step * excess angle.q down - 4 * step) ^ 2 *
          (1 - (gravity angle.q).dot down) ∧
      (1 + (gravity (performReal angle
          (.angleUpdate Vector3.zero down)).q).dot down) * size =
        (1 + 2 * step * excess angle.q down) ^ 2 *
          (1 + (gravity angle.q).dot down) := by
  have moved : @advanced ℝ realMath Vector3.zero down angle ≠
      Quaternion.zero := clear _ (List.mem_cons_of_mem _ List.mem_cons_self)
  have along := dot_normalised down moved
  obtain ⟨against, toward⟩ := parts_combined unit down_unit _ _
    (advanced_at_rest unit down)
  rw [performReal_q]
  generalize @advanced ℝ realMath Vector3.zero down angle = p at *
  refine ⟨p.sq, _, Quaternion.sq_pos moved, rfl, ?_, ?_⟩
  · rw [sub_mul, one_mul, along, against]
    ring
  · rw [add_mul, one_mul, along, toward]
    ring

private theorem stride_shrinks {m z N η : ℝ} (stride : Stride m z N η)
    (m_pos : 0 < m)
    {t : ℝ} (t_nonneg : 0 ≤ t) (t_sq : t ^ 2 = m / (4 - m)) :
    0 < N + 2 * η * z ∧
      |strideFactor z N η| * t ≤ max (3 / 2 * η) (2 / (2 + η) * t) := by
  have gain_pos := stride.gain_pos
  rcases le_or_gt (3 * η ^ 2) m with far | near
  · constructor
    · have from_below := stride.far far
      linarith
    · apply le_max_of_le_right
      apply mul_le_mul_of_nonneg_right _ t_nonneg
      exact abs_le_of_sq_le_sq (stride.shrinks_far far) (by positivity)
  · constructor
    · have from_below := stride.near near
      have root_pos := Real.sqrt_pos.mpr m_pos
      linarith
    · apply le_max_of_le_left
      apply le_of_sq_le_sq _ (by positivity)
      rw [mul_pow, sq_abs, t_sq]
      linarith [stride.shrinks_near m_pos near]

private theorem errorSq_ratio (q : Quaternion ℝ) (down : Vector3 ℝ) :
    (1 - (gravity q).dot down) / (1 + (gravity q).dot down) =
      errorSq q down / (4 - errorSq q down) := by
  rw [errorSq_def]
  rw [show 2 - 2 * (gravity q).dot down = 2 * (1 - (gravity q).dot down) by ring,
    show 4 - 2 * (1 - (gravity q).dot down) =
      2 * (1 + (gravity q).dot down) by ring]
  exact (mul_div_mul_left _ _ two_ne_zero).symm

private theorem tan_halfTilt_nonneg (q : Quaternion ℝ) (down : Vector3 ℝ) :
    0 ≤ Real.tan (halfTilt q down) := by
  obtain ⟨from_below, from_above⟩ := halfTilt_range q down
  exact Real.tan_nonneg_of_nonneg_of_le_pi_div_two from_below from_above

/-- The tangent after an update is the one before, times the factor. -/
theorem update_factor {later : AngleState ℝ} {size z N : ℝ}
    (unit : angle.q.sq = 1) (later_unit : later.q.sq = 1)
    (down_unit : down.sq = 1) (upright : (gravity angle.q).dot down ≠ -1)
    (size_pos : 0 < size) (length_pos : 0 < N) (whole_pos : 0 < N + 2 * η * z)
    (against : (1 - (gravity later.q).dot down) * size =
      (1 + 2 * (η / N) * z - 4 * (η / N)) ^ 2 *
        (1 - (gravity angle.q).dot down))
    (toward : (1 + (gravity later.q).dot down) * size =
      (1 + 2 * (η / N) * z) ^ 2 * (1 + (gravity angle.q).dot down)) :
    (gravity later.q).dot down ≠ -1 ∧
      Real.tan (halfTilt later.q down) =
        |strideFactor z N η| * Real.tan (halfTilt angle.q down) := by
  have whole_eq : 1 + 2 * (η / N) * z = (N + 2 * η * z) / N := by
    field_simp
  have rest_eq : 1 + 2 * (η / N) * z - 4 * (η / N) =
      (N + 2 * η * z - 4 * η) / N := by
    field_simp
  rw [rest_eq] at against
  rw [whole_eq] at toward
  have up_pos : 0 < 1 + (gravity angle.q).dot down := by
    refine lt_of_le_of_ne ?_ ?_
    · linarith [(dot_range unit down_unit).1]
    · intro none
      exact upright (by linarith)
  have later_pos : 0 < (1 + (gravity later.q).dot down) * size := by
    rw [toward]
    positivity
  constructor
  · intro down_side
    rw [down_side] at later_pos
    norm_num at later_pos
  · have square : Real.tan (halfTilt later.q down) ^ 2 =
        (|strideFactor z N η| * Real.tan (halfTilt angle.q down)) ^ 2 := by
      rw [mul_pow, sq_abs, tan_halfTilt_sq later_unit down_unit,
        tan_halfTilt_sq unit down_unit,
        ← mul_div_mul_right _ _ size_pos.ne', against, toward]
      rw [strideFactor_def]
      field_simp
    exact (sq_eq_sq₀ (tan_halfTilt_nonneg _ _)
      (mul_nonneg (abs_nonneg _) (tan_halfTilt_nonneg _ _))).mp square

private theorem rest_step (down_unit : down.sq = 1) (gain_pos : 0 < η)
    (gain_le : η ≤ 1 / 4) (resting : Resting down η angle)
    (clear : NormalisesNoZero angle (.angleUpdate Vector3.zero down)) :
    Resting down η (performReal angle (.angleUpdate Vector3.zero down)) ∧
      Real.tan (halfTilt
          (performReal angle (.angleUpdate Vector3.zero down)).q down) ≤
        max (3 / 2 * η)
          (2 / (2 + η) * Real.tan (halfTilt angle.q down)) := by
  obtain ⟨unit, gain, upright⟩ := resting
  have sloped : ascent angle.q down ≠ Quaternion.zero := by
    rw [← slope_unit down unit]
    exact clear _ List.mem_cons_self
  have later_unit := perform_unit clear
  obtain ⟨whole_pos, shrinks⟩ := stride_shrinks
    (stride_of_unit unit down_unit gain_pos gain_le)
    (errorSq_pos unit down_unit sloped) (tan_halfTilt_nonneg angle.q down)
    ((tan_halfTilt_sq unit down_unit).trans (errorSq_ratio _ _))
  obtain ⟨size, step, size_pos, step_eq, against, toward⟩ :=
    update_parts unit down_unit clear
  rw [gain] at step_eq
  subst step_eq
  obtain ⟨later_upright, tan_eq⟩ := update_factor unit later_unit down_unit
    upright size_pos (Real.sqrt_pos.mpr (Quaternion.sq_pos sloped)) whole_pos
    against toward
  refine ⟨⟨later_unit, gain, later_upright⟩, ?_⟩
  rw [tan_eq]
  exact shrinks

/-- Upside down, an update does not find the way up. -/
theorem upside_down_step (down_unit : down.sq = 1) (unit : angle.q.sq = 1)
    (upside_down : (gravity angle.q).dot down = -1)
    (clear : NormalisesNoZero angle (.angleUpdate Vector3.zero down)) :
    (gravity (performReal angle
      (.angleUpdate Vector3.zero down)).q).dot down = -1 := by
  obtain ⟨size, step, size_pos, _, _, toward⟩ :=
    update_parts unit down_unit clear
  rw [upside_down, add_neg_cancel, mul_zero] at toward
  have none := (mul_eq_zero.mp toward).resolve_right size_pos.ne'
  linarith

end

/-! ### Runs -/

/-- The filter at rest finds the direction of gravity, from everywhere but
upside down and where an update would normalise a zero vector, and stays there. -/
theorem attitude_settles {angle : AngleState ℝ} {down : Vector3 ℝ} (n : Nat)
    (unit : angle.q.sq = 1) (down_unit : down.sq = 1)
    (gain_pos : 0 < angle.dt * angle.errorGain)
    (gain_le : angle.dt * angle.errorGain ≤ 1 / 4)
    (clear : EveryStep performReal NormalisesNoZero angle
      (List.replicate n (.angleUpdate Vector3.zero down))) :
    ((gravity angle.q).dot down = -1 →
      (gravity (runSteps performReal angle
        (List.replicate n (.angleUpdate Vector3.zero down))).q).dot down =
          -1) ∧
    ((gravity angle.q).dot down ≠ -1 →
      Real.tan (halfTilt (runSteps performReal angle
        (List.replicate n (.angleUpdate Vector3.zero down))).q down) ≤
        max (3 / 2 * (angle.dt * angle.errorGain))
          ((2 / (2 + angle.dt * angle.errorGain)) ^ n *
            Real.tan (halfTilt angle.q down))) := by
  have each_clear := clear.of_replicate
  constructor
  · intro upside_down
    have stays := each_clear.invariant
      (fun angle => angle.q.sq = 1 ∧ (gravity angle.q).dot down = -1)
      (by
        rintro state _ ⟨state_unit, state_down⟩ ⟨rfl, state_clear⟩
        exact ⟨perform_unit state_clear, upside_down_step down_unit
          state_unit state_down state_clear⟩)
      ⟨unit, upside_down⟩
    exact stays.2
  · intro upright
    generalize gain_eq : angle.dt * angle.errorGain = η at *
    have band_nonneg : 0 ≤ 3 / 2 * η := by positivity
    have rate_nonneg : 0 ≤ 2 / (2 + η) := by positivity
    have rate_le : 2 / (2 + η) ≤ 1 := by
      rw [div_le_one (by positivity)]
      linarith
    have settled := each_clear.settles (Resting down η)
      (fun angle => Real.tan (halfTilt angle.q down)) band_nonneg rate_nonneg
      rate_le
      (by
        rintro state _ resting ⟨rfl, state_clear⟩
        exact rest_step down_unit gain_pos gain_le resting state_clear)
      ⟨unit, gain_eq, upright⟩
    rw [List.length_replicate] at settled
    exact settled.2

/-- Level, with gravity read along x. -/
theorem attitude_settles_from_level :
    ((gravity (@AngleState.init ℝ realMath (1 / 100) 0 1).q).dot ⟨1, 0, 0⟩ = -1 →
      (gravity (runSteps performReal (@AngleState.init ℝ realMath (1 / 100) 0 1)
        (List.replicate 1 (.angleUpdate Vector3.zero ⟨1, 0, 0⟩))).q).dot
          ⟨1, 0, 0⟩ = -1) ∧
    ((gravity (@AngleState.init ℝ realMath (1 / 100) 0 1).q).dot ⟨1, 0, 0⟩ ≠ -1 →
      Real.tan (halfTilt (runSteps performReal
        (@AngleState.init ℝ realMath (1 / 100) 0 1)
        (List.replicate 1 (.angleUpdate Vector3.zero ⟨1, 0, 0⟩))).q
          ⟨1, 0, 0⟩) ≤
        max (3 / 2 * (1 / 100 * 1))
          ((2 / (2 + 1 / 100 * 1)) ^ 1 *
            Real.tan (halfTilt
              (@AngleState.init ℝ realMath (1 / 100) 0 1).q ⟨1, 0, 0⟩))) := by
  have unit := init_unit (1 / 100) 0 1
  have gain_eq : (@AngleState.init ℝ realMath (1 / 100) 0 1).dt *
      (@AngleState.init ℝ realMath (1 / 100) 0 1).errorGain =
        1 / 100 * 1 := rfl
  have first : (@advanced ℝ realMath Vector3.zero ⟨1, 0, 0⟩
      (@AngleState.init ℝ realMath (1 / 100) 0 1)).q1 = 1 := by
    rw [advanced_at_rest unit]
    unfold combined leant excess gravity AngleState.init
    norm_num
  rw [← gain_eq]
  apply attitude_settles 1 unit
  · unfold Vector3.sq
    norm_num
  · rw [gain_eq]
    norm_num
  · rw [gain_eq]
    norm_num
  · refine ⟨?_, trivial⟩
    intro vector member
    rcases List.mem_cons.mp member with first_one | rest
    · rw [first_one]
      exact level_sloped (1 / 100) 0 1
    · rw [List.mem_singleton.mp rest]
      intro none
      rw [none] at first
      exact zero_ne_one first

end Quadcopter

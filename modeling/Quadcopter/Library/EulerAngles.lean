import Mathlib.Algebra.Quaternion
import Mathlib.Analysis.SpecialFunctions.Complex.Arg
import Mathlib.Analysis.SpecialFunctions.Trigonometric.Inverse

/-
Euler angles of unit quaternions.

`turned roll pitch yaw` turns by roll about x, then by pitch about y, then by yaw
about z.  A unit quaternion with the same third row and first column of the
rotation matrix as such a turn is that turn up to sign, unless the pitch is
upright, and the angles are those that atan2 and arcsin get from these entries.
-/

namespace Quadcopter.EulerAngles

open scoped Quaternion
open Real (sin cos)

/-- Two vectors with the same products of entries differ in sign at most. -/
theorem eq_or_eq_neg_of_products {ι R : Type} [CommRing R] [IsDomain R]
    {p q : ι → R} (same : ∀ i j, p i * p j = q i * q j) : p = q ∨ p = -q := by
  by_cases none : q = 0
  · left
    funext i
    have square := same i i
    rw [none, Pi.zero_apply, mul_zero] at square
    rw [none]
    exact mul_self_eq_zero.mp square
  · obtain ⟨i, nonzero⟩ := Function.ne_iff.mp none
    rw [Pi.zero_apply] at nonzero
    rcases mul_self_eq_mul_self_iff.mp (same i i) with equal | opposite
    · left
      funext j
      have product := same i j
      rw [equal] at product
      exact mul_left_cancel₀ nonzero product
    · right
      funext j
      have product := same i j
      rw [opposite, neg_mul, ← mul_neg] at product
      exact neg_eq_iff_eq_neg.mp (mul_left_cancel₀ nonzero product)

def squares (q : ℍ[ℝ]) : ℝ :=
  q.re * q.re + q.imI * q.imI + q.imJ * q.imJ + q.imK * q.imK

theorem squares_mul (p q : ℍ[ℝ]) : squares (p * q) = squares p * squares q := by
  have each : ∀ q : ℍ[ℝ], squares q = Quaternion.normSq q := by
    intro q
    rw [Quaternion.normSq_def', pow_two, pow_two, pow_two, pow_two]
    rfl
  rw [each, each, each, map_mul]

/-- The third row and the first column of the rotation matrix of a quaternion. -/
@[ext]
structure Edges where
  third1 : ℝ
  third2 : ℝ
  third3 : ℝ
  first1 : ℝ
  second1 : ℝ

def edges (q : ℍ[ℝ]) : Edges where
  third1 := (2 : ℕ) * (q.imI * q.imK - q.re * q.imJ)
  third2 := (2 : ℕ) * (q.re * q.imI + q.imJ * q.imK)
  third3 := q.re * q.re - q.imI * q.imI - q.imJ * q.imJ + q.imK * q.imK
  first1 := q.re * q.re + q.imI * q.imI - q.imJ * q.imJ - q.imK * q.imK
  second1 := (2 : ℕ) * (q.re * q.imK + q.imI * q.imJ)

theorem edges_neg (q : ℍ[ℝ]) : edges (-q) = edges q := by
  unfold edges
  simp only [Quaternion.re_neg, Quaternion.imI_neg, Quaternion.imJ_neg,
    Quaternion.imK_neg, neg_mul_neg]

@[ext]
structure Inner where
  first2 : ℝ
  first3 : ℝ
  second2 : ℝ
  second3 : ℝ

def inner (q : ℍ[ℝ]) : Inner where
  first2 := (2 : ℕ) * (q.imI * q.imJ - q.re * q.imK)
  first3 := (2 : ℕ) * (q.re * q.imJ + q.imI * q.imK)
  second2 := q.re * q.re - q.imI * q.imI + q.imJ * q.imJ - q.imK * q.imK
  second3 := (2 : ℕ) * (q.imJ * q.imK - q.re * q.imI)

section

variable {p q : ℍ[ℝ]}

theorem third_row (unit : squares q = 1) :
    (edges q).third3 * (edges q).third3 + (edges q).third2 * (edges q).third2 =
      1 - (edges q).third1 ^ 2 := by
  rw [← one_pow 2, ← unit]
  unfold edges squares
  ring

theorem first_column (unit : squares q = 1) :
    (edges q).first1 * (edges q).first1 +
      (edges q).second1 * (edges q).second1 = 1 - (edges q).third1 ^ 2 := by
  rw [← one_pow 2, ← unit]
  unfold edges squares
  ring

/-- What the edges make of the other entries, times what both have in common. -/
def Edges.inner (e : Edges) : Inner where
  first2 := -e.third1 * e.first1 * e.third2 - e.second1 * e.third3
  first3 := -e.third1 * e.first1 * e.third3 + e.second1 * e.third2
  second2 := -e.third1 * e.second1 * e.third2 + e.first1 * e.third3
  second3 := -e.third1 * e.second1 * e.third3 - e.first1 * e.third2

def Inner.scale (k : ℝ) (i : Inner) : Inner where
  first2 := k * i.first2
  first3 := k * i.first3
  second2 := k * i.second2
  second3 := k * i.second3

theorem Inner.scale_cancel {k : ℝ} {i j : Inner} (nonzero : k ≠ 0)
    (same : i.scale k = j.scale k) : i = j := by
  obtain ⟨first2, first3, second2, second3⟩ := Inner.ext_iff.mp same
  exact Inner.ext (mul_left_cancel₀ nonzero first2)
    (mul_left_cancel₀ nonzero first3) (mul_left_cancel₀ nonzero second2)
    (mul_left_cancel₀ nonzero second3)

theorem inner_of_edges (unit : squares q = 1) :
    (inner q).scale (1 - (edges q).third1 ^ 2) = (edges q).inner := by
  have scaled : (inner q).scale (squares q ^ 2 - (edges q).third1 ^ 2) =
      { first2 := -(edges q).third1 * (edges q).first1 * (edges q).third2 -
          squares q * ((edges q).second1 * (edges q).third3)
        first3 := -(edges q).third1 * (edges q).first1 * (edges q).third3 +
          squares q * ((edges q).second1 * (edges q).third2)
        second2 := -(edges q).third1 * (edges q).second1 * (edges q).third2 +
          squares q * ((edges q).first1 * (edges q).third3)
        second3 := -(edges q).third1 * (edges q).second1 * (edges q).third3 -
          squares q * ((edges q).first1 * (edges q).third2) } := by
    ext <;>
    · simp only [Inner.scale, inner, edges, squares]
      ring
  rw [unit, one_pow] at scaled
  rw [scaled]
  simp only [one_mul, Edges.inner]

def parts (q : ℍ[ℝ]) : Fin 4 → ℝ := ![q.re, q.imI, q.imJ, q.imK]

theorem parts_injective : Function.Injective parts := by
  intro p q same
  ext
  · exact congrFun same 0
  · exact congrFun same 1
  · exact congrFun same 2
  · exact congrFun same 3

theorem parts_neg (q : ℍ[ℝ]) : parts (-q) = -parts q := by
  funext i
  fin_cases i <;> rfl

theorem products_of_entries (unit : squares p = squares q)
    (outside : edges p = edges q) (inside : inner p = inner q) (i j : Fin 4) :
    parts p i * parts p j = parts q i * parts q j := by
  obtain ⟨t1, t2, t3, f1, s1⟩ := Edges.ext_iff.mp outside
  obtain ⟨f2, f3, s2, s3⟩ := Inner.ext_iff.mp inside
  simp only [edges, Nat.cast_ofNat] at t1 t2 t3 f1 s1
  simp only [inner, Nat.cast_ofNat] at f2 f3 s2 s3
  unfold squares at unit
  fin_cases i <;> fin_cases j <;> dsimp [parts] <;> linarith

theorem eq_or_eq_neg_of_entries (unit : squares p = squares q)
    (outside : edges p = edges q) (inside : inner p = inner q) :
    p = q ∨ p = -q := by
  rcases eq_or_eq_neg_of_products
    (products_of_entries unit outside inside) with equal | opposite
  · exact .inl (parts_injective equal)
  · rw [← parts_neg] at opposite
    exact .inr (parts_injective opposite)

theorem eq_or_eq_neg_of_edges (unit_p : squares p = 1) (unit_q : squares q = 1)
    (same : edges p = edges q) (aslant : 1 - (edges q).third1 ^ 2 ≠ 0) :
    p = q ∨ p = -q := by
  have inside : inner p = inner q := by
    apply Inner.scale_cancel aslant
    rw [inner_of_edges unit_q, ← same, inner_of_edges unit_p]
  exact eq_or_eq_neg_of_entries (unit_p.trans unit_q.symm) same inside

theorem inner_of_level (first : q.imI = 0) (last : q.imK = 0) :
    inner q =
      { first2 := 0
        first3 := -(edges q).third1
        second2 := squares q
        second3 := 0 } := by
  ext <;>
  · simp only [inner, edges, squares, first, last]
    ring

end

@[simps]
noncomputable def aboutX (θ : ℝ) : ℍ[ℝ] :=
  ⟨cos (θ / (2 : ℕ)), sin (θ / (2 : ℕ)), 0, 0⟩

@[simps]
noncomputable def aboutY (θ : ℝ) : ℍ[ℝ] :=
  ⟨cos (θ / (2 : ℕ)), 0, sin (θ / (2 : ℕ)), 0⟩

@[simps]
noncomputable def aboutZ (θ : ℝ) : ℍ[ℝ] :=
  ⟨cos (θ / (2 : ℕ)), 0, 0, sin (θ / (2 : ℕ))⟩

noncomputable def turned (roll pitch yaw : ℝ) : ℍ[ℝ] :=
  aboutZ yaw * (aboutY pitch * aboutX roll)

theorem squares_turned (roll pitch yaw : ℝ) :
    squares (turned roll pitch yaw) = 1 := by
  have each : ∀ θ : ℝ, sin (θ / 2) * sin (θ / 2) + cos (θ / 2) * cos (θ / 2) =
      1 := by
    intro θ
    rw [← pow_two, ← pow_two]
    exact Real.sin_sq_add_cos_sq _
  unfold turned
  rw [squares_mul, squares_mul]
  simp only [squares, aboutX, aboutY, aboutZ, Nat.cast_ofNat, mul_zero,
    add_zero]
  rw [add_comm, each, add_comm, each, add_comm, each, mul_one, mul_one]

theorem turned_parts (roll pitch yaw : ℝ) :
    turned roll pitch yaw =
      ⟨cos (yaw / 2) * (cos (pitch / 2) * cos (roll / 2)) +
          sin (yaw / 2) * (sin (pitch / 2) * sin (roll / 2)),
        cos (yaw / 2) * (cos (pitch / 2) * sin (roll / 2)) -
          sin (yaw / 2) * (sin (pitch / 2) * cos (roll / 2)),
        cos (yaw / 2) * (sin (pitch / 2) * cos (roll / 2)) +
          sin (yaw / 2) * (cos (pitch / 2) * sin (roll / 2)),
        sin (yaw / 2) * (cos (pitch / 2) * cos (roll / 2)) -
          cos (yaw / 2) * (sin (pitch / 2) * sin (roll / 2))⟩ := by
  unfold turned
  ext <;>
  · simp
    try ring

theorem edges_turned (roll pitch yaw : ℝ) :
    edges (turned roll pitch yaw) =
      { third1 := -sin pitch
        third2 := cos pitch * sin roll
        third3 := cos pitch * cos roll
        first1 := cos pitch * cos yaw
        second1 := cos pitch * sin yaw } := by
  have double_sin : ∀ θ : ℝ, sin θ = 2 * sin (θ / 2) * cos (θ / 2) := by
    intro θ
    rw [← Real.sin_two_mul, mul_div_cancel₀ θ two_ne_zero]
  have double_cos : ∀ θ : ℝ, cos θ = cos (θ / 2) ^ 2 - sin (θ / 2) ^ 2 := by
    intro θ
    rw [← Real.cos_two_mul', mul_div_cancel₀ θ two_ne_zero]
  have roll_unit := Real.sin_sq_add_cos_sq (roll / 2)
  have yaw_unit := Real.sin_sq_add_cos_sq (yaw / 2)
  rw [double_sin roll, double_sin pitch, double_sin yaw, double_cos roll,
    double_cos pitch, double_cos yaw, turned_parts]
  generalize sin (roll / 2) = b, cos (roll / 2) = a at *
  generalize sin (pitch / 2) = d, cos (pitch / 2) = c
  generalize sin (yaw / 2) = f, cos (yaw / 2) = e at *
  unfold edges
  ext
  · dsimp only
    calc
      _ = -(2 * d * c) * (b ^ 2 + a ^ 2) * (f ^ 2 + e ^ 2) := by ring
      _ = -(2 * d * c) := by rw [roll_unit, yaw_unit, mul_one, mul_one]
  · dsimp only
    calc
      _ = (c ^ 2 - d ^ 2) * (2 * b * a) * (f ^ 2 + e ^ 2) := by ring
      _ = (c ^ 2 - d ^ 2) * (2 * b * a) := by rw [yaw_unit, mul_one]
  · dsimp only
    calc
      _ = (c ^ 2 - d ^ 2) * (a ^ 2 - b ^ 2) * (f ^ 2 + e ^ 2) := by ring
      _ = (c ^ 2 - d ^ 2) * (a ^ 2 - b ^ 2) := by rw [yaw_unit, mul_one]
  · dsimp only
    calc
      _ = (c ^ 2 - d ^ 2) * (e ^ 2 - f ^ 2) * (b ^ 2 + a ^ 2) := by ring
      _ = (c ^ 2 - d ^ 2) * (e ^ 2 - f ^ 2) := by rw [roll_unit, mul_one]
  · dsimp only
    calc
      _ = (c ^ 2 - d ^ 2) * (2 * f * e) * (b ^ 2 + a ^ 2) := by ring
      _ = (c ^ 2 - d ^ 2) * (2 * f * e) := by rw [roll_unit, mul_one]

namespace Edges

noncomputable def roll (e : Edges) : ℝ := Complex.arg ⟨e.third3, e.third2⟩

noncomputable def pitch (e : Edges) : ℝ := Real.arcsin (-e.third1)

noncomputable def yaw (e : Edges) : ℝ := Complex.arg ⟨e.first1, e.second1⟩

noncomputable def turned (e : Edges) : ℍ[ℝ] :=
  EulerAngles.turned e.roll e.pitch e.yaw

end Edges

theorem polar {x y r : ℝ} (nonneg : 0 ≤ r) (square : x * x + y * y = r ^ 2) :
    r * cos (Complex.arg ⟨x, y⟩) = x ∧ r * sin (Complex.arg ⟨x, y⟩) = y := by
  have distance : ‖(⟨x, y⟩ : ℂ)‖ = r := by
    rw [Complex.norm_def, Complex.normSq_mk, square]
    exact Real.sqrt_sq nonneg
  rw [← distance]
  exact ⟨Complex.norm_mul_cos_arg _, Complex.norm_mul_sin_arg _⟩

theorem arg_polar {r θ : ℝ} (positive : 0 < r)
    (range : θ ∈ Set.Ioc (-Real.pi) Real.pi) :
    Complex.arg ⟨r * cos θ, r * sin θ⟩ = θ := by
  have point : (⟨r * cos θ, r * sin θ⟩ : ℂ) =
      r * (Complex.cos θ + Complex.sin θ * Complex.I) := by
    apply Complex.ext <;>
    simp [Complex.cos_ofReal_re, Complex.sin_ofReal_re]
  rw [point]
  exact Complex.arg_mul_cos_add_sin_mul_I positive range

section

variable {q : ℍ[ℝ]}

theorem third1_range (unit : squares q = 1) : (edges q).third1 ^ 2 ≤ 1 := by
  have row := third_row unit
  have square2 := mul_self_nonneg (edges q).third2
  have square3 := mul_self_nonneg (edges q).third3
  linarith

theorem cos_pitch_sq (unit : squares q = 1) :
    cos (edges q).pitch ^ 2 = 1 - (edges q).third1 ^ 2 := by
  unfold Edges.pitch
  rw [Real.cos_arcsin, neg_sq, Real.sq_sqrt]
  exact sub_nonneg.mpr (third1_range unit)

theorem sin_pitch (unit : squares q = 1) :
    sin (edges q).pitch = -(edges q).third1 := by
  have range := abs_le.mp ((sq_le_one_iff_abs_le_one _).mp (third1_range unit))
  exact Real.sin_arcsin (neg_le_neg range.2) (neg_le.mp range.1)

theorem cos_pitch_nonneg (e : Edges) : 0 ≤ cos e.pitch :=
  Real.cos_arcsin_nonneg _

theorem edges_turned_self (unit : squares q = 1) :
    edges (edges q).turned = edges q := by
  have square := cos_pitch_sq unit
  obtain ⟨cos_roll, sin_roll⟩ := polar (cos_pitch_nonneg (edges q))
    ((third_row unit).trans square.symm)
  obtain ⟨cos_yaw, sin_yaw⟩ := polar (cos_pitch_nonneg (edges q))
    ((first_column unit).trans square.symm)
  unfold Edges.turned
  rw [edges_turned]
  ext
  · dsimp only
    rw [sin_pitch unit, neg_neg]
  · exact sin_roll
  · exact cos_roll
  · exact cos_yaw
  · exact sin_yaw

theorem eq_or_eq_neg_turned (unit : squares q = 1)
    (aslant : 1 - (edges q).third1 ^ 2 ≠ 0) :
    q = (edges q).turned ∨ q = -(edges q).turned := by
  have same := edges_turned_self unit
  apply eq_or_eq_neg_of_edges unit (squares_turned _ _ _) same.symm
  change 1 - (edges (edges q).turned).third1 ^ 2 ≠ 0
  rw [same]
  exact aslant

/-- Upright, the angles have no roll and no yaw, whatever the quaternion. -/
theorem upright_turned (unit : squares q = 1)
    (upright : 1 - (edges q).third1 ^ 2 = 0) :
    (edges q).turned = aboutY (edges q).pitch := by
  have row := third_row unit
  have column := first_column unit
  rw [upright] at row column
  obtain ⟨third3, third2⟩ := mul_self_add_mul_self_eq_zero.mp row
  obtain ⟨first1, second1⟩ := mul_self_add_mul_self_eq_zero.mp column
  have none : ∀ θ : ℝ, θ = 0 → aboutX θ = 1 ∧ aboutZ θ = 1 := by
    rintro θ rfl
    constructor <;> ext <;> simp
  have roll : (edges q).roll = 0 := by
    unfold Edges.roll
    rw [third3, third2]
    exact Complex.arg_zero
  have yaw : (edges q).yaw = 0 := by
    unfold Edges.yaw
    rw [first1, second1]
    exact Complex.arg_zero
  unfold Edges.turned turned
  rw [(none _ roll).1, (none _ yaw).2, one_mul, mul_one]

/-- Upright, the turn is the one of the angles if it is one about y only. -/
theorem upright_iff (unit : squares q = 1)
    (upright : 1 - (edges q).third1 ^ 2 = 0) :
    (q = (edges q).turned ∨ q = -(edges q).turned) ↔ q.imI = 0 := by
  have turned_eq := upright_turned unit upright
  constructor
  · intro rebuilt
    rw [turned_eq] at rebuilt
    rcases rebuilt with same | opposite
    · rw [same]
      rfl
    · rw [opposite, Quaternion.imI_neg]
      exact neg_zero
  · intro first
    have row := third_row unit
    rw [upright] at row
    have second := (mul_self_add_mul_self_eq_zero.mp row).2
    have last : q.imK = 0 := by
      simp only [edges, first] at second upright
      have factor : q.imJ ≠ 0 := by
        intro none
        rw [none] at upright
        norm_num at upright
      simpa [factor] using second
    have same := edges_turned_self unit
    have unit_turned : squares (edges q).turned = 1 := squares_turned _ _ _
    apply eq_or_eq_neg_of_entries (unit.trans unit_turned.symm) same.symm
    rw [inner_of_level first last, inner_of_level, same, unit, unit_turned]
    · rw [turned_eq]
      rfl
    · rw [turned_eq]
      rfl

/-- The angles of a unit quaternion rebuild it, up to sign, unless it is upright
and not a turn about y only. -/
theorem rebuilt_iff (unit : squares q = 1) :
    (q = (edges q).turned ∨ q = -(edges q).turned) ↔
      (1 - (edges q).third1 ^ 2 ≠ 0 ∨ q.imI = 0) := by
  by_cases upright : 1 - (edges q).third1 ^ 2 = 0
  · rw [upright_iff unit upright]
    exact (or_iff_right (fun aslant => aslant upright)).symm
  · exact iff_of_true (eq_or_eq_neg_turned unit upright) (.inl upright)

theorem angles_of_turned {roll pitch yaw : ℝ}
    (roll_range : roll ∈ Set.Ioc (-Real.pi) Real.pi)
    (pitch_range : pitch ∈ Set.Ioo (-(Real.pi / 2)) (Real.pi / 2))
    (yaw_range : yaw ∈ Set.Ioc (-Real.pi) Real.pi) :
    (edges (turned roll pitch yaw)).roll = roll ∧
      (edges (turned roll pitch yaw)).pitch = pitch ∧
      (edges (turned roll pitch yaw)).yaw = yaw := by
  have positive := Real.cos_pos_of_mem_Ioo pitch_range
  rw [edges_turned]
  unfold Edges.roll Edges.pitch Edges.yaw
  dsimp only
  rw [neg_neg]
  exact ⟨arg_polar positive roll_range,
    Real.arcsin_sin pitch_range.1.le pitch_range.2.le,
    arg_polar positive yaw_range⟩

end

end Quadcopter.EulerAngles

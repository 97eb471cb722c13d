import Quadcopter.M3.Vector

/-
Quaternions and cross products (panda/m3/vector.c, and the same file of the
maple) over any commutative ring.

The quaternion functions compute in the algebra of quaternions.  vector3_cross
computes its z as the negative of its x: it is the cross product less
`crossGap` in z.
-/

section

open scoped Quaternion Matrix

namespace Quadcopter

variable {R : Type}

def quaternionSquares [Add R] [Mul R] (q : Quaternion R) : R :=
  q.q1 * q.q1 + q.q2 * q.q2 + q.q3 * q.q3 + q.q4 * q.q4

private theorem quaternionNorm_divides_root [CMath R] (q : Quaternion R) :
    quaternionNorm q =
      { q1 := q.q1 / CMath.sqrt (quaternionSquares q)
        q2 := q.q2 / CMath.sqrt (quaternionSquares q)
        q3 := q.q3 / CMath.sqrt (quaternionSquares q)
        q4 := q.q4 / CMath.sqrt (quaternionSquares q) } := rfl

variable [CommRing R]

def Quaternion.toAlgebra (q : Quaternion R) : ℍ[R] := ⟨q.q1, q.q2, q.q3, q.q4⟩

private theorem toAlgebra_injective :
    Function.Injective (Quaternion.toAlgebra : Quaternion R → ℍ[R]) := by
  intro a b same
  cases a
  cases b
  cases same
  rfl

def quaternionUnit : Quaternion R := ⟨1, 0, 0, 0⟩

@[simp]
theorem toAlgebra_unit : (quaternionUnit : Quaternion R).toAlgebra = 1 := rfl

@[simp]
theorem toAlgebra_add (a b : Quaternion R) :
    (quaternionAdd a b).toAlgebra = a.toAlgebra + b.toAlgebra := rfl

@[simp]
theorem toAlgebra_sub (a b : Quaternion R) :
    (quaternionSub a b).toAlgebra = a.toAlgebra - b.toAlgebra := rfl

@[simp]
theorem toAlgebra_mult (a b : Quaternion R) :
    (quaternionMult a b).toAlgebra = a.toAlgebra * b.toAlgebra := by
  ext
  · exact (Quaternion.re_mul a.toAlgebra b.toAlgebra).symm
  · exact (Quaternion.imI_mul a.toAlgebra b.toAlgebra).symm
  · exact (Quaternion.imJ_mul a.toAlgebra b.toAlgebra).symm
  · exact (Quaternion.imK_mul a.toAlgebra b.toAlgebra).symm

@[simp]
theorem toAlgebra_multf (q : Quaternion R) (f : R) :
    (quaternionMultf q f).toAlgebra = f • q.toAlgebra := by
  ext <;> exact mul_comm _ f

@[simp]
theorem toAlgebra_conj (q : Quaternion R) :
    (quaternionConj q).toAlgebra = star q.toAlgebra := by
  ext
  · exact (Quaternion.re_star q.toAlgebra).symm
  · rfl
  · rfl
  · rfl

theorem normSq_toAlgebra (q : Quaternion R) :
    Quaternion.normSq q.toAlgebra = quaternionSquares q := by
  rw [Quaternion.normSq_def', pow_two, pow_two, pow_two, pow_two]
  rfl

private theorem quaternionMult_assoc (a b c : Quaternion R) :
    quaternionMult (quaternionMult a b) c =
      quaternionMult a (quaternionMult b c) := by
  apply toAlgebra_injective
  simp only [toAlgebra_mult, mul_assoc]

private theorem quaternionMult_add (a b c : Quaternion R) :
    quaternionMult a (quaternionAdd b c) =
      quaternionAdd (quaternionMult a b) (quaternionMult a c) := by
  apply toAlgebra_injective
  simp only [toAlgebra_mult, toAlgebra_add, mul_add]

private theorem quaternionAdd_mult (a b c : Quaternion R) :
    quaternionMult (quaternionAdd a b) c =
      quaternionAdd (quaternionMult a c) (quaternionMult b c) := by
  apply toAlgebra_injective
  simp only [toAlgebra_mult, toAlgebra_add, add_mul]

private theorem quaternionMult_sub (a b c : Quaternion R) :
    quaternionMult a (quaternionSub b c) =
      quaternionSub (quaternionMult a b) (quaternionMult a c) := by
  apply toAlgebra_injective
  simp only [toAlgebra_mult, toAlgebra_sub, mul_sub]

private theorem quaternionSub_mult (a b c : Quaternion R) :
    quaternionMult (quaternionSub a b) c =
      quaternionSub (quaternionMult a c) (quaternionMult b c) := by
  apply toAlgebra_injective
  simp only [toAlgebra_mult, toAlgebra_sub, sub_mul]

private theorem quaternionUnit_mult (a : Quaternion R) :
    quaternionMult quaternionUnit a = a := by
  apply toAlgebra_injective
  rw [toAlgebra_mult, toAlgebra_unit, one_mul]

private theorem quaternionMult_unit (a : Quaternion R) :
    quaternionMult a quaternionUnit = a := by
  apply toAlgebra_injective
  rw [toAlgebra_mult, toAlgebra_unit, mul_one]

private theorem quaternionConj_mult (a b : Quaternion R) :
    quaternionConj (quaternionMult a b) =
      quaternionMult (quaternionConj b) (quaternionConj a) := by
  apply toAlgebra_injective
  simp only [toAlgebra_conj, toAlgebra_mult, star_mul]

private theorem quaternionMultf_mult (a b : Quaternion R) (f : R) :
    quaternionMult (quaternionMultf a f) b =
      quaternionMultf (quaternionMult a b) f := by
  apply toAlgebra_injective
  simp only [toAlgebra_mult, toAlgebra_multf, smul_mul_assoc]

private theorem quaternionMult_multf (a b : Quaternion R) (f : R) :
    quaternionMult a (quaternionMultf b f) =
      quaternionMultf (quaternionMult a b) f := by
  apply toAlgebra_injective
  simp only [toAlgebra_mult, toAlgebra_multf, mul_smul_comm]

private theorem quaternionSquares_mult (a b : Quaternion R) :
    quaternionSquares (quaternionMult a b) =
      quaternionSquares a * quaternionSquares b := by
  rw [← normSq_toAlgebra, ← normSq_toAlgebra, ← normSq_toAlgebra,
    toAlgebra_mult, map_mul]

/-- The laws of an algebra with an involution and a multiplicative norm. -/
structure QuaternionLaws (a b c : Quaternion R) (f : R) : Prop where
  assoc : quaternionMult (quaternionMult a b) c =
    quaternionMult a (quaternionMult b c)
  mult_add : quaternionMult a (quaternionAdd b c) =
    quaternionAdd (quaternionMult a b) (quaternionMult a c)
  add_mult : quaternionMult (quaternionAdd a b) c =
    quaternionAdd (quaternionMult a c) (quaternionMult b c)
  mult_sub : quaternionMult a (quaternionSub b c) =
    quaternionSub (quaternionMult a b) (quaternionMult a c)
  sub_mult : quaternionMult (quaternionSub a b) c =
    quaternionSub (quaternionMult a c) (quaternionMult b c)
  unit_mult : quaternionMult ⟨1, 0, 0, 0⟩ a = a
  mult_unit : quaternionMult a ⟨1, 0, 0, 0⟩ = a
  conj_mult : quaternionConj (quaternionMult a b) =
    quaternionMult (quaternionConj b) (quaternionConj a)
  multf_mult : quaternionMult (quaternionMultf a f) b =
    quaternionMultf (quaternionMult a b) f
  mult_multf : quaternionMult a (quaternionMultf b f) =
    quaternionMultf (quaternionMult a b) f
  squares_mult : quaternionSquares (quaternionMult a b) =
    quaternionSquares a * quaternionSquares b

private theorem quaternionLaws (a b c : Quaternion R) (f : R) :
    QuaternionLaws a b c f where
  assoc := quaternionMult_assoc a b c
  mult_add := quaternionMult_add a b c
  add_mult := quaternionAdd_mult a b c
  mult_sub := quaternionMult_sub a b c
  sub_mult := quaternionSub_mult a b c
  unit_mult := quaternionUnit_mult a
  mult_unit := quaternionMult_unit a
  conj_mult := quaternionConj_mult a b
  multf_mult := quaternionMultf_mult a b f
  mult_multf := quaternionMult_multf a b f
  squares_mult := quaternionSquares_mult a b

/-- The functions of vector.c have these laws, and quaternion_norm divides by the
root of what the last of them is about. -/
theorem quaternion_laws (a b c : Quaternion R) (f : R) :
    QuaternionLaws a b c f ∧
      ∀ {F : Type} [CMath F] (q : Quaternion F),
        quaternionNorm q =
          { q1 := q.q1 / CMath.sqrt (quaternionSquares q)
            q2 := q.q2 / CMath.sqrt (quaternionSquares q)
            q3 := q.q3 / CMath.sqrt (quaternionSquares q)
            q4 := q.q4 / CMath.sqrt (quaternionSquares q) } :=
  ⟨quaternionLaws a b c f, fun q => quaternionNorm_divides_root q⟩

def Vector3.toFun (v : Vector3 R) : Fin 3 → R := ![v.x, v.y, v.z]

/-- What z of vector3_cross lacks. -/
def crossGap (a b : Vector3 R) : R :=
  (a.y * b.z - a.z * b.y) + (a.x * b.y - a.y * b.x)

private theorem vector3Cross_toFun (a b : Vector3 R) :
    a.toFun ⨯₃ b.toFun =
      (vector3Cross a b).toFun + ![0, 0, crossGap a b] := by
  have third : a.x * b.y - a.y * b.x =
      a.z * b.y - a.y * b.z + crossGap a b := by
    unfold crossGap
    ring
  rw [cross_apply]
  ext index
  fin_cases index
  · simp [Vector3.toFun, vector3Cross]
  · simp [Vector3.toFun, vector3Cross]
  · simpa [Vector3.toFun, vector3Cross] using third

private theorem vector3Cross_eq_crossProduct_iff (a b : Vector3 R) :
    (vector3Cross a b).toFun = a.toFun ⨯₃ b.toFun ↔ crossGap a b = 0 := by
  rw [vector3Cross_toFun, left_eq_add]
  constructor
  · intro zero
    exact congrFun zero 2
  · intro zero
    rw [zero]
    ext index
    fin_cases index <;> rfl

private theorem vector3Cross_dot_left (a b : Vector3 R) :
    vector3Dot (vector3Cross a b) a = -(crossGap a b * a.z) := by
  simp only [vector3Dot, vector3Cross, crossGap]
  ring

private theorem vector3Cross_dot_right (a b : Vector3 R) :
    vector3Dot (vector3Cross a b) b = -(crossGap a b * b.z) := by
  simp only [vector3Dot, vector3Cross, crossGap]
  ring

private theorem vector3Cross_antisymmetric (a b : Vector3 R) :
    vector3Cross b a = vector3Mult (vector3Cross a b) (-1) := by
  simp only [vector3Cross, vector3Mult, Vector3.mk.injEq]
  refine ⟨?_, ?_, ?_⟩ <;> ring

private theorem vector3Cross_add_left (a b c : Vector3 R) :
    vector3Cross (vector3Add a c) b =
      vector3Add (vector3Cross a b) (vector3Cross c b) := by
  simp only [vector3Cross, vector3Add, Vector3.mk.injEq]
  refine ⟨?_, ?_, ?_⟩ <;> ring

private theorem vector3Cross_mult_left (a b : Vector3 R) (f : R) :
    vector3Cross (vector3Mult a f) b = vector3Mult (vector3Cross a b) f := by
  simp only [vector3Cross, vector3Mult, Vector3.mk.injEq]
  refine ⟨?_, ?_, ?_⟩ <;> ring

private theorem vector3Add_mult (a b : Vector3 R) (f : R) :
    vector3Mult (vector3Add a b) f =
      vector3Add (vector3Mult a f) (vector3Mult b f) := by
  simp only [vector3Add, vector3Mult, add_mul]

private theorem vector3Mult_mult (a : Vector3 R) (f g : R) :
    vector3Mult (vector3Mult a f) g = vector3Mult a (f * g) := by
  simp only [vector3Mult, mul_assoc]

private theorem vector3Cross_add_right (a b c : Vector3 R) :
    vector3Cross a (vector3Add b c) =
      vector3Add (vector3Cross a b) (vector3Cross a c) := by
  rw [vector3Cross_antisymmetric _ a, vector3Cross_add_left, vector3Add_mult,
    ← vector3Cross_antisymmetric, ← vector3Cross_antisymmetric]

private theorem vector3Cross_mult_right (a b : Vector3 R) (f : R) :
    vector3Cross a (vector3Mult b f) = vector3Mult (vector3Cross a b) f := by
  rw [vector3Cross_antisymmetric _ a, vector3Cross_mult_left,
    vector3Mult_mult, mul_comm f, ← vector3Mult_mult,
    ← vector3Cross_antisymmetric]

/-- By how much Lagrange's identity fails. -/
theorem vector3Cross_lagrange (a b : Vector3 R) :
    vector3Dot (vector3Cross a b) (vector3Cross a b) +
        vector3Dot a b * vector3Dot a b =
      vector3Dot a a * vector3Dot b b +
        (2 * (crossGap a b * b.z * a.y - crossGap a b * a.z * b.y) -
          crossGap a b * crossGap a b) := by
  simp only [vector3Dot, vector3Cross, crossGap]
  ring

structure CrossProduct (a b : Vector3 R) : Prop where
  dot_left : vector3Dot (vector3Cross a b) a = 0
  dot_right : vector3Dot (vector3Cross a b) b = 0
  antisymmetric : vector3Cross b a = vector3Mult (vector3Cross a b) (-1)
  add_left : ∀ c, vector3Cross (vector3Add a c) b =
    vector3Add (vector3Cross a b) (vector3Cross c b)
  add_right : ∀ c, vector3Cross a (vector3Add b c) =
    vector3Add (vector3Cross a b) (vector3Cross a c)
  mult_left : ∀ f, vector3Cross (vector3Mult a f) b =
    vector3Mult (vector3Cross a b) f
  mult_right : ∀ f, vector3Cross a (vector3Mult b f) =
    vector3Mult (vector3Cross a b) f
  lagrange : vector3Dot (vector3Cross a b) (vector3Cross a b) +
      vector3Dot a b * vector3Dot a b =
    vector3Dot a a * vector3Dot b b

theorem crossProduct_iff (a b : Vector3 R) :
    CrossProduct a b ↔
      crossGap a b * a.z = 0 ∧ crossGap a b * b.z = 0 ∧
        crossGap a b * crossGap a b = 0 := by
  have lagrange := vector3Cross_lagrange a b
  constructor
  · intro cross
    have left := vector3Cross_dot_left a b
    have right := vector3Cross_dot_right a b
    rw [cross.dot_left, zero_eq_neg] at left
    rw [cross.dot_right, zero_eq_neg] at right
    refine ⟨left, right, ?_⟩
    rw [cross.lagrange, left, right, zero_mul, zero_mul, sub_zero, mul_zero,
      zero_sub, left_eq_add, neg_eq_zero] at lagrange
    exact lagrange
  · rintro ⟨left, right, square⟩
    rw [left, right, square, zero_mul, zero_mul, sub_zero, sub_zero, mul_zero,
      add_zero] at lagrange
    constructor
    · rw [vector3Cross_dot_left, left, neg_zero]
    · rw [vector3Cross_dot_right, right, neg_zero]
    · exact vector3Cross_antisymmetric a b
    · exact vector3Cross_add_left a b
    · exact vector3Cross_add_right a b
    · exact vector3Cross_mult_left a b
    · exact vector3Cross_mult_right a b
    · exact lagrange

/-- Without nilpotents the condition is that z is right. -/
theorem crossGap_conditions_iff [IsReduced R] (a b : Vector3 R) :
    (crossGap a b * a.z = 0 ∧ crossGap a b * b.z = 0 ∧
        crossGap a b * crossGap a b = 0) ↔
      (vector3Cross a b).toFun = a.toFun ⨯₃ b.toFun := by
  rw [vector3Cross_eq_crossProduct_iff]
  constructor
  · rintro ⟨-, -, square⟩
    rw [← pow_two] at square
    exact eq_zero_of_pow_eq_zero square
  · intro zero
    rw [zero, zero_mul, zero_mul, zero_mul]
    exact ⟨rfl, rfl, rfl⟩

/-- x × y is 0 and not z. -/
theorem crossProduct_axes_fails :
    vector3Cross (⟨1, 0, 0⟩ : Vector3 Int) ⟨0, 1, 0⟩ = ⟨0, 0, 0⟩ ∧
      ¬ CrossProduct (⟨1, 0, 0⟩ : Vector3 Int) ⟨0, 1, 0⟩ := by
  constructor
  · decide
  · intro cross
    exact absurd cross.lagrange (by decide)

end Quadcopter

end

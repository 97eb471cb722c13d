import Quadcopter.Library.EulerAngles
import Quadcopter.M3.AttitudeRotation
import Quadcopter.M3.VectorAlgebra

/-
The angles of the attitude (panda/m3/vector.c, quaternion_to_angles), over exact
real arithmetic: roll about x, then pitch about y, then yaw about z is the
attitude again, as long as the pitch is not upright.
-/

namespace Quadcopter

open Real (sin cos)

/-- The entries of the rotation matrix that quaternion_to_angles uses. -/
def Quaternion.edges (q : Quaternion ℝ) : EulerAngles.Edges :=
  EulerAngles.edges q.toAlgebra

noncomputable def quaternionToAnglesReal : Quaternion ℝ → Vector3 ℝ :=
  @quaternionToAngles ℝ realMath

noncomputable def angleGetReal : AngleState ℝ → Vector3 ℝ :=
  @angleGet ℝ realMath

section

variable {q : Quaternion ℝ}

private theorem squares_toAlgebra (unit : q.sq = 1) :
    EulerAngles.squares q.toAlgebra = 1 := by
  rw [← unit]
  unfold Quaternion.sq EulerAngles.squares Quaternion.toAlgebra
  ring

private theorem third1_eq (q : Quaternion ℝ) :
    q.edges.third1 = -(2 * (q.q1 * q.q3 - q.q4 * q.q2)) := by
  unfold Quaternion.edges EulerAngles.edges Quaternion.toAlgebra
  ring

private theorem third3_eq (unit : q.sq = 1) :
    q.edges.third3 = 1 - 2 * (q.q2 * q.q2 + q.q3 * q.q3) := by
  rw [← unit]
  unfold Quaternion.edges EulerAngles.edges Quaternion.toAlgebra Quaternion.sq
  ring

private theorem first1_eq (unit : q.sq = 1) :
    q.edges.first1 = 1 - 2 * (q.q3 * q.q3 + q.q4 * q.q4) := by
  rw [← unit]
  unfold Quaternion.edges EulerAngles.edges Quaternion.toAlgebra Quaternion.sq
  ring

private theorem quaternionToAngles_eq (unit : q.sq = 1) :
    quaternionToAnglesReal q =
      ⟨q.edges.roll, q.edges.pitch, q.edges.yaw⟩ := by
  have one : ((1 : Int) : ℝ) = 1 := Int.cast_one
  have two : ((2 : Int) : ℝ) = 2 := by norm_num
  unfold EulerAngles.Edges.roll EulerAngles.Edges.pitch EulerAngles.Edges.yaw
  rw [third1_eq, third3_eq unit, first1_eq unit, neg_neg, ← one, ← two]
  rfl

private theorem gravity_eq (unit : q.sq = 1) :
    gravity q = ⟨q.edges.third1, q.edges.third2, q.edges.third3⟩ := by
  rw [third1_eq, third3_eq unit]
  unfold gravity Quaternion.edges EulerAngles.edges Quaternion.toAlgebra
  rw [Vector3.ext_iff']
  refine ⟨?_, rfl, ?_⟩ <;>
  · dsimp only
    ring

end

/-- The attitude is the turn by `v.x` about x, then by `v.y` about y, then by
`v.z` about z. -/
def Quaternion.TurnedBy (q : Quaternion ℝ) (v : Vector3 ℝ) : Prop :=
  q.toAlgebra = EulerAngles.turned v.x v.y v.z ∨
    q.toAlgebra = -EulerAngles.turned v.x v.y v.z

structure AnglesOf (q : Quaternion ℝ) (v : Vector3 ℝ) : Prop where
  roll : v.x ∈ Set.Ioc (-Real.pi) Real.pi
  pitch : v.y ∈ Set.Icc (-(Real.pi / 2)) (Real.pi / 2)
  yaw : v.z ∈ Set.Ioc (-Real.pi) Real.pi
  expects : gravity q = ⟨-sin v.y, cos v.y * sin v.x, cos v.y * cos v.x⟩
  rebuilds : q.TurnedBy v ↔
    (@asinArgument ℝ realMath q ^ 2 ≠ 1 ∨ q.q2 = 0)
  only : ∀ w : Vector3 ℝ, w.x ∈ Set.Ioc (-Real.pi) Real.pi →
    w.y ∈ Set.Ioo (-(Real.pi / 2)) (Real.pi / 2) →
    w.z ∈ Set.Ioc (-Real.pi) Real.pi → q.TurnedBy w → v = w

private theorem Quaternion.TurnedBy.edges_eq {q : Quaternion ℝ} {w : Vector3 ℝ}
    (turned : q.TurnedBy w) :
    q.edges = EulerAngles.edges (EulerAngles.turned w.x w.y w.z) := by
  unfold Quaternion.edges
  rcases turned with same | opposite
  · rw [same]
  · rw [opposite, EulerAngles.edges_neg]

private theorem anglesOf_unit {q : Quaternion ℝ} (unit : q.sq = 1) :
    AnglesOf q (quaternionToAnglesReal q) := by
  have squares := squares_toAlgebra unit
  have same := EulerAngles.edges_turned_self squares
  rw [quaternionToAngles_eq unit]
  constructor
  · exact ⟨Complex.neg_pi_lt_arg _, Complex.arg_le_pi _⟩
  · exact Real.arcsin_mem_Icc _
  · exact ⟨Complex.neg_pi_lt_arg _, Complex.arg_le_pi _⟩
  · rw [gravity_eq unit]
    unfold EulerAngles.Edges.turned at same
    rw [EulerAngles.edges_turned] at same
    obtain ⟨third1, third2, third3, _, _⟩ := EulerAngles.Edges.ext_iff.mp same
    exact Vector3.ext_iff'.mpr ⟨third1.symm, third2.symm, third3.symm⟩
  · have upright : 1 - q.edges.third1 ^ 2 ≠ 0 ↔
        @asinArgument ℝ realMath q ^ 2 ≠ 1 := by
      rw [third1_eq, neg_sq, asinArgument_real]
      exact not_congr (sub_eq_zero.trans eq_comm)
    rw [← upright]
    exact EulerAngles.rebuilt_iff squares
  · intro w roll pitch yaw turned
    rw [turned.edges_eq]
    obtain ⟨x_eq, y_eq, z_eq⟩ := EulerAngles.angles_of_turned roll pitch yaw
    exact Vector3.ext_iff'.mpr ⟨x_eq, y_eq, z_eq⟩

private theorem runSteps_unit {calls : List (AngleCall ℝ)} (some : calls ≠ [])
    (clear : EveryStep performReal NormalisesNoZero staticAngle calls) :
    (runSteps performReal staticAngle calls).q.sq = 1 := by
  rcases List.eq_nil_or_concat calls with none | ⟨first, last, split⟩
  · exact absurd none some
  · rw [List.concat_eq_append] at split
    subst split
    rw [runSteps_append]
    exact perform_unit (EveryStep.append.mp clear).2.1

/-- In every run of the filter the angles rebuild the attitude, unless it is
upright and also turned about the vertical. -/
theorem angles_of_attitude {calls : List (AngleCall ℝ)} (begun : calls ≠ [])
    (clear : EveryStep performReal NormalisesNoZero staticAngle calls) :
    AnglesOf (runSteps performReal staticAngle calls).q
      (angleGetReal (runSteps performReal staticAngle calls)) :=
  anglesOf_unit (runSteps_unit begun clear)

/-- Level at first, and then turning with gravity read along x. -/
theorem angles_of_attitude_turning :
    AnglesOf
      (runSteps performReal staticAngle
        [.angleInit 1 0 0, .angleUpdate ⟨1, 2, 3⟩ ⟨1, 0, 0⟩]).q
      (angleGetReal (runSteps performReal staticAngle
        [.angleInit 1 0 0, .angleUpdate ⟨1, 2, 3⟩ ⟨1, 0, 0⟩])) := by
  apply angles_of_attitude (List.cons_ne_nil _ _)
  exact ⟨fun _ none => absurd none List.not_mem_nil, turning_clear, trivial⟩

end Quadcopter

import Mathlib

/-
Vectors and quaternions of floats (panda/m3/vector.c).

The functions are over any type with the operations they use.  `CMath` is what C's
arithmetic on floats and math.h provide; `CFloat` adds the conversions and the
binary32 representation.
-/

namespace Quadcopter

class CMath (R : Type) extends Add R, Sub R, Mul R, Div R, Neg R, IntCast R,
    OfScientific R where
  sqrt : R → R
  asin : R → R
  atan2 : R → R → R

class CFloat (R : Type) extends CMath R where
  -- the cast to int
  toInt : R → Int32
  -- int() of Python, which raises on a value that is not finite
  truncate : R → Option Int
  ofBits : UInt32 → R
  toBits : R → UInt32
  ofBits_toBits : ∀ value, ofBits (toBits value) = value
  zero_ne_one : ((0 : Int) : R) ≠ ((1 : Int) : R)

instance : CFloat Float32 where
  intCast := Float32.ofInt
  sqrt := Float32.sqrt
  asin := Float32.asin
  atan2 := Float32.atan2
  toInt := Float32.toInt32
  truncate := fun value =>
    if value.isFinite then some (value.toModel.unpack.toInt 0 0) else none
  ofBits := Float32.ofBits
  toBits := Float32.toBits
  ofBits_toBits := Float32.ofBits_toBits
  zero_ne_one := by decide

variable {R : Type}

structure Vector3 (R : Type) where
  x : R
  y : R
  z : R
deriving DecidableEq

def vector3Mag [CMath R] (v : Vector3 R) : R :=
  CMath.sqrt (v.x * v.x + v.y * v.y + v.z * v.z)

def vector3Dot [Add R] [Mul R] (a b : Vector3 R) : R :=
  a.x * b.x + a.y * b.y + a.z * b.z

def vector3Cross [Sub R] [Mul R] (a b : Vector3 R) : Vector3 R :=
  { x := a.y * b.z - a.z * b.y
    y := a.z * b.x - a.x * b.z
    z := a.z * b.y - a.y * b.z }

def vector3Div [Div R] (v : Vector3 R) (f : R) : Vector3 R :=
  { x := v.x / f
    y := v.y / f
    z := v.z / f }

def vector3Mult [Mul R] (v : Vector3 R) (f : R) : Vector3 R :=
  { x := v.x * f
    y := v.y * f
    z := v.z * f }

def vector3Norm [CMath R] (v : Vector3 R) : Vector3 R :=
  vector3Div v (vector3Mag v)

def vector3Add [Add R] (a b : Vector3 R) : Vector3 R :=
  { x := a.x + b.x
    y := a.y + b.y
    z := a.z + b.z }

def vector3SubEq [Sub R] (diff b : Vector3 R) : Vector3 R :=
  { x := diff.x - b.x
    y := diff.y - b.y
    z := diff.z - b.z }

structure Quaternion (R : Type) where
  q1 : R
  q2 : R
  q3 : R
  q4 : R
deriving DecidableEq

def quaternionMult [Add R] [Sub R] [Mul R] (a b : Quaternion R) :
    Quaternion R :=
  { q1 := a.q1 * b.q1 - a.q2 * b.q2 - a.q3 * b.q3 - a.q4 * b.q4
    q2 := a.q1 * b.q2 + a.q2 * b.q1 + a.q3 * b.q4 - a.q4 * b.q3
    q3 := a.q1 * b.q3 - a.q2 * b.q4 + a.q3 * b.q1 + a.q4 * b.q2
    q4 := a.q1 * b.q4 + a.q2 * b.q3 - a.q3 * b.q2 + a.q4 * b.q1 }

def quaternionMultf [Mul R] (q : Quaternion R) (f : R) : Quaternion R :=
  { q1 := q.q1 * f
    q2 := q.q2 * f
    q3 := q.q3 * f
    q4 := q.q4 * f }

def quaternionAdd [Add R] (a b : Quaternion R) : Quaternion R :=
  { q1 := a.q1 + b.q1
    q2 := a.q2 + b.q2
    q3 := a.q3 + b.q3
    q4 := a.q4 + b.q4 }

def quaternionSub [Sub R] (a b : Quaternion R) : Quaternion R :=
  { q1 := a.q1 - b.q1
    q2 := a.q2 - b.q2
    q3 := a.q3 - b.q3
    q4 := a.q4 - b.q4 }

def quaternionNorm [CMath R] (q : Quaternion R) : Quaternion R :=
  let norm :=
    CMath.sqrt (q.q1 * q.q1 + q.q2 * q.q2 + q.q3 * q.q3 + q.q4 * q.q4)
  { q1 := q.q1 / norm
    q2 := q.q2 / norm
    q3 := q.q3 / norm
    q4 := q.q4 / norm }

def quaternionConj [Neg R] (q : Quaternion R) : Quaternion R :=
  { q1 := q.q1
    q2 := -q.q2
    q3 := -q.q3
    q4 := -q.q4 }

def quaternionToAngles [CMath R] (q : Quaternion R) : Vector3 R :=
  let one : R := (1 : Int)
  let two : R := (2 : Int)
  { x := CMath.atan2 (two * (q.q1 * q.q2 + q.q3 * q.q4))
      (one - two * (q.q2 * q.q2 + q.q3 * q.q3))
    y := CMath.asin (two * (q.q1 * q.q3 - q.q4 * q.q2))
    z := CMath.atan2 (two * (q.q1 * q.q4 + q.q2 * q.q3))
      (one - two * (q.q3 * q.q3 + q.q4 * q.q4)) }

end Quadcopter

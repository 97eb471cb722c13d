import Quadcopter.M3.Vector

/-
The attitude filter (panda/m3/angle.c), as it is compiled: without MARG and
without DRIFT_CORRECTION.  angle_init also registers a command; that part is with
the handlers.
-/

namespace Quadcopter

structure AngleState (R : Type) where
  q : Quaternion R
  gyroBiasGain : R
  errorGain : R
  dt : R
deriving DecidableEq

variable {R : Type} [CMath R]

def AngleState.init (newDt newGyroBiasGain newErrorGain : R) : AngleState R :=
  { q :=
      { q1 := (1 : Int)
        q2 := (0 : Int)
        q3 := (0 : Int)
        q4 := (0 : Int) }
    gyroBiasGain := newGyroBiasGain
    errorGain := newErrorGain
    dt := newDt }

/-- The objective function fg. -/
def objective (q : Quaternion R) (accel : Vector3 R) : Vector3 R :=
  let q1q2 := q.q1 * q.q2
  let q1q3 := q.q1 * q.q3
  let q2q2 := q.q2 * q.q2
  let q2q4 := q.q2 * q.q4
  let q3q3 := q.q3 * q.q3
  let q3q4 := q.q3 * q.q4
  { x := 2.0 * (q2q4 - q1q3) - accel.x
    y := 2.0 * (q1q2 + q3q4) - accel.y
    z := 2.0 * (0.5 - q2q2 - q3q3) - accel.z }

/-- Jgfg: the objective multiplied by its jacobian. -/
def gradient (q : Quaternion R) (fg : Vector3 R) : Quaternion R :=
  { q1 := 2.0 * (-fg.x * q.q3 + fg.y * q.q2)
    q2 := 2.0 * (fg.x * q.q4 + fg.y * q.q1 - 2.0 * fg.z * q.q2)
    q3 := 2.0 * (-fg.x * q.q1 + fg.y * q.q4 - 2.0 * fg.z * q.q3)
    q4 := 2.0 * (fg.x * q.q2 + fg.y * q.q3) }

def angleUpdate (gyro accel : Vector3 R) (angle : AngleState R) :
    AngleState R :=
  let q := angle.q
  let gradF := quaternionNorm (gradient q (objective q accel))
  let gyroIn : Quaternion R :=
    { q1 := (0 : Int)
      q2 := gyro.x
      q3 := gyro.y
      q4 := gyro.z }
  let gyroIn := quaternionMultf (quaternionMult q gyroIn) 0.5
  let gradF := quaternionMultf gradF angle.errorGain
  let qInt := quaternionMultf (quaternionSub gyroIn gradF) angle.dt
  { angle with q := quaternionNorm (quaternionAdd q qInt) }

def angleGet (angle : AngleState R) : Vector3 R := quaternionToAngles angle.q

end Quadcopter

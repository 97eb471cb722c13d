import Quadcopter.Library.Absorbing
import Quadcopter.M3.Control

/-
A tick in which the gyro or the accelerometer cannot be read.

sensors_get_data returns -1 before it has assigned the acceleration, and
control_update does not look at what it returns: the attitude is advanced with
what the structure held before.
-/

namespace Quadcopter

variable {R : Type}

private theorem sensorsGetData_stale [CMath R] (sensors : SensorsState R)
    {gyro accel : Option Buffer} (stack : SensorData R)
    (failed : gyro = none ∨ accel = none) :
    (sensorsGetData sensors gyro accel none stack false).2.accel =
      stack.accel := by
  cases gyro with
  | none => rfl
  | some gyro =>
      cases accel with
      | none => rfl
      | some accel => simp at failed

def Vector3.same (value : R) : Vector3 R := ⟨value, value, value⟩

def Quaternion.same (value : R) : Quaternion R := ⟨value, value, value, value⟩

section

variable [CMath R] {lost : R} (absorbing : Absorbing lost)

include absorbing

private theorem objective_lost (q : Quaternion R) :
    objective q (.same lost) = .same lost := by
  simp only [objective, Vector3.same, absorbing.sub_right]

private theorem gradient_lost (q : Quaternion R) :
    gradient q (.same lost) = .same lost := by
  simp only [gradient, Vector3.same, Quaternion.same, absorbing.neg,
    absorbing.mul_left, absorbing.mul_right, absorbing.add_left,
    absorbing.sub_left]

private theorem quaternionNorm_lost :
    quaternionNorm (Quaternion.same lost) = .same lost := by
  simp only [quaternionNorm, Quaternion.same, absorbing.div_left]

/-- An acceleration that is no number takes the whole attitude with it. -/
theorem angleUpdate_lost_accel (gyro : Vector3 R) (angle : AngleState R) :
    (angleUpdate gyro (.same lost) angle).q = .same lost := by
  unfold angleUpdate
  simp only [objective_lost absorbing, gradient_lost absorbing,
    quaternionNorm_lost absorbing]
  simp only [quaternionAdd, quaternionSub, quaternionMultf, Quaternion.same,
    absorbing.mul_left, absorbing.sub_right, absorbing.add_right]
  exact quaternionNorm_lost absorbing

private theorem angleUpdate_lost (gyro accel : Vector3 R) {angle : AngleState R}
    (lost_already : angle.q = .same lost) :
    angleUpdate gyro accel angle = angle := by
  have after : (angleUpdate gyro accel angle).q = .same lost := by
    unfold angleUpdate
    rw [lost_already]
    simp only [quaternionAdd, Quaternion.same, absorbing.add_left]
    exact quaternionNorm_lost absorbing
  have unchanged : angleUpdate gyro accel angle =
      { angle with q := (angleUpdate gyro accel angle).q } := rfl
  rw [unchanged, after, ← lost_already]

end

def TickInput.withStale (input : TickInput R) (stale : SensorData R) : TickInput R :=
  { input with stack := stale }

section

variable [CFloat R]

/-- The attitude is left as it was, and what the tick makes of it, the PIDs'
states and the motors does not depend on what the structure held. -/
structure Undisturbed (input : TickInput R) (flight : Flight R) : Prop where
  attitude : ∀ stale, (flyTick (input.withStale stale) flight).2.angle = flight.angle
  pids : ∀ stale other,
    let tick := (flyTick (input.withStale stale) flight).2.control
    let again := (flyTick (input.withStale other) flight).2.control
    tick.pidPitch = again.pidPitch ∧ tick.pidRoll = again.pidRoll ∧
      tick.pidYaw = again.pidYaw
  motors : ∀ stale other,
    (flyTick (input.withStale stale) flight).1 =
        (flyTick (input.withStale other) flight).1 ∧
      (flyTick (input.withStale stale) flight).2.pwm =
        (flyTick (input.withStale other) flight).2.pwm

variable {lost : R} (absorbing : Absorbing lost) {input : TickInput R}
  (failed : input.gyro = none ∨ input.accel = none) {flight : Flight R}

include failed in
private theorem flyTick_stale_angle (stale : SensorData R) :
    ∃ rates : Vector3 R,
      (flyTick (input.withStale stale) flight).2.angle =
        angleUpdate rates stale.accel flight.angle := by
  unfold flyTick TickInput.withStale
  dsimp only
  rw [sensorsGetData_stale _ stale failed]
  exact ⟨_, rfl⟩

include absorbing failed in
private theorem undisturbed_iff :
    Undisturbed input flight ↔ flight.angle.q = .same lost := by
  constructor
  · intro undisturbed
    -- a stale acceleration that is no number
    have kept := undisturbed.attitude
      ⟨.same lost, .same lost, .same lost⟩
    obtain ⟨rates, angle⟩ := @flyTick_stale_angle R _ input failed flight
      ⟨.same lost, .same lost, .same lost⟩
    rw [← kept, angle]
    exact angleUpdate_lost_accel absorbing rates flight.angle
  · intro lost_already
    have tick : ∀ stale other,
        flyTick (input.withStale stale) flight =
          flyTick (input.withStale other) flight := by
      intro stale other
      unfold flyTick TickInput.withStale
      simp only [angleUpdate_lost absorbing _ _ lost_already]
    refine ⟨?_, ?_, ?_⟩
    · intro stale
      obtain ⟨rates, angle⟩ := @flyTick_stale_angle R _ input failed flight stale
      rw [angle]
      exact angleUpdate_lost absorbing rates stale.accel lost_already
    · intro stale other
      rw [tick stale other]
      exact ⟨rfl, rfl, rfl⟩
    · intro stale other
      rw [tick stale other]
      exact ⟨rfl, rfl⟩

end

/-- A failed read leaves the flight alone exactly when the attitude has been lost
already. -/
theorem failed_read_undisturbed_iff (input : TickInput Float32)
    (flight : Flight Float32) (failed : input.gyro = none ∨ input.accel = none) :
    Undisturbed input flight ↔ flight.angle.q = .same float32NaN :=
  undisturbed_iff float32NaN_absorbing failed

def noReading : TickInput Float32 :=
  { calibrateStack := ⟨0, 0, 0⟩
    calibrateGyro := none
    calibrateAccel := none
    stack := ⟨.same 0, .same 0, .same 0⟩
    gyro := none
    accel := none }

def readyFlight : Flight Float32 :=
  (flightStart (fun _ => ⟨0, 0, 0, 0, 0⟩) (fun _ => ⟨0, 0, 0, 0, 0⟩)
    ⟨0, 0, fun _ => 0⟩ ⟨0, 0, fun _ => 0⟩).state.m3.rest

theorem failed_read_undisturbed_iff_of_lost :
    Undisturbed noReading
      { readyFlight with angle := { readyFlight.angle with
          q := .same float32NaN } } :=
  (failed_read_undisturbed_iff noReading _ (Or.inl rfl)).mpr rfl

/-- In the first tick a failed read disturbs the attitude. -/
theorem failed_read_disturbs : ¬ Undisturbed noReading readyFlight := by
  intro undisturbed
  have lost := (undisturbed_iff float32NaN_absorbing (Or.inl rfl)).mp undisturbed
  have component := congrArg Quaternion.q1 lost
  exact absurd component (by decide)

end Quadcopter

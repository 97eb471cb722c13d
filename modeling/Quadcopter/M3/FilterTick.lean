import Quadcopter.M3.Control

/-
The attitude filter within a tick: what control_update does with the sensors and
the attitude, and the vectors that it normalises on the way.

The readings of sensors_get_data succeed.  control_update never asks for the
magnetometer; a call that does is covered as well.
-/

namespace Quadcopter

variable {R : Type}

structure FilterState (R : Type) where
  calibrating : Bool
  sensors : SensorsState R
  angle : AngleState R

/-- What a tick reads, and the gains that its command_process sets, if it calls
update_gains. -/
structure FilterInput (R : Type) where
  calibrateStack : Axes
  calibrateGyro : Option Buffer
  calibrateAccel : Option Buffer
  stack : SensorData R
  gyro : Buffer
  accel : Buffer
  mag : Buffer
  updateMag : Bool
  gains : Option (R × R)

def Flight.filter (flight : Flight R) : FilterState R :=
  { calibrating := flight.control.calibrating
    sensors := flight.sensors
    angle := flight.angle }

section

variable [CMath R]

def filterStart : FilterState R :=
  { calibrating := true
    sensors := SensorsState.start
    angle := AngleState.init ((1 : Int) / 100.0) (0 : Int) (0 : Int) }

def filterCalibrate (input : FilterInput R) (state : FilterState R) :
    Bool × SensorsState R :=
  if state.calibrating then
    sensorsCalibrate input.calibrateStack input.calibrateGyro
      input.calibrateAccel state.sensors
  else (state.calibrating, state.sensors)

def filterData (input : FilterInput R) (sensors : SensorsState R) :
    SensorData R :=
  (sensorsGetData sensors (some input.gyro) (some input.accel)
    (some input.mag) input.stack input.updateMag).2

def filterTick (state : FilterState R) (input : FilterInput R) :
    FilterState R :=
  let calibrated := filterCalibrate input state
  let sd := filterData input calibrated.2
  let angle := angleUpdate sd.gyro sd.accel state.angle
  { calibrating := calibrated.1
    sensors := calibrated.2
    angle :=
      match input.gains with
      | none => angle
      | some gains => AngleState.init angle.dt gains.1 gains.2 }

def EveryTick (holds : FilterState R → FilterInput R → Prop)
    (state : FilterState R) : List (FilterInput R) → Prop
  | [] => True
  | input :: inputs =>
      holds state input ∧ EveryTick holds (filterTick state input) inputs

/-- Two descriptions of a tick agree over whole runs if they agree wherever an
invariant holds that the described ticks keep. -/
theorem EveryTick.congr {first second : FilterState R → FilterInput R → Prop}
    (invariant : FilterState R → Prop)
    (agree : ∀ state input, invariant state →
      (first state input ↔ second state input))
    (kept : ∀ state input, invariant state → first state input →
      invariant (filterTick state input))
    {state : FilterState R} (inputs : List (FilterInput R))
    (initial : invariant state) :
    EveryTick first state inputs ↔ EveryTick second state inputs := by
  induction inputs generalizing state with
  | nil => exact Iff.rfl
  | cons input inputs ih =>
      unfold EveryTick
      constructor
      · intro ⟨now, later⟩
        have next := kept state input initial now
        exact ⟨(agree state input initial).mp now, (ih next).mp later⟩
      · intro ⟨now, later⟩
        have same := (agree state input initial).mpr now
        have next := kept state input initial same
        exact ⟨same, (ih next).mpr later⟩

def gyroReading (sensors : SensorsState R) (gyro : Buffer) : Vector3 R :=
  vector3Mult
    (vector3SubEq
      { x := ((-axis (gyro 0) (gyro 1)).toInt : R)
        y := ((axis (gyro 2) (gyro 3)).toInt : R)
        z := ((axis (gyro 4) (gyro 5)).toInt : R) } sensors.gyroOffset)
    (0.00121414209 * 3.6)

def accelReading (sensors : SensorsState R) (accel : Buffer) : Vector3 R :=
  vector3SubEq
    { x := ((-axis (accel 1) (accel 0)).toInt : R)
      y := ((axis (accel 3) (accel 2)).toInt : R)
      z := ((-axis (accel 5) (accel 4)).toInt : R) } sensors.accelOffset

def magReading (mag : Buffer) : Vector3 R :=
  { x := ((axis (mag 2) (mag 3)).toInt : R)
    y := ((axis (mag 0) (mag 1)).toInt : R)
    z := ((-axis (mag 4) (mag 5)).toInt : R) }

def slope (q : Quaternion R) (accel : Vector3 R) : Quaternion R :=
  gradient q (objective q accel)

def advanced (gyro accel : Vector3 R) (angle : AngleState R) : Quaternion R :=
  let gyroIn : Quaternion R :=
    { q1 := (0 : Int)
      q2 := gyro.x
      q3 := gyro.y
      q4 := gyro.z }
  quaternionAdd angle.q
    (quaternionMultf
      (quaternionSub (quaternionMultf (quaternionMult angle.q gyroIn) 0.5)
        (quaternionMultf (quaternionNorm (slope angle.q accel))
          angle.errorGain))
      angle.dt)

structure NormCalls (R : Type) where
  accel : Vector3 R
  mag : Option (Vector3 R)
  gradF : Quaternion R
  q : Quaternion R

def normCalls (state : FilterState R) (input : FilterInput R) : NormCalls R :=
  let sensors := (filterCalibrate input state).2
  let sd := filterData input sensors
  { accel := accelReading sensors input.accel
    mag := if input.updateMag then some (magReading input.mag) else none
    gradF := slope state.angle.q sd.accel
    q := advanced sd.gyro sd.accel state.angle }

theorem filterData_gyro (input : FilterInput R) (sensors : SensorsState R) :
    (filterData input sensors).gyro = gyroReading sensors input.gyro := by
  unfold filterData sensorsGetData
  cases input.updateMag <;> rfl

theorem filterData_accel (input : FilterInput R) (sensors : SensorsState R) :
    (filterData input sensors).accel =
      vector3Norm (accelReading sensors input.accel) := by
  unfold filterData sensorsGetData
  cases input.updateMag <;> rfl

theorem filterTick_q (state : FilterState R) (input : FilterInput R)
    (unchanged : input.gains = none) :
    (filterTick state input).angle.q =
      quaternionNorm (normCalls state input).q := by
  unfold filterTick
  rw [unchanged]
  rfl

end

theorem flyTick_filter [CFloat R] (input : TickInput R)
    (flight : Flight R)
    (mag : Buffer) {gyro accel : Buffer} (gyro_read : input.gyro = some gyro)
    (accel_read : input.accel = some accel) :
    (flyTick input flight).2.filter =
      filterTick flight.filter
        { calibrateStack := input.calibrateStack
          calibrateGyro := input.calibrateGyro
          calibrateAccel := input.calibrateAccel
          stack := input.stack
          gyro, accel, mag
          updateMag := false
          gains := none } := by
  unfold flyTick
  rw [gyro_read, accel_read]
  rfl

end Quadcopter

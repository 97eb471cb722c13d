import Quadcopter.M3.Vector
import Quadcopter.Common.Ringbuf

/-
The sensors (panda/m3/sensors.c).

What i2c_read_regs delivers is an input: `none` if it failed, else the six bytes
it has put in the buffer.  A value left uninitialised by the code is an input as
well.
-/

namespace Quadcopter

structure Axes where
  x : Int16
  y : Int16
  z : Int16
deriving DecidableEq, Repr

def axis (high low : UInt8) : Int16 :=
  (high.toUInt16 <<< 8 ||| low.toUInt16).toInt16

/-- `none` is the return value -1, which leaves the three variables alone. -/
def getGyroData (read : Option Buffer) : Option Axes :=
  read.map (fun buf =>
    { x := -axis (buf 0) (buf 1)
      y := axis (buf 2) (buf 3)
      z := axis (buf 4) (buf 5) })

def getAccelData (read : Option Buffer) : Option Axes :=
  read.map (fun buf =>
    { x := -axis (buf 1) (buf 0)
      y := axis (buf 3) (buf 2)
      z := -axis (buf 5) (buf 4) })

def getMagData (read : Option Buffer) : Option Axes :=
  read.map (fun buf =>
    { x := axis (buf 2) (buf 3)
      y := axis (buf 0) (buf 1)
      z := -axis (buf 4) (buf 5) })

variable {R : Type}

def Axes.toVector [IntCast R] (axes : Axes) : Vector3 R :=
  { x := axes.x.toInt
    y := axes.y.toInt
    z := axes.z.toInt }

structure SensorsState (R : Type) where
  gyroOffset : Vector3 R
  accelOffset : Vector3 R
  calibrate : Int32
deriving DecidableEq

def sensorsCalibrateSamples : Int32 := 50

section

variable [CMath R]

def SensorsState.start : SensorsState R :=
  let zero : Vector3 R := { x := (0 : Int), y := (0 : Int), z := (0 : Int) }
  { gyroOffset := zero
    accelOffset := zero
    calibrate := 0 }

/-- `stack` is what x, y and z hold before the first reading; a reading that fails
leaves them as they are. -/
def sensorsCalibrate (stack : Axes) (gyro accel : Option Buffer)
    (sensors : SensorsState R) : Bool × SensorsState R :=
  if sensorsCalibrateSamples ≤ sensors.calibrate then (false, sensors)
  else
    let sensors :=
      if sensors.calibrate = 0 then
        { sensors with
          gyroOffset := SensorsState.start.gyroOffset
          accelOffset := SensorsState.start.accelOffset }
      else sensors
    let axes := (getGyroData gyro).getD stack
    let gyroOffset : Vector3 R :=
      { x := sensors.gyroOffset.x + (axes.x.toInt : R)
        y := sensors.gyroOffset.y + (axes.y.toInt : R)
        z := sensors.gyroOffset.z + (axes.z.toInt : R) }
    let axes := (getAccelData accel).getD axes
    let accelOffset : Vector3 R :=
      { x := sensors.accelOffset.x + (axes.x.toInt : R)
        y := sensors.accelOffset.y + (axes.y.toInt : R)
        z := sensors.accelOffset.z }
    let calibrate := sensors.calibrate + 1
    if sensorsCalibrateSamples ≤ calibrate then
      let samples : R := sensorsCalibrateSamples.toInt
      (false,
        { gyroOffset := vector3Div gyroOffset samples
          accelOffset :=
            { accelOffset with
              x := accelOffset.x / samples
              y := accelOffset.y / samples }
          calibrate })
    else (true, { gyroOffset, accelOffset, calibrate })

structure SensorData (R : Type) where
  gyro : Vector3 R
  accel : Vector3 R
  mag : Vector3 R
deriving DecidableEq

/-- The return value, and `data` as far as it was filled in. -/
def sensorsGetData (sensors : SensorsState R) (gyro accel mag : Option Buffer)
    (data : SensorData R) (updateMag : Bool) : Int32 × SensorData R :=
  match getGyroData gyro with
  | none => (-1, data)
  | some axes =>
      -- scale to rad/s
      let data :=
        { data with
          gyro := vector3Mult (vector3SubEq axes.toVector sensors.gyroOffset)
            (0.00121414209 * 3.6) }
      match getAccelData accel with
      | none => (-1, data)
      | some axes =>
          let data :=
            { data with
              accel := vector3Norm
                (vector3SubEq axes.toVector sensors.accelOffset) }
          if updateMag then
            match getMagData mag with
            | none => (-1, data)
            | some axes => (0, { data with mag := vector3Norm axes.toVector })
          else (0, data)

end

end Quadcopter

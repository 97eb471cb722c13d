import Quadcopter.M3.Angle
import Quadcopter.M3.Command
import Quadcopter.M3.Pid
import Quadcopter.M3.Pwm
import Quadcopter.M3.Sensors

/-
The handlers of the flight controller (panda/m3/control.c, angle.c, main.c), and
the state they work on.

DEBUG only writes to the trace ring and is left out.
-/

namespace Quadcopter

inductive HandlerFunc where
  | controlCmd
  | tuneCmd
  | armCmd
  | disarmCmd
  | updateGains
  | setMotor
deriving DecidableEq, Repr

structure ControlState (R : Type) where
  magCounter : Int32
  pidPitch : PidControl R
  pidRoll : PidControl R
  pidYaw : PidControl R
  calibrating : Bool
  throttle : UInt16
  pitch : R
  roll : R
  yaw : R
  armed : Bool
  count : Int32

structure Flight (R : Type) where
  pwm : PwmTimers
  sensors : SensorsState R
  angle : AngleState R
  control : ControlState R

abbrev FlightM3 (R : Type) : Type := M3 HandlerFunc (Flight R)

variable {R : Type}

def throttleMax : Int32 := 40000

def throttleMin : Int32 := 5000

/-- True if the maximum was exceeded. -/
def setMotorSafe (pwm : PwmDevice) (val : Int32) (timers : PwmTimers) :
    Bool × PwmTimers :=
  if val < throttleMin then (false, pwmSet pwm 0 timers)
  else if throttleMax < val then
    (true, pwmSet pwm throttleMax.toUInt32.toUInt16 timers)
  else (false, pwmSet pwm val.toUInt32.toUInt16 timers)

def setMotor (buf : Buffer) (length : UInt8) (flight : Flight R) : Flight R :=
  if length ≠ 3 then flight
  else
    let motor := buf 0
    let val := (buf 2).toUInt16 <<< 8 ||| (buf 1).toUInt16
    match motor.toNat with
    | 1 => { flight with pwm := pwmSet .pwm1 val flight.pwm }
    | 2 => { flight with pwm := pwmSet .pwm2 val flight.pwm }
    | 3 => { flight with pwm := pwmSet .pwm3 val flight.pwm }
    | 4 => { flight with pwm := pwmSet .pwm4 val flight.pwm }
    | _ => flight

section

variable [CFloat R]

def floatAt (buf : Buffer) (start : Nat) : R :=
  CFloat.ofBits (MachineInt.wordAt buf start)

def buf2Float (buf : Buffer) (off : Nat) : R := floatAt buf (off * 4)

def controlCmd (buf : Buffer) (length : UInt8) (flight : Flight R) :
    Flight R :=
  if length ≠ 3 * 4 + 2 then flight
  else
    { flight with
      control :=
        { flight.control with
          pitch := floatAt buf 0
          roll := floatAt buf 4
          yaw := floatAt buf 8
          throttle := MachineInt.halfAt buf 12 } }

/-- An invalid length is only reported. -/
def tuneCmd (buf : Buffer) (_length : UInt8) (flight : Flight R) : Flight R :=
  { flight with
    control :=
      { flight.control with
        pidPitch := pidUpdateGains flight.control.pidPitch (buf2Float buf 0)
          (buf2Float buf 1) (buf2Float buf 2)
        pidRoll := pidUpdateGains flight.control.pidRoll (buf2Float buf 3)
          (buf2Float buf 4) (buf2Float buf 5)
        pidYaw := pidUpdateGains flight.control.pidYaw (buf2Float buf 6)
          (buf2Float buf 7) (buf2Float buf 8) } }

def armCmd (_buf : Buffer) (_length : UInt8) (flight : Flight R) : Flight R :=
  { flight with control := { flight.control with armed := true } }

def disarmCmd (_buf : Buffer) (_length : UInt8) (flight : Flight R) :
    Flight R :=
  let pwm := (setMotorSafe .pwm1 0 flight.pwm).2
  let pwm := (setMotorSafe .pwm2 0 pwm).2
  let pwm := (setMotorSafe .pwm3 0 pwm).2
  let pwm := (setMotorSafe .pwm4 0 pwm).2
  { flight with
    pwm
    control := { flight.control with armed := false } }

def angleInit (newDt newGyroBiasGain newErrorGain : R) (m3 : FlightM3 R) :
    FlightM3 R :=
  commandRegister ⟨'u'.toNat, by decide⟩ (.other .updateGains)
    { m3 with
      rest :=
        { m3.rest with
          angle := .init newDt newGyroBiasGain newErrorGain } }

def updateGains (buf : Buffer) (_length : UInt8) (m3 : FlightM3 R) :
    FlightM3 R :=
  let errorGain : R := floatAt buf 0
  let gyroBiasGain : R := floatAt buf 4
  angleInit m3.rest.angle.dt gyroBiasGain errorGain m3

def callHandler (func : HandlerFunc) (buf : Buffer) (length : UInt8)
    (m3 : FlightM3 R) : FlightM3 R :=
  match func with
  | .controlCmd => { m3 with rest := controlCmd buf length m3.rest }
  | .tuneCmd => { m3 with rest := tuneCmd buf length m3.rest }
  | .armCmd => { m3 with rest := armCmd buf length m3.rest }
  | .disarmCmd => { m3 with rest := disarmCmd buf length m3.rest }
  | .updateGains => updateGains buf length m3
  | .setMotor => { m3 with rest := setMotor buf length m3.rest }

def controlDt : R := ((1 : Int) : R) / 100.0

def controlInit (m3 : FlightM3 R) : FlightM3 R :=
  let m3 := angleInit controlDt ((0 : Int) : R) ((0 : Int) : R) m3
  let control :=
    { m3.rest.control with
      pidPitch := pidInit controlDt
      pidRoll := pidInit controlDt
      pidYaw := pidInit controlDt }
  let m3 := { m3 with rest := { m3.rest with control } }
  commandRegister ⟨'s'.toNat, by decide⟩ (.other .disarmCmd)
    (commandRegister ⟨'a'.toNat, by decide⟩ (.other .armCmd)
      (commandRegister ⟨'t'.toNat, by decide⟩ (.other .tuneCmd)
        (commandRegister ⟨'o'.toNat, by decide⟩ (.other .controlCmd) m3)))

/-- What main does between command_init and the first tick. -/
def flightSetup (m3 : FlightM3 R) : FlightM3 R :=
  commandRegister ⟨'m'.toNat, by decide⟩ (.other .setMotor) (controlInit m3)

def Flight.zero (timers : PwmTimers) : Flight R :=
  { pwm := timers
    sensors := .start
    angle :=
      { q :=
          { q1 := (0 : Int)
            q2 := (0 : Int)
            q3 := (0 : Int)
            q4 := (0 : Int) }
        gyroBiasGain := (0 : Int)
        errorGain := (0 : Int)
        dt := (0 : Int) }
    control :=
      { magCounter := 0
        pidPitch := pidInit (0 : Int)
        pidRoll := pidInit (0 : Int)
        pidYaw := pidInit (0 : Int)
        calibrating := true
        throttle := 0
        pitch := (0 : Int)
        roll := (0 : Int)
        yaw := (0 : Int)
        armed := false
        count := 0 } }

/-- pwm_init, then command_init. -/
def flightInit (reset timers : PwmTimers) (txMemory rxMemory : RingMemory) :
    CommandState HandlerFunc (Flight R) :=
  let flight : Flight R := .zero timers
  commandInit txMemory rxMemory { flight with pwm := pwmInit reset flight.pwm }

end

end Quadcopter

import Quadcopter.M3.Vector

/-
The PID controllers (panda/m3/pid.c).
-/

namespace Quadcopter

structure PidControl (R : Type) where
  kp : R
  ki : R
  kd : R
  oldVal : R
  integral : R
  targetVal : R
  dt : R
deriving DecidableEq

variable {R : Type}

def pidInit [IntCast R] (dt : R) : PidControl R :=
  { kp := (0 : Int)
    ki := (0 : Int)
    kd := (0 : Int)
    oldVal := (0 : Int)
    integral := (0 : Int)
    targetVal := (0 : Int)
    dt }

def pidUpdateGains (pid : PidControl R) (p i d : R) : PidControl R :=
  { pid with kp := p, ki := i, kd := d }

def pidUpdate [Add R] [Sub R] [Mul R] [Div R] (pid : PidControl R)
    (target cur : R) : R × PidControl R :=
  let error := target - cur
  let integral := pid.integral + error * pid.dt
  let pterm := pid.kp * cur
  let iterm := pid.ki * integral
  let dterm := pid.kd * (cur - pid.oldVal) / pid.dt
  (pterm + iterm + dterm, { pid with integral, oldVal := cur })

end Quadcopter

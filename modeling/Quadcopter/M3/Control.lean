import Quadcopter.M3.FlightCommands

/-
The control loop (control_update of panda/m3/control.c), and runs of the m3.

A run interleaves ticks of the systick interrupt with the host, which writes a
byte stream into the receive ring and reads the transmit ring.
-/

namespace Quadcopter

variable {R : Type}

/-- What a tick reads from the sensors, and what its variables hold before they
are assigned. -/
structure TickInput (R : Type) where
  calibrateStack : Axes
  calibrateGyro : Option Buffer
  calibrateAccel : Option Buffer
  stack : SensorData R
  gyro : Option Buffer
  accel : Option Buffer

structure Motors where
  motor1 : Int32
  motor2 : Int32
  motor3 : Int32
  motor4 : Int32
deriving DecidableEq, Repr

def mixMotors (avgMotor pitchOut rollOut yawOut : Int32) : Motors :=
  { motor2 := avgMotor - pitchOut - yawOut
    motor4 := avgMotor + pitchOut - yawOut
    motor3 := avgMotor - rollOut + yawOut
    motor1 := avgMotor + rollOut + yawOut }

def driveMotors (motors : Motors) (timers : PwmTimers) : PwmTimers :=
  let timers := (setMotorSafe .pwm1 motors.motor1 timers).2
  let timers := (setMotorSafe .pwm2 motors.motor2 timers).2
  let timers := (setMotorSafe .pwm3 motors.motor3 timers).2
  (setMotorSafe .pwm4 motors.motor4 timers).2

section

variable [CFloat R]

/-- control_update up to its call of command_process. -/
def flyTick (input : TickInput R) (flight : Flight R) : Motors × Flight R :=
  let control := flight.control
  let avgMotor := control.throttle.toUInt32.toInt32
  let calibrated :=
    if control.calibrating then
      sensorsCalibrate input.calibrateStack input.calibrateGyro
        input.calibrateAccel flight.sensors
    else (control.calibrating, flight.sensors)
  -- the magnetometer is not read
  let sd := (sensorsGetData calibrated.2 input.gyro input.accel none
    input.stack false).2
  let angle := angleUpdate sd.gyro sd.accel flight.angle
  let angles := angleGet angle
  let pitchOut := pidUpdate control.pidPitch control.pitch angles.x
  let rollOut := pidUpdate control.pidRoll control.roll angles.y
  let motors := mixMotors avgMotor (CFloat.toInt pitchOut.1)
    (CFloat.toInt rollOut.1) 0
  (motors,
    { pwm :=
        if control.armed then driveMotors motors flight.pwm else flight.pwm
      sensors := calibrated.2
      angle
      control :=
        { control with
          magCounter := control.magCounter + 1
          pidPitch := pitchOut.2
          pidRoll := rollOut.2
          calibrating := calibrated.1 } })

def intBuffer (val : Int32) : Buffer :=
  fun offset => (MachineInt.wordBytes val.toUInt32).getD offset 0

/-- control_update after its call of command_process. -/
def reportTick (motors : Motors) (m3 : FlightM3 R) : FlightM3 R :=
  let m3 :=
    if commandConnected m3 ∧ m3.rest.control.count % 25 = 0 then
      let m3 := commandSend '2'.toUInt8 (intBuffer motors.motor1) 4 m3
      let m3 := commandSend '3'.toUInt8 (intBuffer motors.motor2) 4 m3
      let m3 := commandSend '4'.toUInt8 (intBuffer motors.motor3) 4 m3
      commandSend '5'.toUInt8 (intBuffer motors.motor4) 4 m3
    else m3
  { m3 with
    rest :=
      { m3.rest with
        control :=
          { m3.rest.control with count := m3.rest.control.count + 1 } } }

def controlUpdate (input : TickInput R)
    (state : CommandState HandlerFunc (Flight R)) :
    Except Halt (CommandState HandlerFunc (Flight R) × Option Dispatch) :=
  let flown := flyTick input state.m3.rest
  let begun := { state with m3 := { state.m3 with rest := flown.2 } }
  (commandProcess callHandler begun).map (fun done =>
    ({ done.1 with m3 := reportTick flown.1 done.1.m3 }, done.2))

inductive FlightEvent (R : Type) where
  | arrive (count : Int32)
  | hostRead (buf : Buffer) (count : Int32)
  | tick (input : TickInput R)

def CommandSystem.withM3 {F σ : Type} (system : CommandSystem F σ)
    (m3 : M3 F σ) : CommandSystem F σ :=
  { system with state := { system.state with m3 } }

variable (stream : List UInt8)

def flightStep (system : CommandSystem HandlerFunc (Flight R)) :
    FlightEvent R → Except Halt (CommandSystem HandlerFunc (Flight R))
  | .arrive count => system.step callHandler stream (.arrive count)
  | .hostRead buf count =>
      let m3 := system.state.m3
      let done := m3.txMemory.call (ringbufRead m3.rbTx buf count)
      .ok (system.withM3 { m3 with txMemory := done.2 })
  | .tick input =>
      (controlUpdate input system.state).map (fun done =>
        { system with
          state := done.1
          dispatches := system.dispatches ++ done.2.toList })

def flightRun : List (FlightEvent R) →
    CommandSystem HandlerFunc (Flight R) →
    Except Halt (CommandSystem HandlerFunc (Flight R))
  | [], system => .ok system
  | event :: events, system =>
      (flightStep stream system event).bind (flightRun events)

def flightStart (reset timers : PwmTimers) (txMemory rxMemory : RingMemory) :
    CommandSystem HandlerFunc (Flight R) :=
  .start (flightInit reset timers txMemory rxMemory) flightSetup

end

section

open CommandSystem

variable [CFloat R] {stream : List UInt8} {pending : List UInt8}
  {queue : BoundedFifo UInt8 (rxSize - 1)}
  {system : CommandSystem HandlerFunc (Flight R)}

/-- A reachable state has the table of main, and is what the frames made of the
state before. -/
theorem reachable_effect {reset timers : PwmTimers}
    {txMemory rxMemory : RingMemory} {events : List CommandEvent}
    {before : CommandSystem HandlerFunc (Flight R)}
    (ran : CommandSystem.run callHandler stream events
      (flightStart reset timers txMemory rxMemory) = .ok before) :
    before.state.m3.rest = before.dispatches.foldl Dispatch.effect
        (flightStart reset timers txMemory rxMemory).state.m3.rest ∧
      before.state.m3.cmdMap = flightTable := by
  rw [run_effects ran rfl]
  exact replay_effect (flightSetup_cmdMap reset timers txMemory rxMemory)
    before.dispatches

theorem flightStart_framed (reset timers : PwmTimers)
    (txMemory rxMemory : RingMemory) (stream : List UInt8) :
    Framed stream rxSize [] .empty
      (flightStart reset timers txMemory rxMemory :
        CommandSystem HandlerFunc (Flight R)) :=
  start_framed txMemory rxMemory _ flightSetup

omit [CFloat R] in
theorem CommandSystem.Framed.withM3
    (framed : Framed stream rxSize pending queue system)
    (m3 : FlightM3 R) :
    Framed stream rxSize pending queue (system.withM3 m3) :=
  ⟨framed.at_, framed.arrived_le, framed.account, framed.residual⟩

def flown (input : TickInput R)
    (system : CommandSystem HandlerFunc (Flight R)) :
    CommandSystem HandlerFunc (Flight R) :=
  system.withM3
    { system.state.m3 with
      rest := (flyTick input system.state.m3.rest).2 }

/-- A tick is a call of command_process between two changes of the m3's state. -/
theorem flightStep_tick (input : TickInput R) :
    flightStep stream system (.tick input) =
      ((flown input system).step callHandler stream .process).map
        (fun after =>
          after.withM3
            (reportTick (flyTick input system.state.m3.rest).1
              after.state.m3)) := by
  unfold flightStep controlUpdate CommandSystem.step flown
  dsimp only [CommandSystem.withM3]
  generalize commandProcess callHandler
    ({ system.state with
      m3 :=
        { system.state.m3 with
          rest := (flyTick input system.state.m3.rest).2 } } :
      CommandState HandlerFunc (Flight R)) = result
  cases result with
  | error halt => rfl
  | ok done => rfl

theorem CommandSystem.Framed.flightStep
    (commands : ∀ frame ∈ (Frame.code.decodeAll stream).1,
      frame.cmd.toNat < 128)
    (framed : Framed stream rxSize pending queue system)
    (event : FlightEvent R) :
    ∃ after pending', ∃ queue' : BoundedFifo UInt8 (rxSize - 1),
      Quadcopter.flightStep stream system event = .ok after ∧
        Framed stream rxSize pending' queue' after := by
  cases event with
  | arrive count => exact framed.step callHandler commands (.arrive count)
  | hostRead buf count => exact ⟨_, pending, queue, rfl, framed.withM3 _⟩
  | tick input =>
      have begun : Framed stream rxSize pending queue (flown input system) :=
        framed.withM3 _
      obtain ⟨next, pending', queue', stepped, framed'⟩ :=
        begun.step callHandler commands .process
      refine ⟨next.withM3 (reportTick (flyTick input system.state.m3.rest).1
        next.state.m3), pending', queue', ?_, framed'.withM3 _⟩
      rw [flightStep_tick, stepped]
      rfl

theorem CommandSystem.Framed.flightRun
    (commands : ∀ frame ∈ (Frame.code.decodeAll stream).1,
      frame.cmd.toNat < 128)
    (framed : Framed stream rxSize pending queue system)
    (events : List (FlightEvent R)) :
    ∃ after pending', ∃ queue' : BoundedFifo UInt8 (rxSize - 1),
      Quadcopter.flightRun stream events system = .ok after ∧
        Framed stream rxSize pending' queue' after := by
  induction events generalizing system pending queue with
  | nil => exact ⟨system, pending, queue, rfl, framed⟩
  | cons event events ih =>
      obtain ⟨next, pending', queue', stepped, framed'⟩ :=
        framed.flightStep commands event
      obtain ⟨after, pending'', queue'', ran, framed''⟩ := ih framed'
      refine ⟨after, pending'', queue'', ?_, framed''⟩
      unfold Quadcopter.flightRun
      rw [stepped]
      exact ran

end

end Quadcopter

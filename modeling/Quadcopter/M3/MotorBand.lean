import Quadcopter.M3.Disarmed
import Quadcopter.M3.Mixer
import Quadcopter.M3.PwmPulse

/-
What is written to the motors in a run.

The timers of a run are what its calls of pwm_set have made of them, in their
order.  Only set_motor passes on a value that the bounds check has not seen.
-/

namespace Quadcopter

variable {R : Type}

structure PwmWrite where
  pwm : PwmDevice
  val : UInt16
deriving DecidableEq

def applyWrites (writes : List PwmWrite) (timers : PwmTimers) : PwmTimers :=
  writes.foldl (fun timers write => pwmSet write.pwm write.val timers) timers

private theorem applyWrites_append (first second : List PwmWrite)
    (timers : PwmTimers) :
    applyWrites (first ++ second) timers =
      applyWrites second (applyWrites first timers) :=
  List.foldl_append

def PwmWrite.Safe (write : PwmWrite) : Prop :=
  write.val = 0 ∨ throttleMin.toInt ≤ write.val.toNat ∧
    (write.val.toNat : Int) ≤ throttleMax.toInt

private theorem safeThrottle_safe (pwm : PwmDevice) (exact : Int) :
    PwmWrite.Safe ⟨pwm, safeThrottle exact⟩ := by
  change safeThrottle exact = 0 ∨ (5000 : Int) ≤ (safeThrottle exact).toNat ∧
    ((safeThrottle exact).toNat : Int) ≤ 40000
  rw [safeThrottle_toNat]
  by_cases low : exact < 5000
  · left
    exact if_pos low
  · right
    rw [if_neg low]
    split
    · decide
    · omega

def motorWrites (motors : Motors) : List PwmWrite :=
  [⟨.pwm1, safeThrottle motors.motor1.toInt⟩,
    ⟨.pwm2, safeThrottle motors.motor2.toInt⟩,
    ⟨.pwm3, safeThrottle motors.motor3.toInt⟩,
    ⟨.pwm4, safeThrottle motors.motor4.toInt⟩]

private theorem driveMotors_writes (motors : Motors) (timers : PwmTimers) :
    driveMotors motors timers = applyWrites (motorWrites motors) timers := by
  unfold driveMotors
  simp only [setMotorSafe_drives]
  rfl

private theorem motorWrites_safe (motors : Motors) :
    ∀ write ∈ motorWrites motors, write.Safe := by
  intro write member
  simp only [motorWrites, List.mem_cons, List.not_mem_nil, or_false] at member
  rcases member with rfl | rfl | rfl | rfl
  · exact safeThrottle_safe _ _
  · exact safeThrottle_safe _ _
  · exact safeThrottle_safe _ _
  · exact safeThrottle_safe _ _

def disarmWrites : List PwmWrite :=
  motorWrites ⟨0, 0, 0, 0⟩

private theorem disarmCmd_writes (buf : Buffer) (length : UInt8)
    (flight : Flight R) :
    (disarmCmd buf length flight).pwm =
      applyWrites disarmWrites flight.pwm := by
  unfold disarmCmd
  simp only [setMotorSafe_drives]
  rfl

def setMotorWrites (buf : Buffer) (length : UInt8) : List PwmWrite :=
  if length ≠ 3 then []
  else
    let val := (buf 2).toUInt16 <<< 8 ||| (buf 1).toUInt16
    match (buf 0).toNat with
    | 1 => [⟨.pwm1, val⟩]
    | 2 => [⟨.pwm2, val⟩]
    | 3 => [⟨.pwm3, val⟩]
    | 4 => [⟨.pwm4, val⟩]
    | _ => []

private theorem setMotor_writes (buf : Buffer) (length : UInt8)
    (flight : Flight R) :
    (setMotor buf length flight).pwm =
      applyWrites (setMotorWrites buf length) flight.pwm := by
  unfold setMotor setMotorWrites
  by_cases valid : length ≠ 3
  · rw [if_pos valid, if_pos valid]
    rfl
  · rw [if_neg valid, if_neg valid]
    dsimp only
    generalize (buf 0).toNat = motor
    -- one case for each branch of the switch
    rcases motor with _ | _ | _ | _ | _ | motor
    · rfl
    · rfl
    · rfl
    · rfl
    · rfl
    · rfl

def Dispatch.writes (dispatch : Dispatch) : List PwmWrite :=
  match flightTable dispatch.cmd with
  | some (.other .disarmCmd) => disarmWrites
  | some (.other .setMotor) => setMotorWrites dispatch.buf dispatch.length
  | _ => []

private theorem Dispatch.effect_writes [CFloat R] (dispatch : Dispatch)
    (flight : Flight R) :
    (dispatch.effect flight).pwm =
      applyWrites dispatch.writes flight.pwm := by
  unfold Dispatch.effect Dispatch.writes
  cases flightTable dispatch.cmd with
  | none => rfl
  | some handler =>
      cases handler with
      | connectCmd => rfl
      | disconnectCmd => rfl
      | other func =>
          cases func with
          | controlCmd =>
              change (controlCmd _ _ flight).pwm = flight.pwm
              unfold controlCmd
              split
              · rfl
              · rfl
          | tuneCmd => rfl
          | armCmd => rfl
          | disarmCmd => exact disarmCmd_writes dispatch.buf dispatch.length flight
          | updateGains => rfl
          | setMotor => exact setMotor_writes dispatch.buf dispatch.length flight

private theorem Dispatch.writes_safe {dispatch : Dispatch}
    (notMotor : dispatch.cmd.val ≠ 'm'.toNat) :
    ∀ write ∈ dispatch.writes, write.Safe := by
  have named : ∀ cmd : Fin 128,
      flightTable cmd = some (.other .setMotor) → cmd.val = 'm'.toNat := by
    decide
  intro write member
  unfold Dispatch.writes at member
  split at member
  · exact motorWrites_safe _ write member
  · rename_i handler
    exact absurd (named dispatch.cmd handler) notMotor
  · cases member

section

variable [CFloat R] {stream : List UInt8}
  {system after : CommandSystem HandlerFunc (Flight R)}

def tickWrites (input : TickInput R) (flight : Flight R) : List PwmWrite :=
  if flight.control.armed then motorWrites (flyTick input flight).1 else []

private theorem flyTick_writes (input : TickInput R) (flight : Flight R) :
    (flyTick input flight).2.pwm =
      applyWrites (tickWrites input flight) flight.pwm := by
  change (if flight.control.armed = true then
    driveMotors (flyTick input flight).1 flight.pwm else flight.pwm) = _
  unfold tickWrites
  split
  · exact driveMotors_writes _ _
  · rfl

private theorem tickWrites_safe (input : TickInput R) (flight : Flight R) :
    ∀ write ∈ tickWrites input flight, write.Safe := by
  unfold tickWrites
  split
  · exact motorWrites_safe _
  · intro write member
    cases member

def FlightEvent.handled (system : CommandSystem HandlerFunc (Flight R)) :
    FlightEvent R → List Dispatch
  | .tick input =>
      match controlUpdate input system.state with
      | .ok done => done.2.toList
      | .error _ => []
  | _ => []

/-- A tick drives the motors, and then handles its frame. -/
def FlightEvent.writes (system : CommandSystem HandlerFunc (Flight R))
    (event : FlightEvent R) : List PwmWrite :=
  match event with
  | .tick input =>
      tickWrites input system.state.m3.rest ++
        (event.handled system).flatMap Dispatch.writes
  | _ => []

def runHandled (stream : List UInt8) :
    List (FlightEvent R) → CommandSystem HandlerFunc (Flight R) →
    List Dispatch
  | [], _ => []
  | event :: events, system =>
      event.handled system ++
        match flightStep stream system event with
        | .ok next => runHandled stream events next
        | .error _ => []

def runWrites (stream : List UInt8) :
    List (FlightEvent R) → CommandSystem HandlerFunc (Flight R) →
    List PwmWrite
  | [], _ => []
  | event :: events, system =>
      event.writes system ++
        match flightStep stream system event with
        | .ok next => runWrites stream events next
        | .error _ => []

private theorem FlightEvent.writes_safe {event : FlightEvent R}
    (notMotor : ∀ dispatch ∈ event.handled system,
      dispatch.cmd.val ≠ 'm'.toNat) :
    ∀ write ∈ event.writes system, write.Safe := by
  intro write member
  cases event with
  | arrive count => cases member
  | hostRead buf count => cases member
  | tick input =>
      rcases List.mem_append.mp member with driven | sent
      · exact tickWrites_safe _ _ write driven
      · obtain ⟨dispatch, handled, written⟩ := List.mem_flatMap.mp sent
        exact Dispatch.writes_safe (notMotor dispatch handled) write written

private theorem runWrites_safe (events : List (FlightEvent R))
    (notMotor : ∀ dispatch ∈ runHandled stream events system,
      dispatch.cmd.val ≠ 'm'.toNat) :
    ∀ write ∈ runWrites stream events system, write.Safe := by
  induction events generalizing system with
  | nil =>
      intro write member
      cases member
  | cons event events ih =>
      unfold runHandled at notMotor
      unfold runWrites
      intro write member
      rcases List.mem_append.mp member with now | later
      · exact FlightEvent.writes_safe (fun dispatch handled =>
          notMotor dispatch (List.mem_append_left _ handled)) write now
      · cases stepped : flightStep stream system event with
        | error halt =>
            rw [stepped] at later
            cases later
        | ok next =>
            rw [stepped] at later notMotor
            exact ih (fun dispatch handled =>
              notMotor dispatch (List.mem_append_right _ handled)) write later

private theorem replay_writes {m3 : FlightM3 R}
    (table : m3.cmdMap = flightTable)
    (dispatches : List Dispatch) :
    (CommandSystem.replay callHandler dispatches m3).rest.pwm =
      applyWrites (dispatches.flatMap Dispatch.writes) m3.rest.pwm := by
  rw [(replay_effect table dispatches).1]
  generalize m3.rest = flight
  induction dispatches generalizing flight with
  | nil => rfl
  | cons dispatch dispatches ih =>
      rw [List.foldl_cons, List.flatMap_cons, applyWrites_append, ih,
        dispatch.effect_writes]

private theorem controlUpdate_writes {input : TickInput R}
    {state : CommandState HandlerFunc (Flight R)}
    {done : CommandState HandlerFunc (Flight R) × Option Dispatch}
    (table : state.m3.cmdMap = flightTable)
    (updated : controlUpdate input state = .ok done) :
    done.1.m3.cmdMap = flightTable ∧
      done.1.m3.rest.pwm =
        applyWrites (tickWrites input state.m3.rest ++
          done.2.toList.flatMap Dispatch.writes) state.m3.rest.pwm := by
  unfold controlUpdate at updated
  dsimp only at updated
  cases processed : commandProcess callHandler
      { state with
        m3 := { state.m3 with rest := (flyTick input state.m3.rest).2 } } with
  | error halt =>
      rw [processed] at updated
      cases updated
  | ok result =>
      rw [processed] at updated
      cases updated
      have effect := CommandSystem.commandProcess_effect processed
      have begun : ({ state.m3 with
          rest := (flyTick input state.m3.rest).2 } : FlightM3 R).cmdMap =
            flightTable :=
        table
      obtain ⟨pwm, _, same⟩ := reportTick_rest
        (flyTick input state.m3.rest).1 result.1.m3
      constructor
      · exact same.trans (effect ▸ (replay_effect begun _).2)
      · refine pwm.trans ?_
        rw [effect, replay_writes begun, flyTick_writes, applyWrites_append]

/-- A step adds its frame to the log, and makes its calls. -/
theorem flightStep_writes {event : FlightEvent R}
    (table : system.state.m3.cmdMap = flightTable)
    (stepped : flightStep stream system event = .ok after) :
    after.state.m3.cmdMap = flightTable ∧
      after.dispatches = system.dispatches ++ event.handled system ∧
      after.state.m3.rest.pwm =
        applyWrites (event.writes system) system.state.m3.rest.pwm := by
  cases event with
  | arrive count =>
      have same : after.state.m3 = system.state.m3 ∧
          after.dispatches = system.dispatches := by
        change system.step callHandler stream (.arrive count) = .ok after
          at stepped
        unfold CommandSystem.step at stepped
        dsimp only at stepped
        split at stepped
        · cases stepped
          exact ⟨rfl, rfl⟩
        · cases stepped
          exact ⟨rfl, rfl⟩
      rw [same.1, same.2]
      exact ⟨table, (List.append_nil _).symm, rfl⟩
  | hostRead buf count =>
      cases stepped
      exact ⟨table, (List.append_nil _).symm, rfl⟩
  | tick input =>
      unfold flightStep at stepped
      dsimp only at stepped
      unfold FlightEvent.writes FlightEvent.handled
      dsimp only
      cases updated : controlUpdate input system.state with
      | error halt =>
          rw [updated] at stepped
          cases stepped
      | ok done =>
          obtain ⟨kept, pwm⟩ := controlUpdate_writes table updated
          rw [updated] at stepped
          cases stepped
          exact ⟨kept, rfl, pwm⟩

private theorem flightRun_writes {events : List (FlightEvent R)}
    (table : system.state.m3.cmdMap = flightTable)
    (ran : flightRun stream events system = .ok after) :
    after.dispatches = system.dispatches ++ runHandled stream events system ∧
      after.state.m3.rest.pwm =
        applyWrites (runWrites stream events system)
          system.state.m3.rest.pwm := by
  induction events generalizing system with
  | nil =>
      cases ran
      exact ⟨(List.append_nil _).symm, rfl⟩
  | cons event events ih =>
      unfold flightRun at ran
      unfold runHandled runWrites
      cases stepped : flightStep stream system event with
      | error halt =>
          rw [stepped] at ran
          cases ran
      | ok next =>
          obtain ⟨kept, log, pwm⟩ := flightStep_writes table stepped
          rw [stepped] at ran
          obtain ⟨logs, pwms⟩ := ih kept ran
          rw [log] at logs
          rw [pwm] at pwms
          constructor
          · exact logs.trans (List.append_assoc _ _ _)
          · exact pwms.trans (applyWrites_append _ _ _).symm

end

/-- What pwm_set writes is exact, grows with the value, and lies between the
reload value and the overflow.  So a timer that keeps it for a period meets it,
and its pin is low then. -/
structure MatchSound (val : UInt16) : Prop where
  product : val.toNat * 0x9600 < 2 ^ 32
  sum : (matchValue val).toNat =
    0xFFFE88FF + 0x9600 + val.toNat * 0x9600 / 65535
  mono : ∀ other, val ≤ other → matchValue val ≤ matchValue other
  reloaded : 0xFFFE88FF < matchValue val
  overflows : matchValue val < 0xFFFFFFFF
  meets : ∀ (pwm : PwmDevice) (counter : PwmCounter),
    counter.regs.irqStatus = 0 →
    (counter.timers pwm).tcrr = 0xFFFE88FF →
    (counter.timers pwm).tmar = matchValue val →
    ∃ count, count < 2 ^ 32 - 0xFFFE88FF ∧
      let met := runSteps (PwmCounter.step pwm) counter
        (List.replicate count .tick)
      (met.timers pwm).tcrr = (met.timers pwm).tmar ∧
        (met.timers pwm).tmar = matchValue val ∧ ¬ met.regs.PinHigh pwm

private theorem matchSound (val : UInt16) : MatchSound val := by
  obtain ⟨product, sum⟩ := matchValue_toNat val
  obtain ⟨least, most⟩ := matchValue_between val
  constructor
  · exact product
  · exact sum
  · intro other order
    exact matchValue_mono order
  · apply UInt32.lt_iff_toNat_lt.mpr
    change 0xFFFE88FF < (matchValue val).toNat
    omega
  · apply UInt32.lt_iff_toNat_lt.mpr
    change (matchValue val).toNat < 0xFFFFFFFF
    omega
  · intro pwm counter idle reloaded matches_
    exact PwmCounter.match_in_period idle reloaded matches_

/-- In every run without a frame for set_motor, each call of pwm_set is with 0 or
a value from THROTTLE_MIN to THROTTLE_MAX, whatever the controllers ask for, and
the timers are what the calls have made of them. -/
theorem motors_in_band [CFloat R] (reset timers : PwmTimers)
    (txMemory rxMemory : RingMemory) (stream : List UInt8)
    (events : List (FlightEvent R))
    (notMotor : ∀ dispatch ∈ runHandled stream events
      (flightStart reset timers txMemory rxMemory),
      dispatch.cmd.val ≠ 'm'.toNat) :
    (∀ throttle pitchOut rollOut,
        ∀ write ∈ motorWrites (mixed throttle pitchOut rollOut), write.Safe) ∧
      (∀ write ∈ runWrites stream events
        (flightStart reset timers txMemory rxMemory), write.Safe) ∧
      (∀ system, flightRun stream events
          (flightStart reset timers txMemory rxMemory) = .ok system →
        system.dispatches = runHandled stream events
            (flightStart reset timers txMemory rxMemory) ∧
          system.state.m3.rest.pwm =
            applyWrites (runWrites stream events
              (flightStart reset timers txMemory rxMemory))
              (pwmInit reset timers)) ∧
      ∀ val, MatchSound val := by
  have table : (flightStart reset timers txMemory rxMemory :
      CommandSystem HandlerFunc (Flight R)).state.m3.cmdMap = flightTable :=
    flightSetup_cmdMap reset timers txMemory rxMemory
  refine ⟨fun _ _ _ => motorWrites_safe _, runWrites_safe events notMotor, ?_,
    matchSound⟩
  intro system ran
  exact flightRun_writes table ran

/-- Arm in the first tick, and fly in the second. -/
def armedWrites : List PwmWrite :=
  runWrites [0, 'a'.toUInt8] [.arrive 2, .tick zeroReading, .tick zeroReading]
    (flightStart (fun _ => ⟨0, 0, 0, 0, 0⟩) (fun _ => ⟨0, 0, 0, 0, 0⟩)
      ⟨0, 0, nullBuf⟩ ⟨0, 0, nullBuf⟩)

theorem motors_in_band_of_armed :
    armedWrites.length = 4 ∧ ∀ write ∈ armedWrites, write.Safe :=
  ⟨by decide +kernel,
    (motors_in_band (fun _ => ⟨0, 0, 0, 0, 0⟩) (fun _ => ⟨0, 0, 0, 0, 0⟩)
      ⟨0, 0, nullBuf⟩ ⟨0, 0, nullBuf⟩ [0, 'a'.toUInt8]
      [.arrive 2, .tick zeroReading, .tick zeroReading]
      (by decide +kernel)).2.1⟩

end Quadcopter

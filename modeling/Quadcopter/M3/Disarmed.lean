import Quadcopter.M3.MalformedFrames

/-
The motors while the controller is disarmed.

disarm_cmd turns them off, and the control loop leaves them alone.  set_motor does
not look at the armed flag: it is how a motor is run for a test.  So a motor of a
disarmed controller has the value of the last set_motor frame for it, if there was
one since.
-/

namespace Quadcopter

open CommandSystem

variable {R : Type}

def PwmDevice.motor : PwmDevice → Nat
  | .pwm1 => 1
  | .pwm2 => 2
  | .pwm3 => 3
  | .pwm4 => 4

def Dispatch.motorVal (dispatch : Dispatch) (pwm : PwmDevice) :
    Option UInt16 :=
  if dispatch.cmd = 'm'.toNat ∧ dispatch.length = 3 ∧
      (dispatch.buf 0).toNat = pwm.motor then
    some (MachineInt.halfAt dispatch.buf 1)
  else none

/-- The value of the last such frame; `val` if there is none. -/
def lastMotorVal (pwm : PwmDevice) (val : UInt16)
    (dispatches : List Dispatch) : UInt16 :=
  dispatches.foldl (fun val dispatch => (dispatch.motorVal pwm).getD val) val

/-- The values held since a disarm frame; `none` before one, and when armed. -/
def watch (held : Option (PwmDevice → UInt16)) (dispatch : Dispatch) :
    Option (PwmDevice → UInt16) :=
  if dispatch.cmd = 'a'.toNat then none
  else if dispatch.cmd = 's'.toNat then some (fun _ => 0)
  else
    held.map (fun val pwm => (dispatch.motorVal pwm).getD (val pwm))

private theorem watch_since {before after : List Dispatch} {disarm : Dispatch}
    (disarms : disarm.cmd = 's'.toNat)
    (since : ∀ dispatch ∈ after,
      dispatch.cmd.val ≠ 'a'.toNat ∧ dispatch.cmd.val ≠ 's'.toNat)
    (held : Option (PwmDevice → UInt16)) :
    (before ++ disarm :: after).foldl watch held =
      some (fun pwm => lastMotorVal pwm 0 after) := by
  have disarmed : watch (before.foldl watch held) disarm =
      some (fun _ => 0) := by
    unfold watch
    rw [disarms]
    rfl
  have later : ∀ val : PwmDevice → UInt16,
      after.foldl watch (some val) =
        some (fun pwm => lastMotorVal pwm (val pwm) after) := by
    clear disarmed
    induction after with
    | nil =>
        intro val
        rfl
    | cons dispatch after ih =>
        intro val
        obtain ⟨notArm, notDisarm⟩ := since dispatch List.mem_cons_self
        have first : watch (some val) dispatch =
            some (fun pwm => (dispatch.motorVal pwm).getD (val pwm)) := by
          unfold watch
          rw [if_neg notArm, if_neg notDisarm]
          rfl
        rw [List.foldl_cons, first, ih (fun dispatch member =>
          since dispatch (List.mem_cons_of_mem _ member))]
        rfl
  rw [List.foldl_append, List.foldl_cons, disarmed]
  exact later _

structure Stopped (val : PwmDevice → UInt16) (flight : Flight R) : Prop where
  disarmed : flight.control.armed = false
  motors : ∀ pwm, (flight.pwm pwm).tmar = matchValue (val pwm)

section

variable {flight : Flight R} {dispatch : Dispatch}

private theorem disarm_stopped (buf : Buffer) (length : UInt8) :
    Stopped (fun _ => 0) (disarmCmd buf length flight) where
  disarmed := rfl
  motors := by
    have low : (0 : Int32) < throttleMin := by decide
    intro pwm
    unfold disarmCmd setMotorSafe
    simp only [if_pos low, pwmSet_tmar]
    cases pwm with
    | pwm1 => rfl
    | pwm2 => rfl
    | pwm3 => rfl
    | pwm4 => rfl

private theorem setMotor_control (buf : Buffer) (length : UInt8) :
    (setMotor buf length flight).control = flight.control := by
  unfold setMotor
  split
  · rfl
  · dsimp only
    split <;> rfl

private theorem setMotor_tmar (buf : Buffer) (length : UInt8)
    (pwm : PwmDevice) :
    ((setMotor buf length flight).pwm pwm).tmar =
      if length = 3 ∧ (buf 0).toNat = pwm.motor then
        matchValue (MachineInt.halfAt buf 1)
      else (flight.pwm pwm).tmar := by
  have value := MachineInt.shift_or_bytes buf 1
  unfold setMotor
  by_cases valid : length = 3
  · rw [if_neg (fun invalid => invalid valid)]
    dsimp only
    rw [value]
    generalize (buf 0).toNat = motor
    -- one case for each branch of the switch
    rcases motor with _ | _ | _ | _ | _ | motor
    all_goals
      cases pwm <;>
        simp [valid, PwmDevice.motor]
  · rw [if_pos valid, if_neg (fun both => valid both.1)]

private theorem setMotor_stopped {val : PwmDevice → UInt16}
    (stopped : Stopped val flight) (motor : dispatch.cmd.val = 'm'.toNat) :
    Stopped (fun pwm => (dispatch.motorVal pwm).getD (val pwm))
      (setMotor dispatch.buf dispatch.length flight) where
  disarmed := by
    rw [setMotor_control]
    exact stopped.disarmed
  motors := by
    intro pwm
    rw [setMotor_tmar]
    unfold Dispatch.motorVal
    by_cases named : dispatch.length = 3 ∧
        (dispatch.buf 0).toNat = pwm.motor
    · rw [if_pos named, if_pos ⟨motor, named⟩, Option.getD_some]
    · rw [if_neg named, if_neg (fun all => named all.2), Option.getD_none]
      exact stopped.motors pwm

end

section

variable [CFloat R] {flight : Flight R} {dispatch : Dispatch}

private theorem effect_of_cmd {func : HandlerFunc} {cmd : Fin 128}
    (named : dispatch.cmd.val = cmd.val)
    (handler : flightTable cmd = some (.other func)) :
    dispatch.effect flight =
      func.effect dispatch.buf dispatch.length flight := by
  apply Dispatch.effect_of_table
  rw [Fin.ext named]
  exact handler

private theorem effect_other (notArm : dispatch.cmd.val ≠ 'a'.toNat)
    (notDisarm : dispatch.cmd.val ≠ 's'.toNat)
    (notMotor : dispatch.cmd.val ≠ 'm'.toNat) :
    (dispatch.effect flight).control.armed = flight.control.armed ∧
      (dispatch.effect flight).pwm = flight.pwm := by
  have commands : ∀ cmd : Fin 128,
      (flightTable cmd = some (.other .armCmd) → cmd.val = 'a'.toNat) ∧
      (flightTable cmd = some (.other .disarmCmd) → cmd.val = 's'.toNat) ∧
      (flightTable cmd = some (.other .setMotor) → cmd.val = 'm'.toNat) := by
    decide
  obtain ⟨arm, disarm, motor⟩ := commands dispatch.cmd
  unfold Dispatch.effect
  generalize flightTable dispatch.cmd = handler at arm disarm motor
  cases handler with
  | none => exact ⟨rfl, rfl⟩
  | some handler =>
      cases handler with
      | connectCmd => exact ⟨rfl, rfl⟩
      | disconnectCmd => exact ⟨rfl, rfl⟩
      | other func =>
          cases func with
          | controlCmd =>
              change (controlCmd _ _ flight).control.armed = _ ∧
                (controlCmd _ _ flight).pwm = _
              unfold controlCmd
              split
              · exact ⟨rfl, rfl⟩
              · exact ⟨rfl, rfl⟩
          | tuneCmd => exact ⟨rfl, rfl⟩
          | armCmd => exact absurd (arm rfl) notArm
          | disarmCmd => exact absurd (disarm rfl) notDisarm
          | updateGains => exact ⟨rfl, rfl⟩
          | setMotor => exact absurd (motor rfl) notMotor

private theorem effect_watched {held : Option (PwmDevice → UInt16)}
    (stopped : ∀ val, held = some val → Stopped val flight) :
    ∀ val, watch held dispatch = some val →
      Stopped val (dispatch.effect flight) := by
  intro val watched
  unfold watch at watched
  by_cases arm : dispatch.cmd.val = 'a'.toNat
  · rw [if_pos arm] at watched
    cases watched
  · rw [if_neg arm] at watched
    by_cases disarm : dispatch.cmd.val = 's'.toNat
    · have effect := @effect_of_cmd R _ flight dispatch .disarmCmd
        ⟨'s'.toNat, by decide⟩ disarm (by decide)
      rw [if_pos disarm] at watched
      cases watched
      rw [effect]
      exact disarm_stopped dispatch.buf dispatch.length
    · rw [if_neg disarm, Option.map_eq_some_iff] at watched
      obtain ⟨before, held_, rfl⟩ := watched
      have begun := stopped before held_
      by_cases motor : dispatch.cmd.val = 'm'.toNat
      · have effect := @effect_of_cmd R _ flight dispatch .setMotor
          ⟨'m'.toNat, by decide⟩ motor (by decide)
        rw [effect]
        exact setMotor_stopped begun motor
      · obtain ⟨armed, pwm⟩ := @effect_other R _ flight dispatch arm disarm
          motor
        have none_ : ∀ pwm, dispatch.motorVal pwm = none :=
          fun pwm => if_neg (fun all => motor all.1)
        constructor
        · rw [armed]
          exact begun.disarmed
        · intro device
          rw [pwm, none_, Option.getD_none]
          exact begun.motors device

private theorem flyTick_stopped {val : PwmDevice → UInt16} (input : TickInput R)
    (stopped : Stopped val flight) :
    Stopped val (flyTick input flight).2 where
  disarmed := stopped.disarmed
  motors := by
    intro pwm
    have disarmed := stopped.disarmed
    unfold flyTick
    simp only [disarmed]
    exact stopped.motors pwm

omit [CFloat R] in
theorem reportTick_rest (motors : Motors) (m3 : FlightM3 R) :
    (reportTick motors m3).rest.pwm = m3.rest.pwm ∧
      (reportTick motors m3).rest.control.armed = m3.rest.control.armed ∧
      (reportTick motors m3).cmdMap = m3.cmdMap := by
  unfold reportTick
  dsimp only
  split
  · simp only [commandSend_rest, commandSend_cmdMap, and_self]
  · exact ⟨rfl, rfl, rfl⟩

structure Watched (system : CommandSystem HandlerFunc (Flight R)) : Prop where
  table : system.state.m3.cmdMap = flightTable
  stopped : ∀ val, system.dispatches.foldl watch none = some val →
    Stopped val system.state.m3.rest

variable {stream : List UInt8}
  {system after : CommandSystem HandlerFunc (Flight R)}

theorem Watched.step (watched : Watched system) {event : CommandEvent}
    (stepped : system.step callHandler stream event = .ok after) :
    Watched after := by
  obtain ⟨sent, log, m3⟩ := step_effect stepped
  cases sent with
  | none =>
      rw [Option.toList_none, List.append_nil] at log
      constructor
      · rw [m3]
        exact watched.table
      · rw [log, m3]
        exact watched.stopped
  | some dispatch =>
      obtain ⟨rest, table⟩ := dispatch.run_effect watched.table
      have same : after.state.m3 =
          dispatch.run callHandler system.state.m3 := m3
      constructor
      · rw [same]
        exact table
      · rw [log, same, rest, Option.toList_some, List.foldl_append]
        exact effect_watched watched.stopped

theorem Watched.flightStep (watched : Watched system) {event : FlightEvent R}
    (stepped : Quadcopter.flightStep stream system event = .ok after) :
    Watched after := by
  cases event with
  | arrive count =>
      have same : system.step callHandler stream (.arrive count) =
          .ok after :=
        stepped
      exact watched.step same
  | hostRead buf count =>
      cases stepped
      exact ⟨watched.table, watched.stopped⟩
  | tick input =>
      have begun : Watched (flown input system) :=
        ⟨watched.table, fun val held =>
          flyTick_stopped input (watched.stopped val held)⟩
      rw [flightStep_tick] at stepped
      cases processed : (flown input system).step callHandler stream
          .process with
      | error halt =>
          rw [processed] at stepped
          cases stepped
      | ok next =>
          rw [processed] at stepped
          cases stepped
          have done := begun.step processed
          obtain ⟨pwm, armed, table⟩ := reportTick_rest
            (flyTick input system.state.m3.rest).1 next.state.m3
          constructor
          · exact table.trans done.table
          · intro val held
            have stopped := done.stopped val held
            constructor
            · exact armed.trans stopped.disarmed
            · intro device
              exact (congrArg PwmTimer.tmar (congrFun pwm device)).trans
                (stopped.motors device)

theorem Watched.flightRun (watched : Watched system)
    {events : List (FlightEvent R)}
    (ran : Quadcopter.flightRun stream events system = .ok after) :
    Watched after := by
  induction events generalizing system with
  | nil =>
      cases ran
      exact watched
  | cons event events ih =>
      unfold Quadcopter.flightRun at ran
      cases stepped : Quadcopter.flightStep stream system event with
      | error halt =>
          rw [stepped] at ran
          cases ran
      | ok next =>
          rw [stepped] at ran
          exact ih (watched.flightStep stepped) ran

private theorem flightStart_watched (reset timers : PwmTimers)
    (txMemory rxMemory : RingMemory) :
    Watched (flightStart reset timers txMemory rxMemory :
      CommandSystem HandlerFunc (Flight R)) :=
  ⟨flightSetup_cmdMap reset timers txMemory rxMemory, fun _ held =>
    nomatch held⟩

end

/-- In every run, once a disarm frame was handled and no arm frame after it, each
motor has the value of the last set_motor frame for it since then, or is off. -/
theorem disarmed_motors_set [CFloat R] (reset timers : PwmTimers)
    (txMemory rxMemory : RingMemory) (stream : List UInt8)
    (commands : ∀ frame ∈ (Frame.code.decodeAll stream).1,
      frame.cmd.toNat < 128)
    (events : List (FlightEvent R)) :
    ∃ system, flightRun stream events
        (flightStart reset timers txMemory rxMemory) = .ok system ∧
      ∀ before disarm after,
        system.dispatches = before ++ disarm :: after →
        disarm.cmd.val = 's'.toNat →
        (∀ dispatch ∈ after,
          dispatch.cmd.val ≠ 'a'.toNat ∧ dispatch.cmd.val ≠ 's'.toNat) →
        system.state.m3.rest.control.armed = false ∧
          ∀ pwm, (system.state.m3.rest.pwm pwm).tmar =
            matchValue (lastMotorVal pwm 0 after) := by
  obtain ⟨system, _, _, ran, _⟩ :=
    (flightStart_framed reset timers txMemory rxMemory stream).flightRun
      commands events
  have watched :=
    (flightStart_watched reset timers txMemory rxMemory).flightRun ran
  refine ⟨system, ran, ?_⟩
  intro before disarm after log disarms since
  have stopped := watched.stopped _
    (log ▸ watch_since disarms since none)
  exact ⟨stopped.disarmed, stopped.motors⟩

def MotorsOff (system : CommandSystem HandlerFunc (Flight R)) : Prop :=
  system.state.m3.rest.control.armed = false →
  (∃ before disarm after, system.dispatches = before ++ disarm :: after ∧
    disarm.cmd.val = 's'.toNat ∧
    ∀ dispatch ∈ after, dispatch.cmd.val ≠ 'a'.toNat) →
  ∀ pwm, (system.state.m3.rest.pwm pwm).tmar = matchValue 0

def zeroReading : TickInput Float32 :=
  { calibrateStack := ⟨0, 0, 0⟩
    calibrateGyro := some nullBuf
    calibrateAccel := some nullBuf
    stack := ⟨⟨0, 0, 0⟩, ⟨0, 0, 0⟩, ⟨0, 0, 0⟩⟩
    gyro := some nullBuf
    accel := some nullBuf }

/-- Disarm, then set motor 1 to 1000. -/
def motorTestStream : List UInt8 :=
  [0, 's'.toUInt8, 3, 'm'.toUInt8, 1, 0xE8, 3]

theorem disarmed_motors_set_of_test :
    ∃ system, flightRun motorTestStream
        [.arrive 7, .tick zeroReading, .tick zeroReading]
        (flightStart (fun _ => ⟨0, 0, 0, 0, 0⟩) (fun _ => ⟨0, 0, 0, 0, 0⟩)
          ⟨0, 0, nullBuf⟩ ⟨0, 0, nullBuf⟩) = .ok system ∧
      ∀ before disarm after,
        system.dispatches = before ++ disarm :: after →
        disarm.cmd.val = 's'.toNat →
        (∀ dispatch ∈ after,
          dispatch.cmd.val ≠ 'a'.toNat ∧ dispatch.cmd.val ≠ 's'.toNat) →
        system.state.m3.rest.control.armed = false ∧
          ∀ pwm, (system.state.m3.rest.pwm pwm).tmar =
            matchValue (lastMotorVal pwm 0 after) :=
  disarmed_motors_set (fun _ => ⟨0, 0, 0, 0, 0⟩)
    (fun _ => ⟨0, 0, 0, 0, 0⟩) ⟨0, 0, nullBuf⟩ ⟨0, 0, nullBuf⟩ motorTestStream
    (by decide) [.arrive 7, .tick zeroReading, .tick zeroReading]

/-- A motor turns while the controller is disarmed. -/
theorem disarmed_motor_turns :
    ¬ ∀ (stream : List UInt8) (events : List (FlightEvent Float32))
      (system : CommandSystem HandlerFunc (Flight Float32)),
      (∀ frame ∈ (Frame.code.decodeAll stream).1,
        frame.cmd.toNat < 128 ∧ ¬ frame.Malformed) →
      flightRun stream events
        (flightStart (fun _ => ⟨0, 0, 0, 0, 0⟩) (fun _ => ⟨0, 0, 0, 0, 0⟩)
          ⟨0, 0, nullBuf⟩ ⟨0, 0, nullBuf⟩) = .ok system →
      MotorsOff system := by
  intro off
  have seen : (flightRun motorTestStream
      [.arrive 7, .tick zeroReading, .tick zeroReading]
      (flightStart (fun _ => ⟨0, 0, 0, 0, 0⟩) (fun _ => ⟨0, 0, 0, 0, 0⟩)
        ⟨0, 0, nullBuf⟩ ⟨0, 0, nullBuf⟩)).toOption.map (fun system =>
          (system.dispatches.map (fun dispatch => dispatch.cmd.val),
            system.state.m3.rest.control.armed,
            (system.state.m3.rest.pwm .pwm1).tmar)) =
      some (['s'.toNat, 'm'.toNat], false, matchValue 1000) := by
    decide +kernel
  cases ran : flightRun motorTestStream
      [.arrive 7, .tick zeroReading, .tick zeroReading]
      (flightStart (fun _ => ⟨0, 0, 0, 0, 0⟩) (fun _ => ⟨0, 0, 0, 0, 0⟩)
        ⟨0, 0, nullBuf⟩ ⟨0, 0, nullBuf⟩ :
          CommandSystem HandlerFunc (Flight Float32)) with
  | error halt =>
      rw [ran] at seen
      cases seen
  | ok system =>
      rw [ran] at seen
      have values := Option.some.inj seen
      simp only [Prod.mk.injEq] at values
      obtain ⟨log, disarmed, turning⟩ := values
      obtain ⟨disarm, rest, split, disarms, later⟩ :=
        List.map_eq_cons_iff.mp log
      have motors := off motorTestStream _ system (by decide) ran disarmed
        ⟨[], disarm, rest, split, disarms, by
          intro dispatch member
          have named : dispatch.cmd.val ∈
              rest.map (fun dispatch => dispatch.cmd.val) :=
            List.mem_map_of_mem member
          rw [later, List.mem_singleton] at named
          rw [named]
          decide⟩ .pwm1
      rw [turning] at motors
      exact absurd motors (by decide)

end Quadcopter

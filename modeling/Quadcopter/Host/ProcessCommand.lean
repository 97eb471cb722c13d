import Quadcopter.Host.RecvCommand
import Quadcopter.M3.FlightTelemetry

/-
What the host makes of the frames of the m3 (panda/user/copter.py,
processCommand), and what its object knows about the m3 during a flight.

struct.unpack raises on a buffer of another length than the format's.
-/

namespace Quadcopter

variable {R : Type}

/-- A number of Python: the fields begin with constants of either type. -/
inductive PyNumber (R : Type) where
  | float (value : R)
  | int (value : Int)
deriving DecidableEq

structure CopterSensors (R : Type) where
  gyroscope : List (PyNumber R)
  accelerometer : List (PyNumber R)
  magnetometer : List (PyNumber R)
  angles : List (PyNumber R)
  motor1 : PyNumber R
  motor2 : PyNumber R
  motor3 : PyNumber R
  motor4 : PyNumber R
  p : PyNumber R
  i : PyNumber R
  d : PyNumber R

structure Copter (R : Type) where
  connected : Bool
  sensors : CopterSensors R

section

variable [CFloat R]

def CopterSensors.start : CopterSensors R :=
  let zero : PyNumber R := .float ((0 : Int) : R)
  { gyroscope := [.int 0, .int 0, .int 0]
    accelerometer := [.int 0, .int 0, .int 0]
    magnetometer := [.int 0, .int 0, .int 0]
    angles := [zero, zero, zero]
    motor1 := zero
    motor2 := zero
    motor3 := zero
    motor4 := zero
    p := zero
    i := zero
    d := zero }

def Copter.start : Copter R := { connected := false, sensors := .start }

/-- The format "=f…f" with `count` floats; `none` if it raises. -/
def unpackFloats (count : Nat) (buf : List UInt8) :
    Option (Nat → PyNumber R) :=
  if buf.length = 4 * count then
    some (fun place => .float (buf2Float (fun i => buf.getD i 0) place))
  else none

def unpackInt (buf : List UInt8) : Option (PyNumber R) :=
  if buf.length = 4 then
    some (.int (MachineInt.wordAt (fun i => buf.getD i 0) 0).toInt32.toInt)
  else none

/-! ### processCommand -/

namespace Copter

/-- What processCommand does with the command that it has received; `none` if
struct.unpack raises. -/
def handleCommand (cmd : CopterCommand) (copter : Copter R) :
    Option (Copter R) :=
  let sensors := copter.sensors
  if cmd.cmd = 'c' then some { copter with connected := true }
  else if cmd.cmd = 'd' then some { copter with connected := false }
  else if cmd.cmd = '0' then do
    let sd ← unpackFloats 9 cmd.buf
    return { copter with
      sensors :=
        { sensors with
          gyroscope := [sd 0, sd 1, sd 2]
          accelerometer := [sd 3, sd 4, sd 5]
          magnetometer := [sd 6, sd 7, sd 8] } }
  else if cmd.cmd = '1' then do
    let sd ← unpackFloats 3 cmd.buf
    return { copter with
      sensors := { sensors with angles := [sd 0, sd 1, sd 2] } }
  else if cmd.cmd = '2' then do
    let sd ← unpackInt cmd.buf
    return { copter with sensors := { sensors with motor1 := sd } }
  else if cmd.cmd = '3' then do
    let sd ← unpackInt cmd.buf
    return { copter with sensors := { sensors with motor2 := sd } }
  else if cmd.cmd = '4' then do
    let sd ← unpackInt cmd.buf
    return { copter with sensors := { sensors with motor3 := sd } }
  else if cmd.cmd = '5' then do
    let sd ← unpackInt cmd.buf
    return { copter with sensors := { sensors with motor4 := sd } }
  else if cmd.cmd = '6' then do
    let sd ← unpackFloats 1 cmd.buf
    return { copter with sensors := { sensors with p := sd 0 } }
  else if cmd.cmd = '7' then do
    let sd ← unpackFloats 1 cmd.buf
    return { copter with sensors := { sensors with i := sd 0 } }
  else if cmd.cmd = '8' then do
    let sd ← unpackFloats 1 cmd.buf
    return { copter with sensors := { sensors with d := sd 0 } }
  else some copter

/-- The outer `none` is a call that is still reading, the inner one an
exception. -/
def processCommand (port : Port) (copter : Copter R) :
    Option (Option (Copter R) × Port) :=
  match recvCommand port with
  | none => none
  | some (none, port) => some (some copter, port)
  | some (some cmd, port) => some (copter.handleCommand cmd, port)

/-- The object and the port after those of `calls` calls that are completed, one
after the other; `none` if an exception has left one. -/
def processCommands : (calls : Nat) → Port → Copter R →
    Option (Copter R × Port)
  | 0, port, copter => some (copter, port)
  | calls + 1, port, copter =>
      match copter.processCommand port with
      | none => some (copter, port)
      | some (none, _) => none
      | some (some copter, port) => copter.processCommands calls port

end Copter

def Copter.sees (copter : Copter R) (frame : Frame) : Option (Copter R) :=
  copter.handleCommand frame.received

namespace Copter

/-- The completed calls take some of the frames to come, whatever the reads
have. -/
theorem processCommands_take (calls : Nat) (port : Port) (copter : Copter R)
    (frames : List Frame)
    (stream_eq : port.stream = Frame.code.encodeAll frames) :
    ∃ taken rest, frames = taken ++ rest ∧
      (copter.processCommands calls port).map Prod.fst =
        taken.foldlM sees copter ∧
      ∀ done, copter.processCommands calls port = some done →
        done.2.stream = Frame.code.encodeAll rest := by
  induction calls generalizing port copter frames with
  | zero =>
      refine ⟨[], frames, rfl, rfl, ?_⟩
      intro done completed
      cases completed
      exact stream_eq
  | succ calls ih =>
      unfold processCommands processCommand
      cases received : recvCommand port with
      | none =>
          refine ⟨[], frames, rfl, rfl, ?_⟩
          intro done completed
          cases completed
          exact stream_eq
      | some pair =>
          obtain ⟨result, later⟩ := pair
          rcases recvCommand_takesNext stream_eq received with
            ⟨nothing, same⟩ | ⟨frame, rest, rfl, found, after_eq, _⟩
          · change result = none at nothing
            subst nothing
            exact ih later copter frames (same.trans stream_eq)
          · change result = some frame.received at found
            subst found
            dsimp only
            cases seen : copter.handleCommand frame.received with
            | none =>
                refine ⟨[frame], rest, rfl, ?_, ?_⟩
                · rw [List.foldlM_cons]
                  change none = (copter.handleCommand frame.received).bind _
                  rw [seen]
                  rfl
                · intro done completed
                  cases completed
            | some next =>
                obtain ⟨taken, left, rfl, folded, consumed⟩ :=
                  ih later next rest after_eq
                refine ⟨frame :: taken, left, rfl, ?_, consumed⟩
                rw [List.foldlM_cons]
                change _ = (copter.handleCommand frame.received).bind _
                rw [seen]
                exact folded

private theorem sees_answers (copter : Copter R) (dispatch : Dispatch) :
    ∃ frames, dispatch.answers.flatMap TelemetryEvent.frames = frames ∧
      frames.length ≤ 1 ∧
      frames.foldlM sees copter =
        some { copter with
          connected := dispatch.connects copter.connected } := by
  unfold Dispatch.answers Dispatch.connects
  cases flightTable dispatch.cmd with
  | none => exact ⟨_, rfl, Nat.le_refl _, rfl⟩
  | some handler =>
      cases handler with
      | connectCmd => exact ⟨_, rfl, Nat.le_refl _, rfl⟩
      | disconnectCmd => exact ⟨_, rfl, Nat.le_refl _, rfl⟩
      | other func => exact ⟨_, rfl, Nat.zero_le _, rfl⟩

omit [CFloat R] in
private theorem unpackInt_intBuffer (cmd : UInt8) (val : Int32) :
    (unpackInt (Frame.ofBuffer cmd (intBuffer val) 4).received.buf :
      Option (PyNumber R)) = some (.int val.toInt) := by
  have word : MachineInt.wordAt
      (fun i => (MachineInt.wordBytes val.toUInt32).getD i 0) 0 =
        val.toUInt32 :=
    MachineInt.wordAt_of_bytes rfl
  have bytes : (Frame.ofBuffer cmd (intBuffer val) 4).received.buf =
      MachineInt.wordBytes val.toUInt32 := rfl
  unfold unpackInt
  rw [bytes, word]
  rfl

private theorem sees_motor1 (copter : Copter R) (val : Int32) :
    copter.sees (.ofBuffer '2'.toUInt8 (intBuffer val) 4) =
      some { copter with
        sensors := { copter.sensors with motor1 := .int val.toInt } } := by
  have char : (Frame.ofBuffer '2'.toUInt8 (intBuffer val) 4).received.cmd =
      '2' := rfl
  simp [sees, handleCommand, char, unpackInt_intBuffer]

private theorem sees_motor2 (copter : Copter R) (val : Int32) :
    copter.sees (.ofBuffer '3'.toUInt8 (intBuffer val) 4) =
      some { copter with
        sensors := { copter.sensors with motor2 := .int val.toInt } } := by
  have char : (Frame.ofBuffer '3'.toUInt8 (intBuffer val) 4).received.cmd =
      '3' := rfl
  simp [sees, handleCommand, char, unpackInt_intBuffer]

private theorem sees_motor3 (copter : Copter R) (val : Int32) :
    copter.sees (.ofBuffer '4'.toUInt8 (intBuffer val) 4) =
      some { copter with
        sensors := { copter.sensors with motor3 := .int val.toInt } } := by
  have char : (Frame.ofBuffer '4'.toUInt8 (intBuffer val) 4).received.cmd =
      '4' := rfl
  simp [sees, handleCommand, char, unpackInt_intBuffer]

private theorem sees_motor4 (copter : Copter R) (val : Int32) :
    copter.sees (.ofBuffer '5'.toUInt8 (intBuffer val) 4) =
      some { copter with
        sensors := { copter.sensors with motor4 := .int val.toInt } } := by
  have char : (Frame.ofBuffer '5'.toUInt8 (intBuffer val) 4).received.cmd =
      '5' := rfl
  simp [sees, handleCommand, char, unpackInt_intBuffer]

def reported (copter : Copter R) (motors : Motors) (frames : Nat) : Copter R :=
  let sensors := copter.sensors
  { copter with
    sensors :=
      { sensors with
        motor1 :=
          if 0 < frames then .int motors.motor1.toInt else sensors.motor1
        motor2 :=
          if 1 < frames then .int motors.motor2.toInt else sensors.motor2
        motor3 :=
          if 2 < frames then .int motors.motor3.toInt else sensors.motor3
        motor4 :=
          if 3 < frames then .int motors.motor4.toInt else sensors.motor4 } }

private theorem sees_report (copter : Copter R) (motors : Motors)
    (frames : Nat) :
    ((motors.report.flatMap TelemetryEvent.frames).take frames).foldlM sees
      copter = some (copter.reported motors frames) := by
  have report : motors.report.flatMap TelemetryEvent.frames =
      [.ofBuffer '2'.toUInt8 (intBuffer motors.motor1) 4,
        .ofBuffer '3'.toUInt8 (intBuffer motors.motor2) 4,
        .ofBuffer '4'.toUInt8 (intBuffer motors.motor3) 4,
        .ofBuffer '5'.toUInt8 (intBuffer motors.motor4) 4] := rfl
  rw [report]
  match frames with
  | 0 => rfl
  | 1 => simp [sees_motor1, reported]
  | 2 => simp [sees_motor1, sees_motor2, reported]
  | 3 => simp [sees_motor1, sees_motor2, sees_motor3, reported]
  | more + 4 =>
      simp [sees_motor1, sees_motor2, sees_motor3, sees_motor4, reported]

end Copter

/-! ### What the object knows about a flight -/

def motorField (motor : Motors → Int32) : Option Motors → PyNumber R
  | none => .float ((0 : Int) : R)
  | some motors => .int (motor motors).toInt

/-- Every motor is that of one of two reports, and nothing else has been set. -/
structure Copter.Shows (copter : Copter R) (newer older : Option Motors) :
    Prop where
  motor1 : copter.sensors.motor1 = motorField Motors.motor1 newer ∨
    copter.sensors.motor1 = motorField Motors.motor1 older
  motor2 : copter.sensors.motor2 = motorField Motors.motor2 newer ∨
    copter.sensors.motor2 = motorField Motors.motor2 older
  motor3 : copter.sensors.motor3 = motorField Motors.motor3 newer ∨
    copter.sensors.motor3 = motorField Motors.motor3 older
  motor4 : copter.sensors.motor4 = motorField Motors.motor4 newer ∨
    copter.sensors.motor4 = motorField Motors.motor4 older
  others : copter.sensors =
    { CopterSensors.start with
      motor1 := copter.sensors.motor1
      motor2 := copter.sensors.motor2
      motor3 := copter.sensors.motor3
      motor4 := copter.sensors.motor4 }

/-- How many reports have begun in some frames: the first frame of a report is
that of motor 1. -/
def reportsBegun (frames : List Frame) : Nat :=
  frames.countP (fun frame => frame.cmd = '2'.toUInt8)

/-- After the calls have taken some frames, `connected` is a flag that the m3 has
had, and the motors are of the last report that has begun in these frames, or
partly of the one before it. -/
structure HostKnows (stream : List UInt8)
    (start : CommandSystem HandlerFunc (Flight R))
    (events : List (FlightEvent R)) (taken : List Frame) (copter : Copter R) :
    Prop where
  connected : ∃ earlier reached, earlier <+: events ∧
    flightRun stream earlier start = .ok reached ∧
    copter.connected = reached.state.m3.connected
  motors : ∃ read, read <+: flightReports stream start events ∧
    read.length = reportsBegun taken ∧
    copter.Shows read.getLast? read.dropLast.getLast?

structure HostAgrees (stream : List UInt8)
    (start : CommandSystem HandlerFunc (Flight R))
    (events : List (FlightEvent R))
    (after : CommandSystem HandlerFunc (Flight R)) (copter : Copter R) :
    Prop where
  connected : copter.connected = after.state.m3.connected
  motors : copter.Shows (flightReports stream start events).getLast?
    (flightReports stream start events).getLast?

private theorem reportsBegun_append (frames more : List Frame) :
    reportsBegun (frames ++ more) = reportsBegun frames + reportsBegun more :=
  List.countP_append

private theorem reportsBegun_answers (dispatches : List Dispatch) :
    reportsBegun ((dispatches.flatMap Dispatch.answers).flatMap
      TelemetryEvent.frames) = 0 := by
  induction dispatches with
  | nil => rfl
  | cons dispatch dispatches ih =>
      rw [List.flatMap_cons, List.flatMap_append, reportsBegun_append, ih]
      unfold Dispatch.answers
      cases flightTable dispatch.cmd with
      | none => rfl
      | some handler => cases handler <;> rfl

private theorem reportsBegun_report (motors : Motors) (frames : Nat) :
    reportsBegun ((motors.report.flatMap TelemetryEvent.frames).take frames) =
      min frames 1 := by
  match frames with
  | 0 => rfl
  | 1 => rfl
  | 2 => rfl
  | 3 => rfl
  | more + 4 =>
      have whole : (motors.report.flatMap TelemetryEvent.frames).take
          (more + 4) = motors.report.flatMap TelemetryEvent.frames :=
        List.take_of_length_le (Nat.le_add_left 4 more)
      rw [whole, Nat.min_eq_right (by omega)]
      rfl

private theorem reportsBegun_traffic
    (system : CommandSystem HandlerFunc (Flight R)) (event : FlightEvent R) :
    reportsBegun ((event.traffic system).flatMap TelemetryEvent.frames) =
      (event.reported system).length := by
  rw [FlightEvent.traffic_frames, reportsBegun_append, reportsBegun_answers,
    Nat.zero_add]
  rcases event.reported_cases system with none | ⟨motors, one⟩
  · rw [none]
    rfl
  · rw [one, List.flatMap_singleton]
    exact reportsBegun_report motors 4

private theorem reportsBegun_sent (stream : List UInt8)
    (start : CommandSystem HandlerFunc (Flight R))
    (events : List (FlightEvent R)) :
    reportsBegun (flightSent stream start events) =
      (flightReports stream start events).length := by
  unfold flightSent flightTraffic flightReports
  rw [emitted_flatMap]
  induction events generalizing start with
  | nil => rfl
  | cons event events ih =>
      unfold emitted
      split
      · rfl
      · rw [reportsBegun_append, reportsBegun_traffic, ih, List.length_append]

/-! ### One event -/

section

variable {stream : List UInt8}
  {start before after : CommandSystem HandlerFunc (Flight R)}
  {events : List (FlightEvent R)} {event : FlightEvent R} {copter : Copter R}

private theorem answers_tracked
    (same : copter.connected = before.state.m3.connected)
    {dispatch : Option Dispatch}
    (handled : event.handled before = dispatch.toList) :
    Tracked
      (((event.handled before).flatMap Dispatch.answers).flatMap
        TelemetryEvent.frames) Copter.sees
      (fun seen => seen = { copter with connected := event.connects before })
      (fun read seen => reportsBegun read = 0 ∧ (seen = copter ∨
        seen = { copter with connected := event.connects before })) copter := by
  unfold FlightEvent.connects
  rw [handled, ← same]
  cases dispatch with
  | none =>
      constructor
      · intro read part
        rw [List.prefix_nil.mp part]
        exact ⟨copter, rfl, rfl, Or.inl rfl⟩
      · intro seen whole
        cases whole
        rfl
  | some dispatch =>
      obtain ⟨frames, frames_eq, short, seen_eq⟩ := copter.sees_answers dispatch
      have none_begun := reportsBegun_answers [dispatch]
      rw [List.flatMap_singleton, frames_eq] at none_begun
      rw [Option.toList_some, List.flatMap_singleton, frames_eq]
      constructor
      · intro read part
        rcases Nat.eq_zero_or_pos read.length with none_read | all_read
        · rw [List.eq_nil_of_length_eq_zero none_read]
          exact ⟨copter, rfl, rfl, Or.inl rfl⟩
        · have all : read = frames := part.eq_of_length (by
            have bound := part.length_le
            omega)
          rw [all]
          exact ⟨_, seen_eq, none_begun, Or.inr rfl⟩
      · intro seen whole
        rw [seen_eq] at whole
        cases whole
        rfl

theorem Copter.Shows.reported {last : Option Motors}
    (shows : copter.Shows last last) (motors : Motors) (frames : Nat) :
    (copter.reported motors frames).Shows (some motors) last := by
  have new : ∀ {place : Nat} {field : PyNumber R} {motor : Motors → Int32},
      (field = motorField motor last ∨ field = motorField motor last) →
        (if place < frames then PyNumber.int (motor motors).toInt
            else field) = motorField motor (some motors) ∨
          (if place < frames then PyNumber.int (motor motors).toInt
            else field) = motorField motor last := by
    intro place field motor old
    by_cases read : place < frames
    · rw [if_pos read]
      exact Or.inl rfl
    · rw [if_neg read]
      exact Or.inr (old.elim id id)
  constructor
  · exact new shows.motor1
  · exact new shows.motor2
  · exact new shows.motor3
  · exact new shows.motor4
  · unfold Copter.reported
    dsimp only
    rw [shows.others]

private theorem Copter.Shows.reported_all {last : Option Motors}
    (shows : copter.Shows last last) (motors : Motors) {frames : Nat}
    (all : 4 ≤ frames) :
    (copter.reported motors frames).Shows (some motors) (some motors) := by
  have others := (shows.reported motors frames).others
  constructor
  · exact Or.inl (if_pos (by omega))
  · exact Or.inl (if_pos (by omega))
  · exact Or.inl (if_pos (by omega))
  · exact Or.inl (if_pos (by omega))
  · exact others

private theorem Copter.Shows.of_newer {newer : Option Motors}
    (shows : copter.Shows newer newer) (older : Option Motors) :
    copter.Shows newer older := by
  constructor
  · exact Or.inl (shows.motor1.elim id id)
  · exact Or.inl (shows.motor2.elim id id)
  · exact Or.inl (shows.motor3.elim id id)
  · exact Or.inl (shows.motor4.elim id id)
  · exact shows.others

theorem Copter.Shows.congr {newer older : Option Motors} {other : Copter R}
    (shows : copter.Shows newer older)
    (same : other.sensors = copter.sensors) : other.Shows newer older := by
  constructor
  · rw [same]
    exact shows.motor1
  · rw [same]
    exact shows.motor2
  · rw [same]
    exact shows.motor3
  · rw [same]
    exact shows.motor4
  · rw [same]
    exact shows.others

private theorem report_tracked {reports : List Motors}
    (shows : copter.Shows reports.getLast? reports.getLast?)
    (reported : List Motors)
    (single : reported = [] ∨ ∃ motors, reported = [motors]) :
    Tracked ((reported.flatMap Motors.report).flatMap TelemetryEvent.frames)
      Copter.sees
      (fun seen => seen.connected = copter.connected ∧
        seen.Shows (reports ++ reported).getLast?
          (reports ++ reported).getLast?)
      (fun read seen => seen.connected = copter.connected ∧
        ∃ begun, begun <+: reports ++ reported ∧
          begun.length = reports.length + reportsBegun read ∧
          seen.Shows begun.getLast? begun.dropLast.getLast?) copter := by
  rcases single with rfl | ⟨motors, rfl⟩
  · rw [List.append_nil]
    constructor
    · intro read part
      rw [List.prefix_nil.mp part]
      exact ⟨copter, rfl, rfl, reports, List.prefix_refl _, rfl,
        shows.of_newer _⟩
    · intro seen whole
      cases whole
      exact ⟨rfl, shows⟩
  · rw [List.flatMap_singleton]
    constructor
    · intro read part
      rw [List.prefix_iff_eq_take.mp part]
      refine ⟨_, copter.sees_report motors read.length, rfl, ?_⟩
      rw [reportsBegun_report]
      rcases Nat.eq_zero_or_pos read.length with none_read | some_read
      · rw [none_read]
        exact ⟨reports, List.prefix_append _ _, rfl, shows.of_newer _⟩
      · refine ⟨reports ++ [motors], List.prefix_refl _, ?_, ?_⟩
        · rw [Nat.min_eq_right some_read]
          exact List.length_append
        · rw [List.getLast?_concat, List.dropLast_concat]
          exact shows.reported motors read.length
    · intro seen whole
      rw [List.getLast?_concat]
      have read := copter.sees_report motors 4
      have four : (motors.report.flatMap TelemetryEvent.frames).take 4 =
          motors.report.flatMap TelemetryEvent.frames := rfl
      rw [four, whole] at read
      cases read
      exact ⟨rfl, shows.reported_all motors (Nat.le_refl 4)⟩

/-- What the object knows and agrees with is kept by every event. -/
theorem flightStep_tracked
    (begun : events.foldlM (flightStep stream) start = .ok before)
    (stepped : flightStep stream before event = .ok after)
    (table : before.state.m3.cmdMap = flightTable)
    (agrees : HostAgrees stream start events before copter) :
    Tracked ((event.traffic before).flatMap TelemetryEvent.frames) Copter.sees
      (HostAgrees stream start (events ++ [event]) after)
      (fun read => HostKnows stream start (events ++ [event])
        (flightSent stream start events ++ read)) copter := by
  obtain ⟨⟨dispatch, handled⟩, flag⟩ := flightStep_flag table stepped
  have answered := answers_tracked agrees.connected handled
  obtain ⟨told, told_eq, _⟩ := answered.part _ (List.prefix_refl _)
  have told_is := answered.whole told told_eq
  have shows : told.Shows (flightReports stream start events).getLast?
      (flightReports stream start events).getLast? := by
    rw [told_is]
    exact agrees.motors.congr rfl
  have report := report_tracked shows (event.reported before)
    (event.reported_cases before)
  have reports_eq : flightReports stream start (events ++ [event]) =
      flightReports stream start events ++ event.reported before :=
    emitted_concat begun stepped
  have told_flag : told.connected = after.state.m3.connected := by
    rw [told_is, flag]
  have now : flightRun stream (events ++ [event]) start = .ok after := by
    rw [flightRun_eq_foldlM]
    exact foldlM_of_concat begun stepped
  have earlier : flightRun stream events start = .ok before := by
    rw [flightRun_eq_foldlM]
    exact begun
  rw [FlightEvent.traffic_frames]
  constructor
  · intro read part
    rcases List.prefix_or_prefix_of_prefix part (List.prefix_append _ _)
      with behind | ⟨last, rfl⟩
    · obtain ⟨seen, seen_eq, none_begun, seen_is⟩ := answered.part read behind
      have sensors : seen.sensors = copter.sensors := by
        rcases seen_is with rfl | rfl
        · rfl
        · rfl
      refine ⟨seen, seen_eq, ?_, ⟨flightReports stream start events, ?_, ?_,
        (agrees.motors.congr sensors).of_newer _⟩⟩
      · rcases seen_is with rfl | rfl
        · exact ⟨events, before, List.prefix_append _ _, earlier,
            agrees.connected⟩
        · exact ⟨_, after, List.prefix_refl _, now, flag.symm⟩
      · rw [reports_eq]
        exact List.prefix_append _ _
      · rw [reportsBegun_append, reportsBegun_sent, none_begun, Nat.add_zero]
    · obtain ⟨seen, seen_eq, seen_flag, begun_reports, inside, count,
        seen_shows⟩ := report.part last
          ((List.prefix_append_right_inj _).mp part)
      refine ⟨seen, ?_, ?_, ⟨begun_reports, ?_, ?_, seen_shows⟩⟩
      · rw [List.foldlM_append, told_eq]
        exact seen_eq
      · exact ⟨_, after, List.prefix_refl _, now, seen_flag.trans told_flag⟩
      · rw [reports_eq]
        exact inside
      · rw [reportsBegun_append, reportsBegun_append, reportsBegun_sent,
          reportsBegun_answers, Nat.zero_add]
        exact count
  · intro seen whole
    rw [List.foldlM_append, told_eq] at whole
    obtain ⟨seen_flag, seen_shows⟩ := report.whole seen whole
    constructor
    · exact seen_flag.trans told_flag
    · rw [reports_eq]
      exact seen_shows

theorem HostKnows.grows {taken : List Frame}
    (knows : HostKnows stream start events taken copter)
    (event : FlightEvent R) :
    HostKnows stream start (events ++ [event]) taken copter := by
  obtain ⟨⟨earlier, reached, part, ran, flag⟩, read, inside, count, shows⟩ :=
    knows
  constructor
  · exact ⟨earlier, reached, part.trans (List.prefix_append _ _), ran, flag⟩
  · exact ⟨read, inside.trans (emitted_starts _ _ _ _ _), count, shows⟩

end

/-! ### The whole link -/

/-- In every flight whose frames find room, however the host reads: no call of
processCommand raises, and the object knows what the m3 has been; when it has
read everything, it agrees with the m3. -/
theorem processCommand_follows_flight (reset timers : PwmTimers)
    (txMemory rxMemory : RingMemory) (stream : List UInt8)
    (events : List (FlightEvent R)) (valid : ∀ event ∈ events, event.Valid)
    (fits : FlightFits stream reset timers txMemory rxMemory events)
    (after : CommandSystem HandlerFunc (Flight R))
    (ran : flightRun stream events
      (flightStart reset timers txMemory rxMemory) = .ok after)
    (reads : List Nat) (calls : Nat) :
    let start := flightStart reset timers txMemory rxMemory
    ∃ copter rest taken left,
      Copter.start.processCommands calls
        { stream := flightBytes stream txMemory start events, reads } =
          some (copter, rest) ∧
      flightSent stream start events = taken ++ left ∧
      rest.stream = Frame.code.encodeAll left ∧
      HostKnows stream start events taken copter ∧
      (rest.stream = [] → HostAgrees stream start events after copter) := by
  intro start
  have table : start.state.m3.cmdMap = flightTable :=
    flightSetup_cmdMap reset timers txMemory rxMemory
  have tables : ∀ {done : List (FlightEvent R)}
      {reached : CommandSystem HandlerFunc (Flight R)},
      done.foldlM (flightStep stream) start = .ok reached →
        reached.state.m3.cmdMap = flightTable := by
    intro done
    induction done using List.reverseRecOn with
    | nil =>
        intro reached started
        cases started
        exact table
    | append_singleton done event ih =>
        intro reached reaching
        obtain ⟨before, begun, stepped⟩ := foldlM_concat reaching
        exact (flightStep_writes (ih begun) stepped).1
  have first : (Copter.start : Copter R).Shows none none := by
    constructor
    · exact Or.inl rfl
    · exact Or.inl rfl
    · exact Or.inl rfl
    · exact Or.inl rfl
    · rfl
  rw [flightRun_eq_foldlM] at ran
  have sent : ∀ events, emitted (flightStep stream)
      (fun system (event : FlightEvent R) =>
        (event.traffic system).flatMap TelemetryEvent.frames) start events =
          flightSent stream start events :=
    fun events => (emitted_flatMap _ _ events).symm
  have tracked := @observer_knows _ _ _ _ _ (flightStep stream)
    (fun system event =>
      (event.traffic system).flatMap TelemetryEvent.frames) Copter.sees
    (HostAgrees stream start) (HostKnows stream start) start Copter.start
    (fun _ event _ _ knows => knows.grows event)
    (fun events _ _ _ _ begun stepped agrees => by
      rw [sent events]
      exact flightStep_tracked begun stepped (tables begun) agrees)
    { connected := rfl, motors := first }
    { connected := ⟨[], start, List.prefix_refl _, rfl, rfl⟩
      motors := ⟨[], List.nil_prefix, rfl, first⟩ } events after ran
  rw [sent events] at tracked
  obtain ⟨taken, rest, split, folded, consumed⟩ :=
    Copter.processCommands_take calls
      { stream := flightBytes stream txMemory start events, reads }
      (Copter.start : Copter R) (flightSent stream start events)
      (flight_delivers valid fits)
  obtain ⟨copter, seen, knows⟩ := tracked.part taken ⟨rest, split.symm⟩
  rw [seen] at folded
  obtain ⟨done, completed, done_eq⟩ := Option.map_eq_some_iff.mp folded
  refine ⟨copter, done.2, taken, rest, ?_, split, consumed done completed, knows,
    ?_⟩
  · rw [completed, ← done_eq]
  · intro read_all
    have none_left := consumed done completed
    rw [read_all] at none_left
    have no_rest : rest = [] :=
      Frame.code.encodeAll_injective none_left.symm
    rw [no_rest, List.append_nil] at split
    rw [← split] at seen
    exact tracked.whole copter seen

end

/-- The answer and one report are sent, and the object follows them; the second
call finds nothing yet. -/
theorem processCommand_follows_flight_of_connect :
    let start : CommandSystem HandlerFunc (Flight Float32) :=
      flightStart (fun _ => ⟨0, 0, 0, 0, 0⟩) (fun _ => ⟨0, 0, 0, 0, 0⟩)
        ⟨0, 0, nullBuf⟩ ⟨0, 0, nullBuf⟩
    (flightSent [0, 'c'.toUInt8] start connectEvents).map Frame.cmd =
      ['c'.toUInt8, '2'.toUInt8, '3'.toUInt8, '4'.toUInt8, '5'.toUInt8] ∧
    ∃ after copter rest taken left,
      flightRun [0, 'c'.toUInt8] connectEvents start = .ok after ∧
      Copter.start.processCommands 6
        { stream := flightBytes [0, 'c'.toUInt8] ⟨0, 0, nullBuf⟩ start
            connectEvents
          reads := [1, 1, 1, 0, 1, 1, 3, 4, 1, 1, 4, 1, 1, 4, 1, 1, 4] } =
        some (copter, rest) ∧
      flightSent [0, 'c'.toUInt8] start connectEvents = taken ++ left ∧
      HostKnows [0, 'c'.toUInt8] start connectEvents taken copter ∧
      rest.stream = [] ∧
      HostAgrees [0, 'c'.toUInt8] start connectEvents after copter := by
  intro start
  refine ⟨by decide +kernel, ?_⟩
  obtain ⟨after, _, _, ran, _⟩ :=
    (flightStart_framed (fun _ => ⟨0, 0, 0, 0, 0⟩) (fun _ => ⟨0, 0, 0, 0, 0⟩)
      ⟨0, 0, nullBuf⟩ ⟨0, 0, nullBuf⟩ [0, 'c'.toUInt8]).flightRun (by decide)
        connectEvents
  have follows := processCommand_follows_flight
    (fun _ => ⟨0, 0, 0, 0, 0⟩) (fun _ => ⟨0, 0, 0, 0, 0⟩) ⟨0, 0, nullBuf⟩
    ⟨0, 0, nullBuf⟩ [0, 'c'.toUInt8] connectEvents connectEvents_valid
    (flight_fits connectEvents_valid (by decide) ran)
  obtain ⟨copter, rest, taken, left, done, split, _, knows, agrees⟩ :=
    follows after ran [1, 1, 1, 0, 1, 1, 3, 4, 1, 1, 4, 1, 1, 4, 1, 1, 4] 6
  have read_all : ((Copter.start : Copter Float32).processCommands 6
      { stream := flightBytes [0, 'c'.toUInt8] ⟨0, 0, nullBuf⟩ start
          connectEvents
        reads := [1, 1, 1, 0, 1, 1, 3, 4, 1, 1, 4, 1, 1, 4, 1, 1, 4] }).map
          (fun done => done.2.stream) = some [] := by
    decide +kernel
  rw [done] at read_all
  have nothing : rest.stream = [] := Option.some.inj read_all
  exact ⟨after, copter, rest, taken, left, ran, done, split, knows, nothing,
    agrees nothing⟩

end Quadcopter

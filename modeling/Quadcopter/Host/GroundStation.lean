import Quadcopter.Host.Copter
import Quadcopter.Host.ProcessCommand
import Quadcopter.Host.SerialCopter
import Quadcopter.Maple.Linearized

/-
The ground station of the maple board (controller/copter.py, control.py): what
its object knows about the board, and what the board does for it.

Its three methods that send a command are those of panda/user/copter.py, with a
serial port in place of the device.  The struct formats have no '=': the host is a
machine whose floats lie in memory as those of the board do.
-/

namespace Quadcopter

open AtomicProgram InterruptedLoop

variable {R : Type}

structure SerialSensors (R : Type) where
  gyroscope : List (PyNumber R)
  accelerometer : List (PyNumber R)
  magnetometer : List (PyNumber R)
  angles : List (PyNumber R)

structure SerialCopter (R : Type) where
  connected : Bool
  sensors : SerialSensors R

section

variable [CFloat R]

def SerialSensors.start : SerialSensors R :=
  let zero : PyNumber R := .float ((0 : Int) : R)
  { gyroscope := [.int 0, .int 0, .int 0]
    accelerometer := [.int 0, .int 0, .int 0]
    magnetometer := [.int 0, .int 0, .int 0]
    angles := [zero, zero, zero] }

namespace SerialCopter

def start : SerialCopter R := { connected := false, sensors := .start }

/-- What processCommand does with the command that it has received; `none` if
struct.unpack raises. -/
def handleCommand (cmd buf : List UInt8) (copter : SerialCopter R) :
    Option (SerialCopter R) :=
  let sensors := copter.sensors
  if cmd = ['c'.toUInt8] then some { copter with connected := true }
  else if cmd = ['d'.toUInt8] then some { copter with connected := false }
  else if cmd = ['0'.toUInt8] then do
    let sd ← unpackFloats 9 buf
    return { copter with
      sensors :=
        { sensors with
          gyroscope := [sd 0, sd 1, sd 2]
          accelerometer := [sd 3, sd 4, sd 5]
          magnetometer := [sd 6, sd 7, sd 8] } }
  else if cmd = ['1'.toUInt8] then do
    let sd ← unpackFloats 3 buf
    return { copter with
      sensors := { sensors with angles := [sd 0, sd 1, sd 2] } }
  else some copter

/-- `none` if an exception leaves the call. -/
def processCommand (call : SerialCall) (stream : List UInt8)
    (copter : SerialCopter R) : Option (SerialCopter R × List UInt8) :=
  match call.recvCommand stream with
  | (.nothing, stream) => some (copter, stream)
  | (.indexError, _) => none
  | (.command cmd buf, stream) => do
      let copter ← copter.handleCommand cmd buf
      return (copter, stream)

def processCommands : List SerialCall → List UInt8 → SerialCopter R →
    Option (SerialCopter R × List UInt8)
  | [], stream, copter => some (copter, stream)
  | call :: calls, stream, copter => do
      let (copter, stream) ← copter.processCommand call stream
      copter.processCommands calls stream

def sees (copter : SerialCopter R) (frame : Frame) : Option (SerialCopter R) :=
  copter.handleCommand [frame.cmd] frame.payload

private theorem processCommand_idle {call : SerialCall}
    (idle : call.waiting = 0)
    (stream : List UInt8) (copter : SerialCopter R) :
    copter.processCommand call stream = some (copter, stream) := by
  unfold processCommand
  rw [SerialCall.recvCommand_idle idle]

private theorem processCommand_prompt {call : SerialCall} {frame : Frame}
    (busy : call.waiting ≠ 0) (prompt : call.Prompt frame)
    (rest : List UInt8) (copter : SerialCopter R) :
    copter.processCommand call (frame.encode ++ rest) =
      (copter.sees frame).map (fun copter => (copter, rest)) := by
  unfold processCommand
  rw [(SerialCall.recvCommand_frame_iff busy).mpr prompt]
  change ((copter.sees frame).bind fun copter => some (copter, rest)) = _
  cases copter.sees frame with
  | none => rfl
  | some next => rfl

/-- Calls without a timeout take some of the frames to come, and what follows
these frames stays. -/
theorem processCommands_take {frames : List Frame} {calls : List SerialCall}
    (prompt : SerialCall.AllPrompt frames calls) (tail : List UInt8)
    (copter : SerialCopter R) :
    ∃ taken rest, frames = taken ++ rest ∧
      copter.processCommands calls (Frame.code.encodeAll frames ++ tail) =
        (taken.foldlM sees copter).map (fun copter =>
          (copter, Frame.code.encodeAll rest ++ tail)) := by
  induction calls generalizing frames copter with
  | nil => exact ⟨[], frames, rfl, rfl⟩
  | cons call calls ih =>
      unfold processCommands
      by_cases idle : call.waiting = 0
      · rw [processCommand_idle idle]
        exact ih ((SerialCall.allPrompt_idle frames calls idle).mp prompt) copter
      · cases frames with
        | nil => exact absurd prompt.1 idle
        | cons frame frames =>
            rw [SerialCall.AllPrompt, if_neg idle] at prompt
            have stream : Frame.code.encodeAll (frame :: frames) ++ tail =
                frame.encode ++ (Frame.code.encodeAll frames ++ tail) := by
              rw [SelfDelimiting.Code.encodeAll_cons, List.append_assoc]
              rfl
            rw [stream, processCommand_prompt idle prompt.1]
            cases seen : copter.sees frame with
            | none =>
                refine ⟨[frame], frames, rfl, ?_⟩
                rw [List.foldlM_cons, seen]
                rfl
            | some next =>
                obtain ⟨taken, rest, rfl, done⟩ := ih prompt.2 next
                refine ⟨frame :: taken, rest, rfl, ?_⟩
                rw [List.foldlM_cons, seen]
                exact done

end SerialCopter

private theorem unpackFloats_packFloats (values : List R) :
    ∃ sd, unpackFloats values.length (packFloats values) = some sd ∧
      ∀ place value, values[place]? = some value → sd place = .float value := by
  refine ⟨_, if_pos (packFloats_length values), ?_⟩
  intro place value present
  rw [PyNumber.float.injEq]
  unfold buf2Float
  induction values generalizing place with
  | nil => cases present
  | cons first values ih =>
      cases place with
      | zero =>
          cases present
          have word : MachineInt.wordAt
              (fun i => (packFloats (value :: values)).getD i 0) (0 * 4) =
                CFloat.toBits value := MachineInt.wordAt_of_bytes rfl
          unfold floatAt
          rw [word, CFloat.ofBits_toBits]
      | succ place =>
          have start : (place + 1) * 4 = place * 4 + 4 := by omega
          rw [List.getElem?_cons_succ] at present
          rw [start]
          exact ih place present

def Vector3.unpacked (v : Vector3 R) : List (PyNumber R) :=
  [.float v.x, .float v.y, .float v.z]

namespace SerialCopter

private theorem sees_sd (copter : SerialCopter R) (sd : SensorData R) :
    copter.sees sd.frame =
      some { copter with
        sensors :=
          { copter.sensors with
            gyroscope := sd.gyro.unpacked
            accelerometer := sd.accel.unpacked
            magnetometer := sd.mag.unpacked } } := by
  obtain ⟨fields, unpacked, field⟩ := @unpackFloats_packFloats R _
    [sd.gyro.x, sd.gyro.y, sd.gyro.z, sd.accel.x, sd.accel.y, sd.accel.z,
      sd.mag.x, sd.mag.y, sd.mag.z]
  have whole : unpackFloats 9 sd.frame.payload = some fields := unpacked
  have char : sd.frame.cmd = '0'.toUInt8 := rfl
  unfold sees handleCommand
  dsimp only
  rw [whole, char, if_neg (by decide), if_neg (by decide), if_pos rfl]
  change some _ = _
  rw [field 0 _ rfl, field 1 _ rfl, field 2 _ rfl, field 3 _ rfl,
    field 4 _ rfl, field 5 _ rfl, field 6 _ rfl, field 7 _ rfl,
    field 8 _ rfl]
  rfl

private theorem sees_angles (copter : SerialCopter R) (angles : Vector3 R) :
    copter.sees angles.frame =
      some { copter with
        sensors := { copter.sensors with angles := angles.unpacked } } := by
  obtain ⟨fields, unpacked, field⟩ := @unpackFloats_packFloats R _
    [angles.x, angles.y, angles.z]
  have whole : unpackFloats 3 angles.frame.payload = some fields := unpacked
  have char : angles.frame.cmd = '1'.toUInt8 := rfl
  unfold sees handleCommand
  dsimp only
  rw [whole, char, if_neg (by decide), if_neg (by decide),
    if_neg (by decide), if_pos rfl]
  change some _ = _
  rw [field 0 _ rfl, field 1 _ rfl, field 2 _ rfl]
  rfl

def copied (copter : SerialCopter R) (attitude : Attitude R) (frames : Nat) :
    SerialCopter R :=
  let sensors := copter.sensors
  { copter with
    sensors :=
      { gyroscope :=
          if 0 < frames then attitude.sd.gyro.unpacked else sensors.gyroscope
        accelerometer :=
          if 0 < frames then attitude.sd.accel.unpacked
          else sensors.accelerometer
        magnetometer :=
          if 0 < frames then attitude.sd.mag.unpacked else sensors.magnetometer
        angles :=
          if 1 < frames then attitude.angles.unpacked else sensors.angles } }

private theorem sees_snapshot (copter : SerialCopter R) (state : MapleState R)
    (frames : Nat) :
    ((MapleEvent.snapshot.frames state).take frames).foldlM sees copter =
      some (copter.copied state.attitude frames) := by
  unfold MapleEvent.frames
  dsimp only
  match frames with
  | 0 => rfl
  | 1 => simp [sees_sd, copied]
  | more + 2 => simp [sees_sd, sees_angles, copied]

/-- A command is answered by one frame at most, which sets the flag as the
handler has set the board's. -/
theorem sees_replies (copter : SerialCopter R) {state : MapleState R}
    (same : copter.connected = state.connected) (dispatch : Dispatch) :
    ∃ next frames, MapleEvent.step state (.command dispatch) = .ok next ∧
      MapleEvent.frames state (.command dispatch) = frames ∧
      frames.length ≤ 1 ∧
      frames.foldlM sees copter =
        some { copter with connected := next.connected } := by
  cases chosen : MapleCommand.cmdMap dispatch.cmd with
  | none =>
      obtain ⟨stepped, frames⟩ := MapleEvent.command_unknown chosen state
      refine ⟨_, _, stepped, frames, Nat.le_refl _, ?_⟩
      rw [← same]
      rfl
  | some func =>
      obtain ⟨stepped, frames⟩ := MapleEvent.command_chosen chosen state
      refine ⟨_, _, stepped, frames, ?_⟩
      cases func with
      | testCmd =>
          refine ⟨Nat.le_refl _, ?_⟩
          change some copter = some { copter with connected := state.connected }
          rw [← same]
      | connectCmd => exact ⟨Nat.le_refl _, rfl⟩
      | disconnectCmd => exact ⟨Nat.le_refl _, rfl⟩
      | motorOn =>
          refine ⟨Nat.zero_le _, ?_⟩
          change some copter = some { copter with connected := state.connected }
          rw [← same]
      | motorOff =>
          refine ⟨Nat.zero_le _, ?_⟩
          change some copter = some { copter with connected := state.connected }
          rw [← same]
      | updateGains =>
          refine ⟨Nat.zero_le _, ?_⟩
          change some copter = some { copter with connected := state.connected }
          rw [← same]

end SerialCopter

/-! ### What the object knows about the board -/

def MapleEvent.copies (state : MapleState R) : MapleEvent → List (Attitude R)
  | .snapshot => [state.attitude]
  | _ => []

def mapleSnapshots (gyroOffset accelOffset : Vector3 R)
    (trace : List MapleEvent) : List (Attitude R) :=
  emitted MapleEvent.step MapleEvent.copies
    (.start gyroOffset accelOffset) trace

def SerialSensors.of (sensors angles : Option (Attitude R)) : SerialSensors R :=
  { gyroscope :=
      (sensors.map (fun attitude => attitude.sd.gyro.unpacked)).getD
        SerialSensors.start.gyroscope
    accelerometer :=
      (sensors.map (fun attitude => attitude.sd.accel.unpacked)).getD
        SerialSensors.start.accelerometer
    magnetometer :=
      (sensors.map (fun attitude => attitude.sd.mag.unpacked)).getD
        SerialSensors.start.magnetometer
    angles :=
      (angles.map (fun attitude => attitude.angles.unpacked)).getD
        SerialSensors.start.angles }

variable {gyroOffset accelOffset : Vector3 R} {trace : List MapleEvent}
  {state before after : MapleState R} {copter : SerialCopter R}

def StationAgrees (gyroOffset accelOffset : Vector3 R)
    (trace : List MapleEvent) (state : MapleState R) (copter : SerialCopter R) :
    Prop :=
  copter =
    { connected := state.connected
      sensors :=
        .of (mapleSnapshots gyroOffset accelOffset trace).getLast?
          (mapleSnapshots gyroOffset accelOffset trace).getLast? }

/-- The object is that of one moment, but for angles that may be those of the
snapshot before. -/
def StationKnows (gyroOffset accelOffset : Vector3 R)
    (trace : List MapleEvent) (copter : SerialCopter R) : Prop :=
  ∃ earlier reached angles, earlier <+: trace ∧
    earlier.foldlM MapleEvent.step (.start gyroOffset accelOffset) =
      .ok reached ∧
    (angles = (mapleSnapshots gyroOffset accelOffset earlier).getLast? ∨
      angles =
        (mapleSnapshots gyroOffset accelOffset earlier).dropLast.getLast?) ∧
    copter =
      { connected := reached.connected
        sensors :=
          .of (mapleSnapshots gyroOffset accelOffset earlier).getLast? angles }

theorem StationAgrees.knows
    (agrees : StationAgrees gyroOffset accelOffset trace state copter)
    (ran : trace.foldlM MapleEvent.step (.start gyroOffset accelOffset) =
      .ok state) :
    StationKnows gyroOffset accelOffset trace copter :=
  ⟨trace, state, _, List.prefix_refl _, ran, Or.inl rfl, agrees⟩

theorem StationKnows.grows
    (knows : StationKnows gyroOffset accelOffset trace copter)
    (event : MapleEvent) :
    StationKnows gyroOffset accelOffset (trace ++ [event]) copter := by
  obtain ⟨earlier, reached, angles, part, known⟩ := knows
  exact ⟨earlier, reached, angles, part.trans (List.prefix_append _ _), known⟩

theorem StationAgrees.silent {event : MapleEvent}
    (agrees : StationAgrees gyroOffset accelOffset trace before copter)
    (snapshots : mapleSnapshots gyroOffset accelOffset (trace ++ [event]) =
      mapleSnapshots gyroOffset accelOffset trace) :
    StationAgrees gyroOffset accelOffset (trace ++ [event]) after
      { copter with connected := after.connected } := by
  unfold StationAgrees at agrees ⊢
  rw [snapshots, agrees]

private theorem mapleStep_tracked {event : MapleEvent}
    (begun : trace.foldlM MapleEvent.step (.start gyroOffset accelOffset) =
      .ok before)
    (stepped : event.step before = .ok after)
    (agrees : StationAgrees gyroOffset accelOffset trace before copter) :
    Tracked (event.frames before) SerialCopter.sees
      (StationAgrees gyroOffset accelOffset (trace ++ [event]) after)
      (fun _ => StationKnows gyroOffset accelOffset (trace ++ [event]))
      copter := by
  have ran := foldlM_of_concat begun stepped
  have snapshots : mapleSnapshots gyroOffset accelOffset (trace ++ [event]) =
      mapleSnapshots gyroOffset accelOffset trace ++ event.copies before :=
    emitted_concat begun stepped
  have unread := (agrees.knows begun).grows event
  have flag : copter.connected = before.connected := by
    rw [agrees]
  cases event with
  | tick input =>
      have same : { copter with connected := after.connected } = copter := by
        cases stepped
        rw [← flag]
      constructor
      · intro read part
        rw [List.prefix_nil.mp part]
        exact ⟨copter, rfl, unread⟩
      · intro seen whole
        cases whole
        rw [← same]
        exact agrees.silent (snapshots.trans (List.append_nil _))
  | command dispatch =>
      obtain ⟨next, frames, stepped_next, frames_eq, short, seen_eq⟩ :=
        copter.sees_replies flag dispatch
      rw [stepped] at stepped_next
      cases stepped_next
      have agrees_after := @StationAgrees.silent _ _ _ _ _ _ after _ _ agrees
        (snapshots.trans (List.append_nil _))
      rw [frames_eq]
      constructor
      · intro read part
        rcases Nat.eq_zero_or_pos read.length with none_read | all_read
        · rw [List.eq_nil_of_length_eq_zero none_read]
          exact ⟨copter, rfl, unread⟩
        · have all : read = frames := part.eq_of_length (by
            have bound := part.length_le
            omega)
          rw [all]
          exact ⟨_, seen_eq, agrees_after.knows ran⟩
      · intro seen whole
        rw [seen_eq] at whole
        cases whole
        exact agrees_after
  | snapshot =>
      have same : after = before := by
        change (if before.connected then Except.ok before else _) = _ at stepped
        split at stepped
        · cases stepped
          rfl
        · cases stepped
      have last : (mapleSnapshots gyroOffset accelOffset
          (trace ++ [.snapshot])).getLast? = some before.attitude := by
        rw [snapshots]
        exact List.getLast?_concat
      have earlier : (mapleSnapshots gyroOffset accelOffset
          (trace ++ [.snapshot])).dropLast.getLast? =
            (mapleSnapshots gyroOffset accelOffset trace).getLast? := by
        rw [snapshots]
        exact congrArg List.getLast? List.dropLast_concat
      have agrees_after : ∀ more, StationAgrees gyroOffset accelOffset
          (trace ++ [.snapshot]) after
          (copter.copied before.attitude (more + 2)) := by
        intro more
        unfold StationAgrees
        rw [last, same, ← flag]
        rfl
      constructor
      · intro read part
        rw [List.prefix_iff_eq_take.mp part]
        refine ⟨_, copter.sees_snapshot before read.length, ?_⟩
        match read.length with
        | 0 => exact unread
        | 1 =>
            refine ⟨_, after, _, List.prefix_refl _, ran, Or.inr rfl, ?_⟩
            rw [last, earlier, same, agrees]
            rfl
        | more + 2 => exact (agrees_after more).knows ran
      · intro seen whole
        have read := copter.sees_snapshot before 2
        change (MapleEvent.snapshot.frames before).foldlM _ _ = _ at read
        rw [whole] at read
        cases read
        exact agrees_after 0

theorem Linearized.seen
    {machine : LoopState (BoardOp R) BoardOp.Answer MapleHalt MapleCommand
      (MapleBoard R)}
    (linear : Linearized gyroOffset accelOffset machine trace state)
    {calls : List SerialCall}
    (prompt : SerialCall.AllPrompt (Frame.code.decodeAll machine.state.tx).1
      calls) :
    ∃ copter rest,
      SerialCopter.start.processCommands calls machine.state.tx =
        some (copter, rest) ∧
      StationKnows gyroOffset accelOffset trace copter ∧
      (rest = [] → ∀ command, machine.program = .ret (.ok command) →
        StationAgrees gyroOffset accelOffset trace state copter) := by
  have first : StationAgrees gyroOffset accelOffset []
      (.start gyroOffset accelOffset) SerialCopter.start := rfl
  have tracked : Tracked (mapleSent gyroOffset accelOffset trace)
      SerialCopter.sees (StationAgrees gyroOffset accelOffset trace state)
      (fun _ => StationKnows gyroOffset accelOffset trace)
      SerialCopter.start := by
    refine @observer_knows _ _ _ _ _ _ _ _ _
      (fun trace _ => StationKnows gyroOffset accelOffset trace) _ _ ?_ ?_
      first (first.knows rfl) _ _ linear.ran
    · exact fun _ event _ _ knows => knows.grows event
    · exact fun _ _ _ _ _ => mapleStep_tracked
  have cut := Frame.code.decodeAll_whole machine.state.tx
  have all_sent : Frame.code.decodeAll
      (Frame.code.encodeAll (mapleSent gyroOffset accelOffset trace)) =
        (mapleSent gyroOffset accelOffset trace, []) := by
    have decoded := Frame.code.decodeAll_eq
      (mapleSent gyroOffset accelOffset trace) [] rfl
    rw [List.append_nil] at decoded
    exact decoded
  have inside : (Frame.code.decodeAll machine.state.tx).1 <+:
      mapleSent gyroOffset accelOffset trace := by
    have part := Frame.code.decodeAll_mono linear.sent
    rw [all_sent] at part
    exact part
  obtain ⟨taken, rest, split, done⟩ := SerialCopter.processCommands_take
    (R := R) prompt (Frame.code.decodeAll machine.state.tx).2 .start
  rw [split] at inside
  obtain ⟨seen, seen_eq, knows⟩ := tracked.part taken
    ((List.prefix_append _ _).trans inside)
  rw [cut, seen_eq] at done
  refine ⟨seen, _, done, knows, ?_⟩
  intro consumed command between
  have settled := (linear.settled command between).2.1
  rw [settled, all_sent] at split
  have none_left : rest = [] := by
    have none : Frame.code.encodeAll rest = Frame.code.encodeAll [] :=
      (List.append_eq_nil_iff.mp consumed).1
    exact Frame.code.encodeAll_injective none
  rw [none_left, List.append_nil] at split
  rw [← split] at seen_eq
  exact tracked.whole seen seen_eq

/-! ### The commands of the host -/

/-- A call of a method that sends a command; control.py sends 'p' and 'o' with
sendCommand itself. -/
inductive SerialCopterCall (R : Type) where
  | updateGains (gain1 gain2 : R)
  | sendConnect
  | sendDisconnect
  | sendOn
  | sendOff

namespace SerialCopterCall

def send : SerialCopterCall R → Option (List UInt8)
  | .updateGains gain1 gain2 => Copter.updateGains gain1 gain2
  | .sendConnect => Copter.sendConnect
  | .sendDisconnect => Copter.sendDisconnect
  | .sendOn => Copter.sendCommand 'p' []
  | .sendOff => Copter.sendCommand 'o' []

def sendAll : List (SerialCopterCall R) → Option (List UInt8)
  | [] => some []
  | call :: calls => do
      let bytes ← call.send
      let rest ← sendAll calls
      return bytes ++ rest

def cmd : SerialCopterCall R → Char
  | .updateGains _ _ => 'u'
  | .sendConnect => 'c'
  | .sendDisconnect => 'd'
  | .sendOn => 'p'
  | .sendOff => 'o'

def payload : SerialCopterCall R → List UInt8
  | .updateGains gain1 gain2 => packFloats [gain1, gain2]
  | _ => []

theorem payload_small (call : SerialCopterCall R) :
    call.payload.length < 256 := by
  cases call <;>
    simp [payload]

def frame (call : SerialCopterCall R) : Frame where
  cmd := call.cmd.toUInt8
  payload := call.payload
  payload_small := call.payload_small

omit [CFloat R] in
theorem cmd_ascii (call : SerialCopterCall R) :
    call.cmd.toNat < 256 ∧ call.cmd.toUInt8.toNat < 128 := by
  have listed : call.cmd ∈ ['u', 'c', 'd', 'p', 'o'] := by
    cases call <;>
      simp [cmd]
  have ascii : ['u', 'c', 'd', 'p', 'o'].all (fun char =>
      decide (char.toNat < 256 ∧ char.toUInt8.toNat < 128)) = true := by
    decide
  exact of_decide_eq_true (List.all_eq_true.mp ascii _ listed)

theorem send_frame (call : SerialCopterCall R) :
    call.send = some call.frame.encode := by
  have whole : call.send = Copter.sendCommand call.cmd call.payload := by
    cases call <;> rfl
  rw [whole]
  exact if_pos ⟨call.payload_small, call.cmd_ascii.1⟩

theorem sendAll_frames (calls : List (SerialCopterCall R)) :
    sendAll calls = some (Frame.code.encodeAll (calls.map frame)) := by
  induction calls with
  | nil => rfl
  | cons call calls ih =>
      unfold sendAll
      rw [send_frame, ih]
      rfl

end SerialCopterCall

structure StationPoint (R : Type) where
  connected : Bool
  compare : TimerChannel → UInt16
  errorGain : R
  gyroBiasGain : R

def MapleState.point (state : MapleState R) : StationPoint R :=
  { connected := state.connected
    compare := state.compare
    errorGain := state.attitude.angle.errorGain
    gyroBiasGain := state.attitude.angle.gyroBiasGain }

def SerialCopterCall.sets (point : StationPoint R) :
    SerialCopterCall R → StationPoint R
  | .updateGains gain1 gain2 =>
      { point with errorGain := gain1, gyroBiasGain := gain2 }
  | .sendConnect => { point with connected := true }
  | .sendDisconnect => { point with connected := false }
  | .sendOn =>
      { point with
        compare := Function.update point.compare .ch2
          (BoardProgram.pwmScaled 10000) }
  | .sendOff =>
      { point with
        compare := Function.update point.compare .ch2
          (BoardProgram.pwmScaled 0) }

def StationPoint.start : StationPoint R :=
  { connected := false
    compare := fun _ => BoardProgram.pwmScaled 0
    errorGain := (0 : Int)
    gyroBiasGain := (0 : Int) }

/-- The handler of a call's frame does what the call is for. -/
theorem station_effect {dispatch : Dispatch} {call : SerialCopterCall R}
    (named : dispatch.frame = call.frame) (state : MapleState R) :
    ∃ func, MapleCommand.cmdMap dispatch.cmd = some func ∧
      (func.effect dispatch state).point = call.sets state.point := by
  have cmd : dispatch.cmd = ⟨call.cmd.toUInt8.toNat, call.cmd_ascii.2⟩ := by
    apply Fin.ext
    rw [← dispatch.frame_cmd, named]
    rfl
  rw [cmd]
  cases call with
  | updateGains gain1 gain2 =>
      have gain : ∀ (off : Nat) (value : R),
          [gain1, gain2][off]? = some value →
          buf2Float dispatch.buf off = value := by
        intro off value present
        exact buf2Float_of_floats named (List.append_nil _).symm present
      have errorGain : floatAt dispatch.buf 0 = gain1 := gain 0 gain1 rfl
      have gyroBiasGain : floatAt dispatch.buf 4 = gain2 := gain 1 gain2 rfl
      refine ⟨.updateGains, rfl, ?_⟩
      unfold MapleFunc.effect
      rw [errorGain, gyroBiasGain]
      rfl
  | sendConnect => exact ⟨.connectCmd, rfl, rfl⟩
  | sendDisconnect => exact ⟨.disconnectCmd, rfl, rfl⟩
  | sendOn => exact ⟨.motorOn, rfl, rfl⟩
  | sendOff => exact ⟨.motorOff, rfl, rfl⟩

private theorem point_of_calls {done : List (SerialCopterCall R)}
    (ran : trace.foldlM MapleEvent.step (.start gyroOffset accelOffset) =
      .ok state)
    (commands : trace.filterMap MapleEvent.frame? =
      done.map SerialCopterCall.frame) :
    state.point = done.foldl SerialCopterCall.sets .start := by
  induction trace using List.reverseRecOn generalizing state done with
  | nil =>
      cases ran
      rw [List.map_eq_nil_iff.mp commands.symm]
      rfl
  | append_singleton trace event ih =>
      obtain ⟨before, begun, stepped⟩ := foldlM_concat ran
      rw [List.filterMap_append] at commands
      cases event with
      | tick input =>
          cases stepped
          change before.point = _
          exact ih begun ((List.append_nil _).symm.trans commands)
      | command dispatch =>
          obtain ⟨earlier, last, rfl, handled, now⟩ :=
            List.map_eq_append_iff.mp commands.symm
          obtain ⟨call, rfl, named⟩ := List.map_eq_singleton_iff.mp now
          obtain ⟨func, chosen, effect⟩ := station_effect named.symm before
          have moved := (MapleEvent.command_chosen chosen before).1
          rw [moved] at stepped
          cases stepped
          rw [effect, ih begun handled.symm, List.foldl_append]
          rfl
      | snapshot =>
          have same : state = before := by
            change (if before.connected then Except.ok before else _) = _
              at stepped
            split at stepped
            · cases stepped
              rfl
            · cases stepped
          rw [same]
          exact ih begun ((List.append_nil _).symm.trans commands)

/-! ### The whole session -/

/-- Whatever the timing of the interrupts: the board has done what a first part
of the calls says and does not stop; no call of processCommand raises, and the
object is that of one moment of the board. -/
theorem ground_station_session (buffer : UsartBuffer)
    (gyroOffset accelOffset : Vector3 R) (turns : List (Turn MapleInterrupt))
    {sends : List (SerialCopterCall R)} {stream : List UInt8}
    (sent : SerialCopterCall.sendAll sends = some stream)
    (received :
      (mapleRun buffer gyroOffset accelOffset turns).state.read <+: stream)
    {calls : List SerialCall}
    (prompt : SerialCall.AllPrompt
      (Frame.code.decodeAll
        (mapleRun buffer gyroOffset accelOffset turns).state.tx).1 calls) :
    let machine := mapleRun buffer gyroOffset accelOffset turns
    ∃ trace state done copter rest,
      Linearized gyroOffset accelOffset machine trace state ∧
      (∀ halt, machine.program ≠ .ret (.error halt)) ∧
      done <+: sends ∧
      state.point = done.foldl SerialCopterCall.sets .start ∧
      SerialCopter.start.processCommands calls machine.state.tx =
        some (copter, rest) ∧
      StationKnows gyroOffset accelOffset trace copter ∧
      ∀ command, machine.program = .ret (.ok command) →
        (machine.state.read = stream → done = sends) ∧
        (rest = [] →
          StationAgrees gyroOffset accelOffset trace state copter) := by
  intro machine
  obtain ⟨trace, state, linear⟩ := linearized_of_going
    (mapleRun_going buffer gyroOffset accelOffset turns)
  change Linearized gyroOffset accelOffset machine trace state at linear
  obtain ⟨copter, rest, seen, knows, agrees⟩ := linear.seen prompt
  have frames : (Frame.code.decodeAll stream).1 =
      sends.map SerialCopterCall.frame := by
    rw [SerialCopterCall.sendAll_frames, Option.some.injEq] at sent
    rw [← sent, Frame.code.decodeAll_encodeAll]
  have heard : (Frame.code.decodeAll machine.state.read).1 <+:
      sends.map SerialCopterCall.frame := by
    rw [← frames]
    exact Frame.code.decodeAll_mono received
  obtain ⟨more, split⟩ := linear.commands.trans heard
  obtain ⟨done, left, rfl, commands, _⟩ :=
    List.map_eq_append_iff.mp split.symm
  refine ⟨trace, state, done, copter, rest, linear, ?_, List.prefix_append _ _,
    point_of_calls linear.ran commands.symm, seen, knows, ?_⟩
  · intro halt halted
    obtain ⟨_, frame, large, read⟩ := linear.stopped halt halted
    have member : frame ∈ (Frame.code.decodeAll machine.state.read).1 := by
      rw [read, Frame.code.decodeAll_encodeAll]
      exact List.mem_append_right _ (List.mem_singleton_self frame)
    obtain ⟨call, _, rfl⟩ := List.mem_map.mp (heard.subset member)
    have small : call.frame.cmd.toNat < 128 := call.cmd_ascii.2
    omega
  · intro command between
    refine ⟨?_, fun consumed => agrees consumed command between⟩
    intro all_read
    have all := (linear.settled command between).1
    rw [all_read, frames, ← commands] at all
    exact (List.prefix_append done left).eq_of_length (by
      rw [← List.length_map SerialCopterCall.frame, all, List.length_map])

end

def SerialCall.whole (length : Nat) : SerialCall :=
  { waiting := length + 2, size := 1, cmd := 1, payload := length }

private theorem SerialCall.allPrompt_whole {frames : List Frame}
    {lengths : List Nat}
    (same : frames.map (fun frame => frame.payload.length) = lengths) :
    AllPrompt frames (lengths.map whole) := by
  subst same
  induction frames with
  | nil => trivial
  | cons frame frames ih =>
      have busy : (whole frame.payload.length).waiting ≠ 0 := Nat.succ_ne_zero _
      rw [List.map_cons, List.map_cons, AllPrompt, if_neg busy]
      exact ⟨⟨Nat.le_refl 1, Nat.le_refl 1, Nat.le_refl _⟩, ih⟩

/-- The host connects; the board answers and sends one snapshot. -/
def connectTurns : List (Turn MapleInterrupt) :=
  .interrupt (.usart 0) :: .interrupt (.usart 'c'.toUInt8) ::
    List.replicate 108 .main

def wideBuffer : UsartBuffer where
  insert := fun queue byte => queue ++ [byte]
  keeps := by simp

def noOffset : Vector3 Float32 := ⟨0, 0, 0⟩

def atRound {Op τ σ : Type} {Answer : Op → Type}
    (machine : LoopState Op Answer MapleHalt τ σ) : Option τ :=
  match machine.program with
  | .ret (.ok value) => some value
  | _ => none

theorem ground_station_session_of_connect :
    ∃ trace state copter,
      Linearized noOffset noOffset
        (mapleRun wideBuffer noOffset noOffset connectTurns) trace state ∧
      state.point =
        ([.sendConnect] : List (SerialCopterCall Float32)).foldl
          SerialCopterCall.sets .start ∧
      SerialCopter.start.processCommands ([0, 36, 12].map SerialCall.whole)
          (mapleRun wideBuffer noOffset noOffset connectTurns).state.tx =
        some (copter, []) ∧
      copter.connected = true ∧
      StationKnows noOffset noOffset trace copter ∧
      StationAgrees noOffset noOffset trace state copter := by
  have lengths : ((Frame.code.decodeAll
      (mapleRun wideBuffer noOffset noOffset connectTurns).state.tx).1.map
        (fun frame => frame.payload.length)) = [0, 36, 12] := by
    decide +kernel
  have read_all :
      (mapleRun wideBuffer noOffset noOffset connectTurns).state.read =
        [0, 'c'.toUInt8] := by
    decide +kernel
  have ended :
      (atRound (mapleRun wideBuffer noOffset noOffset connectTurns)).isSome =
        true := by
    decide +kernel
  have shown : ((SerialCopter.start : SerialCopter Float32).processCommands
      ([0, 36, 12].map SerialCall.whole)
      (mapleRun wideBuffer noOffset noOffset connectTurns).state.tx).map
        (fun done => (done.1.connected, done.2)) = some (true, []) := by
    decide +kernel
  have sent : SerialCopterCall.sendAll
      [(.sendConnect : SerialCopterCall Float32)] =
        some [0, 'c'.toUInt8] := rfl
  have session := @ground_station_session _ _ wideBuffer noOffset noOffset
    connectTurns _ _ sent
  -- a variable, which elaboration does not run
  generalize mapleRun wideBuffer noOffset noOffset connectTurns = machine
    at session lengths read_all ended shown ⊢
  obtain ⟨trace, state, done, copter, rest, linear, _, _, point, seen, knows,
    settled⟩ := session (read_all ▸ List.prefix_refl _)
      (SerialCall.allPrompt_whole lengths)
  rw [seen] at shown
  obtain ⟨connected, nothing⟩ := Prod.mk.inj (Option.some.inj shown)
  dsimp only at nothing
  subst nothing
  unfold atRound at ended
  split at ended
  · next command between =>
      obtain ⟨all_done, agrees⟩ := settled command between
      rw [all_done read_all] at point
      exact ⟨trace, state, copter, linear, point, seen, connected, knows,
        agrees rfl⟩
  · cases ended

end Quadcopter

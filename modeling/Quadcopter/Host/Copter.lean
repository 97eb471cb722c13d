import Quadcopter.M3.Control

/-
The host's commands (panda/user/copter.py) and what the m3 makes of them.

Each method packs its arguments in a format of Python's struct; each handler of
the m3 reads them back by offsets.  A float argument of Python is a binary32 value
here, which struct.pack encodes without loss.
-/

namespace Quadcopter

open CommandSystem

variable {R : Type}

def packFloats [CFloat R] (values : List R) : List UInt8 :=
  values.flatMap (fun value => MachineInt.wordBytes (CFloat.toBits value))

namespace Copter

/-- The bytes written to the device; `none` if bytearray.append raises. -/
def sendCommand (cmd : Char) (buf : List UInt8) : Option (List UInt8) :=
  if buf.length < 256 ∧ cmd.toNat < 256 then
    some (UInt8.ofNat buf.length :: cmd.toUInt8 :: buf)
  else none

section

variable [CFloat R]

def updateGains (gain1 gain2 : R) : Option (List UInt8) :=
  sendCommand 'u' (packFloats [gain1, gain2])

def tune (pitchP pitchI pitchD rollP rollI rollD yawP yawI yawD : R) :
    Option (List UInt8) :=
  sendCommand 't'
    (packFloats
      [pitchP, pitchI, pitchD, rollP, rollI, rollD, yawP, yawI, yawD])

def control (pitch roll yaw : R) (throttle : UInt16) : Option (List UInt8) :=
  sendCommand 'o'
    (packFloats [pitch, roll, yaw] ++ MachineInt.halfBytes throttle)

end

def sendConnect : Option (List UInt8) := sendCommand 'c' []

def sendDisconnect : Option (List UInt8) := sendCommand 'd' []

def setMotor (motor : UInt8) (val : UInt16) : Option (List UInt8) :=
  sendCommand 'm' (motor :: MachineInt.halfBytes val)

def arm : Option (List UInt8) := sendCommand 'a' []

def disarm : Option (List UInt8) := sendCommand 's' []

end Copter

inductive CopterCall (R : Type) where
  | updateGains (gain1 gain2 : R)
  | tune (pitchP pitchI pitchD rollP rollI rollD yawP yawI yawD : R)
  | sendConnect
  | sendDisconnect
  | setMotor (motor : UInt8) (val : UInt16)
  | control (pitch roll yaw : R) (throttle : UInt16)
  | arm
  | disarm

namespace CopterCall

section

variable [CFloat R]

def send : CopterCall R → Option (List UInt8)
  | .updateGains gain1 gain2 => Copter.updateGains gain1 gain2
  | .tune pitchP pitchI pitchD rollP rollI rollD yawP yawI yawD =>
      Copter.tune pitchP pitchI pitchD rollP rollI rollD yawP yawI yawD
  | .sendConnect => Copter.sendConnect
  | .sendDisconnect => Copter.sendDisconnect
  | .setMotor motor val => Copter.setMotor motor val
  | .control pitch roll yaw throttle => Copter.control pitch roll yaw throttle
  | .arm => Copter.arm
  | .disarm => Copter.disarm

def sendAll : List (CopterCall R) → Option (List UInt8)
  | [] => some []
  | call :: calls => do
      let bytes ← call.send
      let rest ← sendAll calls
      return bytes ++ rest

def effect (flight : Flight R) : CopterCall R → Flight R
  | .updateGains gain1 gain2 =>
      -- the filter starts again
      { flight with
        angle :=
          { q :=
              { q1 := (1 : Int)
                q2 := (0 : Int)
                q3 := (0 : Int)
                q4 := (0 : Int) }
            errorGain := gain1
            gyroBiasGain := gain2
            dt := flight.angle.dt } }
  | .tune pitchP pitchI pitchD rollP rollI rollD yawP yawI yawD =>
      { flight with
        control :=
          { flight.control with
            pidPitch :=
              { flight.control.pidPitch with
                kp := pitchP, ki := pitchI, kd := pitchD }
            pidRoll :=
              { flight.control.pidRoll with
                kp := rollP, ki := rollI, kd := rollD }
            pidYaw :=
              { flight.control.pidYaw with
                kp := yawP, ki := yawI, kd := yawD } } }
  | .sendConnect => flight
  | .sendDisconnect => flight
  | .setMotor motor val =>
      match motor.toNat with
      | 1 => { flight with pwm := pwmSet .pwm1 val flight.pwm }
      | 2 => { flight with pwm := pwmSet .pwm2 val flight.pwm }
      | 3 => { flight with pwm := pwmSet .pwm3 val flight.pwm }
      | 4 => { flight with pwm := pwmSet .pwm4 val flight.pwm }
      | _ => flight
  | .control pitch roll yaw throttle =>
      { flight with
        control := { flight.control with pitch, roll, yaw, throttle } }
  | .arm => { flight with control := { flight.control with armed := true } }
  | .disarm =>
      { flight with
        pwm :=
          pwmSet .pwm4 0
            (pwmSet .pwm3 0 (pwmSet .pwm2 0 (pwmSet .pwm1 0 flight.pwm)))
        control := { flight.control with armed := false } }

end

end CopterCall

section

variable [CFloat R]

@[simp] theorem packFloats_length (values : List R) :
    (packFloats values).length = 4 * values.length := by
  unfold packFloats
  induction values with
  | nil => rfl
  | cons value values ih =>
      rw [List.flatMap_cons, List.length_append, ih, List.length_cons]
      change 4 + _ = _
      omega

namespace CopterCall

def cmd : CopterCall R → Char
  | .updateGains _ _ => 'u'
  | .tune .. => 't'
  | .sendConnect => 'c'
  | .sendDisconnect => 'd'
  | .setMotor _ _ => 'm'
  | .control .. => 'o'
  | .arm => 'a'
  | .disarm => 's'

def payload : CopterCall R → List UInt8
  | .updateGains gain1 gain2 => packFloats [gain1, gain2]
  | .tune pitchP pitchI pitchD rollP rollI rollD yawP yawI yawD =>
      packFloats
        [pitchP, pitchI, pitchD, rollP, rollI, rollD, yawP, yawI, yawD]
  | .setMotor motor val => motor :: MachineInt.halfBytes val
  | .control pitch roll yaw throttle =>
      packFloats [pitch, roll, yaw] ++ MachineInt.halfBytes throttle
  | _ => []

theorem payload_small (call : CopterCall R) : call.payload.length < 256 := by
  cases call <;>
    simp [payload, MachineInt.halfBytes]

def frame (call : CopterCall R) : Frame where
  cmd := call.cmd.toUInt8
  payload := call.payload
  payload_small := call.payload_small

omit [CFloat R] in
theorem cmd_ascii (call : CopterCall R) :
    call.cmd.toNat < 256 ∧ call.cmd.toUInt8.toNat < 128 := by
  have listed : call.cmd ∈ ['u', 't', 'c', 'd', 'm', 'o', 'a', 's'] := by
    cases call <;>
      simp [cmd]
  have ascii : ['u', 't', 'c', 'd', 'm', 'o', 'a', 's'].all (fun char =>
      decide (char.toNat < 256 ∧ char.toUInt8.toNat < 128)) = true := by
    decide
  exact of_decide_eq_true (List.all_eq_true.mp ascii _ listed)

/-- The bytes that a method writes are those of one frame. -/
theorem send_frame (call : CopterCall R) :
    call.send = some call.frame.encode := by
  have whole : call.send = Copter.sendCommand call.cmd call.payload := by
    cases call <;> rfl
  rw [whole]
  exact if_pos ⟨call.payload_small, call.cmd_ascii.1⟩

theorem sendAll_frames (calls : List (CopterCall R)) :
    sendAll calls = some (Frame.code.encodeAll (calls.map frame)) := by
  induction calls with
  | nil => rfl
  | cons call calls ih =>
      unfold sendAll
      rw [send_frame, ih]
      rfl

end CopterCall

end

/-! ### What the m3 reads -/

section

variable [CFloat R] {dispatch : Dispatch} {frame : Frame}

private theorem byte_of_part (named : dispatch.frame = frame)
    {front part back : List UInt8}
    (payload : frame.payload = front ++ (part ++ back)) {offset : Nat}
    (inside : offset < part.length) :
    dispatch.buf (front.length + offset) = part.getD offset 0 := by
  have whole : front.length + offset < frame.payload.length := by
    rw [payload, List.length_append, List.length_append]
    omega
  rw [dispatch.byte_of_frame named whole, payload,
    List.getD_eq_getElem?_getD, List.getElem?_append_right (by omega),
    Nat.add_sub_cancel_left, List.getElem?_append_left inside,
    List.getD_eq_getElem?_getD]

private theorem floatAt_of_part (named : dispatch.frame = frame)
    {front back : List UInt8} {value : R}
    (payload : frame.payload = front ++
      (MachineInt.wordBytes (CFloat.toBits value) ++ back)) :
    floatAt dispatch.buf front.length = value := by
  have word : MachineInt.wordAt dispatch.buf front.length =
      CFloat.toBits value := by
    apply MachineInt.wordAt_of_bytes
    rw [byte_of_part named payload (by decide : 1 < 4),
      byte_of_part named payload (by decide : 2 < 4),
      byte_of_part named payload (by decide : 3 < 4)]
    have first := byte_of_part named payload (by decide : 0 < 4)
    rw [Nat.add_zero] at first
    rw [first]
    rfl
  unfold floatAt
  rw [word, CFloat.ofBits_toBits]

theorem buf2Float_of_floats (named : dispatch.frame = frame)
    {values : List R} {back : List UInt8}
    (payload : frame.payload = packFloats values ++ back) {off : Nat} {value : R}
    (present : values[off]? = some value) :
    buf2Float dispatch.buf off = value := by
  obtain ⟨inside, rfl⟩ := List.getElem?_eq_some_iff.mp present
  have split : packFloats values ++ back =
      packFloats (values.take off) ++
        (MachineInt.wordBytes (CFloat.toBits values[off]) ++
          (packFloats (values.drop (off + 1)) ++ back)) := by
    have cut : values = values.take off ++
        values[off] :: values.drop (off + 1) := by
      rw [List.getElem_cons_drop, List.take_append_drop]
    unfold packFloats
    nth_rewrite 1 [cut]
    rw [List.flatMap_append, List.flatMap_cons, List.append_assoc,
      List.append_assoc]
  have found := floatAt_of_part named (payload.trans split)
  rw [packFloats_length, List.length_take_of_le (Nat.le_of_lt inside),
    Nat.mul_comm] at found
  exact found

private theorem halfAt_of_part (named : dispatch.frame = frame)
    {front : List UInt8} {half : UInt16}
    (payload : frame.payload = front ++ MachineInt.halfBytes half) :
    MachineInt.halfAt dispatch.buf front.length = half := by
  rw [← List.append_nil (MachineInt.halfBytes half)] at payload
  apply MachineInt.halfAt_of_bytes
  have first := byte_of_part named payload (by decide : 0 < 2)
  rw [Nat.add_zero] at first
  rw [first, byte_of_part named payload (by decide : 1 < 2)]
  rfl

private theorem table_of_call {call : CopterCall R}
    (named : dispatch.frame = call.frame) :
    flightTable dispatch.cmd =
      flightTable ⟨call.cmd.toUInt8.toNat, call.cmd_ascii.2⟩ :=
  dispatch.table_of_frame (congrArg Frame.cmd named) _

private theorem control_effect {pitch roll yaw : R} {throttle : UInt16}
    (named : dispatch.frame =
      (CopterCall.control pitch roll yaw throttle).frame)
    (flight : Flight R) :
    dispatch.effect flight =
      (CopterCall.control pitch roll yaw throttle).effect flight := by
  have handler : flightTable dispatch.cmd = some (.other .controlCmd) :=
    (table_of_call named).trans rfl
  have length : dispatch.length = 3 * 4 + 2 := by
    apply UInt8.toNat_inj.mp
    rw [dispatch.length_of_frame named]
    rfl
  have pitchIs : floatAt dispatch.buf 0 = pitch :=
    @buf2Float_of_floats R _ dispatch _ named [pitch, roll, yaw] _ rfl 0 pitch
      rfl
  have rollIs : floatAt dispatch.buf 4 = roll :=
    @buf2Float_of_floats R _ dispatch _ named [pitch, roll, yaw] _ rfl 1 roll
      rfl
  have yawIs : floatAt dispatch.buf 8 = yaw :=
    @buf2Float_of_floats R _ dispatch _ named [pitch, roll, yaw] _ rfl 2 yaw
      rfl
  have throttleIs : MachineInt.halfAt dispatch.buf 12 = throttle :=
    @halfAt_of_part dispatch _ named (packFloats [pitch, roll, yaw]) throttle
      rfl
  rw [Dispatch.effect_of_table handler]
  change controlCmd dispatch.buf dispatch.length flight = _
  unfold controlCmd
  rw [if_neg (fun wrong => wrong length), pitchIs, rollIs, yawIs, throttleIs]
  rfl

private theorem tune_effect
    {pitchP pitchI pitchD rollP rollI rollD yawP yawI yawD : R}
    (named : dispatch.frame = (CopterCall.tune pitchP pitchI pitchD rollP rollI
      rollD yawP yawI yawD).frame)
    (flight : Flight R) :
    dispatch.effect flight =
      (CopterCall.tune pitchP pitchI pitchD rollP rollI rollD yawP yawI
        yawD).effect flight := by
  have handler : flightTable dispatch.cmd = some (.other .tuneCmd) :=
    (table_of_call named).trans rfl
  have gain : ∀ (off : Nat) (value : R),
      [pitchP, pitchI, pitchD, rollP, rollI, rollD, yawP, yawI, yawD][off]? =
        some value →
      buf2Float dispatch.buf off = value := by
    intro off value present
    exact buf2Float_of_floats named (List.append_nil _).symm present
  rw [Dispatch.effect_of_table handler]
  change tuneCmd dispatch.buf dispatch.length flight = _
  unfold tuneCmd
  rw [gain 0 pitchP rfl, gain 1 pitchI rfl, gain 2 pitchD rfl,
    gain 3 rollP rfl, gain 4 rollI rfl, gain 5 rollD rfl, gain 6 yawP rfl,
    gain 7 yawI rfl, gain 8 yawD rfl]
  rfl

private theorem updateGains_effect {gain1 gain2 : R}
    (named : dispatch.frame = (CopterCall.updateGains gain1 gain2).frame)
    (flight : Flight R) :
    dispatch.effect flight =
      (CopterCall.updateGains gain1 gain2).effect flight := by
  have handler : flightTable dispatch.cmd = some (.other .updateGains) :=
    (table_of_call named).trans rfl
  have gain : ∀ (off : Nat) (value : R),
      [gain1, gain2][off]? = some value →
      buf2Float dispatch.buf off = value := by
    intro off value present
    exact buf2Float_of_floats named (List.append_nil _).symm present
  have errorGain : floatAt dispatch.buf 0 = gain1 := gain 0 gain1 rfl
  have gyroBiasGain : floatAt dispatch.buf 4 = gain2 := gain 1 gain2 rfl
  rw [Dispatch.effect_of_table handler]
  unfold HandlerFunc.effect
  rw [errorGain, gyroBiasGain]
  rfl

private theorem setMotor_effect {motor : UInt8} {val : UInt16}
    (named : dispatch.frame =
      (CopterCall.setMotor motor val : CopterCall R).frame)
    (flight : Flight R) :
    dispatch.effect flight = (CopterCall.setMotor motor val).effect flight := by
  have handler : flightTable dispatch.cmd = some (.other .setMotor) :=
    (table_of_call named).trans rfl
  have length : dispatch.length = 3 := by
    apply UInt8.toNat_inj.mp
    rw [dispatch.length_of_frame named]
    rfl
  have motorIs : dispatch.buf 0 = motor :=
    dispatch.byte_of_frame named (by decide : 0 < 3)
  have value := MachineInt.shift_or_bytes dispatch.buf 1
  have valIs : MachineInt.halfAt dispatch.buf 1 = val :=
    @halfAt_of_part dispatch _ named [motor] val rfl
  rw [Dispatch.effect_of_table handler]
  change setMotor dispatch.buf dispatch.length flight = _
  unfold setMotor
  rw [if_neg (fun wrong => wrong length)]
  dsimp only
  rw [value, valIs, motorIs]
  rfl

/-- The handler of a call's frame does what the call is for. -/
theorem effect_of_call {call : CopterCall R}
    (named : dispatch.frame = call.frame) (flight : Flight R) :
    dispatch.effect flight = call.effect flight := by
  have table := table_of_call named
  cases call with
  | updateGains gain1 gain2 => exact updateGains_effect named flight
  | tune pitchP pitchI pitchD rollP rollI rollD yawP yawI yawD =>
      exact tune_effect named flight
  | setMotor motor val => exact setMotor_effect named flight
  | control pitch roll yaw throttle => exact control_effect named flight
  | sendConnect =>
      unfold Dispatch.effect
      rw [table]
      rfl
  | sendDisconnect =>
      unfold Dispatch.effect
      rw [table]
      rfl
  | arm =>
      unfold Dispatch.effect
      rw [table]
      rfl
  | disarm =>
      unfold Dispatch.effect
      rw [table]
      rfl

theorem effects_of_calls {dispatches : List Dispatch}
    {calls : List (CopterCall R)}
    (named : dispatches.map Dispatch.frame = calls.map CopterCall.frame)
    (flight : Flight R) :
    dispatches.foldl Dispatch.effect flight =
      calls.foldl CopterCall.effect flight := by
  induction calls generalizing dispatches flight with
  | nil =>
      rw [List.map_eq_nil_iff.mp named]
      rfl
  | cons call calls ih =>
      obtain ⟨dispatch, rest, rfl, first, later⟩ :=
        List.map_eq_cons_iff.mp named
      rw [List.foldl_cons, List.foldl_cons, effect_of_call first]
      exact ih later _

end

/-- The bytes of a sequence of calls are those of its frames.  However they
arrive, the m3 handles the calls in order, and each does to the flight state what
it is for; when all bytes have arrived and been taken, it has handled all calls. -/
theorem host_commands_agree [CFloat R] (reset timers : PwmTimers)
    (txMemory rxMemory : RingMemory) (calls : List (CopterCall R)) :
    ∃ stream, CopterCall.sendAll calls = some stream ∧
      stream = Frame.code.encodeAll (calls.map CopterCall.frame) ∧
      ∀ events, ∃ system, CommandSystem.Parsed callHandler stream
          (flightStart reset timers txMemory rxMemory) events system ∧
        ∃ handled, handled <+: calls ∧
          system.dispatches.map Dispatch.frame =
            handled.map CopterCall.frame ∧
          system.state.m3.rest = handled.foldl CopterCall.effect
            (flightStart reset timers txMemory rxMemory).state.m3.rest ∧
          (system.arrived = stream.length →
            system.state.parser.rxMemory.unread rxSize = [] →
            handled = calls) := by
  refine ⟨_, CopterCall.sendAll_frames calls, rfl, ?_⟩
  intro events
  have commands : ∀ frame ∈ (Frame.code.decodeAll
      (Frame.code.encodeAll (calls.map CopterCall.frame))).1,
      frame.cmd.toNat < 128 := by
    rw [Frame.code.decodeAll_encodeAll]
    intro frame member
    obtain ⟨call, _, rfl⟩ := List.mem_map.mp member
    exact call.cmd_ascii.2
  obtain ⟨system, pending, queue, ran, framed⟩ :=
    (@flightStart_framed R _ reset timers txMemory rxMemory _).run callHandler
      commands events
  have order := framed.dispatched_prefix
  rw [Frame.code.decodeAll_encodeAll, List.prefix_iff_eq_take, ← List.map_take] at order
  refine ⟨system, framed.parsed ran rfl, _, List.take_prefix _ calls, order,
    ?_, ?_⟩
  · rw [(reachable_effect ran).1]
    exact effects_of_calls order _
  · intro arrived taken
    rw [framed.at_.receives.carries.unread] at taken
    rw [framed.all_dispatched arrived taken, List.length_map,
      List.take_length]

def armCalls : List (CopterCall Float32) :=
  [.arm, .control 1 2 3 1200]

def armStart : CommandSystem HandlerFunc (Flight Float32) :=
  flightStart (fun _ => ⟨0, 0, 0, 0, 0⟩) (fun _ => ⟨0, 0, 0, 0, 0⟩)
    ⟨0, 0, nullBuf⟩ ⟨0, 0, nullBuf⟩

/-- The m3 is armed and given a set-point, in pieces that fit neither frame. -/
theorem host_commands_agree_of_arm :
    ∃ system, CommandSystem.Parsed callHandler
        (Frame.code.encodeAll (armCalls.map CopterCall.frame)) armStart
        [.arrive 5, .process, .process, .arrive 13, .process] system ∧
      system.state.m3.rest.control.armed = true ∧
      system.state.m3.rest.control.throttle = 1200 := by
  obtain ⟨stream, _, rfl, runs⟩ := host_commands_agree
    (fun _ => ⟨0, 0, 0, 0, 0⟩) (fun _ => ⟨0, 0, 0, 0, 0⟩) ⟨0, 0, nullBuf⟩
    ⟨0, 0, nullBuf⟩ armCalls
  obtain ⟨system, parsed, handled, _, _, rest, whole⟩ :=
    runs [.arrive 5, .process, .process, .arrive 13, .process]
  have taken : (CommandSystem.run callHandler
      (Frame.code.encodeAll (armCalls.map CopterCall.frame))
      [.arrive 5, .process, .process, .arrive 13, .process]
      armStart).toOption.map (fun system =>
        (system.arrived, system.state.parser.rxMemory.unread rxSize)) =
      some (18, []) := by
    decide +kernel
  rw [show armStart = flightStart _ _ _ _ from rfl, parsed.ran] at taken
  have counts := Option.some.inj taken
  rw [whole (congrArg Prod.fst counts) (congrArg Prod.snd counts)] at rest
  refine ⟨system, parsed, ?_, ?_⟩
  · rw [rest]
    rfl
  · rw [rest]
    rfl

end Quadcopter

import Quadcopter.M3.Control

/-
Frames whose payload has not the length that their command reads.

control_cmd and set_motor test the length and return.  tune_cmd tests it and goes
on, update_gains does not test it: both read floats from cmd_buf where it still
holds bytes of the frames before.
-/

namespace Quadcopter

open CommandSystem

variable {R : Type}

structure Gains (R : Type) where
  kp : R
  ki : R
  kd : R
deriving DecidableEq

def PidControl.gains (pid : PidControl R) : Gains R :=
  { kp := pid.kp, ki := pid.ki, kd := pid.kd }

/-- Setpoints, throttle, armed flag, gains, the attitude filter and the motors. -/
structure FlightSettings (R : Type) where
  pitch : R
  roll : R
  yaw : R
  throttle : UInt16
  armed : Bool
  pitchGains : Gains R
  rollGains : Gains R
  yawGains : Gains R
  angle : AngleState R
  motors : PwmDevice → UInt32

def Flight.settings (flight : Flight R) : FlightSettings R :=
  { pitch := flight.control.pitch
    roll := flight.control.roll
    yaw := flight.control.yaw
    throttle := flight.control.throttle
    armed := flight.control.armed
    pitchGains := flight.control.pidPitch.gains
    rollGains := flight.control.pidRoll.gains
    yawGains := flight.control.pidYaw.gains
    angle := flight.angle
    motors := fun pwm => (flight.pwm pwm).tmar }

def decoderLength (cmd : UInt8) : Option Nat :=
  if cmd = 'o'.toUInt8 then some 14
  else if cmd = 't'.toUInt8 then some 36
  else if cmd = 'u'.toUInt8 then some 8
  else if cmd = 'm'.toUInt8 then some 3
  else none

structure Frame.Malformed (frame : Frame) : Prop where
  decoded : (decoderLength frame.cmd).isSome
  length_ne : ∀ length ∈ decoderLength frame.cmd,
    frame.payload.length ≠ length

instance (frame : Frame) : Decidable frame.Malformed :=
  decidable_of_iff
    ((decoderLength frame.cmd).isSome ∧
      ∀ length ∈ decoderLength frame.cmd, frame.payload.length ≠ length)
    ⟨fun both => ⟨both.1, both.2⟩,
      fun malformed => ⟨malformed.decoded, malformed.length_ne⟩⟩

/-- Whatever came before the frame, the call that handles it changes nothing, and
would change nothing with other bytes behind the frame. -/
def Frame.Ignored (R : Type) [CFloat R] (reset timers : PwmTimers)
    (txMemory rxMemory : RingMemory) (frame : Frame) : Prop :=
  ∀ (stream : List UInt8) (events : List CommandEvent)
    (before after : CommandSystem HandlerFunc (Flight R))
    (dispatch : Dispatch),
    CommandSystem.run callHandler stream events
      (flightStart reset timers txMemory rxMemory) = .ok before →
    before.step callHandler stream .process = .ok after →
    after.dispatches = before.dispatches ++ [dispatch] →
    dispatch.frame = frame →
    after.state.m3.rest.settings = before.state.m3.rest.settings ∧
      ∀ buf : Buffer, buf.first dispatch.length.toNat = frame.payload →
        ({ dispatch with buf }.run callHandler before.state.m3).rest.settings =
          before.state.m3.rest.settings

section

variable [CFloat R] {reset timers : PwmTimers}
  {txMemory rxMemory : RingMemory}

/-- A call that handles a frame has the effect of the frame. -/
theorem step_dispatch {stream : List UInt8}
    {before after : CommandSystem HandlerFunc (Flight R)}
    {dispatch : Dispatch}
    (table : before.state.m3.cmdMap = flightTable)
    (stepped : before.step callHandler stream .process = .ok after)
    (log : after.dispatches = before.dispatches ++ [dispatch]) :
    after.state.m3.rest = dispatch.effect before.state.m3.rest := by
  obtain ⟨sent, log', m3⟩ := step_effect stepped
  have same : sent.toList = [dispatch] := by
    rw [log] at log'
    exact (List.append_cancel_left log').symm
  rw [m3, same]
  exact (dispatch.run_effect table).1

/-- A handler that leaves the flight state alone ignores its frames. -/
private theorem ignored_of_effect {frame : Frame}
    (effect : ∀ (dispatch : Dispatch) (flight : Flight R),
      dispatch.frame = frame → dispatch.effect flight = flight) :
    frame.Ignored R reset timers txMemory rxMemory := by
  intro stream events before after dispatch ran stepped log named
  have table := (reachable_effect ran).2
  constructor
  · rw [step_dispatch table stepped log, effect dispatch _ named]
  · intro buf bytes
    have named' : ({ dispatch with buf } : Dispatch).frame = frame := by
      rw [← named]
      unfold Dispatch.frame Frame.ofBuffer
      rw [← named] at bytes
      simp only [Frame.mk.injEq, true_and]
      exact bytes
    rw [(Dispatch.run_effect table _).1, effect _ _ named']

private theorem control_ignored {frame : Frame} (malformed : frame.Malformed)
    (cmd : frame.cmd = 'o'.toUInt8) :
    frame.Ignored R reset timers txMemory rxMemory := by
  apply ignored_of_effect
  intro dispatch flight named
  have length := dispatch.length_of_frame named
  have wrong : dispatch.length ≠ 3 * 4 + 2 := by
    intro right
    rw [right] at length
    apply malformed.length_ne 14 _ length.symm
    rw [cmd]
    rfl
  have handler : flightTable dispatch.cmd = some (.other .controlCmd) := by
    rw [dispatch.table_of_frame (named ▸ cmd) (by decide)]
    decide
  rw [Dispatch.effect_of_table handler]
  exact if_pos wrong

private theorem setMotor_ignored {frame : Frame} (malformed : frame.Malformed)
    (cmd : frame.cmd = 'm'.toUInt8) :
    frame.Ignored R reset timers txMemory rxMemory := by
  apply ignored_of_effect
  intro dispatch flight named
  have length := dispatch.length_of_frame named
  have wrong : dispatch.length ≠ 3 := by
    intro right
    rw [right] at length
    apply malformed.length_ne 3 _ length.symm
    rw [cmd]
    rfl
  have handler : flightTable dispatch.cmd = some (.other .setMotor) := by
    rw [dispatch.table_of_frame (named ▸ cmd) (by decide)]
    decide
  rw [Dispatch.effect_of_table handler]
  exact if_pos wrong

end

section

variable [CFloat R] {reset timers : PwmTimers}
  {txMemory rxMemory : RingMemory}

/-- A command with a float first, and fourteen zero bytes after it in cmd_buf. -/
def floatFrame (cmd : UInt8) (length : UInt8) (value : R) : Frame :=
  .ofBuffer cmd
    (fun offset =>
      (MachineInt.wordBytes (CFloat.toBits value)).getD offset 0) length

def zeroControlFrame : Frame := .ofBuffer 'o'.toUInt8 nullBuf 14

private theorem floatAt_of_floatFrame {dispatch : Dispatch} {cmd length : UInt8}
    {value : R} (named : dispatch.frame = floatFrame cmd length value)
    (enough : 4 ≤ length.toNat) : floatAt dispatch.buf 0 = value := by
  have byte : ∀ offset, offset < 4 → dispatch.buf offset =
      (MachineInt.wordBytes (CFloat.toBits value)).getD offset 0 := by
    intro offset inside
    have shown : offset < (floatFrame cmd length value).payload.length := by
      unfold floatFrame Frame.ofBuffer
      rw [Buffer.first_length]
      omega
    rw [dispatch.byte_of_frame named shown]
    unfold floatFrame Frame.ofBuffer
    rw [List.getD_eq_getElem?_getD, Buffer.first_getElem? _ (by omega),
      Option.getD_some]
  have word : MachineInt.wordAt dispatch.buf 0 = CFloat.toBits value := by
    apply MachineInt.wordAt_of_bytes
    rw [byte 0 (by decide), byte 1 (by decide), byte 2 (by decide),
      byte 3 (by decide)]
    rfl
  unfold floatAt
  rw [word, CFloat.ofBits_toBits]

private theorem floatAt_after_zeros {first zeros last : Dispatch}
    (residual : Residual [first, zeros, last] nullBuf)
    (named : zeros.frame = zeroControlFrame) :
    (floatAt last.buf 0 : R) =
      floatAt (fun offset => last.frame.payload.getD offset 0) 0 := by
  have byte : ∀ offset, offset < 4 →
      last.buf offset = last.frame.payload.getD offset 0 := by
    intro offset inside
    by_cases own : offset < last.frame.payload.length
    · exact last.byte_of_frame rfl own
    · have length := last.length_of_frame rfl
      have zero : zeros.buf offset = 0 := by
        rw [zeros.byte_of_frame named
          (Nat.lt_of_lt_of_le inside (by decide : 4 ≤ 14))]
        exact (by decide :
          ∀ offset < 4, zeroControlFrame.payload.getD offset 0 = 0) offset
            inside
      rw [residual.2.2.1 offset (by omega), List.getD_eq_getElem?_getD,
        List.getElem?_eq_none (by omega), Option.getD_none]
      exact zero
  unfold floatAt MachineInt.wordAt
  rw [byte 0 (by decide), byte 1 (by decide), byte 2 (by decide),
    byte 3 (by decide)]

/-- `probe` is what the first float of the command is for. -/
private theorem not_ignored {frame : Frame} {length : UInt8}
    {probe : FlightSettings R → R} (small : frame.cmd.toNat < 128)
    (enough : 4 ≤ length.toNat)
    (reads : ∀ (dispatch : Dispatch) (flight : Flight R),
      dispatch.frame.cmd = frame.cmd →
        probe (dispatch.effect flight).settings = floatAt dispatch.buf 0)
    (keeps : ∀ (dispatch : Dispatch) (flight : Flight R),
      dispatch.frame.cmd = 'o'.toUInt8 →
        probe (dispatch.effect flight).settings = probe flight.settings) :
    ¬ frame.Ignored R reset timers txMemory rxMemory := by
  intro ignored
  have same : ∀ value : R,
      floatAt (fun offset => frame.payload.getD offset 0) 0 = value := by
    intro value
    obtain ⟨stream, events, before, after, last, ran, stepped, log, earlier,
      named, residual⟩ := handled_last callHandler txMemory rxMemory
        { (Flight.zero timers : Flight R) with
          pwm := pwmInit reset (Flight.zero timers : Flight R).pwm }
        flightSetup
        (show ∀ other ∈ [floatFrame frame.cmd length value,
            zeroControlFrame] ++ [frame], other.cmd.toNat < 128 by
          intro other member
          simp only [List.cons_append, List.nil_append, List.mem_cons,
            List.not_mem_nil, or_false] at member
          rcases member with rfl | rfl | rfl
          · exact small
          · decide
          · exact small)
    obtain ⟨first, rest, log', named', earlier'⟩ :=
      List.map_eq_cons_iff.mp earlier
    obtain ⟨zeros, rest', log'', zerosNamed, none_left⟩ :=
      List.map_eq_cons_iff.mp earlier'
    have ended : rest' = [] := List.map_eq_nil_iff.mp none_left
    subst ended log''
    rw [log, log'] at residual
    obtain ⟨flight, table⟩ := reachable_effect ran
    have unchanged := (ignored stream events before after last ran stepped log
      named).1
    rw [step_dispatch table stepped log] at unchanged
    have held := congrArg probe unchanged
    rw [reads last _ (named ▸ rfl), floatAt_after_zeros residual zerosNamed,
      named, flight, log'] at held
    rw [held]
    change probe (zeros.effect (first.effect _)).settings = value
    rw [keeps zeros _ (zerosNamed ▸ rfl), reads first _ (named' ▸ rfl)]
    exact floatAt_of_floatFrame named' enough
  exact CFloat.zero_ne_one ((same _).symm.trans (same _))

private theorem effect_of_control {dispatch : Dispatch}
    (cmd : dispatch.frame.cmd = 'o'.toUInt8) (flight : Flight R) :
    dispatch.effect flight =
      controlCmd dispatch.buf dispatch.length flight := by
  have handler : flightTable dispatch.cmd = some (.other .controlCmd) := by
    rw [dispatch.table_of_frame cmd (by decide)]
    decide
  rw [Dispatch.effect_of_table handler]
  rfl

private theorem tune_not_ignored {frame : Frame}
    (cmd : frame.cmd = 't'.toUInt8) :
    ¬ frame.Ignored R reset timers txMemory rxMemory := by
  apply @not_ignored R _ reset timers txMemory rxMemory frame 36
    (fun settings => settings.pitchGains.kp)
  · rw [cmd]
    decide
  · decide
  · intro dispatch flight named
    have handler : flightTable dispatch.cmd = some (.other .tuneCmd) := by
      rw [dispatch.table_of_frame (named.trans cmd) (by decide)]
      decide
    rw [Dispatch.effect_of_table handler]
    rfl
  · intro dispatch flight named
    rw [effect_of_control named]
    unfold controlCmd
    split <;> rfl

private theorem updateGains_not_ignored {frame : Frame}
    (cmd : frame.cmd = 'u'.toUInt8) :
    ¬ frame.Ignored R reset timers txMemory rxMemory := by
  apply @not_ignored R _ reset timers txMemory rxMemory frame 8
    (fun settings => settings.angle.errorGain)
  · rw [cmd]
    decide
  · decide
  · intro dispatch flight named
    have handler : flightTable dispatch.cmd = some (.other .updateGains) := by
      rw [dispatch.table_of_frame (named.trans cmd) (by decide)]
      decide
    rw [Dispatch.effect_of_table handler]
    rfl
  · intro dispatch flight named
    rw [effect_of_control named]
    unfold controlCmd
    split <;> rfl

theorem Frame.Malformed.commands {frame : Frame}
    (malformed : frame.Malformed) :
    frame.cmd = 'o'.toUInt8 ∨ frame.cmd = 't'.toUInt8 ∨
      frame.cmd = 'u'.toUInt8 ∨ frame.cmd = 'm'.toUInt8 := by
  have decoded := malformed.decoded
  unfold decoderLength at decoded
  split at decoded
  · exact Or.inl ‹_›
  · split at decoded
    · exact Or.inr (Or.inl ‹_›)
    · split at decoded
      · exact Or.inr (Or.inr (Or.inl ‹_›))
      · split at decoded
        · exact Or.inr (Or.inr (Or.inr ‹_›))
        · cases decoded

end

/-- A malformed control or set_motor frame is ignored in every reachable state; a
malformed tune or update_gains frame is not. -/
theorem malformed_frame_ignored_iff [CFloat R] (reset timers : PwmTimers)
    (txMemory rxMemory : RingMemory) (frame : Frame)
    (malformed : frame.Malformed) :
    frame.Ignored R reset timers txMemory rxMemory ↔
      frame.cmd = 'o'.toUInt8 ∨ frame.cmd = 'm'.toUInt8 := by
  constructor
  · intro ignored
    rcases malformed.commands with control | tune | gains | motor
    · exact Or.inl control
    · exact absurd ignored (tune_not_ignored tune)
    · exact absurd ignored (updateGains_not_ignored gains)
    · exact Or.inr motor
  · intro named
    rcases named with control | motor
    · exact control_ignored malformed control
    · exact setMotor_ignored malformed motor

def emptyFrame (cmd : UInt8) : Frame := .ofBuffer cmd nullBuf 0

theorem malformed_frame_ignored_iff_of_empty :
    (emptyFrame 'm'.toUInt8).Ignored Float32 (fun _ => ⟨0, 0, 0, 0, 0⟩)
        (fun _ => ⟨0, 0, 0, 0, 0⟩) ⟨0, 0, nullBuf⟩ ⟨0, 0, nullBuf⟩ ↔
      (emptyFrame 'm'.toUInt8).cmd = 'o'.toUInt8 ∨
        (emptyFrame 'm'.toUInt8).cmd = 'm'.toUInt8 :=
  malformed_frame_ignored_iff (fun _ => ⟨0, 0, 0, 0, 0⟩)
    (fun _ => ⟨0, 0, 0, 0, 0⟩) ⟨0, 0, nullBuf⟩ ⟨0, 0, nullBuf⟩
    (emptyFrame 'm'.toUInt8) (by decide)

/-- An empty tune frame takes its gains from the frames before it. -/
theorem malformed_tune_not_ignored :
    (emptyFrame 't'.toUInt8).Malformed ∧
      ¬ (emptyFrame 't'.toUInt8).Ignored Float32 (fun _ => ⟨0, 0, 0, 0, 0⟩)
        (fun _ => ⟨0, 0, 0, 0, 0⟩) ⟨0, 0, nullBuf⟩ ⟨0, 0, nullBuf⟩ :=
  ⟨by decide, tune_not_ignored rfl⟩

end Quadcopter

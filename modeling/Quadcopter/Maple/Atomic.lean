import Quadcopter.Library.ObservedRuns
import Quadcopter.Maple.Command

/-
The maple board as if everything happened at one moment.

An event of the atomic board is a whole timer interrupt, a whole command, or a
whole snapshot of the sensors.  Every run of the real board, with interrupts
between any two accesses of main, is explained by a run of the atomic one.
-/

namespace Quadcopter

open AtomicProgram InterruptedLoop

variable {R : Type}

structure MapleState (R : Type) where
  attitude : Attitude R
  connected : Bool
  compare : TimerChannel → UInt16

inductive MapleEvent where
  | tick (read : SensorRead)
  | command (dispatch : Dispatch)
  | snapshot

inductive NotConnected where
  | notConnected

section

variable [CFloat R]

def MapleState.start (gyroOffset accelOffset : Vector3 R) : MapleState R :=
  let board : MapleBoard R := .start gyroOffset accelOffset
  { attitude := board.attitude
    connected := false
    compare := board.compare }

def MapleFunc.effect (dispatch : Dispatch) (state : MapleState R) :
    MapleFunc → MapleState R
  | .testCmd => state
  | .connectCmd => { state with connected := true }
  | .disconnectCmd => { state with connected := false }
  | .motorOn =>
      { state with
        compare := Function.update state.compare .ch2
          (BoardProgram.pwmScaled 10000) }
  | .motorOff =>
      { state with
        compare := Function.update state.compare .ch2
          (BoardProgram.pwmScaled 0) }
  | .updateGains =>
      { state with
        attitude :=
          { state.attitude with
            angle := .init state.attitude.angle.dt (floatAt dispatch.buf 4)
              (floatAt dispatch.buf 0) } }

def MapleEvent.step (state : MapleState R) :
    MapleEvent → Except NotConnected (MapleState R)
  | .tick read =>
      .ok { state with attitude := timerIntr read state.attitude }
  | .command dispatch =>
      match MapleCommand.cmdMap dispatch.cmd with
      | none => .ok state
      | some func => .ok (func.effect dispatch state)
  | .snapshot => if state.connected then .ok state else .error .notConnected

theorem Vector3.bytes_length (v : Vector3 R) : v.bytes.length = 12 := rfl

theorem SensorData.bytes_length (sd : SensorData R) : sd.bytes.length = 36 :=
  rfl

def SensorData.frame (sd : SensorData R) : Frame where
  cmd := '0'.toUInt8
  payload := sd.bytes
  payload_small := by
    rw [sd.bytes_length]
    decide

def Vector3.frame (angles : Vector3 R) : Frame where
  cmd := '1'.toUInt8
  payload := angles.bytes
  payload_small := by
    rw [angles.bytes_length]
    decide

end

def MapleFunc.replies (dispatch : Dispatch) : MapleFunc → List Frame
  | .testCmd => [.ofBuffer 't'.toUInt8 dispatch.buf dispatch.length]
  | .connectCmd => [.ofBuffer 'c'.toUInt8 nullBuf 0]
  | .disconnectCmd => [.ofBuffer 'd'.toUInt8 nullBuf 0]
  | .motorOn => []
  | .motorOff => []
  | .updateGains => []

def MapleEvent.frames [CFloat R] (state : MapleState R) :
    MapleEvent → List Frame
  | .tick _ => []
  | .command dispatch =>
      match MapleCommand.cmdMap dispatch.cmd with
      | none => [.ofBuffer 'e'.toUInt8 nullBuf 0]
      | some func => func.replies dispatch
  | .snapshot => [state.attitude.sd.frame, state.attitude.angles.frame]

theorem MapleEvent.command_chosen [CFloat R] {dispatch : Dispatch}
    {func : MapleFunc} (chosen : MapleCommand.cmdMap dispatch.cmd = some func)
    (state : MapleState R) :
    step state (.command dispatch) = .ok (func.effect dispatch state) ∧
      frames state (.command dispatch) = func.replies dispatch := by
  unfold step frames
  dsimp only
  rw [chosen]
  exact ⟨rfl, rfl⟩

theorem MapleEvent.command_unknown [CFloat R] {dispatch : Dispatch}
    (unknown : MapleCommand.cmdMap dispatch.cmd = none)
    (state : MapleState R) :
    step state (.command dispatch) = .ok state ∧
      frames state (.command dispatch) =
        [.ofBuffer 'e'.toUInt8 nullBuf 0] := by
  unfold step frames
  dsimp only
  rw [unknown]
  exact ⟨rfl, rfl⟩

def MapleEvent.tick? : MapleEvent → Option SensorRead
  | .tick read => some read
  | _ => none

def MapleEvent.frame? : MapleEvent → Option Frame
  | .command dispatch => some dispatch.frame
  | _ => none

section

variable [CFloat R]

def mapleSent (gyroOffset accelOffset : Vector3 R) (trace : List MapleEvent) :
    List Frame :=
  emitted MapleEvent.step MapleEvent.frames
    (.start gyroOffset accelOffset) trace

/-- The events, and the state that they lead to, are those of the board, with the
bytes `pending` still to send.  While interrupts are masked, main may be setting
the filter. -/
structure Explains (gyroOffset accelOffset : Vector3 R)
    (trace : List MapleEvent) (state : MapleState R) (pending : List UInt8)
    (board : MapleBoard R) : Prop where
  ran : trace.foldlM MapleEvent.step (.start gyroOffset accelOffset) =
    .ok state
  ticks : trace.filterMap MapleEvent.tick? = board.ticks
  sent : board.tx ++ pending =
    Frame.code.encodeAll (mapleSent gyroOffset accelOffset trace)
  attitude : board.attitude =
    { state.attitude with angle := board.attitude.angle }
  angle : board.masked = false →
    board.attitude.angle = state.attitude.angle
  compare : board.compare = state.compare

/-- The board at a point of main: which frames have been handled, what is left to
send, what has been read and how much can be read. -/
structure Phase (gyroOffset accelOffset : Vector3 R) (masked connected : Bool)
    (handled : List Frame) (pending read : List UInt8) (avail : Nat)
    (board : MapleBoard R) : Prop where
  masked_eq : board.masked = masked
  explained : ∃ trace state,
    Explains gyroOffset accelOffset trace state pending board ∧
      state.connected = connected ∧
      trace.filterMap MapleEvent.frame? = handled
  read_eq : board.read = read
  avail_le : avail ≤ board.rx.length
  inside : handled <+: (Frame.code.decodeAll read).1

def MapleInv (gyroOffset accelOffset : Vector3 R) (board : MapleBoard R) : Prop :=
  ∃ trace state pending,
    Explains gyroOffset accelOffset trace state pending board ∧
      trace.filterMap MapleEvent.frame? <+:
        (Frame.code.decodeAll board.read).1

variable {gyroOffset accelOffset : Vector3 R} {masked connected : Bool}
  {handled : List Frame} {pending read : List UInt8} {avail : Nat}
  {board : MapleBoard R} {buffer : UsartBuffer}

theorem Phase.inv (phase : Phase gyroOffset accelOffset masked connected handled
    pending read avail board) : MapleInv gyroOffset accelOffset board := by
  obtain ⟨_, ⟨trace, state, explains, _, frames⟩, read_eq, _, inside⟩ := phase
  refine ⟨trace, state, pending, explains, ?_⟩
  rw [frames, read_eq]
  exact inside

theorem Explains.tick {trace : List MapleEvent} {state : MapleState R}
    (explains : Explains gyroOffset accelOffset trace state pending board)
    (enabled : board.masked = false) (input : SensorRead) :
    Explains gyroOffset accelOffset (trace ++ [.tick input])
      { state with attitude := timerIntr input state.attitude } pending
      (MapleInterrupt.handle buffer (.timer input) board) := by
  obtain ⟨ran, ticks, sent, attitude, angle, compare⟩ := explains
  have same : board.attitude = state.attitude := by
    rw [attitude, angle enabled]
  have stepped : MapleEvent.step state (.tick input) =
      .ok { state with attitude := timerIntr input state.attitude } := rfl
  have moved : (MapleInterrupt.handle buffer (.timer input) board).attitude =
      timerIntr input state.attitude := by
    change timerIntr input board.attitude = _
    rw [same]
  constructor
  · exact foldlM_of_concat ran stepped
  · rw [List.filterMap_append, ticks]
    rfl
  · unfold mapleSent
    rw [emitted_concat ran stepped]
    change board.tx ++ pending = Frame.code.encodeAll (_ ++ [])
    rw [List.append_nil]
    exact sent
  · rw [moved]
  · intro _
    rw [moved]
  · exact compare

theorem Explains.usart {trace : List MapleEvent} {state : MapleState R}
    (explains : Explains gyroOffset accelOffset trace state pending board)
    (byte : UInt8) :
    Explains gyroOffset accelOffset trace state pending
      (MapleInterrupt.handle buffer (.usart byte) board) :=
  ⟨explains.ran, explains.ticks, explains.sent, explains.attitude,
    explains.angle, explains.compare⟩

/-- Interrupts keep the invariant. -/
theorem mapleInv_interrupt (event : MapleInterrupt)
    (enabled : (mapleLoop (R := R) buffer).enabled board = true)
    (inv : MapleInv gyroOffset accelOffset board) :
    MapleInv gyroOffset accelOffset (event.handle buffer board) := by
  obtain ⟨trace, state, pending, explains, inside⟩ := inv
  cases event with
  | timer input =>
      have unmasked : board.masked = false := by
        simpa [mapleLoop] using enabled
      refine ⟨trace ++ [.tick input], _, pending,
        explains.tick unmasked input, ?_⟩
      rw [List.filterMap_append]
      change _ ++ [] <+: _
      rw [List.append_nil]
      exact inside
  | usart byte => exact ⟨trace, state, pending, explains.usart byte, inside⟩

theorem Phase.interrupt (phase : Phase gyroOffset accelOffset masked connected
      handled pending read avail board) (event : MapleInterrupt)
    (enabled : (mapleLoop (R := R) buffer).enabled board = true) :
    Phase gyroOffset accelOffset masked connected handled pending read avail
      (event.handle buffer board) := by
  obtain ⟨masked_eq, ⟨trace, state, explains, flag, frames⟩, read_eq, avail_le,
    inside⟩ := phase
  cases event with
  | timer input =>
      have unmasked : board.masked = false := by
        simpa [mapleLoop] using enabled
      refine ⟨masked_eq, ⟨_, _, explains.tick unmasked input, ?_, ?_⟩, read_eq,
        avail_le, inside⟩
      · exact flag
      · rw [List.filterMap_append, frames]
        exact List.append_nil handled
  | usart byte =>
      exact ⟨masked_eq, ⟨trace, state, explains.usart byte, flag, frames⟩,
        read_eq, avail_le.trans (buffer.keeps board.rx byte), inside⟩

end

end Quadcopter

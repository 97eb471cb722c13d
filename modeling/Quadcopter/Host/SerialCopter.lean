import Quadcopter.Common.Frame
import Quadcopter.Library.StepRuns

/-
What the ground station receives over the serial port (controller/copter.py,
recvCommand) of the frames that the maple sends (maple/command.c, command_send).

read(n) of pyserial returns between 0 and n of the next bytes, fewer than n if
it times out, and raises nothing.  recvCommand reads each part of a frame once
and keeps nothing between calls; panda/user/copter.py reads on until it has the
part.
-/

namespace Quadcopter

def mapleCommandSend (cmd : UInt8) (data : Buffer) (length : UInt32) :
    List UInt8 :=
  length.toUInt8 :: cmd :: data.first length.toNat

/-- A call of command_send whose assertion holds. -/
structure MapleSend where
  cmd : UInt8
  data : Buffer
  length : UInt32
  fits : length ≤ 255

namespace MapleSend

def sent (send : MapleSend) : List UInt8 :=
  mapleCommandSend send.cmd send.data send.length

private theorem length_lt (send : MapleSend) : send.length.toNat < 256 :=
  Nat.lt_succ_of_le (UInt32.le_iff_toNat_le.mp send.fits)

def frame (send : MapleSend) : Frame where
  cmd := send.cmd
  payload := send.data.first send.length.toNat
  payload_small := by
    rw [Buffer.first_length]
    exact send.length_lt

private theorem sent_eq_encode (send : MapleSend) : send.sent =
    send.frame.encode := by
  have length : send.length.toUInt8 = send.frame.length := by
    apply UInt8.toNat_inj.mp
    rw [Frame.length_toNat, UInt32.toNat_toUInt8]
    change _ = (send.data.first send.length.toNat).length
    rw [Buffer.first_length]
    exact Nat.mod_eq_of_lt send.length_lt
  unfold sent mapleCommandSend
  rw [length]
  rfl

private theorem flatMap_sent (sends : List MapleSend) :
    sends.flatMap sent = Frame.code.encodeAll (sends.map frame) := by
  induction sends with
  | nil => rfl
  | cons send sends ih =>
      rw [List.flatMap_cons, ih, sent_eq_encode]
      rfl

end MapleSend

/-- None, an IndexError of sizebytes[0], or the command. -/
inductive SerialResult where
  | nothing
  | indexError
  | command (cmd buf : List UInt8)
deriving DecidableEq, Repr

/-- What one call finds: inWaiting(), and how many bytes each of its reads has
before it times out. -/
structure SerialCall where
  waiting : Nat
  size : Nat
  cmd : Nat
  payload : Nat
deriving DecidableEq, Repr

def serialRead (ready n : Nat) (stream : List UInt8) :
    List UInt8 × List UInt8 :=
  (stream.take (min ready n), stream.drop (min ready n))

namespace SerialCall

def recvCommand (call : SerialCall) (stream : List UInt8) :
    SerialResult × List UInt8 :=
  if call.waiting = 0 then (.nothing, stream)
  else
    match serialRead call.size 1 stream with
    | ([], stream) => (.indexError, stream)
    | (sizebyte :: _, stream) =>
        let (cmd, stream) := serialRead call.cmd 1 stream
        let (buf, stream) := serialRead call.payload sizebyte.toNat stream
        (.command cmd buf, stream)

def streamAfter (stream : List UInt8) (call : SerialCall) : List UInt8 :=
  (call.recvCommand stream).2

/-- None of the reads of a frame times out. -/
structure Prompt (call : SerialCall) (frame : Frame) : Prop where
  size : 1 ≤ call.size
  cmd : 1 ≤ call.cmd
  payload : frame.payload.length ≤ call.payload

variable {call : SerialCall} {frame : Frame} {rest : List UInt8}

theorem recvCommand_idle (idle : call.waiting = 0) (stream : List UInt8) :
    call.recvCommand stream = (.nothing, stream) :=
  if_pos idle

private theorem recvCommand_end (busy : call.waiting ≠ 0) :
    call.recvCommand [] = (.indexError, []) := by
  unfold recvCommand serialRead
  rw [if_neg busy]
  simp

private theorem recvCommand_no_size (busy : call.waiting ≠ 0)
    (none : call.size = 0)
    (stream : List UInt8) :
    call.recvCommand stream = (.indexError, stream) := by
  unfold recvCommand serialRead
  rw [if_neg busy, none]
  simp

private theorem recvCommand_no_cmd (busy : call.waiting ≠ 0)
    (size : 1 ≤ call.size)
    (none : call.cmd = 0) :
    ∃ buf later, call.recvCommand (frame.encode ++ rest) =
      (.command [] buf, later) := by
  unfold recvCommand serialRead
  rw [if_neg busy, none, Nat.min_eq_right size]
  exact ⟨_, _, rfl⟩

private theorem recvCommand_payload (busy : call.waiting ≠ 0)
    (size : 1 ≤ call.size)
    (cmd : 1 ≤ call.cmd) :
    call.recvCommand (frame.encode ++ rest) =
      (.command [frame.cmd]
          ((frame.payload ++ rest).take
            (min call.payload frame.payload.length)),
        (frame.payload ++ rest).drop
          (min call.payload frame.payload.length)) := by
  unfold recvCommand serialRead
  rw [if_neg busy, Nat.min_eq_right size, Nat.min_eq_right cmd]
  change (SerialResult.command [frame.cmd]
      ((frame.payload ++ rest).take (min call.payload frame.length.toNat)),
    (frame.payload ++ rest).drop (min call.payload frame.length.toNat)) = _
  rw [Frame.length_toNat]

theorem recvCommand_frame_iff (busy : call.waiting ≠ 0) :
    call.recvCommand (frame.encode ++ rest) =
        (.command [frame.cmd] frame.payload, rest) ↔ call.Prompt frame := by
  constructor
  · intro received
    rcases Nat.eq_zero_or_pos call.size with no_size | size
    · rw [recvCommand_no_size busy no_size] at received
      cases received
    · rcases Nat.eq_zero_or_pos call.cmd with no_cmd | cmd
      · obtain ⟨buf, later, empty⟩ :=
          @recvCommand_no_cmd call frame rest busy size no_cmd
        rw [empty] at received
        cases received
      · rw [recvCommand_payload busy size cmd] at received
        have buf := congrArg Prod.fst received
        rw [SerialResult.command.injEq] at buf
        have length := congrArg List.length buf.2
        rw [List.length_take, List.length_append] at length
        exact ⟨size, cmd, by omega⟩
  · intro prompt
    rw [recvCommand_payload busy prompt.size prompt.cmd,
      Nat.min_eq_right prompt.payload, List.take_left, List.drop_left]

/-- The call starts at the border of a frame.  It returns None and consumes
nothing, or returns the next frame and ends at the border behind it. -/
def TakesNext (frames : List Frame) (stream : List UInt8)
    (call : SerialCall) : Prop :=
  ∃ left, left <:+ frames ∧ stream = Frame.code.encodeAll left ∧
    (call.recvCommand stream = (.nothing, stream) ∨
      ∃ frame rest, left = frame :: rest ∧
        call.recvCommand stream =
          (.command [frame.cmd] frame.payload, Frame.code.encodeAll rest))

/-- Every call that finds bytes waiting has a frame to come, all of it in
time. -/
def AllPrompt : List Frame → List SerialCall → Prop
  | _, [] => True
  | [], call :: calls => call.waiting = 0 ∧ AllPrompt [] calls
  | frame :: rest, call :: calls =>
      if call.waiting = 0 then AllPrompt (frame :: rest) calls
      else call.Prompt frame ∧ AllPrompt rest calls

theorem allPrompt_idle (frames : List Frame) (calls : List SerialCall)
    (idle : call.waiting = 0) :
    AllPrompt frames (call :: calls) ↔ AllPrompt frames calls := by
  cases frames with
  | nil =>
      constructor
      · intro prompt
        exact prompt.2
      · intro prompt
        exact ⟨idle, prompt⟩
  | cons frame rest => rw [AllPrompt, if_pos idle]

private theorem takesNext_idle {frames left : List Frame}
    (suffix : left <:+ frames)
    (idle : call.waiting = 0) :
    TakesNext frames (Frame.code.encodeAll left) call :=
  ⟨left, suffix, rfl, Or.inl (recvCommand_idle idle _)⟩

private theorem takesNext_end (frames : List Frame) (busy : call.waiting ≠ 0) :
    ¬ TakesNext frames [] call := by
  rintro ⟨left, _, _, nothing | ⟨frame, rest, _, received⟩⟩
  · rw [recvCommand_end busy] at nothing
    cases nothing
  · rw [recvCommand_end busy] at received
    cases received

private theorem recvCommand_ne_nothing (busy : call.waiting ≠ 0)
    (stream : List UInt8) : (call.recvCommand stream).1 ≠ .nothing := by
  unfold recvCommand
  rw [if_neg busy]
  intro nothing
  split at nothing <;> cases nothing

private theorem takesNext_frame_iff {frames rest : List Frame}
    (suffix : frame :: rest <:+ frames) (busy : call.waiting ≠ 0) :
    TakesNext frames (Frame.code.encodeAll (frame :: rest)) call ↔
      call.Prompt frame := by
  rw [← @recvCommand_frame_iff call frame (Frame.code.encodeAll rest) busy]
  constructor
  · rintro ⟨left, _, stream, nothing | ⟨next, later, rfl, received⟩⟩
    · exact absurd (congrArg Prod.fst nothing) (recvCommand_ne_nothing busy _)
    · have same := Frame.code.encodeAll_injective stream
      rw [List.cons.injEq] at same
      rw [← same.1, ← same.2] at received
      exact received
  · intro received
    exact ⟨_, suffix, rfl, Or.inr ⟨frame, rest, rfl, received⟩⟩

private theorem every_takesNext_iff {frames left : List Frame}
    (suffix : left <:+ frames)
    (calls : List SerialCall) :
    EveryStep streamAfter (TakesNext frames) (Frame.code.encodeAll left) calls ↔
      AllPrompt left calls := by
  induction calls generalizing left with
  | nil =>
      cases left <;> exact Iff.rfl
  | cons call calls ih =>
      by_cases idle : call.waiting = 0
      · have same : streamAfter (Frame.code.encodeAll left) call =
            Frame.code.encodeAll left :=
          congrArg Prod.snd (recvCommand_idle idle _)
        rw [allPrompt_idle left calls idle, ← ih suffix]
        constructor
        · rintro ⟨_, later⟩
          rw [same] at later
          exact later
        · intro later
          rw [← same] at later
          exact ⟨takesNext_idle suffix idle, later⟩
      · cases left with
        | nil =>
            constructor
            · intro every
              exact absurd every.1 (takesNext_end frames idle)
            · intro prompt
              exact absurd prompt.1 idle
        | cons frame rest =>
            have behind : rest <:+ frames :=
              (List.suffix_cons frame rest).trans suffix
            have now := takesNext_frame_iff suffix idle
            rw [AllPrompt, if_neg idle, ← ih behind, ← now]
            have next : call.Prompt frame →
                streamAfter (Frame.code.encodeAll (frame :: rest)) call =
                  Frame.code.encodeAll rest :=
              fun prompt => congrArg Prod.snd
                ((recvCommand_frame_iff idle).mpr prompt)
            constructor
            · rintro ⟨takes, later⟩
              rw [next (now.mp takes)] at later
              exact ⟨takes, later⟩
            · rintro ⟨takes, later⟩
              rw [← next (now.mp takes)] at later
              exact ⟨takes, later⟩

/-- All sequences of frames, and all placements of the timeouts. -/
theorem serial_frames_iff (sends : List MapleSend) (calls : List SerialCall) :
    EveryStep streamAfter (TakesNext (sends.map MapleSend.frame))
        (sends.flatMap MapleSend.sent) calls ↔
      AllPrompt (sends.map MapleSend.frame) calls := by
  rw [MapleSend.flatMap_sent]
  exact every_takesNext_iff List.suffix_rfl calls

private theorem twelve_fits : (12 : UInt32) ≤ 255 := by decide

/-- The payload read of the fused angles times out after four of twelve bytes;
the next call takes the fifth for a length. -/
theorem short_payload_misaligns :
    let send : MapleSend :=
      ⟨'1'.toUInt8, fun index => UInt8.ofNat index, 12, twelve_fits⟩
    let first : SerialCall := ⟨6, 1, 1, 4⟩
    let second : SerialCall := ⟨8, 1, 1, 6⟩
    first.recvCommand send.sent =
        (.command ['1'.toUInt8] [0, 1, 2, 3], [4, 5, 6, 7, 8, 9, 10, 11]) ∧
      second.recvCommand (streamAfter send.sent first) =
        (.command [5] [6, 7, 8, 9], [10, 11]) ∧
      ¬ EveryStep streamAfter (TakesNext [send.frame])
        ([send].flatMap MapleSend.sent) [first] := by
  intro send first second
  refine ⟨by decide, by decide, ?_⟩
  intro every
  rw [MapleSend.flatMap_sent] at every
  have prompt := (every_takesNext_iff List.suffix_rfl [first]).mp every
  rw [AllPrompt, if_neg (by decide)] at prompt
  exact absurd prompt.1.payload (by decide)

end SerialCall

end Quadcopter

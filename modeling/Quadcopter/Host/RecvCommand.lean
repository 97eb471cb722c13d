import Quadcopter.Common.Frame

/-
What the host receives (panda/user/copter.py, recvCommand).

port_read.read(k) returns between 0 and k of the next bytes of the device's
stream.  A script gives how many bytes each read has, and a call whose script
runs out is still reading.
-/

namespace Quadcopter

structure CopterCommand where
  cmd : Char
  buf : List UInt8
deriving DecidableEq, Repr

/-- port_read: the bytes to come, and how many of them the reads to come have. -/
structure Port where
  stream : List UInt8
  reads : List Nat
deriving DecidableEq, Repr

def Port.read (port : Port) (k : Nat) : Option (List UInt8 × Port) :=
  match port.reads with
  | [] => none
  | ready :: reads =>
      some (port.stream.take (min ready k),
        { stream := port.stream.drop (min ready k), reads })

namespace Copter

/-- The loop for the command byte; `attempts` bounds its rounds. -/
def readCmd : (attempts : Nat) → Port → Option (UInt8 × Port)
  | 0, _ => none
  | attempts + 1, port =>
      match port.read 1 with
      | none => none
      | some ([], port) => readCmd attempts port
      | some (cmdbyte :: _, port) => some (cmdbyte, port)

def readPayload (size : Nat) :
    (attempts : Nat) → (buf : List UInt8) → (sizeleft : Nat) → Port →
      Option (List UInt8 × Port)
  | 0, _, _, _ => none
  | attempts + 1, buf, sizeleft, port =>
      match port.read sizeleft with
      | none => none
      | some (bytes, port) =>
          let buf := buf ++ bytes
          if buf.length < size then
            readPayload size attempts buf (size - buf.length) port
          else some (buf, port)

/-- The outer `none` is a call that is still reading, the inner one is None. -/
def recvCommand (port : Port) : Option (Option CopterCommand × Port) :=
  match port.read 1 with
  | none => none
  | some ([], port) => some (none, port)
  | some (sizebyte :: _, port) =>
      match readCmd port.reads.length port with
      | none => none
      | some (cmdbyte, port) =>
          match readPayload sizebyte.toNat port.reads.length [] sizebyte.toNat
            port with
          | none => none
          | some (buf, port) =>
              some (some { cmd := Char.ofNat cmdbyte.toNat, buf }, port)

structure Recv where
  before : List UInt8
  result : Option CopterCommand
  after : List UInt8

def recvCommands : (calls : Nat) → Port → List Recv
  | 0, _ => []
  | calls + 1, port =>
      match recvCommand port with
      | none => []
      | some (result, later) =>
          { before := port.stream, result, after := later.stream } ::
            recvCommands calls later

end Copter

def Frame.received (frame : Frame) : CopterCommand :=
  { cmd := Char.ofNat frame.cmd.toNat, buf := frame.payload }

namespace Copter

private theorem read_splits {port later : Port} {k : Nat} {bytes : List UInt8}
    (done : port.read k = some (bytes, later)) :
    bytes ++ later.stream = port.stream ∧ bytes.length ≤ k := by
  unfold Port.read at done
  cases reads_eq : port.reads with
  | nil =>
      rw [reads_eq] at done
      cases done
  | cons ready reads =>
      rw [reads_eq] at done
      cases done
      constructor
      · exact List.take_append_drop _ _
      · rw [List.length_take]
        omega

private theorem readCmd_splits {attempts : Nat} {port later : Port}
    {cmdbyte : UInt8}
    (done : readCmd attempts port = some (cmdbyte, later)) :
    cmdbyte :: later.stream = port.stream := by
  induction attempts generalizing port with
  | zero => cases done
  | succ attempts ih =>
      unfold readCmd at done
      split at done
      · cases done
      · next next_port read_eq =>
          rw [ih done]
          exact (read_splits read_eq).1
      · next first rest next_port read_eq =>
          obtain ⟨whole, short⟩ := read_splits read_eq
          cases rest with
          | nil =>
              cases done
              exact whole
          | cons second rest => simp at short

/-- The payload loop asks for what is missing, so it never takes a byte of the
next frame. -/
theorem readPayload_splits {size attempts : Nat} {buf out : List UInt8}
    {sizeleft : Nat} {port later : Port} (missing : buf.length + sizeleft = size)
    (done : readPayload size attempts buf sizeleft port = some (out, later)) :
    out.length = size ∧ out ++ later.stream = buf ++ port.stream := by
  induction attempts generalizing buf sizeleft port with
  | zero => cases done
  | succ attempts ih =>
      unfold readPayload at done
      split at done
      · cases done
      · next bytes next_port read_eq =>
          obtain ⟨whole, short⟩ := read_splits read_eq
          have length_eq : (buf ++ bytes).length = buf.length + bytes.length :=
            List.length_append
          have joined : (buf ++ bytes) ++ next_port.stream =
              buf ++ port.stream := by
            rw [List.append_assoc, whole]
          by_cases short_of : (buf ++ bytes).length < size
          · simp only [if_pos short_of] at done
            obtain ⟨out_length, rest⟩ := ih (by omega) done
            exact ⟨out_length, rest.trans joined⟩
          · simp only [if_neg short_of] at done
            cases done
            exact ⟨by omega, joined⟩

/-- A completed call returns None and consumes nothing, or takes one frame off
the stream. -/
theorem recvCommand_splits {port later : Port} {result : Option CopterCommand}
    (done : recvCommand port = some (result, later)) :
    (result = none ∧ later.stream = port.stream) ∨
      ∃ frame : Frame, result = some frame.received ∧
        port.stream = frame.encode ++ later.stream := by
  unfold recvCommand at done
  split at done
  · cases done
  · next first_port read_eq =>
      cases done
      exact Or.inl ⟨rfl, (read_splits read_eq).1⟩
  · next sizebyte more first_port read_eq =>
      obtain ⟨whole, short⟩ := read_splits read_eq
      cases more with
      | cons second more => simp at short
      | nil =>
          split at done
          · cases done
          · next cmdbyte second_port cmd_eq =>
              have second_whole := readCmd_splits cmd_eq
              split at done
              · cases done
              · next buf last_port payload_eq =>
                  obtain ⟨length_eq, last_whole⟩ :=
                    readPayload_splits (Nat.zero_add _) payload_eq
                  cases done
                  let frame : Frame :=
                    { cmd := cmdbyte
                      payload := buf
                      payload_small := length_eq ▸ sizebyte.toNat_lt }
                  have size_eq : frame.length = sizebyte := by
                    apply UInt8.toNat_inj.mp
                    rw [Frame.length_toNat]
                    exact length_eq
                  refine Or.inr ⟨frame, rfl, ?_⟩
                  rw [← whole, ← second_whole]
                  simp only [Frame.encode, size_eq, List.cons_append,
                    List.nil_append]
                  rw [last_whole]
                  rfl

/-- None with nothing consumed, or the first of the frames to come, with its
`length + 2` bytes consumed. -/
def Recv.TakesNext (recv : Recv) (frames : List Frame) : Prop :=
  (recv.result = none ∧ recv.after = recv.before) ∨
    ∃ frame rest, frames = frame :: rest ∧
      recv.result = some frame.received ∧
      recv.after = Frame.code.encodeAll rest ∧
      recv.before.length = recv.after.length + (frame.payload.length + 2)

theorem recvCommand_takesNext {port later : Port} {frames : List Frame}
    {result : Option CopterCommand}
    (stream_eq : port.stream = Frame.code.encodeAll frames)
    (done : recvCommand port = some (result, later)) :
    Recv.TakesNext ⟨port.stream, result, later.stream⟩ frames := by
  rcases recvCommand_splits done with ⟨nothing, same⟩ | ⟨frame, found, split⟩
  · exact Or.inl ⟨nothing, same⟩
  · right
    have cut := Frame.decode_encode frame later.stream
    rw [← split, stream_eq] at cut
    cases frames with
    | nil => cases cut
    | cons first rest =>
        have first_cut := Frame.decode_encode first
          (Frame.code.encodeAll rest)
        have same := first_cut.symm.trans cut
        simp only [Option.some.injEq, Prod.mk.injEq] at same
        obtain ⟨rfl, after_eq⟩ := same
        refine ⟨first, rest, rfl, found, after_eq.symm, ?_⟩
        simp only [split, List.length_append, Frame.encode_length]
        omega

private theorem recvCommands_take {port : Port} {frames : List Frame}
    (stream_eq : port.stream = Frame.code.encodeAll frames) (calls : Nat) :
    (∀ recv ∈ recvCommands calls port, ∃ left, left <:+ frames ∧
        recv.before = Frame.code.encodeAll left ∧ recv.TakesNext left) ∧
      (recvCommands calls port).filterMap Recv.result <+:
        frames.map Frame.received := by
  induction calls generalizing port frames with
  | zero =>
      constructor
      · intro recv impossible
        cases impossible
      · exact List.nil_prefix
  | succ calls ih =>
      unfold recvCommands
      cases done : recvCommand port with
      | none =>
          constructor
          · intro recv impossible
            cases impossible
          · exact List.nil_prefix
      | some pair =>
          obtain ⟨result, later⟩ := pair
          have takes := recvCommand_takesNext stream_eq done
          rcases takes with ⟨nothing, same⟩ |
            ⟨frame, rest, rfl, found, after_eq, consumed⟩
          · change result = none at nothing
            obtain ⟨each, order⟩ := ih (same.trans stream_eq)
            constructor
            · intro recv member
              rcases List.mem_cons.mp member with here | later_call
              · rw [here]
                exact ⟨frames, List.suffix_rfl, stream_eq,
                  Or.inl ⟨nothing, same⟩⟩
              · exact each recv later_call
            · rw [List.filterMap_cons_none nothing]
              exact order
          · obtain ⟨each, order⟩ := ih after_eq
            constructor
            · intro recv member
              rcases List.mem_cons.mp member with here | later_call
              · rw [here]
                exact ⟨frame :: rest, List.suffix_rfl, stream_eq,
                  Or.inr ⟨frame, rest, rfl, found, after_eq, consumed⟩⟩
              · obtain ⟨left, behind, others⟩ := each recv later_call
                exact ⟨left, behind.trans (List.suffix_cons frame rest), others⟩
            · rw [List.filterMap_cons_some found, List.map_cons]
              exact List.cons_prefix_cons.mpr ⟨rfl, order⟩

/-- Every completed call returns None and consumes nothing, or returns the next
frame and consumes exactly its bytes; the commands returned are the first frames
of the stream. -/
theorem recvCommands_faithful (frames : List Frame) (reads : List Nat)
    (calls : Nat) :
    (∀ recv ∈ recvCommands calls
        { stream := Frame.code.encodeAll frames, reads },
      ∃ left, left <:+ frames ∧ recv.before = Frame.code.encodeAll left ∧
        recv.TakesNext left) ∧
      (recvCommands calls { stream := Frame.code.encodeAll frames,
                            reads }).filterMap Recv.result <+:
        frames.map Frame.received :=
  recvCommands_take rfl calls

example : (recvCommands 3
    { stream := [1, 99, 7, 0, 97], reads := [1, 0, 1, 0, 5, 0, 1, 1, 0] }).map
      Recv.result =
    [some ⟨'c', [7]⟩, none, some ⟨'a', []⟩] := by decide

end Copter

end Quadcopter

import Quadcopter.Host.PacketServer

/-
The network client of the ground station (controller/talk_module, class client
of talk_misc.py) and the loop of main (py_client.py) that calls it until it
returns None.

One call receives once and returns at most one packet.
-/

namespace Quadcopter

/-- `loop`: what it returns, and the buffer.  `recv` is `none` where it raises
socket.error. -/
def clientLoop (buff : List UInt8) :
    (recv : Option (List UInt8)) → Option (List UInt8) × List UInt8
  | none => (none, buff)
  | some data =>
      match popPacket (buff ++ data) with
      | some (newArray, buff) => (some newArray, buff)
      | none => (none, buff ++ data)

/-- What the calls have returned before None, what they have received, and the
buffer at that moment. -/
structure Drain where
  returned : List (List UInt8)
  received : List UInt8
  buff : List UInt8
deriving DecidableEq, Repr

/-- `loop` is called until it returns None: recv returns the pieces, and then it
raises socket.error. -/
def drain (buff : List UInt8) : (pieces : List (List UInt8)) → Drain
  | [] => { returned := [], received := [], buff := (clientLoop buff none).2 }
  | piece :: pieces =>
      match clientLoop buff (some piece) with
      | (none, buff) => { returned := [], received := piece, buff }
      | (some newArray, buff) =>
          let rest := drain buff pieces
          { returned := newArray :: rest.returned
            received := piece ++ rest.received
            buff := rest.buff }

def wholePackets (stream : List UInt8) : List Packet :=
  (Packet.code.decodeAll stream).1

structure Drained (buff : List UInt8) (done : Drain) : Prop where
  nothingWhole : Packet.decode done.buff = none
  returned : done.returned =
    (wholePackets (buff ++ done.received)).map Packet.encode

private theorem wholePackets_of_none {stream : List UInt8}
    (stops : Packet.decode stream = none) : wholePackets stream = [] := by
  have cut := Packet.code.decodeAll_eq [] stream stops
  exact congrArg Prod.fst cut

private theorem wholePackets_of_some {stream rest : List UInt8}
    {packet : Packet}
    (found : Packet.decode stream = some (packet, rest))
    (more : List UInt8) :
    wholePackets (stream ++ more) = packet :: wholePackets (rest ++ more) := by
  have whole := Packet.encode_of_decode stream packet rest found
  have cut := Packet.code.decodeAll_encodeAll_append [packet] (rest ++ more)
  rw [SelfDelimiting.Code.encodeAll_cons, SelfDelimiting.Code.encodeAll_nil,
    List.append_nil, ← List.append_assoc] at cut
  change Packet.code.decodeAll (packet.encode ++ rest ++ more) = _ at cut
  rw [whole] at cut
  exact congrArg Prod.fst cut

private theorem clientLoop_of_none {buff piece : List UInt8}
    (stops : Packet.decode (buff ++ piece) = none) :
    clientLoop buff (some piece) = (none, buff ++ piece) := by
  have popped := popPacket_eq (buff ++ piece)
  rw [stops, Option.map_none] at popped
  simp only [clientLoop, popped]

private theorem clientLoop_of_some {buff piece rest : List UInt8}
    {packet : Packet}
    (found : Packet.decode (buff ++ piece) = some (packet, rest)) :
    clientLoop buff (some piece) = (some packet.encode, rest) := by
  have popped := popPacket_eq (buff ++ piece)
  rw [found, Option.map_some] at popped
  simp only [clientLoop, popped]

private theorem drain_of_none {buff piece : List UInt8}
    (pieces : List (List UInt8))
    (stops : Packet.decode (buff ++ piece) = none) :
    drain buff (piece :: pieces) =
      { returned := [], received := piece, buff := buff ++ piece } := by
  rw [drain, clientLoop_of_none stops]

private theorem drain_of_some {buff piece rest : List UInt8} {packet : Packet}
    (pieces : List (List UInt8))
    (found : Packet.decode (buff ++ piece) = some (packet, rest)) :
    drain buff (piece :: pieces) =
      { returned := packet.encode :: (drain rest pieces).returned
        received := piece ++ (drain rest pieces).received
        buff := (drain rest pieces).buff } := by
  rw [drain, clientLoop_of_some found]

/-- What has been received when call `j` returns: the call after the last piece
receives nothing. -/
def receivedBy (buff : List UInt8) (pieces : List (List UInt8)) (j : Nat) :
    List UInt8 :=
  buff ++ (pieces.take j).flatten

/-- Some call finds fewer whole packets than there have been calls. -/
def SomeCallRunsDry (buff : List UInt8) (pieces : List (List UInt8)) : Prop :=
  ∃ j, j ≤ pieces.length + 1 ∧
    (wholePackets (receivedBy buff pieces j)).length < j

private theorem someCallRunsDry_nil (buff : List UInt8) :
    SomeCallRunsDry buff [] ↔ Packet.decode buff = none := by
  constructor
  · intro ⟨j, last, few⟩
    have one : j = 1 := by
      rw [List.length_nil] at last
      omega
    cases found : Packet.decode buff with
    | none => rfl
    | some cut =>
        obtain ⟨packet, rest⟩ := cut
        have first := wholePackets_of_some found []
        rw [one, receivedBy, List.take_nil, List.flatten_nil, first,
          List.length_cons] at few
        omega
  · intro stops
    refine ⟨1, Nat.le_refl _, ?_⟩
    rw [receivedBy, List.take_nil, List.flatten_nil, List.append_nil,
      wholePackets_of_none stops]
    exact Nat.one_pos

private theorem someCallRunsDry_of_none {buff piece : List UInt8}
    (pieces : List (List UInt8))
    (stops : Packet.decode (buff ++ piece) = none) :
    SomeCallRunsDry buff (piece :: pieces) := by
  refine ⟨1, by omega, ?_⟩
  rw [receivedBy, List.take_succ_cons, List.take_zero, List.flatten_cons,
    List.flatten_nil, List.append_nil, wholePackets_of_none stops]
  exact Nat.one_pos

private theorem someCallRunsDry_of_some {buff piece rest : List UInt8}
    {packet : Packet} (pieces : List (List UInt8))
    (found : Packet.decode (buff ++ piece) = some (packet, rest)) :
    SomeCallRunsDry buff (piece :: pieces) ↔ SomeCallRunsDry rest pieces := by
  have one_more : ∀ j,
      (wholePackets (receivedBy buff (piece :: pieces) (j + 1))).length =
        (wholePackets (receivedBy rest pieces j)).length + 1 := by
    intro j
    rw [receivedBy, List.take_succ_cons, List.flatten_cons,
      ← List.append_assoc, wholePackets_of_some found, List.length_cons]
    rfl
  constructor
  · intro ⟨j, last, few⟩
    cases j with
    | zero => exact absurd few (Nat.not_lt_zero _)
    | succ j =>
        rw [one_more] at few
        rw [List.length_cons] at last
        exact ⟨j, by omega, by omega⟩
  · intro ⟨j, last, few⟩
    refine ⟨j + 1, ?_, ?_⟩
    · rw [List.length_cons]
      omega
    · rw [one_more]
      omega

private theorem drained_cons {buff piece rest : List UInt8} {packet : Packet}
    (pieces : List (List UInt8))
    (found : Packet.decode (buff ++ piece) = some (packet, rest)) :
    Drained buff (drain buff (piece :: pieces)) ↔
      Drained rest (drain rest pieces) := by
  have packets : wholePackets
      (buff ++ (piece ++ (drain rest pieces).received)) =
        packet :: wholePackets (rest ++ (drain rest pieces).received) := by
    rw [← List.append_assoc]
    exact wholePackets_of_some found _
  rw [drain_of_some pieces found]
  constructor
  · intro ⟨nothing, returned⟩
    dsimp only at nothing returned
    rw [packets, List.map_cons] at returned
    exact ⟨nothing, (List.cons.inj returned).2⟩
  · intro ⟨nothing, returned⟩
    refine ⟨nothing, ?_⟩
    dsimp only
    rw [packets, List.map_cons, returned]

/-- The calls drain what they receive if and only if one of them, the last one
included, runs dry. -/
theorem client_drains_iff (buff : List UInt8) (pieces : List (List UInt8)) :
    Drained buff (drain buff pieces) ↔ SomeCallRunsDry buff pieces := by
  induction pieces generalizing buff with
  | nil =>
      rw [someCallRunsDry_nil]
      constructor
      · intro drained
        exact drained.nothingWhole
      · intro stops
        refine ⟨stops, ?_⟩
        change [] = (wholePackets (buff ++ [])).map Packet.encode
        rw [List.append_nil, wholePackets_of_none stops]
        rfl
  | cons piece pieces ih =>
      cases found : Packet.decode (buff ++ piece) with
      | none =>
          constructor
          · intro _
            exact someCallRunsDry_of_none pieces found
          · intro _
            rw [drain_of_none pieces found]
            refine ⟨found, ?_⟩
            dsimp only
            rw [wholePackets_of_none found]
            rfl
      | some cut =>
          obtain ⟨packet, rest⟩ := cut
          rw [drained_cons pieces found, someCallRunsDry_of_some pieces found]
          exact ih rest

theorem nil_small : ([] : List UInt8).length < UInt8.size := by
  decide

def twoAcks : List Packet :=
  [{ command := TalkCons.commandAck
     subCommand := TalkCons.tune
     data := []
     data_small := nil_small },
    { command := TalkCons.commandAck
      subCommand := TalkCons.control
      data := []
      data_small := nil_small }]

theorem client_keeps_packet :
    ¬ ∀ (sent : List Packet) (pieces : List (List UInt8)),
      pieces.flatten <+: Packet.code.encodeAll sent →
      (∀ piece ∈ pieces, piece ≠ [] ∧ piece.length ≤ 4096) →
      Drained [] (drain [] pieces) := by
  intro drains
  have drained := drains twoAcks [Packet.code.encodeAll twoAcks]
    (by decide) (by decide)
  exact absurd drained.nothingWhole (by decide)

end Quadcopter

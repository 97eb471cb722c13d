import Quadcopter.Common.Frame
import Quadcopter.M3.Command

/-
command_process cuts the received stream into frames.

The parser's variables say how much of the current frame has arrived (`At`).  One
call moves bytes from the ring to that pending part and dispatches a frame when
it is whole; so the frames dispatched in a run are those of the stream, however
its bytes arrive.
-/

namespace Quadcopter

open AtomicProgram

variable {F σ : Type} {n : Nat}

namespace CommandParser

structure Receives (n : Nat) (queue : BoundedFifo UInt8 (n - 1))
    (parser : CommandParser) : Prop where
  sized : parser.rbRx.size.toNat = n
  small : n < 2 ^ 31
  carries : parser.rxMemory.Carries n queue

theorem Receives.getc {queue : BoundedFifo UInt8 (n - 1)}
    {parser : CommandParser} {byte : UInt8} {rest : List UInt8}
    (receives : parser.Receives n queue) (items : queue.items = byte :: rest) :
    parser.getc.1 = byte ∧ parser.getc.2.Receives n (queue.pop 1) := by
  obtain ⟨value, after, _⟩ :=
    receives.carries.getc receives.sized receives.small
  rw [items] at value
  constructor
  · change (parser.rxMemory.call (ringbufGetc parser.rbRx)).1.getD 0 = byte
    rw [value]
    rfl
  · exact ⟨receives.sized, receives.small, after⟩

structure Stored (n : Nat) (queue : BoundedFifo UInt8 (n - 1)) (count : Nat)
    (parser after : CommandParser) : Prop where
  receives : after.Receives n (queue.pop count)
  index : after.cmdBufI = parser.cmdBufI + count
  bytes : after.cmdBuf.first (parser.cmdBufI.toNat + count) =
    parser.cmdBuf.first parser.cmdBufI.toNat ++ queue.items.take count
  kept : ∀ offset, parser.cmdBufI.toNat + count ≤ offset →
    after.cmdBuf offset = parser.cmdBuf offset
  left : after.cmdBufLeft = parser.cmdBufLeft
  len : after.cmdBufLen = parser.cmdBufLen

private theorem storeByte_stored {queue : BoundedFifo UInt8 (n - 1)}
    {parser : CommandParser} {byte : UInt8} {rest : List UInt8}
    (receives : parser.Receives n queue) (items : queue.items = byte :: rest)
    (nonneg : 0 ≤ parser.cmdBufI) (room : parser.cmdBufI < 256) :
    ∃ after, parser.storeByte = some after ∧
      Stored n queue 1 parser after := by
  obtain ⟨value, after⟩ := receives.getc items
  unfold storeByte
  rw [if_pos ⟨nonneg, room⟩]
  refine ⟨_, rfl, ⟨after.sized, after.small, after.carries⟩, rfl, ?_, ?_, rfl,
    rfl⟩
  · dsimp only
    rw [Buffer.first_update, value, items]
    rfl
  · intro offset beyond
    exact Function.update_of_ne (by omega) _ _

private theorem storeBytes_stored {queue : BoundedFifo UInt8 (n - 1)}
    {parser : CommandParser} {count : Nat}
    (receives : parser.Receives n queue)
    (available : count ≤ queue.items.length) (nonneg : 0 ≤ parser.cmdBufI)
    (room : parser.cmdBufI + count ≤ 256) :
    ∃ after, parser.storeBytes count = some after ∧
      Stored n queue count parser after := by
  induction count generalizing parser queue with
  | zero =>
      refine ⟨parser, rfl, ?_, ?_, ?_, fun _ _ => rfl, rfl, rfl⟩
      · rw [show queue.pop 0 = queue from rfl]
        exact receives
      · exact (Int.add_zero _).symm
      · rw [List.take_zero, List.append_nil, Nat.add_zero]
  | succ count ih =>
      cases items : queue.items with
      | nil =>
          rw [items] at available
          exact absurd available (Nat.not_succ_le_zero count)
      | cons byte rest =>
          obtain ⟨first, firstIs, stored⟩ :=
            storeByte_stored receives items nonneg (by omega)
          have index := stored.index
          have shorter : count ≤ (queue.pop 1).items.length := by
            rw [BoundedFifo.pop_items, List.length_drop]
            omega
          obtain ⟨after, afterIs, later⟩ := ih stored.receives shorter
            (by omega) (by omega)
          refine ⟨after, ?_, ?_, ?_, ?_, ?_, later.left.trans stored.left,
            later.len.trans stored.len⟩
          · rw [storeBytes, firstIs, Option.bind_some]
            exact afterIs
          · rw [Nat.add_comm, ← BoundedFifo.pop_pop]
            exact later.receives
          · rw [later.index]
            omega
          · have split : first.cmdBufI.toNat = parser.cmdBufI.toNat + 1 := by
              omega
            have bytes := later.bytes
            rw [split, stored.bytes] at bytes
            rw [Nat.add_comm count 1, ← Nat.add_assoc, bytes,
              BoundedFifo.pop_items, List.append_assoc, ← List.take_add]
          · intro offset beyond
            rw [later.kept offset (by omega), stored.kept offset (by omega)]

end CommandParser

namespace CommandParser

/-- Where the parser stands in the current frame, of which `pending` has been
taken out of the ring.  The frames before it left `stale` in cmd_buf. -/
inductive Place (parser : CommandParser) (stale : Buffer)
    (pending : List UInt8) : Prop where
  | between (index : parser.cmdBufI = -1) (none_pending : pending = [])
      (kept : parser.cmdBuf = stale)
  | within (nonneg : 0 ≤ parser.cmdBufI)
      (account : parser.cmdBufI + parser.cmdBufLeft =
        parser.cmdBufLen.toNat + 1)
      (left : 0 < parser.cmdBufLeft)
      (bytes : pending =
        parser.cmdBufLen :: parser.cmdBuf.first parser.cmdBufI.toNat)
      (kept : ∀ offset, parser.cmdBufI.toNat ≤ offset →
        parser.cmdBuf offset = stale offset)

structure At (n : Nat) (stale : Buffer) (pending : List UInt8)
    (queue : BoundedFifo UInt8 (n - 1)) (parser : CommandParser) : Prop where
  receives : parser.Receives n queue
  place : parser.Place stale pending

theorem Place.incomplete {parser : CommandParser} {stale : Buffer}
    {pending : List UInt8} (place : parser.Place stale pending) :
    Frame.decode pending = none := by
  cases place with
  | between index none_pending kept =>
      rw [none_pending]
      rfl
  | within nonneg account left bytes kept =>
      have size := Buffer.first_length parser.cmdBuf parser.cmdBufI.toNat
      rw [bytes]
      cases stored : parser.cmdBuf.first parser.cmdBufI.toNat with
      | nil => rfl
      | cons cmd payload =>
          rw [stored, List.length_cons] at size
          simp only [Frame.decode]
          rw [if_neg (by omega)]

/-- What a call has taken out of the ring, `pending` with what came before: a
frame that may be whole. -/
structure Received (n : Nat) (stale : Buffer) (pending : List UInt8)
    (queue : BoundedFifo UInt8 (n - 1)) (after : CommandParser) : Prop where
  receives : after.Receives n queue
  nonneg : 0 ≤ after.cmdBufI
  account : after.cmdBufI + after.cmdBufLeft = after.cmdBufLen.toNat + 1
  left : 0 ≤ after.cmdBufLeft
  bytes : pending = after.cmdBufLen :: after.cmdBuf.first after.cmdBufI.toNat
  kept : ∀ offset, after.cmdBufI.toNat ≤ offset →
    after.cmdBuf offset = stale offset

private theorem loop_received {begun : CommandParser} {avail : Nat}
    {queue : BoundedFifo UInt8 (n - 1)} {stale : Buffer} {pending : List UInt8}
    (receives : begun.Receives n queue) (available : avail = queue.items.length)
    (place : 0 < begun.cmdBufLeft)
    (received : Received n stale pending queue begun) :
    ∃ count after, count = (min (avail : Int) begun.cmdBufLeft).toNat ∧
      count ≤ queue.items.length ∧ (0 < avail → 0 < count) ∧
      (begun.storeBytes count).map (fun parser =>
        { parser with cmdBufLeft := parser.cmdBufLeft - count }) =
          some after ∧
      Received n stale (pending ++ queue.items.take count) (queue.pop count)
        after := by
  have lenBound := begun.cmdBufLen.toNat_lt
  have nonneg := received.nonneg
  have account := received.account
  generalize countIs : (min (avail : Int) begun.cmdBufLeft).toNat = count
  obtain ⟨stored, storedIs, done⟩ := storeBytes_stored receives
    (by omega : count ≤ queue.items.length) nonneg (by omega)
  have index := done.index
  have sameLeft := done.left
  have sameLen := done.len
  have split : stored.cmdBufI.toNat = begun.cmdBufI.toNat + count := by omega
  refine ⟨count, { stored with cmdBufLeft := stored.cmdBufLeft - count }, rfl,
    by omega, by omega, ?_, ?_, ?_, ?_, ?_, ?_, ?_⟩
  · rw [storedIs]
    rfl
  · exact ⟨done.receives.sized, done.receives.small, done.receives.carries⟩
  · dsimp only
    omega
  · dsimp only
    rw [sameLen]
    omega
  · dsimp only
    omega
  · dsimp only
    rw [received.bytes, split, done.bytes, sameLen]
    rfl
  · intro offset beyond
    dsimp only at beyond ⊢
    rw [done.kept offset (by omega), received.kept offset (by omega)]

def withLength (parser : CommandParser) : CommandParser :=
  { parser.getc.2 with
    cmdBufLen := parser.getc.1
    cmdBufLeft := parser.getc.1.toNat + 1
    cmdBufI := 0 }

private theorem beginFrame_between {parser : CommandParser}
    (index : parser.cmdBufI = -1) (avail : Int) :
    parser.beginFrame avail = (avail - 1, parser.withLength) :=
  if_pos index

private theorem beginFrame_within {parser : CommandParser}
    (nonneg : 0 ≤ parser.cmdBufI) (avail : Int) :
    parser.beginFrame avail = (avail, parser) :=
  if_neg (by omega)

/-- The first byte is the length of a frame; the loop takes what follows. -/
theorem Receives.receive_between {stale : Buffer} {byte : UInt8}
    {rest : List UInt8} {queue : BoundedFifo UInt8 (n - 1)}
    {parser : CommandParser} (holds : parser.Receives n queue)
    (index : parser.cmdBufI = -1) (kept : parser.cmdBuf = stale)
    (items : queue.items = byte :: rest) :
    ∃ count after, count ≤ rest.length ∧
      parser.receive queue.items.length = some after ∧
      Received n stale (byte :: rest.take count) (queue.pop (1 + count))
        after := by
  obtain ⟨value, receives⟩ := holds.getc items
  have loaded : parser.withLength.Receives n (queue.pop 1) :=
    ⟨receives.sized, receives.small, receives.carries⟩
  have popped : (queue.pop 1).items = rest := by
    rw [BoundedFifo.pop_items, items]
    rfl
  obtain ⟨count, after, countIs, fits, _, afterIs, received⟩ :=
    @loop_received n parser.withLength rest.length (queue.pop 1) stale [byte]
      loaded (congrArg List.length popped).symm
      (by unfold withLength; dsimp only; omega)
      ⟨loaded, by unfold withLength; dsimp only; omega,
        by unfold withLength; dsimp only; omega,
        by unfold withLength; dsimp only; omega,
        by unfold withLength; rw [value]; rfl,
        fun offset _ => congrFun kept offset⟩
  rw [popped] at fits
  refine ⟨count, after, fits, ?_, ?_⟩
  · unfold CommandParser.receive
    rw [beginFrame_between index]
    dsimp only at countIs ⊢
    rw [items, List.length_cons, Int.natCast_add, Int.natCast_one,
      Int.add_sub_cancel, ← countIs]
    exact afterIs
  · rw [popped, BoundedFifo.pop_pop] at received
    exact received

/-- The loop goes on with the frame. -/
theorem Receives.receive_within {stale : Buffer} {pending : List UInt8}
    {queue : BoundedFifo UInt8 (n - 1)} {parser : CommandParser}
    (holds : parser.Receives n queue) (left : 0 < parser.cmdBufLeft)
    (far : Received n stale pending queue parser)
    (some_left : 0 < queue.items.length) :
    ∃ count after, 0 < count ∧ count ≤ queue.items.length ∧
      parser.receive queue.items.length = some after ∧
      Received n stale (pending ++ queue.items.take count) (queue.pop count)
        after := by
  obtain ⟨count, after, countIs, fits, positive, afterIs, received⟩ :=
    loop_received holds rfl left far
  refine ⟨count, after, positive some_left, fits, ?_, received⟩
  unfold CommandParser.receive
  rw [beginFrame_within far.nonneg]
  dsimp only
  rw [← countIs]
  exact afterIs

/-- A call moves at least one byte out of a ring that is not empty. -/
theorem At.receive {stale : Buffer} {pending : List UInt8}
    {queue : BoundedFifo UInt8 (n - 1)} {parser : CommandParser}
    (at_ : parser.At n stale pending queue)
    (some_left : 0 < queue.items.length) :
    ∃ count after, 0 < count ∧ count ≤ queue.items.length ∧
      parser.receive queue.items.length = some after ∧
      Received n stale (pending ++ queue.items.take count) (queue.pop count)
        after := by
  cases at_.place with
  | between index none_pending kept =>
      cases items : queue.items with
      | nil =>
          rw [items] at some_left
          exact absurd some_left (Nat.lt_irrefl 0)
      | cons byte rest =>
          obtain ⟨count, after, fits, receives, received⟩ :=
            at_.receives.receive_between index kept items
          rw [items] at receives
          refine ⟨1 + count, after, by omega, ?_, receives, ?_⟩
          · rw [List.length_cons]
            omega
          · rw [none_pending, Nat.add_comm 1 count, List.take_succ_cons,
              Nat.add_comm count 1]
            exact received
  | within nonneg account left bytes kept =>
      exact at_.receives.receive_within left
        ⟨at_.receives, nonneg, account, by omega, bytes, kept⟩ some_left

def frame (parser : CommandParser) : Frame :=
  .ofBuffer (parser.cmdBuf 0) (fun offset => parser.cmdBuf (offset + 1))
    parser.cmdBufLen

theorem Received.whole {stale : Buffer} {pending : List UInt8}
    {queue : BoundedFifo UInt8 (n - 1)} {after : CommandParser}
    (received : Received n stale pending queue after)
    (done : after.cmdBufLeft = 0) : pending = after.frame.encode := by
  have account := received.account
  have index : after.cmdBufI.toNat = after.cmdBufLen.toNat + 1 := by omega
  have length : after.frame.length = after.cmdBufLen :=
    Frame.ofBuffer_length _ _ _
  rw [received.bytes, index, Frame.encode, length, Buffer.first_succ]
  rfl

end CommandParser

def Dispatch.frame (dispatch : Dispatch) : Frame :=
  .ofBuffer (UInt8.ofNat dispatch.cmd) dispatch.buf dispatch.length

theorem Dispatch.frame_cmd (dispatch : Dispatch) :
    dispatch.frame.cmd.toNat = dispatch.cmd :=
  UInt8.toNat_ofNat_of_lt' (Nat.lt_trans dispatch.cmd.isLt (by decide))

def Dispatch.cmdBuf (dispatch : Dispatch) : Buffer
  | 0 => UInt8.ofNat dispatch.cmd
  | offset + 1 => dispatch.buf offset

inductive Processed (call : F → Buffer → UInt8 → M3 F σ → M3 F σ)
    (stale : Buffer) (pending : List UInt8) (queue : BoundedFifo UInt8 (n - 1))
    (state : CommandState F σ) :
    Except Halt (CommandState F σ × Option Dispatch) → Prop where
  | idle (empty : queue.items = []) :
      Processed call stale pending queue state (.ok (state, none))
  | waits (count : Nat) (after : CommandParser) (positive : 0 < count)
      (fits : count ≤ queue.items.length)
      (at_ : after.At n stale (pending ++ queue.items.take count)
        (queue.pop count)) :
      Processed call stale pending queue state
        (.ok ({ state with parser := after }, none))
  | dispatches (count : Nat) (dispatch : Dispatch) (after : CommandParser)
      (positive : 0 < count) (fits : count ≤ queue.items.length)
      (whole : pending ++ queue.items.take count = dispatch.frame.encode)
      (kept : ∀ offset, dispatch.length.toNat ≤ offset →
        dispatch.buf offset = stale (offset + 1))
      (at_ : after.At n dispatch.cmdBuf [] (queue.pop count)) :
      Processed call stale pending queue state
        (.ok ({ parser := after, m3 := dispatch.run call state.m3 },
          some dispatch))
  | blinks (count : Nat) (frame : Frame) (positive : 0 < count)
      (fits : count ≤ queue.items.length)
      (whole : pending ++ queue.items.take count = frame.encode)
      (large : 128 ≤ frame.cmd.toNat) :
      Processed call stale pending queue state (.error .blink)

theorem commandProcess_processed
    (call : F → Buffer → UInt8 → M3 F σ → M3 F σ) {stale : Buffer}
    {pending : List UInt8} {queue : BoundedFifo UInt8 (n - 1)}
    {state : CommandState F σ} (at_ : state.parser.At n stale pending queue) :
    Processed call stale pending queue state (commandProcess call state) := by
  have avail := (at_.receives.carries.availableRead at_.receives.sized
    at_.receives.small).1
  unfold commandProcess
  simp only [avail]
  by_cases empty : (queue.items.length : Int) = 0
  · rw [if_pos empty]
    exact .idle (List.eq_nil_of_length_eq_zero (by omega))
  · obtain ⟨count, after, positive, fits, afterIs, received⟩ :=
      at_.receive (by omega)
    rw [if_neg empty, afterIs]
    dsimp only
    by_cases done : after.cmdBufLeft = 0
    · have whole := received.whole done
      rw [if_pos done]
      by_cases small : (after.cmdBuf 0).toNat < 128
      · rw [dif_pos small]
        have account := received.account
        refine .dispatches count _ _ positive fits ?_ ?_
          ⟨⟨received.receives.sized, received.receives.small,
            received.receives.carries⟩, .between rfl rfl ?_⟩
        · rw [whole]
          unfold Dispatch.frame CommandParser.frame
          simp only [UInt8.ofNat_toNat]
        · intro offset beyond
          dsimp only at beyond ⊢
          exact received.kept (offset + 1) (by omega)
        · funext offset
          cases offset with
          | zero => exact UInt8.ofNat_toNat.symm
          | succ offset => rfl
      · rw [dif_neg small]
        exact .blinks count after.frame positive fits whole
          (Nat.le_of_not_lt small)
    · have left := received.left
      rw [if_neg done]
      exact .waits count after positive fits ⟨received.receives,
        .within received.nonneg received.account (by omega) received.bytes
          received.kept⟩

end Quadcopter

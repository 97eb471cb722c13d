import Quadcopter.Common.RingbufFifo
import Quadcopter.Common.Memory

/-
The trace stream: debug.c on the m3 writes it, the firmware device of the kernel
module reads it (panda/m3/debug.c, panda/kmod/firmware.c).

Each end keeps its own copy of the ring's size.  The kernel's is eight bytes too
small, because firmware_init leaves room for the indices and ringbuf_init does so
again; the stream is whole as long as no read reaches the missing cells.
-/

namespace Quadcopter

open AtomicProgram MachineInt

def debugInit (len : UInt32) : RingProgram Ringbuf := ringbufInit len

/-- The count is the one that trace_out drops. -/
def traceOut (rb : Ringbuf) (buf : Buffer) (len : Int32) :
    RingProgram Int32 :=
  ringbufWrite rb buf len

def firmwareInit (len : UInt32) : RingProgram Ringbuf := do
  -- QUADCOPTER_LEN_BYTES(TRACE)-2*sizeof(uint32_t)
  let size ← subU32 len 8
  ringbufInit size

def quadcopterRead (rb : Ringbuf) (buf : Buffer) (count : Int32) :
    RingProgram (Int32 × Buffer) :=
  ringbufRead rb buf count

structure TraceSystem where
  memory : RingMemory
  debugRb : Ringbuf
  firmwareRb : Ringbuf
  accepted : List UInt8
  host : List UInt8

inductive TraceEvent where
  | traceOut (buf : Buffer) (len : Int32)
  | hostRead (buf : Buffer) (count : Int32)

def TraceEvent.Valid : TraceEvent → Prop
  | .traceOut _ len => 0 ≤ len.toInt
  | .hostRead _ count => 0 ≤ count.toInt

namespace TraceSystem

def start (len : UInt32) (memory : RingMemory) : TraceSystem :=
  let firmware := memory.call (firmwareInit len)
  let debug := firmware.2.call (debugInit len)
  { memory := debug.2
    debugRb := debug.1
    firmwareRb := firmware.1
    accepted := []
    host := [] }

def step (system : TraceSystem) : TraceEvent → TraceSystem
  | .traceOut buf len =>
      let done := system.memory.call (traceOut system.debugRb buf len)
      { system with
        memory := done.2
        accepted := system.accepted ++ buf.first done.1.toInt.toNat }
  | .hostRead buf count =>
      let done :=
        system.memory.call (quadcopterRead system.firmwareRb buf count)
      { system with
        memory := done.2
        host := system.host ++ done.1.2.first done.1.1.toInt.toNat }

def run (system : TraceSystem) (events : List TraceEvent) : TraceSystem :=
  events.foldl step system

/-- The next read, if it is one, ends below the kernel's private size. -/
def Below (len : UInt32) (system : TraceSystem) : TraceEvent → Prop
  | .traceOut _ _ => True
  | .hostRead _ count =>
      system.memory.readPos.toNat +
        min count.toInt.toNat (system.memory.held (len.toNat - 8)) <
          len.toNat - 16

def StaysBelow (len : UInt32) : TraceSystem → List TraceEvent → Prop
  | _, [] => True
  | system, event :: events =>
      system.Below len event ∧ StaysBelow len (system.step event) events

/-! ### Below the kernel's size the stream is a FIFO queue -/

structure Simulates (len : UInt32) (system : TraceSystem)
    (history : FifoHistory UInt8 (len.toNat - 8 - 1)) : Prop where
  carries : system.memory.Carries (len.toNat - 8) history.queue
  debugRb : system.debugRb.size.toNat = len.toNat - 8
  firmwareRb : system.firmwareRb.size.toNat = len.toNat - 16
  accepted : system.accepted = history.accepted
  host : system.host = history.delivered

variable {len : UInt32}

theorem start_simulates (enough : 17 ≤ len.toNat) (memory : RingMemory) :
    (start len memory).Simulates len .start := by
  have order : 8 ≤ len := UInt32.le_iff_toNat_le.mpr (by simp; omega)
  have shorter : (len - 8).toNat = len.toNat - 8 :=
    UInt32.toNat_sub_of_le _ _ order
  have debug := ringbufInit_carries (by omega : 1 ≤ len.toNat - 8)
    (by omega : len.toNat = len.toNat - 8 + 8)
    (memory.call (firmwareInit len)).2
  have firmware := ringbufInit_carries (by omega : 1 ≤ len.toNat - 16)
    (by omega : (len - 8).toNat = len.toNat - 16 + 8) memory
  exact ⟨debug.2.1, debug.1, firmware.1, rfl, rfl⟩

theorem Simulates.step (small : len.toNat < 2 ^ 31) {system : TraceSystem}
    {history : FifoHistory UInt8 (len.toNat - 8 - 1)}
    (simulates : system.Simulates len history) (event : TraceEvent)
    (valid : event.Valid) (below : system.Below len event) :
    ∃ after, (system.step event).Simulates len after := by
  cases event with
  | traceOut buf count =>
      have done := (simulates.carries.write simulates.debugRb (by omega) buf
        count valid).1
      refine ⟨history.push (buf.first count.toInt.toNat), done.carries,
        simulates.debugRb, simulates.firmwareRb, ?_, simulates.host⟩
      exact congrArg₂ (· ++ ·) simulates.accepted done.accepted_eq
  | hostRead buf count =>
      have short : system.memory.readPos.toNat +
          min count.toInt.toNat history.queue.items.length <
            system.firmwareRb.size.toNat := by
        rw [simulates.firmwareRb, ← simulates.carries.held]
        exact below
      have done := (simulates.carries.readWithin (by omega) buf count valid
        (by rw [simulates.firmwareRb]; omega) (Or.inr short)).1
      refine ⟨history.pop count.toInt.toNat, done.carries,
        simulates.debugRb, simulates.firmwareRb, simulates.accepted, ?_⟩
      exact congrArg₂ (· ++ ·) simulates.host done.delivered_eq

theorem Simulates.run (small : len.toNat < 2 ^ 31) {system : TraceSystem}
    {history : FifoHistory UInt8 (len.toNat - 8 - 1)}
    (simulates : system.Simulates len history) (events : List TraceEvent)
    (valid : ∀ event ∈ events, event.Valid)
    (below : StaysBelow len system events) :
    ∃ after, (system.run events).Simulates len after := by
  induction events generalizing system history with
  | nil => exact ⟨history, simulates⟩
  | cons event events ih =>
      obtain ⟨after, simulates⟩ := simulates.step small event
        (valid event List.mem_cons_self) below.1
      exact ih simulates
        (fun other member => valid other (List.mem_cons_of_mem _ member))
        below.2

theorem StaysBelow.front {system : TraceSystem}
    {events more : List TraceEvent}
    (below : StaysBelow len system (events ++ more)) :
    StaysBelow len system events := by
  induction events generalizing system with
  | nil => trivial
  | cons event events ih => exact ⟨below.1, ih below.2⟩

end TraceSystem

/-- In a run whose reads all stay below the kernel's private size, the host has a
prefix of the trace in every state reached. -/
theorem trace_stream_faithful_below {len : UInt32} (enough : 17 ≤ len.toNat)
    (small : len.toNat < 2 ^ 31) (memory : RingMemory)
    (events : List TraceEvent) (valid : ∀ event ∈ events, event.Valid)
    (below : TraceSystem.StaysBelow len (TraceSystem.start len memory) events) :
    ∀ reached, reached <+: events →
      ((TraceSystem.start len memory).run reached).host <+:
        ((TraceSystem.start len memory).run reached).accepted := by
  rintro reached ⟨more, rfl⟩
  obtain ⟨history, simulates⟩ :=
    (TraceSystem.start_simulates enough memory).run small reached
      (fun event member => valid event (List.mem_append_left more member))
      below.front
  rw [simulates.host, simulates.accepted]
  exact history.delivered_prefix

/-- Three bytes of trace, two of which the host has read, in a ring of 48. -/
theorem trace_stream_faithful_below_of_two :
    let system := (TraceSystem.start 48 ⟨0, 0, fun _ => 0⟩).run
      [.traceOut (fun offset => UInt8.ofNat offset) 3,
        .hostRead (fun _ => 0) 2]
    system.host = [0, 1] ∧ system.host <+: system.accepted := by
  intro system
  refine ⟨by decide +kernel, ?_⟩
  refine trace_stream_faithful_below (by decide : 17 ≤ (48 : UInt32).toNat)
    (by decide) ⟨0, 0, fun _ => 0⟩
    [.traceOut (fun offset => UInt8.ofNat offset) 3, .hostRead (fun _ => 0) 2]
    ?_ ⟨trivial, ?_, trivial⟩ _ List.prefix_rfl
  · intro event member
    rcases List.mem_cons.mp member with rfl | member
    · exact (by decide : 0 ≤ (3 : Int32).toInt)
    · rw [List.mem_singleton.mp member]
      exact (by decide : 0 ≤ (2 : Int32).toInt)
  · unfold TraceSystem.Below
    decide +kernel

/-! ### A read that reaches the kernel's size -/

section AnyMemory

/-- A program that runs alone, on a memory that nothing is known of. -/
private abbrev LeadsTo {α : Type} (program : RingProgram α)
    (memory : RingMemory) (post : α → RingMemory → Prop) : Prop :=
  Holds RingOp.execute Eq (fun _ _ => True) post program memory

private theorem memcpyFromio_leadsTo (buf : Buffer) (offset cell length : Nat)
    (memory : RingMemory) :
    LeadsTo (memcpyFromio buf offset cell length) memory
      (fun _ later => later = memory) := by
  induction length generalizing buf offset cell with
  | zero =>
      apply Holds.ret
      rintro _ rfl
      rfl
  | succ length ih =>
      apply Holds.step
      rintro _ rfl
      exact ⟨trivial, ih _ _ _⟩

private theorem sub_leadsTo {α : Type} {minuend subtrahend : UInt32}
    {next : UInt32 → RingProgram α} {memory : RingMemory}
    {post : α → RingMemory → Prop}
    (rest : LeadsTo (next (minuend - subtrahend)) memory post) :
    LeadsTo (subU32 minuend subtrahend >>= next) memory post := by
  apply Holds.step
  rintro _ rfl
  exact ⟨trivial, rest⟩

private theorem splitCopy_leadsTo (rb : Ringbuf) (pos : UInt32)
    (count : Int32) (buf : Buffer) (memory : RingMemory) :
    LeadsTo (splitCopy rb pos count
        (fun cell offset length buf => memcpyFromio buf offset cell length)
        buf) memory
      (fun copied later => later = memory ∧ copied.2 =
        if pos + count.toUInt32 ≥ rb.size then
          count.toUInt32 - (rb.size - pos)
        else pos + count.toUInt32) := by
  unfold splitCopy
  by_cases wraps : pos + count.toUInt32 ≥ rb.size
  · rw [if_pos wraps, if_pos wraps]
    apply sub_leadsTo
    apply Holds.bind (memcpyFromio_leadsTo _ _ _ _ _) (fun _ => rfl)
    intro buf1 later same
    rw [same]
    apply sub_leadsTo
    have second : ∀ length : UInt32, LeadsTo
        (if length > 0 then do
            let length ← subU32 count.toUInt32 (rb.size - pos)
            memcpyFromio buf1 (rb.size - pos).toNat 0 length.toNat
          else .ret buf1) memory (fun _ later => later = memory) := by
      intro length
      by_cases more : length > 0
      · rw [if_pos more]
        exact sub_leadsTo (memcpyFromio_leadsTo _ _ _ _ _)
      · rw [if_neg more]
        apply Holds.ret
        rintro _ rfl
        rfl
    apply Holds.bind (second _) (fun _ => rfl)
    intro buf2 later same
    rw [same]
    apply sub_leadsTo
    apply Holds.ret
    rintro _ rfl
    exact ⟨rfl, rfl⟩
  · rw [if_neg wraps, if_neg wraps]
    apply Holds.bind (memcpyFromio_leadsTo _ _ _ _ _) (fun _ => rfl)
    intro buf1 later same
    rw [same]
    apply Holds.ret
    rintro _ rfl
    exact ⟨rfl, rfl⟩

private theorem availableRead_leadsTo (rb : Ringbuf) {memory : RingMemory}
    (ahead : memory.writePos > memory.readPos) :
    LeadsTo (ringbufAvailableRead rb) memory (fun avail later =>
      later = memory ∧ avail = (memory.writePos - memory.readPos).toInt32) := by
  unfold ringbufAvailableRead
  apply Holds.step
  rintro _ rfl
  refine ⟨trivial, ?_⟩
  apply Holds.step
  rintro _ rfl
  refine ⟨trivial, ?_⟩
  change LeadsTo (if memory.writePos > memory.readPos then _ else _) memory _
  rw [if_pos ahead]
  apply sub_leadsTo
  apply Holds.ret
  rintro _ rfl
  exact ⟨rfl, rfl⟩

end AnyMemory

/-- What a read returns and where it leaves `*read_pos`, for an end of any
private size. -/
theorem ringbufRead_ahead (rb : Ringbuf) {memory : RingMemory}
    (ahead : memory.writePos > memory.readPos) (buf : Buffer)
    (count : Int32) :
    let taken := capped count (memory.writePos - memory.readPos).toInt32
    (memory.call (ringbufRead rb buf count)).1.1 = taken ∧
      (memory.call (ringbufRead rb buf count)).2 =
        { memory with
          readPos :=
            if memory.readPos + taken.toUInt32 ≥ rb.size then
              taken.toUInt32 - (rb.size - memory.readPos)
            else memory.readPos + taken.toUInt32 } := by
  intro taken
  have spec : LeadsTo (ringbufRead rb buf count) memory
      (fun result later => result.1 = taken ∧ later =
        { memory with
          readPos :=
            if memory.readPos + taken.toUInt32 ≥ rb.size then
              taken.toUInt32 - (rb.size - memory.readPos)
            else memory.readPos + taken.toUInt32 }) := by
    unfold ringbufRead
    apply Holds.step
    rintro _ rfl
    refine ⟨trivial, ?_⟩
    apply Holds.bind (availableRead_leadsTo rb ahead) (fun _ => rfl)
    rintro avail later ⟨same, rfl⟩
    rw [same]
    apply Holds.bind (splitCopy_leadsTo rb memory.readPos taken buf memory)
      (fun _ => rfl)
    rintro ⟨copied, pos⟩ later ⟨same, rfl⟩
    rw [same]
    apply Holds.step
    rintro _ rfl
    refine ⟨trivial, ?_⟩
    apply Holds.ret
    rintro _ rfl
    exact ⟨rfl, rfl⟩
  exact (spec.run (fun _ => rfl)).1

section Overrun

variable {len : UInt32} (enough : 17 ≤ len.toNat) (small : len.toNat < 2 ^ 31)

include enough small in
private theorem whole_toInt :
    (len - 16).toInt32.toInt = ((len.toNat - 16 : Nat) : Int) := by
  have order : 16 ≤ len := UInt32.le_iff_toNat_le.mpr (by simp; omega)
  have sixteen : (16 : UInt32).toNat = 16 := rfl
  rw [toInt_toInt32 _ (by rw [UInt32.toNat_sub_of_le _ _ order]; omega),
    UInt32.toNat_sub_of_le _ _ order, sixteen]

include enough small in
private theorem traceOut_whole (memory : RingMemory) (buf : Buffer) :
    let filled := (TraceSystem.start len memory).step
      (.traceOut buf (len - 16).toInt32)
    filled.memory.readPos = 0 ∧
      filled.memory.writePos.toNat = len.toNat - 16 ∧
      filled.firmwareRb.size.toNat = len.toNat - 16 ∧ filled.host = [] ∧
      filled.accepted.length = len.toNat - 16 := by
  intro filled
  have started := TraceSystem.start_simulates enough memory
  have whole := whole_toInt enough small
  have written := (started.carries.write started.debugRb (by omega) buf
    (len - 16).toInt32 (by omega)).1
  have room : (FifoHistory.start :
      FifoHistory UInt8 (len.toNat - 8 - 1)).queue.room = len.toNat - 9 :=
    rfl
  have counted := written.value
  rw [room, whole, Int.toNat_natCast, Nat.min_eq_left (by omega)] at counted
  have readPos : filled.memory.readPos = 0 := written.readPos
  have inside : filled.memory.writePos.toNat < len.toNat - 8 :=
    written.carries.positions.1
  have held := written.carries.held
  unfold RingMemory.held at held
  rw [BoundedFifo.push_items, List.length_append,
    BoundedFifo.accepted_length, room, Buffer.first_length, whole,
    Int.toNat_natCast, Nat.min_eq_left (by omega)] at held
  refine ⟨readPos, ?_, started.firmwareRb, rfl, ?_⟩
  · change (filled.memory.writePos.toNat + (len.toNat - 8) -
      filled.memory.readPos.toNat) % (len.toNat - 8) =
        0 + (len.toNat - 16) at held
    rw [readPos, show (0 : UInt32).toNat = 0 from rfl, Nat.sub_zero,
      Nat.add_mod_right, Nat.mod_eq_of_lt inside] at held
    omega
  · have accepted : filled.accepted = buf.first _ := List.nil_append _
    rw [accepted, Buffer.first_length]
    unfold traceOut
    rw [counted, Int.toNat_natCast]

include enough small in
private theorem hostRead_filled {system : TraceSystem} {count : Int32}
    (firmwareRb : system.firmwareRb.size.toNat = len.toNat - 16)
    (readPos : system.memory.readPos = 0)
    (writePos : system.memory.writePos.toNat = len.toNat - 16)
    (reading : Buffer) :
    (system.step (.hostRead reading count)).host.length =
        system.host.length + (min count.toInt (len.toNat - 16 : Nat)).toNat ∧
      (count.toInt = (len.toNat - 16 : Nat) →
        (system.step (.hostRead reading count)).memory = system.memory) := by
  have zero : (0 : UInt32).toNat = 0 := rfl
  have ahead : system.memory.writePos > system.memory.readPos := by
    apply UInt32.lt_iff_toNat_lt.mpr
    rw [readPos, zero]
    omega
  have order : system.memory.readPos ≤ system.memory.writePos :=
    UInt32.le_iff_toNat_le.mpr (by rw [readPos, zero]; omega)
  obtain ⟨value, after⟩ := ringbufRead_ahead system.firmwareRb ahead reading
    count
  have distance := UInt32.toNat_sub_of_le _ _ order
  rw [writePos, readPos, zero, Nat.sub_zero] at distance
  have taken := capped_toInt count
    (system.memory.writePos - system.memory.readPos).toInt32
  rw [readPos] at taken
  rw [toInt_toInt32 _ (by omega), distance] at taken
  constructor
  · have host : (system.step (.hostRead reading count)).host =
        system.host ++ _ := rfl
    rw [host, List.length_append, Buffer.first_length]
    unfold quadcopterRead
    rw [value, readPos, taken]
  · intro all
    have memory : (system.step (.hostRead reading count)).memory = _ := after
    rw [memory, readPos]
    generalize capped count (system.memory.writePos - 0).toInt32 = done
      at taken
    have same : done.toUInt32.toNat = system.firmwareRb.size.toNat := by
      rw [toNat_toUInt32 _ (by omega), firmwareRb]
      omega
    have exactly : done.toUInt32 = system.firmwareRb.size :=
      UInt32.toNat_inj.mp same
    rw [exactly, UInt32.zero_add, if_pos (UInt32.le_refl _), UInt32.sub_zero,
      UInt32.sub_self]
    rw [← readPos]

end Overrun

/-- A host that reads as far as the kernel's size is sent back to cell 0 and
receives bytes a second time. -/
theorem trace_stream_overrun {len : UInt32} (enough : 17 ≤ len.toNat)
    (small : len.toNat < 2 ^ 31) (memory : RingMemory) (buf reading : Buffer) :
    let system := (TraceSystem.start len memory).run
      [.traceOut buf (len - 16).toInt32,
        .hostRead reading (len - 16).toInt32, .hostRead reading 1]
    ¬ system.host <+: system.accepted := by
  intro system front
  obtain ⟨readPos, writePos, firmwareRb, host, accepted⟩ :=
    traceOut_whole enough small memory buf
  have ran : system = ((((TraceSystem.start len memory).step
    (.traceOut buf (len - 16).toInt32)).step
      (.hostRead reading (len - 16).toInt32)).step (.hostRead reading 1)) := rfl
  rw [ran] at front
  generalize (TraceSystem.start len memory).step
    (.traceOut buf (len - 16).toInt32) = filled at *
  obtain ⟨firstLength, unmoved⟩ :=
    hostRead_filled enough small firmwareRb readPos writePos reading
  have whole := whole_toInt enough small
  rw [host, whole, List.length_nil] at firstLength
  have sameMemory := unmoved whole
  have second := (@hostRead_filled len enough small
    (filled.step (.hostRead reading (len - 16).toInt32)) 1 firmwareRb
    (by rw [sameMemory, readPos]) (by rw [sameMemory, writePos]) reading).1
  have bound := front.length_le
  have one : (1 : Int32).toInt = 1 := rfl
  have kept : ((filled.step (.hostRead reading (len - 16).toInt32)).step
    (.hostRead reading 1)).accepted = filled.accepted := rfl
  rw [second, firstLength, kept, accepted, one] at bound
  omega

/-- The stream is not faithful at the length in memory.h. -/
theorem trace_stream_unfaithful :
    ¬ ∀ (memory : RingMemory) (events : List TraceEvent),
      (∀ event ∈ events, event.Valid) →
        let system := (TraceSystem.start
          (quadcopterLenBytes quadcopterTraceLenMb) memory).run events
        system.host <+: system.accepted := by
  intro faithful
  have enough : 17 ≤ (quadcopterLenBytes quadcopterTraceLenMb).toNat := by
    decide
  have small : (quadcopterLenBytes quadcopterTraceLenMb).toNat < 2 ^ 31 := by
    decide
  refine trace_stream_overrun enough small ⟨0, 0, fun _ => 0⟩ (fun _ => 0)
    (fun _ => 0) (faithful _ _ ?_)
  intro event member
  have whole := whole_toInt enough small
  have nonneg : 0 ≤ (quadcopterLenBytes quadcopterTraceLenMb -
      16).toInt32.toInt := by omega
  rcases List.mem_cons.mp member with rfl | member
  · exact nonneg
  · rcases List.mem_cons.mp member with rfl | member
    · exact nonneg
    · rw [List.mem_singleton.mp member]
      exact (by decide : 0 ≤ (1 : Int32).toInt)

end Quadcopter

import Quadcopter.Common.RingbufFifo

/-
The memory that a ringbuf_write running alone leaves, cell by cell.

The queue that a ring represents does not tell what its free cells hold.  Two
calls are compared here byte for byte, so that a write in pieces can be set
against one write of the whole.
-/

namespace Quadcopter

open AtomicProgram CircularWindow MachineInt

theorem Buffer.first_add (buf : Buffer) (front back : Nat) :
    buf.first (front + back) =
      buf.first front ++
        Buffer.first (fun index => buf (front + index)) back := by
  unfold Buffer.first
  rw [List.range_add, List.map_append, List.map_map]
  rfl

theorem Buffer.first_congr {buf other : Buffer} {count : Nat}
    (same : ∀ index, index < count → buf index = other index) :
    buf.first count = other.first count :=
  List.map_congr_left (fun index member => same index (List.mem_range.mp member))

/-- The memory after `count` bytes of `buf` are written behind `*write_pos`. -/
def RingMemory.written (memory : RingMemory) (size : Nat) (buf : Buffer)
    (count : Nat) : RingMemory :=
  { writePos := UInt32.ofNat ((memory.writePos.toNat + count) % size)
    readPos := memory.readPos
    data := store memory.data size memory.writePos.toNat count buf }

namespace RingMemory

variable {size : Nat} {memory : RingMemory}

theorem written_writePos (small : size < 2 ^ 31) (positive : 0 < size)
    (buf : Buffer) (count : Nat) :
    (memory.written size buf count).writePos.toNat =
      (memory.writePos.toNat + count) % size := by
  have bound := Nat.mod_lt (memory.writePos.toNat + count) positive
  unfold written
  rw [UInt32.toNat_ofNat']
  omega

theorem written_zero (writeBound : memory.writePos.toNat < size)
    (buf : Buffer) : memory.written size buf 0 = memory := by
  unfold written
  rw [store_zero, Nat.add_zero, Nat.mod_eq_of_lt writeBound,
    UInt32.ofNat_toNat]

theorem written_congr {buf other : Buffer} {count : Nat}
    (same : ∀ index, index < count → buf index = other index) :
    memory.written size buf count = memory.written size other count := by
  unfold written
  rw [store_congr _ _ _ same]

/-- Two writes, the second of the bytes that come next, are one. -/
theorem written_written (small : size < 2 ^ 31)
    (writeBound : memory.writePos.toNat < size) {first second : Nat}
    (fits : first + second ≤ size) (buf : Buffer) :
    (memory.written size buf first).written size
        (fun index => buf (first + index)) second =
      memory.written size buf (first + second) := by
  have position := @written_writePos size memory small (by omega) buf first
  unfold written at position ⊢
  rw [position, store_store writeBound fits, Nat.mod_add_mod, Nat.add_assoc]

theorem held_written (small : size < 2 ^ 31)
    (writeBound : memory.writePos.toNat < size)
    (readBound : memory.readPos.toNat < size) (buf : Buffer) {count : Nat}
    (fits : memory.held size + count < size) :
    (memory.written size buf count).held size = memory.held size + count := by
  have position := @written_writePos size memory small (by omega) buf count
  have sum : (memory.writePos.toNat + count) % size =
      (memory.readPos.toNat + (memory.held size + count)) % size := by
    rw [← Nat.add_assoc]
    rcases apart_of_lt writeBound readBound with ahead | behind
    · exact congrArg (fun start => (start + count) % size) ahead
    · refine Eq.trans ?_
        (congrArg (fun start => (start + count) % size) behind)
      rw [Nat.add_right_comm, Nat.add_mod_right]
  have far := distance_eq memory.readPos.toNat (memory.held size + count) fits
  rw [← sum, ← position, Nat.mod_eq_of_lt readBound] at far
  exact far

end RingMemory

private theorem memcpyToio_run (buf : Buffer) (length cell offset : Nat)
    (memory : RingMemory) :
    (memcpyToio cell buf offset length).run RingOp.execute memory =
      ((), { memory with
        data := fun other =>
          if cell ≤ other ∧ other < cell + length then
            buf (offset + (other - cell))
          else memory.data other }) := by
  induction length generalizing cell offset memory with
  | zero =>
      have unchanged : (fun other => if cell ≤ other ∧ other < cell + 0 then
          buf (offset + (other - cell)) else memory.data other) = memory.data := by
        funext other
        rw [if_neg (by omega)]
      rw [memcpyToio, Program.run_ret, unchanged]
  | succ length ih =>
      simp only [memcpyToio, Program.run_step, RingOp.execute, ih]
      congr 2
      funext other
      by_cases here : other = cell
      · subst other
        rw [if_neg (by omega), if_pos (by omega), Function.update_self,
          Nat.sub_self, Nat.add_zero]
      · rw [Function.update_of_ne here]
        by_cases later : cell + 1 ≤ other ∧ other < cell + 1 + length
        · rw [if_pos later, if_pos (by omega)]
          congr 1
          omega
        · rw [if_neg later, if_neg (by omega)]

private theorem memcpyToio_stores {size cell length : Nat}
    (fits : cell + length ≤ size)
    (buf : Buffer) (offset : Nat) (memory : RingMemory) :
    (memcpyToio cell buf offset length).run RingOp.execute memory =
      ((), { memory with
        data := store memory.data size cell length
          (fun index => buf (offset + index)) }) := by
  rw [memcpyToio_run, store_within fits]

private theorem subU32_run (minuend subtrahend : UInt32)
    (memory : RingMemory) :
    (subU32 minuend subtrahend).run RingOp.execute memory =
      (minuend - subtrahend, memory) := rfl

/-- The second copy begins at the first cell, and is left out if nothing is
left. -/
private theorem wrappedCopy_stores {size : Nat} {whole done : UInt32}
    (fits : (whole - done).toNat ≤ size) (buf : Buffer) (memory : RingMemory) :
    (if whole - done > 0 then do
        let length ← subU32 whole done
        memcpyToio 0 buf done.toNat length.toNat
      else .ret () : RingProgram Unit).run RingOp.execute memory =
      ((), { memory with
        data := store memory.data size 0 (whole - done).toNat
          (fun index => buf (done.toNat + index)) }) := by
  by_cases more : whole - done > 0
  · rw [if_pos more]
    exact memcpyToio_stores (by rw [Nat.zero_add]; exact fits) buf done.toNat
      memory
  · have none_left : (whole - done).toNat = 0 := by
      have bound := UInt32.le_iff_toNat_le.mp (UInt32.not_lt.mp more)
      exact Nat.le_zero.mp bound
    rw [if_neg more, none_left, store_zero]
    rfl

private theorem splitCopy_stores {size total : Nat} {rb : Ringbuf}
    {pos : UInt32}
    {count : Int32} (sized : rb.size.toNat = size) (small : size < 2 ^ 31)
    (inside : pos.toNat < size) (counted : count.toInt = total)
    (fits : total < size) (buf : Buffer) (memory : RingMemory) :
    (splitCopy rb pos count
        (fun cell offset length _ => memcpyToio cell buf offset length) ()).run
        RingOp.execute memory =
      (((), UInt32.ofNat ((pos.toNat + total) % size)),
        { memory with data := store memory.data size pos.toNat total buf }) := by
  have unsigned : count.toUInt32.toNat = total := by
    rw [toNat_toUInt32 count (by omega), counted, Int.toNat_natCast]
  have sum : (pos + count.toUInt32).toNat = pos.toNat + total := by
    rw [UInt32.toNat_add, unsigned]
    omega
  unfold splitCopy
  by_cases reaches : pos + count.toUInt32 ≥ rb.size
  · have reached := UInt32.le_iff_toNat_le.mp reaches
    rw [sum, sized] at reached
    have first : (rb.size - pos).toNat = size - pos.toNat := by
      rw [UInt32.toNat_sub_of_le _ _ (UInt32.le_iff_toNat_le.mpr (by omega)),
        sized]
    have second : (count.toUInt32 - (rb.size - pos)).toNat =
        total - (size - pos.toNat) := by
      rw [UInt32.toNat_sub_of_le _ _ (UInt32.le_iff_toNat_le.mpr (by omega)),
        unsigned, first]
    have position : count.toUInt32 - (rb.size - pos) =
        UInt32.ofNat ((pos.toNat + total) % size) := by
      apply UInt32.toNat_inj.mp
      rw [second, Nat.mod_eq_sub_mod (by omega), Nat.mod_eq_of_lt (by omega),
        UInt32.toNat_ofNat']
      omega
    have wrapped : (pos.toNat + (size - pos.toNat)) % size = 0 := by
      rw [show pos.toNat + (size - pos.toNat) = size by omega, Nat.mod_self]
    have both := @store_store UInt8 size pos.toNat (size - pos.toNat)
      (total - (size - pos.toNat)) inside (by omega) memory.data buf
    rw [wrapped, show size - pos.toNat + (total - (size - pos.toNat)) = total by
      omega] at both
    rw [if_pos reaches]
    rw [Program.run_bind, subU32_run]
    dsimp only
    rw [Program.run_bind, memcpyToio_stores (show _ ≤ size by omega)]
    dsimp only
    rw [Program.run_bind, subU32_run]
    dsimp only
    rw [Program.run_bind, wrappedCopy_stores (show _ ≤ size by omega)]
    dsimp only
    rw [Program.run_bind, subU32_run, second, first, position]
    simp only [Nat.zero_add, both]
    rfl
  · have short : pos.toNat + total < size := by
      have below := UInt32.lt_iff_toNat_lt.mp (UInt32.not_le.mp reaches)
      omega
    have position : pos + count.toUInt32 =
        UInt32.ofNat ((pos.toNat + total) % size) := by
      apply UInt32.toNat_inj.mp
      rw [sum, Nat.mod_eq_of_lt short, UInt32.toNat_ofNat']
      omega
    rw [if_neg reaches, Program.run_bind,
      memcpyToio_stores (show _ ≤ size by omega), unsigned, position]
    simp only [Nat.zero_add]
    rfl

/-- A call that runs alone publishes as much of its buffer as there is room
for. -/
theorem ringbufWrite_call {size : Nat} {rb : Ringbuf} {memory : RingMemory}
    (sized : rb.size.toNat = size) (small : size < 2 ^ 31)
    (writeBound : memory.writePos.toNat < size)
    (readBound : memory.readPos.toNat < size) (buf : Buffer) (count : Int32)
    (nonneg : 0 ≤ count.toInt) :
    ∃ accepted : Int32,
      accepted.toInt =
          ((min count.toInt.toNat (size - 1 - memory.held size) : Nat) : Int) ∧
        memory.call (ringbufWrite rb buf count) =
          (accepted, memory.written size buf accepted.toInt.toNat) := by
  obtain ⟨queue, carries, _⟩ :=
    RingMemory.Carries.of_positions writeBound readBound
  obtain ⟨value, same, _⟩ := carries.availableWrite sized small
  have room : queue.room = size - 1 - memory.held size := by
    rw [carries.held]
    rfl
  unfold RingMemory.call at value same ⊢
  generalize hAvail : (ringbufAvailableWrite rb).run RingOp.execute memory =
    avail at value same
  obtain ⟨avail, later⟩ := avail
  dsimp only at value same
  subst same
  rw [room] at value
  have accepted : (capped count avail).toInt =
      ((min count.toInt.toNat (size - 1 - later.held size) : Nat) : Int) := by
    rw [capped_toInt, value]
    omega
  refine ⟨capped count avail, accepted, ?_⟩
  have stores := splitCopy_stores sized small writeBound accepted (by omega)
    buf later
  unfold ringbufWrite loadWritePos storeWritePos
  simp only [Program.perform_bind, Program.run_step]
  rw [Program.run_bind]
  simp only [RingOp.execute, hAvail]
  rw [Program.run_bind, stores, accepted, Int.toNat_natCast]
  rfl

/-- What is written joins the queue. -/
theorem RingMemory.unread_written {size : Nat} {memory : RingMemory}
    (small : size < 2 ^ 31) (writeBound : memory.writePos.toNat < size)
    (readBound : memory.readPos.toNat < size) (buf : Buffer) {count : Nat}
    (fits : memory.held size + count < size) :
    (memory.written size buf count).unread size =
      memory.unread size ++ buf.first count := by
  obtain ⟨queue, carries, items⟩ :=
    RingMemory.Carries.of_positions writeBound readBound
  have sized : (UInt32.ofNat size).toNat = size := by
    rw [UInt32.toNat_ofNat']
    omega
  have counted : (UInt32.ofNat count).toInt32.toInt = count := by
    rw [toInt_toInt32 _ (by rw [UInt32.toNat_ofNat']; omega),
      UInt32.toNat_ofNat', Nat.mod_eq_of_lt (by omega)]
  have room : count ≤ queue.room := by
    have account := queue.room_add_length
    have held := carries.held
    omega
  obtain ⟨done, _⟩ := carries.write
    (show (Ringbuf.mk (UInt32.ofNat size)).size.toNat = size from sized) small
    buf (UInt32.ofNat count).toInt32 (by omega)
  obtain ⟨accepted, value, called⟩ := @ringbufWrite_call size
    ⟨UInt32.ofNat size⟩ memory sized small writeBound readBound buf
    (UInt32.ofNat count).toInt32 (by omega)
  have after := done.carries.unread
  rw [counted, Int.toNat_natCast] at value after
  have all_taken : accepted.toInt.toNat = count := by omega
  rw [called, all_taken, BoundedFifo.push_items, items,
    BoundedFifo.accepted_of_fits _ (by rw [Buffer.first_length]; exact room)]
    at after
  exact after

end Quadcopter

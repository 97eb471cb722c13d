import Quadcopter.Common.RingbufCalls
import Quadcopter.Library.Interleaving

/-
ringbuf_write and ringbuf_read when an index is not theirs alone.

Nothing locks the indices, so a second writer or a ringbuf_init may store one
while a call is between its load and its store.  A call is cut at its last
operation: what comes before only copies bytes, and the store then publishes a
position that follows from the index the call loaded at first.
-/

namespace Quadcopter

open AtomicProgram CircularWindow MachineInt

def RingOp.Quiet : RingOp → Prop
  | .storeWritePos _ => False
  | .storeReadPos _ => False
  | _ => True

theorem RingOp.Quiet.keeps {op : RingOp} (quiet : op.Quiet)
    (memory : RingMemory) :
    (op.execute memory).2.writePos = memory.writePos ∧
      (op.execute memory).2.readPos = memory.readPos := by
  cases op with
  | storeWritePos value => cases quiet
  | storeReadPos value => cases quiet
  | _ => exact ⟨rfl, rfl⟩

/-- ringbuf_write after its first load, up to its last store. -/
def writeFrom (rb : Ringbuf) (buf : Buffer) (count : Int32)
    (writeTmp : UInt32) : RingProgram (UInt32 × Int32) := do
  let avail ← ringbufAvailableWrite rb
  let count := capped count avail
  let (_, writeTmp) ← splitCopy rb writeTmp count
    (fun cell offset length _ => memcpyToio cell buf offset length) ()
  return (writeTmp, count)

def publish (copied : UInt32 × Int32) : RingProgram Int32 := do
  storeWritePos copied.1
  return copied.2

theorem ringbufWrite_eq (rb : Ringbuf) (buf : Buffer) (count : Int32) :
    ringbufWrite rb buf count =
      .step .loadWritePos
        (fun writeTmp => writeFrom rb buf count writeTmp >>= publish) := by
  unfold ringbufWrite writeFrom
  simp only [loadWritePos, Program.perform_bind, Program.bind_assoc]
  rfl

def readFrom (rb : Ringbuf) (buf : Buffer) (count : Int32) (readTmp : UInt32) :
    RingProgram (UInt32 × Int32 × Buffer) := do
  let avail ← ringbufAvailableRead rb
  let count := capped count avail
  let (buf, readTmp) ← splitCopy rb readTmp count
    (fun cell offset length buf => memcpyFromio buf offset cell length) buf
  return (readTmp, count, buf)

def release (copied : UInt32 × Int32 × Buffer) :
    RingProgram (Int32 × Buffer) := do
  storeReadPos copied.1
  return copied.2

theorem ringbufRead_eq (rb : Ringbuf) (buf : Buffer) (count : Int32) :
    ringbufRead rb buf count =
      .step .loadReadPos
        (fun readTmp => readFrom rb buf count readTmp >>= release) := by
  unfold ringbufRead readFrom
  simp only [loadReadPos, Program.perform_bind, Program.bind_assoc]
  rfl

section Disturbed

variable {size : Nat} {rely : Traffic → Traffic → Prop}
  (reflexive : ∀ traffic, rely traffic traffic)
  -- what is known of the ring after each number of bytes is copied
  {kept : Nat → Traffic → Prop}
  (stable : ∀ done traffic later,
    kept done traffic → rely traffic later → kept done later)
  (inside : ∀ traffic, kept 0 traffic →
    traffic.memory.writePos.toNat < size ∧ traffic.memory.readPos.toNat < size)

include stable in
private theorem kept_lasts {done : Nat} :
    Lasts rely (fun _ op => RingOp.Quiet op) (kept done) where
  stable := stable done
  subtracts := fun _ _ _ _ _ => trivial

structure Seen (kept : Nat → Traffic → Prop) (indices : RingMemory) :
    Prop where
  writePos : ∃ traffic, kept 0 traffic ∧
    traffic.memory.writePos = indices.writePos
  readPos : ∃ traffic, kept 0 traffic ∧
    traffic.memory.readPos = indices.readPos

include stable inside in
private theorem availableWrite_disturbed {rb : Ringbuf}
    (sized : rb.size.toNat = size)
    (small : size < 2 ^ 31) {start : Traffic} (initially : kept 0 start) :
    Holds (Traffic.execute size) rely (fun _ op => RingOp.Quiet op)
      (fun (free : Int32) later => ∃ indices : RingMemory, Seen kept indices ∧
        free.toInt = ((size - 1 - indices.held size : Nat) : Int) ∧
        kept 0 later)
      (ringbufAvailableWrite rb) start := by
  unfold ringbufAvailableWrite loadReadPos loadWritePos
  simp only [Program.perform_bind, Program.pure_eq]
  apply Holds.step
  intro first moved
  have now := stable 0 _ _ initially moved
  rw [execute_loadReadPos]
  refine ⟨trivial, ?_⟩
  apply Holds.step
  intro second moved'
  have now' := stable 0 _ _ now moved'
  rw [execute_loadWritePos]
  refine ⟨trivial, ?_⟩
  have readBound := (inside first now).2
  have writeBound := (inside second now').1
  have short : (second.memory.writePos.toNat + size -
      first.memory.readPos.toNat) % size < size :=
    Nat.mod_lt _ (by omega)
  refine Holds.weaken ?_ ((kept_lasts stable).freeBetween now' sized small
    short readBound (apart_of_lt writeBound readBound))
  intro free later ⟨value, still⟩
  exact ⟨⟨second.memory.writePos, first.memory.readPos, first.memory.data⟩,
    ⟨⟨second, now', rfl⟩, ⟨first, now, rfl⟩⟩, value, still⟩

include stable inside in
private theorem availableRead_disturbed {rb : Ringbuf}
    (sized : rb.size.toNat = size)
    (small : size < 2 ^ 31) {start : Traffic} (initially : kept 0 start) :
    Holds (Traffic.execute size) rely (fun _ op => RingOp.Quiet op)
      (fun (avail : Int32) later => ∃ indices : RingMemory, Seen kept indices ∧
        avail.toInt = (rb.heldBetween indices.writePos.toNat
          indices.readPos.toNat : Int) ∧
        rb.heldBetween indices.writePos.toNat indices.readPos.toNat < size ∧
        kept 0 later)
      (ringbufAvailableRead rb) start := by
  unfold ringbufAvailableRead loadReadPos loadWritePos
  simp only [Program.perform_bind, Program.pure_eq]
  apply Holds.step
  intro first moved
  have now := stable 0 _ _ initially moved
  rw [execute_loadWritePos]
  refine ⟨trivial, ?_⟩
  apply Holds.step
  intro second moved'
  have now' := stable 0 _ _ now moved'
  rw [execute_loadReadPos]
  refine ⟨trivial, ?_⟩
  have writeBound := (inside first now).1
  have readBound := (inside second now').2
  refine Holds.weaken ?_ ((kept_lasts stable).heldBetween now' (by omega)
    (by omega : first.memory.writePos.toNat < 2 ^ 31)
    (by omega : second.memory.readPos.toNat < rb.size.toNat))
  intro avail later ⟨value, still⟩
  change avail.toInt = (rb.heldBetween first.memory.writePos.toNat
    second.memory.readPos.toNat : Int) at value
  have bound : rb.heldBetween first.memory.writePos.toNat
      second.memory.readPos.toNat < size := by
    unfold Ringbuf.heldBetween
    split
    · omega
    · split <;> omega
  exact ⟨⟨first.memory.writePos, second.memory.readPos, first.memory.data⟩,
    ⟨⟨first, now, rfl⟩, ⟨second, now', rfl⟩⟩, value, bound, still⟩

/-- What ringbuf_write is about to publish, having loaded `writeTmp`. -/
structure WriteReady (size : Nat) (kept : Nat → Traffic → Prop)
    (count : Nat) (writeTmp : UInt32) (copied : UInt32 × Int32)
    (later : Traffic) : Prop where
  value : ∃ indices : RingMemory, Seen kept indices ∧
    copied.2.toInt = ((min count (size - 1 - indices.held size) : Nat) : Int)
  position : copied.1.toNat =
    (writeTmp.toNat + copied.2.toInt.toNat) % size
  contents : kept copied.2.toInt.toNat later

include reflexive stable inside in
theorem writeFrom_disturbed {rb : Ringbuf} (sized : rb.size.toNat = size)
    (small : size < 2 ^ 31) {buf : Buffer} {count : Int32}
    (nonneg : 0 ≤ count.toInt) {writeTmp : UInt32}
    (within : writeTmp.toNat < size)
    (copies : ∀ done traffic, done + 1 < size → kept done traffic →
      kept (done + 1) (Traffic.execute size
        (.copyTo ((writeTmp.toNat + done) % size) done (buf done))
        traffic).2)
    {start : Traffic} (initially : kept 0 start) :
    Holds (Traffic.execute size) rely (fun _ op => RingOp.Quiet op)
      (WriteReady size kept count.toInt.toNat writeTmp)
      (writeFrom rb buf count writeTmp) start := by
  unfold writeFrom
  simp only [Program.pure_eq]
  apply Holds.bind (availableWrite_disturbed stable inside sized small
    initially) reflexive
  intro avail current ⟨indices, seen, value, now⟩
  generalize hTotal : min count.toInt.toNat (size - 1 - indices.held size) =
    total
  have counted : (capped count avail).toInt = total := by
    rw [capped_toInt, value]
    omega
  have store : ∀ cell done traffic, cell < size →
      cell % size = (writeTmp.toNat + done) % size → done < total →
      kept done traffic →
      RingOp.Quiet (.copyTo cell done (buf done)) ∧
        kept (done + 1)
          (Traffic.execute size (.copyTo cell done (buf done)) traffic).2 := by
    intro cell done traffic inside_cells next left now
    rw [← Nat.mod_eq_of_lt inside_cells, next]
    exact ⟨trivial, copies done traffic (by omega) now⟩
  have copy := splitCopy_holds (fun done (_ : Unit) => kept_lasts stable)
    (fun cell offset length _ traffic =>
      memcpyToio_lasts (fun _ => kept_lasts stable) store cell offset length
        traffic)
    reflexive rb writeTmp (capped count avail) small
    (Nat.mod_eq_of_lt within).symm counted (by omega) (Or.inl sized) ()
    current now
  apply Holds.bind copy reflexive
  intro copiedTo later ⟨copied, position⟩
  refine (kept_lasts stable).ret copied ?_
  intro final still
  have same : (capped count avail).toInt.toNat = total := by omega
  refine ⟨⟨indices, seen, ?_⟩, ?_, ?_⟩
  · rw [hTotal]
    exact counted
  · change copiedTo.2.toNat =
      (writeTmp.toNat + (capped count avail).toInt.toNat) % size
    rw [same, position]
  · change kept (capped count avail).toInt.toNat final
    rw [same]
    exact still

/-- What ringbuf_read is about to release, having loaded `readTmp`. -/
structure ReadReady (size : Nat) (kept : Nat → Traffic → Prop) (rb : Ringbuf)
    (count : Nat) (readTmp : UInt32) (copied : UInt32 × Int32 × Buffer)
    (later : Traffic) : Prop where
  value : ∃ indices : RingMemory, Seen kept indices ∧
    copied.2.1.toInt = ((min count (rb.heldBetween indices.writePos.toNat
      indices.readPos.toNat) : Nat) : Int)
  position : copied.1.toNat =
    (readTmp.toNat + copied.2.1.toInt.toNat) % size
  contents : kept 0 later

include reflexive stable inside in
theorem readFrom_disturbed {rb : Ringbuf} (sized : rb.size.toNat = size)
    (small : size < 2 ^ 31) {buf : Buffer} {count : Int32}
    (nonneg : 0 ≤ count.toInt) {readTmp : UInt32}
    (within : readTmp.toNat < size) {start : Traffic}
    (initially : kept 0 start) :
    Holds (Traffic.execute size) rely (fun _ op => RingOp.Quiet op)
      (ReadReady size kept rb count.toInt.toNat readTmp)
      (readFrom rb buf count readTmp) start := by
  unfold readFrom
  simp only [Program.pure_eq]
  apply Holds.bind (availableRead_disturbed stable inside sized small
    initially) reflexive
  intro avail current ⟨indices, seen, value, bound, now⟩
  generalize hTotal : min count.toInt.toNat
    (rb.heldBetween indices.writePos.toNat indices.readPos.toNat) = total
  have counted : (capped count avail).toInt = total := by
    rw [capped_toInt, value]
    omega
  have short : total < size := by omega
  have copy := splitCopy_holds
    (fun _ (_ : Buffer) => @kept_lasts rely kept stable 0)
    (memcpyFromio_lasts (fun _ _ => @kept_lasts rely kept stable 0)
      (fun _ _ _ _ _ _ _ now => ⟨trivial, now⟩))
    reflexive rb readTmp (capped count avail) small
    (Nat.mod_eq_of_lt within).symm counted short (Or.inl sized) buf current now
  apply Holds.bind copy reflexive
  intro copiedTo later ⟨copied, position⟩
  refine (kept_lasts stable).ret copied ?_
  intro final still
  have same : (capped count avail).toInt.toNat = total := by omega
  refine ⟨⟨indices, seen, ?_⟩, ?_, still⟩
  · rw [hTotal]
    exact counted
  · change copiedTo.2.toNat =
      (readTmp.toNat + (capped count avail).toInt.toNat) % size
    rw [same]
    exact position

end Disturbed

end Quadcopter

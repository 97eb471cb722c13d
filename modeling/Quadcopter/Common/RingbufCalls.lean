import Quadcopter.Common.RingbufTraffic

/-
What ringbuf_write and ringbuf_read share, against the other end.

Each call is followed from operation to operation.  Between two of them the other
end may have acted, so what a call has loaded may be out of date; what lasts is a
condition that the other end keeps.
-/

namespace Quadcopter

open AtomicProgram CircularWindow MachineInt

/-- The operation stays in a ring of `size` cells and in the first `count` bytes
of the caller's buffer, and its subtraction does not wrap. -/
def RingOp.Fits (size count : Nat) : RingOp → Prop
  | .loadWritePos => True
  | .loadReadPos => True
  | .storeWritePos value => value.toNat < size
  | .storeReadPos value => value.toNat < size
  | .copyTo cell offset _ => cell < size ∧ offset < count
  | .copyFrom offset cell => cell < size ∧ offset < count
  | .sub minuend subtrahend => subtrahend ≤ minuend

section Operations

variable (size : Nat) (traffic : Traffic)

@[simp] theorem execute_loadWritePos :
    Traffic.execute size .loadWritePos traffic =
      (traffic.memory.writePos, traffic) := by
  simp [Traffic.execute, RingOp.execute, RingOp.publishes, RingOp.releases]

@[simp] theorem execute_loadReadPos :
    Traffic.execute size .loadReadPos traffic =
      (traffic.memory.readPos, traffic) := by
  simp [Traffic.execute, RingOp.execute, RingOp.publishes, RingOp.releases]

@[simp] theorem execute_copyFrom (offset cell : Nat) :
    Traffic.execute size (.copyFrom offset cell) traffic =
      (traffic.memory.data cell, traffic) := by
  simp [Traffic.execute, RingOp.execute, RingOp.publishes, RingOp.releases]

@[simp] theorem execute_sub (minuend subtrahend : UInt32) :
    Traffic.execute size (.sub minuend subtrahend) traffic =
      (minuend - subtrahend, traffic) := by
  simp [Traffic.execute, RingOp.execute, RingOp.publishes, RingOp.releases]

end Operations

def Ringbuf.heldBetween (rb : Ringbuf) (writePos readPos : Nat) : Nat :=
  if readPos < writePos then writePos - readPos
  else if writePos < readPos then rb.size.toNat - (readPos - writePos)
  else 0

structure Lasts (rely : Traffic → Traffic → Prop)
    (during : Traffic → RingOp → Prop) (now : Traffic → Prop) : Prop where
  stable : ∀ traffic later, now traffic → rely traffic later → now later
  subtracts : ∀ traffic minuend subtrahend, now traffic →
    subtrahend ≤ minuend → during traffic (.sub minuend subtrahend)

section Lasting

variable {size : Nat} {rely : Traffic → Traffic → Prop}
  {during : Traffic → RingOp → Prop} {now : Traffic → Prop} {α : Type}
  {post : α → Traffic → Prop} {traffic : Traffic}

theorem Lasts.ret (lasts : Lasts rely during now) (initially : now traffic)
    {value : α} (done : ∀ later, now later → post value later) :
    Holds (Traffic.execute size) rely during post
      (.ret value : RingProgram α) traffic :=
  Holds.ret (fun later moved =>
    done later (lasts.stable traffic later initially moved))

theorem Lasts.sub (lasts : Lasts rely during now) (initially : now traffic)
    {minuend subtrahend : UInt32} (order : subtrahend ≤ minuend)
    {next : UInt32 → RingProgram α}
    (rest : ∀ later, now later →
      Holds (Traffic.execute size) rely during post
        (next (minuend - subtrahend)) later) :
    Holds (Traffic.execute size) rely during post
      (subU32 minuend subtrahend >>= next) traffic := by
  apply Holds.step
  intro later moved
  have nowLater := lasts.stable traffic later initially moved
  rw [execute_sub]
  exact ⟨lasts.subtracts later _ _ nowLater order, rest later nowLater⟩

private theorem Lasts.subtract (lasts : Lasts rely during now)
    (initially : now traffic) {minuend subtrahend : UInt32}
    (order : subtrahend.toNat ≤ minuend.toNat) {next : UInt32 → RingProgram α}
    (rest : ∀ difference : UInt32,
      difference.toNat = minuend.toNat - subtrahend.toNat →
      ∀ later, now later →
        Holds (Traffic.execute size) rely during post (next difference) later) :
    Holds (Traffic.execute size) rely during post
      (subU32 minuend subtrahend >>= next) traffic := by
  have fits : subtrahend ≤ minuend := UInt32.le_iff_toNat_le.mpr order
  exact lasts.sub initially fits (rest _ (UInt32.toNat_sub_of_le _ _ fits))

theorem Lasts.freeBetween (lasts : Lasts rely during now)
    (initially : now traffic) {rb : Ringbuf} {readTmp writeTmp : UInt32}
    {held : Nat} (sized : rb.size.toNat = size) (small : size < 2 ^ 31)
    (short : held < size) (readBound : readTmp.toNat < size)
    (apart : writeTmp.toNat = readTmp.toNat + held ∨
      writeTmp.toNat + size = readTmp.toNat + held) :
    Holds (Traffic.execute size) rely during
      (fun (free : Int32) later =>
        free.toInt = ((size - 1 - held : Nat) : Int) ∧ now later)
      (if readTmp > writeTmp then do
          let gap ← subU32 readTmp writeTmp
          let free ← subU32 gap 1
          .ret free.toInt32
        else if readTmp < writeTmp then do
          let held ← subU32 writeTmp readTmp
          let gap ← subU32 rb.size held
          let free ← subU32 gap 1
          .ret free.toInt32
        else do
          let free ← subU32 rb.size 1
          .ret free.toInt32) traffic := by
  have one : (1 : UInt32).toNat = 1 := rfl
  have finish : ∀ free : UInt32, free.toNat = size - 1 - held →
      ∀ current, now current →
      Holds (Traffic.execute size) rely during
        (fun (free : Int32) later =>
          free.toInt = ((size - 1 - held : Nat) : Int) ∧ now later)
        (.ret free.toInt32) current := by
    intro free value current still
    refine lasts.ret still ?_
    intro later nowLater
    refine ⟨?_, nowLater⟩
    rw [toInt_toInt32 free (by omega), value]
  by_cases readAhead : readTmp > writeTmp
  · have less := UInt32.lt_iff_toNat_lt.mp readAhead
    rw [if_pos readAhead]
    apply lasts.subtract initially (by omega)
    intro gap gapNat current still
    apply lasts.subtract still (by omega)
    intro free freeNat current still
    exact finish free (by omega) current still
  · have notLess : ¬ writeTmp.toNat < readTmp.toNat :=
      fun less => readAhead (UInt32.lt_iff_toNat_lt.mpr less)
    rw [if_neg readAhead]
    by_cases writeAhead : readTmp < writeTmp
    · have less := UInt32.lt_iff_toNat_lt.mp writeAhead
      rw [if_pos writeAhead]
      apply lasts.subtract initially (by omega)
      intro between betweenNat current still
      apply lasts.subtract still (by omega)
      intro gap gapNat current still
      apply lasts.subtract still (by omega)
      intro free freeNat current still
      exact finish free (by omega) current still
    · have notLess' : ¬ readTmp.toNat < writeTmp.toNat :=
        fun less => writeAhead (UInt32.lt_iff_toNat_lt.mpr less)
      rw [if_neg writeAhead]
      apply lasts.subtract initially (by omega)
      intro free freeNat current still
      exact finish free (by omega) current still

theorem Lasts.heldBetween (lasts : Lasts rely during now)
    (initially : now traffic) {rb : Ringbuf} {writeTmp readTmp : UInt32}
    (bound : rb.size.toNat < 2 ^ 31) (writeBound : writeTmp.toNat < 2 ^ 31)
    (readBound : readTmp.toNat < rb.size.toNat) :
    Holds (Traffic.execute size) rely during
      (fun (avail : Int32) later =>
        avail.toInt =
            (rb.heldBetween writeTmp.toNat readTmp.toNat : Int) ∧ now later)
      (if writeTmp > readTmp then do
          let held ← subU32 writeTmp readTmp
          .ret held.toInt32
        else if writeTmp < readTmp then do
          let gap ← subU32 readTmp writeTmp
          let held ← subU32 rb.size gap
          .ret held.toInt32
        else .ret 0) traffic := by
  by_cases writeAhead : writeTmp > readTmp
  · have less := UInt32.lt_iff_toNat_lt.mp writeAhead
    rw [if_pos writeAhead]
    apply lasts.subtract initially (by omega)
    intro avail availNat current still
    refine lasts.ret still ?_
    intro later nowLater
    refine ⟨?_, nowLater⟩
    rw [toInt_toInt32 avail (by omega), availNat, Ringbuf.heldBetween,
      if_pos less]
  · have notLess : ¬ readTmp.toNat < writeTmp.toNat :=
      fun less => writeAhead (UInt32.lt_iff_toNat_lt.mpr less)
    rw [if_neg writeAhead]
    by_cases readAhead : writeTmp < readTmp
    · have less := UInt32.lt_iff_toNat_lt.mp readAhead
      rw [if_pos readAhead]
      apply lasts.subtract initially (by omega)
      intro gap gapNat current still
      apply lasts.subtract still (by omega)
      intro avail availNat current still
      refine lasts.ret still ?_
      intro later nowLater
      refine ⟨?_, nowLater⟩
      rw [toInt_toInt32 avail (by omega), availNat, gapNat,
        Ringbuf.heldBetween, if_neg notLess, if_pos less]
    · have notLess' : ¬ writeTmp.toNat < readTmp.toNat :=
        fun less => readAhead (UInt32.lt_iff_toNat_lt.mpr less)
      rw [if_neg readAhead]
      refine lasts.ret initially ?_
      intro later nowLater
      refine ⟨?_, nowLater⟩
      rw [Ringbuf.heldBetween, if_neg notLess, if_neg notLess']
      rfl

end Lasting

section Memcpy

variable {size : Nat} {rely : Traffic → Traffic → Prop}
  {during : Traffic → RingOp → Prop} {start total : Nat}

/-- Induction over the bytes still to copy; `copied done` is what lasts after
`done` of them. -/
theorem memcpyToio_lasts {copied : Nat → Traffic → Prop}
    (lasts : ∀ done, Lasts rely during (copied done)) {buf : Buffer}
    (copies : ∀ cell done traffic, cell < size →
      cell % size = (start + done) % size → done < total →
      copied done traffic →
      during traffic (.copyTo cell done (buf done)) ∧
        copied (done + 1)
          (Traffic.execute size (.copyTo cell done (buf done)) traffic).2)
    (cell done length : Nat) (traffic : Traffic)
    (inside : cell + length ≤ size)
    (next : cell % size = (start + done) % size)
    (left : done + length ≤ total) (now : copied done traffic) :
    Holds (Traffic.execute size) rely during
      (fun _ later => copied (done + length) later)
      (memcpyToio cell buf done length) traffic := by
  induction length generalizing cell done traffic with
  | zero => exact (lasts done).ret now (fun later still => still)
  | succ length ih =>
      apply Holds.step
      intro later moved
      obtain ⟨does, one⟩ := copies cell done later (by omega) next (by omega)
        ((lasts done).stable _ _ now moved)
      refine ⟨does, ?_⟩
      have rest := ih (cell + 1) (done + 1) _ (by omega)
        (by rw [← Nat.add_assoc, Nat.add_mod, next, ← Nat.add_mod])
        (by omega) one
      rw [show done + (length + 1) = done + 1 + length by omega]
      exact rest

theorem memcpyFromio_lasts {copied : Nat → Buffer → Traffic → Prop}
    (lasts : ∀ done buf, Lasts rely during (copied done buf))
    (copies : ∀ cell done buf traffic, cell < size →
      cell % size = (start + done) % size → done < total →
      copied done buf traffic →
      during traffic (.copyFrom done cell) ∧
        copied (done + 1)
          (Function.update buf done (traffic.memory.data cell)) traffic)
    (cell done length : Nat) (buf : Buffer) (traffic : Traffic)
    (inside : cell + length ≤ size)
    (next : cell % size = (start + done) % size)
    (left : done + length ≤ total) (now : copied done buf traffic) :
    Holds (Traffic.execute size) rely during
      (fun after later => copied (done + length) after later)
      (memcpyFromio buf done cell length) traffic := by
  induction length generalizing cell done buf traffic with
  | zero => exact (lasts done buf).ret now (fun later still => still)
  | succ length ih =>
      apply Holds.step
      intro later moved
      obtain ⟨does, one⟩ := copies cell done buf later (by omega) next
        (by omega) ((lasts done buf).stable _ _ now moved)
      rw [execute_copyFrom]
      refine ⟨does, ?_⟩
      have rest := ih (cell + 1) (done + 1) _ _ (by omega)
        (by rw [← Nat.add_assoc, Nat.add_mod, next, ← Nat.add_mod])
        (by omega) one
      rw [show done + (length + 1) = done + 1 + length by omega]
      exact rest

end Memcpy

theorem capped_toInt (count avail : Int32) :
    (capped count avail).toInt = min count.toInt avail.toInt := by
  unfold capped
  by_cases above : count > avail
  · have order := Int32.lt_iff_toInt_lt.mp above
    rw [if_pos above]
    omega
  · have order : ¬ avail.toInt < count.toInt :=
      fun less => above (Int32.lt_iff_toInt_lt.mpr less)
    rw [if_neg above]
    omega

section SplitCopy

variable {α : Type} {size : Nat} {rely : Traffic → Traffic → Prop}
  {during : Traffic → RingOp → Prop} {copied : Nat → α → Traffic → Prop}
  (lasts : ∀ done buf, Lasts rely during (copied done buf))
  {start total : Nat} {memcpy : (cell offset length : Nat) → α → RingProgram α}
  -- `memcpy` continues the copy from any offset, within one run of cells
  (copies : ∀ cell offset length buf traffic,
    cell + length ≤ size → cell % size = (start + offset) % size →
    offset + length ≤ total → copied offset buf traffic →
    Holds (Traffic.execute size) rely during (copied (offset + length))
      (memcpy cell offset length buf) traffic)

include lasts copies in
private theorem secondCopy_holds {pos count countTmp : UInt32}
    (atStart : pos.toNat = start % size) (inside : pos.toNat < size)
    (counted : count.toNat = total) (short : total < size)
    (tmpNat : countTmp.toNat = size - pos.toNat) (tmpLe : countTmp ≤ count)
    (buf : α) (traffic : Traffic)
    (first : copied countTmp.toNat buf traffic) :
    Holds (Traffic.execute size) rely during (copied total)
      (if count - countTmp > 0 then do
          let length ← subU32 count countTmp
          memcpy 0 countTmp.toNat length.toNat buf
        else .ret buf) traffic := by
  have order := UInt32.le_iff_toNat_le.mp tmpLe
  have left := UInt32.toNat_sub_of_le _ _ tmpLe
  by_cases more : count - countTmp > 0
  · rw [if_pos more]
    apply (lasts _ buf).sub first tmpLe
    intro current still
    have second := copies 0 countTmp.toNat (count - countTmp).toNat buf current
      (by omega)
      (by
        rw [Nat.zero_mod, ← Nat.mod_add_mod, ← atStart, tmpNat,
          show pos.toNat + (size - pos.toNat) = size by omega, Nat.mod_self])
      (by omega) still
    rw [show countTmp.toNat + (count - countTmp).toNat = total by omega]
      at second
    exact second
  · have none_left : ¬ 0 < (count - countTmp).toNat :=
      fun positive => more (UInt32.lt_iff_toNat_lt.mpr positive)
    have all : countTmp.toNat = total := by omega
    rw [if_neg more]
    rw [all] at first
    exact (lasts total buf).ret first (fun later still => still)

include lasts copies in
theorem splitCopy_holds (reflexive : ∀ traffic, rely traffic traffic)
    (rb : Ringbuf) (pos : UInt32) (count : Int32) (small : size < 2 ^ 31)
    (atStart : pos.toNat = start % size) (counted : count.toInt = total)
    (short : total < size)
    (sized : rb.size.toNat = size ∨
      (pos.toNat + total < rb.size.toNat ∧ rb.size.toNat ≤ size))
    (buf : α) (traffic : Traffic) (initially : copied 0 buf traffic) :
    Holds (Traffic.execute size) rely during
      (fun result later => copied total result.1 later ∧
        result.2.toNat = (start + total) % size)
      (splitCopy rb pos count memcpy buf) traffic := by
  have inside : pos.toNat < size := atStart ▸ Nat.mod_lt _ (by omega)
  have countNat : count.toUInt32.toNat = total := by
    rw [toNat_toUInt32 count (by omega), counted]
    rfl
  have sum : (pos + count.toUInt32).toNat = pos.toNat + total := by
    rw [UInt32.toNat_add, countNat]
    exact Nat.mod_eq_of_lt (by omega)
  have turn := add_mod_cases start total short
  rw [← atStart] at turn
  have aligned : pos.toNat % size = (start + 0) % size := by
    rw [Nat.add_zero, atStart, Nat.mod_mod]
  unfold splitCopy
  by_cases wraps : pos + count.toUInt32 ≥ rb.size
  · have reaches := UInt32.le_iff_toNat_le.mp wraps
    have whole : rb.size.toNat = size := by omega
    have posLe : pos ≤ rb.size := UInt32.le_iff_toNat_le.mpr (by omega)
    have tmpNat : (rb.size - pos).toNat = size - pos.toNat := by
      rw [UInt32.toNat_sub_of_le _ _ posLe, whole]
    have tmpLe : rb.size - pos ≤ count.toUInt32 :=
      UInt32.le_iff_toNat_le.mpr (by omega)
    have leftNat := UInt32.toNat_sub_of_le _ _ tmpLe
    rw [if_pos wraps]
    apply (lasts 0 buf).sub initially posLe
    intro current still
    have first := copies pos.toNat 0 (rb.size - pos).toNat buf current
      (by omega) aligned (by omega) still
    rw [Nat.zero_add] at first
    apply Holds.bind first reflexive
    intro buf current still
    apply (lasts _ buf).sub still tmpLe
    intro current still
    have second := secondCopy_holds lasts copies atStart inside countNat short
      tmpNat tmpLe buf current still
    apply Holds.bind second reflexive
    intro buf current still
    apply (lasts _ buf).sub still tmpLe
    intro current still
    refine (lasts _ buf).ret still ?_
    intro later still
    refine ⟨still, ?_⟩
    change (count.toUInt32 - (rb.size - pos)).toNat = _
    omega
  · have before : pos.toNat + total < rb.size.toNat := by
      rw [← sum]
      exact Nat.lt_of_not_le (fun le => wraps (UInt32.le_iff_toNat_le.mpr le))
    have only := copies pos.toNat 0 count.toUInt32.toNat buf traffic (by omega)
      aligned (by omega) initially
    rw [Nat.zero_add, countNat, ← countNat] at only
    rw [if_neg wraps]
    apply Holds.bind only reflexive
    intro buf current still
    rw [countNat] at still
    refine (lasts _ buf).ret still ?_
    intro later still
    refine ⟨still, ?_⟩
    change (pos + count.toUInt32).toNat = _
    omega

end SplitCopy

end Quadcopter

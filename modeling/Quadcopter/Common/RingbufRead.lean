import Quadcopter.Common.RingbufCalls

/-
ringbuf_read against the writing end.

The writer may have published bytes since the call looked, so the bytes the call
goes by are at most those there are.
-/

namespace Quadcopter

open AtomicProgram CircularWindow MachineInt

structure ReaderDoes (size count : Nat) (released : Nat)
    (traffic : Traffic) (op : RingOp) : Prop where
  waiting : traffic.released = released
  fits : op.Fits size count
  acts : Traffic.ReaderActs size traffic (Traffic.execute size op traffic).2

theorem published_found {log later : List UInt8} (grows : log <+: later)
    {index : Nat} {byte : UInt8} (found : log[index]? = some byte) :
    later[index]? = some byte := by
  obtain ⟨more, rfl⟩ := grows
  have bound := (List.getElem?_eq_some_iff.mp found).1
  rw [List.getElem?_append_left bound]
  exact found

section Reading

variable {size : Nat} {rely : Traffic → Traffic → Prop}
  (reflexive : ∀ traffic, rely traffic traffic)
  (writerOnly : ∀ traffic later,
    rely traffic later → Traffic.WriterActs size traffic later)

/-- `done` of the `available` bytes are in the caller's buffer. -/
structure Fetching (size : Nat) (original : Buffer) (start : Traffic)
    (available done : Nat) (buf : Buffer) (traffic : Traffic) : Prop where
  coherent : traffic.Coherent size
  waiting : traffic.released = start.released
  grows : start.published <+: traffic.published
  available_le : start.released + available ≤ traffic.published.length
  fetched : ∀ offset, offset < done →
    traffic.published[start.released + offset]? = some (buf offset)
  untouched : ∀ offset, done ≤ offset → buf offset = original offset

private theorem Fetching.begin (original : Buffer) {start : Traffic}
    (coherent : start.Coherent size) :
    Fetching size original start 0 0 original start :=
  ⟨coherent, rfl, List.prefix_rfl, coherent.released_le,
    fun offset none => absurd none (by omega), fun _ _ => rfl⟩

private theorem Fetching.offer {original buf : Buffer} {start : Traffic}
    {available more done : Nat} {traffic : Traffic}
    (now : Fetching size original start available done buf traffic)
    (bound : start.released + more ≤ traffic.published.length) :
    Fetching size original start more done buf traffic :=
  ⟨now.coherent, now.waiting, now.grows, bound, now.fetched, now.untouched⟩

private theorem Fetching.readPos_eq {original buf : Buffer} {start : Traffic}
    {available done : Nat} {traffic : Traffic}
    (now : Fetching size original start available done buf traffic)
    (coherent : start.Coherent size) :
    traffic.memory.readPos = start.memory.readPos := by
  apply UInt32.toNat_inj.mp
  rw [now.coherent.readPos, coherent.readPos, now.waiting]

include writerOnly in
theorem Fetching.stable {original buf : Buffer} {start : Traffic}
    {available done : Nat} {traffic later : Traffic}
    (now : Fetching size original start available done buf traffic)
    (moved : rely traffic later) :
    Fetching size original start available done buf later := by
  obtain ⟨coherent, same, grows⟩ := writerOnly _ _ moved now.coherent
  refine ⟨coherent, same.trans now.waiting, now.grows.trans grows,
    Nat.le_trans now.available_le grows.length_le, ?_, now.untouched⟩
  intro offset inside
  exact published_found grows (now.fetched offset inside)

private theorem Fetching.quiet {original buf : Buffer} {start : Traffic}
    {available done count : Nat} {traffic : Traffic} {op : RingOp}
    (now : Fetching size original start available done buf traffic)
    (fits : op.Fits size count)
    (same : (Traffic.execute size op traffic).2 = traffic) :
    ReaderDoes size count start.released traffic op := by
  refine ⟨now.waiting, fits, ?_⟩
  rw [same]
  exact Traffic.ReaderActs.refl traffic

private theorem Fetching.subtracts {original buf : Buffer} {start : Traffic}
    {available done count : Nat} {traffic : Traffic}
    {minuend subtrahend : UInt32}
    (now : Fetching size original start available done buf traffic)
    (order : subtrahend ≤ minuend) :
    ReaderDoes size count start.released traffic (.sub minuend subtrahend) :=
  now.quiet order (by rw [execute_sub])

include writerOnly in
private theorem Fetching.lasts (original : Buffer) (start : Traffic)
    (available done count : Nat) (buf : Buffer) :
    Lasts rely (ReaderDoes size count start.released)
      (Fetching size original start available done buf) where
  stable _ _ now moved := now.stable writerOnly moved
  subtracts _ _ _ now order := now.subtracts order

private theorem Fetching.copyFrom {original buf : Buffer} {start : Traffic}
    {available done count : Nat} {traffic : Traffic} {cell : Nat}
    (now : Fetching size original start available done buf traffic)
    (inside : cell < size)
    (next : cell % size = (start.released + done) % size)
    (left : done < available) (within_count : available ≤ count) :
    ReaderDoes size count start.released traffic (.copyFrom done cell) ∧
      Fetching size original start available (done + 1)
        (Function.update buf done (traffic.memory.data cell)) traffic := by
  have within := now.available_le
  have found := now.coherent.cells (start.released + done)
    (by rw [now.waiting]; omega) (by omega)
  rw [Nat.mod_eq_of_lt inside] at next
  rw [← next] at found
  refine ⟨now.quiet ⟨inside, by omega⟩ (by rw [execute_copyFrom]),
    now.coherent, now.waiting, now.grows, within, ?_, ?_⟩
  · intro offset old
    rcases Nat.lt_or_eq_of_le (Nat.le_of_lt_succ old) with earlier | rfl
    · rw [Function.update_of_ne (by omega)]
      exact now.fetched offset earlier
    · rw [Function.update_self]
      exact found
  · intro offset beyond
    rw [Function.update_of_ne (by omega)]
    exact now.untouched offset (by omega)

include writerOnly in
theorem ringbufAvailableRead_holds {rb : Ringbuf} {original : Buffer}
    {count : Nat} {start : Traffic} (sized : rb.size.toNat ≤ size)
    (readBound : start.memory.readPos.toNat < rb.size.toNat)
    (small : size < 2 ^ 31) (coherent : start.Coherent size) :
    Holds (Traffic.execute size) rely
      (ReaderDoes size count start.released)
      (fun (avail : Int32) later => ∃ seen, rely start seen ∧
        avail.toInt = (rb.heldBetween seen.memory.writePos.toNat
          start.memory.readPos.toNat : Int) ∧
        Fetching size original start
          (rb.heldBetween seen.memory.writePos.toNat
            start.memory.readPos.toNat) 0 original later)
      (ringbufAvailableRead rb) start := by
  unfold ringbufAvailableRead loadReadPos loadWritePos
  simp only [Program.perform_bind, Program.pure_eq]
  apply Holds.step
  intro seen moved
  have now := (Fetching.begin original coherent).stable writerOnly moved
  rw [execute_loadWritePos]
  refine ⟨now.quiet trivial (by rw [execute_loadWritePos]), ?_⟩
  have indices := now.coherent.index_cases
  have seenOrder := now.coherent.released_le
  have seenFits := now.coherent.fits
  rw [now.waiting] at indices seenOrder seenFits
  rw [now.readPos_eq coherent] at indices
  have held : start.released + rb.heldBetween seen.memory.writePos.toNat
      start.memory.readPos.toNat ≤ seen.published.length := by
    unfold Ringbuf.heldBetween
    split
    · omega
    · split <;> omega
  apply Holds.step
  intro loaded moved'
  have now' : Fetching size original start
      (rb.heldBetween seen.memory.writePos.toNat start.memory.readPos.toNat)
      0 original loaded := (now.offer held).stable writerOnly moved'
  rw [execute_loadReadPos]
  refine ⟨now'.quiet trivial (by rw [execute_loadReadPos]), ?_⟩
  simp only [now'.readPos_eq coherent]
  refine Holds.weaken ?_ ((Fetching.lasts writerOnly original start
    (rb.heldBetween seen.memory.writePos.toNat start.memory.readPos.toNat) 0
    count original).heldBetween now' (by omega) (by omega) readBound)
  intro avail later ⟨value, fetching⟩
  exact ⟨seen, moved, value, fetching⟩

/-- What ringbuf_read has done when it returns; `seen` is a state the writer had
made of the ring when the call looked. -/
structure ReadDone (size : Nat) (rely : Traffic → Traffic → Prop)
    (rb : Ringbuf) (original : Buffer) (count : Nat) (start : Traffic)
    (result : Int32 × Buffer) (later : Traffic) : Prop where
  coherent : later.Coherent size
  value : ∃ seen, rely start seen ∧ result.1.toInt =
    ((min count (rb.heldBetween seen.memory.writePos.toNat
      start.memory.readPos.toNat) : Nat) : Int)
  released : later.released = start.released + result.1.toInt.toNat
  fetched : ∀ offset, offset < result.1.toInt.toNat →
    later.published[start.released + offset]? = some (result.2 offset)
  untouched : ∀ offset, result.1.toInt.toNat ≤ offset →
    result.2 offset = original offset

include writerOnly in
/-- Once the bytes are copied the call stores its index, and only then are they
released. -/
theorem Fetching.release {rb : Ringbuf} {start current seen : Traffic}
    {original buf : Buffer} {total count : Nat} {readTmp : UInt32}
    {result : Int32}
    (copied : Fetching size original start total total buf current)
    (since : rely start seen)
    (total_eq : min count (rb.heldBetween seen.memory.writePos.toNat
      start.memory.readPos.toNat) = total) (short : total < size)
    (advanced : readTmp.toNat = (start.released + total) % size)
    (counted : result.toInt = total) :
    Holds (Traffic.execute size) rely (ReaderDoes size count start.released)
      (ReadDone size rely rb original count start)
      (.step (.storeReadPos readTmp) (fun _ => .ret (result, buf)))
      current := by
  apply Holds.step
  intro storing acted
  have done := copied.stable writerOnly acted
  have stored := done.coherent.storeReadPos readTmp total
    (by rw [advanced, done.waiting])
    (by rw [done.waiting]; exact done.available_le)
  rw [done.waiting] at stored
  have published : (Traffic.execute size (.storeReadPos readTmp)
      storing).2.published = storing.published :=
    List.append_nil _
  refine ⟨⟨done.waiting, ?_, ?_⟩, ?_⟩
  · change readTmp.toNat < size
    rw [advanced]
    exact Nat.mod_lt _ (by omega)
  · intro _
    refine ⟨stored.1, published, rfl, ?_⟩
    rw [stored.2, done.waiting]
    exact Nat.le_add_right _ _
  · apply Holds.ret
    intro later moved
    obtain ⟨coherentLast, releasedLast, grows⟩ :=
      writerOnly _ _ moved stored.1
    rw [published] at grows
    refine ⟨coherentLast, ⟨seen, since, ?_⟩, ?_, ?_, ?_⟩
    · rw [counted, total_eq]
    · rw [releasedLast, stored.2, counted]
      rfl
    · intro offset inside
      rw [counted] at inside
      exact published_found grows (done.fetched offset inside)
    · intro offset beyond
      rw [counted] at beyond
      exact done.untouched offset beyond

include reflexive writerOnly in
theorem ringbufRead_holds
    (transitive : ∀ first second third,
      rely first second → rely second third → rely first third)
    {rb : Ringbuf} {start : Traffic} (small : size < 2 ^ 31)
    (coherent : start.Coherent size) (original : Buffer) (count : Int32)
    (nonneg : 0 ≤ count.toInt) (sized : rb.size.toNat ≤ size)
    (reaches : ∀ seen, rely start seen → rb.size.toNat = size ∨
      start.memory.readPos.toNat +
        min count.toInt.toNat (rb.heldBetween seen.memory.writePos.toNat
          start.memory.readPos.toNat) < rb.size.toNat) :
    Holds (Traffic.execute size) rely
      (ReaderDoes size count.toInt.toNat start.released)
      (ReadDone size rely rb original count.toInt.toNat start)
      (ringbufRead rb original count) start := by
  unfold ringbufRead loadReadPos storeReadPos
  simp only [Program.perform_bind, Program.pure_eq]
  apply Holds.step
  intro loaded moved
  have now := (Fetching.begin original coherent).stable writerOnly moved
  rw [execute_loadReadPos]
  refine ⟨now.quiet trivial (by rw [execute_loadReadPos]), ?_⟩
  have sameRead := now.readPos_eq coherent
  have readBound : loaded.memory.readPos.toNat < rb.size.toNat := by
    have indices := coherent.index_cases
    rw [sameRead]
    rcases reaches start (reflexive start) with same | below <;> omega
  have held := @ringbufAvailableRead_holds size rely writerOnly rb original
    count.toInt.toNat loaded sized readBound small now.coherent
  rw [now.waiting, sameRead] at held
  apply Holds.bind held reflexive
  intro avail current ⟨seen, sinceLoaded, value, fetching⟩
  have since : rely start seen := transitive _ _ _ moved sinceLoaded
  generalize hTotal : min count.toInt.toNat
    (rb.heldBetween seen.memory.writePos.toNat
      start.memory.readPos.toNat) = total
  have counted : (capped count avail).toInt = total := by
    rw [capped_toInt, value]
    omega
  have ready : Fetching size original start total 0 original current := by
    refine ⟨fetching.coherent, fetching.waiting.trans now.waiting,
      now.grows.trans fetching.grows, ?_,
      fun offset none => absurd none (by omega), fun _ _ => rfl⟩
    have bound := fetching.available_le
    rw [now.waiting] at bound
    omega
  have short : total < size := by
    have bound := ready.available_le
    have fits := ready.coherent.fits
    rw [ready.waiting] at fits
    omega
  have reached : rb.size.toNat = size ∨
      (loaded.memory.readPos.toNat + total < rb.size.toNat ∧
        rb.size.toNat ≤ size) := by
    have bound := reaches seen since
    rw [hTotal] at bound
    rw [sameRead]
    omega
  have position : loaded.memory.readPos.toNat = start.released % size := by
    rw [sameRead, coherent.readPos]
  have copy := splitCopy_holds
    (fun done buf =>
      Fetching.lasts writerOnly original start total done count.toInt.toNat buf)
    (memcpyFromio_lasts
      (fun done buf => Fetching.lasts writerOnly original start total done
        count.toInt.toNat buf)
      (fun _ _ _ _ inside next left now =>
        now.copyFrom inside next left (by omega)))
    reflexive rb loaded.memory.readPos (capped count avail) small position
    counted short reached original current ready
  apply Holds.bind copy reflexive
  intro copiedTo current2 ⟨copied, advanced⟩
  exact copied.release writerOnly since hTotal short advanced counted

end Reading

end Quadcopter

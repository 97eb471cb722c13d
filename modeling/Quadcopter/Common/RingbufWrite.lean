import Quadcopter.Common.RingbufCalls

/-
ringbuf_write against the reading end.

The reader may have released bytes since the call looked, so the room the call
goes by is at most the room there is.
-/

namespace Quadcopter

open AtomicProgram CircularWindow MachineInt

/-- How ringbuf_write does an operation before it returns: nothing of its own is
published yet, and it leaves the unread cells alone. -/
structure WriterDoes (size count : Nat) (published : List UInt8)
    (traffic : Traffic) (op : RingOp) : Prop where
  waiting : traffic.published = published
  fits : op.Fits size count
  acts : Traffic.WriterActs size traffic (Traffic.execute size op traffic).2
  spares : ∀ cell offset byte, op = .copyTo cell offset byte →
    cell ∉ traffic.memory.unreadCells size

section Writing

variable {size : Nat} {rely : Traffic → Traffic → Prop}
  (reflexive : ∀ traffic, rely traffic traffic)
  (readerOnly : ∀ traffic later,
    rely traffic later → Traffic.ReaderActs size traffic later)

/-- `done` bytes are copied behind the published ones; the room they need was
read off when `seen` bytes were released. -/
structure Copying (size : Nat) (buf : Buffer) (published : List UInt8)
    (seen done : Nat) (traffic : Traffic) : Prop where
  coherent : traffic.Coherent size
  waiting : traffic.published = published
  seen_le : seen ≤ traffic.released
  copied : ∀ offset, offset < done →
    traffic.memory.data ((published.length + offset) % size) = buf offset

include readerOnly in
theorem Copying.stable {buf : Buffer} {published : List UInt8}
    {seen done : Nat} {traffic later : Traffic}
    (now : Copying size buf published seen done traffic)
    (moved : rely traffic later) :
    Copying size buf published seen done later := by
  obtain ⟨coherent, same, data, released⟩ :=
    readerOnly _ _ moved now.coherent
  refine ⟨coherent, same.trans now.waiting,
    Nat.le_trans now.seen_le released, ?_⟩
  intro offset inside
  rw [data]
  exact now.copied offset inside

private theorem WriterDoes.load {count : Nat} {published : List UInt8}
    {traffic : Traffic} {op : RingOp} (waiting : traffic.published = published)
    (loads : op = .loadWritePos ∨ op = .loadReadPos) :
    WriterDoes size count published traffic op := by
  rcases loads with rfl | rfl
  · refine ⟨waiting, trivial, ?_, fun _ _ _ same => by cases same⟩
    rw [execute_loadWritePos]
    exact Traffic.WriterActs.refl traffic
  · refine ⟨waiting, trivial, ?_, fun _ _ _ same => by cases same⟩
    rw [execute_loadReadPos]
    exact Traffic.WriterActs.refl traffic

private theorem Copying.subtracts {buf : Buffer} {published : List UInt8}
    {seen done count : Nat} {traffic : Traffic} {minuend subtrahend : UInt32}
    (now : Copying size buf published seen done traffic)
    (order : subtrahend ≤ minuend) :
    WriterDoes size count published traffic (.sub minuend subtrahend) := by
  refine ⟨now.waiting, order, ?_, ?_⟩
  · rw [execute_sub]
    exact Traffic.WriterActs.refl traffic
  · intro cell offset byte same
    cases same

include readerOnly in
private theorem Copying.lasts (buf : Buffer) (published : List UInt8)
    (seen done count : Nat) :
    Lasts rely (WriterDoes size count published)
      (Copying size buf published seen done) where
  stable _ _ now moved := now.stable readerOnly moved
  subtracts _ _ _ now order := now.subtracts order

private theorem Copying.copyTo {buf : Buffer} {published : List UInt8}
    {seen done total count : Nat} {traffic : Traffic} {cell : Nat}
    (now : Copying size buf published seen done traffic)
    (inside : cell < size) (next : cell % size = (published.length + done) % size)
    (left : done < total) (room : published.length + total < seen + size)
    (within : total ≤ count) :
    WriterDoes size count published traffic (.copyTo cell done (buf done)) ∧
      Copying size buf published seen (done + 1)
        (Traffic.execute size (.copyTo cell done (buf done)) traffic).2 := by
  have waiting := now.waiting
  have seen_le := now.seen_le
  have order := now.coherent.released_le
  rw [waiting] at order
  rw [Nat.mod_eq_of_lt inside] at next
  have coherent := now.coherent.copyTo (published.length + done)
    (by rw [waiting]; omega) (by omega) done (buf done)
  rw [← next] at coherent
  have published_eq : (Traffic.execute size
      (.copyTo cell done (buf done)) traffic).2.published = published := by
    simp [Traffic.execute, RingOp.publishes, waiting]
  refine ⟨⟨waiting, ⟨inside, by omega⟩, ?_, ?_⟩,
    ⟨coherent, published_eq, ?_, ?_⟩⟩
  · intro _
    refine ⟨coherent, rfl, ?_⟩
    simp only [published_eq, waiting, List.prefix_rfl]
  · intro other offset byte same
    cases same
    intro member
    obtain ⟨position, unreleased, readable, same⟩ :=
      now.coherent.mem_unreadCells member
    rw [waiting] at readable
    have before : position < published.length + done := by omega
    have apart := cell_ne before (show _ < position + size by omega)
    omega
  · exact seen_le
  · intro offset old
    change Function.update traffic.memory.data cell (buf done)
      ((published.length + offset) % size) = buf offset
    rw [next]
    rcases Nat.lt_or_eq_of_le (Nat.le_of_lt_succ old) with earlier | rfl
    · rw [Function.update_of_ne
        (cell_ne (by omega) (by omega))]
      exact now.copied offset earlier
    · exact Function.update_self _ _ _

structure RoomSeen (size : Nat) (buf : Buffer) (start : Traffic) (seen : Nat)
    (free : Int32) (later : Traffic) : Prop where
  since : start.released ≤ seen
  seen_le : seen ≤ start.published.length
  fits : start.published.length < seen + size
  value : free.toInt =
    ((size - 1 - (start.published.length - seen) : Nat) : Int)
  copying : Copying size buf start.published seen 0 later

include readerOnly in
theorem ringbufAvailableWrite_holds {rb : Ringbuf} {buf : Buffer}
    {count : Nat} {start : Traffic} (sized : rb.size.toNat = size)
    (small : size < 2 ^ 31) (coherent : start.Coherent size) :
    Holds (Traffic.execute size) rely
      (WriterDoes size count start.published)
      (fun free later => ∃ seen, RoomSeen size buf start seen free later)
      (ringbufAvailableWrite rb) start := by
  have begun : Copying size buf start.published start.released 0 start :=
    ⟨coherent, rfl, Nat.le_refl _, fun offset none => absurd none (by omega)⟩
  unfold ringbufAvailableWrite loadReadPos loadWritePos
  simp only [Program.perform_bind, Program.pure_eq]
  apply Holds.step
  intro seenAt moved
  have now := begun.stable readerOnly moved
  have seenBound := now.coherent.released_le
  have seenFits := now.coherent.fits
  rw [now.waiting] at seenBound seenFits
  rw [execute_loadReadPos]
  refine ⟨WriterDoes.load now.waiting (Or.inr rfl), ?_⟩
  have indices := now.coherent.index_cases
  rw [now.waiting] at indices
  apply Holds.step
  intro loaded moved'
  have now' : Copying size buf start.published seenAt.released 0 loaded :=
    Copying.stable readerOnly
      ⟨now.coherent, now.waiting, Nat.le_refl _, now.copied⟩ moved'
  rw [execute_loadWritePos]
  refine ⟨WriterDoes.load now'.waiting (Or.inl rfl), ?_⟩
  have sameWrite : loaded.memory.writePos = seenAt.memory.writePos := by
    apply UInt32.toNat_inj.mp
    rw [now'.coherent.writePos, now.coherent.writePos, now'.waiting,
      now.waiting]
  simp only [sameWrite]
  refine Holds.weaken ?_ ((Copying.lasts readerOnly buf start.published
    seenAt.released 0 count).freeBetween now' sized small (by omega)
    indices.1 indices.2.1)
  intro free later ⟨value, copying⟩
  exact ⟨seenAt.released, now.seen_le, seenBound, seenFits, value, copying⟩

/-- What ringbuf_write has done when it returns `accepted`: it was given `count`
and has published that much of `buf` behind `start.published`. -/
structure WriteDone (size : Nat) (buf : Buffer) (count : Nat)
    (start : Traffic) (accepted : Int32) (later : Traffic) : Prop where
  coherent : later.Coherent size
  value : ∃ seen, start.released ≤ seen ∧ seen ≤ later.released ∧
    accepted.toInt =
      ((min count (size - 1 - (start.published.length - seen)) : Nat) : Int)
  published : later.published =
    start.published ++ buf.first accepted.toInt.toNat

include readerOnly in
/-- Once the bytes are copied the call stores its index, and only then are they
published. -/
theorem Copying.publish {buf : Buffer} {start current : Traffic}
    {seen total count : Nat} {writeTmp : UInt32} {result : Int32}
    (copied : Copying size buf start.published seen total current)
    (total_eq : min count
      (size - 1 - (start.published.length - seen)) = total)
    (seen_le : start.released ≤ seen)
    (fits : start.published.length + total < seen + size)
    (advanced : writeTmp.toNat = (start.published.length + total) % size)
    (counted : result.toInt = total) :
    Holds (Traffic.execute size) rely (WriterDoes size count start.published)
      (WriteDone size buf count start)
      (.step (.storeWritePos writeTmp) (fun _ => .ret result)) current := by
  apply Holds.step
  intro storing acted
  have ready := copied.stable readerOnly acted
  have waiting := ready.waiting
  have storeSeen := ready.seen_le
  have order := ready.coherent.released_le
  rw [waiting] at order
  have stored := ready.coherent.storeWritePos writeTmp total
    (by rw [advanced, waiting]) (by rw [waiting]; omega)
  have contents : window storing.memory.data size storing.published.length
      total = buf.first total := by
    apply List.map_congr_left
    intro offset member
    rw [waiting]
    exact ready.copied offset (List.mem_range.mp member)
  rw [contents, waiting] at stored
  refine ⟨⟨waiting, ?_, ?_, ?_⟩, ?_⟩
  · change writeTmp.toNat < size
    rw [advanced]
    exact Nat.mod_lt _ (by omega)
  · intro _
    refine ⟨stored.1, rfl, ?_⟩
    rw [stored.2, waiting]
    exact List.prefix_append _ _
  · intro cell offset byte same
    cases same
  · apply Holds.ret
    intro later moved
    obtain ⟨coherentLast, publishedLast, _, releasedLast⟩ :=
      readerOnly _ _ moved stored.1
    refine ⟨coherentLast, ⟨seen, seen_le, ?_, ?_⟩, ?_⟩
    · exact Nat.le_trans storeSeen releasedLast
    · rw [counted, total_eq]
    · rw [publishedLast, stored.2, counted]
      rfl

include reflexive readerOnly in
theorem ringbufWrite_holds {rb : Ringbuf} {start : Traffic}
    (sized : rb.size.toNat = size) (small : size < 2 ^ 31)
    (coherent : start.Coherent size) (buf : Buffer) (count : Int32)
    (nonneg : 0 ≤ count.toInt) :
    Holds (Traffic.execute size) rely
      (WriterDoes size count.toInt.toNat start.published)
      (WriteDone size buf count.toInt.toNat start)
      (ringbufWrite rb buf count) start := by
  unfold ringbufWrite loadWritePos storeWritePos
  simp only [Program.perform_bind, Program.pure_eq]
  apply Holds.step
  intro loaded moved
  obtain ⟨coherent1, published1, _, released1⟩ := readerOnly _ _ moved coherent
  rw [execute_loadWritePos]
  refine ⟨WriterDoes.load published1 (Or.inl rfl), ?_⟩
  have room := @ringbufAvailableWrite_holds size rely readerOnly rb buf
    count.toInt.toNat loaded sized small coherent1
  rw [published1] at room
  apply Holds.bind room reflexive
  intro avail current roomSeen
  obtain ⟨seen, roomSeen⟩ := roomSeen
  have since := roomSeen.since
  have seen_le := roomSeen.seen_le
  have fits := roomSeen.fits
  have value := roomSeen.value
  have copying := roomSeen.copying
  rw [published1] at seen_le fits value copying
  generalize hTotal : min count.toInt.toNat
    (size - 1 - (start.published.length - seen)) = total
  have counted : (capped count avail).toInt = total := by
    rw [capped_toInt, value]
    omega
  have position : loaded.memory.writePos.toNat =
      start.published.length % size := by
    rw [coherent1.writePos, published1]
  have copy := splitCopy_holds
    (fun done (_ : Unit) =>
      Copying.lasts readerOnly buf start.published seen done count.toInt.toNat)
    (fun cell offset length _ traffic =>
      memcpyToio_lasts (Copying.lasts readerOnly buf start.published seen ·
          count.toInt.toNat)
        (fun _ _ _ inside next left now =>
          now.copyTo inside next left (by omega) (by omega))
        cell offset length traffic)
    reflexive rb loaded.memory.writePos (capped count avail) small position
    counted (by omega) (Or.inl sized) () current copying
  apply Holds.bind copy reflexive
  intro copiedTo current2 ⟨copied, advanced⟩
  exact copied.publish readerOnly hTotal (by omega) (by omega) advanced counted

end Writing

end Quadcopter

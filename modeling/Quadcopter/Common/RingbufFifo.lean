import Quadcopter.Common.RingbufRead
import Quadcopter.Common.RingbufWrite
import Quadcopter.Library.BoundedFifo

/-
The ring buffer as a bounded FIFO queue, when its calls run one at a time.

`Carries` relates a memory to the queue it represents.  Each call is specified
from it alone, so callers reason about queues and never about indices.
-/

namespace Quadcopter

open AtomicProgram CircularWindow

@[simp] theorem Buffer.first_length (buf : Buffer) (count : Nat) :
    (buf.first count).length = count := by
  simp [Buffer.first]

theorem Buffer.first_getElem? (buf : Buffer) {count offset : Nat}
    (inside : offset < count) :
    (buf.first count)[offset]? = some (buf offset) := by
  simp [Buffer.first, inside]

theorem Buffer.first_of_getElem? {buf : Buffer} {bytes : List UInt8}
    {count : Nat} (length : bytes.length = count)
    (found : ∀ offset, offset < count → bytes[offset]? = some (buf offset)) :
    buf.first count = bytes := by
  apply List.ext_getElem?
  intro offset
  by_cases inside : offset < count
  · rw [Buffer.first_getElem? buf inside, found offset inside]
  · rw [List.getElem?_eq_none (by rw [Buffer.first_length]; omega),
      List.getElem?_eq_none (by omega)]

/-- Bytes stored one after the other stand in the order they were stored. -/
theorem Buffer.first_update (buf : Buffer) (count : Nat) (byte : UInt8) :
    Buffer.first (Function.update buf count byte) (count + 1) =
      buf.first count ++ [byte] := by
  unfold Buffer.first
  rw [List.range_succ, List.map_append, List.map_singleton,
    Function.update_self]
  congr 1
  apply List.map_congr_left
  intro offset member
  have apart : offset ≠ count := Nat.ne_of_lt (List.mem_range.mp member)
  exact Function.update_of_ne apart byte buf

theorem Buffer.first_succ (buf : Buffer) (count : Nat) :
    buf.first (count + 1) =
      buf 0 :: Buffer.first (fun offset => buf (offset + 1)) count := by
  unfold Buffer.first
  rw [List.range_succ_eq_map, List.map_cons, List.map_map]
  rfl

theorem Buffer.first_take (buf : Buffer) (count kept : Nat) :
    (buf.first count).take kept = buf.first (min kept count) := by
  simp [Buffer.first, ← List.map_take, List.take_range]

theorem ringbufAvailableRead_unchanged (rb : Ringbuf) (memory : RingMemory) :
    (memory.call (ringbufAvailableRead rb)).2 = memory := by
  unfold RingMemory.call ringbufAvailableRead loadWritePos loadReadPos
  simp only [Program.perform_bind, Program.run_step]
  generalize (RingOp.loadWritePos.execute memory).1 = writeTmp
  change (Program.run _ _ memory).2 = memory
  generalize (RingOp.loadReadPos.execute _).1 = readTmp
  change UInt32 at writeTmp readTmp
  by_cases writeAhead : writeTmp > readTmp
  · rw [if_pos writeAhead]
    rfl
  · rw [if_neg writeAhead]
    by_cases readAhead : writeTmp < readTmp
    · rw [if_pos readAhead]
      rfl
    · rw [if_neg readAhead]
      rfl

private theorem ringbufAvailableWrite_unchanged (rb : Ringbuf)
    (memory : RingMemory) :
    (memory.call (ringbufAvailableWrite rb)).2 = memory := by
  unfold RingMemory.call ringbufAvailableWrite loadWritePos loadReadPos
  simp only [Program.perform_bind, Program.run_step]
  generalize (RingOp.loadReadPos.execute memory).1 = readTmp
  change (Program.run _ _ memory).2 = memory
  generalize (RingOp.loadWritePos.execute _).1 = writeTmp
  change UInt32 at readTmp writeTmp
  by_cases readAhead : readTmp > writeTmp
  · rw [if_pos readAhead]
    rfl
  · rw [if_neg readAhead]
    by_cases writeAhead : readTmp < writeTmp
    · rw [if_pos writeAhead]
      rfl
    · rw [if_neg writeAhead]
      rfl

def RingMemory.Carries (size : Nat) (queue : BoundedFifo UInt8 (size - 1))
    (memory : RingMemory) : Prop :=
  ∃ traffic : Traffic, traffic.Coherent size ∧ traffic.memory = memory ∧
    traffic.published.drop traffic.released = queue.items

namespace RingMemory.Carries

variable {size : Nat} {queue : BoundedFifo UInt8 (size - 1)}
  {memory : RingMemory}

theorem unread (carries : memory.Carries size queue) :
    memory.unread size = queue.items := by
  obtain ⟨traffic, coherent, rfl, same⟩ := carries
  rw [coherent.unread_eq, same]

theorem positions (carries : memory.Carries size queue) :
    memory.writePos.toNat < size ∧ memory.readPos.toNat < size := by
  obtain ⟨traffic, coherent, rfl, _⟩ := carries
  exact ⟨coherent.index_cases.2.2, coherent.index_cases.1⟩

theorem held (carries : memory.Carries size queue) :
    memory.held size = queue.items.length := by
  obtain ⟨traffic, coherent, rfl, same⟩ := carries
  rw [coherent.held_eq, ← same, List.length_drop]

theorem size_pos (carries : memory.Carries size queue) : 0 < size :=
  Nat.lt_of_le_of_lt (Nat.zero_le _) carries.positions.1

private theorem items_length {traffic : Traffic}
    (same : traffic.published.drop traffic.released = queue.items) :
    queue.items.length = traffic.published.length - traffic.released := by
  rw [← same, List.length_drop]

theorem of_positions (writeBound : memory.writePos.toNat < size)
    (readBound : memory.readPos.toNat < size) :
    ∃ queue : BoundedFifo UInt8 (size - 1),
      memory.Carries size queue ∧ queue.items = memory.unread size := by
  have short : memory.held size < size := Nat.mod_lt _ (by omega)
  have length : (memory.unread size).length = memory.held size :=
    window_length _ _ _ _
  have sum : (memory.readPos.toNat + memory.held size) % size =
      memory.writePos.toNat := by
    unfold RingMemory.held
    rcases apart_of_lt writeBound readBound with ahead | behind
    · rw [← ahead, Nat.mod_eq_of_lt writeBound]
    · rw [← behind, Nat.add_mod_right, Nat.mod_eq_of_lt writeBound]
  refine ⟨⟨memory.unread size, by omega⟩, ⟨⟨memory,
    List.replicate memory.readPos.toNat 0 ++ memory.unread size,
    memory.readPos.toNat⟩, ⟨?_, ?_, ?_, ?_, ?_⟩, rfl, ?_⟩, rfl⟩
  · rw [List.length_append, List.length_replicate, length, sum]
  · exact (Nat.mod_eq_of_lt readBound).symm
  · simp
  · simp only [List.length_append, List.length_replicate, length]
    omega
  · intro position unreleased readable
    simp only [List.length_append, List.length_replicate, length]
      at unreleased readable
    rw [List.getElem?_append_right (by simpa using unreleased),
      List.length_replicate]
    unfold RingMemory.unread
    rw [window_getElem? _ _ _ _ _ (by omega)]
    congr 3
    omega
  · simp

/-! ### Calls that run alone -/

private theorem call_eq {α : Type} (traffic : Traffic)
    (program : RingProgram α) :
    traffic.memory.call program =
        ((program.run (Traffic.execute size) traffic).1,
          (program.run (Traffic.execute size) traffic).2.memory) ∧
      program.trace RingOp.execute traffic.memory =
        program.trace (Traffic.execute size) traffic :=
  Program.run_map (Traffic.execute size) RingOp.execute Traffic.memory
    (fun _ _ => rfl) program traffic

private theorem alone_acts {traffic later : Traffic} (same : traffic = later) :
    Traffic.ReaderActs size traffic later ∧
      Traffic.WriterActs size traffic later := by
  subst later
  exact ⟨Traffic.ReaderActs.refl traffic, Traffic.WriterActs.refl traffic⟩

/-- A call of the writing end that runs alone releases nothing. -/
private theorem writer_kept {α : Type} {count : Nat} {published : List UInt8}
    {traffic : Traffic} {post : α → Traffic → Prop} {program : RingProgram α}
    (coherent : traffic.Coherent size)
    (spec : Holds (Traffic.execute size) Eq (WriterDoes size count published)
      post program traffic) :
    (program.run (Traffic.execute size) traffic).2.Coherent size ∧
      (program.run (Traffic.execute size) traffic).2.released =
        traffic.released :=
  spec.run_preserves (fun _ => rfl)
    (fun later => later.Coherent size ∧ later.released = traffic.released)
    (fun _ _ kept does =>
      ⟨(does.acts kept.1).1, (does.acts kept.1).2.1.trans kept.2⟩)
    ⟨coherent, rfl⟩

structure WriteAlone (size : Nat) (queue : BoundedFifo UInt8 (size - 1))
    (memory : RingMemory) (buf : Buffer) (count : Nat)
    (accepted : Int32) (after : RingMemory) : Prop where
  value : accepted.toInt = ((min count queue.room : Nat) : Int)
  carries : after.Carries size (queue.push (buf.first count))
  readPos : after.readPos = memory.readPos
  spares : ∀ cell ∈ memory.unreadCells size, after.data cell = memory.data cell

/-- The caller's bytes that the queue takes. -/
theorem WriteAlone.accepted_eq {buf : Buffer} {count : Nat}
    {accepted : Int32} {after : RingMemory}
    (done : WriteAlone size queue memory buf count accepted after) :
    buf.first accepted.toInt.toNat = queue.accepted (buf.first count) := by
  rw [done.value, Int.toNat_natCast, BoundedFifo.accepted, Buffer.first_take,
    Nat.min_comm]

theorem write {rb : Ringbuf} (carries : memory.Carries size queue)
    (sized : rb.size.toNat = size) (small : size < 2 ^ 31) (buf : Buffer)
    (count : Int32) (nonneg : 0 ≤ count.toInt) :
    WriteAlone size queue memory buf count.toInt.toNat
        (memory.call (ringbufWrite rb buf count)).1
        (memory.call (ringbufWrite rb buf count)).2 ∧
      ∀ op ∈ (ringbufWrite rb buf count).trace RingOp.execute memory,
        op.Fits size count.toInt.toNat := by
  obtain ⟨traffic, coherent, rfl, same⟩ := carries
  have length := items_length same
  have spec := ringbufWrite_holds (fun _ => rfl)
    (fun _ _ acted => (alone_acts acted).1) sized small coherent buf count
    nonneg
  obtain ⟨called, traced⟩ := @call_eq size _ traffic (ringbufWrite rb buf count)
  obtain ⟨done, each⟩ := spec.run (fun _ => rfl)
  have kept := writer_kept coherent spec
  rw [called, traced]
  generalize (ringbufWrite rb buf count).run (Traffic.execute size) traffic =
    result at done kept ⊢
  obtain ⟨accepted, later⟩ := result
  dsimp only at done kept ⊢
  obtain ⟨coherentLater, released⟩ := kept
  obtain ⟨seen, since, seen_le, value⟩ := done.value
  have published := done.published
  have sameSeen : seen = traffic.released := by omega
  have account := queue.room_add_length
  subst seen
  have counted : accepted.toInt.toNat = min count.toInt.toNat queue.room := by
    omega
  refine ⟨⟨by omega, ⟨later, coherentLater, rfl, ?_⟩, ?_, ?_⟩, ?_⟩
  · rw [released, published, counted,
      List.drop_append_of_le_length coherent.released_le, same,
      BoundedFifo.push_items, BoundedFifo.accepted, Buffer.first_take,
      Nat.min_comm]
  · apply UInt32.toNat_inj.mp
    rw [coherentLater.readPos, coherent.readPos, released]
  · intro cell member
    obtain ⟨position, unreleased, readable, rfl⟩ :=
      coherent.mem_unreadCells member
    have before := coherent.cells position unreleased readable
    have after := coherentLater.cells position (by omega)
      (by rw [published, List.length_append]; omega)
    rw [published, List.getElem?_append_left readable, before] at after
    exact (Option.some.inj after).symm
  · intro op member
    obtain ⟨_, does⟩ := each op member
    exact does.fits

structure ReadAlone (size : Nat) (queue : BoundedFifo UInt8 (size - 1))
    (memory : RingMemory) (original : Buffer) (count : Nat)
    (result : Int32 × Buffer) (after : RingMemory) : Prop where
  value : result.1.toInt = ((min count queue.items.length : Nat) : Int)
  delivers : result.2.first (min count queue.items.length) =
    queue.delivered count
  untouched : ∀ offset, min count queue.items.length ≤ offset →
    result.2 offset = original offset
  carries : after.Carries size (queue.pop count)
  writePos : after.writePos = memory.writePos
  data : after.data = memory.data

theorem heldBetween_eq {traffic : Traffic} {rb : Ringbuf}
    (coherent : traffic.Coherent size) (sized : rb.size.toNat = size) :
    rb.heldBetween traffic.memory.writePos.toNat
      traffic.memory.readPos.toNat =
        traffic.published.length - traffic.released := by
  have indices := coherent.index_cases
  have bound := coherent.fits
  have order := coherent.released_le
  unfold Ringbuf.heldBetween
  rw [sized]
  split
  · omega
  · split <;> omega

/-- An end whose private size is too small is not found out by a read that stays
below that size. -/
theorem min_heldBetween_eq {traffic : Traffic} {rb : Ringbuf} {count : Nat}
    (coherent : traffic.Coherent size) (sized : rb.size.toNat ≤ size)
    (below : traffic.memory.readPos.toNat +
      min count (traffic.published.length - traffic.released) <
        rb.size.toNat) :
    min count (rb.heldBetween traffic.memory.writePos.toNat
        traffic.memory.readPos.toNat) =
      min count (traffic.published.length - traffic.released) := by
  have indices := coherent.index_cases
  have bound := coherent.fits
  have order := coherent.released_le
  unfold Ringbuf.heldBetween
  split
  · omega
  · split <;> omega

theorem readWithin {rb : Ringbuf} (carries : memory.Carries size queue)
    (small : size < 2 ^ 31) (original : Buffer) (count : Int32)
    (nonneg : 0 ≤ count.toInt) (sized : rb.size.toNat ≤ size)
    (reaches : rb.size.toNat = size ∨
      memory.readPos.toNat + min count.toInt.toNat queue.items.length <
        rb.size.toNat) :
    ReadAlone size queue memory original count.toInt.toNat
        (memory.call (ringbufRead rb original count)).1
        (memory.call (ringbufRead rb original count)).2 ∧
      ∀ op ∈ (ringbufRead rb original count).trace RingOp.execute memory,
        op.Fits size count.toInt.toNat := by
  obtain ⟨traffic, coherent, rfl, same⟩ := carries
  have length := items_length same
  rw [length] at reaches
  have held : min count.toInt.toNat (rb.heldBetween
      traffic.memory.writePos.toNat traffic.memory.readPos.toNat) =
        min count.toInt.toNat queue.items.length := by
    rw [length]
    rcases reaches with whole | below
    · rw [heldBetween_eq coherent whole]
    · exact min_heldBetween_eq coherent sized below
  have spec := ringbufRead_holds (fun _ => rfl)
    (fun _ _ acted => (alone_acts acted).2) (fun _ _ _ => Eq.trans) small
    coherent original count nonneg sized
    (by rintro seen rfl; rwa [held, length])
  obtain ⟨called, traced⟩ :=
    @call_eq size _ traffic (ringbufRead rb original count)
  obtain ⟨done, each⟩ := spec.run (fun _ => rfl)
  have kept := spec.run_preserves (fun _ => rfl)
    (fun later => later.Coherent size ∧
      later.published = traffic.published ∧
      later.memory.data = traffic.memory.data)
    (fun later op kept does =>
      have acted := does.acts kept.1
      ⟨acted.1, acted.2.1.trans kept.2.1, acted.2.2.1.trans kept.2.2⟩)
    ⟨coherent, rfl, rfl⟩
  rw [called, traced]
  generalize (ringbufRead rb original count).run (Traffic.execute size)
    traffic = result at done kept ⊢
  obtain ⟨⟨returned, buf⟩, later⟩ := result
  dsimp only at done kept ⊢
  obtain ⟨coherentLater, published, data⟩ := kept
  obtain ⟨seen, rfl, value⟩ := done.value
  rw [held] at value
  dsimp only at value
  have released := done.released
  have counted : returned.toInt.toNat =
      min count.toInt.toNat queue.items.length := by omega
  dsimp only at released
  rw [counted] at released
  refine ⟨⟨value, ?_, ?_, ⟨later, coherentLater, rfl, ?_⟩, ?_, data⟩, ?_⟩
  · apply Buffer.first_of_getElem? List.length_take
    intro offset inside
    have found := done.fetched offset (by dsimp only; omega)
    rw [published, ← List.getElem?_drop, same] at found
    rw [List.getElem?_take_of_lt (by omega), found]
  · intro offset beyond
    exact done.untouched offset (by dsimp only; omega)
  · rw [published, released, ← List.drop_drop, same, BoundedFifo.pop_items]
    exact List.drop_eq_drop_min.symm
  · apply UInt32.toNat_inj.mp
    rw [coherentLater.writePos, coherent.writePos, published]
  · intro op member
    obtain ⟨_, does⟩ := each op member
    exact does.fits

theorem read {rb : Ringbuf} (carries : memory.Carries size queue)
    (sized : rb.size.toNat = size) (small : size < 2 ^ 31)
    (original : Buffer) (count : Int32) (nonneg : 0 ≤ count.toInt) :
    ReadAlone size queue memory original count.toInt.toNat
        (memory.call (ringbufRead rb original count)).1
        (memory.call (ringbufRead rb original count)).2 ∧
      ∀ op ∈ (ringbufRead rb original count).trace RingOp.execute memory,
        op.Fits size count.toInt.toNat :=
  carries.readWithin small original count nonneg (Nat.le_of_eq sized)
    (Or.inl sized)

theorem ReadAlone.delivered_eq {original : Buffer} {count : Nat}
    {result : Int32 × Buffer} {after : RingMemory}
    (done : ReadAlone size queue memory original count result after) :
    result.2.first result.1.toInt.toNat = queue.delivered count := by
  rw [done.value, Int.toNat_natCast, done.delivers]

/-- The caller's buffer afterwards: what was delivered, then what was there. -/
theorem ReadAlone.whole_buffer {original : Buffer} {count : Nat}
    {result : Int32 × Buffer} {after : RingMemory}
    (done : ReadAlone size queue memory original count result after) :
    result.2 = fun offset =>
      (queue.delivered count)[offset]?.getD (original offset) := by
  funext offset
  rw [← done.delivers]
  by_cases inside : offset < min count queue.items.length
  · rw [Buffer.first_getElem? _ inside]
    rfl
  · rw [List.getElem?_eq_none (by rw [Buffer.first_length]; omega)]
    exact done.untouched offset (by omega)

theorem availableRead {rb : Ringbuf} (carries : memory.Carries size queue)
    (sized : rb.size.toNat = size) (small : size < 2 ^ 31) :
    (memory.call (ringbufAvailableRead rb)).1.toInt = queue.items.length ∧
      (memory.call (ringbufAvailableRead rb)).2 = memory ∧
      ∀ op ∈ (ringbufAvailableRead rb).trace RingOp.execute memory,
        op.Fits size 0 := by
  obtain ⟨traffic, coherent, rfl, same⟩ := carries
  have length := items_length same
  have spec := @ringbufAvailableRead_holds size Eq
    (fun _ _ acted => (alone_acts acted).2) rb (fun _ => 0) 0 traffic
    (Nat.le_of_eq sized) (by rw [sized]; exact coherent.index_cases.1)
    small coherent
  obtain ⟨called, traced⟩ :=
    @call_eq size _ traffic (ringbufAvailableRead rb)
  obtain ⟨⟨seen, rfl, value, _⟩, each⟩ := spec.run (fun _ => rfl)
  refine ⟨?_, ringbufAvailableRead_unchanged rb traffic.memory, ?_⟩
  · rw [called, value, heldBetween_eq coherent sized, length]
  · intro op member
    rw [traced] at member
    obtain ⟨_, does⟩ := each op member
    exact does.fits

theorem availableWrite {rb : Ringbuf} (carries : memory.Carries size queue)
    (sized : rb.size.toNat = size) (small : size < 2 ^ 31) :
    (memory.call (ringbufAvailableWrite rb)).1.toInt = queue.room ∧
      (memory.call (ringbufAvailableWrite rb)).2 = memory ∧
      ∀ op ∈ (ringbufAvailableWrite rb).trace RingOp.execute memory,
        op.Fits size 0 := by
  obtain ⟨traffic, coherent, rfl, same⟩ := carries
  have length := items_length same
  have spec := @ringbufAvailableWrite_holds size Eq
    (fun _ _ acted => (alone_acts acted).1) rb (fun _ => 0) 0 traffic sized
    small coherent
  obtain ⟨called, traced⟩ :=
    @call_eq size _ traffic (ringbufAvailableWrite rb)
  obtain ⟨⟨seen, found⟩, each⟩ := spec.run (fun _ => rfl)
  have unchanged := ringbufAvailableWrite_unchanged rb traffic.memory
  have sameSeen : seen = traffic.released := by
    have kept := writer_kept coherent spec
    have bound := found.copying.seen_le
    have since := found.since
    omega
  refine ⟨?_, unchanged, ?_⟩
  · rw [called, found.value, sameSeen, BoundedFifo.room, length]
  · intro op member
    rw [traced] at member
    obtain ⟨_, does⟩ := each op member
    exact does.fits

theorem getc {rb : Ringbuf} (carries : memory.Carries size queue)
    (sized : rb.size.toNat = size) (small : size < 2 ^ 31) :
    (memory.call (ringbufGetc rb)).1 = queue.items.head? ∧
      (memory.call (ringbufGetc rb)).2.Carries size (queue.pop 1) ∧
      (memory.call (ringbufGetc rb)).2.writePos = memory.writePos ∧
      (memory.call (ringbufGetc rb)).2.data = memory.data ∧
      ∀ op ∈ (ringbufGetc rb).trace RingOp.execute memory,
        op.Fits size 1 := by
  obtain ⟨done, fits⟩ := carries.read sized small (fun _ => 0) 1 (by decide)
  unfold ringbufGetc RingMemory.call
  rw [Program.run_bind, Program.trace_bind]
  unfold RingMemory.call at done
  generalize (ringbufRead rb (fun _ => 0) 1).run RingOp.execute memory =
    result at done ⊢
  obtain ⟨⟨count, buf⟩, after⟩ := result
  refine ⟨?_, done.carries, done.writePos, done.data, ?_⟩
  · have value := done.value
    have delivers := done.delivers
    dsimp only at value delivers ⊢
    change count.toInt = ((min 1 queue.items.length : Nat) : Int) at value
    change buf.first (min 1 queue.items.length) = queue.items.take 1 at delivers
    cases contents : queue.items with
    | nil =>
        rw [contents] at value
        have less : count < 1 := Int32.lt_iff_toInt_lt.mpr (by simp [value])
        rw [if_pos less]
        rfl
    | cons oldest rest =>
        rw [contents, List.length_cons, Nat.min_eq_left (by omega)]
          at value delivers
        have enough : ¬ count < 1 := fun less =>
          absurd (Int32.lt_iff_toInt_lt.mp less) (by simp [value])
        rw [if_neg enough]
        exact congrArg List.head? delivers
  · intro op member
    rcases List.mem_append.mp member with reading | none_left
    · exact fits op reading
    · cases none_left

theorem putc {rb : Ringbuf} (carries : memory.Carries size queue)
    (sized : rb.size.toNat = size) (small : size < 2 ^ 31) (c : UInt8) :
    (memory.call (ringbufPutc rb c)).2.Carries size (queue.push [c]) ∧
      (memory.call (ringbufPutc rb c)).2.readPos = memory.readPos ∧
      (∀ cell ∈ memory.unreadCells size,
        (memory.call (ringbufPutc rb c)).2.data cell = memory.data cell) ∧
      ∀ op ∈ (ringbufPutc rb c).trace RingOp.execute memory,
        op.Fits size 1 := by
  obtain ⟨done, fits⟩ := carries.write sized small (fun _ => c) 1 (by decide)
  unfold ringbufPutc RingMemory.call
  rw [Program.run_bind, Program.trace_bind]
  refine ⟨done.carries, done.readPos, done.spares, ?_⟩
  intro op member
  rcases List.mem_append.mp member with writing | none_left
  · exact fits op writing
  · cases none_left

end RingMemory.Carries

theorem ringbufInit_coherent {n : Nat} (positive : 1 ≤ n) (size : UInt32)
    (memory : RingMemory) :
    Traffic.Coherent n ⟨(memory.call (ringbufInit size)).2, [], 0⟩ where
  writePos := (Nat.zero_mod n).symm
  readPos := (Nat.zero_mod n).symm
  released_le := Nat.le_refl _
  fits := Nat.lt_of_lt_of_le positive (Nat.le_add_left n 0)
  cells := fun position _ readable =>
    absurd readable (Nat.not_lt_zero position)

theorem ringbufInit_carries {n : Nat} (positive : 1 ≤ n) {size : UInt32}
    (sized : size.toNat = n + 8) (memory : RingMemory) :
    (memory.call (ringbufInit size)).1.size.toNat = n ∧
      (memory.call (ringbufInit size)).2.Carries n .empty ∧
      ∀ op ∈ (ringbufInit size).trace RingOp.execute memory, op.Fits n 0 := by
  have order : 8 ≤ size := UInt32.le_iff_toNat_le.mpr (by simp; omega)
  refine ⟨?_, ⟨_, ringbufInit_coherent positive size memory, rfl, rfl⟩, ?_⟩
  · change (size - 8).toNat = n
    rw [UInt32.toNat_sub_of_le _ _ order, sized]
    exact Nat.add_sub_cancel n 8
  · intro op member
    rcases List.mem_cons.mp member with rfl | member
    · exact order
    · rcases List.mem_cons.mp member with rfl | member
      · exact positive
      · rcases List.mem_cons.mp member with rfl | member
        · exact positive
        · cases member

/-! ### Any sequence of calls -/

inductive RingCall where
  | write (buf : Buffer) (count : Int32)
  | read (buf : Buffer) (count : Int32)
  | getc
  | putc (c : UInt8)
  | availableRead
  | availableWrite

inductive RingResult where
  | count (value : Int)
  | filled (value : Int) (buf : Buffer)
  | char (c : Option UInt8)
  | none

namespace RingCall

def program (rb : Ringbuf) : RingCall → RingProgram RingResult
  | .write buf count => do
      let written ← ringbufWrite rb buf count
      return .count written.toInt
  | .read buf count => do
      let (delivered, buf) ← ringbufRead rb buf count
      return .filled delivered.toInt buf
  | .getc => do
      let c ← ringbufGetc rb
      return .char c
  | .putc c => do
      ringbufPutc rb c
      return .none
  | .availableRead => do
      let available ← ringbufAvailableRead rb
      return .count available.toInt
  | .availableWrite => do
      let available ← ringbufAvailableWrite rb
      return .count available.toInt

def Valid : RingCall → Prop
  | .write _ count => 0 ≤ count.toInt
  | .read _ count => 0 ≤ count.toInt
  | _ => True

def bufLength : RingCall → Nat
  | .write _ count => count.toInt.toNat
  | .read _ count => count.toInt.toNat
  | .getc => 1
  | .putc _ => 1
  | .availableRead => 0
  | .availableWrite => 0

def onQueue {capacity : Nat} (queue : BoundedFifo UInt8 capacity) :
    RingCall → RingResult × BoundedFifo UInt8 capacity
  | .write buf count =>
      (.count (min count.toInt.toNat queue.room : Nat),
        queue.push (buf.first count.toInt.toNat))
  | .read buf count =>
      (.filled (min count.toInt.toNat queue.items.length : Nat)
          (fun offset =>
            (queue.delivered count.toInt.toNat)[offset]?.getD (buf offset)),
        queue.pop count.toInt.toNat)
  | .getc => (.char queue.items.head?, queue.pop 1)
  | .putc c => (.none, queue.push [c])
  | .availableRead => (.count queue.items.length, queue)
  | .availableWrite => (.count queue.room, queue)

def Frame (size : Nat) (before after : RingMemory) : RingCall → Prop
  | .write _ _ | .putc _ =>
      after.readPos = before.readPos ∧
        ∀ cell ∈ before.unreadCells size, after.data cell = before.data cell
  | .read _ _ | .getc =>
      after.writePos = before.writePos ∧ after.data = before.data
  | .availableRead | .availableWrite => after = before

def runAll (rb : Ringbuf) : List RingCall → RingMemory →
    List RingResult × RingMemory
  | [], memory => ([], memory)
  | call :: calls, memory =>
      let done := memory.call (call.program rb)
      let rest := runAll rb calls done.2
      (done.1 :: rest.1, rest.2)

def runAllOnQueue {capacity : Nat} : List RingCall →
    BoundedFifo UInt8 capacity → List RingResult × BoundedFifo UInt8 capacity
  | [], queue => ([], queue)
  | call :: calls, queue =>
      let done := call.onQueue queue
      let rest := runAllOnQueue calls done.2
      (done.1 :: rest.1, rest.2)

private theorem call_map {α : Type} (memory : RingMemory)
    (calling : RingProgram α) (result : α → RingResult) :
    memory.call (do let value ← calling; return result value) =
        (result (memory.call calling).1, (memory.call calling).2) ∧
      (do let value ← calling; return result value :
          RingProgram RingResult).trace RingOp.execute memory =
        calling.trace RingOp.execute memory := by
  constructor
  · unfold RingMemory.call
    rw [Program.run_bind]
    rfl
  · rw [Program.trace_bind]
    exact List.append_nil _

/-- One call on a ring that represents a queue does to it what the call means. -/
theorem program_refines {size : Nat} {queue : BoundedFifo UInt8 (size - 1)}
    {memory : RingMemory} {rb : Ringbuf}
    (carries : memory.Carries size queue) (sized : rb.size.toNat = size)
    (small : size < 2 ^ 31) (call : RingCall) (valid : call.Valid) :
    (memory.call (call.program rb)).1 = (call.onQueue queue).1 ∧
      (memory.call (call.program rb)).2.Carries size (call.onQueue queue).2 ∧
      call.Frame size memory (memory.call (call.program rb)).2 ∧
      ∀ op ∈ (call.program rb).trace RingOp.execute memory,
        op.Fits size call.bufLength := by
  cases call with
  | write buf count =>
      obtain ⟨done, fits⟩ := carries.write sized small buf count valid
      have mapped := call_map memory (ringbufWrite rb buf count)
        (fun written => .count written.toInt)
      unfold program
      rw [mapped.1, mapped.2, done.value]
      exact ⟨rfl, done.carries, ⟨done.readPos, done.spares⟩, fits⟩
  | read buf count =>
      obtain ⟨done, fits⟩ := carries.read sized small buf count valid
      have mapped := call_map memory (ringbufRead rb buf count)
        (fun result => .filled result.1.toInt result.2)
      unfold program
      refine ⟨?_, ?_, ?_, ?_⟩
      · refine (congrArg Prod.fst mapped.1).trans ?_
        dsimp only
        rw [done.value, done.whole_buffer]
        rfl
      · rw [congrArg Prod.snd mapped.1]
        exact done.carries
      · rw [congrArg Prod.snd mapped.1]
        exact ⟨done.writePos, done.data⟩
      · rw [mapped.2]
        exact fits
  | getc =>
      obtain ⟨value, after, writePos, data, fits⟩ := carries.getc sized small
      have mapped := call_map memory (ringbufGetc rb) (fun c => .char c)
      unfold program
      rw [mapped.1, mapped.2, value]
      exact ⟨rfl, after, ⟨writePos, data⟩, fits⟩
  | putc c =>
      obtain ⟨after, readPos, spares, fits⟩ := carries.putc sized small c
      have mapped := call_map memory (ringbufPutc rb c) (fun _ => .none)
      unfold program
      rw [mapped.1, mapped.2]
      exact ⟨rfl, after, ⟨readPos, spares⟩, fits⟩
  | availableRead =>
      obtain ⟨value, same, fits⟩ := carries.availableRead sized small
      have mapped := call_map memory (ringbufAvailableRead rb)
        (fun available => .count available.toInt)
      unfold program
      rw [mapped.1, mapped.2, value, same]
      exact ⟨rfl, carries, rfl, fits⟩
  | availableWrite =>
      obtain ⟨value, same, fits⟩ := carries.availableWrite sized small
      have mapped := call_map memory (ringbufAvailableWrite rb)
        (fun available => .count available.toInt)
      unfold program
      rw [mapped.1, mapped.2, value, same]
      exact ⟨rfl, carries, rfl, fits⟩

private theorem runAll_refines {size : Nat}
    {queue : BoundedFifo UInt8 (size - 1)}
    {memory : RingMemory} {rb : Ringbuf}
    (carries : memory.Carries size queue) (sized : rb.size.toNat = size)
    (small : size < 2 ^ 31) (calls : List RingCall)
    (valid : ∀ call ∈ calls, call.Valid) :
    (runAll rb calls memory).1 = (runAllOnQueue calls queue).1 ∧
      (runAll rb calls memory).2.Carries size (runAllOnQueue calls queue).2 := by
  induction calls generalizing memory queue with
  | nil => exact ⟨rfl, carries⟩
  | cons call calls ih =>
      obtain ⟨value, after, _, _⟩ := program_refines carries sized small call
        (valid call List.mem_cons_self)
      obtain ⟨values, final⟩ := ih after
        (fun other member => valid other (List.mem_cons_of_mem _ member))
      unfold runAll runAllOnQueue
      exact ⟨congrArg₂ List.cons value values, final⟩

end RingCall

/-- The ring buffer is a FIFO queue of at most `n - 1` bytes. -/
theorem ringbuf_refines_fifo {n : Nat} (positive : 1 ≤ n) (small : n < 2 ^ 31)
    {size : UInt32} (sized : size.toNat = n + 8) (memory : RingMemory)
    (calls : List RingCall) (valid : ∀ call ∈ calls, call.Valid) :
    let started := memory.call (ringbufInit size)
    let ran := RingCall.runAll started.1 calls started.2
    let queue : BoundedFifo UInt8 (n - 1) :=
      (RingCall.runAllOnQueue calls .empty).2
    ran.1 = (RingCall.runAllOnQueue calls
        (.empty : BoundedFifo UInt8 (n - 1))).1 ∧
      ran.2.unread n = queue.items ∧
      ran.2.writePos.toNat < n ∧ ran.2.readPos.toNat < n ∧
      (ran.2.call (ringbufAvailableRead started.1)).1.toInt +
          (ran.2.call (ringbufAvailableWrite started.1)).1.toInt =
        (n - 1 : Nat) ∧
      (∀ op ∈ (ringbufInit size).trace RingOp.execute memory, op.Fits n 0) ∧
      ∀ call : RingCall, call.Valid →
        (ran.2.call (call.program started.1)).1 = (call.onQueue queue).1 ∧
        (ran.2.call (call.program started.1)).2.unread n =
          (call.onQueue queue).2.items ∧
        call.Frame n ran.2 (ran.2.call (call.program started.1)).2 ∧
        ∀ op ∈ (call.program started.1).trace RingOp.execute ran.2,
          op.Fits n call.bufLength := by
  intro started ran queue
  obtain ⟨startSized, startCarries, startFits⟩ :=
    ringbufInit_carries positive sized memory
  obtain ⟨values, carries⟩ :=
    RingCall.runAll_refines startCarries startSized small calls valid
  refine ⟨values, carries.unread, carries.positions.1, carries.positions.2, ?_,
    startFits, ?_⟩
  · have held : (ran.2.call (ringbufAvailableRead started.1)).1.toInt =
        queue.items.length := (carries.availableRead startSized small).1
    have room : (ran.2.call (ringbufAvailableWrite started.1)).1.toInt =
        queue.room := (carries.availableWrite startSized small).1
    have account := queue.room_add_length
    omega
  · intro call valid
    obtain ⟨value, after, frame, fits⟩ :=
      RingCall.program_refines carries startSized small call valid
    exact ⟨value, after.unread, frame, fits⟩

/-- Three bytes written into a ring of four cells, and two read back. -/
theorem ringbuf_refines_fifo_of_four :
    (RingCall.runAll (RingMemory.call ⟨0, 0, fun _ => 0⟩ (ringbufInit 12)).1
      [.write (fun offset => UInt8.ofNat offset) 3, .read (fun _ => 0) 2]
      (RingMemory.call ⟨0, 0, fun _ => 0⟩ (ringbufInit 12)).2).2.unread 4 =
        [2] :=
  (ringbuf_refines_fifo (by decide : 1 ≤ 4) (by decide)
    (by decide : (12 : UInt32).toNat = 4 + 8) ⟨0, 0, fun _ => 0⟩
    [.write (fun offset => UInt8.ofNat offset) 3, .read (fun _ => 0) 2]
    (by
      intro call member
      rcases List.mem_cons.mp member with rfl | member
      · exact (by decide : 0 ≤ (3 : Int32).toInt)
      · rw [List.mem_singleton.mp member]
        exact (by decide : 0 ≤ (2 : Int32).toInt))).2.1

end Quadcopter

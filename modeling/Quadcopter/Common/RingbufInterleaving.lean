import Quadcopter.Common.RingbufFifo

/-
One writing end and one reading end, interleaved operation by operation.

The ends share nothing but the memory.  The invariant pairs the memory with the
history that explains it; each end's unfinished call then still satisfies its
specification from there on, whatever the other end does in between.
-/

namespace Quadcopter

open AtomicProgram CircularWindow

structure WriteCall where
  buf : Buffer
  rest : RingProgram Int32

structure RingSystem where
  memory : RingMemory
  writer : Option WriteCall
  reader : Option (RingProgram (Int32 × Buffer))
  -- by the calls that have finished
  written : List UInt8
  returned : List UInt8

inductive RingMove where
  | callWrite (buf : Buffer) (count : Int32)
  | callRead (buf : Buffer) (count : Int32)
  -- the next operation of the call in progress, or its return
  | writer
  | reader

namespace RingSystem

def start (memory : RingMemory) : RingSystem :=
  { memory, writer := none, reader := none, written := [], returned := [] }

def move (rb : Ringbuf) (system : RingSystem) : RingMove → RingSystem
  | .callWrite buf count =>
      match system.writer with
      | none =>
          if 0 ≤ count.toInt then
            { system with writer := some ⟨buf, ringbufWrite rb buf count⟩ }
          else system
      | some _ => system
  | .callRead buf count =>
      match system.reader with
      | none =>
          if 0 ≤ count.toInt then
            { system with reader := some (ringbufRead rb buf count) }
          else system
      | some _ => system
  | .writer =>
      match system.writer with
      | none => system
      | some ⟨buf, .ret accepted⟩ =>
          { system with
            writer := none
            written := system.written ++ buf.first accepted.toInt.toNat }
      | some ⟨buf, .step op next⟩ =>
          { system with
            memory := (op.execute system.memory).2
            writer := some ⟨buf, next (op.execute system.memory).1⟩ }
  | .reader =>
      match system.reader with
      | none => system
      | some (.ret (count, buf)) =>
          { system with
            reader := none
            returned := system.returned ++ buf.first count.toInt.toNat }
      | some (.step op next) =>
          { system with
            memory := (op.execute system.memory).2
            reader := some (next (op.execute system.memory).1) }

def run (rb : Ringbuf) (system : RingSystem) (moves : List RingMove) :
    RingSystem :=
  moves.foldl (move rb) system

def accepted (system : RingSystem) : List UInt8 :=
  match system.writer with
  | some ⟨buf, .ret count⟩ => system.written ++ buf.first count.toInt.toNat
  | _ => system.written

def taken (system : RingSystem) : List UInt8 :=
  match system.reader with
  | some (.ret (count, buf)) =>
      system.returned ++ buf.first count.toInt.toNat
  | _ => system.returned

/-- The writer is between calls, or its call goes on as specified. -/
def WriterAt (n : Nat) (traffic : Traffic) (written : List UInt8) :
    Option WriteCall → Prop
  | none => traffic.published = written
  | some call => ∃ begun count, begun.published = written ∧
      Holds (Traffic.execute n) (Traffic.ReaderActs n)
        (WriterDoes n count written) (WriteDone n call.buf count begun)
        call.rest traffic

def ReaderAt (n : Nat) (rb : Ringbuf) (traffic : Traffic)
    (returned : List UInt8) : Option (RingProgram (Int32 × Buffer)) → Prop
  | none => traffic.released = returned.length
  | some call => ∃ begun original count, begun.released = returned.length ∧
      Holds (Traffic.execute n) (Traffic.WriterActs n)
        (ReaderDoes n count returned.length)
        (ReadDone n (Traffic.WriterActs n) rb original count begun)
        call traffic

structure Explained (n : Nat) (rb : Ringbuf) (system : RingSystem)
    (traffic : Traffic) : Prop where
  coherent : traffic.Coherent n
  memory : traffic.memory = system.memory
  returned : system.returned <+: traffic.published
  writer : WriterAt n traffic system.written system.writer
  reader : ReaderAt n rb traffic system.returned system.reader

variable {n : Nat} {rb : Ringbuf}

theorem WriterAt.after_reader {traffic later : Traffic} {written : List UInt8}
    {call : Option WriteCall} (at_ : WriterAt n traffic written call)
    (acted : Traffic.ReaderActs n traffic later)
    (published : later.published = traffic.published) :
    WriterAt n later written call := by
  cases call with
  | none => exact published.trans at_
  | some call =>
      obtain ⟨begun, count, same, holds⟩ := at_
      exact ⟨begun, count, same,
        holds.after_rely Traffic.ReaderActs.trans acted⟩

theorem ReaderAt.after_writer {traffic later : Traffic}
    {returned : List UInt8} {call : Option (RingProgram (Int32 × Buffer))}
    (at_ : ReaderAt n rb traffic returned call)
    (acted : Traffic.WriterActs n traffic later)
    (released : later.released = traffic.released) :
    ReaderAt n rb later returned call := by
  cases call with
  | none => exact released.trans at_
  | some call =>
      obtain ⟨begun, original, count, same, holds⟩ := at_
      exact ⟨begun, original, count, same,
        holds.after_rely Traffic.WriterActs.trans acted⟩

private theorem prefix_append_first {returned published : List UInt8}
    {buf : Buffer} {count : Nat} (before : returned <+: published)
    (fetched : ∀ offset, offset < count →
      published[returned.length + offset]? = some (buf offset)) :
    returned ++ buf.first count <+: published := by
  apply List.prefix_iff_getElem?.mpr
  intro position inside
  rw [List.length_append, Buffer.first_length] at inside
  by_cases old : position < returned.length
  · rw [List.getElem_append_left old]
    exact List.prefix_iff_getElem?.mp before position old
  · rw [List.getElem_append_right (by omega)]
    have found := fetched (position - returned.length) (by omega)
    rw [show returned.length + (position - returned.length) = position by
      omega] at found
    rw [found]
    simp [Buffer.first]

theorem Explained.accepted_eq {system : RingSystem} {traffic : Traffic}
    (explained : Explained n rb system traffic) :
    system.accepted = traffic.published := by
  have writer := explained.writer
  unfold accepted
  cases during : system.writer with
  | none =>
      rw [during] at writer
      exact writer.symm
  | some call =>
      obtain ⟨buf, rest⟩ := call
      rw [during] at writer
      obtain ⟨begun, count, same, holds⟩ := writer
      cases rest with
      | ret value =>
          have done := holds.post_now Traffic.ReaderActs.refl
          rw [done.published, same]
      | step op next =>
          exact (holds.during_next Traffic.ReaderActs.refl).1.waiting.symm

private theorem Explained.taken_prefix {system : RingSystem} {traffic : Traffic}
    (explained : Explained n rb system traffic) :
    system.taken <+: traffic.published ∧
      system.taken.length = traffic.released := by
  have reader := explained.reader
  unfold taken
  cases during : system.reader with
  | none =>
      rw [during] at reader
      exact ⟨explained.returned, reader.symm⟩
  | some rest =>
      rw [during] at reader
      obtain ⟨begun, original, count, same, holds⟩ := reader
      cases rest with
      | ret value =>
          obtain ⟨count, buf⟩ := value
          have done := holds.post_now Traffic.WriterActs.refl
          have fetched := done.fetched
          have released := done.released
          dsimp only at fetched released ⊢
          rw [same] at fetched released
          refine ⟨prefix_append_first explained.returned fetched, ?_⟩
          rw [released, List.length_append, Buffer.first_length]
      | step op next =>
          exact ⟨explained.returned,
            (holds.during_next Traffic.WriterActs.refl).1.waiting.symm⟩

private theorem Explained.accepted_split {system : RingSystem}
    {traffic : Traffic}
    (explained : Explained n rb system traffic) :
    system.accepted = system.taken ++ system.memory.unread n := by
  obtain ⟨front, length⟩ := explained.taken_prefix
  rw [← explained.memory, explained.coherent.unread_eq, ← length,
    explained.accepted_eq]
  conv_lhs => rw [← List.take_append_drop system.taken.length
    traffic.published]
  rw [← List.prefix_iff_eq_take.mp front]

private theorem Explained.callWrite (sized : rb.size.toNat = n)
    (small : n < 2 ^ 31)
    {system : RingSystem} {traffic : Traffic}
    (explained : Explained n rb system traffic) (buf : Buffer)
    (count : Int32) :
    Explained n rb (system.move rb (.callWrite buf count)) traffic := by
  have writer := explained.writer
  simp only [RingSystem.move]
  cases during : system.writer with
  | some call => exact explained
  | none =>
      rw [during] at writer
      by_cases nonneg : 0 ≤ count.toInt
      · simp only [if_pos nonneg]
        have holds := ringbufWrite_holds Traffic.ReaderActs.refl
          (fun _ _ acted => acted) sized small explained.coherent buf count
          nonneg
        rw [show traffic.published = system.written from writer] at holds
        exact ⟨explained.coherent, explained.memory, explained.returned,
          ⟨traffic, count.toInt.toNat, writer, holds⟩, explained.reader⟩
      · simp only [if_neg nonneg]
        exact explained

private theorem Explained.callRead (sized : rb.size.toNat = n)
    (small : n < 2 ^ 31)
    {system : RingSystem} {traffic : Traffic}
    (explained : Explained n rb system traffic) (buf : Buffer)
    (count : Int32) :
    Explained n rb (system.move rb (.callRead buf count)) traffic := by
  have reader := explained.reader
  simp only [RingSystem.move]
  cases during : system.reader with
  | some call => exact explained
  | none =>
      rw [during] at reader
      by_cases nonneg : 0 ≤ count.toInt
      · simp only [if_pos nonneg]
        have holds := ringbufRead_holds Traffic.WriterActs.refl
          (fun _ _ acted => acted) Traffic.WriterActs.trans small
          explained.coherent buf count nonneg (Nat.le_of_eq sized)
          (fun _ _ => Or.inl sized)
        rw [show traffic.released = system.returned.length from reader]
          at holds
        exact ⟨explained.coherent, explained.memory, explained.returned,
          explained.writer, ⟨traffic, buf, count.toInt.toNat, reader, holds⟩⟩
      · simp only [if_neg nonneg]
        exact explained

private theorem Explained.writerMoves {system : RingSystem} {traffic : Traffic}
    (explained : Explained n rb system traffic) :
    ∃ later, Explained n rb (system.move rb .writer) later := by
  have writer := explained.writer
  simp only [RingSystem.move]
  cases during : system.writer with
  | none => exact ⟨traffic, explained⟩
  | some call =>
      obtain ⟨buf, rest⟩ := call
      rw [during] at writer
      obtain ⟨begun, count, same, holds⟩ := writer
      cases rest with
      | ret value =>
          have done := holds.post_now Traffic.ReaderActs.refl
          refine ⟨traffic, explained.coherent, explained.memory,
            explained.returned, ?_, explained.reader⟩
          change traffic.published = _
          rw [done.published, same]
      | step op next =>
          obtain ⟨does, rest⟩ := holds.during_next Traffic.ReaderActs.refl
          obtain ⟨coherent, released, published⟩ :=
            does.acts explained.coherent
          dsimp only
          rw [← explained.memory]
          exact ⟨(Traffic.execute n op traffic).2, coherent, rfl,
            explained.returned.trans published, ⟨begun, count, same, rest⟩,
            explained.reader.after_writer does.acts released⟩

private theorem Explained.readerMoves {system : RingSystem} {traffic : Traffic}
    (explained : Explained n rb system traffic) :
    ∃ later, Explained n rb (system.move rb .reader) later := by
  have reader := explained.reader
  obtain ⟨front, length⟩ := explained.taken_prefix
  unfold taken at front length
  simp only [RingSystem.move]
  cases during : system.reader with
  | none => exact ⟨traffic, explained⟩
  | some rest =>
      rw [during] at reader front length
      obtain ⟨begun, original, count, same, holds⟩ := reader
      cases rest with
      | ret value =>
          exact ⟨traffic, explained.coherent, explained.memory, front,
            explained.writer, length.symm⟩
      | step op next =>
          obtain ⟨does, rest⟩ := holds.during_next Traffic.WriterActs.refl
          obtain ⟨coherent, published, data, released⟩ :=
            does.acts explained.coherent
          dsimp only
          rw [← explained.memory]
          refine ⟨(Traffic.execute n op traffic).2, coherent, rfl, ?_,
            explained.writer.after_reader does.acts published,
            ⟨begun, original, count, same, rest⟩⟩
          rw [published]
          exact explained.returned

theorem Explained.move (sized : rb.size.toNat = n) (small : n < 2 ^ 31)
    {system : RingSystem} {traffic : Traffic}
    (explained : Explained n rb system traffic) (next : RingMove) :
    ∃ later, Explained n rb (system.move rb next) later := by
  cases next with
  | callWrite buf count =>
      exact ⟨traffic, explained.callWrite sized small buf count⟩
  | callRead buf count =>
      exact ⟨traffic, explained.callRead sized small buf count⟩
  | writer => exact explained.writerMoves
  | reader => exact explained.readerMoves

theorem Explained.run (sized : rb.size.toNat = n) (small : n < 2 ^ 31)
    {system : RingSystem} {traffic : Traffic}
    (explained : Explained n rb system traffic) (moves : List RingMove) :
    ∃ later, Explained n rb (system.run rb moves) later := by
  induction moves generalizing system traffic with
  | nil => exact ⟨traffic, explained⟩
  | cons next moves ih =>
      obtain ⟨later, explained⟩ := explained.move sized small next
      exact ih explained

private theorem Explained.of_init (positive : 1 ≤ n) (size : UInt32)
    (memory : RingMemory) :
    Explained n rb (start (memory.call (ringbufInit size)).2)
      ⟨(memory.call (ringbufInit size)).2, [], 0⟩ :=
  ⟨ringbufInit_coherent positive size memory, rfl, List.prefix_rfl, rfl, rfl⟩

/-- A copy of the writer avoids what is published and not yet released. -/
theorem Explained.copy_spares {system : RingSystem} {traffic : Traffic}
    (explained : Explained n rb system traffic) {buf : Buffer}
    {cell offset : Nat} {byte : UInt8} {next : Unit → RingProgram Int32}
    (copying : system.writer = some ⟨buf, .step (.copyTo cell offset byte) next⟩) :
    cell ∉ system.memory.unreadCells n := by
  have writer := explained.writer
  rw [copying] at writer
  obtain ⟨begun, count, same, holds⟩ := writer
  rw [← explained.memory]
  exact (holds.during_next Traffic.ReaderActs.refl).1.spares cell offset byte
    rfl

end RingSystem

/-- In every state that the two ends reach together, what the reader took and
what is still unread make up what the writer's calls accepted. -/
theorem ringbuf_interleaving_faithful {n : Nat} (positive : 1 ≤ n)
    (small : n < 2 ^ 31) {size : UInt32} (sized : size.toNat = n + 8)
    (memory : RingMemory) (moves : List RingMove) :
    let started := memory.call (ringbufInit size)
    let system := (RingSystem.start started.2).run started.1 moves
    system.returned <+: system.accepted ∧
      system.accepted = system.taken ++ system.memory.unread n ∧
      ∀ buf cell offset byte next,
        system.writer =
            some ⟨buf, .step (RingOp.copyTo cell offset byte) next⟩ →
          cell ∉ system.memory.unreadCells n := by
  intro started system
  have startSized := (ringbufInit_carries positive sized memory).1
  have begun : RingSystem.Explained n started.1 (RingSystem.start started.2)
      ⟨started.2, [], 0⟩ := RingSystem.Explained.of_init positive size memory
  obtain ⟨traffic, explained⟩ := begun.run startSized small moves
  refine ⟨?_, explained.accepted_split, ?_⟩
  · rw [explained.accepted_eq]
    exact explained.returned
  · intro buf cell offset byte next copying
    exact explained.copy_spares copying

/-- A read runs between the copies of a second write. -/
theorem ringbuf_interleaving_faithful_of_two :
    let started := RingMemory.call ⟨0, 0, fun _ => 0⟩ (ringbufInit 12)
    let system := (RingSystem.start started.2).run started.1
      ([.callWrite (fun _ => 7) 1] ++ List.replicate 7 .writer ++
        [.callWrite (fun _ => 8) 2, .callRead (fun _ => 0) 1] ++
        List.replicate 7 .writer ++ List.replicate 7 .reader)
    system.returned = [7] ∧ system.returned <+: system.accepted := by
  intro started system
  refine ⟨by decide +kernel, ?_⟩
  exact (ringbuf_interleaving_faithful (by decide : 1 ≤ 4) (by decide)
    (by decide : (12 : UInt32).toNat = 4 + 8) ⟨0, 0, fun _ => 0⟩ _).1

end Quadcopter

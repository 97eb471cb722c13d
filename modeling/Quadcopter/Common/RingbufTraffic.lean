import Quadcopter.Common.Ringbuf
import Quadcopter.Library.MachineInt

/-
What each ring buffer call does to the stream that passes through the ring.

The memory is paired with its history: the bytes that stores of `*write_pos` have
made readable and how many of them stores of `*read_pos` have released.  A call is
specified against the other end taking any step allowed to it at any point, so
one specification serves calls that run alone and calls that interleave.
-/

namespace Quadcopter

open AtomicProgram CircularWindow

structure Traffic where
  memory : RingMemory
  published : List UInt8
  released : Nat

def RingOp.publishes (size : Nat) (memory : RingMemory) : RingOp → List UInt8
  | .storeWritePos value =>
      window memory.data size memory.writePos.toNat
        ((value.toNat + size - memory.writePos.toNat) % size)
  | _ => []

def RingOp.releases (size : Nat) (memory : RingMemory) : RingOp → Nat
  | .storeReadPos value =>
      (value.toNat + size - memory.readPos.toNat) % size
  | _ => 0

def Traffic.execute (size : Nat) (op : RingOp) (traffic : Traffic) :
    op.Answer × Traffic :=
  ((op.execute traffic.memory).1,
    { memory := (op.execute traffic.memory).2
      published := traffic.published ++ op.publishes size traffic.memory
      released := traffic.released + op.releases size traffic.memory })

/-- The indices are the published and the released counts modulo the size, and
the cells between them hold the stream. -/
structure Traffic.Coherent (size : Nat) (traffic : Traffic) : Prop where
  writePos : traffic.memory.writePos.toNat = traffic.published.length % size
  readPos : traffic.memory.readPos.toNat = traffic.released % size
  released_le : traffic.released ≤ traffic.published.length
  fits : traffic.published.length < traffic.released + size
  cells : ∀ position, traffic.released ≤ position →
    position < traffic.published.length →
    traffic.published[position]? =
      some (traffic.memory.data (position % size))

namespace Traffic

variable {size : Nat} {traffic : Traffic}

theorem Coherent.size_pos (coherent : traffic.Coherent size) : 0 < size := by
  have bound := coherent.fits
  have order := coherent.released_le
  omega

/-- The three orders of the two indices, told by the distance between them. -/
theorem Coherent.index_cases (coherent : traffic.Coherent size) :
    traffic.memory.readPos.toNat < size ∧
    (traffic.memory.writePos.toNat =
        traffic.memory.readPos.toNat +
          (traffic.published.length - traffic.released) ∨
      traffic.memory.writePos.toNat + size =
        traffic.memory.readPos.toNat +
          (traffic.published.length - traffic.released)) ∧
    traffic.memory.writePos.toNat < size := by
  have positive := coherent.size_pos
  have order := coherent.released_le
  have bound := coherent.fits
  have sum : traffic.released +
      (traffic.published.length - traffic.released) =
        traffic.published.length := by omega
  have short : traffic.published.length - traffic.released < size := by omega
  have split := add_mod_cases traffic.released
    (traffic.published.length - traffic.released) short
  rw [sum, ← coherent.readPos, ← coherent.writePos] at split
  have readBound : traffic.memory.readPos.toNat < size := by
    rw [coherent.readPos]
    exact Nat.mod_lt _ positive
  omega

theorem Coherent.held_eq (coherent : traffic.Coherent size) :
    traffic.memory.held size =
      traffic.published.length - traffic.released := by
  have order := coherent.released_le
  have bound := coherent.fits
  have short : traffic.published.length - traffic.released < size := by omega
  have far := distance_eq traffic.released
    (traffic.published.length - traffic.released) short
  have sum : traffic.released +
      (traffic.published.length - traffic.released) =
        traffic.published.length := by omega
  rw [sum, ← coherent.readPos, ← coherent.writePos] at far
  exact far

theorem Coherent.unread_eq (coherent : traffic.Coherent size) :
    traffic.memory.unread size =
      traffic.published.drop traffic.released := by
  unfold RingMemory.unread
  rw [coherent.held_eq, coherent.readPos, window_mod_start]
  apply window_of_getElem? List.length_drop
  intro offset inside
  rw [List.getElem?_drop]
  exact coherent.cells _ (Nat.le_add_right _ _) (by omega)

theorem Coherent.mem_unreadCells (coherent : traffic.Coherent size)
    {cell : Nat} (member : cell ∈ traffic.memory.unreadCells size) :
    ∃ position, traffic.released ≤ position ∧
      position < traffic.published.length ∧ cell = position % size := by
  unfold RingMemory.unreadCells at member
  rw [coherent.held_eq, coherent.readPos] at member
  obtain ⟨offset, inside, same⟩ := List.mem_map.mp member
  have bound := List.mem_range.mp inside
  rw [Nat.mod_add_mod] at same
  exact ⟨traffic.released + offset, by omega, by omega, same.symm⟩

/-- The reading end only moves `*read_pos`, over published bytes. -/
def ReaderActs (size : Nat) (traffic later : Traffic) : Prop :=
  traffic.Coherent size →
    later.Coherent size ∧ later.published = traffic.published ∧
      later.memory.data = traffic.memory.data ∧
      traffic.released ≤ later.released

/-- The writing end only publishes more, and keeps what is unread. -/
def WriterActs (size : Nat) (traffic later : Traffic) : Prop :=
  traffic.Coherent size →
    later.Coherent size ∧ later.released = traffic.released ∧
      traffic.published <+: later.published

theorem ReaderActs.refl (traffic : Traffic) :
    ReaderActs size traffic traffic :=
  fun coherent => ⟨coherent, rfl, rfl, Nat.le_refl _⟩

theorem ReaderActs.trans (first second third : Traffic)
    (before : ReaderActs size first second)
    (after : ReaderActs size second third) : ReaderActs size first third := by
  intro coherent
  obtain ⟨coherent, published, data, released⟩ := before coherent
  obtain ⟨coherent, published', data', released'⟩ := after coherent
  exact ⟨coherent, published'.trans published, data'.trans data,
    Nat.le_trans released released'⟩

theorem WriterActs.refl (traffic : Traffic) :
    WriterActs size traffic traffic :=
  fun coherent => ⟨coherent, rfl, List.prefix_rfl⟩

theorem WriterActs.trans (first second third : Traffic)
    (before : WriterActs size first second)
    (after : WriterActs size second third) : WriterActs size first third := by
  intro coherent
  obtain ⟨coherent, released, published⟩ := before coherent
  obtain ⟨coherent, released', published'⟩ := after coherent
  exact ⟨coherent, released'.trans released, published.trans published'⟩

theorem Coherent.copyTo (coherent : traffic.Coherent size) (position : Nat)
    (free : traffic.published.length ≤ position)
    (room : position < traffic.released + size) (offset : Nat)
    (byte : UInt8) :
    (Traffic.execute size (.copyTo (position % size) offset byte)
      traffic).2.Coherent size := by
  have same : (Traffic.execute size (.copyTo (position % size) offset byte)
      traffic).2 =
    { traffic with
      memory := { traffic.memory with
        data := Function.update traffic.memory.data (position % size) byte } } := by
    simp [Traffic.execute, RingOp.execute, RingOp.publishes, RingOp.releases]
  rw [same]
  refine ⟨coherent.writePos, coherent.readPos, coherent.released_le,
    coherent.fits, ?_⟩
  intro other unreleased readable
  change traffic.released ≤ other at unreleased
  change other < traffic.published.length at readable
  have apart : other % size ≠ position % size :=
    cell_ne (by omega) (by omega)
  change traffic.published[other]? =
    some (Function.update traffic.memory.data (position % size) byte
      (other % size))
  rw [Function.update_of_ne apart]
  exact coherent.cells other unreleased readable

theorem Coherent.storeWritePos (coherent : traffic.Coherent size)
    (value : UInt32) (count : Nat)
    (advanced : value.toNat = (traffic.published.length + count) % size)
    (room : traffic.published.length + count < traffic.released + size) :
    (Traffic.execute size (.storeWritePos value) traffic).2.Coherent size ∧
      (Traffic.execute size (.storeWritePos value) traffic).2.published =
        traffic.published ++
          window traffic.memory.data size traffic.published.length count := by
  have order := coherent.released_le
  have distance : (value.toNat + size - traffic.memory.writePos.toNat) % size =
      count := by
    rw [advanced, coherent.writePos]
    exact distance_eq _ _ (by omega)
  have published : traffic.published ++
      RingOp.publishes size traffic.memory (.storeWritePos value) =
      traffic.published ++
        window traffic.memory.data size traffic.published.length count := by
    simp only [RingOp.publishes]
    rw [distance, coherent.writePos, window_mod_start]
  refine ⟨⟨?_, ?_, ?_, ?_, ?_⟩, published⟩
  · simp only [Traffic.execute, published, RingOp.execute, List.length_append,
      window_length]
    exact advanced
  · exact coherent.readPos
  · simp only [Traffic.execute, published, RingOp.releases, List.length_append,
      window_length]
    omega
  · simp only [Traffic.execute, published, RingOp.releases, List.length_append,
      window_length]
    omega
  · simp only [Traffic.execute, published, RingOp.releases, RingOp.execute,
      List.length_append, window_length, Nat.add_zero]
    intro position unreleased readable
    by_cases old : position < traffic.published.length
    · rw [List.getElem?_append_left old]
      exact coherent.cells position unreleased old
    · rw [List.getElem?_append_right (by omega),
        window_getElem? _ _ _ _ _ (by omega)]
      congr 3
      omega

theorem Coherent.storeReadPos (coherent : traffic.Coherent size)
    (value : UInt32) (count : Nat)
    (advanced : value.toNat = (traffic.released + count) % size)
    (available : traffic.released + count ≤ traffic.published.length) :
    (Traffic.execute size (.storeReadPos value) traffic).2.Coherent size ∧
      (Traffic.execute size (.storeReadPos value) traffic).2.released =
        traffic.released + count := by
  have bound := coherent.fits
  have distance : (value.toNat + size - traffic.memory.readPos.toNat) % size =
      count := by
    rw [advanced, coherent.readPos]
    exact distance_eq _ _ (by omega)
  have released : traffic.released +
      RingOp.releases size traffic.memory (.storeReadPos value) =
      traffic.released + count := by
    simp only [RingOp.releases]
    rw [distance]
  refine ⟨⟨?_, ?_, ?_, ?_, ?_⟩, released⟩
  · simp only [Traffic.execute, RingOp.execute, RingOp.publishes,
      List.append_nil]
    exact coherent.writePos
  · simp only [Traffic.execute, released, RingOp.execute]
    exact advanced
  · simp only [Traffic.execute, released, RingOp.publishes, List.append_nil]
    exact available
  · simp only [Traffic.execute, released, RingOp.publishes, List.append_nil]
    omega
  · simp only [Traffic.execute, released, RingOp.execute, RingOp.publishes,
      List.append_nil]
    intro position unreleased readable
    exact coherent.cells position (by omega) readable

end Traffic

end Quadcopter

import Quadcopter.Common.Memory
import Quadcopter.Common.RingbufRacedRead

/-
What the rings hold when the m3 has restarted under a call of the host.

A write publishes the position after its bytes, a read releases the one after
those it took.  If ringbuf_init has stored 0 in between, the position belongs to
the old traffic, and the cells before it or after it hold old bytes.
-/

namespace Quadcopter

open AtomicProgram CircularWindow

namespace Restart

section Calls

variable {n : Nat} {rb : Ringbuf} {memory : RingMemory}

/-- The bytes of the buffer lie in the cells from the loaded `*write_pos` on. -/
def WriteAccount (n : Nat) (buf : Buffer) (start : RingMemory)
    (copied : UInt32 × Int32) (data : Buffer) : Prop :=
  (0 ≤ copied.2.toInt ∧ copied.2.toInt < n) ∧
    copied.1.toNat = (start.writePos.toNat + copied.2.toInt.toNat) % n ∧
    ∀ offset, offset < copied.2.toInt.toNat →
      data ((start.writePos.toNat + offset) % n) = buf offset

private theorem hostWrite_meets (sized : rb.size.toNat = n) (small : n < 2 ^ 31)
    (positive : 0 < n) (buf : Buffer) {count : Int32}
    (nonneg : 0 ≤ count.toInt) :
    Meets (hostWrite rb buf count) n (WriteAccount n buf) := by
  intro start inside
  refine Holds.weaken ?_ (@writeFrom_disturbed n Disturbs Disturbs.refl
    (fun done traffic => Inside n traffic.memory ∧
      ∀ offset, offset < done →
        traffic.memory.data ((start.writePos.toNat + offset) % n) =
          buf offset)
    ?_ (fun _ kept => ⟨kept.1 .write, kept.1 .read⟩) rb sized small buf count
    nonneg start.writePos (inside .write) ?_ _
    ⟨inside, fun _ none_left => absurd none_left (Nat.not_lt_zero _)⟩)
  · intro copied later ready
    obtain ⟨indices, _, value⟩ := ready.value
    refine ⟨?_, ⟨by omega, by omega⟩, ready.position, ready.contents.2⟩
    change copied.1.toNat < n
    rw [ready.position]
    exact Nat.mod_lt _ positive
  · intro done traffic later kept moved
    exact ⟨kept.1.disturbed moved, moved.1 ▸ kept.2⟩
  · intro done traffic room kept
    refine ⟨kept.1.quiet (trivial : RingOp.Quiet (.copyTo _ done (buf done))),
      ?_⟩
    intro offset old
    change Function.update traffic.memory.data
      ((start.writePos.toNat + done) % n) (buf done)
      ((start.writePos.toNat + offset) % n) = buf offset
    rcases Nat.lt_or_eq_of_le (Nat.le_of_lt_succ old) with earlier | rfl
    · rw [Function.update_of_ne (cell_ne (by omega) (by omega))]
      exact kept.2 offset earlier
    · exact Function.update_self _ _ _

/-- A read that finds both indices 0 takes nothing. -/
def ReadAccount (n : Nat) (start : RingMemory)
    (copied : UInt32 × Int32 × Buffer) (_ : Buffer) : Prop :=
  copied.1.toNat = (start.readPos.toNat + copied.2.1.toInt.toNat) % n ∧
    (start.writePos = 0 → start.readPos = 0 → copied.2.1.toInt = 0)

private theorem hostRead_meets (sized : rb.size.toNat = n) (small : n < 2 ^ 31)
    (positive : 0 < n) (buf : Buffer) {count : Int32}
    (nonneg : 0 ≤ count.toInt) :
    Meets (hostRead rb buf count) n (ReadAccount n) := by
  intro start inside
  refine Holds.weaken ?_ (@readFrom_disturbed n Disturbs Disturbs.refl
    (fun _ traffic => Inside n traffic.memory ∧
      ∀ index : Index, index.of start = 0 → index.of traffic.memory = 0)
    ?_ (fun _ kept => ⟨kept.1 .write, kept.1 .read⟩) rb sized small buf count
    nonneg start.readPos (inside .read) _ ⟨inside, fun _ zero => zero⟩)
  · intro copied later ready
    refine ⟨?_, ready.position, ?_⟩
    · change copied.1.toNat < n
      rw [ready.position]
      exact Nat.mod_lt _ positive
    · intro writeZero readZero
      obtain ⟨indices, seen, value⟩ := ready.value
      obtain ⟨writing, writeKept, sameWrite⟩ := seen.writePos
      obtain ⟨reading, readKept, sameRead⟩ := seen.readPos
      have write : indices.writePos = 0 :=
        sameWrite.symm.trans (writeKept.2 .write writeZero)
      have read : indices.readPos = 0 :=
        sameRead.symm.trans (readKept.2 .read readZero)
      rw [value, write, read]
      simp [Ringbuf.heldBetween]
  · intro done traffic later kept moved
    refine ⟨kept.1.disturbed moved, ?_⟩
    intro index zero
    rcases moved.2 index with same | zero'
    · exact same.trans (kept.2 index zero)
    · exact zero'

/-- The ring holds nothing but bytes of this write: any number of calls from
here on delivers only them and what is written later. -/
def OnlyFrom (n : Nat) (sent : List UInt8) (memory : RingMemory) : Prop :=
  ∃ queue : BoundedFifo UInt8 (n - 1),
    memory.Carries n queue ∧ queue.items <:+: sent

private theorem window_zero {after : RingMemory} (inside : Inside n after)
    (readZero : after.readPos = 0) :
    after.unread n = window after.data n 0 after.writePos.toNat := by
  have bound : after.writePos.toNat < n := inside .write
  unfold RingMemory.unread RingMemory.held
  rw [readZero]
  change window after.data n 0 ((after.writePos.toNat + n - 0) % n) = _
  rw [Nat.sub_zero, Nat.add_mod_right, Nat.mod_eq_of_lt bound]

private theorem OnlyFrom.of_window {after : RingMemory} {sent : List UInt8}
    (inside : Inside n after) (readZero : after.readPos = 0)
    (piece : window after.data n 0 after.writePos.toNat <:+: sent) :
    OnlyFrom n sent after := by
  obtain ⟨queue, carries, items⟩ :=
    RingMemory.Carries.of_positions (inside .write) (inside .read)
  refine ⟨queue, carries, ?_⟩
  rw [items, window_zero inside readZero]
  exact piece

private theorem OnlyFrom.of_account {after : RingMemory} {buf : Buffer}
    {start : RingMemory} {copied : UInt32 × Int32} (inside : Inside n after)
    (readZero : after.readPos = 0) (within : start.writePos.toNat < n)
    (position : after.writePos = copied.1)
    (told : WriteAccount n buf start copied after.data)
    (fresh : start.writePos.toNat = 0 ∨
      n ≤ start.writePos.toNat + copied.2.toInt.toNat) :
    OnlyFrom n (buf.first copied.2.toInt.toNat) after := by
  obtain ⟨⟨nonneg, short⟩, moved, cells⟩ := told
  generalize start.writePos = loaded at within moved cells fresh
  generalize hCount : copied.2.toInt.toNat = count at moved cells fresh ⊢
  have positions := add_mod_cases loaded.toNat count (by omega : count < n)
  rw [Nat.mod_eq_of_lt within] at positions
  apply OnlyFrom.of_window inside readZero
  rw [position, moved]
  have suffix : window after.data n 0 ((loaded.toNat + count) % n) =
      (buf.first count).drop (count - (loaded.toNat + count) % n) := by
    apply window_of_getElem?
    · rw [List.length_drop, Buffer.first_length]
      omega
    · intro offset inside
      have cell := cells (count - (loaded.toNat + count) % n + offset)
        (by omega)
      have start : (loaded.toNat +
          (count - (loaded.toNat + count) % n + offset)) % n = offset := by
        rcases fresh with zero | wraps
        · rw [Nat.mod_eq_of_lt (by omega)]
          omega
        · rw [show loaded.toNat + (count - (loaded.toNat + count) % n + offset) =
            offset + n by omega, Nat.add_mod_right,
            Nat.mod_eq_of_lt (by omega)]
      have in_ring : (0 + offset) % n = offset := by
        rw [Nat.zero_add, Nat.mod_eq_of_lt (by omega)]
      rw [start] at cell
      rw [List.getElem?_drop, Buffer.first_getElem? _ (by omega), in_ring, cell]
  rw [suffix]
  exact (List.drop_suffix _ _).isInfix

theorem OnlyFrom.length_le {after : RingMemory} {sent : List UInt8}
    (only : OnlyFrom n sent after) (inside : Inside n after)
    (readZero : after.readPos = 0) :
    after.writePos.toNat ≤ sent.length := by
  obtain ⟨queue, carries, piece⟩ := only
  have length := congrArg List.length (window_zero inside readZero)
  rw [carries.unread, window_length] at length
  rw [← length]
  exact piece.length_le

private theorem OnlyFrom.of_reset {after : RingMemory} (inside : Inside n after)
    (readZero : after.readPos = 0) (writeZero : after.writePos = 0)
    (sent : List UInt8) : OnlyFrom n sent after := by
  apply OnlyFrom.of_window inside readZero
  rw [writeZero]
  exact (List.nil_prefix).isInfix

private theorem hostWrite_published {buf : Buffer} {count accepted : Int32}
    {start now : RingMemory} {program : RingProgram Int32}
    (published : Published (hostWrite rb buf count) (WriteAccount n buf) start
      program now)
    (returned : program = .ret accepted) :
    ∃ copied : UInt32 × Int32, accepted = copied.2 ∧ now.writePos = copied.1 ∧
      WriteAccount n buf start copied now.data := by
  obtain ⟨copied, returns, position, told⟩ := published
  cases returned.symm.trans returns
  exact ⟨copied, rfl, position, told⟩

private theorem hostRead_published {buf : Buffer} {count : Int32}
    {result : Int32 × Buffer} {start now : RingMemory}
    {program : RingProgram (Int32 × Buffer)}
    (published : Published (hostRead rb buf count) (ReadAccount n) start
      program now)
    (returned : program = .ret result) :
    ∃ copied : UInt32 × Int32 × Buffer, result = copied.2 ∧
      now.readPos = copied.1 ∧ ReadAccount n start copied now.data := by
  obtain ⟨copied, returns, position, told⟩ := published
  cases returned.symm.trans returns
  exact ⟨copied, rfl, position, told⟩

private theorem write_ended {buf : Buffer} {count : Int32} {size : UInt32}
    {system : System Int32} {accepted : Int32} {m3Ring : Ringbuf}
    (within : memory.writePos.toNat < n)
    (racing : Racing (hostWrite rb buf count) n (WriteAccount n buf) memory
      size system)
    (hostReturned : system.program .left = .ret accepted)
    (initReturned : system.program .right = .ret m3Ring) :
    OnlyFrom n (buf.first accepted.toInt.toNat) system.state ↔
      ¬ (Straddles .left system.log .right (.storeWritePos 0) ∧
        0 < memory.writePos.toNat ∧
        memory.writePos.toNat + accepted.toInt.toNat < n) := by
  obtain ⟨inside, readZero, ended⟩ := racing.ended hostReturned initReturned
  change system.state.readPos = 0 at readZero
  cases ended with
  | across start published loaded straddles =>
      obtain ⟨copied, rfl, position, told⟩ :=
        hostWrite_published published hostReturned
      change start.writePos = memory.writePos at loaded
      rw [← loaded] at within ⊢
      constructor
      · intro only ⟨_, some_old, unwrapped⟩
        have bound := only.length_le inside readZero
        rw [Buffer.first_length, position, told.2.1,
          Nat.mod_eq_of_lt unwrapped] at bound
        omega
      · intro spared
        apply OnlyFrom.of_account inside readZero within position told
        by_cases none_old : start.writePos.toNat = 0
        · exact Or.inl none_old
        · exact Or.inr (Nat.le_of_not_lt (fun unwrapped =>
            spared ⟨straddles, Nat.pos_of_ne_zero none_old, unwrapped⟩))
  | after start published zero _ apart =>
      obtain ⟨copied, rfl, position, told⟩ :=
        hostWrite_published published hostReturned
      have started : start.writePos.toNat = 0 := congrArg UInt32.toNat zero
      exact ⟨fun _ crossed => apart crossed.1, fun _ =>
        OnlyFrom.of_account inside readZero (by omega) position told
          (Or.inl started)⟩
  | before reset apart =>
      exact ⟨fun _ crossed => apart crossed.1, fun _ =>
        OnlyFrom.of_reset inside readZero reset _⟩

private theorem read_ended {buf : Buffer} {count : Int32} {size : UInt32}
    {system : System (Int32 × Buffer)} {result : Int32 × Buffer}
    {m3Ring : Ringbuf}
    (racing : Racing (hostRead rb buf count) n (ReadAccount n) memory size
      system)
    (hostReturned : system.program .left = .ret result)
    (initReturned : system.program .right = .ret m3Ring) :
    OnlyFrom n [] system.state ↔
      ¬ (Straddles .left system.log .right (.storeReadPos 0) ∧
        (memory.readPos.toNat + result.1.toInt.toNat) % n ≠ 0) := by
  obtain ⟨inside, writeZero, ended⟩ := racing.ended hostReturned initReturned
  change system.state.writePos = 0 at writeZero
  have bound : system.state.readPos.toNat < n := inside .read
  cases ended with
  | across start published loaded straddles =>
      obtain ⟨copied, rfl, position, moved, _⟩ :=
        hostRead_published published hostReturned
      change start.readPos = memory.readPos at loaded
      rw [← loaded, ← moved, ← position]
      constructor
      · intro ⟨queue, carries, piece⟩ ⟨_, left_over⟩
        have held := carries.held
        rw [List.eq_nil_of_infix_nil piece] at held
        unfold RingMemory.held at held
        rw [writeZero, show (0 : UInt32).toNat = 0 from rfl, Nat.zero_add,
          Nat.mod_eq_of_lt (by omega), List.length_nil] at held
        omega
      · intro spared
        have readZero : system.state.readPos = 0 := by
          by_contra left_over
          exact spared ⟨straddles, fun zero =>
            left_over (UInt32.toNat_inj.mp zero)⟩
        exact OnlyFrom.of_reset inside readZero writeZero []
  | after start published zero foreign apart =>
      obtain ⟨copied, _, position, moved, nothing⟩ :=
        hostRead_published published hostReturned
      have started : start.readPos.toNat = 0 := congrArg UInt32.toNat zero
      have taken := nothing (foreign (Nat.lt_succ_self 1)) zero
      have readZero : system.state.readPos = 0 := by
        apply UInt32.toNat_inj.mp
        rw [position, moved, started, taken]
        exact Nat.zero_mod n
      exact ⟨fun _ crossed => apart crossed.1, fun _ =>
        OnlyFrom.of_reset inside readZero writeZero []⟩
  | before reset apart =>
      exact ⟨fun _ crossed => apart crossed.1, fun _ =>
        OnlyFrom.of_reset inside reset writeZero []⟩

end Calls

end Restart

end Quadcopter

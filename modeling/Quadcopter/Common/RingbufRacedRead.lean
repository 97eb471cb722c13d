import Quadcopter.Common.RingbufFifo
import Quadcopter.Common.RingbufIndexRace

/-
What a ringbuf_read returns whose ring ringbuf_init sets to 0 at the same time.

The call loads *read_pos, *write_pos and *read_pos again, and then does nothing but
copy.  So what it returns is settled by which of the three loads come before the
stores of ringbuf_init, and after which.
-/

namespace Quadcopter

open AtomicProgram CircularWindow

def RingOp.Copies : RingOp → Prop
  | .copyFrom _ _ => True
  | .sub _ _ => True
  | _ => False

def availableBetween (rb : Ringbuf) (writeTmp readTmp : UInt32) :
    RingProgram Int32 :=
  if writeTmp > readTmp then do
    let held ← subU32 writeTmp readTmp
    return held.toInt32
  else if writeTmp < readTmp then do
    let gap ← subU32 readTmp writeTmp
    let held ← subU32 rb.size gap
    return held.toInt32
  else
    return 0

/-- ringbuf_read between its last load and its store: `start` is the index that
it loaded first. -/
def copyOut (rb : Ringbuf) (buf : Buffer) (count : Int32)
    (start writeTmp readTmp : UInt32) :
    RingProgram (UInt32 × Int32 × Buffer) := do
  let avail ← availableBetween rb writeTmp readTmp
  let count := capped count avail
  let (buf, readTmp) ← splitCopy rb start count
    (fun cell offset length buf => memcpyFromio buf offset cell length) buf
  return (readTmp, count, buf)

private theorem ringbufRead_loads (rb : Ringbuf) (buf : Buffer)
    (count : Int32) :
    ringbufRead rb buf count =
      .step .loadReadPos (fun start =>
        .step .loadWritePos (fun writeTmp =>
          .step .loadReadPos (fun readTmp =>
            copyOut rb buf count start writeTmp readTmp >>= release))) := by
  rw [ringbufRead_eq]
  congr 1

namespace Restart

structure Returns (n : Nat) (data : Buffer) (count : Int32)
    (start writeTmp readTmp : UInt32) (taken : Int32) (buf : Buffer) :
    Prop where
  value : taken.toInt = ((min count.toInt.toNat
    (RingMemory.held ⟨writeTmp, readTmp, data⟩ n) : Nat) : Int)
  bytes : buf.first taken.toInt.toNat =
    window data n start.toNat taken.toInt.toNat

section Copy

variable {n : Nat} {rb : Ringbuf} {data : Buffer} {count : Int32}
  {start writeTmp readTmp : UInt32}

private theorem heldBetween_held (sized : rb.size.toNat = n)
    (writeBound : writeTmp.toNat < n) (readBound : readTmp.toNat < n) :
    rb.heldBetween writeTmp.toNat readTmp.toNat =
      RingMemory.held ⟨writeTmp, readTmp, data⟩ n := by
  have apart := apart_of_lt writeBound readBound
  have short : (writeTmp.toNat + n - readTmp.toNat) % n < n :=
    Nat.mod_lt _ (by omega)
  unfold Ringbuf.heldBetween RingMemory.held
  rw [sized]
  dsimp only
  split
  · omega
  · split <;> omega

private theorem copyOut_holds (sized : rb.size.toNat = n) (small : n < 2 ^ 31)
    (buf : Buffer) (nonneg : 0 ≤ count.toInt) (startBound : start.toNat < n)
    (writeBound : writeTmp.toNat < n) (readBound : readTmp.toNat < n)
    {traffic : Traffic} (initially : traffic.memory.data = data) :
    Holds (Traffic.execute n) Disturbs (fun _ op => RingOp.Copies op)
      (fun copied _ =>
        Returns n data count start writeTmp readTmp copied.2.1 copied.2.2)
      (copyOut rb buf count start writeTmp readTmp) traffic := by
  have lasts : ∀ done (copied : Buffer),
      Lasts Disturbs (fun _ op => RingOp.Copies op)
        (fun traffic => traffic.memory.data = data ∧ ∀ offset, offset < done →
          copied offset = data ((start.toNat + offset) % n)) :=
    fun done copied =>
      { stable := fun _ _ now moved => ⟨moved.1.trans now.1, now.2⟩
        subtracts := fun _ _ _ _ _ => trivial }
  unfold copyOut availableBetween
  simp only [Program.pure_eq]
  apply Holds.bind ((lasts 0 buf).heldBetween
    ⟨initially, fun _ none => absurd none (Nat.not_lt_zero _)⟩ (by omega)
    (by omega) (by omega)) Disturbs.refl
  intro avail current ⟨value, now⟩
  rw [@heldBetween_held n rb data writeTmp readTmp sized writeBound readBound]
    at value
  have short : RingMemory.held ⟨writeTmp, readTmp, data⟩ n < n :=
    Nat.mod_lt _ (by omega)
  generalize hTotal : min count.toInt.toNat
    (RingMemory.held ⟨writeTmp, readTmp, data⟩ n) = total
  have counted : (capped count avail).toInt = total := by
    rw [capped_toInt, value]
    omega
  have copy := splitCopy_holds lasts
    (memcpyFromio_lasts lasts
      (fun cell done copied traffic inside next left now => by
        refine ⟨trivial, now.1, ?_⟩
        intro offset old
        rw [Nat.mod_eq_of_lt inside] at next
        rcases Nat.lt_or_eq_of_le (Nat.le_of_lt_succ old) with earlier | rfl
        · rw [Function.update_of_ne (by omega)]
          exact now.2 offset earlier
        · rw [Function.update_self, now.1, next]))
    Disturbs.refl rb start (capped count avail) small
    (Nat.mod_eq_of_lt startBound).symm counted (by omega) (Or.inl sized) buf
    current now
  apply Holds.bind copy Disturbs.refl
  intro copiedTo later ⟨copied, _⟩
  refine (lasts total copiedTo.1).ret copied ?_
  intro final still
  have same : (capped count avail).toInt.toNat = total := by omega
  refine ⟨?_, ?_⟩
  · rw [hTotal]
    exact counted
  · change copiedTo.1.first (capped count avail).toInt.toNat =
      window data n start.toNat (capped count avail).toInt.toNat
    rw [same]
    symm
    apply window_of_getElem?
    · rw [Buffer.first_length]
    · intro offset inside
      rw [Buffer.first_getElem? _ inside, still.2 offset inside]

end Copy

/-! ### The order of the loads and the stores -/

def resetWrite : Side × RingOp := (.right, .storeWritePos 0)

def resetRead : Side × RingOp := (.right, .storeReadPos 0)

def loadsWrite : Side × RingOp := (.left, .loadWritePos)

def loadsRead : Side × RingOp := (.left, .loadReadPos)

def IndexAt (reset : Prop) (old now : UInt32) : Prop :=
  (reset ∧ now = 0) ∨ (¬ reset ∧ now = old)

theorem IndexAt.congr {reset other : Prop} {old now : UInt32}
    (at_ : IndexAt reset old now) (same : other ↔ reset) :
    IndexAt other old now := by
  unfold IndexAt
  rw [same]
  exact at_

theorem IndexAt.bound {reset : Prop} {old now : UInt32} {n : Nat}
    (at_ : IndexAt reset old now) (within : old.toNat < n) : now.toNat < n := by
  rcases at_ with ⟨_, rfl⟩ | ⟨_, rfl⟩
  · exact Nat.lt_of_le_of_lt (Nat.zero_le _) within
  · exact within

structure Shared (memory now : RingMemory) (log : List (Side × RingOp)) :
    Prop where
  data : now.data = memory.data
  write : IndexAt (resetWrite ∈ log) memory.writePos now.writePos
  read : IndexAt (resetRead ∈ log) memory.readPos now.readPos
  order : resetRead ∈ log → resetWrite ∈ log

/-- What the three loads have shown: the first index is the old one, unless all
three come after the stores. -/
structure Loaded (memory : RingMemory) (log : List (Side × RingOp))
    (start writeTmp readTmp : UInt32) : Prop where
  started : start = memory.readPos ∨
    ([resetRead, loadsRead].Sublist log ∧ [resetWrite, loadsWrite].Sublist log)
  write : IndexAt ([resetWrite, loadsWrite].Sublist log) memory.writePos
    writeTmp
  read : IndexAt ([resetRead, loadsRead].Sublist log) memory.readPos readTmp

section Phases

variable (n : Nat) (rb : Ringbuf) (buf : Buffer) (count : Int32)
  (memory : RingMemory)

inductive Phase (program : RingProgram (Int32 × Buffer)) (now : RingMemory)
    (log : List (Side × RingOp)) : Prop where
  | idle (fresh : program = ringbufRead rb buf count)
      (shared : Shared memory now log)
      (none_read : loadsRead ∉ log) (none_write : loadsWrite ∉ log)
  | first (start : UInt32)
      (rest : program = .step .loadWritePos (fun writeTmp =>
        .step .loadReadPos (fun readTmp =>
          copyOut rb buf count start writeTmp readTmp >>= release)))
      (shared : Shared memory now log) (inside : start.toNat < n)
      (started : start = memory.readPos ∨ resetRead ∈ log)
      (none_write : loadsWrite ∉ log)
  | second (start writeTmp : UInt32)
      (rest : program = .step .loadReadPos (fun readTmp =>
        copyOut rb buf count start writeTmp readTmp >>= release))
      (shared : Shared memory now log) (inside : start.toNat < n)
      (started : start = memory.readPos ∨
        (resetRead ∈ log ∧ [resetWrite, loadsWrite].Sublist log))
      (write : IndexAt ([resetWrite, loadsWrite].Sublist log) memory.writePos
        writeTmp)
  | copying (start writeTmp readTmp : UInt32)
      (body : RingProgram (UInt32 × Int32 × Buffer)) (traffic : Traffic)
      (rest : program = body >>= release) (here : traffic.memory = now)
      (loaded : Loaded memory log start writeTmp readTmp)
      (holds : Holds (Traffic.execute n) Disturbs (fun _ op => RingOp.Copies op)
        (fun copied _ => Returns n memory.data count start writeTmp readTmp
          copied.2.1 copied.2.2) body traffic)
  | returned (start writeTmp readTmp : UInt32) (result : Int32 × Buffer)
      (done : program = .ret result)
      (loaded : Loaded memory log start writeTmp readTmp)
      (returns : Returns n memory.data count start writeTmp readTmp result.1
        result.2)

/-- The read beside ringbuf_init, which has stored the indices that its progress
says. -/
structure Reading (size : UInt32) (system : System (Int32 × Buffer)) :
    Prop where
  init : ∃ done reduced, done ≤ 3 ∧
    system.program .right = initRest size reduced done ∧
    (resetWrite ∈ system.log ↔ Index.write.resetAt < done) ∧
    (resetRead ∈ system.log ↔ Index.read.resetAt < done)
  phase : Phase n rb buf count memory (system.program .left) system.state
    system.log

end Phases

section Steps

variable {n : Nat} {rb : Ringbuf} {buf : Buffer} {count : Int32}
  {memory now : RingMemory} {log : List (Side × RingOp)}
  {program : RingProgram (Int32 × Buffer)}

private theorem mem_concat_ne {entry other : Side × RingOp}
    (apart : entry ≠ other) :
    entry ∈ log ++ [other] ↔ entry ∈ log := by
  rw [List.mem_append, List.mem_singleton, or_iff_left apart]

private theorem pair_concat_ne {first second other : Side × RingOp}
    (apart : second ≠ other) :
    [first, second].Sublist (log ++ [other]) ↔ [first, second].Sublist log := by
  rw [pair_sublist_concat, or_iff_left (fun same => apart same.1)]

private theorem right_ne {first second : RingOp} :
    ((.right, first) : Side × RingOp) ≠ (.left, second) :=
  fun same => by cases same

private theorem left_ne {first second : RingOp} :
    ((.left, first) : Side × RingOp) ≠ (.right, second) :=
  fun same => by cases same

theorem Loaded.concat {start writeTmp readTmp : UInt32}
    {entry : Side × RingOp} (loaded : Loaded memory log start writeTmp readTmp)
    (not_write : loadsWrite ≠ entry) (not_read : loadsRead ≠ entry) :
    Loaded memory (log ++ [entry]) start writeTmp readTmp where
  started := by
    rw [pair_concat_ne not_write, pair_concat_ne not_read]
    exact loaded.started
  write := loaded.write.congr (pair_concat_ne not_write)
  read := loaded.read.congr (pair_concat_ne not_read)

/-- A load of the read changes nothing of what is shared. -/
theorem Shared.left (shared : Shared memory now log) (op : RingOp) :
    Shared memory now (log ++ [(.left, op)]) where
  data := shared.data
  write := shared.write.congr (mem_concat_ne right_ne)
  read := shared.read.congr (mem_concat_ne right_ne)
  order old := (mem_concat_ne right_ne).mpr
    (shared.order ((mem_concat_ne right_ne).mp old))

/-- A step of ringbuf_init that stores no index. -/
theorem Shared.quiet (shared : Shared memory now log) {op : RingOp}
    (quiet : op.Quiet) : Shared memory now (log ++ [(.right, op)]) where
  data := shared.data
  write := shared.write.congr
    (mem_concat_ne (fun same => by cases same; exact quiet))
  read := shared.read.congr
    (mem_concat_ne (fun same => by cases same; exact quiet))
  order old := by
    have earlier := (mem_concat_ne (fun same => by cases same; exact quiet)).mp
      old
    exact List.mem_append_left _ (shared.order earlier)

private theorem Shared.resetWrite (shared : Shared memory now log) :
    Shared memory { now with writePos := 0 } (log ++ [resetWrite]) where
  data := shared.data
  write := Or.inl ⟨List.mem_append_right _ (List.mem_singleton_self _), rfl⟩
  read := shared.read.congr (mem_concat_ne (by decide))
  order _ := List.mem_append_right _ (List.mem_singleton_self _)

private theorem Shared.resetRead (shared : Shared memory now log)
    (earlier : Restart.resetWrite ∈ log) :
    Shared memory { now with readPos := 0 } (log ++ [resetRead]) where
  data := shared.data
  write := shared.write.congr (mem_concat_ne (by decide))
  read := Or.inl ⟨List.mem_append_right _ (List.mem_singleton_self _), rfl⟩
  order _ := List.mem_append_left _ earlier

theorem Phase.beside {later : RingMemory} {op : RingOp}
    (phase : Phase n rb buf count memory program now log)
    (shares : Shared memory now log →
      Shared memory later (log ++ [(.right, op)]))
    (acted : ∀ traffic : Traffic, traffic.memory = now →
      Disturbs traffic { traffic with memory := later }) :
    Phase n rb buf count memory program later (log ++ [(.right, op)]) := by
  cases phase with
  | idle fresh shared none_read none_write =>
      exact .idle fresh (shares shared) (mt (mem_concat_ne left_ne).mp none_read)
        (mt (mem_concat_ne left_ne).mp none_write)
  | first start rest shared inside started none_write =>
      exact .first start rest (shares shared) inside
        (started.imp_right (List.mem_append_left _))
        (mt (mem_concat_ne left_ne).mp none_write)
  | second start writeTmp rest shared inside started write =>
      refine .second start writeTmp rest (shares shared) inside ?_
        (write.congr (pair_concat_ne left_ne))
      exact started.imp_right (fun both =>
        ⟨List.mem_append_left _ both.1, (pair_concat_ne left_ne).mpr both.2⟩)
  | copying start writeTmp readTmp body traffic rest here loaded holds =>
      exact .copying start writeTmp readTmp body
        { traffic with memory := later } rest rfl
        (loaded.concat left_ne left_ne)
        (holds.after_rely Disturbs.trans (acted traffic here))
  | returned start writeTmp readTmp result done loaded returns =>
      exact .returned start writeTmp readTmp result done
        (loaded.concat left_ne left_ne) returns

theorem Phase.step {op : RingOp}
    {next : op.Answer → RingProgram (Int32 × Buffer)}
    (sized : rb.size.toNat = n) (small : n < 2 ^ 31)
    (nonneg : 0 ≤ count.toInt) (writeBound : memory.writePos.toNat < n)
    (readBound : memory.readPos.toNat < n)
    (phase : Phase n rb buf count memory (.step op next) now log) :
    Phase n rb buf count memory (next (op.execute now).1) (op.execute now).2
      (log ++ [(.left, op)]) := by
  cases phase with
  | idle fresh shared none_read none_write =>
      rw [ringbufRead_loads] at fresh
      cases fresh
      refine .first now.readPos rfl (shared.left _)
        (shared.read.bound readBound) ?_
        (mt (mem_concat_ne (by decide)).mp none_write)
      rcases shared.read with ⟨done, _⟩ | ⟨_, same⟩
      · exact Or.inr (List.mem_append_left _ done)
      · exact Or.inl same
  | first start rest shared inside started none_write =>
      cases rest
      have seen : [resetWrite, loadsWrite].Sublist
          (log ++ [(.left, .loadWritePos)]) ↔ resetWrite ∈ log := by
        rw [pair_sublist_concat, or_iff_right
          (fun before => none_write (before.subset (by simp)))]
        exact and_iff_right rfl
      refine .second start now.writePos rfl (shared.left _) inside ?_
        (shared.write.congr seen)
      exact started.imp_right (fun done =>
        ⟨List.mem_append_left _ done, seen.mpr (shared.order done)⟩)
  | second start writeTmp rest shared inside started write =>
      cases rest
      have seen : [resetRead, loadsRead].Sublist
          (log ++ [(.left, .loadReadPos)]) ↔ resetRead ∈ log := by
        rw [pair_sublist_concat]
        constructor
        · rintro (before | ⟨_, done⟩)
          · exact before.subset List.mem_cons_self
          · exact done
        · intro done
          exact Or.inr ⟨rfl, done⟩
      have wrote : [resetWrite, loadsWrite].Sublist
          (log ++ [(.left, .loadReadPos)]) ↔
            [resetWrite, loadsWrite].Sublist log :=
        pair_concat_ne (by decide)
      refine .copying start writeTmp now.readPos _ ⟨now, [], 0⟩ rfl rfl
        ⟨?_, write.congr wrote, shared.read.congr seen⟩
        (copyOut_holds sized small buf nonneg inside
          (write.bound writeBound) (shared.read.bound readBound) shared.data)
      exact started.imp_right (fun both =>
        ⟨seen.mpr both.1, wrote.mpr both.2⟩)
  | copying start writeTmp readTmp body traffic rest here loaded holds =>
      cases body with
      | ret copied =>
          cases rest
          exact .returned start writeTmp readTmp copied.2 rfl
            (loaded.concat (fun same => by cases same)
              (fun same => by cases same))
            (holds traffic (Disturbs.refl traffic))
      | step op' next' =>
          cases rest
          obtain ⟨copies, goesOn⟩ := holds.during_next Disturbs.refl
          subst here
          refine .copying start writeTmp readTmp _ _ rfl rfl
            (loaded.concat ?_ ?_) goesOn
          · intro same
            cases same
            exact copies
          · intro same
            cases same
            exact copies
  | returned start writeTmp readTmp result done loaded returns =>
      cases done

theorem Reading.step_left {size : UInt32} {system : System (Int32 × Buffer)}
    (sized : rb.size.toNat = n) (small : n < 2 ^ 31)
    (nonneg : 0 ≤ count.toInt) (writeBound : memory.writePos.toNat < n)
    (readBound : memory.readPos.toNat < n)
    (reading : Reading n rb buf count memory size system) :
    Reading n rb buf count memory size
      (system.step RingOp.execute .left) := by
  obtain ⟨⟨done, reduced, within, right, wrote, read⟩, phase⟩ := reading
  cases doing : system.program .left with
  | ret value =>
      rw [Threads.step_ret doing]
      exact ⟨⟨done, reduced, within, right, wrote, read⟩, phase⟩
  | step op next =>
      rw [doing] at phase
      rw [Threads.step_step doing]
      have kept : Function.update system.program .left
          (next (op.execute system.state).1) .right =
            initRest size reduced done :=
        (Function.update_of_ne (by decide) _ _).trans right
      refine ⟨⟨done, reduced, within, kept, ?_, ?_⟩, ?_⟩
      · exact (mem_concat_ne right_ne).trans wrote
      · exact (mem_concat_ne right_ne).trans read
      · dsimp only
        rw [Function.update_self]
        exact phase.step sized small nonneg writeBound readBound

/-- A step of ringbuf_init, and what the read makes of it. -/
private theorem Reading.beside {size : UInt32}
    {system : System (Int32 × Buffer)} {later : RingMemory} {op : RingOp}
    {done : Nat} {reduced : UInt32}
    {next : RingProgram (Results (Int32 × Buffer) .right)}
    (phase : Phase n rb buf count memory (system.program .left) later
      (system.log ++ [(.right, op)]))
    (unfinished : done < 3) (rest : next = initRest size reduced (done + 1))
    (wrote : resetWrite ∈ system.log ++ [(.right, op)] ↔
      Index.write.resetAt < done + 1)
    (read : resetRead ∈ system.log ++ [(.right, op)] ↔
      Index.read.resetAt < done + 1) :
    Reading n rb buf count memory size
      { program := Function.update system.program .right next
        state := later
        log := system.log ++ [(.right, op)] } := by
  refine ⟨⟨done + 1, reduced, unfinished, ?_, wrote, read⟩, ?_⟩
  · dsimp only
    rw [Function.update_self]
    exact rest
  · dsimp only
    rw [Function.update_of_ne (by decide)]
    exact phase

theorem Reading.step_right {size : UInt32} {system : System (Int32 × Buffer)}
    (reading : Reading n rb buf count memory size system) :
    Reading n rb buf count memory size
      (system.step RingOp.execute .right) := by
  obtain ⟨⟨done, reduced, within, right, wrote, read⟩, phase⟩ := reading
  rcases Nat.lt_or_eq_of_le within with unfinished | rfl
  · obtain ⟨op, next, shape, goesOn, does⟩ :=
      initRest_step size reduced done unfinished
    rw [shape] at right
    obtain ⟨reduced', rest⟩ := goesOn system.state
    rw [Threads.step_step right]
    rcases does with ⟨quiet, rfl, unchanged⟩ | ⟨index, rfl, rfl⟩
    · refine Reading.beside ?_ unfinished rest ?_ ?_
      · rw [unchanged]
        exact phase.beside (fun shared => shared.quiet quiet)
          (fun traffic here => here ▸ Disturbs.refl traffic)
      · rw [mem_concat_ne (fun same => by cases same; exact quiet), wrote]
        decide
      · rw [mem_concat_ne (fun same => by cases same; exact quiet), read]
        decide
    · cases index with
      | write =>
          refine Reading.beside (phase.beside Shared.resetWrite
            (fun _ => (Index.write.storeOp_moves 0 _).disturbs)) unfinished rest
            ?_ ?_
          · exact iff_of_true (List.mem_append_right _
              (List.mem_singleton_self _)) (by decide)
          · rw [mem_concat_ne (by decide), read]
            decide
      | read =>
          refine Reading.beside (phase.beside
            (fun shared => shared.resetRead (wrote.mpr (by decide)))
            (fun _ => (Index.read.storeOp_moves 0 _).disturbs)) unfinished rest
            ?_ ?_
          · rw [mem_concat_ne (by decide), wrote]
            decide
          · exact iff_of_true (List.mem_append_right _
              (List.mem_singleton_self _)) (by decide)
  · rw [Threads.step_ret (right.trans rfl)]
    exact ⟨⟨3, reduced, within, right, wrote, read⟩, phase⟩

theorem reading_run (sized : rb.size.toNat = n) (small : n < 2 ^ 31)
    (nonneg : 0 ≤ count.toInt) (writeBound : memory.writePos.toNat < n)
    (readBound : memory.readPos.toNat < n) (size : UInt32)
    (schedule : List Side) :
    Reading n rb buf count memory size
      ((Threads.start (programs (ringbufRead rb buf count) size) memory).run
        RingOp.execute schedule) := by
  apply Threads.run_preserves (Reading n rb buf count memory size)
  · intro system side reading
    cases side with
    | left => exact reading.step_left sized small nonneg writeBound readBound
    | right => exact reading.step_right
  · exact ⟨⟨0, 0, Nat.zero_le _, rfl, iff_of_false List.not_mem_nil (by decide),
        iff_of_false List.not_mem_nil (by decide)⟩,
      .idle rfl ⟨rfl, Or.inr ⟨List.not_mem_nil, rfl⟩,
        Or.inr ⟨List.not_mem_nil, rfl⟩, fun old => absurd old List.not_mem_nil⟩
        List.not_mem_nil List.not_mem_nil⟩

end Steps

/-! ### The bytes that are returned -/

/-- The read has loaded one index before its store and the other after it, and
took them for more bytes than there were. -/
def Overreads (n : Nat) (memory : RingMemory) (count : Nat)
    (log : List (Side × RingOp)) : Prop :=
  ([resetWrite, loadsWrite].Sublist log ∧
    ¬ [resetRead, loadsRead].Sublist log ∧
    memory.held n < min count (RingMemory.held { memory with writePos := 0 } n)) ∨
  (¬ [resetWrite, loadsWrite].Sublist log ∧
    [resetRead, loadsRead].Sublist log ∧
    memory.held n < min count (RingMemory.held { memory with readPos := 0 } n))

instance (n : Nat) (memory : RingMemory) (count : Nat)
    (log : List (Side × RingOp)) : Decidable (Overreads n memory count log) :=
  inferInstanceAs (Decidable (_ ∨ _))

section Outcome

variable {n : Nat} {rb : Ringbuf} {buf : Buffer} {count : Int32}
  {memory : RingMemory} {size : UInt32}

theorem Phase.result {result : Int32 × Buffer} {now : RingMemory}
    {log : List (Side × RingOp)}
    (phase : Phase n rb buf count memory (.ret result) now log) :
    ∃ start writeTmp readTmp, Loaded memory log start writeTmp readTmp ∧
      Returns n memory.data count start writeTmp readTmp result.1 result.2 := by
  cases phase with
  | idle fresh _ _ _ =>
      rw [ringbufRead_loads] at fresh
      cases fresh
  | first start rest _ _ _ _ => cases rest
  | second start writeTmp rest _ _ _ _ => cases rest
  | copying start writeTmp readTmp body traffic rest _ _ _ =>
      cases body with
      | ret copied => cases rest
      | step op next => cases rest
  | returned start writeTmp readTmp result' done loaded returns =>
      cases done
      exact ⟨start, writeTmp, readTmp, loaded, returns⟩

private theorem window_prefix_iff (cells : Nat → UInt8)
    (n start taken held : Nat) :
    window cells n start taken <+: window cells n start held ↔
      taken ≤ held := by
  constructor
  · intro part
    have length := part.length_le
    rw [window_length, window_length] at length
    exact length
  · intro fits
    have first := List.take_prefix taken (window cells n start held)
    unfold window at first ⊢
    rw [← List.map_take, List.take_range, Nat.min_eq_left fits] at first
    exact first

/-- Two indices that are both reset, or both old, show no more than there is. -/
theorem returned_iff {log : List (Side × RingOp)} {taken : Int32}
    {bytes : Buffer} {start writeTmp readTmp : UInt32}
    (loaded : Loaded memory log start writeTmp readTmp)
    (returns : Returns n memory.data count start writeTmp readTmp taken bytes) :
    bytes.first taken.toInt.toNat <+: memory.unread n ↔
      ¬ Overreads n memory count.toInt.toNat log := by
  obtain ⟨value, cells⟩ := returns
  have amount : taken.toInt.toNat = min count.toInt.toNat
      (RingMemory.held ⟨writeTmp, readTmp, memory.data⟩ n) := by
    rw [value, Int.toNat_natCast]
  rw [cells]
  unfold Overreads RingMemory.unread
  rcases loaded.write with ⟨wrote, rfl⟩ | ⟨not_wrote, rfl⟩
  · rcases loaded.read with ⟨read, rfl⟩ | ⟨not_read, rfl⟩
    · -- all that the read saw is 0
      have none_held : taken.toInt.toNat = 0 := by
        rw [amount]
        simp [RingMemory.held]
      rw [none_held]
      refine iff_of_true List.nil_prefix ?_
      rintro (⟨_, old, _⟩ | ⟨old, _, _⟩)
      · exact old read
      · exact old wrote
    · have first := loaded.started.resolve_right (fun both => not_read both.1)
      rw [first, window_prefix_iff, amount]
      constructor
      · rintro fits (⟨_, _, more⟩ | ⟨old, _, _⟩)
        · exact absurd fits (Nat.not_le.mpr more)
        · exact old wrote
      · intro spared
        exact Nat.le_of_not_lt (fun more =>
          spared (Or.inl ⟨wrote, not_read, more⟩))
  · have first := loaded.started.resolve_right (fun both => not_wrote both.2)
    rw [first, window_prefix_iff, amount]
    rcases loaded.read with ⟨read, rfl⟩ | ⟨not_read, rfl⟩
    · constructor
      · rintro fits (⟨new, _, _⟩ | ⟨_, _, more⟩)
        · exact not_wrote new
        · exact absurd fits (Nat.not_le.mpr more)
      · intro spared
        exact Nat.le_of_not_lt (fun more =>
          spared (Or.inr ⟨not_wrote, read, more⟩))
    · refine iff_of_true (Nat.min_le_right _ _) ?_
      rintro (⟨new, _, _⟩ | ⟨_, new, _⟩)
      · exact not_wrote new
      · exact not_read new

end Outcome

end Restart

end Quadcopter

import Quadcopter.Common.RingbufStored
import Quadcopter.Kmod.ControlDevice
import Quadcopter.Library.Interleaving

/-
What a write of the control device puts into the ring.

The kernel sees a user's buffer through one copy for each 512 bytes.  The loop
passes on what it sees, piece behind piece, until the ring takes less than a
piece: the write is one ringbuf_write of all that is seen.
-/

namespace Quadcopter

open AtomicProgram MachineInt

def brought (uncopied : Nat → Nat) (count round : Nat) : Nat :=
  let piece := min 512 (count - round * 512)
  piece - min (uncopied round) piece

/-- The byte at each offset that the copies of a write of `count` bring: a copy
that stops leaves zeros in the rest of its piece. -/
def UserBuffer.seen (user : UserBuffer) (count : Nat) : Buffer := fun index =>
  if index % 512 < brought user.uncopied count (index / 512) then
    user.bytes index
  else 0

private theorem UserBuffer.seen_readable (bytes : Buffer) {count index : Nat}
    (inside : index < count) :
    (UserBuffer.readable bytes).seen count index = bytes index := by
  apply if_pos
  unfold brought readable
  dsimp only
  omega

private theorem copyFromUser_seen (user : UserBuffer) (kbuf : Buffer)
    {count round index : Nat} {toWrite : UInt32}
    (piece : toWrite.toNat = min 512 (count - round * 512))
    (inside : index < toWrite.toNat) :
    (copyFromUser kbuf user.bytes (round * 512) toWrite
        (user.uncopied round)).2 index =
      user.seen count (round * 512 + index) := by
  have quotient : (round * 512 + index) / 512 = round := by omega
  have remainder : (round * 512 + index) % 512 = index := by omega
  unfold copyFromUser UserBuffer.seen brought
  simp only [quotient, remainder, ← piece, if_pos inside]

namespace ControlDevice

section Round

variable {rb : Ringbuf} {user : UserBuffer} {count : UInt32}

private theorem writeLoop_round (fuel : Nat) {round : Nat} (kbuf : Buffer)
    {writeCount countLeft : UInt32} (wanting : writeCount.toNat < count.toNat)
    (written : writeCount.toNat = min (round * 512) count.toNat)
    (left : countLeft.toNat = count.toNat - writeCount.toNat) :
    ∃ (toWrite : UInt32) (buf : Buffer),
      toWrite.toNat = min 512 (count.toNat - writeCount.toNat) ∧
      (∀ index, index < toWrite.toNat →
        buf index = user.seen count.toNat (writeCount.toNat + index)) ∧
      quadcopterWriteLoop rb user count (fuel + 1) round kbuf writeCount
          countLeft =
        (do
          let rbCount ← ringbufWrite rb buf toWrite.toInt32
          if rbCount.toUInt32 < toWrite then
            return some (writeCount + rbCount.toUInt32).toInt32
          else
            quadcopterWriteLoop rb user count fuel (round + 1) buf
              (writeCount + rbCount.toUInt32) (countLeft - toWrite)) := by
  have here : writeCount.toNat = round * 512 := by omega
  have less : writeCount < count := UInt32.lt_iff_toNat_lt.mpr wanting
  generalize hPiece : (if countLeft > 512 then 512 else countLeft) = toWrite
  have piece : toWrite.toNat = min 512 (count.toNat - writeCount.toNat) := by
    subst toWrite
    split
    · rename_i more
      have bound := UInt32.lt_iff_toNat_lt.mp more
      change 512 < countLeft.toNat at bound
      change 512 = _
      omega
    · rename_i no_more
      have bound := UInt32.le_iff_toNat_le.mp (UInt32.not_lt.mp no_more)
      change countLeft.toNat ≤ 512 at bound
      omega
  refine ⟨toWrite, (copyFromUser kbuf user.bytes writeCount.toNat toWrite
    (user.uncopied round)).2, piece, ?_, ?_⟩
  · intro index inside
    rw [here]
    exact copyFromUser_seen user kbuf (by omega) inside
  · conv_lhs => unfold quadcopterWriteLoop
    rw [if_pos less]
    simp only [hPiece]
    rw [if_neg (copyFromUser_not_negative _ _ _ _ _)]

private theorem writeLoop_done (fuel round : Nat) (kbuf : Buffer)
    {writeCount countLeft : UInt32}
    (enough : ¬ writeCount.toNat < count.toNat) :
    quadcopterWriteLoop rb user count (fuel + 1) round kbuf writeCount
        countLeft = .ret (some writeCount.toInt32) := by
  unfold quadcopterWriteLoop
  rw [if_neg (fun less => enough (UInt32.lt_iff_toNat_lt.mp less))]
  rfl

private theorem round_counts {writeCount countLeft toWrite : UInt32}
    {accepted : Int32}
    (piece : toWrite.toNat = min 512 (count.toNat - writeCount.toNat))
    (left : countLeft.toNat = count.toNat - writeCount.toNat)
    (nonneg : 0 ≤ accepted.toInt)
    (within : accepted.toInt.toNat ≤ toWrite.toNat) :
    (writeCount + accepted.toUInt32).toNat =
        writeCount.toNat + accepted.toInt.toNat ∧
      (countLeft - toWrite).toNat = countLeft.toNat - toWrite.toNat ∧
      accepted.toUInt32.toNat = accepted.toInt.toNat := by
  have countBound := count.toNat_lt
  have writeBound := writeCount.toNat_lt
  have unsigned := toNat_toUInt32 accepted nonneg
  refine ⟨?_, ?_, unsigned⟩
  · rw [UInt32.toNat_add, unsigned]
    omega
  · exact UInt32.toNat_sub_of_le _ _ (UInt32.le_iff_toNat_le.mpr (by omega))

end Round

/-! ### The loop without a reader -/

section Alone

variable {n : Nat} {rb : Ringbuf} {start : RingMemory}
  (sized : rb.size.toNat = n) (small : n < 2 ^ 31)
  (writeBound : start.writePos.toNat < n) (readBound : start.readPos.toNat < n)
  (user : UserBuffer) (count : UInt32)

include sized small writeBound readBound in
private theorem piece_call {done piece : Nat} {buf : Buffer} {toWrite : UInt32}
    (within : done ≤ n - 1 - start.held n) (length : toWrite.toNat = piece)
    (short : piece ≤ 512)
    (brought : ∀ index, index < piece →
      buf index = user.seen count.toNat (done + index)) :
    ∃ accepted : Int32,
      accepted.toInt =
          ((min piece (n - 1 - start.held n - done) : Nat) : Int) ∧
        (start.written n (user.seen count.toNat) done).call
            (ringbufWrite rb buf toWrite.toInt32) =
          (accepted, start.written n (user.seen count.toNat)
            (done + accepted.toInt.toNat)) := by
  have bound : start.held n < n := Nat.mod_lt _ (by omega)
  have held := RingMemory.held_written small writeBound readBound
    (user.seen count.toNat) (show start.held n + done < n by omega)
  have position := @RingMemory.written_writePos n start small (by omega)
    (user.seen count.toNat) done
  have counted : toWrite.toInt32.toInt = piece := by
    rw [toInt_toInt32 toWrite (by omega), length]
  obtain ⟨accepted, value, called⟩ := @ringbufWrite_call n rb
    (start.written n (user.seen count.toNat) done) sized small
    (by rw [position]; exact Nat.mod_lt _ (by omega)) readBound buf
    toWrite.toInt32 (by omega)
  rw [counted, held, Int.toNat_natCast] at value
  refine ⟨accepted, by omega, ?_⟩
  rw [called]
  have same := @RingMemory.written_congr n
    (start.written n (user.seen count.toNat) done) buf _ accepted.toInt.toNat
    (fun index inside => brought index (by omega))
  rw [same, RingMemory.written_written small writeBound (by omega)]

include sized small writeBound readBound in
/-- Induction on the fuel, which outlasts the bytes still to write. -/
theorem writeLoop_call (fuel round : Nat) (kbuf : Buffer)
    (writeCount countLeft : UInt32)
    (written : writeCount.toNat = min (round * 512) count.toNat)
    (left : countLeft.toNat = count.toNat - writeCount.toNat)
    (within : writeCount.toNat ≤ n - 1 - start.held n)
    (outlasts : count.toNat < writeCount.toNat + fuel) :
    ∃ value : Int32,
      value.toInt = ((min count.toNat (n - 1 - start.held n) : Nat) : Int) ∧
        (start.written n (user.seen count.toNat) writeCount.toNat).call
            (quadcopterWriteLoop rb user count fuel round kbuf writeCount
              countLeft) =
          (some value, start.written n (user.seen count.toNat)
            (min count.toNat (n - 1 - start.held n))) := by
  induction fuel generalizing round kbuf writeCount countLeft with
  | zero => omega
  | succ fuel ih =>
      by_cases wanting : writeCount.toNat < count.toNat
      · have countBound := count.toNat_lt
        obtain ⟨toWrite, buf, piece, brought, entered⟩ :=
          @writeLoop_round rb user count fuel round kbuf _ _ wanting written left
        obtain ⟨accepted, value, called⟩ := piece_call sized small writeBound
          readBound user count within rfl (by omega) brought
        obtain ⟨sum, remaining, unsigned⟩ :=
          @round_counts count writeCount countLeft toWrite accepted piece left
            (by omega) (by omega)
        rw [entered]
        unfold RingMemory.call at called ⊢
        rw [Program.run_bind, called]
        dsimp only
        by_cases short : accepted.toUInt32 < toWrite
        · have filled := UInt32.lt_iff_toNat_lt.mp short
          rw [if_pos short]
          refine ⟨(writeCount + accepted.toUInt32).toInt32, ?_, ?_⟩
          · rw [toInt_toInt32 _ (by omega), sum]
            omega
          · rw [Program.pure_eq, Program.run_ret]
            congr 2
            omega
        · have whole := UInt32.le_iff_toNat_le.mp (UInt32.not_lt.mp short)
          rw [if_neg short, ← sum]
          exact ih (round + 1) buf _ _ (by omega) (by omega) (by omega)
            (by omega)
      · rw [writeLoop_done fuel round kbuf wanting]
        refine ⟨writeCount.toInt32, ?_, ?_⟩
        · rw [toInt_toInt32 _ (by omega)]
          omega
        · unfold RingMemory.call
          rw [Program.run_ret]
          congr 2
          omega

include sized small writeBound readBound in
theorem quadcopterWrite_call (kbuf : Buffer) :
    ∃ value : Int32,
      value.toInt = ((min count.toNat (n - 1 - start.held n) : Nat) : Int) ∧
        start.call (quadcopterWrite rb user kbuf count) =
          (some value, start.written n (user.seen count.toNat)
            (min count.toNat (n - 1 - start.held n))) := by
  obtain ⟨value, counted, called⟩ := writeLoop_call sized small writeBound
    readBound user count (count.toNat + 1) 0 kbuf 0 count (by simp)
    (Nat.sub_zero _).symm (Nat.zero_le _) (by omega)
  rw [show (0 : UInt32).toNat = 0 from rfl,
    RingMemory.written_zero writeBound] at called
  exact ⟨value, counted, called⟩

end Alone

/-! ### The loop beside a reader -/

structure RingRead where
  buf : Buffer
  count : Int32
  nonneg : 0 ≤ count.toInt

def receive (rb : Ringbuf) : List RingRead → RingProgram (List UInt8)
  | [] => return []
  | read :: reads => do
      let (count, buf) ← ringbufRead rb read.buf read.count
      let rest ← receive rb reads
      return buf.first count.toInt.toNat ++ rest

section Beside

variable {n : Nat} {rb : Ringbuf} (sized : rb.size.toNat = n)
  (small : n < 2 ^ 31)

/-- `received` is what was taken off the ring since `start`. -/
structure Received (n : Nat) (start : Traffic) (received : List UInt8)
    (later : Traffic) : Prop where
  coherent : later.Coherent n
  released : later.released = start.released + received.length
  bytes : ∀ index, index < received.length →
    later.published[start.released + index]? = received[index]?

private theorem Received.eq_take {start later : Traffic} {received : List UInt8}
    (receives : Received n start received later) :
    received = (later.published.drop start.released).take received.length := by
  apply List.ext_getElem?
  intro index
  by_cases inside : index < received.length
  · rw [List.getElem?_take_of_lt inside, List.getElem?_drop,
      receives.bytes index inside]
  · rw [List.getElem?_eq_none (by omega), List.getElem?_eq_none]
    rw [List.length_take]
    omega

include sized small in
theorem receive_holds (reads : List RingRead) {start : Traffic}
    (coherent : start.Coherent n) :
    Holds (Traffic.execute n) (Traffic.WriterActs n)
      (fun traffic op =>
        Traffic.ReaderActs n traffic (Traffic.execute n op traffic).2)
      (Received n start) (receive rb reads) start := by
  induction reads generalizing start with
  | nil =>
      apply Holds.ret
      intro later acted
      obtain ⟨coherentLater, released, _⟩ := acted coherent
      exact ⟨coherentLater, released, fun index none =>
        absurd none (Nat.not_lt_zero _)⟩
  | cons read reads ih =>
      have one := (ringbufRead_holds Traffic.WriterActs.refl
        (fun _ _ acted => acted) Traffic.WriterActs.trans small coherent
        read.buf read.count read.nonneg (Nat.le_of_eq sized)
        (fun _ _ => Or.inl sized)).allow (fun _ _ does => does.acts)
      apply Holds.bind one Traffic.WriterActs.refl
      intro result middle done
      obtain ⟨count, buf⟩ := result
      have fetched := done.fetched
      have released := done.released
      dsimp only at fetched released ⊢
      have kept := (ih done.coherent).keeps
        (fun traffic =>
          traffic.Coherent n ∧ middle.published <+: traffic.published)
        (fun traffic later kept acted =>
          ⟨(acted kept.1).1, kept.2.trans (acted kept.1).2.2⟩)
        (fun traffic op kept acted =>
          ⟨(acted kept.1).1, by rw [(acted kept.1).2.1]; exact kept.2⟩)
        ⟨done.coherent, List.prefix_rfl⟩
      apply Holds.bind kept Traffic.WriterActs.refl
      intro rest final ⟨more, _, grows⟩
      apply Holds.ret
      intro later acted
      obtain ⟨coherentLater, released', grows'⟩ := acted more.coherent
      refine ⟨coherentLater, ?_, ?_⟩
      · rw [released', more.released, released, List.length_append,
          Buffer.first_length, Nat.add_assoc]
      · intro index inside
        rw [List.length_append, Buffer.first_length] at inside
        by_cases before : index < count.toInt.toNat
        · rw [List.getElem?_append_left (by rwa [Buffer.first_length]),
            Buffer.first_getElem? buf before]
          exact published_found (grows.trans grows') (fetched index before)
        · have found := more.bytes (index - count.toInt.toNat) (by omega)
          rw [released, Nat.add_assoc,
            show count.toInt.toNat + (index - count.toInt.toNat) = index by
              omega] at found
          rw [List.getElem?_append_right (by rw [Buffer.first_length]; omega),
            Buffer.first_length, ← found]
          have bound : start.released + index < final.published.length := by
            apply (List.getElem?_eq_some_iff.mp (found.trans
              (List.getElem?_eq_getElem (by omega)))).1
          obtain ⟨further, same⟩ := grows'
          rw [← same, List.getElem?_append_left bound]

/-- `value` is what quadcopter_write returns when it has put that many of the
bytes behind those of `start`. -/
structure Appended (n : Nat) (start : Traffic) (bytes : Buffer) (count : UInt32)
    (value : Option Int32) (later : Traffic) : Prop where
  coherent : later.Coherent n
  appended : ∃ r : UInt32, r ≤ count ∧ value = some r.toInt32 ∧
    later.published = start.published ++ bytes.first r.toNat

include sized small in
theorem writeLoop_holds (bytes : Buffer) (count : UInt32) {start : Traffic}
    (fuel round : Nat) (kbuf : Buffer) (writeCount countLeft : UInt32)
    {current : Traffic}
    (written : writeCount.toNat = min (round * 512) count.toNat)
    (left : countLeft.toNat = count.toNat - writeCount.toNat)
    (outlasts : count.toNat < writeCount.toNat + fuel)
    (coherent : current.Coherent n)
    (published : current.published =
      start.published ++ bytes.first writeCount.toNat) :
    Holds (Traffic.execute n) (Traffic.ReaderActs n)
      (fun traffic op =>
        Traffic.WriterActs n traffic (Traffic.execute n op traffic).2)
      (Appended n start bytes count)
      (quadcopterWriteLoop rb (.readable bytes) count fuel round kbuf writeCount
        countLeft) current := by
  induction fuel generalizing round kbuf writeCount countLeft current with
  | zero => omega
  | succ fuel ih =>
      by_cases wanting : writeCount.toNat < count.toNat
      · have countBound := count.toNat_lt
        obtain ⟨toWrite, buf, piece, brought, entered⟩ :=
          @writeLoop_round rb (.readable bytes) count fuel round kbuf _ _
            wanting written left
        have length : toWrite.toInt32.toInt = toWrite.toNat :=
          toInt_toInt32 toWrite (by omega)
        have one := (ringbufWrite_holds Traffic.ReaderActs.refl
          (fun _ _ acted => acted) sized small coherent buf toWrite.toInt32
          (by omega)).allow (fun _ _ does => does.acts)
        rw [entered]
        apply Holds.bind one Traffic.ReaderActs.refl
        intro accepted later done
        obtain ⟨seen, _, _, value⟩ := done.value
        obtain ⟨sum, remaining, unsigned⟩ :=
          @round_counts count writeCount countLeft toWrite accepted piece left
            (by omega) (by omega)
        have appended : later.published = start.published ++
            bytes.first (writeCount + accepted.toUInt32).toNat := by
          have same : buf.first accepted.toInt.toNat = Buffer.first
              (fun index => bytes (writeCount.toNat + index))
              accepted.toInt.toNat := by
            apply Buffer.first_congr
            intro index inside
            rw [brought index (by omega)]
            exact UserBuffer.seen_readable bytes (by omega)
          rw [done.published, published, sum, Buffer.first_add, same,
            List.append_assoc]
        by_cases short : accepted.toUInt32 < toWrite
        · rw [if_pos short]
          apply Holds.ret
          intro final acted
          obtain ⟨coherentFinal, same, _⟩ := acted done.coherent
          exact ⟨coherentFinal, _, UInt32.le_iff_toNat_le.mpr (by omega), rfl,
            same.trans appended⟩
        · have whole := UInt32.le_iff_toNat_le.mp (UInt32.not_lt.mp short)
          rw [if_neg short]
          exact ih (round + 1) buf _ _ (by omega) (by omega) (by omega)
            done.coherent appended
      · rw [writeLoop_done fuel round kbuf wanting]
        apply Holds.ret
        intro final acted
        obtain ⟨coherentFinal, same, _⟩ := acted coherent
        exact ⟨coherentFinal, _, UInt32.le_iff_toNat_le.mpr (by omega), rfl,
          same.trans published⟩

end Beside

/-! ### Both ends at once -/

@[reducible] def Returned : Side → Type
  | .left => Option Int32
  | .right => List UInt8

def writeAndReceive (rb : Ringbuf) (bytes kbuf : Buffer) (count : UInt32)
    (reads : List RingRead) : (side : Side) → RingProgram (Returned side)
  | .left => quadcopterWrite rb (.readable bytes) kbuf count
  | .right => receive rb reads

def EndActs (n : Nat) : Side → Traffic → Traffic → Prop
  | .left => Traffic.WriterActs n
  | .right => Traffic.ReaderActs n

def EndDone (n : Nat) (start : Traffic) (bytes : Buffer) (count : UInt32) :
    (side : Side) → Returned side → Traffic → Prop
  | .left => Appended n start bytes count
  | .right => Received n start

theorem EndActs.refl (n : Nat) (side : Side) (traffic : Traffic) :
    EndActs n side traffic traffic := by
  cases side with
  | left => exact Traffic.WriterActs.refl traffic
  | right => exact Traffic.ReaderActs.refl traffic

theorem EndActs.trans (n : Nat) (side : Side) (first second third : Traffic)
    (before : EndActs n side first second)
    (after : EndActs n side second third) : EndActs n side first third := by
  cases side with
  | left => exact Traffic.WriterActs.trans first second third before after
  | right => exact Traffic.ReaderActs.trans first second third before after

theorem EndActs.releases {n : Nat} {side : Side} {traffic later : Traffic}
    {released : Nat} (acted : EndActs n side traffic later)
    (kept : traffic.Coherent n ∧ released ≤ traffic.released) :
    later.Coherent n ∧ released ≤ later.released := by
  cases side with
  | left =>
      obtain ⟨coherent, same, _⟩ := acted kept.1
      exact ⟨coherent, by rw [same]; exact kept.2⟩
  | right =>
      obtain ⟨coherent, _, _, order⟩ := acted kept.1
      exact ⟨coherent, Nat.le_trans kept.2 order⟩

private theorem writeAndReceive_agree {n : Nat} {rb : Ringbuf}
    (sized : rb.size.toNat = n) (small : n < 2 ^ 31) (bytes kbuf : Buffer)
    (count : UInt32) (reads : List RingRead) {start : Traffic}
    (coherent : start.Coherent n) :
    (Threads.start (writeAndReceive rb bytes kbuf count reads) start).Agree
      (Traffic.execute n) (EndActs n) (EndDone n start bytes count) := by
  intro side
  cases side with
  | left =>
      exact writeLoop_holds sized small bytes count (count.toNat + 1) 0 kbuf 0
        count (by simp) (Nat.sub_zero _).symm (by simp) coherent
        (List.append_nil _).symm
  | right => exact receive_holds sized small reads coherent

/-- What was released since `start` and what is unread make up what was unread at
`start` and what was published since. -/
theorem taken_append {n : Nat} {start later : Traffic} {bytes : List UInt8}
    (coherent : start.Coherent n) (coherentLater : later.Coherent n)
    (published : later.published = start.published ++ bytes)
    (order : start.released ≤ later.released) :
    (later.published.drop start.released).take
          (later.released - start.released) ++
        later.memory.unread n =
      start.memory.unread n ++ bytes := by
  rw [coherentLater.unread_eq, coherent.unread_eq,
    ← List.drop_append_of_le_length coherent.released_le, ← published,
    show later.released = start.released +
      (later.released - start.released) by omega,
    ← List.drop_drop, Nat.add_sub_cancel_left, List.take_append_drop]

/-- A count as the int that ringbuf_write takes, which has no room for more than
2^31 - 1. -/
def intCount (count : UInt32) : Int32 :=
  if count < 0x80000000 then count.toInt32 else 0x7FFFFFFF

private theorem intCount_toInt (count : UInt32) :
    (intCount count).toInt = ((min count.toNat (2 ^ 31 - 1) : Nat) : Int) := by
  unfold intCount
  by_cases less : count < 0x80000000
  · have bound := UInt32.lt_iff_toNat_lt.mp less
    change count.toNat < 2 ^ 31 at bound
    rw [if_pos less, toInt_toInt32 count bound]
    omega
  · have bound := UInt32.le_iff_toNat_le.mp (UInt32.not_lt.mp less)
    change 2 ^ 31 ≤ count.toNat at bound
    rw [if_neg less]
    change (2 ^ 31 - 1 : Int) = _
    omega

section OneWrite

variable {n : Nat} {rb : Ringbuf} (sized : rb.size.toNat = n)
  (small : n < 2 ^ 31) {memory : RingMemory}
  (writeBound : memory.writePos.toNat < n)
  (readBound : memory.readPos.toNat < n) (bytes kbuf : Buffer) (count : UInt32)

include sized small writeBound readBound in
/-- A write alone is one ringbuf_write of the whole buffer. -/
theorem write_alone_is_one_write :
    let one := memory.call (ringbufWrite rb bytes (intCount count))
    one.1.toInt = ((min count.toNat (n - 1 - memory.held n) : Nat) : Int) ∧
      memory.call (quadcopterWrite rb (.readable bytes) kbuf count) =
        (some one.1, one.2) := by
  intro one
  have bound : memory.held n < n := Nat.mod_lt _ (by omega)
  have whole := intCount_toInt count
  obtain ⟨accepted, taken, called⟩ := ringbufWrite_call sized small writeBound
    readBound bytes (intCount count) (by omega)
  obtain ⟨value, counted, written⟩ := quadcopterWrite_call sized small
    writeBound readBound (.readable bytes) count kbuf
  have one_eq : one = _ := called
  rw [whole, Int.toNat_natCast] at taken
  have total : accepted.toInt =
      ((min count.toNat (n - 1 - memory.held n) : Nat) : Int) := by omega
  have same : value = accepted := Int32.toInt_inj.mp (by omega)
  rw [one_eq, written, same]
  refine ⟨total, ?_⟩
  rw [total, Int.toNat_natCast]
  congr 1
  apply RingMemory.written_congr
  intro index inside
  exact UserBuffer.seen_readable bytes (by omega)

include sized small writeBound readBound in
/-- Beside a reader a write appends the first bytes of the buffer. -/
theorem write_beside_reader (reads : List RingRead) (schedule : List Side) :
    let final := (Threads.start
      (writeAndReceive rb bytes kbuf count reads) memory).run
        RingOp.execute schedule
    ∀ value, final.program .left = .ret value →
      ∃ r : UInt32, r ≤ count ∧ value = some r.toInt32 ∧
        ∃ taken : List UInt8,
          taken ++ final.state.unread n =
              memory.unread n ++ bytes.first r.toNat ∧
            ∀ received, final.program .right = .ret received →
              received = taken := by
  intro final value returned
  obtain ⟨queue, ⟨start, coherent, rfl, _⟩, _⟩ :=
    RingMemory.Carries.of_positions writeBound readBound
  have agree := writeAndReceive_agree sized small bytes kbuf count reads
    coherent
  have viewed := @Threads.run_view _ _ _ _ _ _ _ (Traffic.execute n)
    RingOp.execute Traffic.memory (fun _ _ => rfl)
    (Threads.start (writeAndReceive rb bytes kbuf count reads) start) schedule
  change final = _ at viewed
  have ends := agree.run (EndActs.refl n) (EndActs.trans n) schedule
  have order := agree.run_keeps (EndActs.refl n) (EndActs.trans n)
    (fun traffic => traffic.Coherent n ∧ start.released ≤ traffic.released)
    (fun side traffic later acted kept => EndActs.releases acted kept)
    ⟨coherent, Nat.le_refl _⟩ schedule
  generalize (Threads.start (writeAndReceive rb bytes kbuf count reads)
    start).run (Traffic.execute n) schedule = system at viewed ends order
  rw [viewed] at returned ⊢
  obtain ⟨coherentFinal, r, within, result, published⟩ :=
    ends.returned (EndActs.refl n) returned
  refine ⟨r, within, result, (system.state.published.drop
    start.released).take (system.state.released - start.released), ?_, ?_⟩
  · exact taken_append coherent coherentFinal published order.2
  · intro received done
    have receives : Received n start received system.state :=
      ends.returned (EndActs.refl n) done
    rw [receives.released, Nat.add_sub_cancel_left]
    exact receives.eq_take

end OneWrite

/-- A write alone is one ringbuf_write of the whole buffer; beside a reader it
appends the first bytes of the buffer, as many as it returns. -/
theorem quadcopter_write_is_one_write {n : Nat} {rb : Ringbuf}
    (sized : rb.size.toNat = n) (small : n < 2 ^ 31) {memory : RingMemory}
    (writeBound : memory.writePos.toNat < n)
    (readBound : memory.readPos.toNat < n) (bytes kbuf : Buffer)
    (count : UInt32) :
    let one := memory.call (ringbufWrite rb bytes (intCount count))
    one.1.toInt = ((min count.toNat (n - 1 - memory.held n) : Nat) : Int) ∧
      memory.call (quadcopterWrite rb (.readable bytes) kbuf count) =
        (some one.1, one.2) ∧
      ∀ (reads : List RingRead) (schedule : List Side),
        let final := (Threads.start
          (writeAndReceive rb bytes kbuf count reads) memory).run
            RingOp.execute schedule
        ∀ value, final.program .left = .ret value →
          ∃ r : UInt32, r ≤ count ∧ value = some r.toInt32 ∧
            ∃ taken : List UInt8,
              taken ++ final.state.unread n =
                  memory.unread n ++ bytes.first r.toNat ∧
                ∀ received, final.program .right = .ret received →
                  received = taken := by
  intro one
  obtain ⟨value, whole⟩ := write_alone_is_one_write sized small writeBound
    readBound bytes kbuf count
  refine ⟨value, whole, ?_⟩
  intro reads schedule
  exact write_beside_reader sized small writeBound readBound bytes kbuf count
    reads schedule

/-- Two bytes are offered to a ring of four cells with one of them free. -/
theorem quadcopter_write_is_one_write_of_four :
    let memory : RingMemory := ⟨2, 0, fun _ => 7⟩
    (memory.call (quadcopterWrite ⟨4⟩ (.readable fun _ => 9) (fun _ => 0) 2)).1 =
      some 1 := by
  intro memory
  obtain ⟨value, whole, _⟩ :=
    quadcopter_write_is_one_write (rfl : (4 : UInt32).toNat = 4) (by decide)
      (by decide : memory.writePos.toNat < 4) (by decide) (fun _ => 9)
      (fun _ => 0) 2
  rw [whole]
  exact congrArg some (Int32.toInt_inj.mp (value.trans (by decide)))

end ControlDevice

end Quadcopter

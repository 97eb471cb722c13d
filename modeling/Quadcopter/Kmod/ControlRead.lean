import Quadcopter.Kmod.ControlDevice

/-
What a read of the control device takes from the ring.

Every round takes up to 512 bytes, whatever the caller has left to ask for.  The
queue that each round meets does not depend on the caller's count, so it says in
which calls a round takes too much.
-/

namespace Quadcopter.ControlDevice

open AtomicProgram

section Round

variable {n : Nat} {rb : Ringbuf} {queue : BoundedFifo UInt8 (n - 1)}
  {memory : RingMemory}

private theorem round_call (uncopied : Nat) (locals : ReadLocals) :
    memory.call (quadcopterReadRound rb uncopied locals) =
      let read := memory.call (ringbufRead rb locals.kbuf 512)
      ((memory.call (quadcopterReadRound rb uncopied locals)).1, read.2) := by
  apply Prod.ext
  · rfl
  · unfold RingMemory.call quadcopterReadRound
    rw [Program.run_bind]
    dsimp only
    split
    · rfl
    · split <;> rfl

theorem readRound_empty (carries : memory.Carries n queue)
    (sized : rb.size.toNat = n) (small : n < 2 ^ 31) (uncopied : Nat)
    (locals : ReadLocals) (empty : queue.items = []) :
    (memory.call (quadcopterReadRound rb uncopied locals)).1.2 =
        some locals.readCount.toInt32 ∧
      (memory.call (quadcopterReadRound rb uncopied locals)).1.1.stores =
        locals.stores ∧
      (memory.call (quadcopterReadRound rb uncopied locals)).2.Carries n
        (queue.pop 512) := by
  obtain ⟨done, _⟩ := carries.read sized small locals.kbuf 512 (by decide)
  have value := done.value
  rw [empty, List.length_nil, Nat.min_zero] at value
  have none_read :
      (memory.call (ringbufRead rb locals.kbuf 512)).1.1 ≤ 0 :=
    Int32.le_iff_toInt_le.mpr (by rw [value]; decide)
  rw [round_call]
  refine ⟨?_, ?_, done.carries⟩
  · unfold RingMemory.call quadcopterReadRound
    unfold RingMemory.call at none_read
    rw [Program.run_bind]
    dsimp only
    rw [if_pos none_read]
    rfl
  · unfold RingMemory.call quadcopterReadRound
    unfold RingMemory.call at none_read
    rw [Program.run_bind]
    dsimp only
    rw [if_pos none_read]
    rfl

structure RoundTook (n : Nat) (queue : BoundedFifo UInt8 (n - 1))
    (uncopied : Nat) (locals : ReadLocals)
    (done : (ReadLocals × Option Int32) × RingMemory) : Prop where
  goesOn : done.1.2 = none
  carries : done.2.Carries n (queue.pop 512)
  readCount : done.1.1.readCount =
    locals.readCount + UInt32.ofNat (min 512 queue.items.length)
  stores : ∃ piece : List (Nat × UInt8),
    done.1.1.stores = locals.stores ++ piece ∧
    piece.length = min 512 queue.items.length -
      min uncopied (min 512 queue.items.length) ∧
    (uncopied = 0 →
      piece.map Prod.fst = (List.range (min 512 queue.items.length)).map
        (locals.readCount.toNat + ·) ∧
      piece.map Prod.snd = queue.delivered 512)

theorem readRound_took (carries : memory.Carries n queue)
    (sized : rb.size.toNat = n) (small : n < 2 ^ 31) (uncopied : Nat)
    (locals : ReadLocals) (busy : queue.items ≠ []) :
    RoundTook n queue uncopied locals
      (memory.call (quadcopterReadRound rb uncopied locals)) := by
  obtain ⟨done, _⟩ := carries.read sized small locals.kbuf 512 (by decide)
  have value := done.value
  have delivers := done.delivers
  have after := done.carries
  have unfolded := @round_call rb memory uncopied locals
  dsimp only at unfolded
  change _ = ((min 512 queue.items.length : Nat) : Int) at value
  change _ = queue.delivered 512 at delivers
  change RingMemory.Carries n (queue.pop 512) _ at after
  generalize hCall : memory.call (ringbufRead rb locals.kbuf 512) = read
    at value delivers after unfolded
  obtain ⟨⟨rbCount, kbuf⟩, later⟩ := read
  dsimp only at value delivers after
  have positive : 0 < queue.items.length := List.length_pos_iff.mpr busy
  have some_read : ¬ rbCount ≤ 0 := by
    intro le
    have bound := Int32.le_iff_toInt_le.mp le
    rw [value] at bound
    change ((min 512 queue.items.length : Nat) : Int) ≤ 0 at bound
    omega
  have counted : rbCount.toUInt32.toNat = min 512 queue.items.length := by
    rw [MachineInt.toNat_toUInt32 rbCount (by omega), value]
    rfl
  have ofCount : rbCount.toUInt32 =
      UInt32.ofNat (min 512 queue.items.length) := by
    rw [← counted, UInt32.ofNat_toNat]
  have result : (memory.call (quadcopterReadRound rb uncopied locals)).1 =
      ({ kbuf, readCount := locals.readCount + rbCount.toUInt32,
         stores := locals.stores ++ (copyToUser locals.readCount.toNat kbuf
           rbCount.toUInt32 uncopied).2 }, none) := by
    unfold RingMemory.call at hCall ⊢
    unfold quadcopterReadRound
    rw [Program.run_bind, hCall]
    dsimp only
    rw [if_neg some_read, if_neg (copyToUser_not_negative _ _ _ _)]
    rfl
  rw [unfolded, result]
  refine ⟨rfl, after, congrArg (locals.readCount + ·) ofCount, ?_⟩
  refine ⟨_, rfl, ?_, ?_⟩
  · rw [copyToUser_length, counted]
  · intro whole
    subst whole
    obtain ⟨offsets, bytes⟩ := copyToUser_complete locals.readCount.toNat
      kbuf rbCount.toUInt32
    rw [counted] at offsets bytes
    exact ⟨offsets, bytes.trans delivers⟩

def pushAll (queue : BoundedFifo UInt8 (n - 1)) (writes : List RingWrite) :
    BoundedFifo UInt8 (n - 1) :=
  writes.foldl
    (fun queue write => queue.push (write.buf.first write.count.toInt.toNat))
    queue

private theorem arrive_spec (carries : memory.Carries n queue)
    (sized : rb.size.toNat = n) (small : n < 2 ^ 31)
    (writes : List RingWrite) :
    (arrive rb memory writes).2.Carries n (pushAll queue writes) ∧
      (pushAll queue writes).items =
        queue.items ++ (arrive rb memory writes).1 := by
  induction writes generalizing memory queue with
  | nil => exact ⟨carries, (List.append_nil _).symm⟩
  | cons write writes ih =>
      obtain ⟨done, _⟩ := carries.write sized small write.buf write.count
        write.nonneg
      obtain ⟨after, items⟩ := ih done.carries
      refine ⟨after, ?_⟩
      change (pushAll (queue.push _) writes).items = _
      rw [items, BoundedFifo.push_items, List.append_assoc,
        ← done.accepted_eq]
      rfl

end Round

/-! ### The queue that each round meets -/

section Rounds

variable {n : Nat}

def queueBefore (queue : BoundedFifo UInt8 (n - 1)) (rounds : Nat → ReadRound) :
    Nat → BoundedFifo UInt8 (n - 1)
  | 0 => queue
  | round + 1 =>
      (pushAll (queueBefore queue rounds round) (rounds round).writes).pop 512

def queueAt (queue : BoundedFifo UInt8 (n - 1)) (rounds : Nat → ReadRound)
    (round : Nat) : BoundedFifo UInt8 (n - 1) :=
  pushAll (queueBefore queue rounds round) (rounds round).writes

def takenBefore (queue : BoundedFifo UInt8 (n - 1))
    (rounds : Nat → ReadRound) : Nat → Nat
  | 0 => 0
  | round + 1 =>
      takenBefore queue rounds round +
        min 512 (queueAt queue rounds round).items.length

/-- No earlier round found the ring empty, and the caller still wants bytes. -/
structure Reached (queue : BoundedFifo UInt8 (n - 1))
    (rounds : Nat → ReadRound) (count : UInt32) (round : Nat) : Prop where
  busy : ∀ earlier, earlier < round → (queueAt queue rounds earlier).items ≠ []
  wanting : takenBefore queue rounds round < count.toNat

/-- What a round finds in the ring, up to 512 bytes, is no more than the caller
has left to ask for, and all of it can be copied. -/
def RoundFits (queue : BoundedFifo UInt8 (n - 1)) (rounds : Nat → ReadRound)
    (count : UInt32) (round : Nat) : Prop :=
  takenBefore queue rounds round +
      min 512 (queueAt queue rounds round).items.length ≤ count.toNat ∧
    ((queueAt queue rounds round).items = [] ∨ (rounds round).uncopied = 0)

/-- The call stores the `r` oldest bytes of the ring at the first `r` offsets,
takes exactly them, and returns `r`, which is at most `count`. -/
def ReadsExactly (n : Nat) (before : List UInt8) (count : UInt32)
    (result : ReadResult) : Prop :=
  ∃ r : Nat, r ≤ count.toNat ∧ result.value = (UInt32.ofNat r).toInt32 ∧
    result.stores.map Prod.fst = List.range r ∧
    result.stores.map Prod.snd = (before ++ result.arrived).take r ∧
    result.memory.unread n = (before ++ result.arrived).drop r

structure Popped (n : Nat) (before arrived : List UInt8) (memory : RingMemory)
    (queue : BoundedFifo UInt8 (n - 1)) (taken : Nat) : Prop where
  carries : memory.Carries n queue
  rest : queue.items = (before ++ arrived).drop taken
  within : taken ≤ (before ++ arrived).length

structure Served (before arrived : List UInt8) (locals : ReadLocals)
    (taken : Nat) : Prop where
  readCount : locals.readCount.toNat = taken
  offsets : locals.stores.map Prod.fst = List.range taken
  bytes : locals.stores.map Prod.snd = (before ++ arrived).take taken

/-- Bytes have left the ring that the caller did not ask for or did not get. -/
def Lost (locals : ReadLocals) (count : UInt32) (taken : Nat) : Prop :=
  count.toNat < taken ∨ locals.stores.length < taken

variable {before arrived : List UInt8} {memory : RingMemory}
  {queue : BoundedFifo UInt8 (n - 1)} {taken : Nat} {locals : ReadLocals}
  {count : UInt32} {rb : Ringbuf}

theorem Popped.arrive (popped : Popped n before arrived memory queue taken)
    (sized : rb.size.toNat = n) (small : n < 2 ^ 31)
    (writes : List RingWrite) :
    Popped n before (arrived ++ (arrive rb memory writes).1)
      (arrive rb memory writes).2 (pushAll queue writes) taken := by
  obtain ⟨carries, items⟩ := arrive_spec popped.carries sized small writes
  refine ⟨carries, ?_, ?_⟩
  · rw [items, popped.rest, ← List.append_assoc,
      List.drop_append_of_le_length popped.within]
  · have within := popped.within
    rw [← List.append_assoc, List.length_append]
    omega

theorem Popped.pop (popped : Popped n before arrived memory queue taken)
    {later : RingMemory} (carries : later.Carries n (queue.pop 512)) :
    Popped n before arrived later (queue.pop 512)
      (taken + min 512 queue.items.length) := by
  have length : queue.items.length = (before ++ arrived).length - taken := by
    rw [popped.rest, List.length_drop]
  have within := popped.within
  refine ⟨carries, ?_, by omega⟩
  rw [BoundedFifo.pop_items, popped.rest, List.drop_drop, ← popped.rest]
  rcases Nat.le_total 512 queue.items.length with more | fewer
  · rw [Nat.min_eq_left more]
  · rw [Nat.min_eq_right fewer, List.drop_eq_nil_of_le (by omega),
      List.drop_eq_nil_of_le (by omega)]

theorem Served.arrive (served : Served before arrived locals taken)
    (within : taken ≤ (before ++ arrived).length) (more : List UInt8) :
    Served before (arrived ++ more) locals taken := by
  refine ⟨served.readCount, served.offsets, ?_⟩
  rw [← List.append_assoc, List.take_append_of_le_length within]
  exact served.bytes

/-- A round that fits serves what it takes. -/
theorem Served.round (served : Served before arrived locals taken)
    (popped : Popped n before arrived memory queue taken)
    {done : (ReadLocals × Option Int32) × RingMemory}
    (took : RoundTook n queue 0 locals done)
    (fits : taken + min 512 queue.items.length < 2 ^ 32) :
    Served before arrived done.1.1
      (taken + min 512 queue.items.length) := by
  obtain ⟨piece, stores, _, whole⟩ := took.stores
  obtain ⟨offsets, bytes⟩ := whole rfl
  refine ⟨?_, ?_, ?_⟩
  · rw [took.readCount, UInt32.toNat_add, UInt32.toNat_ofNat',
      served.readCount]
    omega
  · rw [stores, List.map_append, served.offsets, offsets, served.readCount,
      List.range_add]
  · rw [stores, List.map_append, served.bytes, bytes, List.take_add,
      BoundedFifo.delivered, popped.rest]
    congr 1
    rw [List.take_eq_take_iff, List.length_drop]
    omega

/-- A round that does not fit loses bytes. -/
theorem Lost.of_round {uncopied : Nat}
    (served : Served before arrived locals taken)
    {done : (ReadLocals × Option Int32) × RingMemory}
    (took : RoundTook n queue uncopied locals done)
    (busy : queue.items ≠ [])
    (overfull : count.toNat < taken + min 512 queue.items.length ∨
      uncopied ≠ 0) :
    Lost done.1.1 count (taken + min 512 queue.items.length) := by
  rcases overfull with beyond | fault
  · exact Or.inl beyond
  · right
    have positive : 0 < queue.items.length := List.length_pos_iff.mpr busy
    have stored := congrArg List.length served.offsets
    rw [List.length_map, List.length_range] at stored
    obtain ⟨piece, stores, length, _⟩ := took.stores
    rw [stores, List.length_append, length, stored]
    omega

theorem Lost.round {uncopied : Nat} (lost : Lost locals count taken)
    {done : (ReadLocals × Option Int32) × RingMemory}
    (took : RoundTook n queue uncopied locals done) :
    Lost done.1.1 count (taken + min 512 queue.items.length) := by
  rcases lost with beyond | short
  · exact Or.inl (by omega)
  · right
    obtain ⟨piece, stores, length, _⟩ := took.stores
    rw [stores, List.length_append, length]
    omega

private theorem Lost.not_exactly (lost : Lost locals count taken)
    {result : ReadResult}
    (popped : Popped n before result.arrived result.memory queue taken)
    (stores : result.stores = locals.stores) :
    ¬ ReadsExactly n before count result := by
  intro ⟨r, within, _, offsets, bytes, unread⟩
  have stored := congrArg List.length offsets
  rw [stores, List.length_map, List.length_range] at stored
  have taken_all := congrArg List.length bytes
  rw [stores, List.length_map, List.length_take, stored] at taken_all
  have left := congrArg List.length unread
  rw [popped.carries.unread, popped.rest, List.length_drop, List.length_drop]
    at left
  have bound := popped.within
  rcases lost with beyond | short <;> omega

end Rounds

/-! ### The whole call -/

section Loop

variable {n : Nat} {before arrived : List UInt8} {memory : RingMemory}
  {locals : ReadLocals} {count : UInt32} {rb : Ringbuf}
  {rounds : Nat → ReadRound} (sized : rb.size.toNat = n) (small : n < 2 ^ 31)

theorem readLoop_leaves (fuel round : Nat) (enough : ¬ locals.readCount < count) :
    quadcopterReadLoop rb count rounds (fuel + 1) round locals arrived memory =
      some { value := locals.readCount.toInt32, stores := locals.stores,
             arrived, memory } := by
  simp only [quadcopterReadLoop, if_neg enough]

theorem readLoop_ends {value : Int32} (fuel round : Nat)
    (wanting : locals.readCount < count)
    (ends : ((arrive rb memory (rounds round).writes).2.call
      (quadcopterReadRound rb (rounds round).uncopied locals)).1.2 =
        some value) :
    quadcopterReadLoop rb count rounds (fuel + 1) round locals arrived memory =
      some { value
             stores := ((arrive rb memory (rounds round).writes).2.call
               (quadcopterReadRound rb (rounds round).uncopied
                 locals)).1.1.stores
             arrived := arrived ++ (arrive rb memory (rounds round).writes).1
             memory := ((arrive rb memory (rounds round).writes).2.call
               (quadcopterReadRound rb (rounds round).uncopied locals)).2 } := by
  simp only [quadcopterReadLoop, if_pos wanting, ends]

theorem readLoop_goesOn (fuel round : Nat) (wanting : locals.readCount < count)
    (goesOn : ((arrive rb memory (rounds round).writes).2.call
      (quadcopterReadRound rb (rounds round).uncopied locals)).1.2 = none) :
    quadcopterReadLoop rb count rounds (fuel + 1) round locals arrived memory =
      quadcopterReadLoop rb count rounds fuel (round + 1)
        ((arrive rb memory (rounds round).writes).2.call
          (quadcopterReadRound rb (rounds round).uncopied locals)).1.1
        (arrived ++ (arrive rb memory (rounds round).writes).1)
        ((arrive rb memory (rounds round).writes).2.call
          (quadcopterReadRound rb (rounds round).uncopied locals)).2 := by
  simp only [quadcopterReadLoop, if_pos wanting, goesOn]

theorem Served.exactly {taken : Nat} {queue : BoundedFifo UInt8 (n - 1)}
    (served : Served before arrived locals taken)
    (popped : Popped n before arrived memory queue taken)
    (within : taken ≤ count.toNat) {result : ReadResult}
    (value : result.value = locals.readCount.toInt32)
    (stores : result.stores = locals.stores)
    (arrivals : result.arrived = arrived) (after : result.memory = memory) :
    ReadsExactly n before count result := by
  refine ⟨taken, within, ?_, ?_, ?_, ?_⟩
  · rw [value, ← served.readCount, UInt32.ofNat_toNat]
  · rw [stores]
    exact served.offsets
  · rw [stores, arrivals]
    exact served.bytes
  · rw [after, arrivals, popped.carries.unread, popped.rest]

include sized small in
private theorem readLoop_lost {taken : Nat} {queue : BoundedFifo UInt8 (n - 1)}
    (lost : Lost locals count taken)
    (popped : Popped n before arrived memory queue taken)
    (fuel round : Nat) {result : ReadResult}
    (returns : quadcopterReadLoop rb count rounds fuel round locals arrived
      memory = some result) : ¬ ReadsExactly n before count result := by
  induction fuel generalizing round locals arrived memory taken queue with
  | zero => cases returns
  | succ fuel ih =>
      by_cases wanting : locals.readCount < count
      · have filled := popped.arrive sized small (rounds round).writes
        by_cases busy : (pushAll queue (rounds round).writes).items = []
        · obtain ⟨ends, stores, after⟩ := readRound_empty filled.carries sized
            small (rounds round).uncopied locals busy
          rw [readLoop_ends fuel round wanting ends] at returns
          cases returns
          have final := filled.pop after
          rw [busy, List.length_nil, Nat.min_zero, Nat.add_zero] at final
          exact lost.not_exactly final stores
        · have took := readRound_took filled.carries sized small
            (rounds round).uncopied locals busy
          rw [readLoop_goesOn fuel round wanting took.goesOn] at returns
          exact ih (lost.round took) (filled.pop took.carries) (round + 1)
            returns
      · rw [readLoop_leaves fuel round wanting] at returns
        cases returns
        exact lost.not_exactly popped rfl

variable {queue : BoundedFifo UInt8 (n - 1)}

include sized small in
/-- Induction on the fuel, which outlasts what the caller still wants. -/
theorem readLoop_serves
    (fits : ∀ round, Reached queue rounds count round →
      RoundFits queue rounds count round) (fuel round : Nat)
    (busy : ∀ earlier, earlier < round →
      (queueAt queue rounds earlier).items ≠ [])
    (within : takenBefore queue rounds round ≤ count.toNat)
    (outlasts : count.toNat < takenBefore queue rounds round + fuel)
    (popped : Popped n before arrived memory
      (queueBefore queue rounds round) (takenBefore queue rounds round))
    (served : Served before arrived locals (takenBefore queue rounds round)) :
    ∃ result, quadcopterReadLoop rb count rounds fuel round locals arrived
        memory = some result ∧ ReadsExactly n before count result := by
  induction fuel generalizing round locals arrived memory with
  | zero => omega
  | succ fuel ih =>
      by_cases wanting : locals.readCount < count
      · have less := UInt32.lt_iff_toNat_lt.mp wanting
        rw [served.readCount] at less
        obtain ⟨room, copied⟩ := fits round ⟨busy, less⟩
        have filled := popped.arrive sized small (rounds round).writes
        have now := served.arrive popped.within
          (arrive rb memory (rounds round).writes).1
        by_cases empty : (queueAt queue rounds round).items = []
        · obtain ⟨ends, stores, after⟩ := readRound_empty filled.carries sized
            small (rounds round).uncopied locals empty
          have final := filled.pop after
          change (pushAll _ _).items = [] at empty
          rw [empty, List.length_nil, Nat.min_zero, Nat.add_zero] at final
          exact ⟨_, readLoop_ends fuel round wanting ends,
            now.exactly final within rfl stores rfl rfl⟩
        · have whole := copied.resolve_left empty
          have took := readRound_took filled.carries sized small
            (rounds round).uncopied locals empty
          rw [readLoop_goesOn fuel round wanting took.goesOn]
          have after := filled.pop took.carries
          rw [whole] at took
          have next := now.round filled took
              (Nat.lt_of_le_of_lt room count.toNat_lt)
          refine ih (round + 1) ?_ room ?_ after (whole ▸ next)
          · intro earlier before_next
            rcases Nat.lt_or_eq_of_le (Nat.le_of_lt_succ before_next) with
              old | rfl
            · exact busy earlier old
            · exact empty
          · have some_taken : 0 < (queueAt queue rounds round).items.length :=
              List.length_pos_iff.mpr empty
            change _ < takenBefore queue rounds round + min 512 _ + fuel
            omega
      · have enough : ¬ takenBefore queue rounds round < count.toNat := by
          rw [← served.readCount]
          exact fun less => wanting (UInt32.lt_iff_toNat_lt.mpr less)
        exact ⟨_, readLoop_leaves fuel round wanting,
          served.exactly popped within rfl rfl rfl rfl⟩

private theorem takenBefore_mono {first later : Nat} (order : first ≤ later) :
    takenBefore queue rounds first ≤ takenBefore queue rounds later := by
  induction later, order using Nat.le_induction with
  | base => exact Nat.le_refl _
  | succ later _ ih => exact Nat.le_trans ih (Nat.le_add_right _ _)

include sized small in
/-- Induction on the fuel: a call that reads exactly meets only rounds that
fit. -/
theorem readLoop_fits (fuel round : Nat)
    (within : takenBefore queue rounds round ≤ count.toNat)
    (popped : Popped n before arrived memory
      (queueBefore queue rounds round) (takenBefore queue rounds round))
    (served : Served before arrived locals (takenBefore queue rounds round))
    {result : ReadResult}
    (returns : quadcopterReadLoop rb count rounds fuel round locals arrived
      memory = some result) (exactly : ReadsExactly n before count result)
    {later : Nat} (order : round ≤ later)
    (reached : Reached queue rounds count later) :
    RoundFits queue rounds count later := by
  induction fuel generalizing round locals arrived memory with
  | zero => cases returns
  | succ fuel ih =>
      have less : takenBefore queue rounds round < count.toNat :=
        Nat.lt_of_le_of_lt (takenBefore_mono order) reached.wanting
      have wanting : locals.readCount < count :=
        UInt32.lt_iff_toNat_lt.mpr (by rw [served.readCount]; exact less)
      have filled := popped.arrive sized small (rounds round).writes
      have now := served.arrive popped.within
        (arrive rb memory (rounds round).writes).1
      by_cases empty : (queueAt queue rounds round).items = []
      · rcases Nat.lt_or_eq_of_le order with after | rfl
        · exact absurd empty (reached.busy round after)
        · refine ⟨?_, Or.inl empty⟩
          rw [empty, List.length_nil, Nat.min_zero]
          exact within
      · have took := readRound_took filled.carries sized small
          (rounds round).uncopied locals empty
        have after := filled.pop took.carries
        rw [readLoop_goesOn fuel round wanting took.goesOn] at returns
        by_cases overfull : count.toNat < takenBefore queue rounds round +
            min 512 (queueAt queue rounds round).items.length ∨
          (rounds round).uncopied ≠ 0
        · have lost := Lost.of_round now took empty overfull
          exact absurd exactly
            (readLoop_lost sized small lost after fuel (round + 1) returns)
        · have room : takenBefore queue rounds round +
              min 512 (queueAt queue rounds round).items.length ≤
                count.toNat := by
            omega
          have whole : (rounds round).uncopied = 0 := by
            omega
          rcases Nat.lt_or_eq_of_le order with further | rfl
          · rw [whole] at took
            have next := now.round filled took
              (Nat.lt_of_le_of_lt room count.toNat_lt)
            exact ih (round + 1) room after (whole ▸ next) returns further
          · exact ⟨room, Or.inr whole⟩

end Loop

/-- A read of the control device returns what was asked for, and no more,
exactly when every round of its loop finds no more than the caller still has
room for. -/
theorem quadcopter_read_exactly_iff {n : Nat} {rb : Ringbuf}
    (sized : rb.size.toNat = n) (small : n < 2 ^ 31) {memory : RingMemory}
    {queue : BoundedFifo UInt8 (n - 1)} (carries : memory.Carries n queue)
    (kbuf : Buffer) (count : UInt32) (rounds : Nat → ReadRound) :
    (∃ fuel result,
        quadcopterRead rb kbuf count rounds fuel memory = some result ∧
          ReadsExactly n queue.items count result) ↔
      ∀ round, Reached queue rounds count round →
        RoundFits queue rounds count round := by
  have popped : Popped n queue.items [] memory queue 0 :=
    ⟨carries, by simp, Nat.zero_le _⟩
  have served : Served queue.items []
      { kbuf, readCount := 0, stores := [] } 0 := ⟨rfl, rfl, rfl⟩
  constructor
  · intro ⟨fuel, result, returns, exactly⟩ round reached
    exact readLoop_fits sized small fuel 0 (Nat.zero_le _) popped served
      returns exactly (Nat.zero_le _) reached
  · intro fits
    have outlasts : count.toNat < takenBefore queue rounds 0 +
        (count.toNat + 1) := by
      change _ < 0 + _
      omega
    obtain ⟨result, returns, exactly⟩ := readLoop_serves sized small fits
      (count.toNat + 1) 0 (fun _ none => absurd none (Nat.not_lt_zero _))
      (Nat.zero_le _) outlasts popped served
    exact ⟨count.toNat + 1, result, returns, exactly⟩

/-- A ring of four cells that holds two bytes, read whole. -/
theorem quadcopter_read_exactly_iff_of_two :
    ∃ fuel result,
      quadcopterRead ⟨4⟩ (fun _ => 0) 2 (fun _ => ⟨[], 0⟩) fuel
          ⟨2, 0, fun _ => 7⟩ = some result ∧
        ReadsExactly 4 [7, 7] 2 result := by
  have carries : RingMemory.Carries 4 ⟨[7, 7], by decide⟩
      ⟨2, 0, fun _ => 7⟩ := by
    refine ⟨⟨⟨2, 0, fun _ => 7⟩, [7, 7], 0⟩,
      ⟨rfl, rfl, by decide, by decide, ?_⟩, rfl, rfl⟩
    intro position _ readable
    rcases position with _ | _ | position
    · rfl
    · rfl
    · exact absurd readable (by simp)
  refine (quadcopter_read_exactly_iff (rfl : (4 : UInt32).toNat = 4)
    (by decide) carries (fun _ => 0) 2 (fun _ => ⟨[], 0⟩)).mpr ?_
  intro round reached
  cases round with
  | zero => exact ⟨by decide, Or.inr rfl⟩
  | succ round =>
      have wanting := reached.wanting
      have first := @takenBefore_mono 4 (fun _ => ⟨[], 0⟩) ⟨[7, 7], by decide⟩
        1 (round + 1) (Nat.le_add_left 1 round)
      change 2 ≤ _ at first
      change _ < 2 at wanting
      omega

/-- Two bytes lie in the receive ring and one is asked for. -/
theorem quadcopter_read_overruns :
    ¬ ∃ fuel result,
      quadcopterRead rbRx (fun _ => 0) 1 (fun _ => ⟨[], 0⟩) fuel
          ⟨2, 0, fun _ => 7⟩ = some result ∧
        ReadsExactly rbRx.size.toNat [7, 7] 1 result := by
  intro ⟨fuel, result, returns, r, within, value, _⟩
  have two : result.value = 2 := by
    match fuel with
    | 0 => cases returns
    | 1 => cases returns
    | fuel + 2 =>
        cases returns
        rfl
  have small : r = 0 ∨ r = 1 := by
    change r ≤ 1 at within
    omega
  rw [two] at value
  rcases small with rfl | rfl
  · exact absurd value (by decide)
  · exact absurd value (by decide)

end Quadcopter.ControlDevice

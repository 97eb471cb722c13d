import Quadcopter.Kmod.ControlRead
import Quadcopter.Kmod.ControlWrite

/-
Faults in the user's buffer.

Both functions ask whether the number of uncopied bytes is below zero, which an
unsigned long never is.  A copy that stops early is taken for a whole one, so
what the caller gets, and what he is told, hangs on which pieces are copied
whole.
-/

namespace Quadcopter.ControlDevice

open AtomicProgram MachineInt

/-- Whatever the caller's buffer holds, the write appends a first part of it to
the ring, and tells a fault of its first copy by a negative value if that part
is empty. -/
def WriteKeeps (n : Nat) (rb : Ringbuf) (memory : RingMemory)
    (uncopied : Nat → Nat) (count : UInt32) : Prop :=
  ∀ bytes kbuf : Buffer, ∃ (value : Int32) (r : Nat),
    (memory.call (quadcopterWrite rb ⟨bytes, uncopied⟩ kbuf count)).1 =
        some value ∧
      (memory.call (quadcopterWrite rb ⟨bytes, uncopied⟩ kbuf count)).2.unread
          n = memory.unread n ++ bytes.first r ∧
      (r = 0 → 0 < count.toNat → 0 < uncopied 0 → value.toInt < 0)

section Write

variable {n : Nat} {rb : Ringbuf} {memory : RingMemory}
  {uncopied : Nat → Nat} {count : UInt32}

/-- The ring has room for no byte that its copy leaves out, and if it has room
for none at all then the first copy does not stop. -/
structure WriteCopied (n : Nat) (memory : RingMemory) (uncopied : Nat → Nat)
    (count : UInt32) : Prop where
  copied : ∀ index, index < min count.toNat (n - 1 - memory.held n) →
    index % 512 < brought uncopied count.toNat (index / 512)
  full : n - 1 - memory.held n = 0 → 0 < count.toNat → uncopied 0 = 0

private theorem write_call_unread (sized : rb.size.toNat = n)
    (small : n < 2 ^ 31)
    (writeBound : memory.writePos.toNat < n)
    (readBound : memory.readPos.toNat < n) (user : UserBuffer)
    (kbuf : Buffer) :
    ∃ value : Int32,
      value.toInt = ((min count.toNat (n - 1 - memory.held n) : Nat) : Int) ∧
      (memory.call (quadcopterWrite rb user kbuf count)).1 = some value ∧
      (memory.call (quadcopterWrite rb user kbuf count)).2.unread n =
        memory.unread n ++ (user.seen count.toNat).first
          (min count.toNat (n - 1 - memory.held n)) := by
  have bound : memory.held n < n := Nat.mod_lt _ (by omega)
  obtain ⟨value, counted, called⟩ := quadcopterWrite_call sized small writeBound
    readBound user count kbuf
  refine ⟨value, counted, ?_, ?_⟩
  · rw [called]
  · rw [called]
    exact RingMemory.unread_written small writeBound readBound _ (by omega)

private theorem writeKeeps_iff (sized : rb.size.toNat = n) (small : n < 2 ^ 31)
    (writeBound : memory.writePos.toNat < n)
    (readBound : memory.readPos.toNat < n) :
    WriteKeeps n rb memory uncopied count ↔
      WriteCopied n memory uncopied count := by
  constructor
  · intro keeps
    -- a buffer of ones shows the zeros that a copy leaves
    obtain ⟨value, r, returned, unread, told⟩ := keeps (fun _ => 1) (fun _ => 0)
    obtain ⟨value', counted, returned', unread'⟩ := @write_call_unread n rb
      memory count sized small writeBound readBound ⟨fun _ => 1, uncopied⟩
      (fun _ => 0)
    rw [returned] at returned'
    cases returned'
    rw [unread'] at unread
    have appended := List.append_cancel_left unread
    have length := congrArg List.length appended
    rw [Buffer.first_length, Buffer.first_length] at length
    subst r
    constructor
    · intro index inside
      have byte := congrArg (fun bytes => bytes[index]?) appended
      rw [Buffer.first_getElem? _ inside, Buffer.first_getElem? _ inside] at byte
      by_cases within : index % 512 < brought uncopied count.toNat (index / 512)
      · exact within
      · unfold UserBuffer.seen at byte
        rw [if_neg within] at byte
        cases byte
    · intro none_free asked
      rcases Nat.eq_zero_or_pos (uncopied 0) with whole | fault
      · exact whole
      · have negative := told (by omega) asked fault
        omega
  · intro copied bytes kbuf
    obtain ⟨value, counted, returned, unread⟩ := @write_call_unread n rb
      memory count sized small writeBound readBound ⟨bytes, uncopied⟩ kbuf
    refine ⟨value, min count.toNat (n - 1 - memory.held n), returned, ?_, ?_⟩
    · rw [unread]
      congr 1
      apply Buffer.first_congr
      intro index inside
      exact if_pos (copied.copied index inside)
    · intro none_appended asked fault
      have whole := copied.full (by omega) asked
      omega

end Write

/-- The bytes that leave the ring, the oldest ones, are the bytes that reach the
caller, the value counts no more than them, and it is negative if the first copy
stops and none of them reach the caller. -/
def ReadKeeps (n : Nat) (rb : Ringbuf) (memory : RingMemory)
    (uncopied : Nat → Nat) (count : UInt32) : Prop :=
  ∀ kbuf : Buffer, ∃ fuel result r,
    quadcopterRead rb kbuf count (fun round => ⟨[], uncopied round⟩) fuel
        memory = some result ∧
      result.stores.map Prod.fst = List.range r ∧
      result.stores.map Prod.snd ++ result.memory.unread n =
        memory.unread n ∧
      result.value.toInt ≤ r ∧
      (r = 0 → 0 < count.toNat → memory.unread n ≠ [] → 0 < uncopied 0 →
        result.value.toInt < 0)

/-- No round that asks for bytes and finds some of the `held` is stopped by its
copy. -/
def ReadCopied (held : Nat) (uncopied : Nat → Nat) (count : UInt32) : Prop :=
  ∀ round, round * 512 < count.toNat → round * 512 < held → uncopied round = 0

section Read

variable {n : Nat} {rb : Ringbuf} {items : List UInt8}
  {uncopied : Nat → Nat} {count : UInt32}

/-- Before a round: all bytes that have left the ring are with the caller, or
some copy has stopped and there are fewer there. -/
structure Reading (items : List UInt8) (uncopied : Nat → Nat) (count : UInt32)
    (round : Nat) (locals : ReadLocals) : Prop where
  readCount : locals.readCount.toNat = min (round * 512) items.length
  entered : ∀ earlier, earlier < round → earlier * 512 < count.toNat
  outcome :
    ((∀ earlier, earlier < round → earlier * 512 < items.length →
        uncopied earlier = 0) ∧
      Served items [] locals (min (round * 512) items.length)) ∨
    ((∃ earlier, earlier < round ∧ earlier * 512 < items.length ∧
        uncopied earlier ≠ 0) ∧
      locals.stores.length < min (round * 512) items.length)

structure ReadEnd (n : Nat) (items : List UInt8) (uncopied : Nat → Nat)
    (count : UInt32) (round : Nat) (locals : ReadLocals)
    (result : ReadResult) : Prop where
  reading : Reading items uncopied count round locals
  last : ∀ other, other * 512 < count.toNat → other * 512 < items.length →
    other < round
  value : result.value = locals.readCount.toInt32
  stores : result.stores = locals.stores
  unread : result.memory.unread n = items.drop (min (round * 512) items.length)

variable {queue : BoundedFifo UInt8 (n - 1)} {memory : RingMemory}
  {locals : ReadLocals} {round : Nat}

private theorem Popped.round_length
    (popped : Popped n items [] memory queue
      (min (round * 512) items.length)) :
    queue.items.length = items.length - min (round * 512) items.length := by
  rw [popped.rest, List.length_drop, List.append_nil]

/-- A round that finds bytes. -/
theorem Reading.advance {done : (ReadLocals × Option Int32) × RingMemory}
    (small : items.length < 2 ^ 31)
    (reading : Reading items uncopied count round locals)
    (popped : Popped n items [] memory queue (min (round * 512) items.length))
    (wanting : locals.readCount.toNat < count.toNat)
    (busy : queue.items ≠ [])
    (took : RoundTook n queue (uncopied round) locals done) :
    Reading items uncopied count (round + 1) done.1.1 := by
  have positive : 0 < queue.items.length := List.length_pos_iff.mpr busy
  have length := popped.round_length
  have before := reading.readCount
  have taken : min (round * 512) items.length + min 512 queue.items.length =
      min ((round + 1) * 512) items.length := by omega
  have count_eq : done.1.1.readCount.toNat =
      min ((round + 1) * 512) items.length := by
    rw [took.readCount, UInt32.toNat_add, UInt32.toNat_ofNat']
    omega
  refine ⟨count_eq, ?_, ?_⟩
  · intro earlier order
    rcases Nat.lt_or_eq_of_le (Nat.le_of_lt_succ order) with old | rfl
    · exact reading.entered earlier old
    · omega
  · obtain ⟨piece, stores, piece_length, _⟩ := took.stores
    have stored : done.1.1.stores.length =
        locals.stores.length + piece.length := by
      rw [stores, List.length_append]
    rcases reading.outcome with ⟨whole, served⟩ | ⟨stopped, short⟩
    · rcases Nat.eq_zero_or_pos (uncopied round) with complete | fault
      · left
        constructor
        · intro earlier order inside
          rcases Nat.lt_or_eq_of_le (Nat.le_of_lt_succ order) with old | rfl
          · exact whole earlier old inside
          · exact complete
        · rw [complete] at took
          rw [← taken]
          exact served.round popped took (by omega)
      · right
        have served_length := congrArg List.length served.offsets
        rw [List.length_map, List.length_range] at served_length
        exact ⟨⟨round, Nat.lt_succ_self _, by omega, by omega⟩, by omega⟩
    · right
      obtain ⟨earlier, order, inside, fault⟩ := stopped
      exact ⟨⟨earlier, by omega, inside, fault⟩, by omega⟩

/-- A round finds the ring empty. -/
theorem Reading.ends_empty {result : ReadResult}
    (reading : Reading items uncopied count round locals)
    (popped : Popped n items [] memory queue (min (round * 512) items.length))
    (empty : queue.items = [])
    (value : result.value = locals.readCount.toInt32)
    (stores : result.stores = locals.stores)
    (after : result.memory.Carries n (queue.pop 512)) :
    ReadEnd n items uncopied count round locals result := by
  have length := popped.round_length
  have final := popped.pop after
  rw [empty, List.length_nil] at length
  rw [empty, List.length_nil, Nat.min_zero, Nat.add_zero] at final
  refine ⟨reading, ?_, value, stores, ?_⟩
  · intro other _ inside
    omega
  · have rest := final.rest
    rw [List.append_nil] at rest
    exact final.carries.unread.trans rest

/-- The caller has all that it asked for. -/
theorem Reading.ends_full {result : ReadResult}
    (reading : Reading items uncopied count round locals)
    (popped : Popped n items [] memory queue (min (round * 512) items.length))
    (enough : count.toNat ≤ locals.readCount.toNat)
    (value : result.value = locals.readCount.toInt32)
    (stores : result.stores = locals.stores)
    (same : result.memory = memory) :
    ReadEnd n items uncopied count round locals result := by
  have count_eq := reading.readCount
  refine ⟨reading, ?_, value, stores, ?_⟩
  · intro other asked inside
    omega
  · have rest := popped.rest
    rw [List.append_nil] at rest
    rw [same]
    exact popped.carries.unread.trans rest

private theorem Popped.round_next {later : RingMemory}
    (popped : Popped n items [] memory queue (min (round * 512) items.length))
    (after : later.Carries n (queue.pop 512)) :
    Popped n items [] later (queue.pop 512)
      (min ((round + 1) * 512) items.length) := by
  have length := popped.round_length
  have taken : min (round * 512) items.length + min 512 queue.items.length =
      min ((round + 1) * 512) items.length := by omega
  have next := popped.pop after
  rw [taken] at next
  exact next

/-- Induction on the fuel.  The m3 writes nothing, so the arrivals stay empty. -/
theorem readLoop_reading (sized : rb.size.toNat = n) (small : n < 2 ^ 31)
    (short : items.length < n) (fuel : Nat)
    (reading : Reading items uncopied count round locals)
    (popped : Popped n items [] memory queue
      (min (round * 512) items.length)) :
    (∀ result,
      quadcopterReadLoop rb count (fun round => ⟨[], uncopied round⟩) fuel round
          locals [] memory = some result →
        ∃ last locals', ReadEnd n items uncopied count last locals' result) ∧
      (count.toNat - locals.readCount.toNat < fuel →
        ∃ result,
          quadcopterReadLoop rb count (fun round => ⟨[], uncopied round⟩) fuel
            round locals [] memory = some result) := by
  induction fuel generalizing round locals memory queue with
  | zero =>
      constructor
      · intro result returns
        cases returns
      · intro outlasts
        exact absurd outlasts (Nat.not_lt_zero _)
  | succ fuel ih =>
      by_cases wanting : locals.readCount < count
      · have less := UInt32.lt_iff_toNat_lt.mp wanting
        by_cases empty : queue.items = []
        · obtain ⟨ends, stores, after⟩ := readRound_empty popped.carries sized
            small (uncopied round) locals empty
          rw [@readLoop_ends [] memory locals count rb
            (fun round => ⟨[], uncopied round⟩) _ fuel round wanting ends]
          refine ⟨?_, fun _ => ⟨_, rfl⟩⟩
          intro result returns
          cases returns
          exact ⟨round, locals,
            reading.ends_empty popped empty rfl stores after⟩
        · have took := readRound_took popped.carries sized small
            (uncopied round) locals empty
          have next := reading.advance (by omega) popped less empty took
          obtain ⟨each, outlasts⟩ := ih next
            (popped.round_next took.carries)
          rw [@readLoop_goesOn [] memory locals count rb
            (fun round => ⟨[], uncopied round⟩) fuel round wanting took.goesOn]
          refine ⟨each, ?_⟩
          intro enough
          have positive : 0 < queue.items.length :=
            List.length_pos_iff.mpr empty
          have length := popped.round_length
          have count_eq := reading.readCount
          have advanced := next.readCount
          exact outlasts (by omega)
      · have enough := UInt32.le_iff_toNat_le.mp (UInt32.not_lt.mp wanting)
        rw [readLoop_leaves fuel round wanting]
        refine ⟨?_, fun _ => ⟨_, rfl⟩⟩
        intro result returns
        cases returns
        exact ⟨round, locals, reading.ends_full popped enough rfl rfl rfl⟩

/-- Everything was copied, or fewer bytes reached the caller than left the
ring. -/
theorem ReadEnd.outcome {round : Nat} {result : ReadResult}
    (ended : ReadEnd n items uncopied count round locals result) :
    (ReadCopied items.length uncopied count ∧
      Served items [] locals (min (round * 512) items.length)) ∨
    (¬ ReadCopied items.length uncopied count ∧
      locals.stores.length < min (round * 512) items.length) := by
  rcases ended.reading.outcome with ⟨whole, served⟩ | ⟨stopped, short⟩
  · left
    refine ⟨?_, served⟩
    intro other asked inside
    exact whole other (ended.last other asked inside) inside
  · right
    obtain ⟨earlier, order, inside, fault⟩ := stopped
    refine ⟨?_, short⟩
    intro copied
    exact fault (copied earlier (ended.reading.entered earlier order) inside)

private theorem readKeeps_iff (sized : rb.size.toNat = n) (small : n < 2 ^ 31)
    (writeBound : memory.writePos.toNat < n)
    (readBound : memory.readPos.toNat < n) :
    ReadKeeps n rb memory uncopied count ↔
      ReadCopied (memory.held n) uncopied count := by
  obtain ⟨queue, carries, items_eq⟩ :=
    RingMemory.Carries.of_positions writeBound readBound
  have held : memory.held n = (memory.unread n).length := by
    rw [carries.held, items_eq]
  have short : (memory.unread n).length < n := by
    rw [← held]
    exact Nat.mod_lt _ (by omega)
  have popped : Popped n (memory.unread n) [] memory queue
      (min (0 * 512) (memory.unread n).length) :=
    ⟨carries, by simp [items_eq], by simp⟩
  have begun : ∀ kbuf, Reading (memory.unread n) uncopied count 0
      { kbuf, readCount := 0, stores := [] } := by
    intro kbuf
    refine ⟨by simp, fun _ none => absurd none (Nat.not_lt_zero _), Or.inl ?_⟩
    refine ⟨fun _ none => absurd none (Nat.not_lt_zero _), ?_⟩
    exact ⟨by simp, by simp, by simp⟩
  rw [held]
  constructor
  · intro keeps
    obtain ⟨fuel, result, r, returns, offsets, bytes, _⟩ := keeps (fun _ => 0)
    obtain ⟨round, locals, ended⟩ := (readLoop_reading sized small short fuel
      (begun _) popped).1 result returns
    rcases ended.outcome with ⟨copied, _⟩ | ⟨_, fewer⟩
    · exact copied
    · have whole := congrArg List.length bytes
      rw [ended.stores, ended.unread, List.length_append, List.length_map,
        List.length_drop] at whole
      omega
  · intro copied kbuf
    obtain ⟨each, outlasts⟩ := readLoop_reading sized small short
      (count.toNat + 1) (begun kbuf) popped
    obtain ⟨result, returns⟩ := outlasts (by simp)
    obtain ⟨round, locals, ended⟩ := each result returns
    rcases ended.outcome with ⟨_, served⟩ | ⟨stopped, _⟩
    · have bytes := served.bytes
      rw [List.append_nil] at bytes
      refine ⟨count.toNat + 1, result,
        min (round * 512) (memory.unread n).length, returns, ?_, ?_, ?_, ?_⟩
      · rw [ended.stores]
        exact served.offsets
      · rw [ended.stores, bytes, ended.unread, List.take_append_drop]
      · have value := ended.value
        have narrow := toInt_toInt32 locals.readCount
          (by rw [served.readCount]; omega)
        rw [served.readCount] at narrow
        exact Int.le_of_eq ((congrArg Int32.toInt value).trans narrow)
      · intro _ asked some_held fault
        have found : 0 < (memory.unread n).length :=
          List.length_pos_iff.mpr some_held
        have whole := copied 0 (by omega) (by omega)
        omega
    · exact absurd copied stopped

end Read

/-- Neither function loses or invents a byte exactly when the bytes that pass
between the ring and the user are in pieces that are copied whole. -/
theorem control_faults_keep_iff {n : Nat} {rb : Ringbuf}
    (sized : rb.size.toNat = n) (small : n < 2 ^ 31) {memory : RingMemory}
    (writeBound : memory.writePos.toNat < n)
    (readBound : memory.readPos.toNat < n) (uncopied : Nat → Nat)
    (count : UInt32) :
    (WriteKeeps n rb memory uncopied count ↔
      WriteCopied n memory uncopied count) ∧
    (ReadKeeps n rb memory uncopied count ↔
      ReadCopied (memory.held n) uncopied count) :=
  ⟨writeKeeps_iff sized small writeBound readBound,
    readKeeps_iff sized small writeBound readBound⟩

/-- Two bytes of the receive ring, copied whole. -/
theorem control_faults_keep_iff_of_rx :
    ReadKeeps rbRx.size.toNat rbRx ⟨2, 0, fun _ => 7⟩ (fun _ => 0) 2 :=
  (control_faults_keep_iff rfl (by decide) (by decide) (by decide)
    (fun _ => 0) 2).2.mpr (fun _ _ _ => rfl)

/-- Of 512 bytes none can be copied: a write puts zeros that the user never
wrote into the empty transmit ring, and a read drops what the receive ring
held. -/
theorem control_faults_invent_and_lose :
    ¬ WriteKeeps rbTx.size.toNat rbTx ⟨0, 0, fun _ => 0⟩ (fun _ => 512) 512 ∧
      ¬ ReadKeeps rbRx.size.toNat rbRx ⟨2, 0, fun _ => 7⟩ (fun _ => 512) 512 := by
  constructor
  · intro keeps
    have copied := (writeKeeps_iff rfl (by decide) (by decide)
      (by decide)).mp keeps
    exact absurd (copied.copied 0 (by decide)) (by decide)
  · intro keeps
    have copied := (readKeeps_iff rfl (by decide) (by decide)
      (by decide)).mp keeps
    exact absurd (copied 0 (by decide) (by decide)) (by decide)

end Quadcopter.ControlDevice

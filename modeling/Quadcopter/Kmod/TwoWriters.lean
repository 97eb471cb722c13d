import Quadcopter.Common.RingbufDisturbed
import Quadcopter.Kmod.ControlDevice

/-
Two processes that write to the control device at once.

quadcopter_write takes no lock, so the operations of the two ringbuf_write calls
may come in any order.  As long as one call is done before the other begins, the
run is the two calls one after the other.  Once both have loaded the same
*write_pos, each publishes its own bytes from there, and the last store decides
how many the ring holds.
-/

namespace Quadcopter.ControlDevice

open AtomicProgram

def reported (rbCount : Int32) : RingProgram (Option Int32) :=
  .ret (some rbCount.toUInt32.toInt32)

/-- A count of at most 512 bytes is one ringbuf_write, and none if it is 0. -/
theorem quadcopterWrite_short (rb : Ringbuf) (bytes kbuf : Buffer)
    {count : UInt32} (short : count ≤ 512) :
    quadcopterWrite rb (.readable bytes) kbuf count =
      if count = 0 then .ret (some 0)
      else ringbufWrite rb (copyFromUser kbuf bytes 0 count 0).2
        count.toInt32 >>= reported := by
  have bound := UInt32.le_iff_toNat_le.mp short
  have notMore : ¬ count > 512 :=
    fun more => absurd (UInt32.lt_iff_toNat_lt.mp more) (Nat.not_lt.mpr bound)
  by_cases none_asked : count = 0
  · subst none_asked
    rfl
  · have some_asked : 0 < count.toNat := by
      rcases Nat.eq_zero_or_pos count.toNat with zero | positive
      · exact absurd (UInt32.toNat_inj.mp zero) none_asked
      · exact positive
    have wanting : (0 : UInt32) < count := UInt32.lt_iff_toNat_lt.mpr some_asked
    obtain ⟨more, length⟩ : ∃ more, count.toNat = more + 1 :=
      ⟨count.toNat - 1, by omega⟩
    rw [if_neg none_asked]
    unfold quadcopterWrite
    rw [length]
    unfold quadcopterWriteLoop
    rw [if_pos wanting]
    simp only [if_neg notMore]
    rw [if_neg (copyFromUser_not_negative _ _ _ _ _)]
    congr 1
    funext rbCount
    unfold quadcopterWriteLoop
    rw [UInt32.zero_add]
    by_cases less : rbCount.toUInt32 < count
    · rw [if_pos less]
      rfl
    · rw [if_neg less, if_neg less]
      rfl

private theorem copied_first (kbuf bytes : Buffer) (count : UInt32) :
    Buffer.first (copyFromUser kbuf bytes 0 count 0).2 count.toNat =
      bytes.first count.toNat := by
  apply List.map_congr_left
  intro index member
  rw [copyFromUser_complete kbuf bytes 0 count (List.mem_range.mp member),
    Nat.zero_add]

private theorem count_toInt {count : UInt32} (short : count ≤ 512) :
    count.toInt32.toInt = count.toNat := by
  have bound := UInt32.le_iff_toNat_le.mp short
  change count.toNat ≤ 512 at bound
  exact MachineInt.toInt_toInt32 count (by omega)

private theorem quadcopterWrite_carries {n : Nat} {rb : Ringbuf}
    {queue : BoundedFifo UInt8 (n - 1)} {memory : RingMemory}
    (carries : memory.Carries n queue) (sized : rb.size.toNat = n)
    (small : n < 2 ^ 31) (bytes kbuf : Buffer) {count : UInt32}
    (short : count ≤ 512) :
    (memory.call (quadcopterWrite rb (.readable bytes) kbuf count)).2.Carries
      n (queue.push (bytes.first count.toNat)) := by
  rw [quadcopterWrite_short rb bytes kbuf short]
  by_cases none_asked : count = 0
  · rw [if_pos none_asked, none_asked]
    have same : queue.push (bytes.first (0 : UInt32).toNat) = queue := by
      apply BoundedFifo.ext
      change queue.items ++ List.take queue.room [] = queue.items
      rw [List.take_nil, List.append_nil]
    rw [same]
    exact carries
  · rw [if_neg none_asked]
    have counted := count_toInt short
    obtain ⟨done, _⟩ := carries.write sized small
      (copyFromUser kbuf bytes 0 count 0).2 count.toInt32 (by omega)
    have after := done.carries
    rw [counted, Int.toNat_natCast, copied_first] at after
    unfold RingMemory.call at after ⊢
    rw [Program.run_bind]
    exact after

/-! ### The two calls -/

structure Writers where
  bytes : Side → Buffer
  kbuf : Side → Buffer
  count : Side → UInt32

namespace Writers

def call (writers : Writers) (rb : Ringbuf) (side : Side) :
    RingProgram (Option Int32) :=
  quadcopterWrite rb (.readable (writers.bytes side)) (writers.kbuf side)
    (writers.count side)

abbrev System : Type :=
  Threads RingOp RingOp.Answer Side (fun _ => Option Int32) RingMemory

def string (writers : Writers) (side : Side) : List UInt8 :=
  (writers.bytes side).first (writers.count side).toNat

variable (writers : Writers) (n : Nat) (rb : Ringbuf) (memory : RingMemory)

def StoredBy (side : Side) (now : RingMemory) : Prop :=
  now.writePos.toNat =
    (memory.writePos.toNat + (writers.count side).toNat) % n

/-- While this call is copying: `*write_pos` is the one it has loaded, or the
other call has stored its own. -/
def Near (side : Side) (traffic : Traffic) : Prop :=
  traffic.memory.readPos = memory.readPos ∧
    (traffic.memory.writePos = memory.writePos ∨
      writers.StoredBy n memory side.other traffic.memory)

structure Copying (side : Side) (program : RingProgram (Option Int32))
    (now : RingMemory) : Prop where
  near : writers.Near n memory side ⟨now, [], 0⟩
  rest : ∃ body traffic,
    program = body >>= (fun copied => publish copied >>= reported) ∧
      traffic.memory = now ∧
      Holds (Traffic.execute n)
        (fun earlier later =>
          writers.Near n memory side earlier →
            writers.Near n memory side later)
        (fun _ op => RingOp.Quiet op)
        (fun copied _ => copied.1.toNat =
          (memory.writePos.toNat + (writers.count side).toNat) % n)
        body traffic

structure Solo (first : Side) (system : System) : Prop where
  untouched : system.program first.other = writers.call rb first.other
  own : ∀ done ∈ system.log, done.1 = first
  sameRun : (system.program first).run RingOp.execute system.state =
    (writers.call rb first).run RingOp.execute memory
  phase : (system.program first = writers.call rb first ∧
      system.state = memory ∧ system.log = []) ∨
    (writers.Copying n memory first (system.program first) system.state ∧
      system.state.writePos = memory.writePos ∧ system.log ≠ [] ∧
      writers.count first ≠ 0) ∨
    ∃ value, system.program first = .ret value

structure AfterFirst (first : Side) (system : System) : Prop where
  ordered : system.log.Pairwise
    (fun earlier later => later.1 = first → earlier.1 = first)
  returned : ∃ value, system.program first = .ret value
  sameRun : (system.program first.other).run RingOp.execute system.state =
    (writers.call rb first.other).run RingOp.execute
      ((writers.call rb first).run RingOp.execute memory).2

structure Overlapped (system : System) : Prop where
  readPos : system.state.readPos = memory.readPos
  nonempty : ∀ side, writers.count side ≠ 0
  begun : ∀ side, ∃ done ∈ system.log, done.1 = side
  phase : ∀ side,
    writers.Copying n memory side (system.program side) system.state ∨
      (∃ value, system.program side = .ret value) ∧
        Follows side system.log ∧
        ∃ last, writers.StoredBy n memory last system.state

inductive Progress (system : System) : Prop where
  | solo (first : Side) (solo : writers.Solo n rb memory first system)
  | afterFirst (first : Side)
      (after : writers.AfterFirst rb memory first system)
  | overlapped (overlapped : writers.Overlapped n memory system)

section Steps

variable {writers : Writers} {n : Nat} {rb : Ringbuf} {memory : RingMemory}

private theorem call_of_zero {side : Side}
    (none_asked : writers.count side = 0) :
    writers.call rb side = .ret (some 0) := by
  unfold call
  rw [none_asked]
  rfl

private theorem call_of_some {side : Side} (short : writers.count side ≤ 512)
    (some_asked : writers.count side ≠ 0) :
    ∃ buf : Buffer, writers.call rb side =
      .step .loadWritePos (fun writeTmp =>
        writeFrom rb buf (writers.count side).toInt32 writeTmp >>=
          fun copied => publish copied >>= reported) := by
  refine ⟨(copyFromUser (writers.kbuf side) (writers.bytes side) 0
    (writers.count side) 0).2, ?_⟩
  unfold call
  rw [quadcopterWrite_short _ _ _ short, if_neg some_asked, ringbufWrite_eq,
    Program.step_bind]
  congr 1
  funext writeTmp
  exact Program.bind_assoc _ _ _

theorem Near.quiet {side : Side} {now : RingMemory} {op : RingOp}
    (near : writers.Near n memory side ⟨now, [], 0⟩) (quiet : op.Quiet) :
    writers.Near n memory side ⟨(op.execute now).2, [], 0⟩ := by
  obtain ⟨sameWrite, sameRead⟩ := quiet.keeps now
  unfold Near StoredBy at near ⊢
  rw [sameWrite, sameRead]
  exact near

/-- A call that is copying either copies on, or stores its index and returns. -/
theorem Copying.cases_step {side : Side}
    {program : RingProgram (Option Int32)} {now : RingMemory}
    (copying : writers.Copying n memory side program now) :
    ∃ op next, program = .step op next ∧
      ((op.Quiet ∧ writers.Copying n memory side
          (next (op.execute now).1) (op.execute now).2) ∨
        (writers.StoredBy n memory side (op.execute now).2 ∧
          (op.execute now).2.readPos = now.readPos ∧
          ∃ value, next (op.execute now).1 = .ret value)) := by
  obtain ⟨near, body, traffic, rfl, rfl, holds⟩ := copying
  cases body with
  | ret copied =>
      have position := holds.post_now (fun _ near => near)
      exact ⟨.storeWritePos copied.1, _, rfl, Or.inr ⟨position, rfl, _, rfl⟩⟩
  | step op next =>
      obtain ⟨quiet, rest⟩ := holds.during_next (fun _ near => near)
      exact ⟨op, _, rfl, Or.inl ⟨quiet, near.quiet quiet, _, _, rfl, rfl, rest⟩⟩

theorem Copying.disturbed {side : Side} {program : RingProgram (Option Int32)}
    {now later : RingMemory}
    (copying : writers.Copying n memory side program now)
    (near : writers.Near n memory side ⟨later, [], 0⟩) :
    writers.Copying n memory side program later := by
  obtain ⟨_, body, traffic, rfl, rfl, holds⟩ := copying
  refine ⟨near, body, { traffic with memory := later }, rfl, rfl, ?_⟩
  exact holds.after_rely (fun _ _ _ first second start => second (first start))
    (fun _ => near)

variable {queue : BoundedFifo UInt8 (n - 1)}

structure Promised (writers : Writers) (n : Nat) (rb : Ringbuf)
    (memory : RingMemory) (queue : BoundedFifo UInt8 (n - 1)) : Prop where
  sized : rb.size.toNat = n
  small : n < 2 ^ 31
  carries : memory.Carries n queue
  short : ∀ side, writers.count side ≤ 512
  room : (writers.count .left).toNat + (writers.count .right).toNat ≤
    queue.room

private theorem Promised.room_for
    (promised : Promised writers n rb memory queue)
    (side : Side) :
    (writers.count side).toNat + (writers.count side.other).toNat ≤
      queue.room := by
  have room := promised.room
  cases side with
  | left => exact room
  | right =>
      rw [Nat.add_comm]
      exact room

private theorem Promised.held_stored
    (promised : Promised writers n rb memory queue)
    {side : Side} {now : RingMemory}
    (stored : writers.StoredBy n memory side now)
    (same : now.readPos = memory.readPos) :
    now.held n = queue.items.length + (writers.count side).toNat := by
  obtain ⟨writeBound, readBound⟩ := promised.carries.positions
  have held := promised.carries.held
  have room := promised.room_for side
  have account := queue.room_add_length
  have short : memory.held n + (writers.count side).toNat < n := by omega
  have sum : (memory.writePos.toNat + (writers.count side).toNat) % n =
      (memory.readPos.toNat +
        (memory.held n + (writers.count side).toNat)) % n := by
    rw [← Nat.add_assoc]
    rcases CircularWindow.apart_of_lt writeBound readBound with ahead | behind
    · exact congrArg (fun start => (start + _) % n) ahead
    · refine Eq.trans ?_ (congrArg (fun start => (start + _) % n) behind)
      rw [Nat.add_right_comm, Nat.add_mod_right]
  have far := CircularWindow.distance_eq memory.readPos.toNat
    (memory.held n + (writers.count side).toNat) short
  unfold StoredBy at stored
  rw [← sum, ← stored, Nat.mod_eq_of_lt readBound] at far
  rw [← held, RingMemory.held, same]
  exact far

theorem Promised.positions (promised : Promised writers n rb memory queue)
    {side : Side} {traffic : Traffic}
    (near : writers.Near n memory side traffic) :
    traffic.memory.writePos.toNat < n ∧ traffic.memory.readPos.toNat < n := by
  obtain ⟨writeBound, readBound⟩ := promised.carries.positions
  refine ⟨?_, near.1 ▸ readBound⟩
  rcases near.2 with same | stored
  · rw [same]
    exact writeBound
  · unfold StoredBy at stored
    rw [stored]
    exact Nat.mod_lt _ (by omega)

/-- The room that a call sees is enough for its own bytes. -/
theorem Promised.room_seen (promised : Promised writers n rb memory queue)
    {side : Side} {indices : RingMemory}
    (seen : Seen (fun _ => writers.Near n memory side) indices) :
    (writers.count side).toNat ≤ n - 1 - indices.held n := by
  have room := promised.room_for side
  have account := queue.room_add_length
  obtain ⟨reading, readNear, sameRead⟩ := seen.readPos
  obtain ⟨writing, writeNear, sameWrite⟩ := seen.writePos
  have read : indices.readPos = memory.readPos := sameRead ▸ readNear.1
  have held : indices.held n ≤
      queue.items.length + (writers.count side.other).toNat := by
    rcases writeNear.2 with same | stored
    · have write : indices.writePos = memory.writePos := sameWrite ▸ same
      unfold RingMemory.held
      rw [write, read]
      have now := promised.carries.held
      unfold RingMemory.held at now
      omega
    · have write : writers.StoredBy n memory side.other indices := by
        unfold StoredBy at stored ⊢
        rw [← sameWrite]
        exact stored
      exact Nat.le_of_eq (promised.held_stored write read)
  omega

/-- A call that has just loaded the first `*write_pos` begins to copy. -/
theorem Promised.copying (promised : Promised writers n rb memory queue)
    {side : Side} {now : RingMemory}
    (near : writers.Near n memory side ⟨now, [], 0⟩) (buf : Buffer) :
    writers.Copying n memory side
      (writeFrom rb buf (writers.count side).toInt32 memory.writePos >>=
        fun copied => publish copied >>= reported) now := by
  have counted := count_toInt (promised.short side)
  refine ⟨near, _, ⟨now, [], 0⟩, rfl, rfl, ?_⟩
  refine Holds.weaken ?_ (writeFrom_disturbed (fun _ near => near)
    (fun _ _ _ near moved => moved near)
    (fun _ near => promised.positions near) promised.sized promised.small
    (by omega) promised.carries.positions.1 (fun _ _ _ near => near) near)
  intro copied later ready
  obtain ⟨indices, seen, value⟩ := ready.value
  have enough := promised.room_seen seen
  rw [ready.position]
  congr 2
  omega

end Steps

/-! ### Every step of the two calls -/

section Run

variable {writers : Writers} {n : Nat} {rb : Ringbuf} {memory : RingMemory}
  {queue : BoundedFifo UInt8 (n - 1)} {system : System}

private theorem Solo.step_first (promised : Promised writers n rb memory queue)
    {first : Side} (solo : writers.Solo n rb memory first system) :
    writers.Solo n rb memory first
      (system.step RingOp.execute first) := by
  cases doing : system.program first with
  | ret value =>
      rw [Threads.step_ret doing]
      exact solo
  | step op next =>
      have same := solo.sameRun
      rw [doing, Program.run_step] at same
      rw [Threads.step_step doing]
      refine ⟨?_, ?_, ?_, ?_⟩
      · change Function.update system.program first _ first.other = _
        rw [Function.update_of_ne first.other_ne]
        exact solo.untouched
      · intro done member
        rcases List.mem_append.mp member with old | last
        · exact solo.own done old
        · rw [List.mem_singleton.mp last]
      · change (Function.update system.program first _ first).run _ _ = _
        rw [Function.update_self]
        exact same
      · change (Function.update system.program first _ first = _ ∧ _) ∨
          (writers.Copying n memory first
              (Function.update system.program first _ first) _ ∧ _) ∨
            ∃ value, Function.update system.program first _ first = _
        rw [Function.update_self]
        right
        rcases solo.phase with ⟨fresh, state, _⟩ | ⟨copying, loaded, _, some_asked⟩
          | ⟨value, returned⟩
        · left
          have some_asked : writers.count first ≠ 0 := by
            intro none_asked
            rw [call_of_zero none_asked, doing] at fresh
            cases fresh
          obtain ⟨buf, load⟩ := @call_of_some writers rb first
            (promised.short first) some_asked
          rw [load, doing] at fresh
          cases fresh
          have near : writers.Near n memory first ⟨system.state, [], 0⟩ := by
            rw [state]
            exact ⟨rfl, Or.inl rfl⟩
          have begun := promised.copying near buf
          rw [← state] at begun ⊢
          exact ⟨begun, rfl, by simp, some_asked⟩
        · obtain ⟨op', next', shape, quiet | stores⟩ := copying.cases_step
          · left
            rw [doing] at shape
            cases shape
            exact ⟨quiet.2, ((quiet.1.keeps _).1).trans loaded, by simp,
              some_asked⟩
          · right
            rw [doing] at shape
            cases shape
            exact stores.2.2
        · rw [doing] at returned
          cases returned

private theorem Solo.swap {first : Side}
    (solo : writers.Solo n rb memory first system)
    (fresh : system.program first = writers.call rb first)
    (state : system.state = memory) (log : system.log = []) :
    writers.Solo n rb memory first.other system := by
  refine ⟨?_, ?_, ?_, Or.inl ⟨solo.untouched, state, log⟩⟩
  · rw [Side.other_other]
    exact fresh
  · rw [log]
    intro done none_done
    cases none_done
  · rw [solo.untouched, state]

theorem Solo.asked {first : Side} (solo : writers.Solo n rb memory first system)
    {op : RingOp} {next : op.Answer → RingProgram (Option Int32)}
    (doing : system.program first.other = .step op next) :
    writers.count first.other ≠ 0 := by
  intro none_asked
  have untouched := solo.untouched
  rw [call_of_zero none_asked, doing] at untouched
  cases untouched

/-- The other call loads the index that the copying one has loaded. -/
theorem Solo.overlaps (promised : Promised writers n rb memory queue)
    {first : Side} (solo : writers.Solo n rb memory first system)
    {op : RingOp} {next : op.Answer → RingProgram (Option Int32)}
    (doing : system.program first.other = .step op next)
    (copying : writers.Copying n memory first (system.program first)
      system.state)
    (loaded : system.state.writePos = memory.writePos)
    (begun : system.log ≠ []) (nonempty : writers.count first ≠ 0) :
    writers.Overlapped n memory (system.step RingOp.execute first.other) := by
  have some_asked := solo.asked doing
  obtain ⟨buf, load⟩ := @call_of_some writers rb first.other
    (promised.short first.other) some_asked
  rw [← solo.untouched, doing] at load
  cases load
  have near : writers.Near n memory first.other ⟨system.state, [], 0⟩ :=
    ⟨copying.near.1, Or.inl loaded⟩
  have joins := promised.copying near buf
  rw [Threads.step_step doing]
  refine ⟨copying.near.1, ?_, ?_, ?_⟩
  · intro side
    rcases first.eq_or_other side with rfl | rfl
    · exact nonempty
    · exact some_asked
  · intro side
    rcases first.eq_or_other side with rfl | rfl
    · obtain ⟨done, member⟩ := List.exists_mem_of_ne_nil _ begun
      exact ⟨done, List.mem_append_left _ member, solo.own done member⟩
    · exact ⟨_, List.mem_append_right _ (List.mem_singleton_self _), rfl⟩
  · intro side
    rcases first.eq_or_other side with rfl | rfl
    · left
      change writers.Copying n memory side
        (Function.update system.program side.other _ side) system.state
      rw [Function.update_of_ne side.other_ne.symm]
      exact copying
    · left
      change writers.Copying n memory first.other
        (Function.update system.program first.other _ first.other)
        system.state
      rw [Function.update_self]
      change writers.Copying n memory first.other
        (writeFrom rb buf _ system.state.writePos >>= _) system.state
      rw [loaded]
      exact joins

/-- The other call begins when the first has returned. -/
theorem Solo.goes_on {first : Side}
    (solo : writers.Solo n rb memory first system) {op : RingOp}
    {next : op.Answer → RingProgram (Option Int32)}
    (doing : system.program first.other = .step op next)
    {value : Option Int32} (returned : system.program first = .ret value) :
    writers.AfterFirst rb memory first
      (system.step RingOp.execute first.other) := by
  rw [Threads.step_step doing]
  have same := solo.sameRun
  rw [returned, Program.run_ret] at same
  refine ⟨?_, ?_, ?_⟩
  · rw [List.pairwise_append]
    refine ⟨?_, List.pairwise_singleton _ _, ?_⟩
    · exact List.pairwise_of_forall_mem_list
        (fun earlier member _ _ _ => solo.own earlier member)
    · intro earlier member _ _ _
      exact solo.own earlier member
  · refine ⟨value, ?_⟩
    change Function.update system.program first.other _ first = _
    rw [Function.update_of_ne first.other_ne.symm]
    exact returned
  · change (Function.update system.program first.other _ first.other).run
      _ _ = _
    rw [Function.update_self, ← same, ← solo.untouched, doing]
    rfl

theorem Solo.step_other (promised : Promised writers n rb memory queue)
    {first : Side} (solo : writers.Solo n rb memory first system) :
    writers.Progress n rb memory
      (system.step RingOp.execute first.other) := by
  cases doing : system.program first.other with
  | ret value =>
      rw [Threads.step_ret doing]
      exact .solo first solo
  | step op next =>
      rcases solo.phase with ⟨fresh, state, log⟩ |
        ⟨copying, loaded, begun, nonempty⟩ | ⟨value, returned⟩
      · exact .solo first.other
          ((solo.swap fresh state log).step_first promised)
      · exact .overlapped
          (solo.overlaps promised doing copying loaded begun nonempty)
      · exact .afterFirst first (solo.goes_on doing returned)

theorem AfterFirst.step {first : Side}
    (after : writers.AfterFirst rb memory first system) (side : Side) :
    writers.AfterFirst rb memory first (system.step RingOp.execute side) := by
  obtain ⟨value, returned⟩ := after.returned
  rcases first.eq_or_other side with rfl | rfl
  · rw [Threads.step_ret returned]
    exact after
  · cases doing : system.program first.other with
    | ret value =>
        rw [Threads.step_ret doing]
        exact after
    | step op next =>
        have same := after.sameRun
        rw [doing, Program.run_step] at same
        rw [Threads.step_step doing]
        refine ⟨?_, ⟨value, ?_⟩, ?_⟩
        · rw [List.pairwise_append]
          refine ⟨after.ordered, List.pairwise_singleton _ _, ?_⟩
          intro earlier _ last member impossible
          rw [List.mem_singleton.mp member] at impossible
          exact absurd impossible first.other_ne
        · change Function.update system.program first.other _ first = _
          rw [Function.update_of_ne first.other_ne.symm]
          exact returned
        · change (Function.update system.program first.other _ first.other).run
            _ _ = _
          rw [Function.update_self]
          exact same

theorem Overlapped.step (overlapped : writers.Overlapped n memory system)
    (side : Side) :
    writers.Overlapped n memory (system.step RingOp.execute side) := by
  rcases overlapped.phase side with copying | ⟨⟨value, returned⟩, _⟩
  · obtain ⟨op, next, doing, does⟩ := copying.cases_step
    have foreign : ∃ earlier ∈ system.log, earlier.1 ≠ side := by
      obtain ⟨done, member, same⟩ := overlapped.begun side.other
      exact ⟨done, member, same ▸ side.other_ne⟩
    have follows := Follows.last op foreign
    have other := overlapped.phase side.other
    rw [Threads.step_step doing]
    refine ⟨?_, overlapped.nonempty, ?_, ?_⟩
    · rcases does with ⟨quiet, _⟩ | ⟨_, sameRead, _⟩
      · exact ((quiet.keeps _).2).trans overlapped.readPos
      · exact sameRead.trans overlapped.readPos
    · intro which
      obtain ⟨done, member, same⟩ := overlapped.begun which
      exact ⟨done, List.mem_append_left _ member, same⟩
    · intro which
      rcases side.eq_or_other which with rfl | rfl
      · dsimp only
        rw [Function.update_self]
        rcases does with ⟨_, goesOn⟩ | ⟨stored, _, returns⟩
        · exact Or.inl goesOn
        · exact Or.inr ⟨returns, follows, which, stored⟩
      · dsimp only
        rw [Function.update_of_ne side.other_ne]
        rcases other with copying | ⟨returned, first, last, stored⟩
        · left
          apply copying.disturbed
          rcases does with ⟨quiet, _⟩ | ⟨stored, sameRead, _⟩
          · exact copying.near.quiet quiet
          · refine ⟨sameRead.trans overlapped.readPos, Or.inr ?_⟩
            rw [Side.other_other]
            exact stored
        · right
          refine ⟨returned, first.append _, ?_⟩
          rcases does with ⟨quiet, _⟩ | ⟨stores, _, _⟩
          · refine ⟨last, ?_⟩
            unfold StoredBy at stored ⊢
            rw [(quiet.keeps _).1]
            exact stored
          · exact ⟨side, stores⟩
  · rw [Threads.step_ret returned]
    exact overlapped

theorem Progress.step (promised : Promised writers n rb memory queue)
    (progress : writers.Progress n rb memory system) (side : Side) :
    writers.Progress n rb memory (system.step RingOp.execute side) := by
  cases progress with
  | solo first solo =>
      rcases first.eq_or_other side with rfl | rfl
      · exact .solo side (solo.step_first promised)
      · exact solo.step_other promised
  | afterFirst first after => exact .afterFirst first (after.step side)
  | overlapped overlapped => exact .overlapped (overlapped.step side)

private theorem progress_run (promised : Promised writers n rb memory queue)
    (schedule : List Side) :
    writers.Progress n rb memory
      ((Threads.start (writers.call rb) memory).run RingOp.execute
        schedule) := by
  apply Threads.run_preserves (writers.Progress n rb memory)
    (fun _ side progress => progress.step promised side)
  refine .solo .left ⟨rfl, ?_, rfl, Or.inl ⟨rfl, rfl, rfl⟩⟩
  intro done none_done
  cases none_done

/-- The calls one after the other push both strings. -/
theorem Promised.in_turn (promised : Promised writers n rb memory queue)
    (first : Side) :
    (((writers.call rb first.other).run RingOp.execute
      ((writers.call rb first).run RingOp.execute memory).2).2).unread n =
        queue.items ++ writers.string first ++ writers.string first.other := by
  have room := promised.room_for first
  have one := quadcopterWrite_carries promised.carries promised.sized
    promised.small (writers.bytes first) (writers.kbuf first)
    (promised.short first)
  have two := quadcopterWrite_carries one promised.sized promised.small
    (writers.bytes first.other) (writers.kbuf first.other)
    (promised.short first.other)
  rw [BoundedFifo.push_push_of_fits] at two
  · refine two.unread.trans ?_
    rw [BoundedFifo.push_items, BoundedFifo.accepted_of_fits,
      List.append_assoc]
    · rfl
    · simpa using room
  · simpa using room

end Run

end Writers

/-- Two writers at once: the ring ends up with both strings, each whole, exactly
when one call did all its ring operations before the other's first. -/
theorem two_writers_whole_iff {n : Nat} {rb : Ringbuf}
    (sized : rb.size.toNat = n) (small : n < 2 ^ 31) {memory : RingMemory}
    {queue : BoundedFifo UInt8 (n - 1)} (carries : memory.Carries n queue)
    (writers : Writers) (short : ∀ side, writers.count side ≤ 512)
    (room : (writers.count .left).toNat + (writers.count .right).toNat ≤
      queue.room) (schedule : List Side) :
    let final := (Threads.start (writers.call rb) memory).run RingOp.execute
      schedule
    (∀ side, ∃ value, final.program side = .ret value) →
    ((∃ first : Side, final.state.unread n =
        queue.items ++ writers.string first ++ writers.string first.other) ↔
      InTurn final.log) := by
  intro final returned
  have promised : Writers.Promised writers n rb memory queue :=
    ⟨sized, small, carries, short, room⟩
  have progress : writers.Progress n rb memory final :=
    Writers.progress_run promised schedule
  cases progress with
  | solo first solo =>
      obtain ⟨value, done⟩ := returned first
      obtain ⟨value', done'⟩ := returned first.other
      have same := solo.sameRun
      have rest := promised.in_turn first
      rw [← same, done, ← solo.untouched, done'] at rest
      refine ⟨fun _ => ⟨first, ?_⟩, fun _ => ⟨first, rest⟩⟩
      exact List.pairwise_of_forall_mem_list
        (fun earlier member _ _ _ => solo.own earlier member)
  | afterFirst first after =>
      obtain ⟨value, done⟩ := returned first.other
      have rest := promised.in_turn first
      rw [← after.sameRun, done] at rest
      exact ⟨fun _ => ⟨first, after.ordered⟩, fun _ => ⟨first, rest⟩⟩
  | overlapped overlapped =>
      have finished : ∀ side, Follows side final.log ∧
          ∃ last, writers.StoredBy n memory last final.state := by
        intro side
        obtain ⟨value, done⟩ := returned side
        rcases overlapped.phase side with copying | ⟨_, follows, stored⟩
        · obtain ⟨op, next, doing, _⟩ := copying.cases_step
          rw [done] at doing
          cases doing
        · exact ⟨follows, stored⟩
      obtain ⟨last, stored⟩ := (finished .left).2
      have held := promised.held_stored stored overlapped.readPos
      constructor
      · intro ⟨first, whole⟩
        exfalso
        have length := congrArg List.length whole
        have nonempty : (writers.count last.other).toNat ≠ 0 := fun zero =>
          overlapped.nonempty last.other (UInt32.toNat_inj.mp zero)
        have total : (writers.string first).length +
            (writers.string first.other).length =
              (writers.count last).toNat +
                (writers.count last.other).toNat := by
          simp only [Writers.string, Buffer.first_length]
          rcases last.eq_or_other first with rfl | rfl
          · rfl
          · rw [Side.other_other, Nat.add_comm]
        rw [RingMemory.unread, CircularWindow.window_length, held,
          List.length_append, List.length_append] at length
        omega
      · exact fun inTurn =>
          absurd inTurn (not_inTurn (fun side => (finished side).1))

def oneByteEach : Writers where
  bytes := fun side _ => if side = .left then 1 else 2
  kbuf := fun _ _ => 0
  count := fun _ => 1

theorem two_writers_whole_iff_of_turns :
    InTurn ((Threads.start (oneByteEach.call ⟨8⟩) ⟨0, 0, fun _ => 0⟩).run
      RingOp.execute
      (List.replicate 9 .left ++ List.replicate 9 .right)).log :=
  (two_writers_whole_iff (rfl : (8 : UInt32).toNat = 8) (by decide)
    (⟨⟨⟨0, 0, fun _ => 0⟩, [], 0⟩, ⟨rfl, rfl, by decide, by decide,
      fun _ _ readable => absurd readable (Nat.not_lt_zero _)⟩, rfl, rfl⟩ :
      RingMemory.Carries 8 .empty ⟨0, 0, fun _ => 0⟩)
    oneByteEach
    (fun _ => (by decide : (1 : UInt32) ≤ 512)) (by decide)
    (List.replicate 9 .left ++ List.replicate 9 .right)
    (fun side => by cases side <;> exact ⟨some 1, rfl⟩)).mp ⟨.left, rfl⟩

/-- Both processes load `*write_pos` before either of them stores it. -/
theorem two_writers_lose_a_byte :
    ¬ ∀ schedule : List Side,
      let final := (Threads.start (oneByteEach.call rbTx)
        ⟨0, 0, fun _ => 0⟩).run RingOp.execute schedule
      (∀ side, ∃ value, final.program side = .ret value) →
        ∃ first : Side, final.state.unread rbTx.size.toNat =
          oneByteEach.string first ++ oneByteEach.string first.other := by
  intro whole
  obtain ⟨first, kept⟩ := whole
    (.left :: List.replicate 9 .right ++ List.replicate 8 .left)
    (fun side => by cases side <;> exact ⟨some 1, rfl⟩)
  have lost := congrArg List.length kept
  cases first with
  | left => exact absurd lost (by decide +kernel)
  | right => exact absurd lost (by decide +kernel)

end Quadcopter.ControlDevice

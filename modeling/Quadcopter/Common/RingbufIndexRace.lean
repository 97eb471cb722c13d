import Quadcopter.Common.RingbufDisturbed

/-
A host call on a ring whose index ringbuf_init sets to 0 at the same time.

The m3's command_init calls ringbuf_init on rings that the host goes on using,
with no handshake.  A host call loads its index first and stores it last, and
ringbuf_init stores 0 there once: between the two, before, or after.
-/

namespace Quadcopter

open AtomicProgram CircularWindow

namespace Restart

inductive Index where
  | write
  | read
deriving DecidableEq, Repr

namespace Index

def other : Index → Index
  | .write => .read
  | .read => .write

def of : Index → RingMemory → UInt32
  | .write, memory => memory.writePos
  | .read, memory => memory.readPos

def load : Index → RingProgram UInt32
  | .write => loadWritePos
  | .read => loadReadPos

def storeOp : Index → UInt32 → RingOp
  | .write => .storeWritePos
  | .read => .storeReadPos

def store : Index → UInt32 → RingProgram Unit
  | .write => storeWritePos
  | .read => storeReadPos

def resetAt : Index → Nat
  | .write => 1
  | .read => 2

theorem other_other (index : Index) : index.other.other = index := by
  cases index <;> rfl

private theorem resetAt_pos (index : Index) : 0 < index.resetAt := by
  cases index <;> decide

private theorem resetAt_other_ne (index : Index) :
    index.other.resetAt ≠ index.resetAt := by
  cases index <;> decide

private theorem storeOp_not_quiet (index : Index) (value : UInt32) :
    ¬ (index.storeOp value).Quiet := by
  cases index <;> exact fun quiet => quiet

private theorem storeOp_inj {first second : Index} {value : UInt32}
    (same : first.storeOp value = second.storeOp value) : first = second := by
  cases first <;> cases second <;> first | rfl | cases same

private theorem other_of_ne {first second : Index} (apart : first ≠ second) :
    first = second.other := by
  cases first <;> cases second <;> first | rfl | exact absurd rfl apart

private theorem load_step {α : Type} (index : Index)
    (rest : UInt32 → RingProgram α) :
    ∃ op next, (index.load >>= rest) = .step op next ∧ op.Quiet ∧
      ∀ memory, (op.execute memory).2 = memory ∧
        next (op.execute memory).1 = rest (index.of memory) := by
  cases index with
  | write => exact ⟨.loadWritePos, rest, rfl, trivial, fun _ => ⟨rfl, rfl⟩⟩
  | read => exact ⟨.loadReadPos, rest, rfl, trivial, fun _ => ⟨rfl, rfl⟩⟩

structure Moved (index : Index) (value : UInt32) (before after : RingMemory) :
    Prop where
  own : index.of after = value
  foreign : index.other.of after = index.other.of before
  data : after.data = before.data

theorem storeOp_moves (index : Index) (value : UInt32) (memory : RingMemory) :
    index.Moved value memory ((index.storeOp value).execute memory).2 := by
  cases index with
  | write => exact ⟨rfl, rfl, rfl⟩
  | read => exact ⟨rfl, rfl, rfl⟩

private theorem store_step {α : Type} (index : Index) (value : UInt32)
    (rest : RingProgram α) :
    ∃ next, (index.store value >>= fun _ => rest) =
        .step (index.storeOp value) next ∧ ∀ answer, next answer = rest := by
  cases index with
  | write => exact ⟨fun _ => rest, rfl, fun _ => rfl⟩
  | read => exact ⟨fun _ => rest, rfl, fun _ => rfl⟩

private theorem quiet_keeps {op : RingOp} (quiet : op.Quiet) (index : Index)
    (memory : RingMemory) : index.of (op.execute memory).2 = index.of memory := by
  cases index with
  | write => exact (quiet.keeps memory).1
  | read => exact (quiet.keeps memory).2

end Index

/-- A host call that loads one index first and stores it last. -/
structure HostCall (α : Type) where
  index : Index
  Copied : Type
  body : UInt32 → RingProgram Copied
  position : Copied → UInt32
  value : Copied → α

def HostCall.finish {α : Type} (call : HostCall α) (copied : call.Copied) :
    RingProgram α := do
  call.index.store (call.position copied)
  return call.value copied

def HostCall.program {α : Type} (call : HostCall α) : RingProgram α :=
  call.index.load >>= fun loaded => call.body loaded >>= call.finish

def hostWrite (rb : Ringbuf) (buf : Buffer) (count : Int32) :
    HostCall Int32 where
  index := .write
  Copied := UInt32 × Int32
  body := writeFrom rb buf count
  position := Prod.fst
  value := Prod.snd

theorem hostWrite_program (rb : Ringbuf) (buf : Buffer) (count : Int32) :
    (hostWrite rb buf count).program = ringbufWrite rb buf count :=
  (ringbufWrite_eq rb buf count).symm

def hostRead (rb : Ringbuf) (buf : Buffer) (count : Int32) :
    HostCall (Int32 × Buffer) where
  index := .read
  Copied := UInt32 × Int32 × Buffer
  body := readFrom rb buf count
  position := Prod.fst
  value := Prod.snd

theorem hostRead_program (rb : Ringbuf) (buf : Buffer) (count : Int32) :
    (hostRead rb buf count).program = ringbufRead rb buf count :=
  (ringbufRead_eq rb buf count).symm

/-! ### The two programs -/

def Results (α : Type) : Side → Type
  | .left => α
  | .right => Ringbuf

abbrev System (α : Type) : Type :=
  Threads RingOp RingOp.Answer Side (Results α) RingMemory

def programs {α : Type} (host : RingProgram α) (size : UInt32) :
    (side : Side) → RingProgram (Results α side)
  | .left => host
  | .right => ringbufInit size

def initRest (size reduced : UInt32) : Nat → RingProgram Ringbuf
  | 0 => ringbufInit size
  | 1 => .step (.storeWritePos 0) (fun _ =>
      .step (.storeReadPos 0) (fun _ => .ret { size := reduced }))
  | 2 => .step (.storeReadPos 0) (fun _ => .ret { size := reduced })
  | _ => .ret { size := reduced }

theorem initRest_step (size reduced : UInt32) (done : Nat) (small : done < 3) :
    ∃ op next, initRest size reduced done = .step op next ∧
      (∀ memory, ∃ reduced', next (op.execute memory).1 =
        initRest size reduced' (done + 1)) ∧
      ((op.Quiet ∧ done = 0 ∧ ∀ memory, (op.execute memory).2 = memory) ∨
        ∃ index : Index, op = index.storeOp 0 ∧ done = index.resetAt) := by
  match done, small with
  | 0, _ =>
      exact ⟨.sub size 8, _, rfl, fun _ => ⟨size - 8, rfl⟩,
        Or.inl ⟨trivial, rfl, fun _ => rfl⟩⟩
  | 1, _ =>
      exact ⟨.storeWritePos 0, _, rfl, fun _ => ⟨reduced, rfl⟩,
        Or.inr ⟨.write, rfl, rfl⟩⟩
  | 2, _ =>
      exact ⟨.storeReadPos 0, _, rfl, fun _ => ⟨reduced, rfl⟩,
        Or.inr ⟨.read, rfl, rfl⟩⟩

def Inside (n : Nat) (memory : RingMemory) : Prop :=
  ∀ index : Index, (index.of memory).toNat < n

/-- ringbuf_init stores nothing but zeros, in the indices. -/
def Disturbs (traffic later : Traffic) : Prop :=
  later.memory.data = traffic.memory.data ∧
    ∀ index : Index, index.of later.memory = index.of traffic.memory ∨
      index.of later.memory = 0

theorem Disturbs.refl (traffic : Traffic) : Disturbs traffic traffic :=
  ⟨rfl, fun _ => Or.inl rfl⟩

theorem Disturbs.trans (first second third : Traffic)
    (before : Disturbs first second) (after : Disturbs second third) :
    Disturbs first third := by
  refine ⟨after.1.trans before.1, ?_⟩
  intro index
  rcases after.2 index with same | zero
  · rcases before.2 index with same' | zero
    · exact Or.inl (same.trans same')
    · exact Or.inr (same.trans zero)
  · exact Or.inr zero

theorem Index.Moved.disturbs {index : Index} {now later : RingMemory}
    {traffic : Traffic} (moved : index.Moved 0 now later)
    (here : traffic.memory = now) :
    Disturbs traffic { traffic with memory := later } := by
  subst here
  refine ⟨moved.data, ?_⟩
  intro which
  have own := moved.own
  have foreign := moved.foreign
  cases index <;> cases which
  · exact Or.inr own
  · exact Or.inl foreign
  · exact Or.inl foreign
  · exact Or.inr own

theorem Inside.disturbed {n : Nat} {traffic later : Traffic}
    (inside : Inside n traffic.memory) (moved : Disturbs traffic later) :
    Inside n later.memory := by
  intro index
  have bound := inside index
  rcases moved.2 index with same | zero
  · rw [same]
    exact bound
  · rw [zero]
    exact Nat.lt_of_le_of_lt (Nat.zero_le _) bound

/-- What the host call knows of its bytes when it stores its index, having
loaded it from the memory `start`. -/
abbrev Account {α : Type} (call : HostCall α) : Type :=
  (start : RingMemory) → call.Copied → Buffer → Prop

section Race

variable {α : Type} (call : HostCall α) (n : Nat) (account : Account call)

def CopiesFrom (start : RingMemory) (body : RingProgram call.Copied)
    (traffic : Traffic) : Prop :=
  Holds (Traffic.execute n) Disturbs (fun _ op => RingOp.Quiet op)
    (fun copied later => (call.position copied).toNat < n ∧
      account start copied later.memory.data) body traffic

def Meets : Prop :=
  ∀ start, Inside n start →
    CopiesFrom call n account start (call.body (call.index.of start))
      ⟨start, [], 0⟩

def Copying (start : RingMemory) (program : RingProgram α) (now : RingMemory) :
    Prop :=
  ∃ body traffic, program = body >>= call.finish ∧ traffic.memory = now ∧
    CopiesFrom call n account start body traffic

def Published (start : RingMemory) (program : RingProgram α)
    (now : RingMemory) : Prop :=
  ∃ copied, program = .ret (call.value copied) ∧
    call.index.of now = call.position copied ∧ account start copied now.data

variable {call n account}

theorem Copying.disturbed {start : RingMemory} {program : RingProgram α}
    {now later : RingMemory} {index : Index}
    (copying : Copying call n account start program now)
    (moved : index.Moved 0 now later) :
    Copying call n account start program later := by
  obtain ⟨body, traffic, rfl, rfl, holds⟩ := copying
  refine ⟨body, { traffic with memory := later }, rfl, rfl, ?_⟩
  exact holds.after_rely Disturbs.trans (moved.disturbs rfl)

theorem Copying.cases_step {start : RingMemory} {program : RingProgram α}
    {now : RingMemory} (copying : Copying call n account start program now) :
    ∃ op next, program = .step op next ∧
      ((op.Quiet ∧ Copying call n account start (next (op.execute now).1)
          (op.execute now).2) ∨
        ∃ copied, op = call.index.storeOp (call.position copied) ∧
          (call.position copied).toNat < n ∧ account start copied now.data ∧
          ∀ answer, next answer = .ret (call.value copied)) := by
  obtain ⟨body, traffic, rfl, rfl, holds⟩ := copying
  cases body with
  | ret copied =>
      obtain ⟨within, told⟩ := holds.post_now Disturbs.refl
      obtain ⟨next, shape, returns⟩ := call.index.store_step
        (call.position copied) (.ret (call.value copied))
      exact ⟨_, next, shape, Or.inr ⟨copied, rfl, within, told, returns⟩⟩
  | step op next =>
      obtain ⟨quiet, rest⟩ := holds.during_next Disturbs.refl
      exact ⟨op, _, rfl, Or.inl ⟨quiet, _, _, rfl, rfl, rest⟩⟩

theorem Inside.quiet {now : RingMemory} {op : RingOp} (inside : Inside n now)
    (quiet : op.Quiet) : Inside n (op.execute now).2 := by
  intro index
  rw [Index.quiet_keeps quiet]
  exact inside index

theorem Inside.moved {now later : RingMemory} {index : Index} {value : UInt32}
    (inside : Inside n now) (moved : index.Moved value now later)
    (within : value.toNat < n) : Inside n later := by
  intro which
  have own := moved.own
  have foreign := moved.foreign
  cases index <;> cases which
  · exact own ▸ within
  · exact foreign ▸ inside .read
  · exact foreign ▸ inside .write
  · exact own ▸ within

variable (call n account) (memory : RingMemory) (size : UInt32)

/-- What the host call has done when ringbuf_init has not stored its index. -/
inductive Before (program : RingProgram α) (now : RingMemory)
    (log : List (Side × RingOp)) : Prop where
  | idle (fresh : program = call.program)
      (same : call.index.of now = call.index.of memory)
      (none_done : ∀ done ∈ log, done.1 ≠ .left)
  | copying (start : RingMemory)
      (copying : Copying call n account start program now)
      (loaded : call.index.of start = call.index.of memory)
      (begun : ∃ done ∈ log, done.1 = .left)
  | returned (returned : ∃ value, program = .ret value)

inductive LoadedBy (start : RingMemory) (earlier : List (Side × RingOp)) :
    Prop where
  | old (same : call.index.of start = call.index.of memory)
      (begun : ∃ done ∈ earlier, done.1 = .left)
  | reset (zero : call.index.of start = 0)
      (foreign : call.index.other.resetAt < call.index.resetAt →
        call.index.other.of start = 0)
      (none_done : ∀ done ∈ earlier, done.1 ≠ .left)

inductive After (program : RingProgram α) (now : RingMemory)
    (earlier later : List (Side × RingOp)) : Prop where
  | idle (fresh : program = call.program) (reset : call.index.of now = 0)
      (none_done : ∀ done ∈ earlier, done.1 ≠ .left)
  | copying (start : RingMemory)
      (copying : Copying call n account start program now)
      (loadedBy : LoadedBy call memory start earlier)
  | published (start : RingMemory)
      (published : Published call account start program now)
      (loadedBy : LoadedBy call memory start earlier)
      (goesOn : ∃ done ∈ later, done.1 = .left)
  | early (returned : ∃ value, program = .ret value)
      (reset : call.index.of now = 0)
      (none_done : ∀ done ∈ later, done.1 ≠ .left)

def resetEntry : Side × RingOp := (.right, call.index.storeOp 0)

inductive Progress (system : System α) (done : Nat) : Prop where
  | before (early : done ≤ call.index.resetAt)
      (not_yet : resetEntry call ∉ system.log)
      (host : Before call n account memory (system.program .left)
        system.state system.log)
  | after (late : call.index.resetAt < done)
      (earlier later : List (Side × RingOp))
      (log : system.log = earlier ++ resetEntry call :: later)
      (once : resetEntry call ∉ earlier) (last : resetEntry call ∉ later)
      (host : After call n account memory (system.program .left)
        system.state earlier later)

structure Racing (system : System α) : Prop where
  inside : Inside n system.state
  init : ∃ done reduced, done ≤ 3 ∧
    system.program .right = initRest size reduced done ∧
    (call.index.other.resetAt < done →
      call.index.other.of system.state = 0) ∧
    Progress call n account memory system done

end Race

/-! ### Every step of the two programs -/

section Steps

variable {α : Type} {call : HostCall α} {n : Nat} {account : Account call}
  {memory : RingMemory} {size : UInt32} {system : System α}

private theorem right_ne_left {op : RingOp} : ((.right, op) : Side × RingOp).1 ≠
    .left :=
  fun same => by cases same

private theorem resetEntry_ne_left {log : List (Side × RingOp)} {op : RingOp}
    (absent : resetEntry call ∉ log) :
    resetEntry call ∉ log ++ [(.left, op)] := by
  intro member
  rcases List.mem_append.mp member with old | last
  · exact absent old
  · cases List.mem_singleton.mp last

private theorem resetEntry_ne_op {log : List (Side × RingOp)} {op : RingOp}
    (absent : resetEntry call ∉ log) (differs : op ≠ call.index.storeOp 0) :
    resetEntry call ∉ log ++ [(.right, op)] := by
  intro member
  rcases List.mem_append.mp member with old | last
  · exact absent old
  · exact differs (congrArg Prod.snd (List.mem_singleton.mp last)).symm

private theorem none_left_append {log : List (Side × RingOp)} {op : RingOp}
    (none_done : ∀ done ∈ log, done.1 ≠ .left) :
    ∀ done ∈ log ++ [(Side.right, op)], done.1 ≠ .left := by
  intro done member
  rcases List.mem_append.mp member with old | last
  · exact none_done done old
  · rw [List.mem_singleton.mp last]
    exact right_ne_left

private theorem left_append {log more : List (Side × RingOp)}
    (begun : ∃ done ∈ log, done.1 = .left) :
    ∃ done ∈ log ++ more, done.1 = .left := by
  obtain ⟨done, member, same⟩ := begun
  exact ⟨done, List.mem_append_left _ member, same⟩

/-- What a step of ringbuf_init does that is not the store of the call's
index. -/
inductive Aside (call : HostCall α) (now later : RingMemory) : Prop where
  | nothing (unchanged : later = now)
  | other (moved : call.index.other.Moved 0 now later)

theorem Aside.same {now later : RingMemory} (aside : Aside call now later) :
    call.index.of later = call.index.of now := by
  cases aside with
  | nothing unchanged => rw [unchanged]
  | other moved =>
      have foreign := moved.foreign
      rw [Index.other_other] at foreign
      exact foreign

theorem Aside.data {now later : RingMemory} (aside : Aside call now later) :
    later.data = now.data := by
  cases aside with
  | nothing unchanged => rw [unchanged]
  | other moved => exact moved.data

theorem Aside.copying {now later start : RingMemory}
    {program : RingProgram α} (aside : Aside call now later)
    (copying : Copying call n account start program now) :
    Copying call n account start program later := by
  cases aside with
  | nothing unchanged =>
      rw [unchanged]
      exact copying
  | other moved => exact copying.disturbed moved

theorem Before.beside {program : RingProgram α} {now later : RingMemory}
    {log : List (Side × RingOp)} {op : RingOp}
    (host : Before call n account memory program now log)
    (aside : Aside call now later) :
    Before call n account memory program later (log ++ [(.right, op)]) := by
  cases host with
  | idle fresh loaded none_done =>
      exact .idle fresh (aside.same.trans loaded) (none_left_append none_done)
  | copying start copying loaded begun =>
      exact .copying start (aside.copying copying) loaded (left_append begun)
  | returned returned => exact .returned returned

theorem After.beside {program : RingProgram α} {now later : RingMemory}
    {earlier rest : List (Side × RingOp)} {op : RingOp}
    (host : After call n account memory program now earlier rest)
    (aside : Aside call now later) :
    After call n account memory program later earlier
      (rest ++ [(.right, op)]) := by
  cases host with
  | idle fresh reset none_done =>
      exact .idle fresh (aside.same.trans reset) none_done
  | copying start copying loadedBy =>
      exact .copying start (aside.copying copying) loadedBy
  | published start published loadedBy goesOn =>
      obtain ⟨copied, returned, position, told⟩ := published
      exact .published start ⟨copied, returned, aside.same.trans position,
        aside.data ▸ told⟩ loadedBy (left_append goesOn)
  | early returned reset none_done =>
      exact .early returned (aside.same.trans reset)
        (none_left_append none_done)

theorem Before.reset {program : RingProgram α} {now later : RingMemory}
    {log : List (Side × RingOp)}
    (host : Before call n account memory program now log)
    (moved : call.index.Moved 0 now later) :
    After call n account memory program later log [] := by
  cases host with
  | idle fresh _ none_done => exact .idle fresh moved.own none_done
  | copying start copying loaded begun =>
      exact .copying start (copying.disturbed moved) (.old loaded begun)
  | returned returned =>
      exact .early returned moved.own (fun _ none_done => by cases none_done)

private theorem fresh_step {now : RingMemory} {op : RingOp}
    {next : op.Answer → RingProgram α} (meets : Meets call n account)
    (inside : Inside n now) (fresh : .step op next = call.program) :
    (op.execute now).2 = now ∧
      Copying call n account now (next (op.execute now).1) now := by
  obtain ⟨load, rest, shape, quiet, loads⟩ := call.index.load_step
    (fun loaded => call.body loaded >>= call.finish)
  cases fresh.trans shape
  obtain ⟨unchanged, answer⟩ := loads now
  rw [answer]
  exact ⟨unchanged, _, _, rfl, rfl, meets now inside⟩

theorem Before.step {now : RingMemory} {log : List (Side × RingOp)}
    {op : RingOp} {next : op.Answer → RingProgram α}
    (meets : Meets call n account) (inside : Inside n now)
    (host : Before call n account memory (.step op next) now log) :
    Before call n account memory (next (op.execute now).1) (op.execute now).2
        (log ++ [(.left, op)]) ∧
      Inside n (op.execute now).2 ∧
      call.index.other.of (op.execute now).2 = call.index.other.of now := by
  have done_now : ∃ done ∈ log ++ [(Side.left, op)], done.1 = .left :=
    ⟨_, List.mem_append_right _ (List.mem_singleton_self _), rfl⟩
  cases host with
  | idle fresh same none_done =>
      obtain ⟨unchanged, copying⟩ := fresh_step meets inside fresh
      rw [unchanged]
      exact ⟨.copying now copying same done_now, inside, rfl⟩
  | copying start copying loaded begun =>
      obtain ⟨op', next', shape, ⟨quiet, goesOn⟩ | stores⟩ :=
        copying.cases_step
      · cases shape
        exact ⟨.copying start goesOn loaded done_now, inside.quiet quiet,
          Index.quiet_keeps quiet _ now⟩
      · cases shape
        obtain ⟨copied, rfl, within, _, returns⟩ := stores
        have moved := call.index.storeOp_moves (call.position copied) now
        exact ⟨.returned ⟨_, returns _⟩, inside.moved moved within,
          moved.foreign⟩
  | returned returned =>
      obtain ⟨value, impossible⟩ := returned
      cases impossible

theorem After.step {now : RingMemory} {earlier later : List (Side × RingOp)}
    {op : RingOp} {next : op.Answer → RingProgram α}
    (meets : Meets call n account) (inside : Inside n now)
    (zeroed : call.index.other.resetAt < call.index.resetAt →
      call.index.other.of now = 0)
    (host : After call n account memory (.step op next) now earlier later) :
    After call n account memory (next (op.execute now).1) (op.execute now).2
        earlier (later ++ [(.left, op)]) ∧
      Inside n (op.execute now).2 ∧
      call.index.other.of (op.execute now).2 = call.index.other.of now := by
  have done_now : ∃ done ∈ later ++ [(Side.left, op)], done.1 = .left :=
    ⟨_, List.mem_append_right _ (List.mem_singleton_self _), rfl⟩
  cases host with
  | idle fresh reset none_done =>
      obtain ⟨unchanged, copying⟩ := fresh_step meets inside fresh
      rw [unchanged]
      exact ⟨.copying now copying (.reset reset zeroed none_done), inside, rfl⟩
  | copying start copying loadedBy =>
      obtain ⟨op', next', shape, ⟨quiet, goesOn⟩ | stores⟩ :=
        copying.cases_step
      · cases shape
        exact ⟨.copying start goesOn loadedBy, inside.quiet quiet,
          Index.quiet_keeps quiet _ now⟩
      · cases shape
        obtain ⟨copied, rfl, within, told, returns⟩ := stores
        have moved := call.index.storeOp_moves (call.position copied) now
        exact ⟨.published start ⟨copied, returns _, moved.own,
          moved.data ▸ told⟩ loadedBy done_now, inside.moved moved within,
          moved.foreign⟩
  | published loaded published _ _ =>
      obtain ⟨copied, impossible, _⟩ := published
      cases impossible
  | early returned _ _ =>
      obtain ⟨value, impossible⟩ := returned
      cases impossible

theorem Racing.step_left (meets : Meets call n account)
    (racing : Racing call n account memory size system) :
    Racing call n account memory size (system.step RingOp.execute .left) := by
  obtain ⟨inside, done, reduced, small, right, zeroed, progress⟩ := racing
  cases doing : system.program .left with
  | ret value =>
      rw [Threads.step_ret doing]
      exact ⟨inside, done, reduced, small, right, zeroed, progress⟩
  | step op next =>
      rw [Threads.step_step doing]
      have kept : Function.update system.program .left
          (next (op.execute system.state).1) .right = initRest size reduced done :=
        (Function.update_of_ne (by decide) _ _).trans right
      cases progress with
      | before early not_yet host =>
          rw [doing] at host
          obtain ⟨host, inside, foreign⟩ := host.step meets inside
          refine ⟨inside, done, reduced, small, kept,
            fun late => foreign.trans (zeroed late), .before early
              (resetEntry_ne_left not_yet) ?_⟩
          dsimp only
          rw [Function.update_self]
          exact host
      | after late earlier later log once last host =>
          rw [doing] at host
          obtain ⟨host, inside, foreign⟩ := host.step meets inside
            (fun order => zeroed (Nat.lt_trans order late))
          refine ⟨inside, done, reduced, small, kept,
            fun late => foreign.trans (zeroed late), .after late earlier
              (later ++ [(.left, op)]) ?_ once (resetEntry_ne_left last) ?_⟩
          · dsimp only
            rw [log, List.append_assoc, List.cons_append]
          · dsimp only
            rw [Function.update_self]
            exact host

/-- A step of ringbuf_init that leaves the host call's index alone. -/
theorem Racing.beside {done : Nat} {op : RingOp} {later : RingMemory}
    {reduced : UInt32} {next : RingProgram (Results α .right)}
    (progress : Progress call n account memory system done)
    (differs : op ≠ call.index.storeOp 0) (apart : done ≠ call.index.resetAt)
    (aside : Aside call system.state later) (inside : Inside n later)
    (small : done < 3) (rest : next = initRest size reduced (done + 1))
    (zeroed : call.index.other.resetAt < done + 1 →
      call.index.other.of later = 0) :
    Racing call n account memory size
      { program := Function.update system.program .right next
        state := later
        log := system.log ++ [(.right, op)] } := by
  refine ⟨inside, done + 1, reduced, small, ?_, zeroed, ?_⟩
  · dsimp only
    rw [Function.update_self]
    exact rest
  · cases progress with
    | before early not_yet host =>
        refine .before (by omega) (resetEntry_ne_op not_yet differs) ?_
        dsimp only
        rw [Function.update_of_ne (by decide)]
        exact host.beside aside
    | after late earlier rest log once last host =>
        refine .after (by omega) earlier (rest ++ [(.right, op)]) ?_ once
          (resetEntry_ne_op last differs) ?_
        · dsimp only
          rw [log, List.append_assoc, List.cons_append]
        · dsimp only
          rw [Function.update_of_ne (by decide)]
          exact host.beside aside

/-- The step of ringbuf_init that stores the host call's index. -/
theorem Racing.reset {later : RingMemory} {reduced : UInt32}
    {next : RingProgram (Results α .right)}
    (progress : Progress call n account memory system call.index.resetAt)
    (moved : call.index.Moved 0 system.state later) (inside : Inside n later)
    (small : call.index.resetAt < 3)
    (rest : next = initRest size reduced (call.index.resetAt + 1))
    (zeroed : call.index.other.resetAt < call.index.resetAt + 1 →
      call.index.other.of later = 0) :
    Racing call n account memory size
      { program := Function.update system.program .right next
        state := later
        log := system.log ++ [resetEntry call] } := by
  refine ⟨inside, call.index.resetAt + 1, reduced, small, ?_, zeroed, ?_⟩
  · dsimp only
    rw [Function.update_self]
    exact rest
  · cases progress with
    | before early not_yet host =>
        refine .after (Nat.lt_succ_self _) system.log [] rfl not_yet
          List.not_mem_nil ?_
        dsimp only
        rw [Function.update_of_ne (by decide)]
        exact host.reset moved
    | after late _ _ _ _ _ _ => exact absurd late (Nat.lt_irrefl _)

theorem Racing.step_right (positive : 0 < n)
    (racing : Racing call n account memory size system) :
    Racing call n account memory size (system.step RingOp.execute .right) := by
  obtain ⟨inside, done, reduced, small, right, zeroed, progress⟩ := racing
  rcases Nat.lt_or_eq_of_le small with unfinished | rfl
  · obtain ⟨op, next, shape, goesOn, does⟩ :=
      initRest_step size reduced done unfinished
    rw [shape] at right
    obtain ⟨reduced', rest⟩ := goesOn system.state
    rw [Threads.step_step right]
    rcases does with ⟨quiet, rfl, unchanged⟩ | ⟨index, rfl, rfl⟩
    · have first := call.index.resetAt_pos
      have first_other := call.index.other.resetAt_pos
      refine Racing.beside progress ?_ (by omega) (.nothing (unchanged _)) ?_
        unfinished rest (fun late => by omega)
      · exact fun same => call.index.storeOp_not_quiet 0 (same ▸ quiet)
      · rw [unchanged]
        exact inside
    · have moved := index.storeOp_moves 0 system.state
      have insideLater := inside.moved moved positive
      by_cases own : index = call.index
      · subst own
        have apart := call.index.resetAt_other_ne
        exact Racing.reset progress moved insideLater unfinished rest
          (fun late => moved.foreign.trans (zeroed (by omega)))
      · have which := Index.other_of_ne own
        subst which
        exact Racing.beside progress (fun same => own (Index.storeOp_inj same))
          call.index.resetAt_other_ne (.other moved) insideLater unfinished
          rest (fun _ => moved.own)
  · rw [Threads.step_ret (right.trans rfl)]
    exact ⟨inside, 3, reduced, small, right, zeroed, progress⟩

end Steps

/-! ### How a run ends -/

section Outcome

variable {α : Type} {call : HostCall α} {n : Nat} {account : Account call}
  {memory : RingMemory} {size : UInt32} {system : System α}

theorem racing_start (inside : Inside n memory) :
    Racing call n account memory size
      (Threads.start (programs call.program size) memory) :=
  ⟨inside, 0, 0, Nat.zero_le _, rfl, fun late => absurd late (Nat.not_lt_zero _),
    .before (Nat.zero_le _) List.not_mem_nil
      (.idle rfl rfl (fun _ none_done => by cases none_done))⟩

theorem racing_run (meets : Meets call n account) (positive : 0 < n)
    (inside : Inside n memory) (schedule : List Side) :
    Racing call n account memory size
      ((Threads.start (programs call.program size) memory).run RingOp.execute
        schedule) := by
  apply Threads.run_preserves (Racing call n account memory size) ?_
    (racing_start inside)
  intro system side racing
  cases side with
  | left => exact racing.step_left meets
  | right => exact racing.step_right positive

private theorem HostCall.program_ne_ret (call : HostCall α) (value : α) :
    call.program ≠ .ret value := by
  obtain ⟨op, next, shape, _⟩ := call.index.load_step
    (fun loaded => call.body loaded >>= call.finish)
  intro returned
  cases shape.symm.trans returned

private theorem initRest_ret {size reduced : UInt32} {done : Nat}
    {value : Ringbuf}
    (returned : initRest size reduced done = .ret value) : 3 ≤ done := by
  match done, returned with
  | _ + 3, _ => exact Nat.le_add_left _ _

/-- How the two indices and the cells stand when both have returned. -/
inductive Ended (call : HostCall α) (n : Nat) (account : Account call)
    (memory : RingMemory) (system : System α) : Prop where
  | across (start : RingMemory)
      (published : Published call account start (system.program .left)
        system.state)
      (loaded : call.index.of start = call.index.of memory)
      (straddles : Straddles .left system.log .right (call.index.storeOp 0))
  | after (start : RingMemory)
      (published : Published call account start (system.program .left)
        system.state)
      (zero : call.index.of start = 0)
      (foreign : call.index.other.resetAt < call.index.resetAt →
        call.index.other.of start = 0)
      (apart : ¬ Straddles .left system.log .right (call.index.storeOp 0))
  | before (reset : call.index.of system.state = 0)
      (apart : ¬ Straddles .left system.log .right (call.index.storeOp 0))

theorem Racing.ended (racing : Racing call n account memory size system)
    {value : α} (hostReturned : system.program .left = .ret value)
    {m3Ring : Ringbuf} (initReturned : system.program .right = .ret m3Ring) :
    Inside n system.state ∧ call.index.other.of system.state = 0 ∧
      Ended call n account memory system := by
  obtain ⟨inside, done, reduced, small, right, zeroed, progress⟩ := racing
  have all := initRest_ret (right.symm.trans initReturned)
  have last : ∀ index : Index, index.resetAt < done := by
    intro index
    have bound : index.resetAt < 3 := by cases index <;> decide
    omega
  refine ⟨inside, zeroed (last _), ?_⟩
  cases progress with
  | before early _ _ => exact absurd early (Nat.not_le.mpr (last _))
  | after late earlier later log once last host =>
      have order := @straddles_iff RingOp Side .left _ _ _ _ once last
      change Straddles .left (earlier ++ resetEntry call :: later) .right
        (call.index.storeOp 0) ↔ _ at order
      rw [← log] at order
      cases host with
      | idle fresh _ _ =>
          exact absurd (fresh.symm.trans hostReturned)
            (call.program_ne_ret value)
      | copying loaded copying _ =>
          obtain ⟨op, next, shape, _⟩ := copying.cases_step
          cases shape.symm.trans hostReturned
      | published start published loadedBy goesOn =>
          rcases loadedBy with ⟨same, begun⟩ | ⟨zero, foreign, none_done⟩
          · exact .across start published same (order.mpr ⟨begun, goesOn⟩)
          · refine .after start published zero foreign (fun straddles => ?_)
            obtain ⟨⟨own, member, same⟩, _⟩ := order.mp straddles
            exact none_done own member same
      | early _ reset none_done =>
          refine .before reset (fun straddles => ?_)
          obtain ⟨_, own, member, same⟩ := order.mp straddles
          exact none_done own member same

end Outcome

end Restart

end Quadcopter

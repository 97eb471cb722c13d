import Quadcopter.M3.CommandRuns

/-
command_process, one operation on the receive ring at a time.

The kernel may write to the ring between any two of them.  The call goes by the
bytes that were there when it looked: what it makes of its variables and the
frame that it dispatches are those of a call that runs alone on these bytes.
-/

namespace Quadcopter

open AtomicProgram

variable {F σ : Type} {n : Nat}

structure ParserVars where
  cmdBuf : Buffer
  cmdBufI : Int
  cmdBufLeft : Int
  cmdBufLen : UInt8

def CommandParser.vars (parser : CommandParser) : ParserVars :=
  { cmdBuf := parser.cmdBuf
    cmdBufI := parser.cmdBufI
    cmdBufLeft := parser.cmdBufLeft
    cmdBufLen := parser.cmdBufLen }

def CommandParser.withVars (parser : CommandParser) (vars : ParserVars)
    (rxMemory : RingMemory) : CommandParser :=
  { rbRx := parser.rbRx
    rxMemory
    cmdBuf := vars.cmdBuf
    cmdBufI := vars.cmdBufI
    cmdBufLeft := vars.cmdBufLeft
    cmdBufLen := vars.cmdBufLen }

namespace ParserVars

def withLength (vars : ParserVars) (byte : UInt8) : ParserVars :=
  { vars with
    cmdBufLen := byte
    cmdBufLeft := byte.toNat + 1
    cmdBufI := 0 }

def store (vars : ParserVars) (byte : UInt8) : ParserVars :=
  { vars with
    cmdBuf := Function.update vars.cmdBuf vars.cmdBufI.toNat byte
    cmdBufI := vars.cmdBufI + 1 }

def Inside (vars : ParserVars) : Prop := 0 ≤ vars.cmdBufI ∧ vars.cmdBufI < 256

instance (vars : ParserVars) : Decidable vars.Inside :=
  inferInstanceAs (Decidable (0 ≤ vars.cmdBufI ∧ vars.cmdBufI < 256))

def finish (vars : ParserVars) :
    Except Halt (ParserVars × Option Dispatch) :=
  if vars.cmdBufLeft = 0 then
    if small : (vars.cmdBuf 0).toNat < 128 then
      .ok ({ vars with cmdBufI := -1 },
        some
          { cmd := ⟨(vars.cmdBuf 0).toNat, small⟩
            buf := fun offset => vars.cmdBuf (offset + 1)
            length := vars.cmdBufLen })
    else .error .blink
  else .ok (vars, none)

end ParserVars

/-! ### The operations -/

namespace CommandOps

def getc (rb : Ringbuf) : RingProgram UInt8 := do
  let byte ← ringbufGetc rb
  return byte.getD 0

def beginFrame (rb : Ringbuf) (avail : Int) (vars : ParserVars) :
    RingProgram (Int × ParserVars) :=
  if vars.cmdBufI = -1 then do
    let byte ← getc rb
    return (avail - 1, vars.withLength byte)
  else return (avail, vars)

def storeBytes (rb : Ringbuf) : Nat → ParserVars →
    RingProgram (Option ParserVars)
  | 0, vars => return some vars
  | count + 1, vars =>
      if vars.Inside then do
        let byte ← getc rb
        storeBytes rb count (vars.store byte)
      else return none

def receive (rb : Ringbuf) (avail : Int) (vars : ParserVars) :
    RingProgram (Except Halt (ParserVars × Option Dispatch)) := do
  let begun ← beginFrame rb avail vars
  let i := (min begun.1 begun.2.cmdBufLeft).toNat
  let stored ← storeBytes rb i begun.2
  return match stored with
    | none => .error .overrun
    | some vars =>
        { vars with cmdBufLeft := vars.cmdBufLeft - i : ParserVars }.finish

def commandProcess (rb : Ringbuf) (vars : ParserVars) :
    RingProgram (Except Halt (ParserVars × Option Dispatch)) := do
  let avail ← ringbufAvailableRead rb
  if avail.toInt = 0 then return .ok (vars, none)
  else receive rb avail.toInt vars

end CommandOps

section Alone

variable {parser : CommandParser}

private theorem call_getc (parser : CommandParser) :
    parser.rxMemory.call (CommandOps.getc parser.rbRx) =
      (parser.getc.1, parser.getc.2.rxMemory) := by
  unfold CommandOps.getc CommandParser.getc RingMemory.call
  rw [Program.run_bind]
  rfl

private theorem call_beginFrame (parser : CommandParser) (avail : Int) :
    parser.rxMemory.call
        (CommandOps.beginFrame parser.rbRx avail parser.vars) =
      (((parser.beginFrame avail).1, (parser.beginFrame avail).2.vars),
        (parser.beginFrame avail).2.rxMemory) := by
  have byte := call_getc parser
  unfold CommandOps.beginFrame CommandParser.beginFrame
  by_cases between : parser.cmdBufI = -1
  · rw [if_pos between, if_pos (show parser.vars.cmdBufI = -1 from between)]
    unfold RingMemory.call at byte ⊢
    rw [Program.run_bind, byte]
    rfl
  · rw [if_neg between, if_neg (show ¬ parser.vars.cmdBufI = -1 from between)]
    rfl

private theorem call_storeBytes (count : Nat) (parser : CommandParser) :
    (parser.storeBytes count).map CommandParser.vars =
        (parser.rxMemory.call
          (CommandOps.storeBytes parser.rbRx count parser.vars)).1 ∧
      ∀ after, parser.storeBytes count = some after →
        after.rbRx = parser.rbRx ∧ after.rxMemory = (parser.rxMemory.call
          (CommandOps.storeBytes parser.rbRx count parser.vars)).2 := by
  induction count generalizing parser with
  | zero =>
      refine ⟨rfl, ?_⟩
      intro after same
      cases same
      exact ⟨rfl, rfl⟩
  | succ count ih =>
      have byte := call_getc parser
      unfold CommandParser.storeBytes CommandOps.storeBytes
        CommandParser.storeByte
      by_cases inside : 0 ≤ parser.cmdBufI ∧ parser.cmdBufI < 256
      · rw [if_pos inside, if_pos (show parser.vars.Inside from inside),
          Option.bind_some]
        unfold RingMemory.call at byte ⊢
        rw [Program.run_bind, byte]
        exact ih _
      · rw [if_neg inside, if_neg (show ¬ parser.vars.Inside from inside)]
        refine ⟨rfl, ?_⟩
        intro after impossible
        cases impossible

private theorem call_receive (parser : CommandParser) (avail : Int) :
    (parser.receive avail = none ∧
        (parser.rxMemory.call
          (CommandOps.receive parser.rbRx avail parser.vars)).1 =
            .error .overrun) ∨
      ∃ after, parser.receive avail = some after ∧
        after.rbRx = parser.rbRx ∧
        parser.rxMemory.call
            (CommandOps.receive parser.rbRx avail parser.vars) =
          (after.vars.finish, after.rxMemory) := by
  have begun := call_beginFrame parser avail
  have same_ring : (parser.beginFrame avail).2.rbRx = parser.rbRx := by
    unfold CommandParser.beginFrame
    split <;> rfl
  unfold CommandOps.receive CommandParser.receive
  dsimp only
  generalize parser.beginFrame avail = frame at begun same_ring ⊢
  obtain ⟨left, parser'⟩ := frame
  have stored := call_storeBytes (min left parser'.cmdBufLeft).toNat parser'
  dsimp only at begun same_ring stored ⊢
  rw [same_ring] at stored
  unfold RingMemory.call at begun stored ⊢
  rw [Program.run_bind, begun, Program.run_bind]
  dsimp only [CommandParser.vars] at stored ⊢
  generalize (CommandOps.storeBytes parser.rbRx
    (min left parser'.cmdBufLeft).toNat _).run RingOp.execute
      parser'.rxMemory = result at stored ⊢
  obtain ⟨values, memory⟩ := stored
  cases loop : parser'.storeBytes (min left parser'.cmdBufLeft).toNat with
  | none =>
      rw [loop] at values
      refine Or.inl ⟨rfl, ?_⟩
      rw [← values]
      rfl
  | some after =>
      rw [loop] at values memory
      obtain ⟨ring, same⟩ := memory after rfl
      refine Or.inr ⟨_, rfl, ring, ?_⟩
      rw [← values, ← same]
      rfl

/-- command_process is its operations, run alone, and the handler of the frame
that they dispatch. -/
theorem commandProcess_eq_ops (call : F → Buffer → UInt8 → M3 F σ → M3 F σ)
    (state : CommandState F σ) :
    let done := state.parser.rxMemory.call
      (CommandOps.commandProcess state.parser.rbRx state.parser.vars)
    commandProcess call state =
      done.1.map (fun result =>
        ({ parser := state.parser.withVars result.1 done.2
           m3 := CommandSystem.replay call result.2.toList state.m3 },
          result.2)) := by
  obtain ⟨parser, m3⟩ := state
  have unchanged :=
    ringbufAvailableRead_unchanged parser.rbRx parser.rxMemory
  intro done
  have ran : done = if (parser.rxMemory.call
      (ringbufAvailableRead parser.rbRx)).1.toInt = 0 then
        (.ok (parser.vars, none), parser.rxMemory)
      else parser.rxMemory.call (CommandOps.receive parser.rbRx
        (parser.rxMemory.call (ringbufAvailableRead parser.rbRx)).1.toInt
          parser.vars) := by
    unfold done CommandOps.commandProcess RingMemory.call at *
    rw [Program.run_bind, unchanged]
    split <;> rfl
  rw [ran]
  unfold commandProcess
  dsimp only
  generalize (parser.rxMemory.call
    (ringbufAvailableRead parser.rbRx)).1.toInt = avail
  by_cases empty : avail = 0
  · rw [if_pos empty, if_pos empty]
    rfl
  · rw [if_neg empty, if_neg empty]
    rcases call_receive parser avail with
      ⟨loop, stopped⟩ | ⟨after, loop, ring, ended⟩
    · rw [loop, stopped]
      rfl
    · have parser_eq : ∀ vars, parser.withVars vars after.rxMemory =
          after.withVars vars after.rxMemory := by
        intro vars
        unfold CommandParser.withVars
        rw [ring]
      rw [loop, ended]
      unfold ParserVars.finish CommandParser.vars
      dsimp only
      by_cases whole : after.cmdBufLeft = 0
      · rw [if_pos whole, if_pos whole]
        by_cases small : (after.cmdBuf 0).toNat < 128
        · rw [dif_pos small, dif_pos small]
          simp only [Except.map, parser_eq]
          rfl
        · rw [dif_neg small, dif_neg small]
          rfl
      · rw [if_neg whole, if_neg whole]
        simp only [Except.map, parser_eq]
        rfl

end Alone

/-! ### What a call makes of the bytes it sees -/

namespace ParserVars

def storeAll : List UInt8 → ParserVars → Option ParserVars
  | [], vars => some vars
  | byte :: bytes, vars =>
      if vars.Inside then storeAll bytes (vars.store byte) else none

def rounds (vars : ParserVars) (avail : Nat) : Nat :=
  (min (avail : Int) vars.cmdBufLeft).toNat

def loop (vars : ParserVars) (avail : List UInt8) :
    Except Halt (ParserVars × Option Dispatch) :=
  match storeAll (avail.take (vars.rounds avail.length)) vars with
  | none => .error .overrun
  | some stored =>
      { stored with
        cmdBufLeft := stored.cmdBufLeft - vars.rounds avail.length
          : ParserVars }.finish

def process (vars : ParserVars) : List UInt8 →
    Except Halt (ParserVars × Option Dispatch)
  | [] => .ok (vars, none)
  | byte :: rest =>
      if vars.cmdBufI = -1 then (vars.withLength byte).loop rest
      else vars.loop (byte :: rest)

def consumed (vars : ParserVars) : List UInt8 → Nat
  | [] => 0
  | byte :: rest =>
      if vars.cmdBufI = -1 then 1 + (vars.withLength byte).rounds rest.length
      else vars.rounds (rest.length + 1)

end ParserVars

theorem ParserVars.consumed_le (vars : ParserVars) (items : List UInt8) :
    vars.consumed items ≤ items.length := by
  cases items with
  | nil => exact Nat.le_refl 0
  | cons byte rest =>
      unfold consumed rounds
      dsimp only
      rw [List.length_cons]
      split
      · omega
      · omega

structure Took (n : Nat) (start : Traffic) (count : Nat) (later : Traffic) :
    Prop where
  coherent : later.Coherent n
  released : later.released = start.released + count
  grows : start.published <+: later.published

theorem Took.none {start : Traffic} (coherent : start.Coherent n) :
    Took n start 0 start :=
  ⟨coherent, rfl, List.prefix_rfl⟩

theorem Took.trans {start middle later : Traffic} {first second : Nat}
    (before : Took n start first middle) (after : Took n middle second later) :
    Took n start (first + second) later :=
  ⟨after.coherent, by rw [after.released, before.released, Nat.add_assoc],
    before.grows.trans after.grows⟩

section

variable {start middle : Traffic} {byte : UInt8} {rest : List UInt8}
  (found : byte :: rest <+: start.published.drop start.released)

include found in
private theorem first_unread :
    start.published[start.released]? = some byte := by
  have first := published_found found (show (byte :: rest)[0]? = some byte
    from rfl)
  rw [List.getElem?_drop, Nat.add_zero] at first
  exact first

include found in
private theorem Took.rest_unread (took : Took n start 1 middle) :
    rest <+: middle.published.drop middle.released := by
  have order := (List.getElem?_eq_some_iff.mp (first_unread found)).1
  obtain ⟨more, split⟩ := found
  obtain ⟨further, longer⟩ := took.grows
  refine ⟨more ++ further, ?_⟩
  rw [took.released, ← longer, List.drop_append_of_le_length (by omega),
    ← List.append_assoc, ← List.drop_drop, ← split]
  rfl

end

/-! ### While the kernel writes -/

section Beside

variable {rb : Ringbuf} {rely : Traffic → Traffic → Prop}
  (reflexive : ∀ traffic, rely traffic traffic)
  (writerOnly : ∀ traffic later,
    rely traffic later → Traffic.WriterActs n traffic later)
  (transitive : ∀ first second third,
    rely first second → rely second third → rely first third)
  (sized : rb.size.toNat = n) (small : n < 2 ^ 31)

def OnlyReads (n : Nat) (traffic : Traffic) (op : RingOp) : Prop :=
  Traffic.ReaderActs n traffic (Traffic.execute n op traffic).2

include writerOnly in
theorem Took.later {start middle later : Traffic} {count : Nat}
    (took : Took n start count middle) (moved : rely middle later) :
    Took n start count later := by
  obtain ⟨coherent, released, grows⟩ := writerOnly _ _ moved took.coherent
  exact ⟨coherent, released.trans took.released, took.grows.trans grows⟩

include writerOnly sized in
/-- What ringbuf_available_read counts. -/
theorem heldBetween_seen {start seen : Traffic} (coherent : start.Coherent n)
    (moved : rely start seen) :
    start.published <+: seen.published ∧
      rb.heldBetween seen.memory.writePos.toNat
          start.memory.readPos.toNat =
        (seen.published.drop start.released).length := by
  obtain ⟨coherentSeen, released, grows⟩ := writerOnly _ _ moved coherent
  have same : start.memory.readPos.toNat = seen.memory.readPos.toNat := by
    rw [coherent.readPos, coherentSeen.readPos, released]
  refine ⟨grows, ?_⟩
  rw [same, RingMemory.Carries.heldBetween_eq coherentSeen sized, released,
    List.length_drop]

include writerOnly in
private theorem keeps_published {α : Type} {post : α → Traffic → Prop}
    {program : RingProgram α} {start : Traffic} (coherent : start.Coherent n)
    (holds : Holds (Traffic.execute n) rely (OnlyReads n) post program start) :
    Holds (Traffic.execute n) rely (OnlyReads n)
      (fun value later => post value later ∧
        later.Coherent n ∧ start.published <+: later.published)
      program start :=
  holds.keeps
    (fun traffic => traffic.Coherent n ∧ start.published <+: traffic.published)
    (fun traffic later kept moved =>
      ⟨(writerOnly traffic later moved kept.1).1,
        kept.2.trans (writerOnly traffic later moved kept.1).2.2⟩)
    (fun traffic op kept acts =>
      ⟨(acts kept.1).1, by rw [(acts kept.1).2.1]; exact kept.2⟩)
    ⟨coherent, List.prefix_rfl⟩

include reflexive writerOnly transitive sized small in
private theorem getc_holds {start : Traffic} (coherent : start.Coherent n)
    {byte : UInt8} (found : start.published[start.released]? = some byte) :
    Holds (Traffic.execute n) rely (OnlyReads n)
      (fun value later => value = byte ∧ Took n start 1 later)
      (CommandOps.getc rb) start := by
  have bound := (List.getElem?_eq_some_iff.mp found).1
  have read := keeps_published writerOnly coherent
    ((ringbufRead_holds reflexive writerOnly transitive small coherent
      (fun _ => 0) 1 (by decide) (Nat.le_of_eq sized)
      (fun _ _ => Or.inl sized)).allow (fun _ _ does => does.acts))
  have getc : Holds (Traffic.execute n) rely (OnlyReads n)
      (fun value later => value = some byte ∧ Took n start 1 later)
      (ringbufGetc rb) start := by
    unfold ringbufGetc
    apply Holds.bind read reflexive
    intro result later ⟨done, coherentLater, grows⟩
    obtain ⟨count, buf⟩ := result
    obtain ⟨seen, moved, value⟩ := done.value
    obtain ⟨seen_grows, held⟩ :=
      heldBetween_seen writerOnly sized coherent moved
    have longer := seen_grows.length_le
    rw [held, List.length_drop] at value
    have one : count.toInt = 1 := by
      change count.toInt = ((min 1 _ : Nat) : Int) at value
      omega
    have fetched := done.fetched 0 (by dsimp only; omega)
    have released := done.released
    dsimp only at fetched released ⊢
    have first : buf 0 = byte := by
      have there := published_found grows found
      rw [Nat.add_zero, there] at fetched
      exact (Option.some.inj fetched).symm
    have enough : ¬ count < 1 := fun less =>
      absurd (Int32.lt_iff_toInt_lt.mp less) (by rw [one]; decide)
    rw [if_neg enough, first]
    apply Holds.ret
    intro final moved'
    exact ⟨rfl, Took.later writerOnly
      ⟨coherentLater, by rw [released, one]; rfl, grows⟩ moved'⟩
  unfold CommandOps.getc
  apply Holds.bind getc reflexive
  intro value later ⟨same, took⟩
  apply Holds.ret
  intro final moved
  rw [same]
  exact ⟨rfl, took.later writerOnly moved⟩

include reflexive writerOnly transitive sized small in
private theorem storeBytes_holds (bytes : List UInt8) (vars : ParserVars)
    {start : Traffic} (coherent : start.Coherent n)
    (found : bytes <+: start.published.drop start.released) :
    Holds (Traffic.execute n) rely (OnlyReads n)
      (fun value later => value = ParserVars.storeAll bytes vars ∧
        (value ≠ none → Took n start bytes.length later))
      (CommandOps.storeBytes rb bytes.length vars) start := by
  induction bytes generalizing vars start with
  | nil =>
      apply Holds.ret
      intro later moved
      exact ⟨rfl, fun _ => (Took.none coherent).later writerOnly moved⟩
  | cons byte bytes ih =>
      rw [List.length_cons]
      unfold CommandOps.storeBytes ParserVars.storeAll
      by_cases inside : vars.Inside
      · rw [if_pos inside, if_pos inside]
        apply Holds.bind (getc_holds reflexive writerOnly transitive sized
          small coherent (first_unread found)) reflexive
        intro value middle ⟨same, took⟩
        subst value
        have rest := took.rest_unread found
        refine Holds.weaken ?_ (ih (vars.store byte) took.coherent rest)
        intro value later ⟨stored, after⟩
        refine ⟨stored, fun some_left => ?_⟩
        have both := took.trans (after some_left)
        rw [Nat.add_comm] at both
        exact both
      · rw [if_neg inside, if_neg inside]
        apply Holds.ret
        intro later moved
        exact ⟨rfl, fun impossible => absurd rfl impossible⟩

include reflexive writerOnly transitive sized small in
private theorem loop_holds (vars : ParserVars) (avail : List UInt8)
    {start : Traffic}
    (coherent : start.Coherent n)
    (found : avail <+: start.published.drop start.released) :
    Holds (Traffic.execute n) rely (OnlyReads n)
      (fun value later => value = vars.loop avail ∧
        (value ≠ .error .overrun →
          Took n start (vars.rounds avail.length) later))
      (do
        let stored ← CommandOps.storeBytes rb (vars.rounds avail.length) vars
        return match stored with
          | none => .error .overrun
          | some stored =>
              { stored with
                cmdBufLeft :=
                  stored.cmdBufLeft - vars.rounds avail.length
                  : ParserVars }.finish)
      start := by
  have short : vars.rounds avail.length ≤ avail.length := by
    unfold ParserVars.rounds
    omega
  have length : (avail.take (vars.rounds avail.length)).length =
      vars.rounds avail.length := List.length_take_of_le short
  have stored := storeBytes_holds reflexive writerOnly transitive sized small
    (avail.take (vars.rounds avail.length)) vars coherent
    ((List.take_prefix _ avail).trans found)
  rw [length] at stored
  apply Holds.bind stored reflexive
  intro value middle ⟨same, took⟩
  apply Holds.ret
  intro later moved
  unfold ParserVars.loop
  rw [← same]
  refine ⟨rfl, fun whole => ?_⟩
  cases value with
  | none => exact absurd rfl whole
  | some stored =>
      exact (took (fun none => by cases none)).later writerOnly moved

include reflexive writerOnly transitive sized small in
theorem CommandOps.receive_holds (vars : ParserVars) (byte : UInt8)
    (rest : List UInt8) {start : Traffic} (coherent : start.Coherent n)
    (found : byte :: rest <+: start.published.drop start.released) :
    Holds (Traffic.execute n) rely (OnlyReads n)
      (fun value later => value = vars.process (byte :: rest) ∧
        (value ≠ .error .overrun →
          Took n start (vars.consumed (byte :: rest)) later))
      (CommandOps.receive rb ((byte :: rest).length : Int) vars) start := by
  unfold CommandOps.receive CommandOps.beginFrame
  by_cases between : vars.cmdBufI = -1
  · have processed : vars.process (byte :: rest) =
        (vars.withLength byte).loop rest := if_pos between
    have consumed : vars.consumed (byte :: rest) =
        1 + (vars.withLength byte).rounds rest.length := if_pos between
    have left : ((byte :: rest).length : Int) - 1 = (rest.length : Int) := by
      rw [List.length_cons]
      omega
    rw [if_pos between, processed, consumed, Program.bind_assoc, left]
    apply Holds.bind (getc_holds reflexive writerOnly transitive sized small
      coherent (first_unread found)) reflexive
    intro value middle ⟨same, took⟩
    rw [same]
    refine Holds.weaken ?_ (loop_holds reflexive writerOnly transitive sized
      small (vars.withLength byte) rest took.coherent (took.rest_unread found))
    intro value later ⟨done, after⟩
    exact ⟨done, fun whole => took.trans (after whole)⟩
  · have processed : vars.process (byte :: rest) = vars.loop (byte :: rest) :=
      if_neg between
    have consumed : vars.consumed (byte :: rest) =
        vars.rounds (byte :: rest).length := if_neg between
    rw [if_neg between, processed, consumed]
    exact loop_holds reflexive writerOnly transitive sized small vars
      (byte :: rest) coherent found

/-- What a call has done, which saw `items` in the ring. -/
structure ProcessDone (n : Nat) (vars : ParserVars) (start : Traffic)
    (items : List UInt8) (result : Except Halt (ParserVars × Option Dispatch))
    (later : Traffic) : Prop where
  result_eq : result = vars.process items
  sees : start.published.drop start.released <+: items
  fits : items.length < n
  there : items <+: later.published.drop start.released
  took : result ≠ .error .overrun → Took n start (vars.consumed items) later

include reflexive writerOnly transitive sized small in
/-- A call goes by the bytes that it sees, which the writer may have added to
since it began. -/
theorem CommandOps.commandProcess_holds (vars : ParserVars) {start : Traffic}
    (coherent : start.Coherent n) :
    Holds (Traffic.execute n) rely (OnlyReads n)
      (fun result later => ∃ seen items, rely start seen ∧
        items.length = (seen.published.drop start.released).length ∧
        ProcessDone n vars start items result later)
      (CommandOps.commandProcess rb vars) start := by
  have looked := keeps_published writerOnly coherent
    ((@ringbufAvailableRead_holds n rely writerOnly rb (fun _ => 0) 0 start
      (Nat.le_of_eq sized) (by rw [sized]; exact coherent.index_cases.1)
      small coherent).allow (fun _ _ does => does.acts))
  unfold CommandOps.commandProcess
  apply Holds.bind looked reflexive
  intro avail middle ⟨⟨seen, moved, value, fetching⟩, coherentMiddle, grows⟩
  obtain ⟨seen_grows, held⟩ :=
    heldBetween_seen writerOnly sized coherent moved
  obtain ⟨coherentSeen, seen_released, _⟩ := writerOnly _ _ moved coherent
  have bound := fetching.available_le
  have order := seen_grows.length_le
  have start_order := coherent.released_le
  rw [held] at value
  rw [held, List.length_drop] at bound
  generalize itemsIs : (middle.published.drop start.released).take
    (seen.published.drop start.released).length = items
  have length : items.length =
      (seen.published.drop start.released).length := by
    rw [← itemsIs]
    apply List.length_take_of_le
    rw [List.length_drop, List.length_drop]
    omega
  have there : items <+: middle.published.drop start.released := by
    rw [← itemsIs]
    exact List.take_prefix _ _
  have sees : start.published.drop start.released <+: items := by
    apply List.prefix_of_prefix_length_le (grows.drop _) there
    rw [length]
    exact (seen_grows.drop _).length_le
  have fits : items.length < n := by
    have seen_fits := coherentSeen.fits
    rw [length, List.length_drop]
    omega
  have begun : Took n start 0 middle :=
    ⟨coherentMiddle, fetching.waiting, grows⟩
  rw [← length] at value
  cases items with
  | nil =>
      have none_left : avail.toInt = 0 := value
      rw [if_pos none_left]
      apply Holds.ret
      intro later moved'
      have took := begun.later writerOnly moved'
      exact ⟨seen, [], moved, length, rfl, sees, fits, List.nil_prefix,
        fun _ => took⟩
  | cons byte rest =>
      rw [if_neg (by rw [value, List.length_cons]; omega), value]
      refine Holds.weaken ?_ (keeps_published writerOnly coherentMiddle
        (CommandOps.receive_holds reflexive writerOnly transitive sized small
          vars byte rest coherentMiddle
          (by rw [fetching.waiting]; exact there)))
      intro result later ⟨⟨same, took⟩, _, more⟩
      refine ⟨seen, byte :: rest, moved, length, same, sees, fits,
        there.trans (more.drop _), fun whole => ?_⟩
      have both := begun.trans (took whole)
      rw [Nat.zero_add] at both
      exact both

end Beside

/-- A call that runs alone sees all that the ring holds, and leaves what it does
not take. -/
theorem CommandParser.Receives.process_alone
    {queue : BoundedFifo UInt8 (n - 1)} {parser : CommandParser}
    (receives : parser.Receives n queue) :
    let done := parser.rxMemory.call
      (CommandOps.commandProcess parser.rbRx parser.vars)
    done.1 = parser.vars.process queue.items ∧
      (done.1 ≠ .error .overrun →
        done.2.unread n =
          queue.items.drop (parser.vars.consumed queue.items)) := by
  obtain ⟨traffic, coherent, memory, unread⟩ := receives.carries
  have viewed := (Program.run_map (Traffic.execute n) RingOp.execute
    Traffic.memory (fun _ _ => rfl)
    (CommandOps.commandProcess parser.rbRx parser.vars) traffic).1
  have holds := @CommandOps.commandProcess_holds n parser.rbRx Eq
    (fun _ => rfl) (fun first _ same => same ▸ Traffic.WriterActs.refl first)
    (fun _ _ _ => Eq.trans) receives.sized receives.small parser.vars traffic
    coherent
  obtain ⟨_, kept⟩ := holds.run_preserves (fun _ => rfl)
    (fun later => later.Coherent n ∧ later.published = traffic.published)
    (fun _ _ kept acts =>
      ⟨(acts kept.1).1, (acts kept.1).2.1.trans kept.2⟩)
    ⟨coherent, rfl⟩
  obtain ⟨⟨seen, items, rfl, length, done⟩, _⟩ := holds.run (fun _ => rfl)
  have all : queue.items = items := by
    rw [← unread]
    exact done.sees.eq_of_length length.symm
  unfold RingMemory.call
  rw [← memory, viewed, all]
  refine ⟨done.result_eq, fun whole => ?_⟩
  have took := done.took whole
  change RingMemory.unread _ n = _
  rw [took.coherent.unread_eq, kept, took.released, ← all, ← unread,
    List.drop_drop]

end Quadcopter

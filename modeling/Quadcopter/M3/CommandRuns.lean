import Quadcopter.M3.CommandFraming

/-
Runs of command_process while the host writes a byte stream into the ring.

The stream is fixed before the run; an arrival hands the next bytes of it to the
kernel's ringbuf_write, whose `struct ringbuf` has the same size as the m3's.  How
the stream is cut into arrivals, and where the calls of command_process fall
between them, is up to the run.
-/

namespace Quadcopter

open AtomicProgram

variable {F σ : Type} {n : Nat}

structure CommandSystem (F σ : Type) where
  state : CommandState F σ
  -- how much of the stream the ring has accepted
  arrived : Nat
  dispatches : List Dispatch

inductive CommandEvent where
  | arrive (count : Int32)
  | process
deriving DecidableEq

namespace CommandSystem

variable (call : F → Buffer → UInt8 → M3 F σ → M3 F σ) (stream : List UInt8)

/-- `setup` is what the other modules do with the command layer before the first
call of command_process. -/
def start (state : CommandState F σ) (setup : M3 F σ → M3 F σ) :
    CommandSystem F σ :=
  { state := { state with m3 := setup state.m3 }
    arrived := 0
    dispatches := [] }

def arrive (system : CommandSystem F σ) (count : Int32) :
    CommandSystem F σ :=
  let parser := system.state.parser
  let done := parser.rxMemory.call
    (ringbufWrite parser.rbRx
      (fun offset => stream.getD (system.arrived + offset) 0) count)
  { system with
    state :=
      { system.state with parser := { parser with rxMemory := done.2 } }
    arrived := system.arrived + done.1.toInt.toNat }

def step (system : CommandSystem F σ) :
    CommandEvent → Except Halt (CommandSystem F σ)
  | .arrive count =>
      -- the host has no more than the stream to give
      if 0 ≤ count.toInt ∧
          system.arrived + count.toInt.toNat ≤ stream.length then
        .ok (system.arrive stream count)
      else .ok system
  | .process =>
      match commandProcess call system.state with
      | .error halt => .error halt
      | .ok (state, dispatch) =>
          .ok
            { system with
              state
              dispatches := system.dispatches ++ dispatch.toList }

def run : List CommandEvent → CommandSystem F σ →
    Except Halt (CommandSystem F σ)
  | [], system => .ok system
  | event :: events, system => (system.step call stream event).bind (run events)

def replay (dispatches : List Dispatch) (begun : M3 F σ) : M3 F σ :=
  dispatches.foldl (fun m3 dispatch => dispatch.run call m3) begun

def residue (dispatches : List Dispatch) (stale : Buffer) : Buffer :=
  dispatches.foldl (fun _ dispatch => dispatch.cmdBuf) stale

/-- No frame cleared what lies behind it in cmd_buf. -/
def Residual : List Dispatch → Buffer → Prop
  | [], _ => True
  | dispatch :: dispatches, stale =>
      (∀ offset, dispatch.length.toNat ≤ offset →
        dispatch.buf offset = stale (offset + 1)) ∧
        Residual dispatches dispatch.cmdBuf

theorem Residual.concat {dispatches : List Dispatch} {stale : Buffer}
    {dispatch : Dispatch} (residual : Residual dispatches stale)
    (kept : ∀ offset, dispatch.length.toNat ≤ offset →
      dispatch.buf offset = residue dispatches stale (offset + 1)) :
    Residual (dispatches ++ [dispatch]) stale := by
  induction dispatches generalizing stale with
  | nil => exact ⟨kept, trivial⟩
  | cons first dispatches ih => exact ⟨residual.1, ih residual.2 kept⟩

/-- The bytes that have arrived are those of the frames dispatched, in order, of
the frame in progress and of the ring. -/
structure Framed (n : Nat) (pending : List UInt8)
    (queue : BoundedFifo UInt8 (n - 1)) (system : CommandSystem F σ) :
    Prop where
  at_ : system.state.parser.At n (residue system.dispatches nullBuf) pending
    queue
  arrived_le : system.arrived ≤ stream.length
  account : stream.take system.arrived =
    Frame.code.encodeAll (system.dispatches.map Dispatch.frame) ++
      (pending ++ queue.items)
  residual : Residual system.dispatches nullBuf

variable {call stream} {pending : List UInt8}
  {queue : BoundedFifo UInt8 (n - 1)} {system : CommandSystem F σ}

/-- A call of command_process changes the state of the handlers by the frame it
dispatches, and by nothing else. -/
theorem commandProcess_effect {state after : CommandState F σ}
    {dispatch : Option Dispatch}
    (returned : commandProcess call state = .ok (after, dispatch)) :
    after.m3 = replay call dispatch.toList state.m3 := by
  unfold commandProcess at returned
  dsimp only at returned
  split at returned
  · cases returned
    rfl
  · split at returned
    · cases returned
    · split at returned
      · split at returned
        · cases returned
          rfl
        · cases returned
      · cases returned
        rfl

theorem step_effect {event : CommandEvent} {after : CommandSystem F σ}
    (stepped : system.step call stream event = .ok after) :
    ∃ sent : Option Dispatch,
      after.dispatches = system.dispatches ++ sent.toList ∧
        after.state.m3 = replay call sent.toList system.state.m3 := by
  cases event with
  | arrive count =>
      refine ⟨none, ?_⟩
      dsimp only [step] at stepped
      by_cases given : 0 ≤ count.toInt ∧
          system.arrived + count.toInt.toNat ≤ stream.length
      · rw [if_pos given] at stepped
        cases stepped
        exact ⟨(List.append_nil _).symm, rfl⟩
      · rw [if_neg given] at stepped
        cases stepped
        exact ⟨(List.append_nil _).symm, rfl⟩
  | process =>
      unfold step at stepped
      cases processed : commandProcess call system.state with
      | error halt =>
          rw [processed] at stepped
          cases stepped
      | ok result =>
          rw [processed] at stepped
          cases stepped
          exact ⟨_, rfl, commandProcess_effect processed⟩

theorem run_effect {events : List CommandEvent} {after : CommandSystem F σ}
    (ran : run call stream events system = .ok after) :
    ∃ sent, after.dispatches = system.dispatches ++ sent ∧
      after.state.m3 = replay call sent system.state.m3 := by
  induction events generalizing system with
  | nil =>
      cases ran
      exact ⟨[], (List.append_nil _).symm, rfl⟩
  | cons event events ih =>
      unfold run at ran
      cases stepped : system.step call stream event with
      | error halt =>
          rw [stepped] at ran
          cases ran
      | ok next =>
          rw [stepped] at ran
          obtain ⟨first, log, m3⟩ := step_effect stepped
          obtain ⟨sent, log', m3'⟩ := ih ran
          refine ⟨first.toList ++ sent, ?_, ?_⟩
          · rw [log', log, List.append_assoc]
          · rw [m3', m3]
            exact (List.foldl_append ..).symm

theorem run_effects {events : List CommandEvent}
    {begun after : CommandSystem F σ}
    (ran : run call stream events begun = .ok after)
    (fresh : begun.dispatches = []) :
    after.state.m3 = replay call after.dispatches begun.state.m3 := by
  obtain ⟨sent, log, m3⟩ := run_effect ran
  rw [m3, log, fresh]
  rfl

theorem Framed.dispatched_prefix
    (framed : Framed stream n pending queue system) :
    system.dispatches.map Dispatch.frame <+:
      (Frame.code.decodeAll stream).1 := by
  apply Frame.code.encodeAll_prefix_decodeAll
  rw [← framed.account]
  exact List.take_prefix system.arrived stream

theorem Framed.arrive
    (framed : Framed stream n pending queue system)
    {count : Int32} (nonneg : 0 ≤ count.toInt)
    (within : system.arrived + count.toInt.toNat ≤ stream.length) :
    ∃ queue', Framed stream n pending queue'
        (system.arrive stream count) ∧
      queue'.items.length =
        queue.items.length + min count.toInt.toNat queue.room ∧
      (system.arrive stream count).arrived =
        system.arrived + min count.toInt.toNat queue.room := by
  have receives := framed.at_.receives
  have done := (receives.carries.write receives.sized receives.small
    (fun offset => stream.getD (system.arrived + offset) 0) count nonneg).1
  have value := done.value
  have taken : (system.arrive stream count).arrived =
      system.arrived + min count.toInt.toNat queue.room := by
    unfold CommandSystem.arrive
    dsimp only
    rw [value, Int.toNat_natCast]
  have bytes : (stream.drop system.arrived).take
      (min count.toInt.toNat queue.room) =
        queue.accepted (Buffer.first
          (fun offset => stream.getD (system.arrived + offset) 0)
          count.toInt.toNat) := by
    rw [BoundedFifo.accepted, Buffer.first_take]
    symm
    apply Buffer.first_of_getElem?
    · rw [List.length_take, List.length_drop]
      omega
    · intro offset inside
      rw [List.getElem?_take_of_lt (by omega), List.getElem?_drop,
        List.getD_eq_getElem?_getD, List.getElem?_eq_getElem (by omega),
        Option.getD_some]
  refine ⟨queue.push (Buffer.first
      (fun offset => stream.getD (system.arrived + offset) 0)
      count.toInt.toNat), ⟨?_, ?_, ?_, framed.residual⟩, ?_, taken⟩
  · exact ⟨⟨receives.sized, receives.small, done.carries⟩,
      match framed.at_.place with
      | .between index none_pending kept => .between index none_pending kept
      | .within nonneg account left bytes kept =>
          .within nonneg account left bytes kept⟩
  · rw [taken]
    omega
  · rw [taken, List.take_add, framed.account, bytes, List.append_assoc,
      List.append_assoc]
    rfl
  · rw [BoundedFifo.push_items, List.length_append,
      BoundedFifo.accepted_length, Buffer.first_length]

variable (call) in
/-- Calling command_process keeps the account, unless a frame names a command
that the assertion refuses. -/
theorem Framed.process
    (framed : Framed stream n pending queue system) :
    (∃ after pending' queue', system.step call stream .process = .ok after ∧
        Framed stream n pending' queue' after ∧
        after.arrived = system.arrived ∧
        (queue.items ≠ [] → queue'.items.length < queue.items.length)) ∨
      (system.step call stream .process = .error .blink ∧
        ∃ frame ∈ (Frame.code.decodeAll stream).1, 128 ≤ frame.cmd.toNat) := by
  have processed := commandProcess_processed call framed.at_
  have account := framed.account
  have shorter : ∀ count, 0 < count → count ≤ queue.items.length →
      (queue.pop count).items.length < queue.items.length := by
    intro count positive fits
    rw [BoundedFifo.pop_items, List.length_drop]
    omega
  unfold step
  generalize commandProcess call system.state = result at processed
  cases processed with
  | idle empty =>
      refine Or.inl ⟨_, pending, queue, rfl, ⟨?_, framed.arrived_le, ?_, ?_⟩,
        rfl, fun some_left => absurd empty some_left⟩
      · simpa using framed.at_
      · simpa using account
      · simpa using framed.residual
  | waits count after positive fits at_ =>
      refine Or.inl ⟨_, pending ++ queue.items.take count, queue.pop count, rfl,
        ⟨?_, framed.arrived_le, ?_, ?_⟩, rfl,
        fun _ => shorter count positive fits⟩
      · simpa using at_
      · rw [List.append_assoc, BoundedFifo.pop_items, List.take_append_drop]
        simpa using account
      · simpa using framed.residual
  | dispatches count dispatch after positive fits whole kept at_ =>
      refine Or.inl ⟨_, [], queue.pop count, rfl, ⟨?_, framed.arrived_le, ?_,
        framed.residual.concat kept⟩, rfl,
        fun _ => shorter count positive fits⟩
      · unfold residue
        rw [Option.toList_some, List.foldl_append]
        exact at_
      · rw [account, Option.toList_some, List.map_append,
          SelfDelimiting.Code.encodeAll_append, List.append_assoc]
        congr 1
        rw [← List.take_append_drop count queue.items, ← List.append_assoc,
          whole]
        simp only [List.map_cons, List.map_nil,
          SelfDelimiting.Code.encodeAll_cons,
          SelfDelimiting.Code.encodeAll_nil, List.append_nil,
          List.nil_append, BoundedFifo.pop_items]
        rfl
  | blinks count frame positive fits whole large =>
      refine Or.inr ⟨rfl, frame, ?_, large⟩
      have front : Frame.code.encodeAll
          (system.dispatches.map Dispatch.frame ++ [frame]) ++
            queue.items.drop count <+: stream := by
        refine List.IsPrefix.trans ?_ (List.take_prefix system.arrived stream)
        rw [account, ← List.take_append_drop count queue.items,
          ← List.append_assoc pending, whole]
        simp only [SelfDelimiting.Code.encodeAll_append,
          SelfDelimiting.Code.encodeAll_cons,
          SelfDelimiting.Code.encodeAll_nil, List.append_nil,
          List.append_assoc, List.take_append_drop]
        exact List.prefix_rfl
      exact (Frame.code.encodeAll_prefix_decodeAll front).subset
        (List.mem_append_right _ List.mem_cons_self)

variable (call) in
theorem Framed.step
    (commands : ∀ frame ∈ (Frame.code.decodeAll stream).1,
      frame.cmd.toNat < 128)
    (framed : Framed stream n pending queue system)
    (event : CommandEvent) :
    ∃ after pending' queue', system.step call stream event = .ok after ∧
      Framed stream n pending' queue' after := by
  cases event with
  | arrive count =>
      unfold CommandSystem.step
      by_cases given : 0 ≤ count.toInt ∧
          system.arrived + count.toInt.toNat ≤ stream.length
      · obtain ⟨queue', framed', _, _⟩ := framed.arrive given.1 given.2
        exact ⟨_, pending, queue', if_pos given, framed'⟩
      · exact ⟨system, pending, queue, if_neg given, framed⟩
  | process =>
      rcases framed.process call with
        ⟨after, pending', queue', same, framed', _, _⟩ |
          ⟨_, frame, member, large⟩
      · exact ⟨after, pending', queue', same, framed'⟩
      · exact absurd (commands frame member) (Nat.not_lt_of_le large)

variable (call) in
theorem Framed.run
    (commands : ∀ frame ∈ (Frame.code.decodeAll stream).1,
      frame.cmd.toNat < 128)
    (framed : Framed stream n pending queue system)
    (events : List CommandEvent) :
    ∃ after pending' queue', run call stream events system = .ok after ∧
      Framed stream n pending' queue' after := by
  induction events generalizing system pending queue with
  | nil => exact ⟨system, pending, queue, rfl, framed⟩
  | cons event events ih =>
      obtain ⟨next, pending', queue', same, framed'⟩ :=
        framed.step call commands event
      obtain ⟨after, pending'', queue'', ran, framed''⟩ := ih framed'
      refine ⟨after, pending'', queue'', ?_, framed''⟩
      unfold CommandSystem.run
      rw [same]
      exact ran

def rxSize : Nat := (quadcopterLenBytes quadcopterTxLenMb).toNat - 8

theorem start_framed (txMemory rxMemory : RingMemory) (rest : σ)
    (setup : M3 F σ → M3 F σ) :
    Framed stream rxSize [] .empty
      (start (commandInit txMemory rxMemory rest) setup) where
  at_ :=
    have initialised := ringbufInit_carries (by decide : 1 ≤ rxSize)
      (by decide : (quadcopterLenBytes quadcopterTxLenMb).toNat = rxSize + 8)
      rxMemory
    ⟨⟨initialised.1, by decide, initialised.2.1⟩, .between rfl rfl rfl⟩
  arrived_le := Nat.zero_le _
  account := rfl
  residual := trivial

end CommandSystem

/-! ### Framing -/

/-- What becomes of a frame: the handler registered for its command is called with
its payload, or one 'e' frame is sent. -/
inductive Frame.Handled (call : F → Buffer → UInt8 → M3 F σ → M3 F σ)
    (frame : Frame) (m3 : M3 F σ) : M3 F σ → Prop where
  | refused (small : frame.cmd.toNat < 128)
      (unregistered : m3.cmdMap ⟨frame.cmd.toNat, small⟩ = none) :
      Handled call frame m3 (commandSend 'e'.toUInt8 nullBuf 0 m3)
  | connects (small : frame.cmd.toNat < 128)
      (registered : m3.cmdMap ⟨frame.cmd.toNat, small⟩ = some .connectCmd) :
      Handled call frame m3 (connectCmd m3)
  | disconnects (small : frame.cmd.toNat < 128)
      (registered : m3.cmdMap ⟨frame.cmd.toNat, small⟩ =
        some .disconnectCmd) :
      Handled call frame m3 (disconnectCmd m3)
  | called (func : F) (buf : Buffer) (small : frame.cmd.toNat < 128)
      (registered : m3.cmdMap ⟨frame.cmd.toNat, small⟩ = some (.other func))
      (bytes : buf.first frame.payload.length = frame.payload) :
      Handled call frame m3 (call func buf frame.length m3)

inductive Frame.AllHandled (call : F → Buffer → UInt8 → M3 F σ → M3 F σ) :
    List Frame → M3 F σ → M3 F σ → Prop where
  | nil (m3 : M3 F σ) : AllHandled call [] m3 m3
  | cons {frame : Frame} {frames : List Frame} {m3 next after : M3 F σ}
      (first : frame.Handled call m3 next)
      (later : AllHandled call frames next after) :
      AllHandled call (frame :: frames) m3 after

private theorem Dispatch.handled
    (call : F → Buffer → UInt8 → M3 F σ → M3 F σ) (dispatch : Dispatch)
    (m3 : M3 F σ) :
    dispatch.frame.Handled call m3 (dispatch.run call m3) := by
  have small : dispatch.frame.cmd.toNat < 128 := by
    rw [dispatch.frame_cmd]
    exact dispatch.cmd.isLt
  have entry : m3.cmdMap ⟨dispatch.frame.cmd.toNat, small⟩ =
      m3.cmdMap dispatch.cmd :=
    congrArg m3.cmdMap (Fin.ext dispatch.frame_cmd)
  have length : dispatch.frame.length = dispatch.length :=
    Frame.ofBuffer_length _ _ _
  have bytes : dispatch.buf.first dispatch.frame.payload.length =
      dispatch.frame.payload := by
    change dispatch.buf.first (dispatch.buf.first _).length = _
    rw [Buffer.first_length]
    rfl
  unfold Dispatch.run
  cases registered : m3.cmdMap dispatch.cmd with
  | none => exact .refused small (entry.trans registered)
  | some handler =>
      cases handler with
      | connectCmd => exact .connects small (entry.trans registered)
      | disconnectCmd => exact .disconnects small (entry.trans registered)
      | other func =>
          rw [← length]
          exact .called func dispatch.buf small (entry.trans registered) bytes

private theorem CommandSystem.replay_handled
    (call : F → Buffer → UInt8 → M3 F σ → M3 F σ)
    (dispatches : List Dispatch) (m3 : M3 F σ) :
    Frame.AllHandled call (dispatches.map Dispatch.frame) m3
      (replay call dispatches m3) := by
  induction dispatches generalizing m3 with
  | nil => exact .nil m3
  | cons dispatch dispatches ih =>
      exact .cons (dispatch.handled call m3) (ih (dispatch.run call m3))

/-- A run that parsed what has arrived: no call failed to return, the frames
dispatched are exactly the whole frames among the bytes taken out of the ring,
and each was dispatched once, in order, to its handler. -/
structure CommandSystem.Parsed
    (call : F → Buffer → UInt8 → M3 F σ → M3 F σ) (stream : List UInt8)
    (begun : CommandSystem F σ) (events : List CommandEvent)
    (system : CommandSystem F σ) : Prop where
  ran : run call stream events begun = .ok system
  dispatched : ∃ taken,
    taken ++ system.state.parser.rxMemory.unread rxSize =
      stream.take system.arrived ∧
    system.dispatches.map Dispatch.frame = (Frame.code.decodeAll taken).1
  in_order : system.dispatches.map Dispatch.frame <+:
    (Frame.code.decodeAll stream).1
  effects : system.state.m3 = replay call system.dispatches begun.state.m3
  handled : Frame.AllHandled call (system.dispatches.map Dispatch.frame)
    begun.state.m3 system.state.m3
  between_calls : system.state.parser.cmdBufI = -1 ∨
    (system.state.parser.cmdBufI + system.state.parser.cmdBufLeft =
        system.state.parser.cmdBufLen.toNat + 1 ∧
      0 < system.state.parser.cmdBufLeft)

theorem CommandSystem.Framed.parsed
    {call : F → Buffer → UInt8 → M3 F σ → M3 F σ} {stream : List UInt8}
    {begun system : CommandSystem F σ} {events : List CommandEvent}
    {pending : List UInt8} {queue : BoundedFifo UInt8 (rxSize - 1)}
    (ran : CommandSystem.run call stream events begun = .ok system)
    (fresh : begun.dispatches = [])
    (framed : Framed stream rxSize pending queue system) :
    Parsed call stream begun events system where
  ran := ran
  dispatched := by
    refine ⟨Frame.code.encodeAll (system.dispatches.map Dispatch.frame) ++
      pending, ?_, ?_⟩
    · rw [framed.at_.receives.carries.unread, List.append_assoc,
        ← framed.account]
    · rw [Frame.code.decodeAll_eq _ _ framed.at_.place.incomplete]
  in_order := framed.dispatched_prefix
  effects := run_effects ran fresh
  handled := run_effects ran fresh ▸
    replay_handled call system.dispatches begun.state.m3
  between_calls := by
    cases framed.at_.place with
    | between index none_pending kept => exact Or.inl index
    | within nonneg account left bytes kept => exact Or.inr ⟨account, left⟩

/-- However the bytes of a stream arrive, command_process dispatches its frames
in order, each once. -/
theorem command_framing_any_arrival
    (call : F → Buffer → UInt8 → M3 F σ → M3 F σ)
    (txMemory rxMemory : RingMemory) (rest : σ) (setup : M3 F σ → M3 F σ)
    (stream : List UInt8)
    (commands : ∀ frame ∈ (Frame.code.decodeAll stream).1,
      frame.cmd.toNat < 128)
    (events : List CommandEvent) :
    ∃ system, CommandSystem.Parsed call stream
      (.start (commandInit txMemory rxMemory rest) setup) events system := by
  obtain ⟨system, pending, queue, ran, framed⟩ :=
    (CommandSystem.start_framed txMemory rxMemory rest setup).run call
      commands events
  exact ⟨system, framed.parsed ran rfl⟩

/-- A connect frame that is cut after its length byte, and one with no handler. -/
theorem command_framing_any_arrival_of_two :
    ∃ system, CommandSystem.Parsed
      (fun (_ : Empty) _ _ m3 => m3)
      [0, 'c'.toUInt8, 2, 'x'.toUInt8, 7, 8]
      (.start (commandInit ⟨0, 0, nullBuf⟩ ⟨0, 0, nullBuf⟩ ()) id)
      [.arrive 1, .process, .arrive 5, .process, .process] system :=
  command_framing_any_arrival (fun (_ : Empty) _ _ m3 => m3) ⟨0, 0, nullBuf⟩
    ⟨0, 0, nullBuf⟩ () id [0, 'c'.toUInt8, 2, 'x'.toUInt8, 7, 8] (by decide)
    [.arrive 1, .process, .arrive 5, .process, .process]

end Quadcopter

import Quadcopter.M3.CommandRuns

/-
Which byte streams the command layer survives.

A byte that arrives alone is taken by the next call, so that every stream can be
taken to its end.  A stream of whole frames can then arrive so that all of them
are dispatched, and so that a call of its own handles the last one.
-/

namespace Quadcopter

variable {F σ : Type} {n : Nat}

namespace CommandSystem

def byteByByte (count : Nat) : List CommandEvent :=
  (List.replicate count [.arrive 1, .process]).flatten

variable {call : F → Buffer → UInt8 → M3 F σ → M3 F σ} {stream : List UInt8}
  {pending : List UInt8} {system : CommandSystem F σ}

private theorem Framed.oneByte (room : 2 ≤ n)
    {queue : BoundedFifo UInt8 (n - 1)} (empty : queue.items = [])
    (framed : Framed stream n pending queue system)
    (left : system.arrived + 1 ≤ stream.length) :
    system.step call stream (.arrive 1) = .ok (system.arrive stream 1) ∧
      ((∃ after pending', ∃ queue' : BoundedFifo UInt8 (n - 1),
        (system.arrive stream 1).step call stream .process = .ok after ∧
        Framed stream n pending' queue' after ∧ queue'.items = [] ∧
        after.arrived = system.arrived + 1) ∨
      ((system.arrive stream 1).step call stream .process = .error .blink ∧
        ∃ frame ∈ (Frame.code.decodeAll stream).1, 128 ≤ frame.cmd.toNat)) := by
  have one : (1 : Int32).toInt = 1 := rfl
  have account := queue.room_add_length
  rw [empty, List.length_nil] at account
  obtain ⟨filled, framed', length, arrived⟩ :=
    framed.arrive (by decide : 0 ≤ (1 : Int32).toInt) (by rw [one]; omega)
  rw [empty, one, List.length_nil] at length
  rw [one] at arrived
  refine ⟨if_pos ⟨by decide, by rw [one]; omega⟩, ?_⟩
  rcases framed'.process call with
    ⟨after, pending', queue', same, framed'', kept, shorter⟩ | stopped
  · have some_left : filled.items ≠ [] := by
      intro none_left
      rw [none_left, List.length_nil] at length
      omega
    have less := shorter some_left
    have drained : queue'.items = [] :=
      List.eq_nil_of_length_eq_zero (by omega)
    exact Or.inl ⟨after, pending', queue', same, framed'', drained, by omega⟩
  · exact Or.inr stopped

private theorem Framed.byteByByte {count : Nat} (room : 2 ≤ n)
    {queue : BoundedFifo UInt8 (n - 1)} (empty : queue.items = [])
    (framed : Framed stream n pending queue system)
    (left : system.arrived + count ≤ stream.length)
    {final : CommandSystem F σ}
    (ran : CommandSystem.run call stream (CommandSystem.byteByByte count)
      system = .ok final) :
    ∃ pending' queue', Framed stream n pending' queue' final ∧
      queue'.items = [] ∧ final.arrived = system.arrived + count := by
  induction count generalizing system pending queue with
  | zero =>
      have same : system = final := Except.ok.inj ran
      subst final
      exact ⟨pending, queue, framed, empty, rfl⟩
  | succ count ih =>
      obtain ⟨arriving, processed⟩ :=
        @Framed.oneByte F σ n call stream pending system room queue empty
          framed (by omega)
      unfold CommandSystem.byteByByte at ran
      rw [List.replicate_succ, List.flatten_cons, List.cons_append,
        List.cons_append, List.nil_append, CommandSystem.run, arriving,
        Except.bind, CommandSystem.run] at ran
      rcases processed with
        ⟨after, pending', queue', same, framed', drained, arrived⟩ |
          ⟨stopped, _⟩
      · rw [same] at ran
        obtain ⟨pending'', queue'', framed'', empty', total⟩ :=
          ih drained framed' (by omega) ran
        exact ⟨pending'', queue'', framed'', empty', by omega⟩
      · rw [stopped] at ran
        cases ran

end CommandSystem

private theorem CommandSystem.commands_of_survived
    {call : F → Buffer → UInt8 → M3 F σ → M3 F σ}
    {txMemory rxMemory : RingMemory} {rest : σ} {setup : M3 F σ → M3 F σ}
    {stream : List UInt8}
    (survives : ∀ events, ∃ system, Parsed call stream
      (.start (commandInit txMemory rxMemory rest) setup) events system) :
    ∀ frame ∈ (Frame.code.decodeAll stream).1, frame.cmd.toNat < 128 := by
  intro frame member
  obtain ⟨system, parsed⟩ := survives (byteByByte stream.length)
  obtain ⟨pending, queue, framed, empty, arrived⟩ :=
    (start_framed txMemory rxMemory rest setup).byteByByte
      (by decide) rfl (Nat.le_of_eq (Nat.zero_add _)) parsed.ran
  have account := framed.account
  have whole : system.arrived = stream.length :=
    arrived.trans (Nat.zero_add _)
  rw [whole, List.take_length, empty, List.append_nil] at account
  rw [account, Frame.code.decodeAll_eq _ _ framed.at_.place.incomplete]
    at member
  obtain ⟨dispatch, _, same⟩ := List.mem_map.mp member
  rw [← same, dispatch.frame_cmd]
  exact dispatch.cmd.isLt

/-- The command layer survives a stream, however it arrives, exactly if none of
its frames has a command byte that the assertion refuses. -/
theorem command_stream_survived_iff
    (call : F → Buffer → UInt8 → M3 F σ → M3 F σ)
    (txMemory rxMemory : RingMemory) (rest : σ) (setup : M3 F σ → M3 F σ)
    (stream : List UInt8) :
    (∀ events, ∃ system, CommandSystem.Parsed call stream
        (.start (commandInit txMemory rxMemory rest) setup) events system) ↔
      ∀ frame ∈ (Frame.code.decodeAll stream).1, frame.cmd.toNat < 128 := by
  constructor
  · exact CommandSystem.commands_of_survived
  · intro commands events
    obtain ⟨system, pending, queue, ran, framed⟩ :=
      (CommandSystem.start_framed txMemory rxMemory rest setup).run call
        commands events
    exact ⟨system, framed.parsed ran rfl⟩

/-- Two bytes of the host stop the m3. -/
theorem command_stream_blinks :
    ¬ ∀ (stream : List UInt8) (events : List CommandEvent),
      ∃ system, CommandSystem.Parsed (fun (_ : Empty) _ _ m3 => m3) stream
        (.start (commandInit ⟨0, 0, nullBuf⟩ ⟨0, 0, nullBuf⟩ ()) id) events
          system := by
  intro survives
  have refused := CommandSystem.commands_of_survived (survives [0, 200])
  exact absurd refused (by decide)

namespace CommandSystem

variable {call : F → Buffer → UInt8 → M3 F σ → M3 F σ} {stream : List UInt8}
  {pending : List UInt8} {system : CommandSystem F σ} {frames : List Frame}

theorem run_append (first second : List CommandEvent) :
    run call stream (first ++ second) system =
      (run call stream first system).bind (run call stream second) := by
  induction first generalizing system with
  | nil => rfl
  | cons event first ih =>
      rw [List.cons_append, run, run]
      cases system.step call stream event with
      | error halt => rfl
      | ok next => exact ih

/-- When the parser has taken all of a stream of frames, it has dispatched all of
them. -/
theorem Framed.all_dispatched {queue : BoundedFifo UInt8 (n - 1)}
    (framed : Framed (Frame.code.encodeAll frames) n pending queue system)
    (arrived : system.arrived = (Frame.code.encodeAll frames).length)
    (empty : queue.items = []) :
    system.dispatches.map Dispatch.frame = frames := by
  have account := framed.account
  rw [arrived, List.take_length, empty, List.append_nil] at account
  have decoded := Frame.code.decodeAll_encodeAll frames
  rw [account, Frame.code.decodeAll_eq _ _ framed.at_.place.incomplete]
    at decoded
  exact congrArg Prod.fst decoded

section

variable (call) (txMemory rxMemory : RingMemory) (rest : σ)
  (setup : M3 F σ → M3 F σ)

private theorem taken_byteByByte
    (commands : ∀ frame ∈ frames, frame.cmd.toNat < 128) {count : Nat}
    (within : count ≤ (Frame.code.encodeAll frames).length) :
    ∃ system pending, ∃ queue : BoundedFifo UInt8 (rxSize - 1),
      run call (Frame.code.encodeAll frames) (byteByByte count)
        (start (commandInit txMemory rxMemory rest) setup) = .ok system ∧
      Framed (Frame.code.encodeAll frames) rxSize pending queue system ∧
      queue.items = [] ∧ system.arrived = count := by
  have allowed : ∀ frame ∈
      (Frame.code.decodeAll (Frame.code.encodeAll frames)).1,
      frame.cmd.toNat < 128 := by
    rw [Frame.code.decodeAll_encodeAll]
    exact commands
  have begun := @start_framed F σ (Frame.code.encodeAll frames) txMemory
    rxMemory rest setup
  obtain ⟨system, _, _, ran, _⟩ :=
    begun.run call allowed (byteByByte count)
  obtain ⟨pending, queue, framed, empty, arrived⟩ :=
    begun.byteByByte (by decide) rfl
      (by rw [show (start (commandInit txMemory rxMemory rest) setup).arrived =
            0 from rfl]; omega) ran
  exact ⟨system, pending, queue, ran, framed, empty,
    arrived.trans (Nat.zero_add _)⟩

theorem dispatched_all
    (commands : ∀ frame ∈ frames, frame.cmd.toNat < 128) :
    ∃ events system, Parsed call (Frame.code.encodeAll frames)
        (start (commandInit txMemory rxMemory rest) setup) events system ∧
      system.dispatches.map Dispatch.frame = frames := by
  obtain ⟨system, pending, queue, ran, framed, empty, arrived⟩ :=
    taken_byteByByte call txMemory rxMemory rest setup commands
      (Nat.le_refl _)
  exact ⟨_, system, framed.parsed ran rfl,
    framed.all_dispatched arrived empty⟩

theorem handled_last {earlier : List Frame} {last : Frame}
    (commands : ∀ frame ∈ earlier ++ [last], frame.cmd.toNat < 128) :
    ∃ stream events before after dispatch,
      run call stream events
        (start (commandInit txMemory rxMemory rest) setup) = .ok before ∧
      before.step call stream .process = .ok after ∧
      after.dispatches = before.dispatches ++ [dispatch] ∧
      before.dispatches.map Dispatch.frame = earlier ∧
      dispatch.frame = last ∧ Residual after.dispatches nullBuf := by
  have size : (Frame.code.encodeAll (earlier ++ [last])).length =
      (Frame.code.encodeAll earlier).length + last.payload.length + 2 := by
    rw [SelfDelimiting.Code.encodeAll_append, List.length_append,
      SelfDelimiting.Code.encodeAll_cons, SelfDelimiting.Code.encodeAll_nil,
      List.append_nil, Nat.add_assoc]
    rfl
  -- all but the last byte
  obtain ⟨front, pending, queue, ran, framed, empty, arrived⟩ :=
    taken_byteByByte call txMemory rxMemory rest setup commands
      (Nat.sub_le (Frame.code.encodeAll (earlier ++ [last])).length 1)
  obtain ⟨arriving, processed⟩ :=
    @Framed.oneByte F σ rxSize call _ pending front (by decide) queue empty
      framed (by omega)
  rcases processed with
    ⟨after, pending', queue', stepped, framed', drained, arrived'⟩ |
      ⟨_, frame, member, large⟩
  · have all := framed'.all_dispatched (by omega) drained
    obtain ⟨sent, log, _⟩ := step_effect stepped
    rw [log, List.map_append] at all
    have before : (front.arrive
        (Frame.code.encodeAll (earlier ++ [last])) 1).dispatches =
          front.dispatches := rfl
    cases sent with
    | none =>
        -- the bytes taken so far do not hold the last frame
        have account := congrArg List.length framed.account
        rw [before, Option.toList_none, List.map_nil, List.append_nil] at all
        rw [all, List.length_take, List.length_append] at account
        omega
    | some dispatch =>
        rw [Option.toList_some, List.map_cons, List.map_nil] at all
        obtain ⟨same, last_⟩ := List.append_inj' all rfl
        refine ⟨_, byteByByte
            ((Frame.code.encodeAll (earlier ++ [last])).length - 1) ++
              [.arrive 1], _, after, dispatch, ?_, stepped, log, same,
          List.head_eq_of_cons_eq last_, framed'.residual⟩
        rw [run_append, ran]
        change (front.step call _ (.arrive 1)).bind _ = _
        rw [arriving]
        rfl
  · rw [Frame.code.decodeAll_encodeAll] at member
    exact absurd (commands frame member) (Nat.not_lt_of_le large)

end

end CommandSystem

end Quadcopter

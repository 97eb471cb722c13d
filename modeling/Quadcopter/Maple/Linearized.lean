import Quadcopter.Maple.Atomic

/-
Every run of the maple board is one of the atomic board.

Each piece of main is specified by the point at which it begins and the one at
which it ends, whatever interrupts come in between.  A command happens when its
effect does, a snapshot when interrupts are masked for it.
-/

namespace Quadcopter

open AtomicProgram InterruptedLoop

variable {R : Type} [CFloat R]

/-- What main keeps and comes to, with any interrupts. -/
abbrev MapleSpec (buffer : UsartBuffer) (gyroOffset accelOffset : Vector3 R)
    {α : Type} (post : α → MapleBoard R → Prop) (program : BoardProgram R α)
    (board : MapleBoard R) : Prop :=
  (mapleLoop buffer).Spec (MapleInv gyroOffset accelOffset) post program board

variable {gyroOffset accelOffset : Vector3 R} {masked connected : Bool}
  {handled : List Frame} {pending read : List UInt8} {avail : Nat}
  {board : MapleBoard R} {buffer : UsartBuffer} {α : Type}
  {post : α → MapleBoard R → Prop}

private theorem phase_perform_keeping (kept : MapleBoard R → Prop)
    {op : BoardOp R}
    {next : op.Answer → BoardProgram R α}
    (phase : Phase gyroOffset accelOffset masked connected handled pending read
      avail board) (now : kept board)
    (stable : ∀ state event, kept state →
      kept (MapleInterrupt.handle buffer event state))
    (each : ∀ later, Phase gyroOffset accelOffset masked connected handled
        pending read avail later → kept later →
      MapleInv gyroOffset accelOffset (op.execute later).2 ∧
        MapleSpec buffer gyroOffset accelOffset post
          (next (op.execute later).1) (op.execute later).2) :
    MapleSpec buffer gyroOffset accelOffset post (.step op next) board := by
  refine @Spec.perform _ _ _ _ _ _ _ _ _ (fun later =>
    Phase gyroOffset accelOffset masked connected handled pending read avail
      later ∧ kept later) _ _ _ _ ?_ ⟨phase, now⟩ ?_
  · rintro state event enabled ⟨before, old⟩
    exact ⟨before.interrupt event enabled, stable state event old⟩
  · rintro later ⟨before, old⟩
    exact each later before old

private theorem phase_perform {op : BoardOp R}
    {next : op.Answer → BoardProgram R α}
    (phase : Phase gyroOffset accelOffset masked connected handled pending read
      avail board)
    (each : ∀ later, Phase gyroOffset accelOffset masked connected handled
        pending read avail later →
      MapleInv gyroOffset accelOffset (op.execute later).2 ∧
        MapleSpec buffer gyroOffset accelOffset post
          (next (op.execute later).1) (op.execute later).2) :
    MapleSpec buffer gyroOffset accelOffset post (.step op next) board :=
  phase_perform_keeping (fun _ => True) phase trivial (fun _ _ _ => trivial)
    (fun later now _ => each later now)

private theorem phase_ret {value : α}
    (phase : Phase gyroOffset accelOffset masked connected handled pending read
      avail board)
    (implies : ∀ later, Phase gyroOffset accelOffset masked connected handled
      pending read avail later → post value later) :
    MapleSpec buffer gyroOffset accelOffset post (.ret value) board :=
  Spec.ret (fun _ event enabled now => Phase.interrupt now event enabled) phase
    implies

theorem Explains.event {trace : List MapleEvent} {state next : MapleState R}
    {event : MapleEvent} {later : MapleBoard R}
    (explains : Explains gyroOffset accelOffset trace state [] board)
    (stepped : event.step state = .ok next) (silent : event.tick? = none)
    (ticks : later.ticks = board.ticks) (tx : later.tx = board.tx)
    (attitude : later.attitude =
      { next.attitude with angle := later.attitude.angle })
    (angle : later.masked = false →
      later.attitude.angle = next.attitude.angle)
    (compare : later.compare = next.compare) :
    Explains gyroOffset accelOffset (trace ++ [event]) next
      (Frame.code.encodeAll (event.frames state)) later := by
  constructor
  · exact foldlM_of_concat explains.ran stepped
  · rw [List.filterMap_append, explains.ticks, ticks]
    simp [silent]
  · have sent := explains.sent
    rw [List.append_nil] at sent
    unfold mapleSent at sent ⊢
    rw [emitted_concat explains.ran stepped, Frame.code.encodeAll_append, tx,
      sent]
  · exact attitude
  · exact angle
  · exact compare

theorem Phase.putc {byte : UInt8}
    (phase : Phase gyroOffset accelOffset masked connected handled
      (byte :: pending) read avail board) :
    Phase gyroOffset accelOffset masked connected handled pending read avail
      (BoardOp.execute (.usartPutc byte) board).2 := by
  obtain ⟨masked_eq, ⟨trace, state, explains, flag, frames⟩, read_eq, avail_le,
    inside⟩ := phase
  refine ⟨masked_eq, ⟨trace, state, ?_, flag, frames⟩, read_eq, avail_le,
    inside⟩
  refine ⟨explains.ran, explains.ticks, ?_, explains.attitude, explains.angle,
    explains.compare⟩
  rw [← explains.sent]
  change (board.tx ++ [byte]) ++ pending = _
  rw [List.append_assoc]
  rfl

namespace BoardProgram

private theorem putBytes_spec {bytes : List UInt8}
    (phase : Phase gyroOffset accelOffset false connected handled
      (bytes ++ pending) read avail board) :
    MapleSpec buffer gyroOffset accelOffset
      (fun _ => Phase gyroOffset accelOffset false connected handled pending
        read avail) (putBytes bytes) board := by
  induction bytes generalizing board with
  | nil => exact phase_ret phase (fun _ now => now)
  | cons byte bytes ih =>
      apply phase_perform phase
      intro later now
      exact ⟨now.putc.inv, ih now.putc⟩

private theorem commandSend_spec {cmd length : UInt8} {data : Buffer}
    (phase : Phase gyroOffset accelOffset false connected handled
      ((Frame.ofBuffer cmd data length).encode ++ pending) read avail board) :
    MapleSpec buffer gyroOffset accelOffset
      (fun _ => Phase gyroOffset accelOffset false connected handled pending
        read avail) (commandSend cmd data length) board := by
  unfold Frame.encode at phase
  rw [Frame.ofBuffer_length] at phase
  apply phase_perform phase
  intro later now
  refine ⟨now.putc.inv, ?_⟩
  apply phase_perform now.putc
  intro later now
  exact ⟨now.putc.inv, putBytes_spec now.putc⟩

end BoardProgram

def MapleBoard.withFilter (board : MapleBoard R) (angle : AngleState R) : MapleBoard R :=
  { board with masked := true, attitude := { board.attitude with angle } }

private theorem Explains.withFilter {trace : List MapleEvent}
    {state : MapleState R}
    (explains : Explains gyroOffset accelOffset trace state pending board)
    (angle : AngleState R) :
    Explains gyroOffset accelOffset trace state pending
      (board.withFilter angle) := by
  refine ⟨explains.ran, explains.ticks, explains.sent, ?_, ?_,
    explains.compare⟩
  · change { board.attitude with angle } = _
    rw [explains.attitude]
    rfl
  · intro impossible
    cases impossible

namespace BoardProgram

private theorem storeAngle_spec {angle : AngleState R} {field : AngleField}
    {value : R}
    {next : Unit → BoardProgram R α}
    (kept : ∀ angle, MapleInv gyroOffset accelOffset (board.withFilter angle))
    (rest : MapleSpec buffer gyroOffset accelOffset post (next ())
      (board.withFilter (angle.store value field))) :
    MapleSpec buffer gyroOffset accelOffset post
      (.step (.storeAngle field value) next) (board.withFilter angle) :=
  Spec.perform_held_off rfl (kept _) rest

private theorem updateGains_spec {dispatch : Dispatch}
    (phase : Phase gyroOffset accelOffset false connected handled [] read avail
      board)
    (inside : handled ++ [dispatch.frame] <+: (Frame.code.decodeAll read).1)
    (chosen : MapleCommand.cmdMap dispatch.cmd = some .updateGains) :
    MapleSpec buffer gyroOffset accelOffset
      (fun _ => Phase gyroOffset accelOffset false connected
        (handled ++ [dispatch.frame]) [] read avail)
      (updateGains dispatch.buf dispatch.length) board := by
  apply phase_perform phase
  intro loaded now
  refine ⟨now.inv, ?_⟩
  change MapleSpec buffer gyroOffset accelOffset _
    (angleInit loaded.attitude.angle.dt _ _) loaded
  generalize dt_eq : loaded.attitude.angle.dt = dt
  refine phase_perform_keeping (fun board => board.attitude.angle.dt = dt) now
    dt_eq ?_ ?_
  · intro state event same
    cases event with
    | timer input => exact same
    | usart byte => exact same
  · intro later still same
    obtain ⟨unmasked, ⟨trace, state, explains, flag, handled_eq⟩, read_eq,
      avail_le, _⟩ := still
    have attitude : later.attitude = state.attitude := by
      rw [explains.attitude, explains.angle unmasked]
    obtain ⟨step_eq, silent⟩ := MapleEvent.command_chosen chosen state
    have explained := (explains.withFilter later.attitude.angle).event step_eq
      rfl rfl rfl
      (by
        change { later.attitude with angle := later.attitude.angle } =
          { state.attitude with angle := later.attitude.angle }
        rw [attitude])
      (fun impossible => by cases impossible) explains.compare
    rw [silent] at explained
    have frames_eq : (trace ++ [MapleEvent.command dispatch]).filterMap
        MapleEvent.frame? = handled ++ [dispatch.frame] := by
      rw [List.filterMap_append, handled_eq]
      rfl
    have kept : ∀ angle, MapleInv gyroOffset accelOffset
        (later.withFilter angle) := by
      intro angle
      refine ⟨_, _, _, explained.withFilter angle, ?_⟩
      rw [frames_eq]
      change _ <+: (Frame.code.decodeAll later.read).1
      rw [read_eq]
      exact inside
    refine ⟨kept _, ?_⟩
    apply storeAngle_spec kept
    apply storeAngle_spec kept
    apply storeAngle_spec kept
    apply storeAngle_spec kept
    apply storeAngle_spec kept
    apply storeAngle_spec kept
    apply storeAngle_spec kept
    have ended : Phase gyroOffset accelOffset false connected
        (handled ++ [dispatch.frame]) [] read avail
        { later.withFilter (.init dt (floatAt dispatch.buf 4)
            (floatAt dispatch.buf 0)) with masked := false } := by
      refine ⟨rfl, ⟨_, MapleFunc.updateGains.effect dispatch state, ?_, flag,
        frames_eq⟩, read_eq, avail_le, inside⟩
      refine ⟨explained.ran, explained.ticks, explained.sent, ?_, ?_,
        explained.compare⟩
      · unfold MapleBoard.withFilter
        dsimp only
        rw [attitude]
        rfl
      · intro _
        change AngleState.init dt _ _ = .init state.attitude.angle.dt _ _
        rw [← attitude, same]
    apply Spec.perform_held_off rfl ended.inv
    exact phase_ret ended (fun _ now => now)

/-! ### The handlers -/

private theorem answer_spec {dispatch : Dispatch} {cmd length : UInt8}
    {data : Buffer}
    {next : Bool}
    (phase : Phase gyroOffset accelOffset false connected handled [] read avail
      board)
    (inside : handled ++ [dispatch.frame] <+: (Frame.code.decodeAll read).1)
    (stepped : ∀ state : MapleState R, state.connected = connected →
      (MapleEvent.command dispatch).step state =
          .ok { state with connected := next } ∧
        (MapleEvent.command dispatch).frames state =
          [.ofBuffer cmd data length]) :
    MapleSpec buffer gyroOffset accelOffset
      (fun _ => Phase gyroOffset accelOffset false next
        (handled ++ [dispatch.frame]) [] read avail)
      (commandSend cmd data length) board := by
  obtain ⟨unmasked, ⟨trace, state, explains, flag, handled_eq⟩, read_eq,
    avail_le, _⟩ := phase
  obtain ⟨step_eq, frames_eq⟩ := stepped state flag
  have explained := explains.event step_eq rfl rfl rfl explains.attitude
    explains.angle explains.compare
  rw [frames_eq] at explained
  apply commandSend_spec
  refine ⟨unmasked, ⟨_, _, explained, rfl, ?_⟩, read_eq, avail_le, inside⟩
  rw [List.filterMap_append, handled_eq]
  rfl

private theorem pwmSet_spec {dispatch : Dispatch} {value : Int16}
    (phase : Phase gyroOffset accelOffset false connected handled [] read avail
      board)
    (inside : handled ++ [dispatch.frame] <+: (Frame.code.decodeAll read).1)
    (stepped : ∀ state : MapleState R,
      (MapleEvent.command dispatch).step state = .ok
          { state with
            compare := Function.update state.compare .ch2 (pwmScaled value) } ∧
        (MapleEvent.command dispatch).frames state = []) :
    MapleSpec buffer gyroOffset accelOffset
      (fun _ => Phase gyroOffset accelOffset false connected
        (handled ++ [dispatch.frame]) [] read avail)
      (pwmSet .ch2 value) board := by
  apply phase_perform phase
  intro later now
  obtain ⟨unmasked, ⟨trace, state, explains, flag, handled_eq⟩, read_eq,
    avail_le, _⟩ := now
  obtain ⟨step_eq, frames_eq⟩ := stepped state
  have set : Phase gyroOffset accelOffset false connected
      (handled ++ [dispatch.frame]) [] read avail
      (BoardOp.execute (.timerSetCompare .ch2 (pwmScaled value)) later).2 := by
    have explained := @Explains.event _ _ _ _ _ _ _ _ _
      (BoardOp.execute (.timerSetCompare .ch2 (pwmScaled value)) later).2
      explains step_eq rfl rfl rfl explains.attitude explains.angle (by
        rw [← explains.compare]
        rfl)
    rw [frames_eq] at explained
    refine ⟨unmasked, ⟨_, _, explained, flag, ?_⟩, read_eq, avail_le, inside⟩
    rw [List.filterMap_append, handled_eq]
    rfl
  exact ⟨set.inv, phase_ret set (fun _ now => now)⟩

/-- A handler does what its command is for. -/
theorem callHandler_spec {dispatch : Dispatch} {func : MapleFunc}
    (phase : Phase gyroOffset accelOffset false connected handled [] read avail
      board)
    (inside : handled ++ [dispatch.frame] <+: (Frame.code.decodeAll read).1)
    (chosen : MapleCommand.cmdMap dispatch.cmd = some func) :
    MapleSpec buffer gyroOffset accelOffset
      (fun next => Phase gyroOffset accelOffset false next
        (handled ++ [dispatch.frame]) [] read avail)
      (callHandler func dispatch.buf dispatch.length connected) board := by
  have step := MapleEvent.command_chosen (R := R) chosen
  cases func with
  | testCmd =>
      refine Spec.bind (answer_spec phase inside ?_)
        (fun _ _ now => phase_ret now (fun _ now => now))
      intro state flag
      rw [← flag]
      exact step state
  | connectCmd =>
      exact Spec.bind (answer_spec phase inside (fun state _ => step state))
        (fun _ _ now => phase_ret now (fun _ now => now))
  | disconnectCmd =>
      exact Spec.bind (answer_spec phase inside (fun state _ => step state))
        (fun _ _ now => phase_ret now (fun _ now => now))
  | motorOn =>
      exact Spec.bind (pwmSet_spec phase inside step)
        (fun _ _ now => phase_ret now (fun _ now => now))
  | motorOff =>
      exact Spec.bind (pwmSet_spec phase inside step)
        (fun _ _ now => phase_ret now (fun _ now => now))
  | updateGains =>
      exact Spec.bind (updateGains_spec phase inside chosen)
        (fun _ _ now => phase_ret now (fun _ now => now))

end BoardProgram

/-! ### The parser -/

/-- Where the parser stands in the current frame, of which `part` has been
read. -/
inductive MapleCommand.Place (command : MapleCommand) (part : List UInt8) :
    Prop where
  | between (index : command.cmdBufI = -1) (none_read : part = [])
  | within (nonneg : 0 ≤ command.cmdBufI)
      (account : command.cmdBufI + command.cmdBufLeft =
        command.cmdBufLen.toNat + 1)
      (left : 0 < command.cmdBufLeft)
      (bytes : part =
        command.cmdBufLen :: command.cmdBuf.first command.cmdBufI.toNat)

structure MapleCommand.Received (command : MapleCommand) (part : List UInt8) :
    Prop where
  nonneg : 0 ≤ command.cmdBufI
  account : command.cmdBufI + command.cmdBufLeft =
    command.cmdBufLen.toNat + 1
  left : 0 ≤ command.cmdBufLeft
  bytes : part =
    command.cmdBufLen :: command.cmdBuf.first command.cmdBufI.toNat

theorem Phase.getc
    (phase : Phase gyroOffset accelOffset masked connected handled pending read
      (avail + 1) board) :
    Phase gyroOffset accelOffset masked connected handled pending
      (read ++ [(BoardOp.execute .usartGetc board).1]) avail
      (BoardOp.execute .usartGetc board).2 := by
  obtain ⟨masked_eq, ⟨trace, state, explains, flag, frames⟩, read_eq, avail_le,
    inside⟩ := phase
  refine ⟨masked_eq, ⟨trace, state, ?_, flag, frames⟩, ?_, ?_, ?_⟩
  · exact ⟨explains.ran, explains.ticks, explains.sent, explains.attitude,
      explains.angle, explains.compare⟩
  · change board.read ++ [board.rx.headD 0] = read ++ [board.rx.headD 0]
    rw [read_eq]
  · change avail ≤ board.rx.tail.length
    rw [List.length_tail]
    omega
  · exact inside.trans (Frame.code.decodeAll_mono (List.prefix_append _ _))

namespace BoardProgram

structure Stored (command : MapleCommand) (count : Nat) (bytes : List UInt8)
    (stored : MapleCommand) : Prop where
  index : stored.cmdBufI = command.cmdBufI + count
  bytes : stored.cmdBuf.first (command.cmdBufI.toNat + count) =
    command.cmdBuf.first command.cmdBufI.toNat ++ bytes
  left : stored.cmdBufLeft = command.cmdBufLeft
  len : stored.cmdBufLen = command.cmdBufLen
  connected : stored.connected = command.connected

/-- The loop stores what it reads. -/
theorem storeBytes_spec {count : Nat} {command : MapleCommand}
    (phase : Phase gyroOffset accelOffset false connected handled pending read
      (avail + count) board)
    (nonneg : 0 ≤ command.cmdBufI) (room : command.cmdBufI + count ≤ 256) :
    MapleSpec buffer gyroOffset accelOffset
      (fun result later => ∃ stored bytes, result = .ok stored ∧
        Stored command count bytes stored ∧
        Phase gyroOffset accelOffset false connected handled pending
          (read ++ bytes) avail later) (storeBytes count command) board := by
  induction count generalizing command read board with
  | zero =>
      refine phase_ret phase ?_
      intro later now
      refine ⟨command, [], rfl, ?_, ?_⟩
      · exact ⟨(Int.add_zero _).symm, (List.append_nil _).symm, rfl, rfl, rfl⟩
      · rw [List.append_nil]
        exact now
  | succ count ih =>
      unfold storeBytes
      rw [if_pos ⟨nonneg, by omega⟩]
      apply phase_perform phase
      intro later now
      have read_on := Phase.getc now
      refine ⟨read_on.inv, ?_⟩
      generalize (BoardOp.execute .usartGetc later).1 = byte at read_on ⊢
      generalize (BoardOp.execute .usartGetc later).2 = after at read_on ⊢
      refine Spec.weaken ?_ (ih read_on (by
        change 0 ≤ command.cmdBufI + 1
        omega) (by
        change command.cmdBufI + 1 + count ≤ 256
        omega))
      rintro result final ⟨stored, bytes, rfl, step, ended⟩
      refine ⟨stored, byte :: bytes, rfl, ?_, ?_⟩
      · have split : (command.cmdBufI + 1).toNat =
            command.cmdBufI.toNat + 1 := by
          omega
        have stored_bytes := step.bytes
        dsimp only at stored_bytes
        rw [split, Buffer.first_update, List.append_assoc] at stored_bytes
        refine ⟨?_, ?_, step.left, step.len, step.connected⟩
        · rw [step.index]
          push_cast
          omega
        · rw [Nat.add_comm count 1, ← Nat.add_assoc]
          exact stored_bytes
      · rw [List.append_cons]
        exact ended

end BoardProgram

/-! ### command_process -/

def MapleReady (gyroOffset accelOffset : Vector3 R) (command : MapleCommand)
    (board : MapleBoard R) : Prop :=
  ∃ handled part,
    Phase gyroOffset accelOffset false command.connected handled []
      (Frame.code.encodeAll handled ++ part) 0 board ∧
    command.Place part

/-- main has stopped at a frame whose command is not below 128. -/
def MapleStopped (gyroOffset accelOffset : Vector3 R) (halt : MapleHalt)
    (board : MapleBoard R) : Prop :=
  halt = .throb ∧ ∃ (connected : Bool) (handled : List Frame) (frame : Frame),
    128 ≤ frame.cmd.toNat ∧
      Phase gyroOffset accelOffset false connected handled []
        (Frame.code.encodeAll (handled ++ [frame])) 0 board

private theorem Phase.avail_zero
    (phase : Phase gyroOffset accelOffset masked connected handled pending read
      avail board) :
    Phase gyroOffset accelOffset masked connected handled pending read 0
      board :=
  ⟨phase.masked_eq, phase.explained, phase.read_eq, Nat.zero_le _,
    phase.inside⟩

def MapleCommand.whole (command : MapleCommand)
    (small : (command.cmdBuf 0).toNat < 128) : Dispatch :=
  { cmd := ⟨(command.cmdBuf 0).toNat, small⟩
    buf := fun i => command.cmdBuf (i + 1)
    length := command.cmdBufLen }

theorem MapleCommand.Received.whole {command : MapleCommand}
    {part : List UInt8} (received : command.Received part)
    (done : command.cmdBufLeft = 0) :
    part = (Frame.ofBuffer (command.cmdBuf 0)
      (fun i => command.cmdBuf (i + 1)) command.cmdBufLen).encode := by
  have account := received.account
  have index : command.cmdBufI.toNat = command.cmdBufLen.toNat + 1 := by omega
  rw [received.bytes, index, Frame.encode, Frame.ofBuffer_length,
    Buffer.first_succ]
  rfl

namespace BoardProgram

private theorem dispatch_spec {command : MapleCommand} {part : List UInt8}
    (phase : Phase gyroOffset accelOffset false command.connected handled []
      (Frame.code.encodeAll handled ++ part) avail board)
    (received : command.Received part) (done : command.cmdBufLeft = 0) :
    MapleSpec buffer gyroOffset accelOffset
      (ended (MapleReady gyroOffset accelOffset)
        (MapleStopped gyroOffset accelOffset)) (dispatch command) board := by
  have whole := received.whole done
  have read_eq : ∀ frame : Frame, part = frame.encode →
      Frame.code.encodeAll handled ++ part =
        Frame.code.encodeAll (handled ++ [frame]) := by
    intro frame part_eq
    rw [part_eq, Frame.code.encodeAll_append]
    exact congrArg _ (List.append_nil _).symm
  unfold dispatch
  by_cases small : (command.cmdBuf 0).toNat < 128
  · rw [dif_pos small]
    have frame_eq : (command.whole small).frame =
        Frame.ofBuffer (command.cmdBuf 0) (fun i => command.cmdBuf (i + 1))
          command.cmdBufLen := by
      unfold Dispatch.frame MapleCommand.whole
      simp only [UInt8.ofNat_toNat]
    rw [← frame_eq] at whole
    have all := read_eq _ whole
    have inside : handled ++ [(command.whole small).frame] <+:
        (Frame.code.decodeAll (Frame.code.encodeAll handled ++ part)).1 := by
      rw [all, Frame.code.decodeAll_encodeAll]
    have ready : ∀ connected later,
        Phase gyroOffset accelOffset false connected
          (handled ++ [(command.whole small).frame]) []
          (Frame.code.encodeAll handled ++ part) avail later →
        MapleReady gyroOffset accelOffset
          { command with cmdBufI := -1, connected } later := by
      intro connected later now
      rw [all] at now
      refine ⟨handled ++ [(command.whole small).frame], [], ?_,
        .between rfl rfl⟩
      rw [List.append_nil]
      exact now.avail_zero
    dsimp only
    cases chosen : MapleCommand.cmdMap ⟨(command.cmdBuf 0).toNat, small⟩ with
    | none =>
        refine Spec.bind (answer_spec phase inside ?_)
          (fun _ _ now => phase_ret now (ready command.connected))
        intro state flag
        rw [← flag]
        exact MapleEvent.command_unknown chosen state
    | some func =>
        exact Spec.bind (callHandler_spec phase inside chosen)
          (fun connected _ now => phase_ret now (ready connected))
  · rw [dif_neg small]
    refine phase_ret phase ?_
    intro later now
    rw [read_eq _ whole] at now
    exact ⟨rfl, command.connected, handled, _, Nat.le_of_not_lt small,
      now.avail_zero⟩

private theorem beginFrame_spec {command : MapleCommand} {part : List UInt8}
    {count : Nat}
    (phase : Phase gyroOffset accelOffset false command.connected handled []
      (Frame.code.encodeAll handled ++ part) (count + 1) board)
    (place : command.Place part) :
    MapleSpec buffer gyroOffset accelOffset
      (fun (begun : Int × MapleCommand) later =>
        ∃ (part : List UInt8) (left : Nat), begun.1 = left ∧
        begun.2.Received part ∧ 0 < begun.2.cmdBufLeft ∧
        Phase gyroOffset accelOffset false begun.2.connected handled []
          (Frame.code.encodeAll handled ++ part) left later)
      (beginFrame (count + 1 : Nat) command) board := by
  unfold beginFrame
  cases place with
  | between index none_read =>
      rw [if_pos index]
      apply phase_perform phase
      intro later now
      have read_on := Phase.getc now
      refine ⟨read_on.inv, ?_⟩
      generalize (BoardOp.execute .usartGetc later).1 = length at read_on ⊢
      generalize (BoardOp.execute .usartGetc later).2 = after at read_on ⊢
      refine phase_ret read_on ?_
      intro final ended
      rw [none_read, List.append_nil] at ended
      refine ⟨[length], count, ?_, ⟨Int.le_refl 0, ?_, ?_, rfl⟩, ?_, ended⟩
      · push_cast
        omega
      · dsimp only
        omega
      · dsimp only
        omega
      · dsimp only
        omega
  | within nonneg account left bytes =>
      rw [if_neg (by omega)]
      refine phase_ret phase ?_
      intro later now
      exact ⟨part, count + 1, rfl,
        ⟨nonneg, account, Int.le_of_lt left, bytes⟩, left, now⟩

private theorem commandProcess_spec {command : MapleCommand}
    (ready : MapleReady gyroOffset accelOffset command board) :
    MapleSpec buffer gyroOffset accelOffset
      (ended (MapleReady gyroOffset accelOffset)
        (MapleStopped gyroOffset accelOffset))
      (commandProcess command) board := by
  obtain ⟨handled, part, phase, place⟩ := ready
  apply phase_perform phase
  intro later now
  refine ⟨now.inv, ?_⟩
  generalize count_eq : (BoardOp.execute .usartDataAvailable later).1 = count
  change later.rx.length = count at count_eq
  change MapleSpec buffer gyroOffset accelOffset _ _ later
  dsimp only [Program.bind]
  cases count with
  | zero =>
      rw [if_pos rfl]
      refine phase_ret now ?_
      intro final ended
      exact ⟨handled, part, ended, place⟩
  | succ count =>
      rw [if_neg (Nat.succ_ne_zero count)]
      have some_left : Phase gyroOffset accelOffset false command.connected
          handled [] (Frame.code.encodeAll handled ++ part) (count + 1)
          later :=
        ⟨now.masked_eq, now.explained, now.read_eq, Nat.le_of_eq count_eq.symm,
          now.inside⟩
      refine Spec.bind (beginFrame_spec some_left place) ?_
      rintro ⟨avail, begun⟩ after ⟨part, left, rfl, received, unfinished, stood⟩
      dsimp only at received unfinished stood ⊢
      generalize i_eq : (min (left : Int) begun.cmdBufLeft).toNat = i
      have account := received.account
      have nonneg := received.nonneg
      have bound := begun.cmdBufLen.toNat_lt
      have split : left = (left - i) + i := by omega
      rw [split] at stood
      refine Spec.bind (storeBytes_spec stood nonneg (by omega)) ?_
      rintro result final ⟨stored, bytes, rfl, done, reached⟩
      have index := done.index
      have index_nat : stored.cmdBufI.toNat = begun.cmdBufI.toNat + i := by
        omega
      have left_eq := done.left
      have whole : MapleCommand.Received
          { stored with cmdBufLeft := stored.cmdBufLeft - i }
          (part ++ bytes) := by
        refine ⟨?_, ?_, ?_, ?_⟩
        · dsimp only
          omega
        · dsimp only
          rw [done.len]
          omega
        · dsimp only
          omega
        · dsimp only
          rw [received.bytes, index_nat, done.bytes, done.len]
          rfl
      rw [List.append_assoc, ← done.connected] at reached
      dsimp only
      by_cases finished : stored.cmdBufLeft - i = 0
      · rw [if_pos finished]
        exact dispatch_spec reached whole finished
      · rw [if_neg finished]
        refine phase_ret reached ?_
        intro last ended
        refine ⟨handled, part ++ bytes, ended.avail_zero, ?_⟩
        exact .within whole.nonneg whole.account
          (lt_of_le_of_ne whole.left (Ne.symm finished)) whole.bytes

/-! ### quadcopter_run -/

private theorem copyBytes_run {load : Nat → BoardProgram R UInt8}
    {bytes : List UInt8}
    (each : ∀ i, (load i).run BoardOp.execute board = (bytes.getD i 0, board))
    {length : Nat} (long : length ≤ bytes.length) :
    (copyBytes load length).run BoardOp.execute board =
      (bytes.take length, board) := by
  induction length with
  | zero => rfl
  | succ length ih =>
      have shorter : length ≤ bytes.length := by omega
      unfold copyBytes
      rw [Program.run_bind, ih shorter, Program.run_bind, each]
      change (bytes.take length ++ [bytes.getD length 0], board) = _
      rw [List.take_add_one, List.getD_eq_getElem?_getD]
      rw [List.getElem?_eq_getElem (by omega)]
      rfl

private theorem copyBytes_throughout {load : Nat → BoardProgram R UInt8}
    {bytes : List UInt8}
    (each : ∀ i, (load i).run BoardOp.execute board = (bytes.getD i 0, board))
    (still : ∀ i, (load i).Throughout BoardOp.execute (fun s => s = board)
      board) {length : Nat} (long : length ≤ bytes.length) :
    (copyBytes load length).Throughout BoardOp.execute (fun s => s = board)
      board := by
  induction length with
  | zero => rfl
  | succ length ih =>
      have shorter : length ≤ bytes.length := by omega
      unfold copyBytes
      rw [Program.throughout_bind, copyBytes_run each shorter,
        Program.throughout_bind, each]
      exact ⟨ih shorter, still length, rfl⟩

private theorem frame_of_copy {cmd length : UInt8} {bytes : List UInt8}
    (whole : bytes.length = length.toNat) (small : bytes.length < 256) :
    Frame.ofBuffer cmd (fun i => bytes.getD i 0) length =
      ⟨cmd, bytes, small⟩ := by
  unfold Frame.ofBuffer
  congr 1
  apply Buffer.first_of_getElem? whole
  intro offset inside
  rw [List.getD_eq_getElem?_getD, List.getElem?_eq_getElem (by omega)]
  rfl

/-- A copy while interrupts are masked. -/
theorem copyBytes_spec {load : Nat → BoardProgram R UInt8} (bytes : List UInt8)
    {length : Nat}
    (masked_eq : board.masked = true)
    (kept : MapleInv gyroOffset accelOffset board)
    (each : ∀ i, (load i).run BoardOp.execute board = (bytes.getD i 0, board))
    (still : ∀ i, (load i).Throughout BoardOp.execute (fun s => s = board)
      board) (whole : bytes.length = length) :
    MapleSpec buffer gyroOffset accelOffset
      (fun copied later => copied = bytes ∧ later = board)
      (copyBytes load length) board := by
  have disabled : (mapleLoop (R := R) buffer).enabled board = false := by
    change (!board.masked) = false
    rw [masked_eq]
    rfl
  apply Spec.held_off disabled
  · apply (copyBytes_throughout each still (Nat.le_of_eq whole.symm)).mono
    rintro s rfl
    exact ⟨kept, disabled⟩
  · change ((copyBytes load length).run BoardOp.execute board).1 = bytes ∧
      ((copyBytes load length).run BoardOp.execute board).2 = board
    rw [copyBytes_run each (Nat.le_of_eq whole.symm)]
    exact ⟨List.take_of_length_le (Nat.le_of_eq whole), rfl⟩

private theorem access_spec {op : BoardOp R}
    {rest : op.Answer → BoardProgram R α}
    (phase : Phase gyroOffset accelOffset masked connected handled pending read
      avail board)
    (each : ∀ later, Phase gyroOffset accelOffset masked connected handled
        pending read avail later →
      MapleInv gyroOffset accelOffset (op.execute later).2 ∧
        MapleSpec buffer gyroOffset accelOffset post
          (rest (op.execute later).1) (op.execute later).2) :
    MapleSpec buffer gyroOffset accelOffset post (access op >>= rest) board :=
  phase_perform phase each

private theorem access_held_off {op : BoardOp R}
    {rest : op.Answer → BoardProgram R α} (masked_eq : board.masked = true)
    (kept : MapleInv gyroOffset accelOffset (op.execute board).2)
    (spec : MapleSpec buffer gyroOffset accelOffset post
      (rest (op.execute board).1) (op.execute board).2) :
    MapleSpec buffer gyroOffset accelOffset post (access op >>= rest) board := by
  refine Spec.perform_held_off ?_ kept spec
  change (!board.masked) = false
  rw [masked_eq]
  rfl

private theorem snapshot_bytes (state : MapleState R) :
    Frame.code.encodeAll (MapleEvent.snapshot.frames state) =
      state.attitude.sd.frame.encode ++
        (state.attitude.angles.frame.encode ++ []) := by
  unfold MapleEvent.frames
  rw [Frame.code.encodeAll_cons, Frame.code.encodeAll_cons,
    Frame.code.encodeAll_nil]
  rfl

private theorem sendData_spec
    (phase : Phase gyroOffset accelOffset false true handled [] read avail
      board) :
    MapleSpec buffer gyroOffset accelOffset
      (fun _ => Phase gyroOffset accelOffset false true handled [] read avail)
      sendData board := by
  unfold sendData
  apply access_spec phase
  intro later now
  obtain ⟨unmasked, ⟨trace, state, explains, flag, handled_eq⟩, read_eq,
    avail_le, inside⟩ := now
  have attitude : later.attitude = state.attitude := by
    rw [explains.attitude, explains.angle unmasked]
  have stepped : MapleEvent.snapshot.step state = .ok state := by
    unfold MapleEvent.step
    rw [if_pos flag]
  have frames_eq : (trace ++ [MapleEvent.snapshot]).filterMap
      MapleEvent.frame? = handled := by
    rw [List.filterMap_append, handled_eq]
    exact List.append_nil handled
  have unfinished : ∀ later', later'.ticks = later.ticks →
      later'.tx = later.tx → later'.attitude = later.attitude →
      later'.compare = later.compare →
      Explains gyroOffset accelOffset (trace ++ [.snapshot]) state
        (Frame.code.encodeAll (MapleEvent.snapshot.frames state)) later' := by
    intro later' ticks tx same compare
    exact explains.event stepped rfl ticks tx (by rw [same, attitude])
      (fun _ => by rw [same, attitude]) (compare.trans explains.compare)
  have bytes := snapshot_bytes state
  rw [← attitude] at bytes
  generalize Frame.code.encodeAll (MapleEvent.snapshot.frames state) = pending
    at unfinished bytes
  have kept : MapleInv gyroOffset accelOffset
      (BoardOp.execute .irqDisable later).2 := by
    refine ⟨_, state, _, unfinished _ rfl rfl rfl rfl, ?_⟩
    rw [frames_eq]
    change handled <+: (Frame.code.decodeAll later.read).1
    rw [read_eq]
    exact inside
  have copied : Phase gyroOffset accelOffset false true handled pending read
      avail
      (BoardOp.execute .irqEnable (BoardOp.execute .irqDisable later).2).2 :=
    ⟨rfl, ⟨_, state, unfinished _ rfl rfl rfl rfl, flag, frames_eq⟩, read_eq,
      avail_le, inside⟩
  rw [bytes] at copied
  refine ⟨kept, Spec.bind (copyBytes_spec later.attitude.sd.bytes rfl kept
    (fun _ => rfl) (fun _ => ⟨rfl, rfl⟩) later.attitude.sd.bytes_length) ?_⟩
  rintro localSd final ⟨rfl, rfl⟩
  refine Spec.bind (copyBytes_spec later.attitude.angles.bytes rfl kept
    (fun _ => rfl) (fun _ => ⟨rfl, rfl⟩) later.attitude.angles.bytes_length) ?_
  rintro lAngles final ⟨rfl, rfl⟩
  refine access_held_off rfl copied.inv ?_
  have first := @frame_of_copy '0'.toUInt8 36 later.attitude.sd.bytes
    later.attitude.sd.bytes_length later.attitude.sd.frame.payload_small
  have second := @frame_of_copy '1'.toUInt8 12 later.attitude.angles.bytes
    later.attitude.angles.bytes_length
    later.attitude.angles.frame.payload_small
  change _ = later.attitude.sd.frame at first
  change _ = later.attitude.angles.frame at second
  rw [← first, ← second] at copied
  refine Spec.bind (commandSend_spec copied) ?_
  intro _ last sent
  exact commandSend_spec sent

/-- A round of the loop keeps the explanation. -/
theorem quadcopterRound_spec {command : MapleCommand}
    (ready : MapleReady gyroOffset accelOffset command board) :
    MapleSpec buffer gyroOffset accelOffset
      (ended (MapleReady gyroOffset accelOffset)
        (MapleStopped gyroOffset accelOffset))
      (quadcopterRound command) board := by
  unfold quadcopterRound
  refine Spec.bind (commandProcess_spec ready) ?_
  intro result later now
  cases result with
  | error halt =>
      obtain ⟨rfl, connected, handled, frame, large, phase⟩ := now
      refine phase_ret phase ?_
      intro final still
      exact ⟨rfl, connected, handled, frame, large, still⟩
  | ok command =>
      obtain ⟨handled, part, phase, place⟩ := now
      dsimp only
      by_cases connected : command.connected = true
      · rw [if_pos connected]
        rw [connected] at phase
        refine Spec.bind (sendData_spec phase) (fun _ _ sent => ?_)
        refine phase_ret sent ?_
        intro final still
        rw [← connected] at still
        exact ⟨handled, part, still, place⟩
      · rw [if_neg connected]
        refine phase_ret phase ?_
        intro final still
        exact ⟨handled, part, still, place⟩

end BoardProgram

/-! ### All runs -/

/-- A run of the atomic board that explains what the real board has done. -/
structure Linearized (gyroOffset accelOffset : Vector3 R)
    (machine : LoopState (BoardOp R) BoardOp.Answer MapleHalt MapleCommand
      (MapleBoard R)) (trace : List MapleEvent) (state : MapleState R) : Prop where
  ran : trace.foldlM MapleEvent.step (.start gyroOffset accelOffset) =
    .ok state
  ticks : trace.filterMap MapleEvent.tick? = machine.state.ticks
  commands : trace.filterMap MapleEvent.frame? <+:
    (Frame.code.decodeAll machine.state.read).1
  sent : machine.state.tx <+:
    Frame.code.encodeAll (mapleSent gyroOffset accelOffset trace)
  attitude : machine.state.attitude =
    { state.attitude with angle := machine.state.attitude.angle }
  angle : machine.state.masked = false →
    machine.state.attitude.angle = state.attitude.angle
  compare : machine.state.compare = state.compare
  settled : ∀ command, machine.program = .ret (.ok command) →
    trace.filterMap MapleEvent.frame? =
        (Frame.code.decodeAll machine.state.read).1 ∧
      machine.state.tx =
        Frame.code.encodeAll (mapleSent gyroOffset accelOffset trace) ∧
      state.connected = command.connected
  stopped : ∀ halt, machine.program = .ret (.error halt) →
    halt = .throb ∧ ∃ frame : Frame, 128 ≤ frame.cmd.toNat ∧
      machine.state.read = Frame.code.encodeAll
        (trace.filterMap MapleEvent.frame? ++ [frame])

theorem MapleCommand.Place.incomplete {command : MapleCommand}
    {part : List UInt8} (place : command.Place part) :
    Frame.code.decode part = none := by
  cases place with
  | between index none_read =>
      rw [none_read]
      rfl
  | within nonneg account left bytes =>
      have size := Buffer.first_length command.cmdBuf command.cmdBufI.toNat
      rw [bytes]
      change Frame.decode _ = none
      cases stored : command.cmdBuf.first command.cmdBufI.toNat with
      | nil => rfl
      | cons cmd payload =>
          rw [stored, List.length_cons] at size
          simp only [Frame.decode]
          rw [if_neg (by omega)]

theorem mapleRun_going (buffer : UsartBuffer) (gyroOffset accelOffset : Vector3 R)
    (turns : List (Turn MapleInterrupt)) :
    (mapleLoop buffer).Going (MapleInv gyroOffset accelOffset)
      (MapleReady gyroOffset accelOffset)
      (MapleStopped gyroOffset accelOffset)
      (mapleRun buffer gyroOffset accelOffset turns) := by
  have sound : (mapleLoop (R := R) buffer).Sound
      (MapleInv gyroOffset accelOffset) (MapleReady gyroOffset accelOffset)
      (MapleStopped gyroOffset accelOffset) := by
    constructor
    · intro board event enabled inv
      exact mapleInv_interrupt event enabled inv
    · intro command board ready
      exact BoardProgram.quadcopterRound_spec ready
  have first : Phase gyroOffset accelOffset false false [] [] [] 0
      (MapleBoard.start gyroOffset accelOffset) := by
    refine ⟨rfl, ⟨[], .start gyroOffset accelOffset, ?_, rfl, rfl⟩, rfl,
      Nat.zero_le _, List.nil_prefix⟩
    exact ⟨rfl, rfl, rfl, rfl, fun _ => rfl, rfl⟩
  apply sound.run
  constructor
  · exact first.inv
  · refine phase_ret first ?_
    intro later now
    exact ⟨[], [], now, .between rfl rfl⟩

theorem linearized_of_going
    {machine : LoopState (BoardOp R) BoardOp.Answer MapleHalt MapleCommand
      (MapleBoard R)}
    (going : (mapleLoop buffer).Going (MapleInv gyroOffset accelOffset)
      (MapleReady gyroOffset accelOffset)
      (MapleStopped gyroOffset accelOffset) machine) :
    ∃ trace state, Linearized gyroOffset accelOffset machine trace state := by
  cases left : machine.program with
  | ret result =>
      have reached := going.returned left
      cases result with
      | error halt =>
          obtain ⟨rfl, connected, handled, frame, large, phase⟩ := reached
          obtain ⟨_, ⟨trace, state, explains, _, handled_eq⟩, read_eq, _,
            inside⟩ := phase
          refine ⟨trace, state, explains.ran, explains.ticks, ?_, ?_,
            explains.attitude, explains.angle, explains.compare, ?_, ?_⟩
          · rw [handled_eq, read_eq]
            exact inside
          · rw [← explains.sent]
            exact List.prefix_append _ _
          · intro command impossible
            rw [left] at impossible
            cases impossible
          · intro halt same
            rw [left] at same
            cases same
            refine ⟨rfl, frame, large, ?_⟩
            rw [handled_eq]
            exact read_eq
      | ok command =>
          obtain ⟨handled, part, phase, place⟩ := reached
          obtain ⟨_, ⟨trace, state, explains, flag, handled_eq⟩, read_eq, _,
            inside⟩ := phase
          have sent := explains.sent
          rw [List.append_nil] at sent
          have all : trace.filterMap MapleEvent.frame? =
              (Frame.code.decodeAll machine.state.read).1 := by
            rw [read_eq, Frame.code.decodeAll_eq _ _ place.incomplete]
            exact handled_eq
          refine ⟨trace, state, explains.ran, explains.ticks, ?_, ?_,
            explains.attitude, explains.angle, explains.compare, ?_, ?_⟩
          · rw [all]
          · rw [sent]
          · intro other same
            rw [left] at same
            cases same
            exact ⟨all, sent, flag⟩
          · intro halt impossible
            rw [left] at impossible
            cases impossible
  | step op next =>
      obtain ⟨trace, state, pending, explains, inside⟩ := going.kept
      refine ⟨trace, state, explains.ran, explains.ticks, inside, ?_,
        explains.attitude, explains.angle, explains.compare, ?_, ?_⟩
      · rw [← explains.sent]
        exact List.prefix_append _ _
      · intro command impossible
        rw [left] at impossible
        cases impossible
      · intro halt impossible
        rw [left] at impossible
        cases impossible

/-- Every run of the maple board, with interrupts between any two accesses of
main, is explained by a run in which interrupts, commands and snapshots each
happen at one moment. -/
theorem mapleRun_linearized (buffer : UsartBuffer)
    (gyroOffset accelOffset : Vector3 R) (turns : List (Turn MapleInterrupt)) :
    ∃ trace state, Linearized gyroOffset accelOffset
      (mapleRun buffer gyroOffset accelOffset turns) trace state :=
  linearized_of_going (mapleRun_going buffer gyroOffset accelOffset turns)

end Quadcopter

import Quadcopter.Common.Frame
import Quadcopter.M3.Command

/-
Frames from the m3 to the host: command_send writes, the host reads.

A frame goes into the ring in three writes that each take what they have room
for.  It stays whole if there is room for all of it, and leaves nothing behind if
there is room for none.
-/

namespace Quadcopter

open AtomicProgram

section Sending

variable {n : Nat} {queue : BoundedFifo UInt8 (n - 1)} {memory : RingMemory}
  {rb : Ringbuf}

private theorem sendFrame_run (rb : Ringbuf) (memory : RingMemory) (cmd : UInt8)
    (data : Buffer) (length : UInt8) :
    (memory.call (sendFrame rb cmd data length)).2 =
      (((memory.call (ringbufPutc rb length)).2.call
        (ringbufPutc rb cmd)).2.call
          (ringbufWrite rb data length.toUInt32.toInt32)).2 := by
  simp only [sendFrame, RingMemory.call, Program.run_bind, Program.pure_eq,
    Program.run_ret]

private theorem sendFrame_pushes (carries : memory.Carries n queue)
    (sized : rb.size.toNat = n) (small : n < 2 ^ 31) (cmd : UInt8)
    (data : Buffer) (length : UInt8) :
    (memory.call (sendFrame rb cmd data length)).2.Carries n
      (((queue.push [length]).push [cmd]).push
        (data.first length.toNat)) := by
  have lengthInt : length.toUInt32.toInt32.toInt = length.toNat := by
    have bound := length.toNat_lt
    have wide : length.toUInt32.toNat = length.toNat :=
      length.toNat_toUInt32
    rw [MachineInt.toInt_toInt32 _ (by omega), wide]
  have first := (carries.putc sized small length).1
  have second := (first.putc sized small cmd).1
  have third := (second.write sized small data length.toUInt32.toInt32
    (by omega)).1.carries
  rw [lengthInt, Int.toNat_natCast] at third
  rw [sendFrame_run]
  exact third

private theorem sendFrame_whole (carries : memory.Carries n queue)
    (sized : rb.size.toNat = n) (small : n < 2 ^ 31) (cmd : UInt8)
    (data : Buffer) (length : UInt8) (room : length.toNat + 2 ≤ queue.room) :
    (memory.call (sendFrame rb cmd data length)).2.Carries n
      (queue.push (Frame.ofBuffer cmd data length).encode) := by
  have pushed := sendFrame_pushes carries sized small cmd data length
  have size := Buffer.first_length data length.toNat
  have header : (queue.push [length]).push [cmd] =
      queue.push [length, cmd] :=
    queue.push_push_of_fits (by
      change 2 ≤ queue.room
      omega)
  have whole : (queue.push [length, cmd]).push (data.first length.toNat) =
      queue.push ([length, cmd] ++ data.first length.toNat) := by
    apply queue.push_push_of_fits
    rw [List.length_append, size]
    change 2 + length.toNat ≤ queue.room
    omega
  rw [header, whole] at pushed
  unfold Frame.encode
  rw [Frame.ofBuffer_length]
  exact pushed

private theorem sendFrame_dropped (carries : memory.Carries n queue)
    (sized : rb.size.toNat = n) (small : n < 2 ^ 31) (cmd : UInt8)
    (data : Buffer) (length : UInt8) (full : queue.room = 0) :
    (memory.call (sendFrame rb cmd data length)).2.Carries n queue := by
  have pushed := sendFrame_pushes carries sized small cmd data length
  rw [queue.push_of_full _ full, queue.push_of_full _ full,
    queue.push_of_full _ full] at pushed
  exact pushed

private theorem sendFrame_cut (carries : memory.Carries n queue)
    (sized : rb.size.toNat = n) (small : n < 2 ^ 31) (cmd : UInt8)
    (data : Buffer) (length : UInt8) (one : queue.room = 1) :
    (memory.call (sendFrame rb cmd data length)).2.Carries n
      (queue.push [length]) := by
  have pushed := sendFrame_pushes carries sized small cmd data length
  have full : (queue.push [length]).room = 0 := by
    rw [BoundedFifo.room_push, one]
    rfl
  rw [BoundedFifo.push_of_full _ _ full, BoundedFifo.push_of_full _ _ full]
    at pushed
  exact pushed

end Sending

/-! ### Sends and reads in any order -/

structure TelemetrySystem where
  rb : Ringbuf
  memory : RingMemory
  sent : List Frame
  -- those that found room for the whole frame
  kept : List Frame
  host : List UInt8

inductive TelemetryEvent where
  | send (cmd : UInt8) (data : Buffer) (length : UInt8)
  | hostRead (buf : Buffer) (count : Int32)

def TelemetryEvent.Valid : TelemetryEvent → Prop
  | .send _ _ _ => True
  | .hostRead _ count => 0 ≤ count.toInt

namespace TelemetrySystem

def start (size : UInt32) (memory : RingMemory) : TelemetrySystem :=
  let done := memory.call (ringbufInit size)
  { rb := done.1
    memory := done.2
    sent := []
    kept := []
    host := [] }

def free (system : TelemetrySystem) : Nat :=
  system.rb.size.toNat - 1 - system.memory.held system.rb.size.toNat

def step (system : TelemetrySystem) : TelemetryEvent → TelemetrySystem
  | .send cmd data length =>
      let frame := Frame.ofBuffer cmd data length
      { system with
        memory := (system.memory.call (sendFrame system.rb cmd data length)).2
        sent := system.sent ++ [frame]
        kept :=
          if length.toNat + 2 ≤ system.free then system.kept ++ [frame]
          else system.kept }
  | .hostRead buf count =>
      let done := system.memory.call (ringbufRead system.rb buf count)
      { system with
        memory := done.2
        host := system.host ++ done.1.2.first done.1.1.toInt.toNat }

def run (system : TelemetrySystem) (events : List TelemetryEvent) :
    TelemetrySystem :=
  events.foldl step system

/-- A send finds room for the whole frame, or none at all. -/
def Clear (system : TelemetrySystem) : TelemetryEvent → Prop
  | .send _ _ length => system.free = 0 ∨ length.toNat + 2 ≤ system.free
  | .hostRead _ _ => True

def StaysClear : TelemetrySystem → List TelemetryEvent → Prop
  | _, [] => True
  | system, event :: events =>
      system.Clear event ∧ StaysClear (system.step event) events

/-- What the host has and will have is made of whole frames, in the order in
which they were sent. -/
structure Faithful (system : TelemetrySystem) : Prop where
  whole : Frame.code.encodeAll system.kept =
    system.host ++ system.memory.unread system.rb.size.toNat
  parses : (Frame.code.decodeAll system.host).1 <+: system.kept
  sent : system.kept.Sublist system.sent

structure Simulates (n : Nat) (system : TelemetrySystem)
    (history : FifoHistory UInt8 (n - 1)) : Prop where
  sized : system.rb.size.toNat = n
  small : n < 2 ^ 31
  carries : system.memory.Carries n history.queue
  accepted : history.accepted = Frame.code.encodeAll system.kept
  host : history.delivered = system.host
  sent : system.kept.Sublist system.sent

variable {n : Nat} {system : TelemetrySystem}
  {history : FifoHistory UInt8 (n - 1)}

theorem Simulates.free_eq (simulates : system.Simulates n history) :
    system.free = history.queue.room := by
  unfold free BoundedFifo.room
  rw [simulates.sized, simulates.carries.held]

theorem Simulates.faithful (simulates : system.Simulates n history) :
    system.Faithful := by
  have conserved := history.conserved
  rw [simulates.host, simulates.accepted] at conserved
  constructor
  · rw [simulates.sized, simulates.carries.unread, conserved]
  · have front : system.host <+: Frame.code.encodeAll system.kept :=
      ⟨history.queue.items, conserved⟩
    have parsed := Frame.code.decodeAll_mono front
    rw [Frame.code.decodeAll_encodeAll] at parsed
    exact parsed
  · exact simulates.sent

/-- The host parses only frames that were sent. -/
theorem Faithful.received (faithful : system.Faithful) {frames : List Frame}
    {rest : List UInt8}
    (host : system.host = Frame.code.encodeAll frames ++ rest)
    (incomplete : Frame.code.decode rest = none) :
    ∀ frame ∈ frames, frame ∈ system.sent := by
  have parses := faithful.parses
  rw [host, Frame.code.decodeAll_eq frames rest incomplete] at parses
  intro frame member
  exact faithful.sent.subset (parses.subset member)

theorem Simulates.sendWhole (simulates : system.Simulates n history)
    (cmd : UInt8) (data : Buffer) (length : UInt8)
    (room : length.toNat + 2 ≤ system.free) :
    (system.step (.send cmd data length)).Simulates n
      (history.push (Frame.ofBuffer cmd data length).encode) := by
  have whole := sendFrame_whole simulates.carries simulates.sized
    simulates.small cmd data length (by rwa [← simulates.free_eq])
  refine ⟨simulates.sized, simulates.small, whole, ?_, simulates.host, ?_⟩
  · unfold TelemetrySystem.step FifoHistory.push
    dsimp only
    rw [if_pos room, SelfDelimiting.Code.encodeAll_append,
      ← simulates.accepted, history.queue.accepted_of_fits]
    · simp only [SelfDelimiting.Code.encodeAll_cons,
        SelfDelimiting.Code.encodeAll_nil, List.append_nil]
      rfl
    · rw [Frame.encode_length, ← simulates.free_eq]
      change (data.first length.toNat).length + 2 ≤ system.free
      rw [Buffer.first_length]
      exact room
  · unfold TelemetrySystem.step
    dsimp only
    rw [if_pos room]
    exact simulates.sent.append (List.Sublist.refl _)

theorem Simulates.step (simulates : system.Simulates n history)
    (event : TelemetryEvent) (valid : event.Valid)
    (clear : system.Clear event) :
    ∃ after, (system.step event).Simulates n after := by
  cases event with
  | send cmd data length =>
      unfold Clear at clear
      by_cases room : length.toNat + 2 ≤ system.free
      · exact ⟨_, simulates.sendWhole cmd data length room⟩
      · have full : system.free = 0 := clear.resolve_right room
        have dropped := sendFrame_dropped simulates.carries simulates.sized
          simulates.small cmd data length (by rwa [← simulates.free_eq])
        refine ⟨history, simulates.sized, simulates.small, dropped, ?_,
          simulates.host, ?_⟩
        · unfold TelemetrySystem.step
          dsimp only
          rw [if_neg room]
          exact simulates.accepted
        · unfold TelemetrySystem.step
          dsimp only
          rw [if_neg room]
          exact simulates.sent.trans (List.sublist_append_left _ _)
  | hostRead buf count =>
      have done := (simulates.carries.read simulates.sized simulates.small
        buf count valid).1
      refine ⟨history.pop count.toInt.toNat, simulates.sized,
        simulates.small, done.carries, simulates.accepted, ?_,
        simulates.sent⟩
      exact congrArg₂ (· ++ ·) simulates.host done.delivered_eq.symm

theorem Simulates.run (simulates : system.Simulates n history)
    (events : List TelemetryEvent) (valid : ∀ event ∈ events, event.Valid)
    (clear : system.StaysClear events) :
    ∃ after, (system.run events).Simulates n after := by
  induction events generalizing system history with
  | nil => exact ⟨history, simulates⟩
  | cons event events ih =>
      obtain ⟨after, simulates⟩ := simulates.step event
        (valid event List.mem_cons_self) clear.1
      exact ih simulates
        (fun other member => valid other (List.mem_cons_of_mem _ member))
        clear.2

theorem start_simulates (positive : 1 ≤ n) (small : n < 2 ^ 31)
    {size : UInt32} (sized : size.toNat = n + 8) (memory : RingMemory) :
    (start size memory).Simulates n .start :=
  have initialised := ringbufInit_carries positive sized memory
  ⟨initialised.1, small, initialised.2.1, rfl, rfl, List.Sublist.refl _⟩

theorem StaysClear.front {events more : List TelemetryEvent}
    (clear : system.StaysClear (events ++ more)) :
    system.StaysClear events := by
  induction events generalizing system with
  | nil => trivial
  | cons event events ih => exact ⟨clear.1, ih clear.2⟩

end TelemetrySystem

/-- If every send finds room for its whole frame or none at all, the host has
whole frames in every state reached. -/
theorem telemetry_faithful_when_clear {n : Nat} (positive : 1 ≤ n)
    (small : n < 2 ^ 31) {size : UInt32} (sized : size.toNat = n + 8)
    (memory : RingMemory) (events : List TelemetryEvent)
    (valid : ∀ event ∈ events, event.Valid)
    (clear : (TelemetrySystem.start size memory).StaysClear events) :
    ∀ reached, reached <+: events →
      ((TelemetrySystem.start size memory).run reached).Faithful := by
  rintro reached ⟨more, rfl⟩
  obtain ⟨history, simulates⟩ :=
    (TelemetrySystem.start_simulates positive small sized memory).run reached
      (fun event member => valid event (List.mem_append_left more member))
      clear.front
  exact simulates.faithful

/-- Two frames in a ring of sixteen cells, read in two pieces. -/
theorem telemetry_faithful_when_clear_of_two :
    let system := (TelemetrySystem.start 24 ⟨0, 0, nullBuf⟩).run
      [.send 'c'.toUInt8 nullBuf 0, .hostRead nullBuf 1,
        .send '2'.toUInt8 nullBuf 4, .hostRead nullBuf 9]
    system.host = [0, 'c'.toUInt8, 4, '2'.toUInt8, 0, 0, 0, 0] ∧
      system.Faithful := by
  intro system
  refine ⟨by decide +kernel, ?_⟩
  refine telemetry_faithful_when_clear (by decide : 1 ≤ 16) (by decide)
    (by decide : (24 : UInt32).toNat = 16 + 8) ⟨0, 0, nullBuf⟩
    [.send 'c'.toUInt8 nullBuf 0, .hostRead nullBuf 1,
      .send '2'.toUInt8 nullBuf 4, .hostRead nullBuf 9] ?_ ?_ _
    List.prefix_rfl
  · intro event member
    simp only [List.mem_cons, List.not_mem_nil, or_false] at member
    rcases member with rfl | rfl | rfl | rfl
    · trivial
    · exact (by decide : 0 ≤ (1 : Int32).toInt)
    · trivial
    · exact (by decide : 0 ≤ (9 : Int32).toInt)
  · refine ⟨Or.inr ?_, trivial, Or.inr ?_, trivial, trivial⟩
    · decide +kernel
    · decide +kernel

/-! ### A send that finds room for part of a frame -/

namespace TelemetrySystem

variable {n : Nat} {system : TelemetrySystem}
  {history : FifoHistory UInt8 (n - 1)}

private structure Loaded (n : Nat) (queue : BoundedFifo UInt8 (n - 1))
    (host : List UInt8) (system : TelemetrySystem) : Prop where
  sized : system.rb.size.toNat = n
  small : n < 2 ^ 31
  carries : system.memory.Carries n queue
  host_eq : system.host = host

section

variable {queue : BoundedFifo UInt8 (n - 1)} {host : List UInt8}

private theorem Loaded.sendCut (loaded : Loaded n queue host system)
    (cmd : UInt8) (data : Buffer) (length : UInt8) (one : queue.room = 1) :
    Loaded n (queue.push [length]) host
      (system.step (.send cmd data length)) where
  sized := loaded.sized
  small := loaded.small
  carries := sendFrame_cut loaded.carries loaded.sized loaded.small cmd data
    length one
  host_eq := loaded.host_eq

private theorem Loaded.sendWhole (loaded : Loaded n queue host system)
    (cmd : UInt8) (data : Buffer) (length : UInt8)
    (room : length.toNat + 2 ≤ queue.room) :
    Loaded n (queue.push (Frame.ofBuffer cmd data length).encode) host
      (system.step (.send cmd data length)) where
  sized := loaded.sized
  small := loaded.small
  carries := sendFrame_whole loaded.carries loaded.sized loaded.small cmd data
    length room
  host_eq := loaded.host_eq

private theorem Loaded.drain (loaded : Loaded n queue host system)
    (buf : Buffer) {count : Int32} (all : queue.items.length ≤ count.toInt) :
    Loaded n .empty (host ++ queue.items)
      (system.step (.hostRead buf count)) := by
  have whole : queue.items.length ≤ count.toInt.toNat := by omega
  have done := (loaded.carries.read loaded.sized loaded.small buf count
    (by omega)).1
  have delivered := done.delivered_eq
  have emptied := done.carries
  rw [queue.delivered_all whole] at delivered
  rw [queue.pop_all whole] at emptied
  exact ⟨loaded.sized, loaded.small, emptied,
    congrArg₂ (· ++ ·) loaded.host_eq delivered⟩

private theorem Loaded.cut (loaded : Loaded n queue host system)
    (one : queue.room = 1) (two : 2 ≤ n - 1) (cmd : UInt8) {count : Int32}
    (all : count.toInt = (n - 1 : Nat)) :
    (system.run [.send cmd nullBuf 0, .hostRead nullBuf count,
        .send cmd nullBuf 0, .hostRead nullBuf 2]).host =
      host ++ queue.items ++ [0, 0, cmd] := by
  have cutItems : (queue.push [0]).items = queue.items ++ [0] := by
    rw [BoundedFifo.push_items, queue.accepted_of_fits]
    rw [one]
    exact Nat.le_refl 1
  have nextItems : ((BoundedFifo.empty : BoundedFifo UInt8 (n - 1)).push
      (Frame.ofBuffer cmd nullBuf 0).encode).items = [0, cmd] := by
    have fits : (Frame.ofBuffer cmd nullBuf 0).encode.length ≤
        (BoundedFifo.empty : BoundedFifo UInt8 (n - 1)).room := two
    rw [BoundedFifo.push_items, BoundedFifo.accepted_of_fits _ fits]
    rfl
  have cut := loaded.sendCut cmd nullBuf 0 one
  have emptied := @Loaded.drain n _ _ _ cut nullBuf count (by
    have bounded := (queue.push [0]).bounded
    omega)
  have next := emptied.sendWhole cmd nullBuf 0 two
  have last := @Loaded.drain n _ _ _ next nullBuf 2 (by
    rw [nextItems]
    exact (by decide : (2 : Int) ≤ (2 : Int32).toInt))
  refine last.host_eq.trans ?_
  rw [cutItems, nextItems]
  simp only [List.append_assoc, List.cons_append, List.nil_append]

end

/-- A ring with an odd number of bytes is filled with empty frames up to one
byte; the next frame then leaves its length byte there. -/
def overfill (cmd : UInt8) (half : Nat) (count : Int32) :
    List TelemetryEvent :=
  List.replicate half (.send cmd nullBuf 0) ++
    [.send cmd nullBuf 0, .hostRead nullBuf count, .send cmd nullBuf 0,
      .hostRead nullBuf 2]

private theorem Simulates.sendEmpty {cmd : UInt8} (half : Nat)
    (simulates : system.Simulates n history)
    (room : 2 * half ≤ history.queue.room) :
    ∃ after, (system.run (List.replicate half (.send cmd nullBuf 0))).Simulates
        n after ∧
      after.queue.room = history.queue.room - 2 * half ∧
      after.delivered = history.delivered ∧
      after.accepted = history.accepted ++ Frame.code.encodeAll
        (List.replicate half (Frame.ofBuffer cmd nullBuf 0)) ∧
      (system.run (List.replicate half (.send cmd nullBuf 0))).sent =
        system.sent ++ List.replicate half (Frame.ofBuffer cmd nullBuf 0) := by
  induction half generalizing system history with
  | zero => exact ⟨history, simulates, rfl, rfl, (List.append_nil _).symm,
      (List.append_nil _).symm⟩
  | succ half ih =>
      have enough : 2 ≤ history.queue.room := by omega
      have next := simulates.sendWhole cmd nullBuf 0
        (by rw [simulates.free_eq]; exact enough)
      have pushed : (history.push
          (Frame.ofBuffer cmd nullBuf 0).encode).queue.room =
            history.queue.room - 2 :=
        history.queue.room_push _
      have accepted : (history.push
          (Frame.ofBuffer cmd nullBuf 0).encode).accepted =
            history.accepted ++ (Frame.ofBuffer cmd nullBuf 0).encode := by
        unfold FifoHistory.push
        dsimp only
        have fits : (Frame.ofBuffer cmd nullBuf 0).encode.length ≤
            history.queue.room := enough
        rw [history.queue.accepted_of_fits fits]
      obtain ⟨after, final, left, delivered, bytes, sent⟩ :=
        ih next (by omega)
      refine ⟨after, final, by omega, delivered, ?_, ?_⟩
      · rw [bytes, accepted, List.replicate_succ,
          SelfDelimiting.Code.encodeAll_cons, List.append_assoc]
        rfl
      · refine sent.trans ?_
        rw [List.replicate_succ]
        exact List.append_assoc _ _ _

end TelemetrySystem

/-- A ring of any even size of more than two cells, drained by the host. -/
theorem telemetry_overfilled {n : Nat} (small : n < 2 ^ 31) {half : Nat}
    (even : n = 2 * half + 2) (some_room : 0 < half) {size : UInt32}
    (sized : size.toNat = n + 8) (memory : RingMemory) {cmd : UInt8}
    (nonzero : cmd ≠ 0) {count : Int32}
    (all : count.toInt = (2 * half + 1 : Nat)) :
    ¬ ((TelemetrySystem.start size memory).run
      (TelemetrySystem.overfill cmd half count)).Faithful := by
  have started := TelemetrySystem.start_simulates (by omega : 1 ≤ n) small
    sized memory
  have startRoom : (FifoHistory.start :
      FifoHistory UInt8 (n - 1)).queue.room = n - 1 := rfl
  obtain ⟨history, filled, room, delivered, accepted, sent⟩ :=
    @TelemetrySystem.Simulates.sendEmpty n _ _ cmd half started
      (by rw [startRoom]; omega)
  have ran : (TelemetrySystem.start size memory).run
      (TelemetrySystem.overfill cmd half count) =
        ((TelemetrySystem.start size memory).run
          (List.replicate half (.send cmd nullBuf 0))).run
            [.send cmd nullBuf 0, .hostRead nullBuf count,
              .send cmd nullBuf 0, .hostRead nullBuf 2] :=
    List.foldl_append
  rw [ran]
  generalize (TelemetrySystem.start size memory).run
    (List.replicate half (.send cmd nullBuf 0)) = system at filled sent ⊢
  intro faithful
  have items : history.queue.items = Frame.code.encodeAll
      (List.replicate half (Frame.ofBuffer cmd nullBuf 0)) := by
    have conserved := history.conserved
    rw [delivered, accepted] at conserved
    exact conserved
  have cells : n - 1 = 2 * half + 1 := by omega
  have loaded : TelemetrySystem.Loaded n history.queue [] system :=
    ⟨filled.sized, small, filled.carries, filled.host.symm.trans delivered⟩
  have host := loaded.cut (by omega) (by omega) cmd (cells ▸ all)
  -- the host parses a frame with command 0
  have frames : [] ++ history.queue.items ++ [0, 0, cmd] =
      Frame.code.encodeAll
        (List.replicate half (Frame.ofBuffer cmd nullBuf 0) ++
          [Frame.ofBuffer 0 nullBuf 0]) ++ [cmd] := by
    rw [items, SelfDelimiting.Code.encodeAll_append, List.nil_append,
      List.append_assoc]
    rfl
  have wasSent := faithful.received (host.trans frames) rfl
    (Frame.ofBuffer 0 nullBuf 0)
    (List.mem_append_right _ (List.mem_singleton.mpr rfl))
  have log : (system.run [.send cmd nullBuf 0, .hostRead nullBuf count,
      .send cmd nullBuf 0, .hostRead nullBuf 2]).sent =
        system.sent ++ [Frame.ofBuffer cmd nullBuf 0] ++
          [Frame.ofBuffer cmd nullBuf 0] := rfl
  have same : Frame.ofBuffer 0 nullBuf 0 = Frame.ofBuffer cmd nullBuf 0 := by
    rw [log, sent] at wasSent
    simp only [List.mem_append, List.mem_replicate, List.mem_singleton]
      at wasSent
    rcases wasSent with ((none | ⟨_, same⟩) | same) | same
    · cases none
    · exact same
    · exact same
    · exact same
  exact nonzero (congrArg Frame.cmd same).symm

/-- Telemetry is not faithful in the ring of memory.h. -/
theorem telemetry_unfaithful :
    ¬ ∀ (memory : RingMemory) (events : List TelemetryEvent),
      (∀ event ∈ events, event.Valid) →
        ((TelemetrySystem.start (quadcopterLenBytes quadcopterRxLenMb)
          memory).run events).Faithful := by
  intro faithful
  refine @telemetry_overfilled 5242872 (by decide) 2621435 (by decide)
    (by decide) (quadcopterLenBytes quadcopterRxLenMb) (by decide)
    ⟨0, 0, nullBuf⟩ 'c'.toUInt8 (by decide) 5242871 (by decide)
    (faithful _ _ ?_)
  intro event member
  unfold TelemetrySystem.overfill at member
  simp only [List.mem_append, List.mem_replicate, List.mem_cons,
    List.not_mem_nil, or_false] at member
  rcases member with ⟨_, rfl⟩ | rfl | rfl | rfl | rfl
  · trivial
  · trivial
  · exact (by decide : 0 ≤ (5242871 : Int32).toInt)
  · trivial
  · exact (by decide : 0 ≤ (2 : Int32).toInt)

end Quadcopter

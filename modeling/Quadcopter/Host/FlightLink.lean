import Quadcopter.Host.Copter
import Quadcopter.Kmod.ControlWrite
import Quadcopter.M3.CommandOps
import Quadcopter.M3.FlightTelemetry

/-
The process on the host that sends commands, and the m3 that flies, at the same
time: each operation on the ring that they share is a step of its own.

sendCommand (panda/user/copter.py) writes a frame to a buffered file and flushes
it; flush calls write(2) for what is left until the device has taken all of it.
The m3 calls control_update at each tick.
-/

namespace Quadcopter

open AtomicProgram ControlDevice CommandSystem

structure Sender where
  -- what flush has still to hand over
  left : List UInt8
  later : List Frame
  -- a write(2) in progress
  call : Option (RingProgram (Option Int32))

namespace Sender

def bytesLeft (sender : Sender) : Buffer :=
  fun offset => sender.left.getD offset 0

/-- `kbuf` is what quadcopter_write finds in its local buffer. -/
def step (kbuf : Buffer) (sender : Sender) (memory : RingMemory) :
    Sender × RingMemory :=
  match sender.call with
  | some (.step op next) =>
      ({ sender with call := some (next (op.execute memory).1) },
        (op.execute memory).2)
  | some (.ret value) =>
      ({ sender with
          left := sender.left.drop (value.getD 0).toInt.toNat
          call := none }, memory)
  | none =>
      if sender.left = [] then
        match sender.later with
        | [] => (sender, memory)
        | frame :: later => ({ left := frame.encode, later, call := none }, memory)
      else
        ({ sender with
            call := some (quadcopterWrite rbTx (.readable sender.bytesLeft) kbuf
              (UInt32.ofNat sender.left.length)) }, memory)

end Sender

section

variable {R : Type}

/-- Where the m3 stands: between two ticks, in command_process of a tick whose
motors are mixed, or in blink(). -/
inductive M3Side (R : Type) where
  | waiting (vars : ParserVars)
  | ticking (input : TickInput R) (motors : Motors)
      (call : RingProgram (Except Halt (ParserVars × Option Dispatch)))
  | halted (halt : Halt)

def M3Side.waits : M3Side R → Bool
  | .waiting _ => true
  | _ => false

structure FlightLink (R : Type) where
  memory : RingMemory
  -- by how much the ring has grown under the sender's operations
  accepted : Nat
  sender : Sender
  side : M3Side R
  m3 : FlightM3 R
  -- by the ticks that have ended
  ticked : List (TickInput R)
  dispatches : List Dispatch

inductive LinkMove (R : Type) where
  | sender (kbuf : Buffer)
  | tick (input : TickInput R)
  -- the next operation of the tick in progress, or its end
  | m3
  -- of the ring with the m3's own frames
  | hostRead (buf : Buffer) (count : Int32)

namespace FlightLink

variable [CFloat R]

def move (link : FlightLink R) : LinkMove R → FlightLink R
  | .sender kbuf =>
      { link with
        sender := (link.sender.step kbuf link.memory).1
        memory := (link.sender.step kbuf link.memory).2
        accepted := link.accepted +
          ((link.sender.step kbuf link.memory).2.held rxSize -
            link.memory.held rxSize) }
  | .tick input =>
      match link.side with
      | .waiting vars =>
          { link with
            side := .ticking input (flyTick input link.m3.rest).1
              (CommandOps.commandProcess rbTx vars)
            m3 := { link.m3 with rest := (flyTick input link.m3.rest).2 } }
      | _ => link
  | .m3 =>
      match link.side with
      | .ticking input motors (.step op next) =>
          { link with
            memory := (op.execute link.memory).2
            side := .ticking input motors (next (op.execute link.memory).1) }
      | .ticking input motors (.ret (.ok (vars, dispatch))) =>
          { link with
            side := .waiting vars
            m3 := reportTick motors
              (CommandSystem.replay callHandler dispatch.toList link.m3)
            ticked := link.ticked ++ [input]
            dispatches := link.dispatches ++ dispatch.toList }
      | .ticking input _ (.ret (.error halt)) =>
          { link with
            side := .halted halt
            ticked := link.ticked ++ [input] }
      | _ => link
  | .hostRead buf count =>
      let done := link.m3.txMemory.call (ringbufRead link.m3.rbTx buf count)
      { link with m3 := { link.m3 with txMemory := done.2 } }

def run (link : FlightLink R) (moves : List (LinkMove R)) : FlightLink R :=
  moves.foldl move link

def start (begun : CommandSystem HandlerFunc (Flight R)) (frames : List Frame) :
    FlightLink R :=
  { memory := begun.state.parser.rxMemory
    accepted := 0
    sender := { left := [], later := frames, call := none }
    side := .waiting begun.state.parser.vars
    m3 := begun.state.m3
    ticked := []
    dispatches := [] }

end FlightLink

end

/-! ### The sender's part -/

def OnlyWrites (n : Nat) (traffic : Traffic) (op : RingOp) : Prop :=
  Traffic.WriterActs n traffic (Traffic.execute n op traffic).2

/-- The stream is what the ring has accepted, and what the sender still has. -/
def SenderAt (n : Nat) (stream : List UInt8) (traffic : Traffic)
    (sender : Sender) : Prop :=
  sender.left.length < 2 ^ 31 ∧
  match sender.call with
  | none =>
      traffic.published ++ (sender.left ++ Frame.code.encodeAll sender.later) =
        stream
  | some call => ∃ begun : Traffic,
      begun.published ++ (sender.left ++ Frame.code.encodeAll sender.later) =
          stream ∧
        Holds (Traffic.execute n) (Traffic.ReaderActs n) (OnlyWrites n)
          (Appended n begun sender.bytesLeft
            (UInt32.ofNat sender.left.length)) call traffic

section

variable {n : Nat} {stream : List UInt8} {traffic later : Traffic}
  {sender : Sender}

theorem SenderAt.after_reader (at_ : SenderAt n stream traffic sender)
    (acted : Traffic.ReaderActs n traffic later)
    (published : later.published = traffic.published) :
    SenderAt n stream later sender := by
  obtain ⟨short, account⟩ := at_
  refine ⟨short, ?_⟩
  cases during : sender.call with
  | none =>
      rw [during] at account
      rw [published]
      exact account
  | some call =>
      rw [during] at account
      obtain ⟨begun, whole, holds⟩ := account
      exact ⟨begun, whole, holds.after_rely Traffic.ReaderActs.trans acted⟩

private theorem Sender.bytesLeft_first (sender : Sender) {count : Nat}
    (within : count ≤ sender.left.length) :
    sender.bytesLeft.first count = sender.left.take count := by
  apply Buffer.first_of_getElem?
  · exact List.length_take_of_le within
  · intro offset inside
    unfold bytesLeft
    rw [List.getElem?_take_of_lt inside, List.getD_eq_getElem?_getD,
      List.getElem?_eq_getElem (by omega), Option.getD_some]

theorem Sender.appended {begun : Traffic} {value : Option Int32}
    (short : sender.left.length < 2 ^ 31)
    (appended : Appended n begun sender.bytesLeft
      (UInt32.ofNat sender.left.length) value later) :
    later.published ++ sender.left.drop (value.getD 0).toInt.toNat =
      begun.published ++ sender.left := by
  obtain ⟨taken, within, rfl, published⟩ := appended.appended
  have bound := UInt32.le_iff_toNat_le.mp within
  have length : (UInt32.ofNat sender.left.length).toNat =
      sender.left.length := by
    rw [UInt32.toNat_ofNat']
    omega
  rw [length] at bound
  have counted : taken.toInt32.toInt.toNat = taken.toNat := by
    rw [MachineInt.toInt_toInt32 taken (by omega), Int.toNat_natCast]
  rw [Option.getD_some, counted, published, sender.bytesLeft_first bound,
    List.append_assoc, List.take_append_drop]

private theorem SenderAt.published_prefix
    (at_ : SenderAt n stream traffic sender)
    (coherent : traffic.Coherent n) : traffic.published <+: stream := by
  obtain ⟨short, account⟩ := at_
  cases during : sender.call with
  | none =>
      rw [during] at account
      exact ⟨_, account⟩
  | some call =>
      rw [during] at account
      obtain ⟨begun, whole, holds⟩ := account
      -- a write that goes on alone only adds to it
      obtain ⟨appended, _⟩ := holds.run Traffic.ReaderActs.refl
      obtain ⟨_, grows⟩ := holds.run_preserves Traffic.ReaderActs.refl
        (fun later => later.Coherent n ∧ traffic.published <+: later.published)
        (fun _ _ kept acts =>
          ⟨(acts kept.1).1, kept.2.trans (acts kept.1).2.2⟩)
        ⟨coherent, List.prefix_rfl⟩
      have all := Sender.appended short appended
      rw [← List.append_assoc, ← all, List.append_assoc] at whole
      exact grows.trans ⟨_, whole⟩

theorem SenderAt.step (at_ : SenderAt rxSize stream traffic sender)
    (coherent : traffic.Coherent rxSize) (kbuf : Buffer) :
    ∃ next, next.memory = (sender.step kbuf traffic.memory).2 ∧
      Traffic.WriterActs rxSize traffic next ∧
      SenderAt rxSize stream next (sender.step kbuf traffic.memory).1 := by
  obtain ⟨short, account⟩ := at_
  unfold Sender.step
  cases during : sender.call with
  | some call =>
      rw [during] at account
      obtain ⟨begun, whole, holds⟩ := account
      cases call with
      | ret value =>
          have done := holds.post_now Traffic.ReaderActs.refl
          refine ⟨traffic, rfl, Traffic.WriterActs.refl traffic, ?_, ?_⟩
          · dsimp only
            rw [List.length_drop]
            omega
          · have all := Sender.appended short done
            dsimp only
            rw [← List.append_assoc, all, List.append_assoc]
            exact whole
      | step op next =>
          obtain ⟨acts, rest⟩ := holds.during_next Traffic.ReaderActs.refl
          exact ⟨(Traffic.execute rxSize op traffic).2, rfl, acts, short,
            begun, whole, rest⟩
  | none =>
      rw [during] at account
      dsimp only
      by_cases empty : sender.left = []
      · rw [if_pos empty]
        cases waiting : sender.later with
        | nil =>
            refine ⟨traffic, rfl, Traffic.WriterActs.refl traffic, short, ?_⟩
            rw [during]
            exact account
        | cons frame later =>
            rw [empty, waiting] at account
            refine ⟨traffic, rfl, Traffic.WriterActs.refl traffic, ?_,
              account⟩
            have size := frame.payload_small
            dsimp only
            rw [frame.encode_length]
            omega
      · rw [if_neg empty]
        refine ⟨traffic, rfl, Traffic.WriterActs.refl traffic, short, traffic,
          account, ?_⟩
        exact writeLoop_holds (rfl : rbTx.size.toNat = rxSize) (by decide)
          sender.bytesLeft _ _ 0 kbuf 0 _ (by simp) (Nat.sub_zero _).symm
          (by simp) coherent (List.append_nil _).symm

end

/-! ### The m3's part -/

section

variable {R : Type} [CFloat R] {stream : List UInt8} {traffic later : Traffic}

omit [CFloat R] in
/-- The bytes of the queue are the last that have arrived. -/
theorem CommandSystem.Framed.queue_eq {pending : List UInt8}
    {queue : BoundedFifo UInt8 (rxSize - 1)}
    {seq : CommandSystem HandlerFunc (Flight R)} {released : Nat}
    (framed : Framed stream rxSize pending queue seq)
    (arrived : seq.arrived = released + queue.items.length) :
    queue.items = (stream.drop released).take queue.items.length := by
  have account := framed.account
  have length := congrArg List.length account
  have within := framed.arrived_le
  rw [List.length_take, List.length_append, List.length_append] at length
  have front : (Frame.code.encodeAll (seq.dispatches.map Dispatch.frame) ++
      pending).length = released := by
    rw [List.length_append]
    omega
  rw [← List.append_assoc, arrived, List.take_add] at account
  exact (List.append_inj account (by rw [front, List.length_take]; omega)).2.symm

/-- The run `seq`, in which bytes arrive between the ticks, has the m3 where it
is: what it took off the ring is what was taken off this one. -/
structure Synced (stream : List UInt8) (traffic : Traffic)
    (seq : CommandSystem HandlerFunc (Flight R)) : Prop where
  framed : ∃ pending, ∃ queue : BoundedFifo UInt8 (rxSize - 1),
    Framed stream rxSize pending queue seq ∧
      seq.arrived = traffic.released + queue.items.length
  arrived_le : seq.arrived ≤ traffic.published.length

private theorem Synced.catchUp {seq : CommandSystem HandlerFunc (Flight R)}
    (synced : Synced stream traffic seq) {items : List UInt8}
    (order : traffic.released ≤ traffic.published.length)
    (sees : traffic.published.drop traffic.released <+: items)
    (fits : items.length < rxSize)
    (there : items <+: stream.drop traffic.released) :
    ∃ count pending, ∃ queue : BoundedFifo UInt8 (rxSize - 1),
      flightStep stream seq (.arrive count : FlightEvent R) =
          .ok (seq.arrive stream count) ∧
        Framed stream rxSize pending queue (seq.arrive stream count) ∧
        queue.items = items ∧
        (seq.arrive stream count).arrived =
          traffic.released + items.length := by
  obtain ⟨pending, queue, framed, arrived⟩ := synced.framed
  have behind := synced.arrived_le
  have within := framed.arrived_le
  have longer := sees.length_le
  have whole := there.length_le
  have room := queue.room_add_length
  rw [List.length_drop] at longer whole
  have small : rxSize < 2 ^ 31 := by decide
  generalize countIs : (UInt32.ofNat (items.length -
    queue.items.length)).toInt32 = count
  have value : count.toInt =
      ((items.length - queue.items.length : Nat) : Int) := by
    have unsigned : (UInt32.ofNat (items.length -
        queue.items.length)).toNat = items.length - queue.items.length := by
      rw [UInt32.toNat_ofNat']
      omega
    rw [← countIs, MachineInt.toInt_toInt32 _ (by omega), unsigned]
  obtain ⟨filled, framed', length, arrived'⟩ :=
    framed.arrive (show 0 ≤ count.toInt by omega) (by omega)
  have here : (seq.arrive stream count).arrived =
      traffic.released + filled.items.length := by omega
  have items_eq := framed'.queue_eq here
  refine ⟨count, pending, filled, if_pos ⟨by omega, by omega⟩, framed', ?_, ?_⟩
  · rw [items_eq, show filled.items.length = items.length by omega]
    exact (List.prefix_iff_eq_take.mp there).symm
  · omega

/-- A tick of `seq` that finds `items` in the ring is the tick of the m3. -/
theorem tick_process {pending : List UInt8}
    {queue : BoundedFifo UInt8 (rxSize - 1)}
    {seq : CommandSystem HandlerFunc (Flight R)}
    (framed : Framed stream rxSize pending queue seq) (input : TickInput R) :
    (∃ vars dispatch after pending',
      ∃ queue' : BoundedFifo UInt8 (rxSize - 1),
      seq.state.parser.vars.process queue.items = .ok (vars, dispatch) ∧
      flightStep stream seq (.tick input) = .ok after ∧
      after.state.m3 = reportTick (flyTick input seq.state.m3.rest).1
        (replay callHandler dispatch.toList (flown input seq).state.m3) ∧
      after.state.parser.vars = vars ∧
      after.dispatches = seq.dispatches ++ dispatch.toList ∧
      Framed stream rxSize pending' queue' after ∧
      after.arrived = seq.arrived ∧
      queue'.items.length = queue.items.length -
        seq.state.parser.vars.consumed queue.items) ∨
    (seq.state.parser.vars.process queue.items = .error .blink ∧
      flightStep stream seq (.tick input) = .error .blink) := by
  have begun : Framed stream rxSize pending queue (flown input seq) :=
    framed.withM3 _
  obtain ⟨result, left⟩ := begun.at_.receives.process_alone
  have called := commandProcess_eq_ops callHandler (flown input seq).state
  have stepped := begun.process callHandler
  rw [flightStep_tick]
  unfold CommandSystem.step at stepped ⊢
  dsimp only at called stepped ⊢
  rw [called] at stepped ⊢
  rw [result] at stepped left ⊢
  change (flown input seq).state.parser.vars.process queue.items ≠ _ → _ at left
  rw [show (flown input seq).state.parser.vars = seq.state.parser.vars from rfl]
    at stepped left ⊢
  cases processed : seq.state.parser.vars.process queue.items with
  | error halt =>
      rw [processed] at stepped
      rcases stepped with ⟨_, _, _, impossible, _⟩ | ⟨stopped, _⟩
      · cases impossible
      · cases stopped
        exact Or.inr ⟨rfl, rfl⟩
  | ok done =>
      obtain ⟨vars, dispatch⟩ := done
      rw [processed] at stepped left
      rcases stepped with ⟨after, pending', queue', same, framed', arrived, _⟩ |
        ⟨impossible, _⟩
      · cases same
        have kept := left (fun same => by cases same)
        have carried := framed'.at_.receives.carries.unread
        refine Or.inl ⟨vars, dispatch, _, pending', queue', rfl, rfl, rfl, rfl,
          rfl, framed'.withM3 _, arrived, ?_⟩
        rw [← carried, ← List.length_drop, ← kept]
        rfl
      · cases impossible

/-! ### Runs of the two -/

def FlightEvent.tick? : FlightEvent R → Option (TickInput R)
  | .tick input => some input
  | _ => none

private theorem flightRun_concat {events : List (FlightEvent R)}
    {system reached : CommandSystem HandlerFunc (Flight R)}
    (ran : flightRun stream events system = .ok reached)
    (event : FlightEvent R) :
    flightRun stream (events ++ [event]) system =
      flightStep stream reached event := by
  rw [flightRun_eq_foldlM] at ran ⊢
  rw [List.foldlM_append, ran]
  change [event].foldlM (flightStep stream) reached = _
  rw [List.foldlM_cons]
  exact bind_pure (flightStep stream reached event)

/-- Nowhere in the flight more bytes have arrived. -/
def ArrivesWithin (stream : List UInt8)
    (begun : CommandSystem HandlerFunc (Flight R)) (bound : Nat)
    (events : List (FlightEvent R)) : Prop :=
  ∀ earlier reached, earlier <+: events →
    flightRun stream earlier begun = .ok reached → reached.arrived ≤ bound

structure InTurn (stream : List UInt8)
    (begun : CommandSystem HandlerFunc (Flight R)) (link : FlightLink R)
    (events : List (FlightEvent R))
    (seq : CommandSystem HandlerFunc (Flight R)) : Prop where
  ran : flightRun stream events begun = .ok seq
  ticks : events.filterMap FlightEvent.tick? = link.ticked
  dispatches : seq.dispatches = link.dispatches
  within : ArrivesWithin stream begun link.accepted events

inductive SideAt (stream : List UInt8)
    (begun : CommandSystem HandlerFunc (Flight R)) (traffic : Traffic)
    (link : FlightLink R) : M3Side R → Prop
  | waiting (events : List (FlightEvent R))
      (seq : CommandSystem HandlerFunc (Flight R))
      (inTurn : InTurn stream begun link events seq)
      (m3 : seq.state.m3 = link.m3) (synced : Synced stream traffic seq) :
      SideAt stream begun traffic link (.waiting seq.state.parser.vars)
  | ticking (input : TickInput R)
      (call : RingProgram (Except Halt (ParserVars × Option Dispatch)))
      (events : List (FlightEvent R))
      (seq : CommandSystem HandlerFunc (Flight R))
      -- when the tick began: the flight in turn has not ticked yet
      (earlier : Traffic)
      (inTurn : InTurn stream begun link events seq)
      (m3 : (flown input seq).state.m3 = link.m3)
      (synced : Synced stream earlier seq) (coherent : earlier.Coherent rxSize)
      (holds : Holds (Traffic.execute rxSize) (Traffic.WriterActs rxSize)
        (OnlyReads rxSize)
        (fun result later => ∃ items,
          ProcessDone rxSize seq.state.parser.vars earlier items result later)
        call traffic) :
      SideAt stream begun traffic link
        (.ticking input (flyTick input seq.state.m3.rest).1 call)
  | halted (events : List (FlightEvent R))
      (ran : flightRun stream events begun = .error .blink)
      (ticks : events.filterMap FlightEvent.tick? = link.ticked)
      (within : ArrivesWithin stream begun link.accepted events)
      (in_order : link.dispatches.map Dispatch.frame <+:
        (Frame.code.decodeAll stream).1) :
      SideAt stream begun traffic link (.halted .blink)

structure LinkAt (stream : List UInt8)
    (begun : CommandSystem HandlerFunc (Flight R)) (link : FlightLink R)
    (traffic : Traffic) : Prop where
  memory : traffic.memory = link.memory
  accepted : traffic.published.length = link.accepted
  coherent : traffic.Coherent rxSize
  sender : SenderAt rxSize stream traffic link.sender
  side : SideAt stream begun traffic link link.side

variable {begun seq after : CommandSystem HandlerFunc (Flight R)}
  {link : FlightLink R} {events : List (FlightEvent R)}

theorem InTurn.in_order (inTurn : InTurn stream begun link events seq)
    (synced : Synced stream traffic seq) :
    link.dispatches.map Dispatch.frame <+: (Frame.code.decodeAll stream).1 := by
  obtain ⟨pending, queue, framed, _⟩ := synced.framed
  rw [← inTurn.dispatches]
  exact framed.dispatched_prefix

theorem ArrivesWithin.mono {bound more : Nat}
    (within : ArrivesWithin stream begun bound events) (le : bound ≤ more) :
    ArrivesWithin stream begun more events :=
  fun earlier reached part ran => Nat.le_trans (within earlier reached part ran) le

theorem ArrivesWithin.concat {bound : Nat} {event : FlightEvent R}
    (within : ArrivesWithin stream begun bound events)
    (ran : flightRun stream events begun = .ok seq)
    (next : ∀ reached, flightStep stream seq event = .ok reached →
      reached.arrived ≤ bound) :
    ArrivesWithin stream begun bound (events ++ [event]) := by
  intro earlier reached part reaching
  rcases List.prefix_concat_iff.mp part with rfl | before
  · rw [flightRun_concat ran] at reaching
    exact next reached reaching
  · exact within earlier reached before reaching

theorem InTurn.hostRead (inTurn : InTurn stream begun link events seq)
    (buf : Buffer) (count : Int32) :
    InTurn stream begun (link.move (.hostRead buf count))
      (events ++ [.hostRead buf count])
      (seq.withM3
        { seq.state.m3 with
          txMemory := (seq.state.m3.txMemory.call
            (ringbufRead seq.state.m3.rbTx buf count)).2 }) where
  ran := flightRun_concat inTurn.ran (.hostRead buf count)
  ticks := by
    rw [List.filterMap_append, inTurn.ticks]
    exact List.append_nil _
  dispatches := inTurn.dispatches
  within := by
    apply inTurn.within.concat inTurn.ran
    intro reached stepped
    cases stepped
    exact inTurn.within events seq (List.prefix_refl _) inTurn.ran

omit [CFloat R] in
theorem Synced.withM3 (synced : Synced stream traffic seq) (m3 : FlightM3 R) :
    Synced stream traffic (seq.withM3 m3) := by
  obtain ⟨pending, queue, framed, arrived⟩ := synced.framed
  exact ⟨⟨pending, queue, framed.withM3 m3, arrived⟩, synced.arrived_le⟩

omit [CFloat R] in
theorem Synced.after_writer (synced : Synced stream traffic seq)
    (coherent : traffic.Coherent rxSize)
    (acted : Traffic.WriterActs rxSize traffic later) :
    Synced stream later seq := by
  obtain ⟨_, released, grows⟩ := acted coherent
  obtain ⟨pending, queue, framed, arrived⟩ := synced.framed
  constructor
  · exact ⟨pending, queue, framed, by rw [released]; exact arrived⟩
  · exact Nat.le_trans synced.arrived_le grows.length_le

theorem SideAt.hostRead {side : M3Side R}
    (at_ : SideAt stream begun traffic link side) (buf : Buffer)
    (count : Int32) :
    SideAt stream begun traffic (link.move (.hostRead buf count)) side := by
  cases at_ with
  | waiting events seq inTurn m3 synced =>
      have held := SideAt.waiting _ _ (inTurn.hostRead buf count)
        (by
          unfold FlightLink.move
          rw [← m3]
          rfl)
        (synced.withM3 _)
      exact held
  | ticking input call events seq earlier inTurn m3 synced coherent holds =>
      have held := SideAt.ticking input call _ _ earlier
        (inTurn.hostRead buf count)
        (by
          unfold FlightLink.move
          rw [← m3]
          rfl)
        (synced.withM3 _) coherent holds
      exact held
  | halted events ran ticks within in_order =>
      exact SideAt.halted events ran ticks within in_order

private theorem InTurn.after_sender
    (inTurn : InTurn stream begun link events seq)
    (kbuf : Buffer) :
    InTurn stream begun (link.move (.sender kbuf)) events seq :=
  ⟨inTurn.ran, inTurn.ticks, inTurn.dispatches,
    inTurn.within.mono (Nat.le_add_right _ _)⟩

/-- The sender does not disturb the m3. -/
theorem SideAt.after_writer {side : M3Side R}
    (at_ : SideAt stream begun traffic link side)
    (coherent : traffic.Coherent rxSize)
    (acted : Traffic.WriterActs rxSize traffic later) (kbuf : Buffer) :
    SideAt stream begun later (link.move (.sender kbuf)) side := by
  cases at_ with
  | waiting events seq inTurn m3 synced =>
      exact SideAt.waiting events seq (inTurn.after_sender kbuf) m3
        (synced.after_writer coherent acted)
  | ticking input call events seq earlier inTurn m3 synced earlier_coherent
      holds =>
      exact SideAt.ticking input call events seq earlier
        (inTurn.after_sender kbuf) m3 synced earlier_coherent
        (holds.after_rely Traffic.WriterActs.trans acted)
  | halted events ran ticks within in_order =>
      exact SideAt.halted events ran ticks
        (within.mono (Nat.le_add_right _ _)) in_order

/-- A tick whose call has returned is the tick of the flight in turn, in which
what the call has seen arrives just before it. -/
theorem tick_ends {earlier : Traffic} {items : List UInt8}
    {result : Except Halt (ParserVars × Option Dispatch)}
    (inTurn : InTurn stream begun link events seq)
    (synced : Synced stream earlier seq)
    (order : earlier.released ≤ earlier.published.length)
    (published : traffic.published <+: stream)
    (accepted : traffic.published.length = link.accepted)
    (done : ProcessDone rxSize seq.state.parser.vars earlier items result
      traffic) (input : TickInput R) :
    (∃ (dispatch : Option Dispatch) (more : List (FlightEvent R))
      (after : CommandSystem HandlerFunc (Flight R)),
      result = .ok (after.state.parser.vars, dispatch) ∧
      flightRun stream (events ++ more) begun = .ok after ∧
      more.filterMap FlightEvent.tick? = [input] ∧
      after.state.m3 = reportTick (flyTick input seq.state.m3.rest).1
        (replay callHandler dispatch.toList (flown input seq).state.m3) ∧
      after.dispatches = seq.dispatches ++ dispatch.toList ∧
      ArrivesWithin stream begun traffic.published.length (events ++ more) ∧
      Synced stream traffic after) ∨
    (∃ more : List (FlightEvent R), result = .error .blink ∧
      flightRun stream (events ++ more) begun = .error .blink ∧
      ArrivesWithin stream begun traffic.published.length (events ++ more) ∧
      more.filterMap FlightEvent.tick? = [input]) := by
  -- the call looks at the write index once, so that nothing that was stored
  -- later can be told from what comes after the tick
  have there := done.there.trans (published.drop earlier.released)
  obtain ⟨count, pending, queue, arrives, framed, items_eq, arrived⟩ :=
    synced.catchUp order done.sees done.fits there
  have before : flightRun stream (events ++ [.arrive count]) begun =
      .ok (seq.arrive stream count) :=
    (flightRun_concat inTurn.ran (.arrive count)).trans arrives
  have ticked := flightRun_concat before (.tick input)
  have result_eq := done.result_eq
  have seen := done.there.length_le
  rw [List.length_drop] at seen
  have result_known : ∀ {value}, seq.state.parser.vars.process queue.items =
      value → value ≠ .error .overrun →
        Took rxSize earlier (seq.state.parser.vars.consumed items) traffic := by
    rintro value processed known
    rw [items_eq] at processed
    exact done.took (by rw [result_eq, processed]; exact known)
  have here : ∀ {consumed}, Took rxSize earlier consumed traffic →
      ArrivesWithin stream begun traffic.published.length
        (events ++ [.arrive count]) := by
    intro consumed took
    have released := took.released
    have within := took.coherent.released_le
    apply (inTurn.within.mono (Nat.le_of_eq accepted.symm)).concat inTurn.ran
    intro reached stepped
    rw [arrives] at stepped
    cases stepped
    omega
  rcases tick_process framed input with
    ⟨vars, dispatch, after, pending', queue', processed, stepped, m3, vars_eq,
      dispatches, framed', arrived', left⟩ | ⟨processed, stepped⟩
  · have took := result_known processed (by intro same; cases same)
    rw [items_eq] at processed left
    have same : result = .ok (vars, dispatch) := result_eq.trans processed
    have enough := ParserVars.consumed_le seq.state.parser.vars items
    have released := took.released
    have within := took.coherent.released_le
    have left' : queue'.items.length =
        items.length - seq.state.parser.vars.consumed items := left
    refine Or.inl ⟨dispatch, [.arrive count] ++ [.tick input], after, ?_, ?_,
      rfl, m3, dispatches, ?_, ⟨pending', queue', framed', ?_⟩, ?_⟩
    · rw [same, vars_eq]
    · rw [← List.append_assoc]
      exact ticked.trans stepped
    · rw [← List.append_assoc]
      apply (here took).concat before
      intro reached stepped'
      rw [stepped] at stepped'
      cases stepped'
      omega
    · rw [arrived', arrived, left']
      omega
    · rw [arrived', arrived]
      omega
  · have took := result_known processed (by intro same; cases same)
    rw [items_eq] at processed
    refine Or.inr ⟨[.arrive count] ++ [.tick input], result_eq.trans processed,
      ?_, ?_, rfl⟩
    · rw [← List.append_assoc]
      exact ticked.trans stepped
    · rw [← List.append_assoc]
      apply (here took).concat before
      intro reached stepped'
      rw [stepped] at stepped'
      cases stepped'

private theorem LinkAt.sender_step (at_ : LinkAt stream begun link traffic)
    (kbuf : Buffer) :
    ∃ next, LinkAt stream begun (link.move (.sender kbuf)) next := by
  obtain ⟨next, memory, acts, sender⟩ := at_.sender.step at_.coherent kbuf
  rw [at_.memory] at memory sender
  obtain ⟨coherent, released, grows⟩ := acts at_.coherent
  refine ⟨next, memory, ?_, coherent, sender,
    at_.side.after_writer at_.coherent acts kbuf⟩
  have held := at_.coherent.held_eq
  have held_later := coherent.held_eq
  rw [at_.memory] at held
  rw [memory, released] at held_later
  have order := at_.coherent.released_le
  have longer := grows.length_le
  have accepted := at_.accepted
  change next.published.length = link.accepted +
    ((link.sender.step kbuf link.memory).2.held rxSize -
      link.memory.held rxSize)
  omega

private theorem LinkAt.tick_step (at_ : LinkAt stream begun link traffic)
    (input : TickInput R) : LinkAt stream begun (link.move (.tick input))
      traffic := by
  have side := at_.side
  unfold FlightLink.move
  generalize link.side = stands at side ⊢
  cases side with
  | waiting events seq inTurn m3 synced =>
      refine ⟨at_.memory, at_.accepted, at_.coherent, at_.sender, ?_⟩
      dsimp only
      rw [← m3]
      refine SideAt.ticking input _ events seq traffic
        ⟨inTurn.ran, inTurn.ticks, inTurn.dispatches, inTurn.within⟩ rfl synced at_.coherent ?_
      refine Holds.weaken ?_ (@CommandOps.commandProcess_holds rxSize rbTx
        (Traffic.WriterActs rxSize) Traffic.WriterActs.refl
        (fun _ _ acts => acts) Traffic.WriterActs.trans rfl (by decide)
        seq.state.parser.vars traffic at_.coherent)
      rintro result later ⟨_, items, _, _, done⟩
      exact ⟨items, done⟩
  | ticking earlier call events seq begins inTurn m3 synced coherent holds =>
      exact at_
  | halted events ran ticks within in_order =>
      exact at_

private theorem LinkAt.m3_step (at_ : LinkAt stream begun link traffic) :
    ∃ next, LinkAt stream begun (link.move .m3) next := by
  have side := at_.side
  have coherent := at_.coherent
  unfold FlightLink.move
  generalize link.side = stands at side ⊢
  cases side with
  | waiting events seq inTurn m3 synced =>
      exact ⟨traffic, at_⟩
  | halted events ran ticks within in_order =>
      exact ⟨traffic, at_⟩
  | ticking input call events seq earlier inTurn m3 synced earlier_coherent
      holds =>
      cases call with
      | step op next =>
          obtain ⟨acts, rest⟩ := holds.during_next Traffic.WriterActs.refl
          have same := (acts coherent).2.1
          refine ⟨(Traffic.execute rxSize op traffic).2, ?_, ?_,
            (acts coherent).1, at_.sender.after_reader acts same, ?_⟩
          · dsimp only
            rw [← at_.memory]
            rfl
          · rw [same]
            exact at_.accepted
          · dsimp only
            rw [← at_.memory]
            exact SideAt.ticking input _ events seq earlier
              ⟨inTurn.ran, inTurn.ticks, inTurn.dispatches, inTurn.within⟩ m3
              synced earlier_coherent rest
      | ret result =>
          obtain ⟨items, done⟩ := holds.post_now Traffic.WriterActs.refl
          have published := at_.sender.published_prefix coherent
          rcases tick_ends inTurn synced earlier_coherent.released_le published
            at_.accepted done input with
            ⟨dispatch, more, after, rfl, ran, ticks, after_m3, dispatches,
              within, after_synced⟩ | ⟨more, rfl, ran, within, ticks⟩
          · rw [at_.accepted] at within
            refine ⟨traffic, at_.memory, at_.accepted, coherent, at_.sender, ?_⟩
            refine SideAt.waiting (events ++ more) after ⟨ran, ?_, ?_, within⟩ ?_
              after_synced
            · rw [List.filterMap_append, inTurn.ticks, ticks]
            · rw [dispatches, inTurn.dispatches]
            · rw [after_m3, m3]
          · rw [at_.accepted] at within
            refine ⟨traffic, at_.memory, at_.accepted, coherent, at_.sender, ?_⟩
            refine SideAt.halted (events ++ more) ran ?_ within
              (inTurn.in_order synced)
            rw [List.filterMap_append, inTurn.ticks, ticks]

theorem LinkAt.step (at_ : LinkAt stream begun link traffic)
    (move : LinkMove R) :
    ∃ next, LinkAt stream begun (link.move move) next := by
  cases move with
  | sender kbuf => exact at_.sender_step kbuf
  | tick input => exact ⟨traffic, at_.tick_step input⟩
  | m3 => exact at_.m3_step
  | hostRead buf count =>
      exact ⟨traffic, at_.memory, at_.accepted, at_.coherent, at_.sender,
        at_.side.hostRead buf count⟩

/-! ### All runs -/

theorem LinkAt.run (at_ : LinkAt stream begun link traffic)
    (moves : List (LinkMove R)) :
    ∃ later, LinkAt stream begun (link.run moves) later := by
  induction moves generalizing link traffic with
  | nil => exact ⟨traffic, at_⟩
  | cons move moves ih =>
      obtain ⟨next, stepped⟩ := at_.step move
      exact ih stepped

private theorem link_start (reset timers : PwmTimers)
    (txMemory rxMemory : RingMemory)
    (frames : List Frame) :
    ∃ traffic, LinkAt (Frame.code.encodeAll frames)
      (flightStart reset timers txMemory rxMemory :
        CommandSystem HandlerFunc (Flight R))
      (.start (flightStart reset timers txMemory rxMemory) frames)
      traffic := by
  refine ⟨_, rfl, rfl, ringbufInit_coherent (by decide : 1 ≤ rxSize) _ rxMemory,
    ⟨Nat.two_pow_pos 31, rfl⟩, ?_⟩
  refine SideAt.waiting [] _ ⟨rfl, rfl, rfl, ?_⟩ rfl ?_
  · intro earlier reached part ran
    rw [List.prefix_nil.mp part] at ran
    cases ran
    exact Nat.le_refl 0
  · exact ⟨⟨[], .empty, flightStart_framed reset timers txMemory rxMemory _, rfl⟩,
      Nat.le_refl 0⟩

/-- Everything has been sent and read, and no tick is in progress. -/
def FlightLink.Quiet (link : FlightLink R) : Prop :=
  link.sender.left = [] ∧ link.sender.later = [] ∧ link.sender.call = none ∧
    link.memory.unread rxSize = [] ∧ link.side.waits = true

/-- A flight in turn with the ticks of the link, that ends as the m3 has; in it no
more bytes have arrived than the ring has accepted. -/
def FlightLink.Flown (stream : List UInt8)
    (begun : CommandSystem HandlerFunc (Flight R)) (link : FlightLink R)
    (events : List (FlightEvent R)) : Prop :=
  events.filterMap FlightEvent.tick? = link.ticked ∧
  ArrivesWithin stream begun link.accepted events ∧
  match link.side with
  | .waiting vars => ∃ seq, flightRun stream events begun = .ok seq ∧
      seq.state.m3 = link.m3 ∧ seq.state.parser.vars = vars ∧
      seq.dispatches = link.dispatches
  | .ticking input motors _ => ∃ seq, flightRun stream events begun = .ok seq ∧
      (flown input seq).state.m3 = link.m3 ∧
      (flyTick input seq.state.m3.rest).1 = motors ∧
      seq.dispatches = link.dispatches
  | .halted halt => flightRun stream events begun = .error halt

theorem LinkAt.flown (at_ : LinkAt stream begun link traffic) :
    ∃ events, link.Flown stream begun events := by
  have side := at_.side
  unfold FlightLink.Flown
  generalize link.side = stands at side
  cases side with
  | waiting events seq inTurn m3 synced =>
      exact ⟨events, inTurn.ticks, inTurn.within, seq, inTurn.ran, m3, rfl,
        inTurn.dispatches⟩
  | ticking input call events seq earlier inTurn m3 synced coherent holds =>
      exact ⟨events, inTurn.ticks, inTurn.within, seq, inTurn.ran, m3, rfl,
        inTurn.dispatches⟩
  | halted events ran ticks within in_order => exact ⟨events, ticks, within, ran⟩

theorem LinkAt.in_order (at_ : LinkAt stream begun link traffic) :
    link.dispatches.map Dispatch.frame <+: (Frame.code.decodeAll stream).1 := by
  have side := at_.side
  generalize link.side = stands at side
  cases side with
  | waiting events seq inTurn m3 synced => exact inTurn.in_order synced
  | ticking input call events seq earlier inTurn m3 synced coherent holds =>
      exact inTurn.in_order synced
  | halted events ran ticks within in_order => exact in_order

theorem LinkAt.all (at_ : LinkAt stream begun link traffic)
    (quiet : link.Quiet) :
    link.dispatches.map Dispatch.frame = (Frame.code.decodeAll stream).1 := by
  obtain ⟨none_left, none_later, no_call, empty, waits⟩ := quiet
  have sent := at_.sender.2
  rw [no_call] at sent
  dsimp only at sent
  rw [none_left, none_later] at sent
  have published : traffic.published = stream := by
    rw [← sent]
    exact (List.append_nil _).symm
  have unread := at_.coherent.unread_eq
  rw [at_.memory, empty, published] at unread
  have taken := List.drop_eq_nil_iff.mp unread.symm
  have side := at_.side
  generalize link.side = stands at side waits
  cases side with
  | ticking input call events seq earlier inTurn m3 synced coherent holds =>
      cases waits
  | halted events ran ticks within in_order => cases waits
  | waiting events seq inTurn m3 synced =>
      obtain ⟨pending, queue, framed, arrived⟩ := synced.framed
      have within := framed.arrived_le
      have none_queued : queue.items = [] :=
        List.length_eq_zero_iff.mp (by omega)
      have account := framed.account
      rw [List.take_of_length_le (by omega), none_queued, List.append_nil]
        at account
      rw [← inTurn.dispatches, account,
        Frame.code.decodeAll_eq _ _ framed.at_.place.incomplete]

end

def connectMoves : List (LinkMove Float32) :=
  List.replicate 9 (.sender nullBuf) ++ [.tick zeroReading] ++
    (List.replicate 20 [.m3, .sender nullBuf]).flatten ++
    [.tick zeroReading] ++ List.replicate 40 .m3

def allZero : PwmTimers := fun _ => ⟨0, 0, 0, 0, 0⟩

def connectFrame : Frame where
  cmd := 'c'.toUInt8
  payload := []
  payload_small := by decide

end Quadcopter

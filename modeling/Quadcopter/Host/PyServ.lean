import Quadcopter.Host.TalkMisc
import Quadcopter.M3.MalformedFrames

/-
The copter's network server and the ground station's client (controller/
talk_module, py_serv.py and py_client.py), and the gains that a TUNE packet sets.
-/

namespace Quadcopter

open CommandSystem

variable {R : Type}

section

variable [CFloat R]

def tunePacket (constants : List R) : Option (List UInt8) :=
  packetPack floatFormat TalkCons.command TalkCons.tune (some constants)

/-- packet_unpack(buffer, 'f')[3]; `none` if it raises, or if it is None, which
has no elements. -/
def unpackedData (buffer : List UInt8) : Option (List R) :=
  (packetUnpack floatFormat buffer).bind (fun unpacked => unpacked.2.2.2)

def clampThrottle (throttle : Int) : UInt16 :=
  if throttle < 0 then 0
  else if 65535 < throttle then 65535
  else UInt16.ofNat throttle.toNat

def controlCall (data : List R) : Option (CopterCall R) := do
  let value ← data[3]?
  let throttle ← CFloat.truncate value
  return .control (← data[0]?) (← data[1]?) (← data[2]?)
    (clampThrottle throttle)

def updateGainsCall (data : List R) : Option (CopterCall R) := do
  return .updateGains (← data[0]?) (← data[1]?)

def tuneCall (data : List R) : Option (CopterCall R) := do
  return .tune (← data[2]?) (← data[3]?) (← data[4]?) (← data[5]?)
    (← data[6]?) (← data[6]?) (← data[7]?) (← data[8]?) (← data[9]?)

/-- The calls that action_callback makes; `none` where one of their arguments
raises. -/
def actionCalls (buffer : List UInt8) (cmd : UInt8) :
    List (Option (CopterCall R)) :=
  if cmd = TalkCons.stop then []
  else if cmd = TalkCons.arm then [some .arm]
  else if cmd = TalkCons.disarm then [some .disarm]
  else if cmd = TalkCons.control then
    [(unpackedData buffer).bind controlCall]
  else if cmd = TalkCons.tune then
    [(unpackedData buffer).bind updateGainsCall,
      (unpackedData buffer).bind tuneCall]
  else []

/-- The calls made before the first that raises, and whether none did. -/
def performed : List (Option (CopterCall R)) → List (CopterCall R) × Bool
  | [] => ([], true)
  | none :: _ => ([], false)
  | some call :: calls => (call :: (performed calls).1, (performed calls).2)

/-- The calls made, and what is sent back; `none` if an exception leaves the
callback. -/
def actionCallback (buffer : List UInt8) :
    List (CopterCall R) × Option (List UInt8) :=
  match buffer[1]? with
  | none => ([], none)
  | some cmd =>
      let done := performed (actionCalls buffer cmd)
      (done.1,
        if done.2 then
          packetPack (floatFormat : ElementFormat R) TalkCons.commandAck cmd
            none
        else none)

def tuneCalls (k : Fin 11 → R) : List (CopterCall R) :=
  [.updateGains (k 0) (k 1),
    .tune (k 2) (k 3) (k 4) (k 5) (k 6) (k 6) (k 7) (k 8) (k 9)]

private theorem actionCallback_tune (k : Fin 11 → R) :
    ∃ packet ack, tunePacket (List.ofFn k) = some packet ∧
      actionCallback packet = (tuneCalls k, some ack) := by
  obtain ⟨packet, packed, unpacked⟩ := @packetUnpack_packetPack R floatFormat
    TalkCons.command TalkCons.tune (List.ofFn k) (by simp) (by
      rw [List.length_ofFn]
      exact (by decide : 4 * 11 < 256))
  have cmd := packetPack_subCommand packed
  have data : unpackedData packet = some (List.ofFn k) := by
    unfold unpackedData
    rw [unpacked]
    rfl
  refine ⟨packet, [TalkCons.commandAck, TalkCons.tune, 0], packed, ?_⟩
  have calls : actionCalls packet TalkCons.tune =
      [some (.updateGains (k 0) (k 1)),
        some (.tune (k 2) (k 3) (k 4) (k 5) (k 6) (k 6) (k 7) (k 8)
          (k 9))] := by
    unfold actionCalls
    rw [data]
    rfl
  unfold actionCallback
  rw [cmd]
  dsimp only
  rw [calls]
  rfl

structure GainsReached (k : Fin 11 → R) (flight : Flight R) : Prop where
  errorGain : flight.angle.errorGain = k 0
  gyroBiasGain : flight.angle.gyroBiasGain = k 1
  pitch : flight.control.pidPitch.gains = ⟨k 2, k 3, k 4⟩
  roll : flight.control.pidRoll.gains = ⟨k 5, k 6, k 7⟩
  yaw : flight.control.pidYaw.gains = ⟨k 8, k 9, k 10⟩

/-- A run of the m3 that has dispatched the frames of all calls. -/
structure AllHandled (reset timers : PwmTimers)
    (txMemory rxMemory : RingMemory) (calls : List (CopterCall R))
    (stream : List UInt8) (events : List CommandEvent)
    (system : CommandSystem HandlerFunc (Flight R)) : Prop where
  parsed : CommandSystem.Parsed callHandler stream
    (flightStart reset timers txMemory rxMemory) events system
  all : system.dispatches.map Dispatch.frame = calls.map CopterCall.frame

variable {reset timers : PwmTimers} {txMemory rxMemory : RingMemory}

theorem AllHandled.effects {calls : List (CopterCall R)}
    {stream : List UInt8} {events : List CommandEvent}
    {system : CommandSystem HandlerFunc (Flight R)}
    (handled : AllHandled reset timers txMemory rxMemory calls stream events
      system) :
    system.state.m3.rest = calls.foldl CopterCall.effect
      (flightStart (R := R) reset timers txMemory rxMemory).state.m3.rest := by
  rw [(reachable_effect handled.parsed.ran).1]
  exact effects_of_calls handled.all _

private theorem allHandled_exists (reset timers : PwmTimers)
    (txMemory rxMemory : RingMemory) (calls : List (CopterCall R)) :
    ∃ stream events system, CopterCall.sendAll calls = some stream ∧
      AllHandled reset timers txMemory rxMemory calls stream events system := by
  have commands : ∀ frame ∈ calls.map CopterCall.frame,
      frame.cmd.toNat < 128 := by
    intro frame member
    obtain ⟨call, _, rfl⟩ := List.mem_map.mp member
    exact call.cmd_ascii.2
  obtain ⟨events, system, parsed, all⟩ := dispatched_all callHandler txMemory
    rxMemory { (.zero timers : Flight R) with pwm := pwmInit reset timers }
    flightSetup commands
  exact ⟨_, events, system, CopterCall.sendAll_frames calls, parsed, all⟩

private theorem gainsReached_iff {k : Fin 11 → R}
    {earlier : List (CopterCall R)}
    {stream : List UInt8} {events : List CommandEvent}
    {system : CommandSystem HandlerFunc (Flight R)}
    (handled : AllHandled reset timers txMemory rxMemory
      (earlier ++ tuneCalls k) stream events system) :
    GainsReached k system.state.m3.rest ↔
      k 6 = k 7 ∧ k 7 = k 8 ∧ k 8 = k 9 ∧ k 9 = k 10 := by
  have effects := handled.effects
  rw [List.foldl_append] at effects
  generalize earlier.foldl CopterCall.effect _ = flight at effects
  have roll : system.state.m3.rest.control.pidRoll.gains =
      ⟨k 5, k 6, k 6⟩ := by
    rw [effects]
    rfl
  have yaw : system.state.m3.rest.control.pidYaw.gains =
      ⟨k 7, k 8, k 9⟩ := by
    rw [effects]
    rfl
  constructor
  · intro reached
    have rollReached := reached.roll
    have yawReached := reached.yaw
    rw [roll] at rollReached
    rw [yaw] at yawReached
    simp only [Gains.mk.injEq, true_and] at rollReached yawReached
    exact ⟨rollReached, yawReached⟩
  · intro equal
    obtain ⟨sixth, seventh, eighth, ninth⟩ := equal
    constructor
    · rw [effects]
      rfl
    · rw [effects]
      rfl
    · rw [effects]
      rfl
    · rw [roll, sixth]
    · rw [yaw, seventh, eighth, ninth]

/-- A TUNE packet sets the gains it is meant to set exactly if its last five
constants are equal. -/
theorem tune_packet_gains_iff (reset timers : PwmTimers)
    (txMemory rxMemory : RingMemory) (k : Fin 11 → R)
    (earlier : List (CopterCall R)) :
    ∃ packet calls ack stream, tunePacket (List.ofFn k) = some packet ∧
      actionCallback packet = (calls, some ack) ∧
      CopterCall.sendAll (earlier ++ calls) = some stream ∧
      (∃ events system, AllHandled reset timers txMemory rxMemory
        (earlier ++ calls) stream events system) ∧
      ∀ events system, AllHandled reset timers txMemory rxMemory
          (earlier ++ calls) stream events system →
        (GainsReached k system.state.m3.rest ↔
          k 6 = k 7 ∧ k 7 = k 8 ∧ k 8 = k 9 ∧ k 9 = k 10) := by
  obtain ⟨packet, ack, packed, called⟩ := actionCallback_tune k
  obtain ⟨stream, events, system, sent, handled⟩ :=
    allHandled_exists reset timers txMemory rxMemory (earlier ++ tuneCalls k)
  exact ⟨packet, tuneCalls k, ack, stream, packed, called, sent,
    ⟨events, system, handled⟩,
    fun events system handled => gainsReached_iff handled⟩

end

def constants : List Float32 :=
  [0.1, 0, 25000, 0, 6000, 25000, 0, 6000, 0, 0, 0]

/-- They do not reach the roll controller, nor the yaw controller. -/
theorem tune_packet_misplaces :
    ∃ packet calls ack stream events system,
      tunePacket constants = some packet ∧
      actionCallback packet = (calls, some ack) ∧
      CopterCall.sendAll calls = some stream ∧
      AllHandled (fun _ => ⟨0, 0, 0, 0, 0⟩) (fun _ => ⟨0, 0, 0, 0, 0⟩)
        ⟨0, 0, nullBuf⟩ ⟨0, 0, nullBuf⟩ calls stream events system ∧
      ¬ GainsReached (fun i : Fin 11 => constants.getD i 0)
        system.state.m3.rest := by
  obtain ⟨packet, ack, packed, called⟩ :=
    actionCallback_tune (fun i : Fin 11 => constants.getD i 0)
  obtain ⟨stream, events, system, sent, handled⟩ :=
    allHandled_exists (fun _ => ⟨0, 0, 0, 0, 0⟩) (fun _ => ⟨0, 0, 0, 0, 0⟩)
      ⟨0, 0, nullBuf⟩ ⟨0, 0, nullBuf⟩
      (tuneCalls (fun i : Fin 11 => constants.getD i 0))
  refine ⟨packet, _, ack, stream, events, system, packed, called, sent,
    handled, ?_⟩
  intro reached
  have equal := (@gainsReached_iff Float32 _ _ _ _ _ _ [] _ _ _
    handled).mp reached
  exact absurd equal.1 (by decide)

end Quadcopter

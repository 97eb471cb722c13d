import Quadcopter.Library.ObservedRuns
import Quadcopter.M3.MotorBand
import Quadcopter.M3.Telemetry

/-
What the m3 tells the host in a flight: the answers of command.c to its own
commands and to unknown ones, and the motors of every 25th tick while the host is
connected.

A run of the m3 works on its transmit ring as a run of sends and reads does.
-/

namespace Quadcopter

variable {R : Type}

def Dispatch.answers (dispatch : Dispatch) : List TelemetryEvent :=
  match flightTable dispatch.cmd with
  | none => [.send 'e'.toUInt8 nullBuf 0]
  | some .connectCmd => [.send 'c'.toUInt8 nullBuf 0]
  | some .disconnectCmd => [.send 'd'.toUInt8 nullBuf 0]
  | some (.other _) => []

def Dispatch.connects (dispatch : Dispatch) (connected : Bool) : Bool :=
  match flightTable dispatch.cmd with
  | some .connectCmd => true
  | some .disconnectCmd => false
  | _ => connected

def Motors.report (motors : Motors) : List TelemetryEvent :=
  [.send '2'.toUInt8 (intBuffer motors.motor1) 4,
    .send '3'.toUInt8 (intBuffer motors.motor2) 4,
    .send '4'.toUInt8 (intBuffer motors.motor3) 4,
    .send '5'.toUInt8 (intBuffer motors.motor4) 4]

/-- A tick reports if `connected` is set and its number is a multiple of 25. -/
def reports (connected : Bool) (count : Int32) : Bool :=
  connected && decide (count % 25 = 0)

section

variable [CFloat R]

def FlightEvent.connects (system : CommandSystem HandlerFunc (Flight R))
    (event : FlightEvent R) : Bool :=
  (event.handled system).foldl (fun connected dispatch =>
    dispatch.connects connected) system.state.m3.connected

def FlightEvent.reported (system : CommandSystem HandlerFunc (Flight R))
    (event : FlightEvent R) : List Motors :=
  match event with
  | .tick input =>
      if reports (event.connects system) system.state.m3.rest.control.count
      then [(flyTick input system.state.m3.rest).1]
      else []
  | _ => []

def FlightEvent.traffic (system : CommandSystem HandlerFunc (Flight R))
    (event : FlightEvent R) : List TelemetryEvent :=
  match event with
  | .arrive _ => []
  | .hostRead buf count => [.hostRead buf count]
  | .tick _ =>
      (event.handled system).flatMap Dispatch.answers ++
        (event.reported system).flatMap Motors.report

end

theorem flightRun_eq_foldlM [CFloat R] (stream : List UInt8)
    (events : List (FlightEvent R))
    (system : CommandSystem HandlerFunc (Flight R)) :
    flightRun stream events system =
      events.foldlM (flightStep stream) system := by
  induction events generalizing system with
  | nil => rfl
  | cons event events ih =>
      unfold flightRun
      rw [List.foldlM_cons]
      exact congrArg _ (funext ih)

theorem flightStep_arrive [CFloat R] {stream : List UInt8} {amount : Int32}
    {system after : CommandSystem HandlerFunc (Flight R)}
    (stepped : flightStep stream system (.arrive amount) = .ok after) :
    after.state.m3 = system.state.m3 := by
  change system.step callHandler stream (.arrive amount) = .ok after
    at stepped
  unfold CommandSystem.step at stepped
  dsimp only at stepped
  split at stepped
  · cases stepped
    rfl
  · cases stepped
    rfl

structure Ticked [CFloat R] (input : TickInput R)
    (system after : CommandSystem HandlerFunc (Flight R))
    (handled : List Dispatch) : Prop where
  handled_eq : (FlightEvent.tick input).handled system = handled
  m3_eq : after.state.m3 =
    reportTick (flyTick input system.state.m3.rest).1
      (CommandSystem.replay callHandler handled (flown input system).state.m3)

theorem flightStep_ticked [CFloat R] {stream : List UInt8}
    {input : TickInput R} {system after : CommandSystem HandlerFunc (Flight R)}
    (stepped : flightStep stream system (.tick input) = .ok after) :
    ∃ dispatch : Option Dispatch,
      Ticked input system after dispatch.toList := by
  unfold flightStep at stepped
  dsimp only at stepped
  cases updated : controlUpdate input system.state with
  | error halt =>
      rw [updated] at stepped
      cases stepped
  | ok done =>
      rw [updated] at stepped
      cases stepped
      refine ⟨done.2, ?_, ?_⟩
      · unfold FlightEvent.handled
        dsimp only
        rw [updated]
      · unfold controlUpdate at updated
        dsimp only at updated
        cases processed : commandProcess callHandler
            ({ system.state with
              m3 :=
                { system.state.m3 with
                  rest := (flyTick input system.state.m3.rest).2 } } :
              CommandState HandlerFunc (Flight R)) with
        | error halt =>
            rw [processed] at updated
            cases updated
        | ok result =>
            rw [processed] at updated
            cases updated
            exact congrArg (reportTick _)
              (CommandSystem.commandProcess_effect processed)

/-! ### The transmit ring -/

structure TelemetrySystem.Transmits (telemetry : TelemetrySystem)
    (m3 : FlightM3 R) : Prop where
  rb : telemetry.rb = m3.rbTx
  memory : telemetry.memory = m3.txMemory

namespace TelemetrySystem.Transmits

variable {telemetry : TelemetrySystem} {m3 : FlightM3 R}

theorem send (transmits : telemetry.Transmits m3) (cmd : UInt8)
    (data : Buffer) (length : UInt8) :
    (telemetry.step (.send cmd data length)).Transmits
      (commandSend cmd data length m3) := by
  constructor
  · exact transmits.rb
  · unfold TelemetrySystem.step commandSend
    dsimp only
    rw [transmits.rb, transmits.memory]

theorem congr {other : FlightM3 R} (transmits : telemetry.Transmits m3)
    (rb : other.rbTx = m3.rbTx) (memory : other.txMemory = m3.txMemory) :
    telemetry.Transmits other :=
  ⟨transmits.rb.trans rb.symm, transmits.memory.trans memory.symm⟩

private theorem withRest (transmits : telemetry.Transmits m3)
    (rest : Flight R) :
    telemetry.Transmits { m3 with rest } :=
  ⟨transmits.rb, transmits.memory⟩

variable [CFloat R]

theorem callHandler (transmits : telemetry.Transmits m3) (func : HandlerFunc)
    (buf : Buffer) (length : UInt8) :
    telemetry.Transmits (Quadcopter.callHandler func buf length m3) := by
  cases func with
  | controlCmd => exact transmits.congr rfl rfl
  | tuneCmd => exact transmits.congr rfl rfl
  | armCmd => exact transmits.congr rfl rfl
  | disarmCmd => exact transmits.congr rfl rfl
  | updateGains => exact transmits.congr rfl rfl
  | setMotor => exact transmits.congr rfl rfl

theorem dispatch (transmits : telemetry.Transmits m3)
    (table : m3.cmdMap = flightTable) (dispatch : Dispatch) :
    (telemetry.run dispatch.answers).Transmits
      (dispatch.run Quadcopter.callHandler m3) := by
  unfold Dispatch.answers Dispatch.run
  rw [table]
  cases flightTable dispatch.cmd with
  | none => exact transmits.send _ _ _
  | some handler =>
      cases handler with
      | connectCmd =>
          have begun : telemetry.Transmits { m3 with connected := true } :=
            transmits.congr rfl rfl
          exact begun.send _ _ _
      | disconnectCmd =>
          have begun : telemetry.Transmits { m3 with connected := false } :=
            transmits.congr rfl rfl
          exact begun.send _ _ _
      | other func => exact transmits.callHandler func _ _

omit [CFloat R] in
theorem report (transmits : telemetry.Transmits m3) (motors : Motors) :
    (telemetry.run
      ((if reports m3.connected m3.rest.control.count then [motors]
        else []).flatMap Motors.report)).Transmits (reportTick motors m3) := by
  have condition : reports m3.connected m3.rest.control.count = true ↔
      commandConnected m3 ∧ m3.rest.control.count % 25 = 0 := by
    unfold reports commandConnected
    rw [Bool.and_eq_true, decide_eq_true_eq]
  unfold reportTick
  by_cases reporting : reports m3.connected m3.rest.control.count = true
  · rw [if_pos reporting, if_pos (condition.mp reporting)]
    have sent := (((transmits.send '2'.toUInt8 (intBuffer motors.motor1)
      4).send '3'.toUInt8 (intBuffer motors.motor2) 4).send '4'.toUInt8
        (intBuffer motors.motor3) 4).send '5'.toUInt8
          (intBuffer motors.motor4) 4
    exact sent.withRest _
  · rw [if_neg reporting, if_neg (fun holds => reporting (condition.mpr holds))]
    exact transmits.withRest _

end TelemetrySystem.Transmits

/-! ### The flag and the count -/

@[simp] theorem commandSend_connected {F σ : Type} (cmd : UInt8)
    (data : Buffer) (length : UInt8) (m3 : M3 F σ) :
    (commandSend cmd data length m3).connected = m3.connected := rfl

section

variable [CFloat R]

private theorem Dispatch.run_connected {m3 : FlightM3 R}
    (table : m3.cmdMap = flightTable) (dispatch : Dispatch) :
    (dispatch.run callHandler m3).connected =
      dispatch.connects m3.connected := by
  unfold Dispatch.run Dispatch.connects
  rw [table]
  cases flightTable dispatch.cmd with
  | none => rfl
  | some handler =>
      cases handler with
      | connectCmd => rfl
      | disconnectCmd => rfl
      | other func =>
          cases func with
          | controlCmd => rfl
          | tuneCmd => rfl
          | armCmd => rfl
          | disarmCmd => rfl
          | updateGains => rfl
          | setMotor => rfl

private theorem HandlerFunc.effect_count (func : HandlerFunc) (buf : Buffer)
    (length : UInt8) (flight : Flight R) :
    (func.effect buf length flight).control.count = flight.control.count := by
  cases func with
  | controlCmd =>
      unfold HandlerFunc.effect Quadcopter.controlCmd
      dsimp only
      split
      · rfl
      · rfl
  | tuneCmd => rfl
  | armCmd => rfl
  | disarmCmd => rfl
  | updateGains => rfl
  | setMotor =>
      unfold HandlerFunc.effect Quadcopter.setMotor
      dsimp only
      split
      · rfl
      · split
        · rfl
        · rfl
        · rfl
        · rfl
        · rfl

private theorem Dispatch.effect_count (dispatch : Dispatch)
    (flight : Flight R) :
    (dispatch.effect flight).control.count = flight.control.count := by
  unfold Dispatch.effect
  split
  · exact HandlerFunc.effect_count _ _ _ _
  · rfl

omit [CFloat R] in
private theorem reportTick_connected (motors : Motors) (m3 : FlightM3 R) :
    (reportTick motors m3).connected = m3.connected := by
  unfold reportTick
  dsimp only
  split
  · simp only [commandSend_connected]
  · rfl

omit [CFloat R] in
private theorem reportTick_count (motors : Motors) (m3 : FlightM3 R) :
    (reportTick motors m3).rest.control.count =
      m3.rest.control.count + 1 := by
  unfold reportTick
  dsimp only
  split
  · simp only [commandSend_rest]
  · rfl

theorem Ticked.connected {input : TickInput R}
    {system after : CommandSystem HandlerFunc (Flight R)}
    {dispatch : Option Dispatch}
    (ticked : Ticked input system after dispatch.toList)
    (table : system.state.m3.cmdMap = flightTable) :
    after.state.m3.connected =
      (FlightEvent.tick input).connects system := by
  have begun : (flown input system).state.m3.cmdMap = flightTable := table
  unfold FlightEvent.connects
  rw [ticked.m3_eq, ticked.handled_eq, reportTick_connected]
  cases dispatch with
  | none => rfl
  | some dispatch => exact Dispatch.run_connected begun dispatch

private theorem Ticked.transmits {input : TickInput R}
    {system after : CommandSystem HandlerFunc (Flight R)}
    {dispatch : Option Dispatch} {telemetry : TelemetrySystem}
    (ticked : Ticked input system after dispatch.toList)
    (table : system.state.m3.cmdMap = flightTable)
    (transmits : telemetry.Transmits system.state.m3) :
    (telemetry.run ((FlightEvent.tick input).traffic system)).Transmits
      after.state.m3 := by
  have connected := ticked.connected table
  rw [ticked.m3_eq, reportTick_connected] at connected
  have begun : (flown input system).state.m3.cmdMap = flightTable := table
  have count : (CommandSystem.replay callHandler dispatch.toList
      (flown input system).state.m3).rest.control.count =
        system.state.m3.rest.control.count := by
    cases dispatch with
    | none => rfl
    | some dispatch =>
        have effect := congrArg (fun flight => flight.control.count)
          (dispatch.run_effect begun).1
        exact effect.trans (dispatch.effect_count _)
  have handled : (telemetry.run
      (dispatch.toList.flatMap Dispatch.answers)).Transmits
        (CommandSystem.replay callHandler dispatch.toList
          (flown input system).state.m3) := by
    have flying : telemetry.Transmits (flown input system).state.m3 :=
      transmits.withRest _
    cases dispatch with
    | none => exact flying
    | some dispatch =>
        rw [Option.toList_some, List.flatMap_singleton]
        exact flying.dispatch begun dispatch
  have reported := handled.report (flyTick input system.state.m3.rest).1
  rw [connected, count] at reported
  unfold FlightEvent.traffic FlightEvent.reported
  rw [ticked.m3_eq, ticked.handled_eq]
  unfold TelemetrySystem.run at reported ⊢
  rw [List.foldl_append]
  exact reported

private theorem flightStep_transmits {stream : List UInt8}
    {event : FlightEvent R}
    {system after : CommandSystem HandlerFunc (Flight R)}
    {telemetry : TelemetrySystem}
    (table : system.state.m3.cmdMap = flightTable)
    (transmits : telemetry.Transmits system.state.m3)
    (stepped : flightStep stream system event = .ok after) :
    (telemetry.run (event.traffic system)).Transmits after.state.m3 := by
  cases event with
  | arrive count =>
      rw [flightStep_arrive stepped]
      exact transmits
  | hostRead buf count =>
      cases stepped
      constructor
      · exact transmits.rb
      · change (telemetry.memory.call (ringbufRead telemetry.rb buf count)).2 =
          (system.state.m3.txMemory.call
            (ringbufRead system.state.m3.rbTx buf count)).2
        rw [transmits.rb, transmits.memory]
  | tick input =>
      obtain ⟨dispatch, ticked⟩ := flightStep_ticked stepped
      exact ticked.transmits table transmits

private theorem flightRun_transmits {stream : List UInt8}
    {events : List (FlightEvent R)}
    {system after : CommandSystem HandlerFunc (Flight R)}
    {telemetry : TelemetrySystem}
    (table : system.state.m3.cmdMap = flightTable)
    (transmits : telemetry.Transmits system.state.m3)
    (ran : events.foldlM (flightStep stream) system = .ok after) :
    (telemetry.run (emitted (flightStep stream)
      (fun state event => event.traffic state) system events)).Transmits
        after.state.m3 := by
  induction events generalizing system telemetry with
  | nil =>
      cases ran
      exact transmits
  | cons event events ih =>
      rw [List.foldlM_cons] at ran
      cases stepped : flightStep stream system event with
      | error halt =>
          rw [stepped] at ran
          cases ran
      | ok next =>
          rw [stepped] at ran
          have later := ih (flightStep_writes table stepped).1
            (flightStep_transmits table transmits stepped) ran
          unfold emitted
          rw [stepped]
          unfold TelemetrySystem.run at later ⊢
          rw [List.foldl_append]
          exact later

end

def TelemetryEvent.frames : TelemetryEvent → List Frame
  | .send cmd data length => [.ofBuffer cmd data length]
  | .hostRead _ _ => []

namespace TelemetrySystem

def Fits (system : TelemetrySystem) : TelemetryEvent → Prop
  | .send _ _ length => length.toNat + 2 ≤ system.free
  | .hostRead _ _ => True

instance (system : TelemetrySystem) (event : TelemetryEvent) :
    Decidable (system.Fits event) :=
  match event with
  | .send _ _ length => inferInstanceAs
      (Decidable (length.toNat + 2 ≤ system.free))
  | .hostRead _ _ => isTrue trivial

private theorem Simulates.step_fits {n : Nat} {system : TelemetrySystem}
    {history : FifoHistory UInt8 (n - 1)}
    (simulates : system.Simulates n history) (event : TelemetryEvent)
    (valid : event.Valid) (fits : system.Fits event) :
    (∃ later, (system.step event).Simulates n later) ∧
      (system.step event).kept = system.kept ++ event.frames := by
  cases event with
  | send cmd data length =>
      refine ⟨⟨_, simulates.sendWhole cmd data length fits⟩, ?_⟩
      have room : length.toNat + 2 ≤ system.free := fits
      unfold TelemetrySystem.step
      dsimp only
      rw [if_pos room]
      rfl
  | hostRead buf count =>
      refine ⟨simulates.step _ valid trivial, ?_⟩
      exact (List.append_nil _).symm

private theorem Simulates.run_fits {n : Nat} {system : TelemetrySystem}
    {history : FifoHistory UInt8 (n - 1)}
    (simulates : system.Simulates n history) (events : List TelemetryEvent)
    (valid : ∀ event ∈ events, event.Valid)
    (fits : EveryStep TelemetrySystem.step Fits system events) :
    (∃ later, (system.run events).Simulates n later) ∧
      (system.run events).kept =
        system.kept ++ events.flatMap TelemetryEvent.frames := by
  induction events generalizing system history with
  | nil => exact ⟨⟨history, simulates⟩, (List.append_nil _).symm⟩
  | cons event events ih =>
      obtain ⟨⟨later, next⟩, kept⟩ := simulates.step_fits event
        (valid event List.mem_cons_self) fits.1
      obtain ⟨last, all⟩ := ih next
        (fun other member => valid other (List.mem_cons_of_mem _ member))
        fits.2
      refine ⟨last, ?_⟩
      rw [kept] at all
      rw [List.flatMap_cons, ← List.append_assoc]
      exact all

/-- Frames that fit in the ring together find room, whatever the host reads. -/
theorem Simulates.fits_of_total {n : Nat} {system : TelemetrySystem}
    {history : FifoHistory UInt8 (n - 1)}
    (simulates : system.Simulates n history) (events : List TelemetryEvent)
    (valid : ∀ event ∈ events, event.Valid)
    (total : (Frame.code.encodeAll
      (system.kept ++ events.flatMap TelemetryEvent.frames)).length ≤ n - 1) :
    EveryStep TelemetrySystem.step Fits system events := by
  induction events generalizing system history with
  | nil => trivial
  | cons event events ih =>
      rw [List.flatMap_cons, ← List.append_assoc] at total
      have fits : system.Fits event := by
        cases event with
        | hostRead buf count => trivial
        | send cmd data length =>
            have held := congrArg List.length history.conserved
            have account := history.queue.room_add_length
            have size : (Frame.code.encodeAll
                (TelemetryEvent.send cmd data length).frames).length =
                  length.toNat + 2 := by
              change (Frame.encode _ ++ []).length = _
              rw [List.append_nil, Frame.encode_length]
              exact congrArg (· + 2) (Buffer.first_length data length.toNat)
            rw [simulates.accepted, List.length_append] at held
            simp only [SelfDelimiting.Code.encodeAll_append,
              List.length_append, size] at total
            change length.toNat + 2 ≤ system.free
            rw [simulates.free_eq]
            omega
      obtain ⟨⟨later, next⟩, kept⟩ := simulates.step_fits event
        (valid event List.mem_cons_self) fits
      refine ⟨fits, ih next
        (fun other member => valid other (List.mem_cons_of_mem _ member)) ?_⟩
      rw [kept]
      exact total

end TelemetrySystem

/-! ### The bytes that the host gets -/

section

variable [CFloat R]

def FlightEvent.Valid : FlightEvent R → Prop
  | .hostRead _ count => 0 ≤ count.toInt
  | _ => True

def flightTraffic (stream : List UInt8)
    (start : CommandSystem HandlerFunc (Flight R))
    (events : List (FlightEvent R)) : List TelemetryEvent :=
  emitted (flightStep stream) (fun system event => event.traffic system) start
    events

def flightReports (stream : List UInt8)
    (start : CommandSystem HandlerFunc (Flight R))
    (events : List (FlightEvent R)) : List Motors :=
  emitted (flightStep stream) (fun system event => event.reported system)
    start events

def flightSent (stream : List UInt8)
    (start : CommandSystem HandlerFunc (Flight R))
    (events : List (FlightEvent R)) : List Frame :=
  (flightTraffic stream start events).flatMap TelemetryEvent.frames

def FlightFits (stream : List UInt8) (reset timers : PwmTimers)
    (txMemory rxMemory : RingMemory) (events : List (FlightEvent R)) : Prop :=
  EveryStep TelemetrySystem.step TelemetrySystem.Fits
    (.start (quadcopterLenBytes quadcopterRxLenMb) txMemory)
    (flightTraffic stream (flightStart reset timers txMemory rxMemory) events)

private theorem FlightEvent.traffic_valid
    {system : CommandSystem HandlerFunc (Flight R)} {event : FlightEvent R}
    (valid : event.Valid) : ∀ done ∈ event.traffic system, done.Valid := by
  intro done member
  cases event with
  | arrive count => cases member
  | hostRead buf count =>
      rw [List.mem_singleton.mp member]
      exact valid
  | tick input =>
      have sends : ∃ cmd data length, done = .send cmd data length := by
        rcases List.mem_append.mp member with answered | reported
        · obtain ⟨dispatch, _, answer⟩ := List.mem_flatMap.mp answered
          unfold Dispatch.answers at answer
          split at answer
          · exact ⟨_, _, _, List.mem_singleton.mp answer⟩
          · exact ⟨_, _, _, List.mem_singleton.mp answer⟩
          · exact ⟨_, _, _, List.mem_singleton.mp answer⟩
          · cases answer
        · obtain ⟨motors, _, report⟩ := List.mem_flatMap.mp reported
          unfold Motors.report at report
          simp only [List.mem_cons, List.not_mem_nil, or_false] at report
          rcases report with first | second | third | fourth
          · exact ⟨_, _, _, first⟩
          · exact ⟨_, _, _, second⟩
          · exact ⟨_, _, _, third⟩
          · exact ⟨_, _, _, fourth⟩
      obtain ⟨cmd, data, length, rfl⟩ := sends
      trivial

/-- What the host reads of a flight, and what waits for it in the ring. -/
def flightBytes (stream : List UInt8) (txMemory : RingMemory)
    (start : CommandSystem HandlerFunc (Flight R))
    (events : List (FlightEvent R)) : List UInt8 :=
  let telemetry := (TelemetrySystem.start
    (quadcopterLenBytes quadcopterRxLenMb) txMemory).run
      (flightTraffic stream start events)
  telemetry.host ++ telemetry.memory.unread telemetry.rb.size.toNat

private theorem telemetryStart_simulates (txMemory : RingMemory) :
    (TelemetrySystem.start (quadcopterLenBytes quadcopterRxLenMb)
      txMemory).Simulates 5242872 .start :=
  TelemetrySystem.start_simulates (by decide) (by decide) (by decide) txMemory

private theorem flightTraffic_valid {events : List (FlightEvent R)}
    (valid : ∀ event ∈ events, event.Valid) (stream : List UInt8)
    (start : CommandSystem HandlerFunc (Flight R)) :
    ∀ done ∈ flightTraffic stream start events, done.Valid :=
  emitted_forall (fun _ event member =>
    FlightEvent.traffic_valid (valid event member)) start

theorem flight_delivers {stream : List UInt8} {reset timers : PwmTimers}
    {txMemory rxMemory : RingMemory} {events : List (FlightEvent R)}
    (valid : ∀ event ∈ events, event.Valid)
    (fits : FlightFits stream reset timers txMemory rxMemory events) :
    flightBytes stream txMemory (flightStart reset timers txMemory rxMemory)
        events =
      Frame.code.encodeAll (flightSent stream
        (flightStart reset timers txMemory rxMemory) events) := by
  obtain ⟨⟨later, simulates⟩, kept⟩ :=
    (telemetryStart_simulates txMemory).run_fits _
      (flightTraffic_valid valid stream _) fits
  have whole := simulates.faithful.whole
  rw [kept] at whole
  exact whole.symm

theorem FlightEvent.traffic_frames
    (system : CommandSystem HandlerFunc (Flight R)) (event : FlightEvent R) :
    (event.traffic system).flatMap TelemetryEvent.frames =
      ((event.handled system).flatMap Dispatch.answers).flatMap
          TelemetryEvent.frames ++
        ((event.reported system).flatMap Motors.report).flatMap
          TelemetryEvent.frames := by
  cases event with
  | arrive count => rfl
  | hostRead buf count => rfl
  | tick input => exact List.flatMap_append

theorem flightStep_flag {stream : List UInt8} {event : FlightEvent R}
    {before after : CommandSystem HandlerFunc (Flight R)}
    (table : before.state.m3.cmdMap = flightTable)
    (stepped : flightStep stream before event = .ok after) :
    (∃ dispatch : Option Dispatch,
        event.handled before = dispatch.toList) ∧
      after.state.m3.connected = event.connects before := by
  cases event with
  | arrive count =>
      rw [flightStep_arrive stepped]
      exact ⟨⟨none, rfl⟩, rfl⟩
  | hostRead buf count =>
      cases stepped
      exact ⟨⟨none, rfl⟩, rfl⟩
  | tick input =>
      obtain ⟨dispatch, ticked⟩ := flightStep_ticked stepped
      exact ⟨⟨dispatch, ticked.handled_eq⟩, ticked.connected table⟩

theorem FlightEvent.reported_cases
    (system : CommandSystem HandlerFunc (Flight R)) (event : FlightEvent R) :
    event.reported system = [] ∨
      ∃ motors, event.reported system = [motors] := by
  cases event with
  | arrive count => exact Or.inl rfl
  | hostRead buf count => exact Or.inl rfl
  | tick input =>
      unfold FlightEvent.reported
      dsimp only
      split
      · exact Or.inr ⟨_, rfl⟩
      · exact Or.inl rfl

/-! ### How much a flight sends -/

def FlightEvent.ticks : FlightEvent R → Nat
  | .tick _ => 1
  | _ => 0

def flightTicks (events : List (FlightEvent R)) : Nat :=
  (events.map FlightEvent.ticks).sum

private theorem answers_size (dispatch : Option Dispatch) :
    (Frame.code.encodeAll
      ((dispatch.toList.flatMap Dispatch.answers).flatMap
        TelemetryEvent.frames)).length ≤ 2 := by
  cases dispatch with
  | none => exact Nat.zero_le 2
  | some dispatch =>
      rw [Option.toList_some, List.flatMap_singleton]
      unfold Dispatch.answers
      cases flightTable dispatch.cmd with
      | none => exact Nat.le_refl 2
      | some handler =>
          cases handler with
          | connectCmd => exact Nat.le_refl 2
          | disconnectCmd => exact Nat.le_refl 2
          | other func => exact Nat.zero_le 2

private theorem report_size (motors : Motors) :
    (Frame.code.encodeAll
      (motors.report.flatMap TelemetryEvent.frames)).length = 24 := rfl

theorem Ticked.count {input : TickInput R}
    {system after : CommandSystem HandlerFunc (Flight R)}
    {dispatch : Option Dispatch}
    (ticked : Ticked input system after dispatch.toList)
    (table : system.state.m3.cmdMap = flightTable) :
    after.state.m3.rest.control.count =
      system.state.m3.rest.control.count + 1 := by
  have begun : (flown input system).state.m3.cmdMap = flightTable := table
  rw [ticked.m3_eq, reportTick_count, (replay_effect begun _).1]
  cases dispatch with
  | none => rfl
  | some dispatch => exact congrArg (· + 1) (dispatch.effect_count _)

/-- A report only in ticks whose number is a multiple of 25. -/
theorem reported_size {system : CommandSystem HandlerFunc (Flight R)}
    {event : FlightEvent R} {ticks : Nat} (small : ticks < 2 ^ 31)
    (count : system.state.m3.rest.control.count = Int32.ofNat ticks) :
    (Frame.code.encodeAll
      (((event.reported system).flatMap Motors.report).flatMap
        TelemetryEvent.frames)).length ≤
      if ticks % 25 = 0 then 24 * event.ticks else 0 := by
  cases event with
  | arrive count => exact Nat.zero_le _
  | hostRead buf count => exact Nat.zero_le _
  | tick input =>
      unfold FlightEvent.reported
      dsimp only
      split
      · next reporting =>
          unfold reports at reporting
          rw [Bool.and_eq_true, decide_eq_true_eq, count] at reporting
          have toInt : (Int32.ofNat ticks).toInt = ticks :=
            Int32.toInt_ofNat_of_lt small
          have multiple := congrArg Int32.toInt reporting.2
          rw [MachineInt.toInt_mod (by rw [toInt]; omega) (by decide), toInt]
            at multiple
          have zero : ticks % 25 = 0 := by
            change (ticks : Int) % 25 = 0 at multiple
            omega
          rw [if_pos zero, List.flatMap_singleton, report_size]
          exact Nat.le_refl 24
      · exact Nat.zero_le _

private theorem flight_size {stream : List UInt8}
    {start after : CommandSystem HandlerFunc (Flight R)}
    (table : start.state.m3.cmdMap = flightTable)
    (zero : start.state.m3.rest.control.count = 0)
    {events : List (FlightEvent R)}
    (ran : events.foldlM (flightStep stream) start = .ok after)
    (small : flightTicks events < 2 ^ 31) :
    after.state.m3.cmdMap = flightTable ∧
      after.state.m3.rest.control.count =
        Int32.ofNat (flightTicks events) ∧
      (Frame.code.encodeAll (flightSent stream start events)).length ≤
        2 * flightTicks events + 24 * ((flightTicks events + 24) / 25) := by
  induction events using List.reverseRecOn generalizing after with
  | nil =>
      cases ran
      exact ⟨table, zero, Nat.zero_le _⟩
  | append_singleton events event ih =>
      obtain ⟨before, begun, stepped⟩ := foldlM_concat ran
      have ticks : flightTicks (events ++ [event]) =
          flightTicks events + event.ticks := by
        simp [flightTicks]
      rw [ticks] at small
      obtain ⟨before_table, count, size⟩ := ih begun (by omega)
      have sent : flightSent stream start (events ++ [event]) =
          flightSent stream start events ++
            (event.traffic before).flatMap TelemetryEvent.frames := by
        unfold flightSent flightTraffic
        rw [emitted_concat begun stepped, List.flatMap_append]
      obtain ⟨⟨dispatch, handled⟩, _⟩ := flightStep_flag before_table stepped
      have report := @reported_size R _ before event _
        (by omega : flightTicks events < 2 ^ 31) count
      have answers := answers_size dispatch
      rw [← handled] at answers
      refine ⟨(flightStep_writes before_table stepped).1, ?_, ?_⟩
      · rw [ticks]
        cases event with
        | arrive amount =>
            rw [flightStep_arrive stepped]
            exact count
        | hostRead buf amount =>
            cases stepped
            exact count
        | tick input =>
            obtain ⟨dispatch, ticked⟩ := flightStep_ticked stepped
            rw [ticked.count before_table, count]
            exact (Int32.ofNat_add _ _).symm
      · rw [ticks, sent, FlightEvent.traffic_frames]
        simp only [SelfDelimiting.Code.encodeAll_append, List.length_append]
        cases event with
        | arrive amount => exact size
        | hostRead buf amount => exact size
        | tick input =>
            change _ ≤ 2 * (flightTicks events + 1) +
              24 * ((flightTicks events + 1 + 24) / 25)
            split at report
            · change _ ≤ 24 * 1 at report
              omega
            · omega

/-- The frames of some ticks fit in the ring together: nearly five hours at
100 Hz. -/
theorem flight_fits {stream : List UInt8} {reset timers : PwmTimers}
    {txMemory rxMemory : RingMemory} {events : List (FlightEvent R)}
    {after : CommandSystem HandlerFunc (Flight R)}
    (valid : ∀ event ∈ events, event.Valid)
    (ticks : flightTicks events ≤ 1771235)
    (ran : flightRun stream events
      (flightStart reset timers txMemory rxMemory) = .ok after) :
    FlightFits stream reset timers txMemory rxMemory events := by
  rw [flightRun_eq_foldlM] at ran
  have size := (flight_size (flightSetup_cmdMap reset timers txMemory rxMemory)
    rfl ran (by omega)).2.2
  refine (telemetryStart_simulates txMemory).fits_of_total _
    (flightTraffic_valid valid stream _) ?_
  refine Nat.le_trans size ?_
  omega

private theorem flightStart_transmits (reset timers : PwmTimers)
    (txMemory rxMemory : RingMemory) :
    (TelemetrySystem.start (quadcopterLenBytes quadcopterRxLenMb)
      txMemory).Transmits
        (flightStart reset timers txMemory rxMemory : CommandSystem HandlerFunc
          (Flight R)).state.m3 :=
  ⟨rfl, rfl⟩

/-- In a flight of fewer than five hours no frame to the host is lost or torn,
even if the host never reads: what it reads, and finds in the ring afterwards,
are the frames sent and nothing else. -/
theorem flight_telemetry_whole (reset timers : PwmTimers)
    (txMemory rxMemory : RingMemory) (stream : List UInt8)
    (events : List (FlightEvent R)) (valid : ∀ event ∈ events, event.Valid)
    (ticks : flightTicks events ≤ 1771235)
    (after : CommandSystem HandlerFunc (Flight R))
    (ran : flightRun stream events
      (flightStart reset timers txMemory rxMemory) = .ok after) :
    let start := flightStart reset timers txMemory rxMemory
    ((TelemetrySystem.start (quadcopterLenBytes quadcopterRxLenMb)
        txMemory).run (flightTraffic stream start events)).Transmits
          after.state.m3 ∧
      FlightFits stream reset timers txMemory rxMemory events ∧
      Frame.code.decodeAll (flightBytes stream txMemory start events) =
        (flightSent stream start events, []) ∧
      (flightBytes stream txMemory start events).length ≤
        2 * flightTicks events + 24 * ((flightTicks events + 24) / 25) := by
  intro start
  have fits := flight_fits valid ticks ran
  have bytes := flight_delivers valid fits
  rw [flightRun_eq_foldlM] at ran
  have table := flightSetup_cmdMap (R := R) reset timers txMemory rxMemory
  have size := (flight_size table rfl ran (by omega)).2.2
  refine ⟨flightRun_transmits table
    (flightStart_transmits reset timers txMemory rxMemory) ran, fits, ?_, ?_⟩
  · rw [bytes]
    exact Frame.code.decodeAll_encodeAll _
  · rw [bytes]
    exact size

end

/-- The host connects, and reads the answer and the first report. -/
def connectEvents : List (FlightEvent Float32) :=
  [.arrive 2, .tick zeroReading, .hostRead nullBuf 64]

theorem connectEvents_valid : ∀ event ∈ connectEvents, event.Valid := by
  intro event member
  unfold connectEvents at member
  simp only [List.mem_cons, List.not_mem_nil, or_false] at member
  rcases member with rfl | rfl | rfl
  · trivial
  · trivial
  · exact (by decide : 0 ≤ (64 : Int32).toInt)

theorem flight_telemetry_whole_of_connect :
    (Frame.code.decodeAll
      (flightBytes [0, 'c'.toUInt8] ⟨0, 0, nullBuf⟩
        (flightStart (fun _ => ⟨0, 0, 0, 0, 0⟩) (fun _ => ⟨0, 0, 0, 0, 0⟩)
          ⟨0, 0, nullBuf⟩ ⟨0, 0, nullBuf⟩) connectEvents)).1.map Frame.cmd =
      ['c'.toUInt8, '2'.toUInt8, '3'.toUInt8, '4'.toUInt8, '5'.toUInt8] := by
  obtain ⟨after, _, _, ran, _⟩ :=
    (flightStart_framed (fun _ => ⟨0, 0, 0, 0, 0⟩) (fun _ => ⟨0, 0, 0, 0, 0⟩)
      ⟨0, 0, nullBuf⟩ ⟨0, 0, nullBuf⟩ [0, 'c'.toUInt8]).flightRun (by decide)
        connectEvents
  have whole := flight_telemetry_whole (fun _ => ⟨0, 0, 0, 0, 0⟩)
    (fun _ => ⟨0, 0, 0, 0, 0⟩) ⟨0, 0, nullBuf⟩ ⟨0, 0, nullBuf⟩
    [0, 'c'.toUInt8] connectEvents connectEvents_valid (by decide) after ran
  rw [whole.2.2.1]
  decide +kernel

end Quadcopter

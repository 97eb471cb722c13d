import Mathlib.Data.List.Forall2
import Quadcopter.Host.PacketClient
import Quadcopter.Host.ProcessCommand
import Quadcopter.Host.PyServ

/-
The program on the copter (controller/talk_module, py_serv.py): its callbacks run
inside the loop of the server, answer on the socket that a packet came from, and
work on the object that talks to the m3.

An exception leaves main, and nothing is done after it.
-/

namespace Quadcopter

variable {R τ : Type}

/-- The while loop on one buffer: the callbacks work on `talk`, and say whether
they have raised. -/
def talkBuffer (callback : Callback → Nat → List UInt8 → τ → τ × Bool)
    (socket : Nat) : (fuel : Nat) → List UInt8 → τ → τ × List UInt8 × Bool
  | 0, buff, talk => (talk, buff, false)
  | fuel + 1, buff, talk =>
      match popPacket buff with
      | none => (talk, buff, false)
      | some (newArray, buff) =>
          match callbackOf newArray with
          | none => (talk, buff, true)
          | some call =>
              let called := callback call socket newArray talk
              if called.2 then (called.1, buff, true)
              else talkBuffer callback socket fuel buff called.1

def talkClients (callback : Callback → Nat → List UInt8 → τ → τ × Bool)
    (recv : Nat → Option (List UInt8)) :
    List Client → τ → τ × List Client × Bool
  | [], talk => (talk, [], false)
  | client :: clients, talk =>
      match recv client.socket with
      | none =>
          let rest := talkClients callback recv clients talk
          (rest.1, client :: rest.2.1, rest.2.2)
      | some data =>
          let buff := client.buff ++ data
          let served := talkBuffer callback client.socket buff.length buff talk
          let client := { client with buff := served.2.1 }
          if served.2.2 then (served.1, client :: clients, true)
          else
            let rest := talkClients callback recv clients served.1
            (rest.1, client :: rest.2.1, rest.2.2)

namespace TalkCons

def getAngles : UInt8 := 0x01

def hereIsInfo : UInt8 := 0xA0

end TalkCons

/-- What the callbacks work on: the object, the calls made on it, and what
sendall has been given. -/
structure Talk (R : Type) where
  quad : Copter R
  calls : List (CopterCall R)
  sent : List (Nat × List UInt8)

section

variable [CFloat R]

def PyNumber.toFloat : PyNumber R → R
  | .float value => value
  | .int value => (value : R)

/-- The list `a` of info_callback; `none` if an index raises. -/
def infoData (sensors : CopterSensors R) : Option (List R) := do
  return [(← sensors.angles[0]?).toFloat, (← sensors.angles[1]?).toFloat,
    (← sensors.angles[2]?).toFloat, sensors.motor1.toFloat,
    sensors.motor2.toFloat, sensors.motor3.toFloat, sensors.motor4.toFloat]

/-- The second value tells that it raises. -/
def infoCallback (socket : Nat) (buffer : List UInt8) (talk : Talk R) :
    Talk R × Bool :=
  match buffer[1]? with
  | none => (talk, true)
  | some subCommand =>
      if subCommand = TalkCons.getAngles then
        match (infoData talk.quad.sensors).bind (fun a =>
          packetPack floatFormat TalkCons.hereIsInfo TalkCons.getAngles
            (some a)) with
        | none => (talk, true)
        | some packet =>
            ({ talk with sent := talk.sent ++ [(socket, packet)] }, false)
      else (talk, false)

def apiCallback (socket : Nat) (buffer : List UInt8) (talk : Talk R) :
    Talk R × Bool :=
  let done := actionCallback buffer
  let talk := { talk with calls := talk.calls ++ done.1 }
  match done.2 with
  | none => (talk, true)
  | some ack => ({ talk with sent := talk.sent ++ [(socket, ack)] }, false)

def talkCallback (call : Callback) (socket : Nat) (buffer : List UInt8)
    (talk : Talk R) : Talk R × Bool :=
  match call with
  | .info => infoCallback socket buffer talk
  | .api => apiCallback socket buffer talk

/-- One round of the loop of main: what recvCommand returns, what the sockets
have, and who connects. -/
structure Round where
  cmd : Option CopterCommand
  recv : Nat → Option (List UInt8)
  incoming : Option String

structure PyServ (R : Type) where
  q : List Client
  talk : Talk R
  raised : Bool

def acceptClient (q : List Client) : (incoming : Option String) → List Client
  | none => q
  | some ip => q ++ [⟨q.length, ip, []⟩]

namespace PyServ

def start (ip : String) : PyServ R :=
  { q := acceptClient [] (some ip)
    talk := { quad := .start, calls := [.sendConnect], sent := [] }
    raised := false }

def processed (quad : Copter R) : (cmd : Option CopterCommand) →
    Option (Copter R)
  | none => some quad
  | some cmd => quad.handleCommand cmd

def round (serv : PyServ R) (round : Round) : PyServ R :=
  if serv.raised then serv
  else
    match processed serv.talk.quad round.cmd with
    | none => { serv with raised := true }
    | some quad =>
        let done := talkClients talkCallback round.recv serv.q
          { serv.talk with quad }
        if done.2.2 then { q := done.2.1, talk := done.1, raised := true }
        else
          { q := acceptClient done.2.1 round.incoming
            talk := done.1
            raised := false }

def run (serv : PyServ R) (rounds : List Round) : PyServ R :=
  rounds.foldl round serv

end PyServ

end

/-! ### The loop without its callbacks -/

section

variable {callback : Callback → Nat → List UInt8 → τ → τ × Bool}

/-- The callbacks of a log, one after the other, up to the first that raises. -/
def runEffects (callback : Callback → Nat → List UInt8 → τ → τ × Bool) :
    List ServerEffect → τ → τ × Bool
  | [], talk => (talk, false)
  | .received _ _ :: effects, talk => runEffects callback effects talk
  | .called call socket newArray :: effects, talk =>
      let called := callback call socket newArray talk
      if called.2 then (called.1, true)
      else runEffects callback effects called.1

private theorem runEffects_append {first second : List ServerEffect}
    {talk middle : τ} (begun : runEffects callback first talk = (middle, false)) :
    runEffects callback (first ++ second) talk =
      runEffects callback second middle := by
  induction first generalizing talk with
  | nil =>
      cases begun
      rfl
  | cons effect first ih =>
      cases effect with
      | received socket data => exact ih begun
      | called call socket newArray =>
          simp only [List.cons_append, runEffects] at begun ⊢
          split at begun
          · cases begun
          · next quiet =>
              rw [if_neg quiet]
              exact ih begun

/-- If nothing raises, the loop does what it does in class server, and runs the
callbacks of the log in order. -/
theorem talkBuffer_eq {socket fuel : Nat} {buff rest : List UInt8}
    {talk after : τ}
    (done : talkBuffer callback socket fuel buff talk = (after, rest, false)) :
    ∃ effects, serveBuffer socket fuel buff = (effects, rest, false) ∧
      runEffects callback effects talk = (after, false) := by
  induction fuel generalizing buff talk with
  | zero =>
      cases done
      exact ⟨[], rfl, rfl⟩
  | succ fuel ih =>
      unfold talkBuffer at done
      unfold serveBuffer
      cases popped : popPacket buff with
      | none =>
          rw [popped] at done
          cases done
          exact ⟨[], rfl, rfl⟩
      | some cut =>
          rw [popped] at done
          dsimp only at done ⊢
          cases chosen : callbackOf cut.1 with
          | none =>
              rw [chosen] at done
              cases done
          | some call =>
              rw [chosen] at done
              dsimp only at done ⊢
              split at done
              · cases done
              · next quiet =>
                  obtain ⟨effects, served, ran⟩ := ih done
                  refine ⟨.called call socket cut.1 :: effects, ?_, ?_⟩
                  · rw [served]
                  · unfold runEffects
                    dsimp only
                    rw [if_neg quiet]
                    exact ran

private theorem talkClients_eq {recv : Nat → Option (List UInt8)}
    {clients later : List Client} {talk after : τ}
    (done : talkClients callback recv clients talk = (after, later, false)) :
    ∃ effects, serveClients recv clients = (effects, later, false) ∧
      runEffects callback effects talk = (after, false) := by
  induction clients generalizing talk later with
  | nil =>
      cases done
      exact ⟨[], rfl, rfl⟩
  | cons client clients ih =>
      unfold talkClients at done
      unfold serveClients
      cases found : recv client.socket with
      | none =>
          rw [found] at done
          dsimp only at done ⊢
          rcases rest_eq : talkClients callback recv clients talk with
            ⟨rest_talk, rest_later, rest_raised⟩
          rw [rest_eq] at done
          cases done
          obtain ⟨effects, served, ran⟩ := ih rest_eq
          rw [served]
          exact ⟨effects, rfl, ran⟩
      | some data =>
          rw [found] at done
          dsimp only at done ⊢
          rcases served_eq : talkBuffer callback client.socket
            (client.buff ++ data).length (client.buff ++ data) talk with
            ⟨first_talk, buff, raised⟩
          rw [served_eq] at done
          dsimp only at done
          cases raised with
          | true => cases done
          | false =>
              obtain ⟨effects, served, ran⟩ := talkBuffer_eq served_eq
              rcases rest_eq : talkClients callback recv clients first_talk with
                ⟨rest_talk, rest_later, rest_raised⟩
              rw [rest_eq] at done
              cases done
              obtain ⟨more, rest_served, rest_ran⟩ := ih rest_eq
              rw [served, rest_served]
              refine ⟨.received client.socket data :: (effects ++ more), rfl, ?_⟩
              change runEffects callback (effects ++ more) talk = _
              rw [runEffects_append ran]
              exact rest_ran

end

private theorem serveBuffer_known {socket fuel : Nat} {buff : List UInt8}
    (quiet : (serveBuffer socket fuel buff).2.2 = false) :
    ∀ packet ∈ (Packet.code.decodeUpTo fuel buff).1, packet.Known := by
  induction fuel generalizing buff with
  | zero =>
      intro packet member
      cases member
  | succ fuel ih =>
      have popped := popPacket_eq buff
      cases found : Packet.decode buff with
      | none =>
          have found_code : Packet.code.decode buff = none := found
          intro packet member
          simp only [SelfDelimiting.Code.decodeUpTo, found_code] at member
          cases member
      | some cut =>
          rw [found, Option.map_some] at popped
          have found_code : Packet.code.decode buff = some cut := found
          simp only [serveBuffer, popped] at quiet
          cases chosen : callbackOf cut.1.encode with
          | none =>
              rw [chosen] at quiet
              cases quiet
          | some call =>
              rw [chosen] at quiet
              intro packet member
              simp only [SelfDelimiting.Code.decodeUpTo, found_code] at member
              rcases List.mem_cons.mp member with here | later
              · rw [here]
                unfold callbackOf at chosen
                unfold Packet.Known
                simp only [Packet.encode, List.head?_cons,
                  Option.some.injEq] at chosen
                by_cases info : cut.1.command = TalkCons.getInfo
                · exact Or.inl info
                · by_cases command : cut.1.command = TalkCons.command
                  · exact Or.inr command
                  · rw [if_neg info, if_neg command] at chosen
                    cases chosen
              · exact ih quiet packet later

/-- All packets handled by a for loop that has not raised have a callback. -/
theorem serveClients_known (recv : Nat → Option (List UInt8))
    (clients : List Client) {log : List ServerEffect}
    (distinct : (clients.map Client.socket).Nodup)
    (matched : ∀ client ∈ clients, Matched log client)
    (before : KnownFrom log)
    (quiet : (serveClients recv clients).2.2 = false) :
    KnownFrom (log ++ (serveClients recv clients).1) := by
  induction clients generalizing log with
  | nil =>
      change KnownFrom (log ++ [])
      rw [List.append_nil]
      exact before
  | cons client clients ih =>
      obtain ⟨fresh, distinct_rest⟩ := List.nodup_cons.mp distinct
      have head := matched client List.mem_cons_self
      have tail : ∀ other ∈ clients, Matched log other :=
        fun other member => matched other (List.mem_cons_of_mem _ member)
      cases found : recv client.socket with
      | none =>
          simp only [serveClients, found] at quiet ⊢
          exact ih distinct_rest tail before quiet
      | some data =>
          rcases served_eq : serveBuffer client.socket
            (client.buff ++ data).length (client.buff ++ data) with
            ⟨effects, buff, raised⟩
          simp only [serveClients, found, served_eq] at quiet ⊢
          cases raised with
          | true => cases quiet
          | false =>
              have first : KnownFrom
                  (log ++ .received client.socket data :: effects) := by
                have here := serveBuffer_known
                  (congrArg (fun done => done.2.2) served_eq)
                have served := serveBuffer_eq client.socket
                  (client.buff ++ data).length (client.buff ++ data) here
                rw [served_eq] at served
                cases served
                obtain ⟨handled, received, stops, _⟩ := head
                intro socket packet member
                by_cases own : socket = client.socket
                · subst own
                  rw [receivedFrom_append, receivedFrom_received,
                    (logged_calls _ _).1, received, List.append_nil,
                    List.append_assoc,
                    Packet.code.decodeAll_encodeAll_append] at member
                  rcases List.mem_append.mp member with old | new
                  · apply before client.socket packet
                    rw [received, Packet.code.decodeAll_eq _ _ stops]
                    exact old
                  · exact here packet new
                · have others := (unlogged_calls own
                    (Packet.code.decodeUpTo (client.buff ++ data).length
                      (client.buff ++ data)).1).1
                  apply before socket packet
                  rw [receivedFrom_append] at member
                  simp only [receivedFrom, List.flatMap_cons,
                    if_neg (Ne.symm own), List.nil_append] at others member
                  rw [others, List.append_nil] at member
                  exact member
              obtain ⟨_, _, same, head_matched, head_others⟩ :=
                head.served first
              rw [served_eq] at same
              cases same
              have tail_matched : ∀ other ∈ clients,
                  Matched (log ++ .received client.socket data :: effects)
                    other := by
                intro other member
                apply (tail other member).unlogged
                apply head_others
                intro same
                exact fresh (same ▸ List.mem_map_of_mem member)
              have rest := ih distinct_rest tail_matched first quiet
              rw [List.append_assoc] at rest
              exact rest

/-! ### Answers -/

section

variable [CFloat R]

def sentTo (socket : Nat) (sent : List (Nat × List UInt8)) : List UInt8 :=
  sent.flatMap (fun item => if item.1 = socket then item.2 else [])

@[simp] theorem sentTo_append (socket : Nat)
    (first second : List (Nat × List UInt8)) :
    sentTo socket (first ++ second) =
      sentTo socket first ++ sentTo socket second :=
  List.flatMap_append

def deviceCalls (log : List ServerEffect) : List (CopterCall R) :=
  log.flatMap (fun
    | .called .api _ newArray => (actionCallback newArray).1
    | _ => [])

private theorem deviceCalls_append (first second : List ServerEffect) :
    (deviceCalls (first ++ second) : List (CopterCall R)) =
      deviceCalls first ++ deviceCalls second :=
  List.flatMap_append

def packetCalls (packet : Packet) : List (CopterCall R) :=
  match packet.callback with
  | .info => []
  | .api => (actionCallback packet.encode).1

/-- What the copter answers to a packet while its object is `quad`. -/
inductive Answers (quad : Copter R) : Packet → Option Packet → Prop where
  | ack (subCommand : UInt8) (data : List UInt8)
      (small : data.length < UInt8.size)
      (done : (performed (actionCalls (R := R)
        (Packet.encode ⟨TalkCons.command, subCommand, data, small⟩)
        subCommand)).2 = true) :
      Answers quad ⟨TalkCons.command, subCommand, data, small⟩
        (some ⟨TalkCons.commandAck, subCommand, [], nil_small⟩)
  | angles (data : List UInt8) (small : data.length < UInt8.size)
      (a : List R) (info : infoData quad.sensors = some a)
      (answer : List UInt8) (answer_small : answer.length < UInt8.size)
      (packed : packetPack floatFormat TalkCons.hereIsInfo TalkCons.getAngles
        (some a) = some (Packet.encode
          ⟨TalkCons.hereIsInfo, TalkCons.getAngles, answer, answer_small⟩)) :
      Answers quad ⟨TalkCons.getInfo, TalkCons.getAngles, data, small⟩
        (some ⟨TalkCons.hereIsInfo, TalkCons.getAngles, answer, answer_small⟩)
  | silent (subCommand : UInt8) (data : List UInt8)
      (small : data.length < UInt8.size)
      (other : subCommand ≠ TalkCons.getAngles) :
      Answers quad ⟨TalkCons.getInfo, subCommand, data, small⟩ none

omit [CFloat R] in
theorem packetPack_encode {format : ElementFormat R}
    {command subCommand : UInt8} {data : List R} {packet : List UInt8}
    (packed : packetPack format command subCommand (some data) = some packet) :
    ∃ answer, ∃ small : answer.length < UInt8.size,
      packet = Packet.encode ⟨command, subCommand, answer, small⟩ := by
  unfold packetPack at packed
  dsimp only at packed
  split at packed
  · next small =>
      cases packed
      exact ⟨_, small, rfl⟩
  · cases packed

private theorem sentTo_singleton (other socket : Nat) (bytes : List UInt8) :
    sentTo other [(socket, bytes)] =
      if other = socket then bytes else [] := by
  unfold sentTo
  rw [List.flatMap_singleton]
  by_cases same : other = socket
  · rw [if_pos same, if_pos same.symm]
  · rw [if_neg same, if_neg (Ne.symm same)]

structure Answered (socket : Nat) (packet : Packet) (talk after : Talk R)
    (reply : Option Packet) : Prop where
  answers : Answers talk.quad packet reply
  quad : after.quad = talk.quad
  calls : after.calls = talk.calls ++
    deviceCalls [.called packet.callback socket packet.encode]
  sent : ∀ other, sentTo other after.sent = sentTo other talk.sent ++
    if other = socket then Packet.code.encodeAll reply.toList else []

private theorem infoCallback_answered {socket : Nat} {subCommand : UInt8}
    {data : List UInt8} {small : data.length < UInt8.size}
    {talk after : Talk R}
    (done : infoCallback socket
      (Packet.encode ⟨TalkCons.getInfo, subCommand, data, small⟩) talk =
        (after, false)) :
    ∃ reply, Answered socket ⟨TalkCons.getInfo, subCommand, data, small⟩ talk
      after reply := by
  have second : (Packet.encode
      ⟨TalkCons.getInfo, subCommand, data, small⟩)[1]? = some subCommand := rfl
  unfold infoCallback at done
  rw [second] at done
  dsimp only at done
  by_cases angles : subCommand = TalkCons.getAngles
  · rw [if_pos angles] at done
    cases info : infoData talk.quad.sensors with
    | none =>
        rw [info] at done
        cases done
    | some a =>
        rw [info, Option.bind_some] at done
        cases packed : packetPack floatFormat TalkCons.hereIsInfo
            TalkCons.getAngles (some a) with
        | none =>
            rw [packed] at done
            cases done
        | some bytes =>
            rw [packed] at done
            cases done
            obtain ⟨answer, answer_small, rfl⟩ := packetPack_encode packed
            subst angles
            refine ⟨_, .angles data small a info answer answer_small packed,
              rfl, (List.append_nil _).symm, ?_⟩
            intro other
            rw [sentTo_append, sentTo_singleton]
            simp only [Option.toList_some, SelfDelimiting.Code.encodeAll_cons,
              SelfDelimiting.Code.encodeAll_nil, List.append_nil]
            rfl
  · rw [if_neg angles] at done
    cases done
    refine ⟨none, .silent subCommand data small angles, rfl,
      (List.append_nil _).symm, ?_⟩
    intro other
    rw [Option.toList_none, SelfDelimiting.Code.encodeAll_nil, ite_self,
      List.append_nil]

private theorem apiCallback_answered {socket : Nat} {subCommand : UInt8}
    {data : List UInt8} {small : data.length < UInt8.size}
    {talk after : Talk R}
    (done : apiCallback socket
      (Packet.encode ⟨TalkCons.command, subCommand, data, small⟩) talk =
        (after, false)) :
    ∃ reply, Answered socket ⟨TalkCons.command, subCommand, data, small⟩ talk
      after reply := by
  have second : (Packet.encode
      ⟨TalkCons.command, subCommand, data, small⟩)[1]? = some subCommand := rfl
  have calls : deviceCalls (R := R) [.called
      (Packet.callback ⟨TalkCons.command, subCommand, data, small⟩) socket
      (Packet.encode ⟨TalkCons.command, subCommand, data, small⟩)] =
        (performed (actionCalls
          (Packet.encode ⟨TalkCons.command, subCommand, data, small⟩)
          subCommand)).1 :=
    List.append_nil _
  unfold apiCallback actionCallback at done
  rw [second] at done
  dsimp only at done
  split at done
  · cases done
  · next ack ack_eq =>
      split at ack_eq
      · next all_done =>
        cases ack_eq
        cases done
        refine ⟨some ⟨TalkCons.commandAck, subCommand, [], nil_small⟩,
          .ack subCommand data small all_done, rfl, ?_, ?_⟩
        · rw [calls]
        · intro other
          rw [sentTo_append, sentTo_singleton]
          rfl
      · cases ack_eq

private theorem talkCallback_answered {socket : Nat} {packet : Packet}
    (known : packet.Known) {talk after : Talk R}
    (done : talkCallback packet.callback socket packet.encode talk =
      (after, false)) :
    ∃ reply, Answered socket packet talk after reply := by
  obtain ⟨command, subCommand, data, small⟩ := packet
  rcases known with info | api
  · change command = TalkCons.getInfo at info
    subst info
    exact infoCallback_answered done
  · change command = TalkCons.command at api
    subst api
    exact apiCallback_answered done

/-! ### The callbacks of a log -/

def packetsFor (socket : Nat) (log : List ServerEffect) : List Packet :=
  (callsFor socket log).filterMap (fun call =>
    (Packet.decode call.2).map Prod.fst)

omit [CFloat R] in
private theorem packetsFor_append (socket : Nat)
    (first second : List ServerEffect) :
    packetsFor socket (first ++ second) =
      packetsFor socket first ++ packetsFor socket second := by
  unfold packetsFor
  rw [callsFor_append, List.filterMap_append]

private theorem packetsFor_handled {socket : Nat} {log : List ServerEffect}
    {handled : List Packet}
    (calls : callsFor socket log = handled.map Packet.call) :
    packetsFor socket log = handled := by
  unfold packetsFor
  rw [calls]
  clear calls
  induction handled with
  | nil => rfl
  | cons packet handled ih =>
      have decoded := Packet.decode_encode packet []
      rw [List.append_nil] at decoded
      rw [List.map_cons, List.filterMap_cons_some]
      · exact congrArg (List.cons packet) ih
      · change (Packet.decode packet.encode).map Prod.fst = some packet
        rw [decoded]
        rfl

omit [CFloat R] in
theorem Serving.handled {server : Server} (serving : Serving server)
    (socket : Nat) :
    callsFor socket server.log =
      (Packet.code.decodeAll (receivedFrom socket server.log)).1.map
        Packet.call := by
  by_cases inside : socket < server.q.length
  · have present := List.mem_range.mpr inside
    rw [← serving.sockets] at present
    obtain ⟨client, member, rfl⟩ := List.mem_map.mp present
    obtain ⟨handled, received, stops, calls⟩ := serving.matched client member
    rw [received, Packet.code.decodeAll_eq _ _ stops]
    exact calls
  · obtain ⟨no_data, no_calls⟩ := serving.others socket (by omega)
    rw [no_calls, no_data]
    rfl

/-- A callback gets a packet that it is chosen for. -/
def ServerEffect.Proper : ServerEffect → Prop
  | .received _ _ => True
  | .called call _ newArray =>
      ∃ packet : Packet, packet.Known ∧ call = packet.callback ∧
        newArray = packet.encode

private theorem serveClients_proper (recv : Nat → Option (List UInt8))
    (clients : List Client) (quiet : (serveClients recv clients).2.2 = false) :
    ∀ effect ∈ (serveClients recv clients).1, effect.Proper := by
  induction clients with
  | nil =>
      intro effect member
      cases member
  | cons client clients ih =>
      cases found : recv client.socket with
      | none =>
          simp only [serveClients, found] at quiet ⊢
          exact ih quiet
      | some data =>
          rcases served_eq : serveBuffer client.socket
            (client.buff ++ data).length (client.buff ++ data) with
            ⟨effects, buff, raised⟩
          simp only [serveClients, found, served_eq] at quiet ⊢
          cases raised with
          | true => cases quiet
          | false =>
              have known := serveBuffer_known
                (congrArg (fun done => done.2.2) served_eq)
              have served := serveBuffer_eq client.socket
                (client.buff ++ data).length (client.buff ++ data) known
              rw [served_eq] at served
              cases served
              intro effect member
              rcases List.mem_cons.mp member with rfl | inside
              · trivial
              · rcases List.mem_append.mp inside with own | later
                · obtain ⟨packet, handled, rfl⟩ := List.mem_map.mp own
                  exact ⟨packet, known packet handled, rfl, rfl⟩
                · exact ih quiet effect later

structure Ran (effects : List ServerEffect) (talk after : Talk R) : Prop where
  quad : after.quad = talk.quad
  calls : after.calls = talk.calls ++ deviceCalls effects
  replies : ∀ socket, ∃ replies,
    List.Forall₂ (Answers talk.quad) (packetsFor socket effects) replies ∧
      sentTo socket after.sent = sentTo socket talk.sent ++
        Packet.code.encodeAll (replies.flatMap Option.toList)

private theorem runEffects_ran {effects : List ServerEffect}
    {talk after : Talk R}
    (proper : ∀ effect ∈ effects, effect.Proper)
    (ran : runEffects talkCallback effects talk = (after, false)) :
    Ran effects talk after := by
  induction effects generalizing talk with
  | nil =>
      cases ran
      refine ⟨rfl, (List.append_nil _).symm, ?_⟩
      intro socket
      exact ⟨[], .nil, (List.append_nil _).symm⟩
  | cons effect effects ih =>
      have rest := fun other member =>
        proper other (List.mem_cons_of_mem _ member)
      cases effect with
      | received socket data =>
          obtain ⟨quad, calls, replies⟩ := ih rest ran
          exact ⟨quad, calls, replies⟩
      | called call socket newArray =>
          obtain ⟨packet, known, rfl, rfl⟩ :=
            proper _ List.mem_cons_self
          unfold runEffects at ran
          dsimp only at ran
          split at ran
          · cases ran
          · next quiet =>
              rcases called_eq : talkCallback packet.callback socket
                packet.encode talk with ⟨middle, raised⟩
              rw [called_eq] at ran quiet
              rw [Bool.not_eq_true] at quiet
              change raised = false at quiet
              subst quiet
              obtain ⟨reply, answers, quad, calls, sent⟩ :=
                talkCallback_answered known called_eq
              obtain ⟨later_quad, later_calls, later_replies⟩ := ih rest ran
              refine ⟨later_quad.trans quad, ?_, ?_⟩
              · rw [later_calls, calls, List.append_assoc,
                  ← deviceCalls_append]
                rfl
              · intro other
                obtain ⟨replies, answered, bytes⟩ := later_replies other
                rw [quad] at answered
                have front : packetsFor other
                    (.called packet.callback socket packet.encode :: effects) =
                      packetsFor other
                        [.called packet.callback socket packet.encode] ++
                        packetsFor other effects :=
                  packetsFor_append other [_] effects
                have own := @packetsFor_handled socket
                  [.called packet.callback socket packet.encode] [packet]
                  (logged_calls socket [packet]).2
                rw [bytes, sent other, front, List.append_assoc]
                by_cases here : other = socket
                · subst here
                  refine ⟨reply :: replies, ?_, ?_⟩
                  · rw [own]
                    exact .cons answers answered
                  · rw [if_pos rfl, List.flatMap_cons,
                      Packet.code.encodeAll_append]
                · have nothing : packetsFor other
                      [.called packet.callback socket packet.encode] = [] :=
                    @packetsFor_handled other _ []
                      (unlogged_calls here [packet]).2
                  refine ⟨replies, ?_, ?_⟩
                  · rw [nothing]
                    exact answered
                  · rw [if_neg here, List.nil_append]

private theorem callsFor_other (recv : Nat → Option (List UInt8))
    (clients : List Client) {socket : Nat}
    (absent : socket ∉ clients.map Client.socket)
    (quiet : (serveClients recv clients).2.2 = false) :
    callsFor socket (serveClients recv clients).1 = [] := by
  induction clients with
  | nil => rfl
  | cons client clients ih =>
      rw [List.map_cons, List.mem_cons, not_or] at absent
      cases found : recv client.socket with
      | none =>
          simp only [serveClients, found] at quiet ⊢
          exact ih absent.2 quiet
      | some data =>
          rcases served_eq : serveBuffer client.socket
            (client.buff ++ data).length (client.buff ++ data) with
            ⟨effects, buff, raised⟩
          simp only [serveClients, found, served_eq] at quiet ⊢
          cases raised with
          | true => cases quiet
          | false =>
              have known := serveBuffer_known
                (congrArg (fun done => done.2.2) served_eq)
              have served := serveBuffer_eq client.socket
                (client.buff ++ data).length (client.buff ++ data) known
              rw [served_eq] at served
              cases served
              rw [if_neg Bool.false_ne_true, callsFor_received, callsFor_append,
                (unlogged_calls absent.1 _).2]
              exact ih absent.2 quiet

private theorem deviceCalls_served (recv : Nat → Option (List UInt8))
    (clients : List Client) (distinct : (clients.map Client.socket).Nodup)
    (quiet : (serveClients recv clients).2.2 = false) :
    (deviceCalls (serveClients recv clients).1 : List (CopterCall R)) =
      (clients.map Client.socket).flatMap (fun socket =>
        (packetsFor socket (serveClients recv clients).1).flatMap
          packetCalls) := by
  induction clients with
  | nil => rfl
  | cons client clients ih =>
      obtain ⟨fresh, distinct_rest⟩ := List.nodup_cons.mp distinct
      rw [List.map_cons, List.flatMap_cons]
      cases found : recv client.socket with
      | none =>
          simp only [serveClients, found] at quiet ⊢
          have nothing : packetsFor client.socket
              (serveClients recv clients).1 = [] := by
            unfold packetsFor
            rw [callsFor_other recv clients fresh quiet]
            rfl
          rw [nothing]
          exact ih distinct_rest quiet
      | some data =>
          rcases served_eq : serveBuffer client.socket
            (client.buff ++ data).length (client.buff ++ data) with
            ⟨effects, buff, raised⟩
          simp only [serveClients, found, served_eq] at quiet ⊢
          cases raised with
          | true => cases quiet
          | false =>
              have known := serveBuffer_known
                (congrArg (fun done => done.2.2) served_eq)
              have served := serveBuffer_eq client.socket
                (client.buff ++ data).length (client.buff ++ data) known
              rw [served_eq] at served
              cases served
              generalize (Packet.code.decodeUpTo (client.buff ++ data).length
                (client.buff ++ data)).1 = packets
              rw [if_neg Bool.false_ne_true] at quiet ⊢
              have entries : ∀ socket, packetsFor socket
                  (.received client.socket data ::
                    (packets.map (fun packet => ServerEffect.called
                      packet.callback client.socket packet.encode) ++
                      (serveClients recv clients).1)) =
                  packetsFor socket (packets.map (fun packet =>
                    ServerEffect.called packet.callback client.socket
                      packet.encode)) ++
                    packetsFor socket (serveClients recv clients).1 :=
                fun socket => packetsFor_append socket _ _
              have nothing : packetsFor client.socket
                  (serveClients recv clients).1 = [] := by
                unfold packetsFor
                rw [callsFor_other recv clients fresh quiet]
                rfl
              have own := packetsFor_handled
                (logged_calls client.socket packets).2
              have calls : (deviceCalls (packets.map (fun packet =>
                  ServerEffect.called packet.callback client.socket
                    packet.encode)) : List (CopterCall R)) =
                    packets.flatMap packetCalls := by
                unfold deviceCalls
                rw [List.flatMap_map]
                apply List.flatMap_congr
                intro packet _
                unfold packetCalls
                cases packet.callback with
                | info => rfl
                | api => rfl
              rw [entries, own, nothing, List.append_nil, ← calls]
              refine (deviceCalls_append _ _).trans ?_
              congr 1
              rw [ih distinct_rest quiet]
              apply List.flatMap_congr
              intro socket member
              have other : socket ≠ client.socket :=
                fun same => fresh (same ▸ member)
              have unlogged := @packetsFor_handled socket _ []
                (unlogged_calls other packets).2
              rw [entries, unlogged, List.nil_append]

/-! ### All rounds -/

def serverEvents (ip : String) (rounds : List Round) : List ServerEvent :=
  .accept (some ip) :: rounds.flatMap (fun round =>
    [.loop round.recv, .accept round.incoming])

def heard (rounds : List Round) : Option (Copter R) :=
  rounds.foldlM (fun quad round => PyServ.processed quad round.cmd) .start

def arrivedPackets (ip : String) (socket : Nat) (rounds : List Round) :
    List Packet :=
  (Packet.code.decodeAll (arrivedFrom socket 0 (serverEvents ip rounds))).1

/-- The packets of a client that a round makes whole. -/
def completed (ip : String) (socket : Nat) (rounds : List Round)
    (round : Round) : List Packet :=
  (arrivedPackets ip socket (rounds ++ [round])).drop
    (arrivedPackets ip socket rounds).length

/-- What is due after some rounds, in which the clients have been served in their
order: the calls of their COMMAND packets, and the answers to each of them, which
tell the values of the object in the round that made the packet whole. -/
inductive Due (ip : String) :
    List Round → List (CopterCall R) → (Nat → List Packet) → Prop where
  | start : Due ip [] [.sendConnect] (fun _ => [])
  | round {rounds : List Round} {calls : List (CopterCall R)}
      {answers : Nat → List Packet} {round : Round} {quad : Copter R}
      {replies : Nat → List (Option Packet)}
      (earlier : Due ip rounds calls answers)
      (now : heard (rounds ++ [round]) = some quad)
      (answered : ∀ socket, List.Forall₂ (Answers quad)
        (completed ip socket rounds round) (replies socket)) :
      Due ip (rounds ++ [round])
        (calls ++ (List.range (accepts (serverEvents ip rounds))).flatMap
          (fun socket =>
            (completed ip socket rounds round).flatMap packetCalls))
        (fun socket => answers socket ++ (replies socket).flatMap Option.toList)

structure Alive (ip : String) (rounds : List Round) (serv : PyServ R) :
    Prop where
  q : serv.q = (Server.start.run (serverEvents ip rounds)).q
  arrived : Arrived (serverEvents ip rounds)
    (Server.start.run (serverEvents ip rounds))
  quad : heard rounds = some serv.talk.quad
  due : ∃ answers, Due ip rounds serv.talk.calls answers ∧
    ∀ socket, sentTo socket serv.talk.sent =
      Packet.code.encodeAll (answers socket)

private theorem alive_start (ip : String) :
    Alive ip [] (PyServ.start ip : PyServ R) where
  q := rfl
  arrived := arrived_run _ (fun socket packet member => by cases member)
  quad := rfl
  due := ⟨_, .start, fun _ => rfl⟩

theorem Arrived.packets {events : List ServerEvent} {server : Server}
    (arrived : Arrived events server) (socket : Nat) :
    packetsFor socket server.log =
      (Packet.code.decodeAll (arrivedFrom socket 0 events)).1 := by
  rw [packetsFor_handled (arrived.serving.handled socket), arrived.received]

theorem serverEvents_concat (ip : String) (rounds : List Round)
    (round : Round) :
    serverEvents ip (rounds ++ [round]) =
      serverEvents ip rounds ++ [.loop round.recv] ++
        [.accept round.incoming] := by
  unfold serverEvents
  rw [List.flatMap_append, List.flatMap_singleton, ← List.cons_append,
    List.append_assoc]
  rfl

theorem Alive.round {ip : String} {rounds : List Round} {serv : PyServ R}
    (alive : Alive ip rounds serv) (quiet : serv.raised = false)
    (round : Round) (still : (serv.round round).raised = false) :
    Alive ip (rounds ++ [round]) (serv.round round) := by
  have events : Server.start.run (serverEvents ip (rounds ++ [round])) =
      ((Server.start.run (serverEvents ip rounds)).step
        (.loop round.recv)).step (.accept round.incoming) := by
    rw [serverEvents_concat]
    unfold Server.run
    rw [List.foldl_append, List.foldl_append]
    rfl
  obtain ⟨q, arrived, quad, answers, due, sent⟩ := alive
  generalize Server.start.run (serverEvents ip rounds) = server at events q arrived
  unfold PyServ.round at still ⊢
  rw [quiet, if_neg Bool.false_ne_true] at still ⊢
  cases processed : PyServ.processed serv.talk.quad round.cmd with
  | none =>
      rw [processed] at still
      cases still
  | some next =>
      rw [processed] at still
      dsimp only at still ⊢
      rcases done_eq : talkClients talkCallback round.recv serv.q
        { serv.talk with quad := next } with ⟨after, later, raised⟩
      rw [done_eq] at still
      dsimp only at still ⊢
      cases raised with
      | true => cases still
      | false =>
          rw [if_neg Bool.false_ne_true]
          obtain ⟨effects, served, ran⟩ := talkClients_eq done_eq
          rw [q] at served
          have no_raise : (serveClients round.recv server.q).2.2 = false :=
            congrArg (fun done => done.2.2) served
          have distinct : (server.q.map Client.socket).Nodup := by
            rw [arrived.serving.sockets]
            exact List.nodup_range
          have looped : server.step (.loop round.recv) =
              { q := later, log := server.log ++ effects,
                raised := server.raised } := by
            unfold Server.step
            dsimp only
            rw [served, Bool.or_false]
          have known_later := serveClients_known round.recv server.q distinct
            arrived.serving.matched arrived.known no_raise
          have arrived_later := (arrived.loop known_later).accept round.incoming
          have proper := serveClients_proper round.recv server.q no_raise
          have made := @deviceCalls_served R _ round.recv server.q distinct
            no_raise
          rw [served] at proper made
          obtain ⟨same, more_calls, more_replies⟩ := runEffects_ran proper ran
          choose replies answered bytes using more_replies
          have heard_now : heard (rounds ++ [round]) = some next := by
            unfold heard at quad ⊢
            rw [List.foldlM_append, quad]
            change (PyServ.processed serv.talk.quad round.cmd).bind some = _
            rw [processed]
            rfl
          have log : ((server.step (.loop round.recv)).step
              (.accept round.incoming)).log = server.log ++ effects := by
            rw [looped]
            cases round.incoming with
            | none => rfl
            | some other => rfl
          have fresh : ∀ socket,
              completed ip socket rounds round = packetsFor socket effects := by
            intro socket
            have whole := arrived_later.packets socket
            rw [log, packetsFor_append, arrived.packets,
              ← serverEvents_concat] at whole
            unfold completed arrivedPackets
            rw [← whole, List.drop_left]
          constructor
          · rw [events, looped]
            cases round.incoming with
            | none => rfl
            | some other => rfl
          · rw [events, serverEvents_concat]
            exact arrived_later
          · rw [heard_now, same]
          · refine ⟨fun socket => answers socket ++
              (replies socket).flatMap Option.toList, ?_, ?_⟩
            · rw [more_calls, made, arrived.serving.sockets, arrived.clients]
              simp only [← fresh]
              exact .round due heard_now (fun socket => by
                rw [fresh]
                exact answered socket)
            · intro socket
              rw [bytes, SelfDelimiting.Code.encodeAll_append, ← sent]

private theorem PyServ.run_raised {serv : PyServ R}
    (raised : serv.raised = true)
    (rounds : List Round) : (serv.run rounds).raised = true := by
  induction rounds with
  | nil => exact raised
  | cons round rounds ih =>
      have same : serv.round round = serv := by
        unfold PyServ.round
        rw [if_pos raised]
      unfold PyServ.run at ih ⊢
      rw [List.foldl_cons, same]
      exact ih

theorem alive_run (ip : String) (rounds : List Round)
    (quiet : ((PyServ.start ip : PyServ R).run rounds).raised = false) :
    Alive ip rounds ((PyServ.start ip : PyServ R).run rounds) := by
  induction rounds using List.reverseRecOn with
  | nil => exact alive_start ip
  | append_singleton rounds round ih =>
      have stepped : (PyServ.start ip : PyServ R).run (rounds ++ [round]) =
          ((PyServ.start ip : PyServ R).run rounds).round round :=
        List.foldl_append
      rw [stepped] at quiet ⊢
      have before : ((PyServ.start ip : PyServ R).run rounds).raised =
          false := by
        cases raised : ((PyServ.start ip : PyServ R).run rounds).raised with
        | false => rfl
        | true =>
            have dead := PyServ.run_raised raised [round]
            change (PyServ.round _ round).raised = true at dead
            rw [quiet] at dead
            cases dead
      exact (ih before).round before round quiet

/-- However the bytes of any number of clients arrive, the calls made on the object
and what every client is sent are what is due, and nothing else. -/
theorem pyServ_answers (ip : String) (rounds : List Round)
    (quiet : ((PyServ.start ip : PyServ R).run rounds).raised = false) :
    let serv : PyServ R := (PyServ.start ip).run rounds
    ∃ answers, Due ip rounds serv.talk.calls answers ∧
      ∀ socket, sentTo socket serv.talk.sent =
        Packet.code.encodeAll (answers socket) :=
  (alive_run ip rounds quiet).due

end

/-- ARM in two pieces, then a request for the angles. -/
def armRounds : List Round :=
  [⟨none, fun socket => if socket = 0 then some [0xB0, 2] else none, none⟩,
    ⟨some ⟨'c', []⟩,
      fun socket => if socket = 0 then some [0, 0xA0, 1, 0] else none, none⟩]

theorem pyServ_answers_of_arm :
    let serv : PyServ Float32 := (PyServ.start "10.0.0.2").run armRounds
    (arrivedPackets "10.0.0.2" 0 armRounds).length = 2 ∧
      (sentTo 0 serv.talk.sent).length = 34 ∧
      ∃ answers, Due "10.0.0.2" armRounds serv.talk.calls answers ∧
        ∀ socket, sentTo socket serv.talk.sent =
          Packet.code.encodeAll (answers socket) :=
  ⟨by decide +kernel, by decide +kernel,
    pyServ_answers "10.0.0.2" armRounds (by decide +kernel)⟩

end Quadcopter

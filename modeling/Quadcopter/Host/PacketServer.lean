import Mathlib.Data.List.Induction
import Mathlib.Data.List.Range
import Quadcopter.Host.TalkMisc
import Quadcopter.Library.SelfDelimiting

/-
The network server of the copter (controller/talk_module, class server of
talk_misc.py): clients are accepted, what they send is collected in one buffer a
client, and every packet that is there whole is handed to a callback.

The callbacks return.  A connection is the number of those accepted before it.
-/

namespace Quadcopter

structure Packet where
  command : UInt8
  subCommand : UInt8
  data : List UInt8
  data_small : data.length < UInt8.size
deriving DecidableEq

namespace Packet

def encode (packet : Packet) : List UInt8 :=
  packet.command :: packet.subCommand :: UInt8.ofNat packet.data.length ::
    packet.data

def decode : List UInt8 → Option (Packet × List UInt8)
  | command :: subCommand :: length :: rest =>
      if length.toNat ≤ rest.length then
        some
          ({ command, subCommand
             data := rest.take length.toNat
             data_small :=
              Nat.lt_of_le_of_lt (List.length_take_le _ _) length.toNat_lt },
            rest.drop length.toNat)
      else none
  | _ => none

theorem length_toNat (packet : Packet) :
    (UInt8.ofNat packet.data.length).toNat = packet.data.length :=
  UInt8.toNat_ofNat_of_lt' packet.data_small

theorem decode_encode (packet : Packet) (rest : List UInt8) :
    decode (packet.encode ++ rest) = some (packet, rest) := by
  have size := packet.length_toNat
  have whole : (UInt8.ofNat packet.data.length).toNat ≤
      (packet.data ++ rest).length := by
    rw [size, List.length_append]
    exact Nat.le_add_right _ _
  unfold encode decode
  simp only [List.cons_append]
  rw [if_pos whole]
  simp only [List.take_left' size.symm, List.drop_left' size.symm]

theorem encode_of_decode (stream : List UInt8) (packet : Packet)
    (rest : List UInt8) (found : decode stream = some (packet, rest)) :
    packet.encode ++ rest = stream := by
  cases stream with
  | nil => cases found
  | cons command stream =>
      cases stream with
      | nil => cases found
      | cons subCommand stream =>
          cases stream with
          | nil => cases found
          | cons length bytes =>
              simp only [decode] at found
              by_cases whole : length.toNat ≤ bytes.length
              · rw [if_pos whole, Option.some.injEq, Prod.mk.injEq] at found
                obtain ⟨rfl, rfl⟩ := found
                have size : (bytes.take length.toNat).length = length.toNat :=
                  List.length_take_of_le whole
                simp only [encode, size, List.cons_append,
                  List.take_append_drop, UInt8.ofNat_toNat]
              · rw [if_neg whole] at found
                cases found

def code : SelfDelimiting.Code Packet UInt8 where
  encode := encode
  decode := decode
  decode_encode := decode_encode
  encode_of_decode := encode_of_decode
  encode_ne_nil := fun _ => List.cons_ne_nil _ _

def Known (packet : Packet) : Prop :=
  packet.command = TalkCons.getInfo ∨ packet.command = TalkCons.command

end Packet

/-! ### class server -/

structure Client where
  socket : Nat
  ip : String
  buff : List UInt8

inductive Callback where
  | info
  | api
deriving DecidableEq, Repr

/-- What the server does, in order: the data that recv returns, and the
callbacks. -/
inductive ServerEffect where
  | received (socket : Nat) (data : List UInt8)
  | called (callback : Callback) (socket : Nat) (newArray : List UInt8)
deriving DecidableEq, Repr

/-- The bytes popped for one packet, if it is there whole. -/
def popPacket (buff : List UInt8) : Option (List UInt8 × List UInt8) :=
  match buff with
  | _ :: _ :: length :: _ =>
      if length.toNat + 3 ≤ buff.length then
        some (buff.take (length.toNat + 3), buff.drop (length.toNat + 3))
      else none
  | _ => none

def callbackOf (newArray : List UInt8) : Option Callback :=
  if newArray.head? = some TalkCons.getInfo then some .info
  else if newArray.head? = some TalkCons.command then some .api
  else none

/-- The while loop on one buffer: the callbacks, what stays in the buffer, and
whether an unknown call was raised. -/
def serveBuffer (socket : Nat) :
    (fuel : Nat) → List UInt8 → List ServerEffect × List UInt8 × Bool
  | 0, buff => ([], buff, false)
  | fuel + 1, buff =>
      match popPacket buff with
      | none => ([], buff, false)
      | some (newArray, buff) =>
          match callbackOf newArray with
          | none => ([], buff, true)
          | some callback =>
              let rest := serveBuffer socket fuel buff
              (.called callback socket newArray :: rest.1, rest.2)

/-- The for loop of `loop`.  `recv` is `none` where it raises socket.error. -/
def serveClients (recv : Nat → Option (List UInt8)) :
    List Client → List ServerEffect × List Client × Bool
  | [] => ([], [], false)
  | client :: clients =>
      match recv client.socket with
      | none =>
          let rest := serveClients recv clients
          (rest.1, client :: rest.2.1, rest.2.2)
      | some data =>
          let buff := client.buff ++ data
          let served := serveBuffer client.socket buff.length buff
          let client := { client with buff := served.2.1 }
          if served.2.2 then
            (.received client.socket data :: served.1, client :: clients, true)
          else
            let rest := serveClients recv clients
            (.received client.socket data :: (served.1 ++ rest.1),
              client :: rest.2.1, rest.2.2)

/-- `raised` tells that a `loop` was left by an exception. -/
structure Server where
  q : List Client
  log : List ServerEffect
  raised : Bool

inductive ServerEvent where
  | accept (incoming : Option String)
  | loop (recv : Nat → Option (List UInt8))

namespace Server

def start : Server := { q := [], log := [], raised := false }

def step (server : Server) : ServerEvent → Server
  | .accept none => server
  | .accept (some ip) =>
      { server with q := server.q ++ [⟨server.q.length, ip, []⟩] }
  | .loop recv =>
      let done := serveClients recv server.q
      { q := done.2.1
        log := server.log ++ done.1
        raised := server.raised || done.2.2 }

def run (server : Server) (events : List ServerEvent) : Server :=
  events.foldl step server

end Server

def receivedFrom (socket : Nat) (log : List ServerEffect) : List UInt8 :=
  log.flatMap (fun
    | .received from_ data => if from_ = socket then data else []
    | .called _ _ _ => [])

def callsFor (socket : Nat) (log : List ServerEffect) :
    List (Callback × List UInt8) :=
  log.filterMap (fun
    | .received _ _ => none
    | .called callback for_ newArray =>
        if for_ = socket then some (callback, newArray) else none)

def accepts : List ServerEvent → Nat
  | [] => 0
  | .accept (some _) :: events => accepts events + 1
  | _ :: events => accepts events

/-- What recv returns for a client in an event, if it is one of the first
`connected`. -/
def ServerEvent.arrival (socket connected : Nat) : ServerEvent → List UInt8
  | .accept _ => []
  | .loop recv => if socket < connected then (recv socket).getD [] else []

def arrivedFrom (socket connected : Nat) : List ServerEvent → List UInt8
  | [] => []
  | event :: events =>
      event.arrival socket connected ++
        arrivedFrom socket (connected + accepts [event]) events

private theorem accepts_append (first second : List ServerEvent) :
    accepts (first ++ second) = accepts first + accepts second := by
  induction first with
  | nil => exact (Nat.zero_add _).symm
  | cons event first ih =>
      cases event with
      | loop recv => exact ih
      | accept incoming =>
          cases incoming with
          | none => exact ih
          | some ip =>
              rw [List.cons_append, accepts, accepts, ih]
              exact Nat.add_right_comm _ _ _

theorem arrivedFrom_concat (socket connected : Nat) (events : List ServerEvent)
    (event : ServerEvent) :
    arrivedFrom socket connected (events ++ [event]) =
      arrivedFrom socket connected events ++
        event.arrival socket (connected + accepts events) := by
  induction events generalizing connected with
  | nil => exact List.append_nil _
  | cons first events ih =>
      have count : accepts (first :: events) =
          accepts [first] + accepts events := accepts_append [first] events
      rw [List.cons_append, arrivedFrom, arrivedFrom, ih, count,
        Nat.add_assoc, List.append_assoc]

def Packet.callback (packet : Packet) : Callback :=
  if packet.command = TalkCons.getInfo then .info else .api

def Packet.call (packet : Packet) : Callback × List UInt8 :=
  (packet.callback, packet.encode)

private theorem callbackOf_encode {packet : Packet} (known : packet.Known) :
    callbackOf packet.encode = some packet.callback := by
  unfold callbackOf Packet.callback Packet.encode
  simp only [List.head?_cons, Option.some.injEq]
  rcases known with info | command
  · rw [if_pos info, if_pos info]
  · have different : TalkCons.command ≠ TalkCons.getInfo := by decide
    rw [command, if_neg different, if_pos rfl, if_neg different]

theorem popPacket_eq (buff : List UInt8) :
    popPacket buff =
      (Packet.decode buff).map (fun cut => (cut.1.encode, cut.2)) := by
  match buff with
  | [] => rfl
  | [_] => rfl
  | [_, _] => rfl
  | command :: subCommand :: length :: rest =>
      unfold popPacket Packet.decode
      by_cases whole : length.toNat ≤ rest.length
      · have size : (rest.take length.toNat).length = length.toNat :=
          List.length_take_of_le whole
        simp [whole, Packet.encode, size]
      · simp [whole]

/-- The loop handles the packets that are there whole, and keeps the rest. -/
theorem serveBuffer_eq (socket fuel : Nat) (buff : List UInt8)
    (known : ∀ packet ∈ (Packet.code.decodeUpTo fuel buff).1, packet.Known) :
    serveBuffer socket fuel buff =
      ((Packet.code.decodeUpTo fuel buff).1.map (fun packet =>
          .called packet.callback socket packet.encode),
        (Packet.code.decodeUpTo fuel buff).2, false) := by
  induction fuel generalizing buff with
  | zero => rfl
  | succ fuel ih =>
      have popped := popPacket_eq buff
      cases found : Packet.decode buff with
      | none =>
          rw [found, Option.map_none] at popped
          have found_code : Packet.code.decode buff = none := found
          simp [serveBuffer, SelfDelimiting.Code.decodeUpTo, popped, found_code]
      | some cut =>
          rw [found, Option.map_some] at popped
          have found_code : Packet.code.decode buff = some cut := found
          simp only [SelfDelimiting.Code.decodeUpTo, found_code] at known ⊢
          have first := known cut.1 List.mem_cons_self
          have rest := ih cut.2
            (fun packet member => known packet (List.mem_cons_of_mem _ member))
          simp only [serveBuffer, popped, callbackOf_encode first, rest,
            List.map_cons]

@[simp] theorem receivedFrom_append (socket : Nat)
    (first second : List ServerEffect) :
    receivedFrom socket (first ++ second) =
      receivedFrom socket first ++ receivedFrom socket second :=
  List.flatMap_append

@[simp] theorem callsFor_append (socket : Nat)
    (first second : List ServerEffect) :
    callsFor socket (first ++ second) =
      callsFor socket first ++ callsFor socket second :=
  List.filterMap_append

theorem callsFor_received (socket from_ : Nat) (data : List UInt8)
    (log : List ServerEffect) :
    callsFor socket (.received from_ data :: log) = callsFor socket log := rfl

theorem receivedFrom_received (socket : Nat) (data : List UInt8)
    (log : List ServerEffect) :
    receivedFrom socket (.received socket data :: log) =
      data ++ receivedFrom socket log := by
  simp [receivedFrom]

def Unlogged (socket : Nat) (effects : List ServerEffect) : Prop :=
  receivedFrom socket effects = [] ∧ callsFor socket effects = []

theorem unlogged_calls {socket other : Nat} (different : other ≠ socket)
    (packets : List Packet) :
    Unlogged other (packets.map (fun packet =>
      ServerEffect.called packet.callback socket packet.encode)) := by
  constructor
  · induction packets with
    | nil => rfl
    | cons packet packets ih => exact ih
  · induction packets with
    | nil => rfl
    | cons packet packets ih =>
        simp only [callsFor, List.map_cons, List.filterMap_cons,
          if_neg different.symm]
        exact ih

theorem logged_calls (socket : Nat) (packets : List Packet) :
    receivedFrom socket (packets.map (fun packet =>
        ServerEffect.called packet.callback socket packet.encode)) = [] ∧
      callsFor socket (packets.map (fun packet =>
        ServerEffect.called packet.callback socket packet.encode)) =
        packets.map Packet.call := by
  constructor
  · induction packets with
    | nil => rfl
    | cons packet packets ih => exact ih
  · induction packets with
    | nil => rfl
    | cons packet packets ih =>
        simp only [callsFor, List.map_cons, List.filterMap_cons, if_pos]
        exact congrArg (List.cons packet.call) ih

def Matched (log : List ServerEffect) (client : Client) : Prop :=
  ∃ handled : List Packet,
    receivedFrom client.socket log =
        Packet.code.encodeAll handled ++ client.buff ∧
      Packet.code.decode client.buff = none ∧
      callsFor client.socket log = handled.map Packet.call

def KnownFrom (log : List ServerEffect) : Prop :=
  ∀ socket, ∀ packet ∈ (Packet.code.decodeAll (receivedFrom socket log)).1,
    packet.Known

theorem KnownFrom.front {log more : List ServerEffect}
    (known : KnownFrom (log ++ more)) : KnownFrom log := by
  intro socket packet member
  apply known socket packet
  rw [receivedFrom_append]
  exact (Packet.code.decodeAll_mono (List.prefix_append _ _)).subset member

theorem Matched.unlogged {log effects : List ServerEffect} {client : Client}
    (matched : Matched log client)
    (unlogged : Unlogged client.socket effects) :
    Matched (log ++ effects) client := by
  obtain ⟨handled, received, stops, calls⟩ := matched
  refine ⟨handled, ?_, stops, ?_⟩
  · rw [receivedFrom_append, unlogged.1, List.append_nil, received]
  · rw [callsFor_append, unlogged.2, List.append_nil, calls]

/-! ### One loop -/

theorem Matched.served {log more : List ServerEffect} {client : Client}
    {data : List UInt8} (matched : Matched log client)
    (known : KnownFrom (log ++ .received client.socket data :: more)) :
    ∃ effects rest,
      serveBuffer client.socket (client.buff ++ data).length
        (client.buff ++ data) = (effects, rest, false) ∧
      Matched (log ++ .received client.socket data :: effects)
        { client with buff := rest } ∧
      ∀ other, other ≠ client.socket →
        Unlogged other (.received client.socket data :: effects) := by
  obtain ⟨handled, received, stops, calls⟩ := matched
  generalize cut_eq : Packet.code.decodeAll (client.buff ++ data) = cut
  have whole := Packet.code.decodeAll_whole (client.buff ++ data)
  have incomplete := Packet.code.decodeAll_incomplete (client.buff ++ data)
  rw [cut_eq] at whole incomplete
  have arrived : receivedFrom client.socket
      (log ++ [.received client.socket data]) =
        Packet.code.encodeAll handled ++ (client.buff ++ data) := by
    rw [receivedFrom_append, received, List.append_assoc]
    simp [receivedFrom]
  have here : ∀ packet ∈ cut.1, packet.Known := by
    intro packet member
    rw [← List.singleton_append, ← List.append_assoc] at known
    apply known.front client.socket packet
    rw [arrived, Packet.code.decodeAll_encodeAll_append, cut_eq]
    exact List.mem_append_right _ member
  have served := serveBuffer_eq client.socket (client.buff ++ data).length
    (client.buff ++ data)
  change (∀ packet ∈ (Packet.code.decodeAll (client.buff ++ data)).1,
    packet.Known) → _ = (List.map _ (Packet.code.decodeAll _).1,
      (Packet.code.decodeAll _).2, false) at served
  rw [cut_eq] at served
  obtain ⟨no_data, own_calls⟩ := logged_calls client.socket cut.1
  refine ⟨_, _, served here, ⟨handled ++ cut.1, ?_, incomplete, ?_⟩, ?_⟩
  · rw [receivedFrom_append, receivedFrom_received, no_data, received,
      Packet.code.encodeAll_append, List.append_nil, List.append_assoc,
      List.append_assoc, whole]
  · rw [callsFor_append, callsFor_received, own_calls, calls, List.map_append]
  · intro other different
    obtain ⟨other_data, other_calls⟩ := unlogged_calls different cut.1
    constructor
    · rw [← other_data]
      simp [receivedFrom, different.symm]
    · exact other_calls

structure Served (log : List ServerEffect) (clients : List Client)
    (done : List ServerEffect × List Client × Bool) : Prop where
  quiet : done.2.2 = false
  sockets : done.2.1.map Client.socket = clients.map Client.socket
  matched : ∀ client ∈ done.2.1, Matched (log ++ done.1) client
  others : ∀ socket, socket ∉ clients.map Client.socket →
    Unlogged socket done.1

theorem Unlogged.append {socket : Nat} {first second : List ServerEffect}
    (one : Unlogged socket first) (two : Unlogged socket second) :
    Unlogged socket (first ++ second) := by
  constructor
  · rw [receivedFrom_append, one.1, two.1, List.append_nil]
  · rw [callsFor_append, one.2, two.2, List.append_nil]

/-- A client served before the others: it is a stranger to what they do, and they
are to what it did. -/
theorem Served.cons {log effects : List ServerEffect} {client left : Client}
    {clients : List Client} {done : List ServerEffect × List Client × Bool}
    (head : Matched (log ++ effects) left)
    (socket_eq : left.socket = client.socket)
    (fresh : client.socket ∉ clients.map Client.socket)
    (others : ∀ other, other ≠ client.socket → Unlogged other effects)
    (rest : Served (log ++ effects) clients done) :
    Served log (client :: clients)
      (effects ++ done.1, left :: done.2.1, done.2.2) := by
  constructor
  · exact rest.quiet
  · rw [List.map_cons, List.map_cons, socket_eq, rest.sockets]
  · intro other member
    rw [← List.append_assoc]
    rcases List.mem_cons.mp member with here | later
    · rw [here]
      apply head.unlogged
      rw [socket_eq]
      exact rest.others client.socket fresh
    · exact rest.matched other later
  · intro socket absent
    rw [List.map_cons, List.mem_cons, not_or] at absent
    exact (others socket absent.1).append (rest.others socket absent.2)

private theorem serveClients_served (recv : Nat → Option (List UInt8))
    (clients : List Client) {log : List ServerEffect}
    (distinct : (clients.map Client.socket).Nodup)
    (matched : ∀ client ∈ clients, Matched log client)
    (known : KnownFrom (log ++ (serveClients recv clients).1)) :
    Served log clients (serveClients recv clients) := by
  induction clients generalizing log with
  | nil =>
      constructor
      · rfl
      · rfl
      · intro client impossible
        cases impossible
      · intro _ _
        exact ⟨rfl, rfl⟩
  | cons client clients ih =>
      obtain ⟨fresh, distinct_rest⟩ := List.nodup_cons.mp distinct
      have head := matched client List.mem_cons_self
      have tail : ∀ other ∈ clients, Matched log other :=
        fun other member => matched other (List.mem_cons_of_mem _ member)
      cases found : recv client.socket with
      | none =>
          simp only [serveClients, found] at known ⊢
          have rest := ih distinct_rest tail known
          rw [← List.append_nil log] at head rest
          exact Served.cons head rfl fresh (fun _ _ => ⟨rfl, rfl⟩) rest
      | some data =>
          rcases served_eq : serveBuffer client.socket
            (client.buff ++ data).length (client.buff ++ data) with
            ⟨effects, buff, raised⟩
          simp only [serveClients, found, served_eq] at known ⊢
          cases raised with
          | true =>
              obtain ⟨_, _, same, _⟩ := head.served known
              rw [served_eq] at same
              cases same
          | false =>
              obtain ⟨_, _, same, head_matched, head_others⟩ :=
                head.served known
              rw [served_eq] at same
              cases same
              have tail_matched : ∀ other ∈ clients,
                  Matched (log ++ .received client.socket data :: effects)
                    other := by
                intro other member
                apply (tail other member).unlogged
                apply head_others
                intro same
                exact fresh (same ▸ List.mem_map_of_mem member)
              have known_rest : KnownFrom
                  ((log ++ .received client.socket data :: effects) ++
                    (serveClients recv clients).1) := by
                rw [List.append_assoc]
                exact known
              have rest := ih distinct_rest tail_matched known_rest
              exact Served.cons head_matched rfl fresh head_others rest

structure Serving (server : Server) : Prop where
  quiet : server.raised = false
  sockets : server.q.map Client.socket = List.range server.q.length
  matched : ∀ client ∈ server.q, Matched server.log client
  others : ∀ socket, server.q.length ≤ socket → Unlogged socket server.log

private theorem serving_start : Serving Server.start := by
  constructor
  · rfl
  · rfl
  · intro client impossible
    cases impossible
  · intro _ _
    exact ⟨rfl, rfl⟩

theorem Serving.accept {server : Server} (serving : Serving server)
    (ip : String) : Serving (server.step (.accept (some ip))) := by
  constructor
  · exact serving.quiet
  · simp [Server.step, serving.sockets, List.range_succ]
  · intro client member
    rcases List.mem_append.mp member with before | new
    · exact serving.matched client before
    · rw [List.mem_singleton.mp new]
      obtain ⟨no_data, no_calls⟩ :=
        serving.others server.q.length (Nat.le_refl _)
      exact ⟨[], no_data, rfl, no_calls⟩
  · intro socket beyond
    simp only [Server.step, List.length_append, List.length_singleton]
      at beyond
    exact serving.others socket (by omega)

theorem Serving.loop {server : Server} (serving : Serving server)
    {recv : Nat → Option (List UInt8)}
    (known : KnownFrom (server.step (.loop recv)).log) :
    Serving (server.step (.loop recv)) := by
  have distinct : (server.q.map Client.socket).Nodup := by
    rw [serving.sockets]
    exact List.nodup_range
  have served := serveClients_served recv server.q distinct serving.matched
    known
  have length_eq : (serveClients recv server.q).2.1.length =
      server.q.length := by
    have same := congrArg List.length served.sockets
    simpa using same
  constructor
  · simp [Server.step, serving.quiet, served.quiet]
  · simp only [Server.step, length_eq]
    exact served.sockets.trans serving.sockets
  · exact served.matched
  · intro socket beyond
    simp only [Server.step, length_eq] at beyond
    apply (serving.others socket beyond).append
    apply served.others
    rw [serving.sockets, List.mem_range]
    omega

/-! ### What has arrived -/

private theorem serveBuffer_receives (socket from_ fuel : Nat)
    (buff : List UInt8) :
    receivedFrom socket (serveBuffer from_ fuel buff).1 = [] := by
  induction fuel generalizing buff with
  | zero => rfl
  | succ fuel ih =>
      unfold serveBuffer
      cases popPacket buff with
      | none => rfl
      | some cut =>
          dsimp only
          cases callbackOf cut.1 with
          | none => rfl
          | some callback => exact ih cut.2

/-- The for loop takes what recv returns for each client, unless it is left by an
exception before. -/
theorem serveClients_receives (socket : Nat)
    (recv : Nat → Option (List UInt8)) (clients : List Client)
    (distinct : (clients.map Client.socket).Nodup) :
    receivedFrom socket (serveClients recv clients).1 <+:
        (if socket ∈ clients.map Client.socket then (recv socket).getD []
          else []) ∧
      ((serveClients recv clients).2.2 = false →
        receivedFrom socket (serveClients recv clients).1 =
          if socket ∈ clients.map Client.socket then (recv socket).getD []
          else []) := by
  induction clients with
  | nil => exact ⟨List.nil_prefix, fun _ => rfl⟩
  | cons client clients ih =>
      obtain ⟨fresh, distinct_rest⟩ := List.nodup_cons.mp distinct
      have rest := ih distinct_rest
      rw [List.map_cons]
      by_cases own : socket = client.socket
      · subst own
        rw [if_neg fresh] at rest
        rw [if_pos List.mem_cons_self]
        have nothing := List.prefix_nil.mp rest.1
        cases found : recv client.socket with
        | none =>
            simp only [serveClients, found]
            exact ⟨nothing ▸ List.nil_prefix, fun _ => nothing⟩
        | some data =>
            have unread := serveBuffer_receives client.socket client.socket
              (client.buff ++ data).length (client.buff ++ data)
            simp only [serveClients, found]
            split
            · rw [receivedFrom_received, unread, List.append_nil]
              exact ⟨List.prefix_refl _, fun _ => rfl⟩
            · rw [receivedFrom_received, receivedFrom_append, unread, nothing,
                List.append_nil, List.append_nil]
              exact ⟨List.prefix_refl _, fun _ => rfl⟩
      · have listed : socket ∈ client.socket :: clients.map Client.socket ↔
            socket ∈ clients.map Client.socket := by
          rw [List.mem_cons, or_iff_right own]
        simp only [listed]
        cases found : recv client.socket with
        | none =>
            simp only [serveClients, found]
            exact rest
        | some data =>
            have unread := serveBuffer_receives socket client.socket
              (client.buff ++ data).length (client.buff ++ data)
            simp only [serveClients, found]
            split
            · have nothing : receivedFrom socket (.received client.socket data ::
                  (serveBuffer client.socket (client.buff ++ data).length
                    (client.buff ++ data)).1) = [] := by
                simp only [receivedFrom, List.flatMap_cons,
                  if_neg (Ne.symm own), List.nil_append]
                exact unread
              rw [nothing]
              exact ⟨List.nil_prefix, fun quiet => by cases quiet⟩
            · have same : receivedFrom socket (.received client.socket data ::
                  ((serveBuffer client.socket (client.buff ++ data).length
                    (client.buff ++ data)).1 ++ (serveClients recv clients).1)) =
                  receivedFrom socket (serveClients recv clients).1 := by
                rw [← List.singleton_append, receivedFrom_append,
                  receivedFrom_append, unread]
                simp only [receivedFrom, List.flatMap_cons, List.flatMap_nil,
                  if_neg (Ne.symm own), List.append_nil, List.nil_append]
              rw [same]
              exact rest

private theorem Serving.mem_sockets {server : Server} (serving : Serving server)
    (socket : Nat) :
    socket ∈ server.q.map Client.socket ↔ socket < server.q.length := by
  rw [serving.sockets, List.mem_range]

structure Arrived (events : List ServerEvent) (server : Server) : Prop where
  serving : Serving server
  clients : server.q.length = accepts events
  known : KnownFrom server.log
  received : ∀ socket,
    receivedFrom socket server.log = arrivedFrom socket 0 events

theorem Arrived.accept {events : List ServerEvent} {server : Server}
    (arrived : Arrived events server) (incoming : Option String) :
    Arrived (events ++ [.accept incoming]) (server.step (.accept incoming)) := by
  have received : ∀ socket, receivedFrom socket server.log =
      arrivedFrom socket 0 (events ++ [.accept incoming]) := by
    intro socket
    rw [arrivedFrom_concat]
    exact (arrived.received socket).trans (List.append_nil _).symm
  cases incoming with
  | none =>
      refine ⟨arrived.serving, ?_, arrived.known, received⟩
      rw [accepts_append]
      exact arrived.clients
  | some ip =>
      refine ⟨arrived.serving.accept ip, ?_, arrived.known, received⟩
      rw [accepts_append, ← arrived.clients]
      exact List.length_append

theorem Arrived.arrives {events : List ServerEvent} {server : Server}
    (arrived : Arrived events server) (recv : Nat → Option (List UInt8))
    (socket : Nat) :
    arrivedFrom socket 0 (events ++ [.loop recv]) =
      receivedFrom socket server.log ++
        if socket ∈ server.q.map Client.socket then (recv socket).getD []
        else [] := by
  simp only [arrivedFrom_concat, ← arrived.received socket,
    arrived.serving.mem_sockets, arrived.clients, Nat.zero_add]
  rfl

theorem Arrived.loop {events : List ServerEvent} {server : Server}
    (arrived : Arrived events server) {recv : Nat → Option (List UInt8)}
    (known : KnownFrom (server.step (.loop recv)).log) :
    Arrived (events ++ [.loop recv]) (server.step (.loop recv)) := by
  have serving := arrived.serving.loop known
  have distinct : (server.q.map Client.socket).Nodup := by
    rw [arrived.serving.sockets]
    exact List.nodup_range
  have served := serveClients_served recv server.q distinct
    arrived.serving.matched known
  refine ⟨serving, ?_, known, fun socket => ?_⟩
  · have same := congrArg List.length served.sockets
    rw [List.length_map, List.length_map] at same
    rw [accepts_append, ← arrived.clients]
    exact same
  · rw [arrived.arrives]
    change receivedFrom socket (server.log ++ _) = _
    rw [receivedFrom_append,
      (serveClients_receives socket recv server.q distinct).2 served.quiet]

theorem arrived_run (events : List ServerEvent)
    (known : ∀ socket, ∀ packet ∈
      (Packet.code.decodeAll (arrivedFrom socket 0 events)).1, packet.Known) :
    Arrived events (Server.start.run events) := by
  induction events using List.reverseRecOn with
  | nil =>
      refine ⟨serving_start, rfl, ?_, fun _ => rfl⟩
      intro socket packet member
      cases member
  | append_singleton events event ih =>
      have stepped : Server.start.run (events ++ [event]) =
          (Server.start.run events).step event := List.foldl_append
      have before := ih (fun socket packet member =>
        known socket packet ((Packet.code.decodeAll_mono
          (arrivedFrom_concat socket 0 events event ▸
            List.prefix_append _ _)).subset member))
      rw [stepped]
      cases event with
      | accept incoming => exact before.accept incoming
      | loop recv =>
          have distinct : ((Server.start.run events).q.map
              Client.socket).Nodup := by
            rw [before.serving.sockets]
            exact List.nodup_range
          apply before.loop
          intro socket packet member
          apply known socket packet
          rw [before.arrives]
          refine (Packet.code.decodeAll_mono ?_).subset member
          change receivedFrom socket (_ ++ _) <+: _
          rw [receivedFrom_append]
          exact (List.prefix_append_right_inj _).mpr
            (serveClients_receives socket recv _ distinct).1

/-! ### Reassembly -/

/-- However the bytes of each client arrive, the callbacks of its packets that
have arrived whole are made, in order, and no others. -/
theorem server_reassembles (events : List ServerEvent)
    (packets : Nat → List Packet) (tail : Nat → List UInt8)
    (known : ∀ socket, ∀ packet ∈ packets socket, packet.Known)
    (incomplete : ∀ socket, Packet.decode (tail socket) = none)
    (sent : ∀ socket, arrivedFrom socket 0 events <+:
      Packet.code.encodeAll (packets socket) ++ tail socket) :
    (Server.start.run events).raised = false ∧
      ∀ socket, ∃ handled rest, handled <+: packets socket ∧
        arrivedFrom socket 0 events = Packet.code.encodeAll handled ++ rest ∧
        Packet.decode rest = none ∧
        callsFor socket (Server.start.run events).log =
          handled.map Packet.call := by
  have decoded : ∀ socket, (Packet.code.decodeAll
      (arrivedFrom socket 0 events)).1 <+: packets socket := by
    intro socket
    have grows := Packet.code.decodeAll_mono (sent socket)
    rw [Packet.code.decodeAll_eq _ _ (incomplete socket)] at grows
    exact grows
  have arrived := arrived_run events (fun socket packet member =>
    known socket packet ((decoded socket).subset member))
  refine ⟨arrived.serving.quiet, ?_⟩
  intro socket
  have prefix_packets := decoded socket
  rw [← arrived.received] at prefix_packets ⊢
  by_cases inside : socket < (Server.start.run events).q.length
  · have present := (arrived.serving.mem_sockets socket).mpr inside
    obtain ⟨client, member, rfl⟩ := List.mem_map.mp present
    obtain ⟨handled, received, stops, calls⟩ :=
      arrived.serving.matched client member
    refine ⟨handled, client.buff, ?_, received, stops, calls⟩
    rw [received, Packet.code.decodeAll_eq _ _ stops] at prefix_packets
    exact prefix_packets
  · obtain ⟨no_data, no_calls⟩ := arrived.serving.others socket (by omega)
    exact ⟨[], [], List.nil_prefix, no_data, rfl, no_calls⟩

def twoClients : List ServerEvent :=
  [.accept (some "10.0.0.2"), .accept (some "10.0.0.3"),
    .loop (fun socket => if socket = 0 then some [0xA0, 1] else none),
    .loop (fun socket =>
      if socket = 0 then some [0] else some [0xB0, 2, 1, 7, 0xB0])]

def twoClientsSend : Nat → List Packet
  | 0 => [⟨0xA0, 1, [], by decide⟩]
  | 1 => [⟨0xB0, 2, [7], by decide⟩]
  | _ => []

def twoClientsTail : Nat → List UInt8
  | 1 => [0xB0, 2]
  | _ => []

theorem server_reassembles_of_two :
    (Server.start.run twoClients).raised = false ∧
      ∀ socket, ∃ handled rest, handled <+: twoClientsSend socket ∧
        arrivedFrom socket 0 twoClients =
          Packet.code.encodeAll handled ++ rest ∧
        Packet.decode rest = none ∧
        callsFor socket (Server.start.run twoClients).log =
          handled.map Packet.call := by
  apply server_reassembles twoClients twoClientsSend twoClientsTail
  · intro socket packet member
    match socket with
    | 0 =>
        rw [List.mem_singleton.mp member]
        exact Or.inl rfl
    | 1 =>
        rw [List.mem_singleton.mp member]
        exact Or.inr rfl
    | _ + 2 => cases member
  · intro socket
    match socket with
    | 0 => rfl
    | 1 => rfl
    | _ + 2 => rfl
  · intro socket
    match socket with
    | 0 => decide
    | 1 => decide
    | other + 2 =>
        have nothing : arrivedFrom (other + 2) 0 twoClients = [] := by
          simp [twoClients, arrivedFrom, ServerEvent.arrival, accepts]
        rw [nothing]
        exact List.nil_prefix

end Quadcopter

import Quadcopter.Host.SetPoint
import Quadcopter.Host.TalkServer

/-
The ground station (controller/talk_module, py_client.py): what its joystick makes
of the m3, through the server on the copter.

`D` are Python's floats, and `single` is the value that struct.pack writes for one
of them in the format "f".
-/

namespace Quadcopter

variable {D R : Type}

structure Sample (D : Type) where
  axis0 : D
  axis1 : D
  axis4 : D
  button7 : Bool
  button4 : Bool

structure Buttons where
  armPressed : Bool
  disarmPressed : Bool
deriving DecidableEq

namespace PyClient

section

variable [CMath D]

def pitch (sample : Sample D) : D := sample.axis0 * 0.14

def roll (sample : Sample D) : D := sample.axis1 * 0.14

def yaw : D := 0.0

def throttle (sample : Sample D) : D :=
  (-sample.axis4 + 1.0) / 2.0 * 50000.0 + ((5000 : Int) : D)

end

variable [CFloat R]

/-- What is sent, in order; a `none` raises. -/
def processButtons (buttons : Buttons) (sample : Sample D) :
    List (Option (List UInt8)) × Buttons :=
  let format : ElementFormat R := floatFormat
  let armPressed := sample.button7
  let disarmPressed := sample.button4
  ((if armPressed && !buttons.armPressed then
        [packetPack format TalkCons.command TalkCons.arm none]
      else []) ++
      if disarmPressed && !buttons.disarmPressed then
        [packetPack format TalkCons.command TalkCons.disarm none]
      else [],
    { armPressed, disarmPressed })

variable [CMath D] (single : D → R)

def controls (sample : Sample D) : List R :=
  [single (pitch sample), single (roll sample), single yaw,
    single (throttle sample)]

def round (buttons : Buttons) (sample : Sample D) :
    List (Option (List UInt8)) × Buttons :=
  let pressed := processButtons (R := R) buttons sample
  (packetPack floatFormat TalkCons.command TalkCons.control
        (some (controls single sample)) ::
      (pressed.1 ++
        [packetPack (floatFormat : ElementFormat R) TalkCons.getInfo
          TalkCons.getAngles none]),
    pressed.2)

def rounds : Buttons → List (Sample D) → List (Option (List UInt8))
  | _, [] => []
  | buttons, sample :: samples =>
      let done := round single buttons sample
      done.1 ++ rounds done.2 samples

/-- main: the constants of its file, then a round for each sample. -/
def main (constants : List D) (samples : List (Sample D)) :
    List (Option (List UInt8)) :=
  packetPack floatFormat TalkCons.command TalkCons.tune
      (some (constants.map single)) ::
    rounds single { armPressed := false, disarmPressed := false } samples

def bytes (sends : List (Option (List UInt8))) : Option (List UInt8) :=
  (sends.mapM id).map List.flatten

end PyClient

/-! ### The calls of a packet -/

section

variable [CFloat R]

/-- Sends that are packets, and the calls that the server makes for them. -/
def Carries (sends : List (Option (List UInt8)))
    (calls : List (CopterCall R)) : Prop :=
  ∃ packets : List Packet,
    sends = packets.map (fun packet => some packet.encode) ∧
      packets.flatMap packetCalls = calls

theorem Carries.append {first second : List (Option (List UInt8))}
    {calls more : List (CopterCall R)} (one : Carries first calls)
    (two : Carries second more) : Carries (first ++ second) (calls ++ more) := by
  obtain ⟨packets, rfl, rfl⟩ := one
  obtain ⟨others, rfl, rfl⟩ := two
  exact ⟨packets ++ others, (List.map_append ..).symm, List.flatMap_append⟩

private theorem PyClient.bytes_packets (packets : List Packet) :
    bytes (packets.map (fun packet => some packet.encode)) =
      some (Packet.code.encodeAll packets) := by
  have packed : (packets.map (fun packet => some packet.encode)).mapM id =
      some (packets.map Packet.encode) := by
    induction packets with
    | nil => rfl
    | cons packet packets ih =>
        rw [List.map_cons, List.mapM_cons, ih]
        rfl
  unfold bytes
  rw [packed, Option.map_some]
  unfold SelfDelimiting.Code.encodeAll
  rw [List.flatMap_def]
  rfl

private theorem carries_plain (command subCommand : UInt8) :
    Carries (R := R)
      [packetPack (floatFormat : ElementFormat R) command subCommand none]
      (packetCalls ⟨command, subCommand, [], nil_small⟩) :=
  ⟨[⟨command, subCommand, [], nil_small⟩], rfl, List.append_nil _⟩

private theorem actionCalls_control {a b c d : R} {packet : List UInt8}
    (packed : packetPack floatFormat TalkCons.command TalkCons.control
      (some [a, b, c, d]) = some packet) :
    actionCalls packet TalkCons.control = [controlCall [a, b, c, d]] := by
  obtain ⟨bytes, same, unpacked⟩ := @packetUnpack_packetPack R floatFormat
    TalkCons.command TalkCons.control [a, b, c, d] (by simp)
    (by
      change 4 * 4 < 256
      decide)
  rw [packed] at same
  cases same
  have data : unpackedData packet = some [a, b, c, d] := by
    unfold unpackedData
    rw [unpacked]
    rfl
  unfold actionCalls
  rw [data]
  rfl

private theorem packetPack_control (a b c d : R) :
    ∃ answer, ∃ small : answer.length < UInt8.size,
      packetPack floatFormat TalkCons.command TalkCons.control
        (some [a, b, c, d]) = some (Packet.encode
          ⟨TalkCons.command, TalkCons.control, answer, small⟩) := by
  obtain ⟨bytes, packed, _⟩ := @packetUnpack_packetPack R floatFormat
    TalkCons.command TalkCons.control [a, b, c, d] (by simp)
    (by
      change 4 * 4 < 256
      decide)
  obtain ⟨answer, small, rfl⟩ := packetPack_encode packed
  exact ⟨answer, small, packed⟩

private theorem carries_control (a b c d : R) :
    Carries (R := R)
      [packetPack floatFormat TalkCons.command TalkCons.control
        (some [a, b, c, d])] (controlCall [a, b, c, d]).toList := by
  obtain ⟨answer, small, packed⟩ := packetPack_control a b c d
  refine ⟨[⟨TalkCons.command, TalkCons.control, answer, small⟩], ?_, ?_⟩
  · rw [packed]
    rfl
  · rw [List.flatMap_singleton]
    change (performed (actionCalls _ TalkCons.control)).1 = _
    rw [actionCalls_control packed]
    cases controlCall [a, b, c, d] with
    | none => rfl
    | some call => rfl

private theorem packetCalls_tune (data : List UInt8)
    (small : data.length < UInt8.size) :
    ∀ call ∈ packetCalls (R := R)
        ⟨TalkCons.command, TalkCons.tune, data, small⟩,
      ∀ point : SetPoint R, call.sets point = point := by
  change ∀ call ∈ (performed
    [(unpackedData (R := R) _).bind updateGainsCall,
      (unpackedData _).bind tuneCall]).1, _
  generalize unpackedData (R := R) (Packet.encode
    ⟨TalkCons.command, TalkCons.tune, data, small⟩) = unpacked
  have gains : ∀ call ∈ unpacked.bind updateGainsCall,
      ∀ point : SetPoint R, call.sets point = point := by
    intro call member point
    obtain ⟨values, _, made⟩ := Option.bind_eq_some_iff.mp member
    unfold updateGainsCall at made
    simp only [Option.bind_eq_bind, Option.bind_eq_some_iff,
      Option.pure_def, Option.some.injEq] at made
    obtain ⟨_, _, _, _, rfl⟩ := made
    rfl
  have tunes : ∀ call ∈ unpacked.bind tuneCall,
      ∀ point : SetPoint R, call.sets point = point := by
    intro call member point
    obtain ⟨values, _, made⟩ := Option.bind_eq_some_iff.mp member
    unfold tuneCall at made
    simp only [Option.bind_eq_bind, Option.bind_eq_some_iff,
      Option.pure_def, Option.some.injEq] at made
    obtain ⟨_, _, _, _, _, _, _, _, _, _, _, _, _, _, _, _, _, _, rfl⟩ := made
    rfl
  intro call member
  cases first : unpacked.bind updateGainsCall with
  | none =>
      rw [first] at member
      cases member
  | some one =>
      rw [first] at member
      rcases List.mem_cons.mp member with rfl | later
      · exact gains call first
      · cases second : unpacked.bind tuneCall with
        | none =>
            rw [second] at later
            cases later
        | some two =>
            rw [second] at later
            rw [List.mem_singleton.mp later]
            exact tunes two second

omit [CFloat R] in
private theorem sets_kept {calls : List (CopterCall R)}
    (keep : ∀ call ∈ calls, ∀ point : SetPoint R, call.sets point = point)
    (point : SetPoint R) : calls.foldl CopterCall.sets point = point := by
  induction calls with
  | nil => rfl
  | cons call calls ih =>
      rw [List.foldl_cons, keep call List.mem_cons_self]
      exact ih (fun other member => keep other (List.mem_cons_of_mem _ member))

/-! ### What the joystick is for -/

variable [CMath D] (single : D → R)

def sampleCalls (buttons : Buttons) (sample : Sample D) :
    List (CopterCall R) :=
  (controlCall (PyClient.controls single sample)).toList ++
    ((if sample.button7 && !buttons.armPressed then [.arm] else []) ++
      if sample.button4 && !buttons.disarmPressed then [.disarm] else [])

def Buttons.after (buttons : Buttons) (samples : List (Sample D)) : Buttons :=
  match samples.getLast? with
  | none => buttons
  | some sample => { armPressed := sample.button7,
                     disarmPressed := sample.button4 }

def samplesCalls : Buttons → List (Sample D) → List (CopterCall R)
  | _, [] => []
  | buttons, sample :: samples =>
      sampleCalls single buttons sample ++
        samplesCalls { armPressed := sample.button7,
                       disarmPressed := sample.button4 } samples

private theorem samplesCalls_concat (buttons : Buttons)
    (samples : List (Sample D))
    (sample : Sample D) :
    samplesCalls single buttons (samples ++ [sample]) =
      samplesCalls single buttons samples ++
        sampleCalls single (buttons.after samples) sample := by
  induction samples generalizing buttons with
  | nil => exact List.append_nil _
  | cons first samples ih =>
      have later : (Buttons.mk first.button7 first.button4).after samples =
          buttons.after (first :: samples) := by
        unfold Buttons.after
        cases samples with
        | nil => rfl
        | cons second samples =>
            rw [List.getLast?_cons_cons]
            cases found : (second :: samples).getLast? with
            | none =>
                rw [List.getLast?_eq_none_iff] at found
                cases found
            | some last => rfl
      simp only [List.cons_append, samplesCalls]
      rw [ih, later, List.append_assoc]

private theorem carries_round (buttons : Buttons) (sample : Sample D) :
    Carries (PyClient.round single buttons sample).1
      (sampleCalls single buttons sample) := by
  have arm : Carries (R := R)
      (if sample.button7 && !buttons.armPressed then
          [packetPack (floatFormat : ElementFormat R) TalkCons.command
            TalkCons.arm none]
        else [])
      (if sample.button7 && !buttons.armPressed then [.arm] else []) := by
    split
    · exact carries_plain TalkCons.command TalkCons.arm
    · exact ⟨[], rfl, rfl⟩
  have disarm : Carries (R := R)
      (if sample.button4 && !buttons.disarmPressed then
          [packetPack (floatFormat : ElementFormat R) TalkCons.command
            TalkCons.disarm none]
        else [])
      (if sample.button4 && !buttons.disarmPressed then [.disarm]
        else []) := by
    split
    · exact carries_plain TalkCons.command TalkCons.disarm
    · exact ⟨[], rfl, rfl⟩
  have info := @carries_plain R _ TalkCons.getInfo TalkCons.getAngles
  have nothing : packetCalls (R := R)
      ⟨TalkCons.getInfo, TalkCons.getAngles, [], nil_small⟩ = [] := rfl
  have control := carries_control (single (PyClient.pitch sample))
    (single (PyClient.roll sample)) (single PyClient.yaw)
    (single (PyClient.throttle sample))
  have all := control.append ((arm.append disarm).append info)
  rw [nothing, List.append_nil] at all
  exact all

private theorem carries_rounds (buttons : Buttons) (samples : List (Sample D)) :
    Carries (PyClient.rounds single buttons samples)
      (samplesCalls single buttons samples) := by
  induction samples generalizing buttons with
  | nil => exact ⟨[], rfl, rfl⟩
  | cons sample samples ih =>
      exact (carries_round single buttons sample).append (ih _)

end

/-- The button goes down: it was up in the round before, or there was none. -/
def Rises (button : Sample D → Bool) (front : List (Sample D))
    (sample : Sample D) : Prop :=
  button sample = true ∧
    ∀ last, front.getLast? = some last → button last = false

/-- The arm button has gone down, and the disarm button neither with it nor
later. -/
def ArmedBy (samples : List (Sample D)) : Prop :=
  ∃ front sample back, samples = front ++ sample :: back ∧
    Rises Sample.button7 front sample ∧
    ¬ Rises Sample.button4 front sample ∧
    ∀ more later rest, back = more ++ later :: rest →
      ¬ Rises Sample.button4 (front ++ sample :: more) later

private theorem armedBy_concat (samples : List (Sample D)) (sample : Sample D) :
    ArmedBy (samples ++ [sample]) ↔
      ¬ Rises Sample.button4 samples sample ∧
        (Rises Sample.button7 samples sample ∨ ArmedBy samples) := by
  constructor
  · rintro ⟨front, chosen, back, split, arms, keeps, stays⟩
    rcases List.eq_nil_or_concat' back with rfl | ⟨back, last, rfl⟩
    · obtain ⟨rfl, same⟩ := List.append_inj' split rfl
      cases same
      exact ⟨keeps, Or.inl arms⟩
    · rw [← List.cons_append, ← List.append_assoc] at split
      obtain ⟨rfl, same⟩ := List.append_inj' split rfl
      cases same
      refine ⟨stays back _ [] rfl, Or.inr ⟨front, chosen, back, rfl, arms,
        keeps, ?_⟩⟩
      intro more later rest inside
      apply stays more later (rest ++ [sample])
      rw [inside, List.append_assoc, List.cons_append]
  · rintro ⟨keeps, arms | ⟨front, chosen, back, rfl, arms, kept, stays⟩⟩
    · refine ⟨samples, sample, [], rfl, arms, keeps, ?_⟩
      intro more later rest impossible
      exact absurd impossible (by simp)
    · refine ⟨front, chosen, back ++ [sample], by simp, arms, kept, ?_⟩
      intro more later rest inside
      rcases List.eq_nil_or_concat' rest with rfl | ⟨rest, last, rfl⟩
      · obtain ⟨rfl, same⟩ := List.append_inj' inside rfl
        cases same
        exact keeps
      · rw [← List.cons_append, ← List.append_assoc] at inside
        obtain ⟨rfl, _⟩ := List.append_inj' inside rfl
        exact stays more later rest rfl

private theorem rises_iff (button : Sample D → Bool) (pressed : Bool)
    (samples : List (Sample D)) (sample : Sample D)
    (before : pressed = (samples.getLast?.map button).getD false) :
    (button sample && !pressed) = true ↔ Rises button samples sample := by
  unfold Rises
  rw [before]
  cases last : samples.getLast? with
  | none => simp
  | some found => simp

section

variable [CFloat R] [CMath D] (single : D → R)

/-- What the calls for some samples make of the set point. -/
theorem samplesCalls_armed (samples : List (Sample D)) (point : SetPoint R)
    (disarmed : point.armed = false) :
    ((samplesCalls single ⟨false, false⟩ samples).foldl CopterCall.sets
      point).armed = true ↔ ArmedBy samples := by
  induction samples using List.reverseRecOn with
  | nil =>
      constructor
      · intro armed
        change point.armed = true at armed
        rw [disarmed] at armed
        cases armed
      · rintro ⟨front, sample, back, impossible, _⟩
        exact absurd impossible (by simp)
  | append_singleton samples sample ih =>
      have arm_button : ((⟨false, false⟩ : Buttons).after samples).armPressed =
          (samples.getLast?.map Sample.button7).getD false := by
        unfold Buttons.after
        cases samples.getLast? with
        | none => rfl
        | some last => rfl
      have disarm_button :
          ((⟨false, false⟩ : Buttons).after samples).disarmPressed =
            (samples.getLast?.map Sample.button4).getD false := by
        unfold Buttons.after
        cases samples.getLast? with
        | none => rfl
        | some last => rfl
      rw [armedBy_concat, ← rises_iff _ _ samples sample arm_button,
        ← rises_iff _ _ samples sample disarm_button, ← ih,
        samplesCalls_concat, List.foldl_append]
      generalize (samplesCalls single ⟨false, false⟩ samples).foldl
        CopterCall.sets point = before
      unfold sampleCalls
      rw [List.foldl_append, List.foldl_append]
      have control : ((controlCall
          (PyClient.controls single sample)).toList.foldl CopterCall.sets
            before).armed = before.armed := by
        cases made : controlCall (PyClient.controls single sample) with
        | none => rfl
        | some call =>
            unfold controlCall PyClient.controls at made
            simp only [Option.bind_eq_bind, Option.bind_eq_some_iff,
              Option.pure_def, Option.some.injEq] at made
            obtain ⟨_, _, _, _, _, _, _, _, _, _, rfl⟩ := made
            rfl
      cases sample.button7 && !((⟨false, false⟩ : Buttons).after
          samples).armPressed with
      | false =>
          cases sample.button4 && !((⟨false, false⟩ : Buttons).after
              samples).disarmPressed with
          | false =>
              rw [← control]
              simp
          | true => simp [CopterCall.sets]
      | true =>
          cases sample.button4 && !((⟨false, false⟩ : Buttons).after
              samples).disarmPressed with
          | false => simp [CopterCall.sets]
          | true => simp [CopterCall.sets]

def Follows (sample : Sample D) (point : SetPoint R) : Prop :=
  ∃ value, CFloat.truncate (single (PyClient.throttle sample)) = some value ∧
    point.throttle = clampThrottle value ∧
    point.pitch = single (PyClient.pitch sample) ∧
    point.roll = single (PyClient.roll sample) ∧
    point.yaw = single PyClient.yaw

/-- The m3 is armed only after the arm button, and flies towards what one sample
says, if it does not stand still. -/
structure Steered (samples : List (Sample D)) (point : SetPoint R) : Prop where
  armed : point.armed = true → ∃ sample ∈ samples, sample.button7 = true
  flies : point = { SetPoint.start with armed := point.armed } ∨
    ∃ sample ∈ samples, Follows single sample point

private theorem controlCall_sets {sample : Sample D} {call : CopterCall R}
    (made : controlCall (PyClient.controls single sample) = some call)
    (point : SetPoint R) :
    (call.sets point).armed = point.armed ∧
      Follows single sample (call.sets point) := by
  unfold controlCall PyClient.controls at made
  simp only [Option.bind_eq_bind, Option.bind_eq_some_iff, Option.pure_def,
    Option.some.injEq] at made
  obtain ⟨value, third, throttle, truncated, _, first, _, second, _, fourth,
    rfl⟩ := made
  cases third
  cases first
  cases second
  cases fourth
  exact ⟨rfl, throttle, truncated, rfl, rfl, rfl, rfl⟩

private theorem sampleCalls_steer {samples : List (Sample D)}
    {sample : Sample D}
    (member : sample ∈ samples) (buttons : Buttons) :
    ∀ call ∈ sampleCalls single buttons sample, ∀ point : SetPoint R,
      Steered single samples point → Steered single samples (call.sets point) := by
  intro call made point steered
  unfold sampleCalls at made
  rcases List.mem_append.mp made with control | button
  · obtain ⟨same, follows⟩ :=
      controlCall_sets single (Option.mem_toList.mp control) point
    constructor
    · rw [same]
      exact steered.armed
    · exact Or.inr ⟨sample, member, follows⟩
  · rcases List.mem_append.mp button with arm | disarm
    · split at arm
      · next pressed =>
          rw [List.mem_singleton.mp arm]
          rw [Bool.and_eq_true] at pressed
          constructor
          · intro _
            exact ⟨sample, member, pressed.1⟩
          · rcases steered.flies with still | follows
            · left
              rw [still]
              rfl
            · exact Or.inr follows
      · cases arm
    · split at disarm
      · rw [List.mem_singleton.mp disarm]
        constructor
        · intro armed
          cases armed
        · rcases steered.flies with still | follows
          · left
            rw [still]
            rfl
          · exact Or.inr follows
      · cases disarm

private theorem samplesCalls_steer {samples : List (Sample D)}
    {part : List (Sample D)} (inside : ∀ sample ∈ part, sample ∈ samples)
    (buttons : Buttons) :
    ∀ call ∈ samplesCalls single buttons part, ∀ point : SetPoint R,
      Steered single samples point → Steered single samples (call.sets point) := by
  induction part generalizing buttons with
  | nil =>
      intro call impossible
      cases impossible
  | cons sample part ih =>
      intro call member
      rcases List.mem_append.mp member with here | later
      · exact sampleCalls_steer single (inside sample List.mem_cons_self)
          buttons call here
      · exact ih (fun other old => inside other (List.mem_cons_of_mem _ old))
          _ call later

private theorem samplesCalls_follow {samples : List (Sample D)}
    {sample : Sample D}
    (last : samples.getLast? = some sample)
    (made : (controlCall (PyClient.controls single sample)).isSome)
    (point : SetPoint R) :
    Follows single sample
      ((samplesCalls single ⟨false, false⟩ samples).foldl CopterCall.sets
        point) := by
  obtain ⟨front, rfl⟩ := List.getLast?_eq_some_iff.mp last
  obtain ⟨call, call_eq⟩ := Option.isSome_iff_exists.mp made
  rw [samplesCalls_concat, List.foldl_append]
  unfold sampleCalls
  rw [List.foldl_append, call_eq]
  obtain ⟨_, follows⟩ := controlCall_sets single call_eq
    ((samplesCalls single ⟨false, false⟩ front).foldl CopterCall.sets point)
  generalize (samplesCalls single ⟨false, false⟩ front).foldl CopterCall.sets
    point = before at follows
  change Follows single sample (List.foldl CopterCall.sets (call.sets before) _)
  generalize call.sets before = after at follows
  obtain ⟨value, truncated, throttle, pitch, roll, yaw⟩ := follows
  split
  · split
    · exact ⟨value, truncated, throttle, pitch, roll, yaw⟩
    · exact ⟨value, truncated, throttle, pitch, roll, yaw⟩
  · split
    · exact ⟨value, truncated, throttle, pitch, roll, yaw⟩
    · exact ⟨value, truncated, throttle, pitch, roll, yaw⟩

/-! ### From the joystick to the m3 -/

private theorem main_packets {constants : List D} {samples : List (Sample D)}
    {packets : List UInt8}
    (sends : PyClient.bytes (PyClient.main single constants samples) =
      some packets) :
    ∃ all : List Packet, ∃ tune : List (CopterCall R),
      PyClient.main single constants samples =
        all.map (fun packet => some packet.encode) ∧
      packets = Packet.code.encodeAll all ∧
      all.flatMap packetCalls =
        tune ++ samplesCalls single ⟨false, false⟩ samples ∧
      ∀ call ∈ tune, ∀ point : SetPoint R, call.sets point = point := by
  cases packed : packetPack floatFormat TalkCons.command TalkCons.tune
      (some (constants.map single)) with
  | none =>
      unfold PyClient.bytes PyClient.main at sends
      rw [packed, List.mapM_cons] at sends
      cases sends
  | some bytes =>
      obtain ⟨answer, small, rfl⟩ := packetPack_encode packed
      obtain ⟨others, others_eq, calls⟩ :=
        carries_rounds single ⟨false, false⟩ samples
      have all : PyClient.main single constants samples =
          List.map (fun packet => some packet.encode)
            (⟨TalkCons.command, TalkCons.tune, answer, small⟩ :: others) := by
        unfold PyClient.main
        rw [packed, others_eq]
        rfl
      rw [all, PyClient.bytes_packets, Option.some.injEq] at sends
      refine ⟨_, _, all, sends.symm, ?_, packetCalls_tune answer small⟩
      rw [List.flatMap_cons, calls]

private theorem control_sent {samples : List (Sample D)}
    {sample : Sample D} (member : sample ∈ samples) (buttons : Buttons) :
    packetPack floatFormat TalkCons.command TalkCons.control
      (some (PyClient.controls single sample)) ∈
        PyClient.rounds single buttons samples := by
  induction samples generalizing buttons with
  | nil => cases member
  | cons first samples ih =>
      rcases List.mem_cons.mp member with rfl | later
      · exact List.mem_append_left _ List.mem_cons_self
      · exact List.mem_append_right _ (ih later _)

end

section

variable [CFloat R] [CMath D] {single : D → R} {constants : List D}
  {samples : List (Sample D)} {packets : List UInt8} {ip : String}
  {rounds : List Round}

private theorem arrivedPackets_concat (ip : String) (socket : Nat)
    (rounds : List Round) (round : Round) :
    arrivedPackets ip socket (rounds ++ [round]) =
      arrivedPackets ip socket rounds ++ completed ip socket rounds round := by
  have part : arrivedPackets ip socket rounds <+:
      arrivedPackets ip socket (rounds ++ [round]) := by
    apply Packet.code.decodeAll_mono
    rw [serverEvents_concat, arrivedFrom_concat, arrivedFrom_concat,
      List.append_assoc]
    exact List.prefix_append _ _
  obtain ⟨more, split⟩ := part
  unfold completed
  rw [← split, List.drop_left]

theorem Due.only {calls : List (CopterCall R)} {answers : Nat → List Packet}
    (due : Due ip rounds calls answers)
    (alone : ∀ socket, socket ≠ 0 →
      arrivedFrom socket 0 (serverEvents ip rounds) = []) :
    calls = .sendConnect :: (arrivedPackets ip 0 rounds).flatMap packetCalls := by
  induction due with
  | start => rfl
  | @round rounds calls answers round quad replies earlier now answered ih =>
      have before : ∀ socket, socket ≠ 0 →
          arrivedFrom socket 0 (serverEvents ip rounds) = [] := by
        intro socket other
        have nothing := alone socket other
        rw [serverEvents_concat, arrivedFrom_concat, arrivedFrom_concat,
          List.append_assoc, List.append_eq_nil_iff] at nothing
        exact nothing.1
      have silent : ∀ socket, socket ≠ 0 →
          completed ip socket rounds round = [] := by
        intro socket other
        unfold completed arrivedPackets
        rw [alone socket other]
        exact List.drop_nil
      have first : (List.range (accepts (serverEvents ip rounds))).flatMap
          (fun socket => (completed ip socket rounds round).flatMap
            packetCalls) =
          ((completed ip 0 rounds round).flatMap packetCalls :
            List (CopterCall R)) := by
        change (List.range (accepts _ + 1)).flatMap _ = _
        rw [List.range_succ_eq_map, List.flatMap_cons, List.flatMap_map]
        convert List.append_nil _
        apply List.flatMap_eq_nil_iff.mpr
        intro socket _
        rw [silent (socket + 1) (Nat.succ_ne_zero socket)]
        rfl
      rw [first, ih before, arrivedPackets_concat, List.flatMap_append,
        List.cons_append]

/-- Every packet that has arrived whole has been answered in some round. -/
theorem Due.answered {calls : List (CopterCall R)} {answers : Nat → List Packet}
    (due : Due ip rounds calls answers) {socket : Nat} {packet : Packet}
    (member : packet ∈ arrivedPackets ip socket rounds) :
    ∃ (quad : Copter R) (reply : Option Packet), Answers quad packet reply := by
  induction due with
  | start => cases member
  | @round rounds calls answers round quad replies earlier now answered ih =>
      rw [arrivedPackets_concat] at member
      rcases List.mem_append.mp member with old | new
      · exact ih old
      · obtain ⟨place, bound, rfl⟩ := List.getElem_of_mem new
        have reply_bound : place < (replies socket).length := by
          rw [← (answered socket).length_eq]
          exact bound
        exact ⟨quad, _, (answered socket).get bound reply_bound⟩

/-- The calls that the server has made are the first of those for the samples,
and all of them when everything has arrived. -/
theorem server_calls
    (sends : PyClient.bytes (PyClient.main single constants samples) =
      some packets)
    (alive : Alive ip rounds ((PyServ.start ip : PyServ R).run rounds))
    (arrived : arrivedFrom 0 0 (serverEvents ip rounds) <+: packets)
    (alone : ∀ socket, socket ≠ 0 →
      arrivedFrom socket 0 (serverEvents ip rounds) = []) :
    ∃ tune : List (CopterCall R),
      (∀ call ∈ tune, ∀ point : SetPoint R, call.sets point = point) ∧
      ((PyServ.start ip : PyServ R).run rounds).talk.calls <+:
        .sendConnect ::
          (tune ++ samplesCalls single ⟨false, false⟩ samples) ∧
      (arrivedFrom 0 0 (serverEvents ip rounds) = packets →
        ((PyServ.start ip : PyServ R).run rounds).talk.calls =
          .sendConnect ::
            (tune ++ samplesCalls single ⟨false, false⟩ samples)) := by
  obtain ⟨all, tune, _, rfl, calls, keeps⟩ := main_packets single sends
  have whole : (Packet.code.decodeAll (Packet.code.encodeAll all)).1 = all := by
    rw [Packet.code.decodeAll_encodeAll]
  obtain ⟨answers, due, _⟩ := alive.due
  have made := due.only alone
  unfold arrivedPackets at made
  refine ⟨tune, keeps, ?_, ?_⟩
  · obtain ⟨more, split⟩ := Packet.code.decodeAll_mono arrived
    rw [made, ← calls, List.cons_prefix_cons]
    rw [whole] at split
    refine ⟨rfl, more.flatMap packetCalls, ?_⟩
    rw [← List.flatMap_append, split]
  · intro everything
    rw [made, everything, whole, calls]

private theorem server_controls
    (sends : PyClient.bytes (PyClient.main single constants samples) =
      some packets)
    (alive : Alive ip rounds ((PyServ.start ip : PyServ R).run rounds))
    (everything : arrivedFrom 0 0 (serverEvents ip rounds) = packets)
    {sample : Sample D} (member : sample ∈ samples) :
    (controlCall (PyClient.controls single sample)).isSome := by
  obtain ⟨all, _, all_eq, rfl, _⟩ := main_packets single sends
  obtain ⟨answer, small, packed⟩ := packetPack_control
    (single (PyClient.pitch sample)) (single (PyClient.roll sample))
    (single PyClient.yaw) (single (PyClient.throttle sample))
  have inside := List.mem_cons_of_mem
    (packetPack floatFormat TalkCons.command TalkCons.tune
      (some (constants.map single)))
    (control_sent single member ⟨false, false⟩)
  change _ ∈ PyClient.main single constants samples at inside
  rw [all_eq] at inside
  obtain ⟨packet, packet_member, packet_eq⟩ := List.mem_map.mp inside
  unfold PyClient.controls at packet_eq
  rw [packed, Option.some.injEq] at packet_eq
  have same := Packet.decode_encode packet []
  rw [packet_eq, Packet.decode_encode, Option.some.injEq, Prod.mk.injEq] at same
  obtain ⟨rfl, _⟩ := same
  obtain ⟨answers, due, _⟩ := alive.due
  have whole : arrivedPackets ip 0 rounds = all := by
    unfold arrivedPackets
    rw [everything, Packet.code.decodeAll_encodeAll]
  rw [← whole] at packet_member
  obtain ⟨quad, reply, answered⟩ := due.answered packet_member
  cases answered with
  | ack _ _ _ done =>
      rw [actionCalls_control packed] at done
      unfold PyClient.controls
      cases made : controlCall [single (PyClient.pitch sample),
          single (PyClient.roll sample), single PyClient.yaw,
          single (PyClient.throttle sample)] with
      | none =>
          rw [made] at done
          cases done
      | some call => rfl

/-- Whatever the timing of sockets, server, driver and m3: the m3 is armed only
after the arm button and flies towards what one sample says; when everything has
arrived and been dispatched, it is armed if the arm button has gone down last,
and flies towards what the last sample says. -/
theorem joystick_steers_flight
    (sends : PyClient.bytes (PyClient.main single constants samples) =
      some packets)
    (quiet : ((PyServ.start ip : PyServ R).run rounds).raised = false)
    (arrived : arrivedFrom 0 0 (serverEvents ip rounds) <+: packets)
    (alone : ∀ socket, socket ≠ 0 →
      arrivedFrom socket 0 (serverEvents ip rounds) = [])
    {stream : List UInt8}
    (sent : CopterCall.sendAll
      ((PyServ.start ip : PyServ R).run rounds).talk.calls = some stream)
    (reset timers : PwmTimers) (txMemory rxMemory : RingMemory)
    {events : List (FlightEvent R)}
    {after : CommandSystem HandlerFunc (Flight R)}
    (ran : flightRun stream events
      (flightStart reset timers txMemory rxMemory) = .ok after) :
    Steered single samples after.state.m3.rest.setPoint ∧
      (arrivedFrom 0 0 (serverEvents ip rounds) = packets →
        after.dispatches.length =
          ((PyServ.start ip : PyServ R).run rounds).talk.calls.length →
        (after.state.m3.rest.setPoint.armed = true ↔ ArmedBy samples) ∧
        ∀ last, samples.getLast? = some last →
          Follows single last after.state.m3.rest.setPoint) := by
  have alive := alive_run ip rounds quiet
  obtain ⟨tune, keeps, part, whole⟩ := server_calls sends alive arrived alone
  obtain ⟨done, done_part, log, point⟩ :=
    flightRun_setPoint sent reset timers txMemory rxMemory ran
  rw [point]
  constructor
  · have first : Steered single samples (SetPoint.start : SetPoint R) := by
      constructor
      · intro armed
        cases armed
      · exact Or.inl rfl
    have steers : ∀ call ∈ done, ∀ point : SetPoint R,
        Steered single samples point →
          Steered single samples (call.sets point) := by
      intro call member
      rcases List.mem_cons.mp ((done_part.trans part).subset member) with
        rfl | later
      · exact fun point steered => steered
      · rcases List.mem_append.mp later with old | new
        · intro point steered
          rw [keeps call old]
          exact steered
        · exact samplesCalls_steer single (fun sample member => member) _ call
            new
    exact List.foldlRecOn done CopterCall.sets first
      (fun point steered call member => steers call member point steered)
  · intro everything dispatched
    have length : done.length =
        ((PyServ.start ip : PyServ R).run rounds).talk.calls.length := by
      rw [← dispatched, ← List.length_map CopterCall.frame, ← log,
        List.length_map]
    rw [done_part.eq_of_length length, whole everything, List.foldl_cons,
      List.foldl_append]
    have tuned : tune.foldl CopterCall.sets
        (CopterCall.sets SetPoint.start .sendConnect) =
          (SetPoint.start : SetPoint R) := sets_kept keeps _
    rw [tuned]
    constructor
    · exact samplesCalls_armed single samples SetPoint.start rfl
    · intro last last_eq
      exact samplesCalls_follow single last_eq
        (server_controls sends alive everything
          (List.mem_of_getLast? last_eq)) _

end

def armSample : Sample Float32 :=
  { axis0 := 0.25, axis1 := -0.5, axis4 := -1.0, button7 := true,
    button4 := false }

def armConstants : List Float32 := List.replicate 10 1.0

def armPackets : List UInt8 :=
  (PyClient.bytes (PyClient.main (fun value => value) armConstants
    [armSample])).getD []

def steerRounds : List Round :=
  [⟨none, fun socket => if socket = 0 then some (armPackets.take 20) else none,
      none⟩,
    ⟨none, fun socket => if socket = 0 then some (armPackets.drop 20) else none,
      none⟩]

def steerStream : List UInt8 :=
  (CopterCall.sendAll
    ((PyServ.start "10.0.0.2" : PyServ Float32).run steerRounds).talk.calls).getD
      []

def steerEvents : List (FlightEvent Float32) :=
  .arrive 68 :: List.replicate 5 (.tick zeroReading)

theorem joystick_steers_flight_of_arm :
    ∃ after, flightRun steerStream steerEvents
        (flightStart (fun _ => ⟨0, 0, 0, 0, 0⟩) (fun _ => ⟨0, 0, 0, 0, 0⟩)
          ⟨0, 0, nullBuf⟩ ⟨0, 0, nullBuf⟩) = .ok after ∧
      after.state.m3.rest.setPoint.armed = true ∧
      Follows (fun value => value) armSample after.state.m3.rest.setPoint := by
  have quiet : ((PyServ.start "10.0.0.2" : PyServ Float32).run
      steerRounds).raised = false := by
    decide +kernel
  have arrived : arrivedFrom 0 0 (serverEvents "10.0.0.2" steerRounds) =
      armPackets := by
    decide +kernel
  have sends : PyClient.bytes (PyClient.main (fun value => value) armConstants
      [armSample]) = some armPackets := by
    decide +kernel
  have sent : CopterCall.sendAll ((PyServ.start "10.0.0.2" :
      PyServ Float32).run steerRounds).talk.calls = some steerStream := by
    decide +kernel
  have count : (flightRun steerStream steerEvents
      (flightStart (fun _ => ⟨0, 0, 0, 0, 0⟩) (fun _ => ⟨0, 0, 0, 0, 0⟩)
        ⟨0, 0, nullBuf⟩ ⟨0, 0, nullBuf⟩)).toOption.map
          (fun after => after.dispatches.length) =
      some ((PyServ.start "10.0.0.2" : PyServ Float32).run
        steerRounds).talk.calls.length := by
    decide +kernel
  have alone : ∀ socket, socket ≠ 0 →
      arrivedFrom socket 0 (serverEvents "10.0.0.2" steerRounds) = [] := by
    intro socket other
    simp [serverEvents, steerRounds, arrivedFrom, ServerEvent.arrival, other]
  cases ran : flightRun steerStream steerEvents
      (flightStart (fun _ => ⟨0, 0, 0, 0, 0⟩) (fun _ => ⟨0, 0, 0, 0, 0⟩)
        ⟨0, 0, nullBuf⟩ ⟨0, 0, nullBuf⟩) with
  | error fault =>
      rw [ran] at count
      cases count
  | ok after =>
      rw [ran] at count
      have steers := joystick_steers_flight sends quiet
        (arrived ▸ List.prefix_refl _) alone sent _ _ _ _ ran
      obtain ⟨armed, follows⟩ := steers.2 arrived (Option.some.inj count)
      refine ⟨after, rfl, armed.mpr ?_, follows armSample rfl⟩
      refine ⟨[], armSample, [], rfl, ⟨rfl, ?_⟩, ?_, ?_⟩
      · intro last impossible
        cases impossible
      · rintro ⟨pressed, _⟩
        cases pressed
      · intro more later rest impossible
        exact absurd impossible (by simp)

end Quadcopter

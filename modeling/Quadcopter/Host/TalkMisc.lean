import Quadcopter.Host.Copter

/-
Packets between the ground station and the copter (controller/talk_module,
talk_misc.py): a command byte, a sub-command byte, the length of the data, the
data.
-/

namespace Quadcopter

variable {α R : Type}

namespace TalkCons

def getInfo : UInt8 := 0xA0

def command : UInt8 := 0xB0

def stop : UInt8 := 0x01

def arm : UInt8 := 0x02

def disarm : UInt8 := 0x03

def control : UInt8 := 0x04

def tune : UInt8 := 0x05

def commandAck : UInt8 := 0xB0

end TalkCons

/-- A format of Python's struct for one value, with its entry of data_sizes. -/
structure ElementFormat (α : Type) where
  size : Nat
  pack : α → List UInt8
  -- `none` if struct.unpack raises
  unpack : List UInt8 → Option α
  size_pos : 0 < size
  pack_length : ∀ value, (pack value).length = size
  unpack_pack : ∀ value, unpack (pack value) = some value

def floatFormat [CFloat R] : ElementFormat R where
  size := 4
  pack := fun value => MachineInt.wordBytes (CFloat.toBits value)
  unpack := fun bytes =>
    if bytes.length = 4 then
      some (CFloat.ofBits (MachineInt.wordAt (fun i => bytes.getD i 0) 0))
    else none
  size_pos := by decide
  pack_length := fun _ => rfl
  unpack_pack := by
    intro value
    have word : MachineInt.wordAt
        (fun i => (MachineInt.wordBytes (CFloat.toBits value)).getD i 0) 0 =
          CFloat.toBits value :=
      MachineInt.wordAt_of_bytes rfl
    rw [word, CFloat.ofBits_toBits]
    exact if_pos rfl

/-- `none` if it raises. -/
def packetPack (format : ElementFormat α) (command subCommand : UInt8)
    (data : Option (List α)) : Option (List UInt8) :=
  match data with
  | none => some [command, subCommand, 0]
  | some data =>
      let bytes := data.flatMap format.pack
      -- an array of bytes cannot hold a larger length
      if bytes.length < 256 then
        some (command :: subCommand :: UInt8.ofNat bytes.length :: bytes)
      else none

def unpackFrom (format : ElementFormat α) (packet : List UInt8) :
    Nat → Nat → Option (List α)
  | 0, _ => some []
  | count + 1, f => do
      let value ← format.unpack ((packet.drop f).take format.size)
      let data ← unpackFrom format packet count (f + format.size)
      return value :: data

/-- The four positions of the tuple; the second and third change places when
there is data. -/
def packetUnpack (format : ElementFormat α) (packet : List UInt8) :
    Option (UInt8 × UInt8 × UInt8 × Option (List α)) :=
  match packet with
  | command :: subCommand :: length :: _ =>
      if length = 0 then some (command, subCommand, length, none)
      else do
        let count := (length.toNat + format.size - 1) / format.size
        let data ← unpackFrom format packet count 3
        return (command, length, subCommand, some data)
  | _ => none

variable {format : ElementFormat α}

theorem ElementFormat.flatMap_length (values : List α) :
    (values.flatMap format.pack).length = format.size * values.length := by
  induction values with
  | nil => rfl
  | cons value values ih =>
      rw [List.flatMap_cons, List.length_append, ih, format.pack_length,
        List.length_cons, Nat.mul_succ, Nat.add_comm]

theorem packetPack_subCommand {command subCommand : UInt8}
    {data : Option (List α)} {packet : List UInt8}
    (packed : packetPack format command subCommand data = some packet) :
    packet[1]? = some subCommand := by
  cases data with
  | none =>
      cases packed
      rfl
  | some data =>
      unfold packetPack at packed
      dsimp only at packed
      split at packed
      · cases packed
        rfl
      · cases packed

private theorem unpackFrom_pack (front : List UInt8) (values : List α) :
    unpackFrom format (front ++ values.flatMap format.pack) values.length
      front.length = some values := by
  induction values generalizing front with
  | nil => rfl
  | cons value values ih =>
      have slice : ((front ++ (value :: values).flatMap format.pack).drop
          front.length).take format.size = format.pack value := by
        rw [List.drop_left, List.flatMap_cons,
          List.take_left' (format.pack_length value)]
      have later := ih (front ++ format.pack value)
      rw [List.length_append, format.pack_length, List.append_assoc,
        ← List.flatMap_cons] at later
      rw [List.length_cons, unpackFrom, slice, format.unpack_pack, later]
      rfl

/-- Data that fits in a packet comes out as it went in. -/
theorem packetUnpack_packetPack (command subCommand : UInt8)
    {values : List α} (some_data : values ≠ [])
    (fits : format.size * values.length < 256) :
    ∃ packet, packetPack format command subCommand (some values) =
        some packet ∧
      packetUnpack format packet =
        some (command, UInt8.ofNat (format.size * values.length), subCommand,
          some values) := by
  have length := @ElementFormat.flatMap_length α format values
  have positive : 0 < format.size * values.length :=
    Nat.mul_pos format.size_pos (List.length_pos_iff.mpr some_data)
  have byte : (UInt8.ofNat (format.size * values.length)).toNat =
      format.size * values.length :=
    UInt8.toNat_ofNat_of_lt' fits
  have nonzero : UInt8.ofNat (format.size * values.length) ≠ 0 := by
    intro zero
    rw [zero] at byte
    exact absurd byte (Nat.ne_of_lt positive)
  have count : (format.size * values.length + format.size - 1) /
      format.size = values.length := by
    rw [Nat.add_sub_assoc format.size_pos, Nat.mul_add_div format.size_pos,
      Nat.div_eq_of_lt (Nat.sub_lt format.size_pos Nat.one_pos), Nat.add_zero]
  have data : unpackFrom format
      (command :: subCommand :: UInt8.ofNat (format.size * values.length) ::
        values.flatMap format.pack) values.length 3 = some values :=
    unpackFrom_pack
      [command, subCommand, UInt8.ofNat (format.size * values.length)] values
  refine ⟨_, if_pos (length ▸ fits), ?_⟩
  dsimp only [packetUnpack]
  rw [length, if_neg nonzero, byte, count, data]
  rfl

end Quadcopter

import Quadcopter.Host.PyServ

/-
What packet_unpack makes of the packets of packet_pack (controller/talk_module,
talk_misc.py), for every element type of data_sizes.

packet_unpack has two return statements.  The one without data has the
sub-command before the length, and the one with data has it behind.
-/

namespace Quadcopter

variable {α : Type}

def dataSizes : (dataType : Char) → Option Nat
  | 'c' => some 1
  | 'b' => some 1
  | 'B' => some 1
  | '?' => some 1
  | 'h' => some 2
  | 'H' => some 2
  | 'i' => some 4
  | 'I' => some 4
  | 'l' => some 4
  | 'L' => some 4
  | 'q' => some 8
  | 'Q' => some 8
  | 'f' => some 4
  | 'd' => some 8
  | _ => none

/-- packet_unpack(packet, data_type), where `format` is what struct does for
this type; `none` if it raises. -/
def packetUnpackAs (dataType : Char) (format : ElementFormat α)
    (packet : List UInt8) : Option (UInt8 × UInt8 × UInt8 × Option (List α)) :=
  if (dataSizes dataType).isSome then packetUnpack format packet else none

def payload (format : ElementFormat α) (data : Option (List α)) : List UInt8 :=
  (data.getD []).flatMap format.pack

/-- Data that is there: an empty list is as good as None. -/
def givenData : Option (List α) → Option (List α)
  | some (value :: values) => some (value :: values)
  | _ => none

/-- Command, sub-command, length and data come back in this order, and only a
payload that is too long makes packet_pack raise. -/
structure PacketUndone (dataType : Char) (format : ElementFormat α)
    (command subCommand : UInt8) (data : Option (List α)) : Prop where
  restored : (payload format data).length ≤ 255 →
    ∃ packet, packetPack format command subCommand data = some packet ∧
      packetUnpackAs dataType format packet =
        some (command, subCommand, UInt8.ofNat (payload format data).length,
          givenData data)
  raises : packetPack format command subCommand data = none ↔
    255 < (payload format data).length

private theorem packetPack_none_iff (format : ElementFormat α)
    (command subCommand : UInt8) (data : Option (List α)) :
    packetPack format command subCommand data = none ↔
      255 < (payload format data).length := by
  cases data with
  | none => simp [packetPack, payload]
  | some values =>
      by_cases fits : (values.flatMap format.pack).length < 256
      · simp only [packetPack, if_pos fits, reduceCtorEq, false_iff]
        change ¬ 255 < (values.flatMap format.pack).length
        omega
      · simp only [packetPack, if_neg fits, true_iff]
        change 255 < (values.flatMap format.pack).length
        omega

private theorem packetUnpack_no_data (format : ElementFormat α)
    (command subCommand : UInt8) {data : Option (List α)}
    (no_data : payload format data = []) :
    ∃ packet, packetPack format command subCommand data = some packet ∧
      packetUnpack format packet = some (command, subCommand, 0, none) := by
  refine ⟨[command, subCommand, 0], ?_, rfl⟩
  cases data with
  | none => rfl
  | some values =>
      have none_packed : values.flatMap format.pack = [] := no_data
      simp [packetPack, none_packed]

private theorem givenData_eq_none {format : ElementFormat α}
    {data : Option (List α)}
    (no_data : payload format data = []) : givenData data = none := by
  cases data with
  | none => rfl
  | some values =>
      cases values with
      | nil => rfl
      | cons value values =>
          have length := congrArg List.length no_data
          have packed := format.pack_length value
          have size_pos := format.size_pos
          change ((value :: values).flatMap format.pack).length = 0 at length
          rw [List.flatMap_cons, List.length_append, packed] at length
          omega

/-- With data, the length and the sub-command change places. -/
theorem packetUnpack_data (format : ElementFormat α)
    (command subCommand : UInt8) {data : Option (List α)}
    (some_data : payload format data ≠ [])
    (fits : (payload format data).length ≤ 255) :
    ∃ packet, packetPack format command subCommand data = some packet ∧
      packetUnpack format packet =
        some (command, UInt8.ofNat (payload format data).length, subCommand,
          givenData data) := by
  cases data with
  | none => exact absurd rfl some_data
  | some values =>
      cases values with
      | nil => exact absurd rfl some_data
      | cons value values =>
          have length := @ElementFormat.flatMap_length α format
            (value :: values)
          change ((value :: values).flatMap format.pack).length ≤ 255 at fits
          have undone := @packetUnpack_packetPack α format command subCommand
            (value :: values) (List.cons_ne_nil value values) (by omega)
          rw [← length] at undone
          exact undone

/-- What was packed comes back in its place if and only if there is no data, or
the sub-command is the length, or the data is too long to be packed. -/
theorem packet_undone_iff (dataType : Char) (format : ElementFormat α)
    (sized : dataSizes dataType = some format.size)
    (command subCommand : UInt8) (data : Option (List α)) :
    PacketUndone dataType format command subCommand data ↔
      payload format data = [] ∨
        (payload format data).length = subCommand.toNat ∨
        255 < (payload format data).length := by
  have raises := packetPack_none_iff format command subCommand data
  have known : ∀ packet, packetUnpackAs dataType format packet =
      packetUnpack format packet := by
    intro packet
    unfold packetUnpackAs
    rw [sized]
    rfl
  constructor
  · intro ⟨restored, _⟩
    by_cases no_data : payload format data = []
    · exact Or.inl no_data
    · by_cases fits : (payload format data).length ≤ 255
      · obtain ⟨packet, packed, unpacked⟩ := restored fits
        obtain ⟨same, packed_data, swapped⟩ :=
          packetUnpack_data format command subCommand no_data fits
        rw [packed, Option.some.injEq] at packed_data
        rw [known, packed_data, swapped, Option.some.injEq] at unpacked
        have second := congrArg (fun tuple => tuple.2.1.toNat) unpacked
        dsimp only at second
        rw [UInt8.toNat_ofNat_of_lt' (Nat.lt_succ_of_le fits)] at second
        exact Or.inr (Or.inl second)
      · exact Or.inr (Or.inr (Nat.lt_of_not_le fits))
  · intro condition
    refine ⟨?_, raises⟩
    intro fits
    by_cases no_data : payload format data = []
    · obtain ⟨packet, packed, unpacked⟩ :=
        packetUnpack_no_data format command subCommand no_data
      refine ⟨packet, packed, ?_⟩
      rw [known, unpacked, givenData_eq_none no_data, no_data]
      rfl
    · have length : (payload format data).length = subCommand.toNat := by
        rcases condition with none_packed | same | large
        · exact absurd none_packed no_data
        · exact same
        · omega
      obtain ⟨packet, packed, swapped⟩ :=
        packetUnpack_data format command subCommand no_data fits
      refine ⟨packet, packed, ?_⟩
      rw [known, swapped, length, UInt8.ofNat_toNat]

theorem packet_undone_of_equal :
    PacketUndone 'f' (floatFormat (R := Float32)) TalkCons.getInfo 4
      (some [0]) :=
  (packet_undone_iff 'f' floatFormat rfl TalkCons.getInfo 4 (some [0])).mpr
    (Or.inr (Or.inl rfl))

/-- The answer to GET_ANGLES, with seven numbers. -/
theorem packet_tuple_swapped :
    ¬ ∀ (values : List Float32) (command subCommand : UInt8),
      PacketUndone 'f' floatFormat command subCommand (some values) := by
  intro undone
  obtain ⟨packet, packed, unpacked⟩ :=
    (undone (List.replicate 7 0) TalkCons.getInfo 1).restored (by decide)
  obtain ⟨same, packed_same, swapped⟩ := @packetUnpack_data Float32
    floatFormat TalkCons.getInfo 1 (some (List.replicate 7 0)) (by decide)
    (by decide)
  rw [packed, Option.some.injEq] at packed_same
  have known : packetUnpackAs 'f' (floatFormat (R := Float32)) packet =
      packetUnpack floatFormat packet := rfl
  rw [known, packed_same, swapped, Option.some.injEq] at unpacked
  have second := congrArg (fun tuple => tuple.2.1.toNat) unpacked
  exact absurd second (by decide)

end Quadcopter

import Quadcopter.Common.RingbufFifo
import Quadcopter.Kmod.Start
import Quadcopter.Kmod.Uaccess

/-
The firmware device of the kernel module (panda/kmod/firmware.c): quadcopter_write.

loff_t has 64 bits; size_t, ssize_t and pointers have 32.  A sum or difference of
*f_pos is therefore made in 64 bits and cut to 32 where it becomes a count or is
added to firmware_ptr.
-/

namespace Quadcopter.FirmwareDevice

open AtomicProgram

def minusEperm : Int32 := -1

/-- QUADCOPTER_FIRMWARE_LENGTH, next to a loff_t. -/
def firmwareLength : Int64 := Int64.ofNat quadcopterFirmwareLength.toNat

def storeFirmwareBytes (offset : UInt32) : List UInt8 → KmodProgram Unit
  | [] => return ()
  | byte :: bytes =>
      .step (.storeFirmware offset byte) (fun _ =>
        storeFirmwareBytes (offset + 1) bytes)

def copyFromUserToFirmware (offset : UInt32) (user : UserBuffer)
    (count : UInt32) : KmodProgram UInt32 := do
  let copied := copyFromUser (fun _ => 0) user.bytes 0 count (user.uncopied 0)
  storeFirmwareBytes offset (copied.2.first count.toNat)
  return copied.1

def clampedCount (fPos : Int64) (count : UInt32) : UInt32 :=
  if fPos + Int64.ofNat count.toNat > firmwareLength then
    (firmwareLength - fPos).toUInt64.toUInt32
  else count

def quadcopterWrite (call : Nat) (user : UserBuffer) (count : UInt32)
    (fPos : Int64) : KmodProgram Int32 := do
  let firmwareEnabled ← loadFirmwareEnabled
  if firmwareEnabled then do
    let count := clampedCount fPos count
    let left ← copyFromUserToFirmware fPos.toUInt64.toUInt32 user count
    if left ≠ 0 then return minusEinval
    else do
      storeFPos call (fPos + Int64.ofNat count.toNat)
      return count.toInt32
  else return minusEperm

def storeOps (offset : UInt32) : List UInt8 → List MachineOp
  | [] => []
  | byte :: bytes => .storeFirmware offset byte :: storeOps (offset + 1) bytes

private theorem storeOps_mem {offset at_ : UInt32} {bytes : List UInt8}
    {byte : UInt8}
    (member : .storeFirmware at_ byte ∈ storeOps offset bytes) :
    ∃ index, index < bytes.length ∧ at_ = offset + UInt32.ofNat index := by
  induction bytes generalizing offset with
  | nil => cases member
  | cons head bytes ih =>
      rcases List.mem_cons.mp member with here | later
      · cases here
        exact ⟨0, Nat.zero_lt_succ _, (UInt32.add_zero _).symm⟩
      · obtain ⟨index, inside, same⟩ := ih later
        refine ⟨index + 1, Nat.succ_lt_succ inside, ?_⟩
        rw [same, UInt32.add_assoc]
        congr 1
        rw [UInt32.ofNat_add, UInt32.add_comm]
        rfl

private theorem storeOps_count (offset : UInt32) (bytes : List UInt8) :
    (storeOps offset bytes).countP (fun op => op.storesFirmware) = bytes.length := by
  induction bytes generalizing offset with
  | nil => rfl
  | cons byte bytes ih =>
      unfold storeOps
      rw [List.countP_cons_of_pos rfl, ih, List.length_cons]

private theorem storeFirmwareBytes_run (offset : UInt32) (bytes : List UInt8)
    (machine : Machine) :
    (storeFirmwareBytes offset bytes).trace Machine.execute machine =
        storeOps offset bytes ∧
      ∃ firmware, (storeFirmwareBytes offset bytes).run Machine.execute
        machine = ((), { machine with firmware }) := by
  induction bytes generalizing offset machine with
  | nil => exact ⟨rfl, machine.firmware, rfl⟩
  | cons byte bytes ih =>
      obtain ⟨traced, firmware, ran⟩ := ih (offset + 1)
        { machine with
          firmware := Function.update machine.firmware offset byte }
      exact ⟨congrArg (List.cons _) traced, firmware, ran⟩

def leftOf (user : UserBuffer) (n : UInt32) : Nat :=
  min (user.uncopied 0) n.toNat

private theorem copy_run (offset : UInt32) (user : UserBuffer) (n : UInt32)
    (machine : Machine) :
    ∃ bytes firmware, bytes.length = n.toNat ∧
      (copyFromUserToFirmware offset user n).trace Machine.execute machine =
        storeOps offset bytes ∧
      (copyFromUserToFirmware offset user n).run Machine.execute machine =
        (UInt32.ofNat (leftOf user n), { machine with firmware }) := by
  let copied := copyFromUser (fun _ => 0) user.bytes 0 n (user.uncopied 0)
  obtain ⟨traced, firmware, ran⟩ := storeFirmwareBytes_run offset
    (copied.2.first n.toNat) machine
  refine ⟨copied.2.first n.toNat, firmware, Buffer.first_length _ _, ?_, ?_⟩
  · unfold copyFromUserToFirmware
    rw [Program.trace_bind, traced]
    exact List.append_nil _
  · unfold copyFromUserToFirmware
    rw [Program.run_bind, ran]
    rfl

private theorem leftOf_ne (user : UserBuffer) (n : UInt32) :
    UInt32.ofNat (leftOf user n) ≠ 0 ↔ user.uncopied 0 ≠ 0 ∧ n ≠ 0 := by
  have bound := n.toNat_lt
  have zero : n = 0 ↔ n.toNat = 0 := UInt32.toNat_inj.symm
  rw [Ne, Ne, Ne, zero, ← UInt32.toNat_inj, UInt32.toNat_ofNat']
  unfold leftOf
  change ¬ _ % _ = 0 ↔ ¬ _ = 0 ∧ ¬ _ = 0
  omega

structure Wrote (call : Nat) (user : UserBuffer) (machine : Machine)
    (n : UInt32) (result : Int32 × Machine) (ops : List MachineOp) : Prop where
  stored : ∃ bytes after, bytes.length = n.toNat ∧
    ops = .loadFirmwareEnabled ::
      (storeOps (machine.fPos call).toUInt64.toUInt32 bytes ++ after) ∧
    ∀ op ∈ after, op.storesFirmware = false
  complete : ¬ (user.uncopied 0 ≠ 0 ∧ n ≠ 0) →
    result.1 = n.toInt32 ∧
      result.2.fPos call = machine.fPos call + Int64.ofNat n.toNat
  cut : user.uncopied 0 ≠ 0 ∧ n ≠ 0 →
    result.1 = minusEinval ∧ result.2.fPos call = machine.fPos call

/-- What quadcopter_write does once it has passed its test. -/
def writeAdmitted (call : Nat) (user : UserBuffer) (n : UInt32)
    (fPos : Int64) : KmodProgram Int32 := do
  let left ← copyFromUserToFirmware fPos.toUInt64.toUInt32 user n
  if left ≠ 0 then return minusEinval
  else do
    storeFPos call (fPos + Int64.ofNat n.toNat)
    return n.toInt32

theorem quadcopterWrite_eq (call : Nat) (user : UserBuffer) (count : UInt32)
    (fPos : Int64) :
    quadcopterWrite call user count fPos =
      (loadFirmwareEnabled >>= fun firmwareEnabled =>
        if firmwareEnabled then
          writeAdmitted call user (clampedCount fPos count) fPos
        else .ret minusEperm) := rfl

private theorem quadcopterWrite_wrote {machine : Machine}
    (enabled : machine.firmwareEnabled = true) (call : Nat) (user : UserBuffer)
    (count : UInt32) :
    Wrote call user machine (clampedCount (machine.fPos call) count)
      ((quadcopterWrite call user count (machine.fPos call)).run
        Machine.execute machine)
      ((quadcopterWrite call user count (machine.fPos call)).trace
        Machine.execute machine) := by
  generalize fPos_eq : machine.fPos call = fPos
  generalize n_eq : clampedCount fPos count = n
  obtain ⟨bytes, firmware, length_eq, traced, ran⟩ :=
    copy_run fPos.toUInt64.toUInt32 user n machine
  have admitted : (quadcopterWrite call user count fPos).run Machine.execute
        machine = (writeAdmitted call user n fPos).run Machine.execute machine ∧
      (quadcopterWrite call user count fPos).trace Machine.execute machine =
        .loadFirmwareEnabled ::
          (writeAdmitted call user n fPos).trace Machine.execute machine := by
    have chosen : (if machine.firmwareEnabled then
        writeAdmitted call user (clampedCount fPos count) fPos
          else .ret minusEperm) = writeAdmitted call user n fPos := by
      rw [if_pos enabled, n_eq]
    constructor
    · exact congrArg (fun rest => rest.run Machine.execute machine) chosen
    · exact congrArg (fun rest => MachineOp.loadFirmwareEnabled ::
        rest.trace Machine.execute machine) chosen
  rw [admitted.1, admitted.2]
  unfold writeAdmitted
  rw [Program.run_bind, Program.trace_bind, traced, ran]
  by_cases cut : user.uncopied 0 ≠ 0 ∧ n ≠ 0
  · rw [if_pos ((leftOf_ne user n).mpr cut)]
    constructor
    · exact ⟨bytes, [], length_eq, by rw [fPos_eq]; rfl, by simp⟩
    · exact fun complete => absurd cut complete
    · exact fun _ => ⟨rfl, rfl⟩
  · rw [if_neg (mt (leftOf_ne user n).mp cut)]
    constructor
    · refine ⟨bytes, [.storeFPos call (fPos + Int64.ofNat n.toNat)], length_eq,
        by rw [fPos_eq]; rfl, ?_⟩
      intro op member
      rw [List.mem_singleton.mp member]
      rfl
    · intro _
      refine ⟨rfl, ?_⟩
      rw [fPos_eq]
      exact Function.update_self _ _ _
    · exact fun both => absurd both cut

section Clamp

variable {fPos : Int64} {count : UInt32}

private theorem firmwareLength_toInt :
    firmwareLength.toInt = 0x200000 := by decide

theorem count_toInt (count : UInt32) :
    (Int64.ofNat count.toNat).toInt = count.toNat := by
  have bound := count.toNat_lt
  exact Int64.toInt_ofNat_of_lt (by omega)

theorem sum_toInt (nonneg : 0 ≤ fPos.toInt)
    (fits : fPos.toInt + count.toNat < 2 ^ 63) :
    (fPos + Int64.ofNat count.toNat).toInt = fPos.toInt + count.toNat := by
  rw [Int64.toInt_add, count_toInt]
  exact MachineInt.bmod_eq_self (by omega) fits

private theorem sum_wraps (past : 2 ^ 63 ≤ fPos.toInt + count.toNat) :
    (fPos + Int64.ofNat count.toNat).toInt =
      fPos.toInt + count.toNat - 2 ^ 64 := by
  have bound := count.toNat_lt
  have below := fPos.toInt_lt
  rw [Int64.toInt_add, count_toInt]
  exact MachineInt.bmod_wraps past (by omega)

private theorem room_toInt (nonneg : 0 ≤ fPos.toInt) :
    (firmwareLength - fPos).toInt = 0x200000 - fPos.toInt := by
  have below := fPos.toInt_lt
  rw [Int64.toInt_sub, firmwareLength_toInt]
  exact MachineInt.bmod_eq_self (by omega) (by omega)

theorem clampedCount_fits (nonneg : 0 ≤ fPos.toInt)
    (fits : fPos.toInt + count.toNat < 2 ^ 63) :
    ((clampedCount fPos count).toNat : Int) =
      if fPos.toInt + count.toNat > 0x200000 then
        ((0x200000 - fPos.toInt) % 2 ^ 32 : Int)
      else (count.toNat : Int) := by
  have test : fPos + Int64.ofNat count.toNat > firmwareLength ↔
      fPos.toInt + count.toNat > 0x200000 := by
    rw [gt_iff_lt, Int64.lt_iff_toInt_lt, sum_toInt nonneg fits,
      firmwareLength_toInt]
  unfold clampedCount
  by_cases over_end : fPos.toInt + count.toNat > 0x200000
  · rw [if_pos (test.mpr over_end), if_pos over_end,
      MachineInt.toNat_truncated, room_toInt nonneg]
  · rw [if_neg (mt test.mp over_end), if_neg over_end]

/-- A sum that wraps is negative, and nothing is clamped. -/
theorem clampedCount_wraps (past : 2 ^ 63 ≤ fPos.toInt + count.toNat) :
    clampedCount fPos count = count := by
  have bound := count.toNat_lt
  have below := fPos.toInt_lt
  unfold clampedCount
  apply if_neg
  rw [gt_iff_lt, Int64.lt_iff_toInt_lt, sum_wraps past, firmwareLength_toInt]
  omega

end Clamp

structure StaysInside (machine : Machine) (call : Nat) (user : UserBuffer)
    (count : UInt32) (result : Int32 × Machine) (ops : List MachineOp) :
    Prop where
  inside : ∀ offset byte, .storeFirmware offset byte ∈ ops →
    offset < quadcopterFirmwareLength
  succeeds : user.uncopied 0 = 0 → 0 ≤ result.1.toInt
  counted : 0 ≤ result.1.toInt →
    result.1.toInt = ops.countP (fun op => op.storesFirmware) ∧
      result.1.toInt ≤ count.toNat ∧
      (result.2.fPos call).toInt = (machine.fPos call).toInt + result.1.toInt
  failed : result.1.toInt < 0 → result.2.fPos call = machine.fPos call
  limited : result.2.fPos call = machine.fPos call ∨
    (result.2.fPos call).toInt ≤ quadcopterFirmwareLength.toNat

def RoomOrNothing (fPos : Int64) (count : UInt32) : Prop :=
  fPos.toInt ≤ quadcopterFirmwareLength.toNat ∨
    fPos.toInt % 2 ^ 32 = quadcopterFirmwareLength.toNat ∧
      fPos.toInt + count.toNat < 2 ^ 63

theorem length_toNat : quadcopterFirmwareLength.toNat = 0x200000 := rfl

theorem RoomOrNothing.clamped {fPos : Int64} {count : UInt32}
    (nonneg : 0 ≤ fPos.toInt) (room : RoomOrNothing fPos count) :
    (clampedCount fPos count).toNat ≤ count.toNat ∧
      ((clampedCount fPos count).toNat = 0 ∨
        fPos.toInt + (clampedCount fPos count).toNat ≤ 0x200000) := by
  have bound := count.toNat_lt
  unfold RoomOrNothing at room
  rw [length_toNat] at room
  have clamped := @clampedCount_fits fPos count nonneg (by omega)
  split at clamped <;> omega

theorem Wrote.count_eq {call : Nat} {user : UserBuffer} {machine : Machine}
    {n : UInt32} {result : Int32 × Machine} {ops : List MachineOp}
    (wrote : Wrote call user machine n result ops) :
    ops.countP (fun op => op.storesFirmware) = n.toNat := by
  obtain ⟨bytes, after, length_eq, same, quiet⟩ := wrote.stored
  have none_after : after.countP (fun op => op.storesFirmware) = 0 :=
    List.countP_eq_zero.mpr (fun op member => by simp [quiet op member])
  rw [same, List.countP_cons_of_neg (by decide), List.countP_append,
    storeOps_count, none_after, length_eq, Nat.add_zero]

private theorem Wrote.stores_at {call : Nat} {user : UserBuffer}
    {machine : Machine}
    {n : UInt32} {result : Int32 × Machine} {ops : List MachineOp}
    (wrote : Wrote call user machine n result ops) {offset : UInt32}
    {byte : UInt8} (member : .storeFirmware offset byte ∈ ops) :
    ∃ index, index < n.toNat ∧
      offset = (machine.fPos call).toUInt64.toUInt32 + UInt32.ofNat index := by
  obtain ⟨bytes, after, length_eq, same, quiet⟩ := wrote.stored
  rw [same] at member
  rcases List.mem_cons.mp member with first | rest
  · cases first
  · rcases List.mem_append.mp rest with stored | last
    · rw [← length_eq]
      exact storeOps_mem stored
    · exact Bool.noConfusion (quiet _ last)

private theorem Wrote.staysInside {call : Nat} {user : UserBuffer}
    {machine : Machine}
    {count n : UInt32} {result : Int32 × Machine} {ops : List MachineOp}
    (wrote : Wrote call user machine n result ops)
    (nonneg : 0 ≤ (machine.fPos call).toInt) (short : n.toNat ≤ count.toNat)
    (room : n.toNat = 0 ∨ (machine.fPos call).toInt + n.toNat ≤ 0x200000) :
    StaysInside machine call user count result ops := by
  have count_eq := wrote.count_eq
  have n_small : n.toInt32.toInt = n.toNat :=
    MachineInt.toInt_toInt32 n (by omega)
  have below := (machine.fPos call).toInt_lt
  have truncated := MachineInt.toNat_truncated (machine.fPos call)
  have inside : ∀ offset byte, .storeFirmware offset byte ∈ ops →
      offset < quadcopterFirmwareLength := by
    intro offset byte member
    obtain ⟨index, index_lt, same⟩ := wrote.stores_at member
    apply UInt32.lt_iff_toNat_lt.mpr
    rw [length_toNat, same, UInt32.toNat_add, UInt32.toNat_ofNat']
    omega
  by_cases cut : user.uncopied 0 ≠ 0 ∧ n ≠ 0
  · obtain ⟨value_eq, fPos_eq⟩ := wrote.cut cut
    have negative : result.1.toInt = -22 := by
      rw [value_eq]
      rfl
    constructor
    · exact inside
    · exact fun complete => absurd complete cut.1
    · intro impossible
      omega
    · exact fun _ => fPos_eq
    · exact Or.inl fPos_eq
  · obtain ⟨value_eq, fPos_eq⟩ := wrote.complete cut
    have sum_eq : (result.2.fPos call).toInt =
        (machine.fPos call).toInt + n.toNat := by
      rw [fPos_eq]
      exact sum_toInt nonneg (by omega)
    rw [← value_eq] at n_small
    constructor
    · exact inside
    · intro _
      omega
    · intro _
      exact ⟨by omega, by omega, by omega⟩
    · intro impossible
      omega
    · rw [length_toNat]
      rcases room with nothing | fits
      · left
        rw [fPos_eq, nothing]
        exact Int64.add_zero _
      · right
        omega

theorem Wrote.room {call : Nat} {user : UserBuffer} {machine : Machine}
    {count : UInt32} {result : Int32 × Machine} {ops : List MachineOp}
    (wrote : Wrote call user machine (clampedCount (machine.fPos call) count)
      result ops)
    (complete : user.uncopied 0 = 0) (nonneg : 0 ≤ (machine.fPos call).toInt)
    (stays : StaysInside machine call user count result ops) :
    RoomOrNothing (machine.fPos call) count := by
  obtain ⟨value_eq, fPos_eq⟩ := wrote.complete (fun cut => cut.1 complete)
  obtain ⟨counted, _, moved⟩ := stays.counted (stays.succeeds complete)
  rw [wrote.count_eq] at counted
  unfold RoomOrNothing
  rw [length_toNat]
  by_cases fits : (machine.fPos call).toInt + count.toNat < 2 ^ 63
  · have clamped := clampedCount_fits nonneg fits
    by_contra outside
    rcases stays.limited with same | low
    · rw [same] at moved
      split at clamped <;> omega
    · rw [length_toNat] at low
      split at clamped <;> omega
  · have clamped := @clampedCount_wraps (machine.fPos call) count (by omega)
    rw [clamped] at counted fPos_eq
    rw [fPos_eq, sum_wraps (by omega)] at moved
    omega

/-- A write keeps to the image, however its copy goes, exactly when it begins
inside, or when its clamp comes to nothing. -/
theorem firmware_write_stays_iff {machine : Machine}
    (enabled : machine.firmwareEnabled = true) (call : Nat) (count : UInt32)
    (nonneg : 0 ≤ (machine.fPos call).toInt) :
    (∀ user, StaysInside machine call user count
      ((quadcopterWrite call user count (machine.fPos call)).run
        Machine.execute machine)
      ((quadcopterWrite call user count (machine.fPos call)).trace
        Machine.execute machine)) ↔
      RoomOrNothing (machine.fPos call) count := by
  constructor
  · intro all
    have wrote := quadcopterWrite_wrote enabled call
      (UserBuffer.readable (fun _ => 0)) count
    exact wrote.room rfl nonneg (all _)
  · intro room user
    have wrote := quadcopterWrite_wrote enabled call user count
    obtain ⟨short, inside⟩ := room.clamped nonneg
    exact wrote.staysInside nonneg short inside

theorem firmware_write_stays_iff_of_idle :
    (∀ user, StaysInside Machine.idle 0 user 4
      ((quadcopterWrite 0 user 4 (Machine.idle.fPos 0)).run
        Machine.execute Machine.idle)
      ((quadcopterWrite 0 user 4 (Machine.idle.fPos 0)).trace
        Machine.execute Machine.idle)) ↔
      RoomOrNothing (Machine.idle.fPos 0) 4 :=
  firmware_write_stays_iff rfl 0 4 (by decide)

/-- One byte, written one byte after the end of the image: the clamp comes to
2^32 - 1 bytes. -/
theorem firmware_write_escapes :
    ¬ ∀ user, StaysInside { Machine.idle with fPos := fun _ => 0x200001 } 0
      user 1
      ((quadcopterWrite 0 user 1 0x200001).run Machine.execute
        { Machine.idle with fPos := fun _ => 0x200001 })
      ((quadcopterWrite 0 user 1 0x200001).trace Machine.execute
        { Machine.idle with fPos := fun _ => 0x200001 }) := by
  intro all
  have wrote := quadcopterWrite_wrote
    (show { Machine.idle with fPos := fun _ => 0x200001 }.firmwareEnabled = true
      from rfl) 0 (UserBuffer.readable (fun _ => 0)) 1
  have room := wrote.room rfl (by decide) (all _)
  have outside : ¬ RoomOrNothing 0x200001 1 := by
    unfold RoomOrNothing
    decide
  exact outside room

end Quadcopter.FirmwareDevice

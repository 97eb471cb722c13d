import Quadcopter.Kmod.FirmwareDevice
import Quadcopter.Kmod.Start

/-
How the m3 gets its program (panda/user/start_m3.py): the core is stopped, the
image is written to the firmware device in as many writes as the file object
makes of it, and the core is started.

The file object's offset is 0 when it has been opened, and is what the driver has
made of it after each write; a write that is not taken whole is an IOError.
-/

namespace Quadcopter

open AtomicProgram SectionTable FirmwareDevice

def chunkBuffer (chunk : List UInt8) : UserBuffer :=
  .readable (fun index => chunk.getD index 0)

/-- The writes of firm_out, and whether each was taken whole. -/
def firmwareWrites (call : Nat) : List (List UInt8) → (fPos : Int64) →
    KmodProgram Bool
  | [], _ => return true
  | chunk :: chunks, fPos => do
      let count := UInt32.ofNat chunk.length
      let taken ← quadcopterWrite call (chunkBuffer chunk) count fPos
      if taken = count.toInt32 then
        firmwareWrites call chunks (fPos + Int64.ofNat count.toNat)
      else return false

def loadM3 (call : Nat) (chunks : List (List UInt8)) : KmodProgram Bool := do
  let written ← firmwareWrites call chunks 0
  if written then do
    let _ ← quadcopterIoctl quadcopterStart
    return true
  else return false

def startM3 (call : Nat) (chunks : List (List UInt8)) : KmodProgram Bool := do
  let _ ← quadcopterIoctl quadcopterStop
  loadM3 call chunks

def Machine.m3Load (machine : Machine) (v : UInt32) : Option UInt8 :=
  match translate machine.table v with
  | none => none
  | some p =>
      if Window.program.phys ≤ p ∧
          p - Window.program.phys < quadcopterFirmwareLength then
        some (machine.firmware (p - Window.program.phys))
      else none

def Machine.Holds (image : List UInt8) (machine : Machine) : Prop :=
  ∀ i (inside : i < image.length),
    machine.m3Load (UInt32.ofNat i) = some image[i]

/-- The mmu runs, on the table, which holds every window of START. -/
structure Machine.Translating (machine : Machine) : Prop where
  running : machine.register .rstctrl &&& m3MmuReset = 0
  enabled : machine.register .cntl = cntlTwlenable ||| cntlMmuenable
  walks : machine.register .ttb = mmuTableRegion
  filled : Represents sectionAttributes machine.table startMapping

/-- A core out of reset has its mmu on, and finds the whole image. -/
def Machine.RunsOnly (image : List UInt8) (machine : Machine) : Prop :=
  ¬ machine.InReset → machine.Translating ∧ machine.Holds image

def Machine.BeginsWith (done : List UInt8) (machine : Machine) : Prop :=
  ∀ i (inside : i < done.length), machine.firmware (UInt32.ofNat i) = done[i]

private theorem storeFirmwareBytes_appends {done : List UInt8}
    (bytes : List UInt8)
    (fits : done.length + bytes.length ≤ 2 ^ 32) {machine : Machine}
    (begins : machine.BeginsWith done) :
    ∃ firmware, (storeFirmwareBytes (UInt32.ofNat done.length) bytes).run
        Machine.execute machine = ((), { machine with firmware }) ∧
      Machine.BeginsWith (done ++ bytes) { machine with firmware } := by
  induction bytes generalizing done machine with
  | nil =>
      refine ⟨machine.firmware, rfl, ?_⟩
      rw [List.append_nil]
      exact begins
  | cons byte bytes ih =>
      rw [List.length_cons] at fits
      have longer : Machine.BeginsWith (done ++ [byte])
          { machine with
            firmware := Function.update machine.firmware
              (UInt32.ofNat done.length) byte } := by
        intro i inside
        rw [List.length_append, List.length_singleton] at inside
        rcases Nat.lt_succ_iff_lt_or_eq.mp inside with before | last
        · have other : UInt32.ofNat i ≠ UInt32.ofNat done.length := by
            intro same
            have numbers := congrArg UInt32.toNat same
            rw [UInt32.toNat_ofNat', UInt32.toNat_ofNat'] at numbers
            omega
          change Function.update _ _ _ _ = _
          rw [Function.update_of_ne other, List.getElem_append_left before]
          exact begins i before
        · subst last
          change Function.update _ _ _ _ = _
          rw [Function.update_self, List.getElem_concat_length rfl]
      have next : (done ++ [byte]).length = done.length + 1 := by
        rw [List.length_append, List.length_singleton]
      obtain ⟨firmware, ran, begun⟩ := ih (by rw [next]; omega) longer
      refine ⟨firmware, ?_, ?_⟩
      · rw [next, UInt32.ofNat_add] at ran
        exact ran
      · rw [List.append_assoc] at begun
        exact begun

private theorem chunkBuffer_first (chunk : List UInt8) {n : UInt32}
    (count : n.toNat = chunk.length) :
    (copyFromUser (fun _ => 0) (chunkBuffer chunk).bytes 0 n
      ((chunkBuffer chunk).uncopied 0)).2.first n.toNat = chunk := by
  unfold Buffer.first
  apply List.ext_getElem
  · rw [List.length_map, List.length_range]
    exact count
  · intro i inside member
    rw [List.getElem_map, List.getElem_range]
    change (copyFromUser _ _ 0 n 0).2 i = _
    rw [copyFromUser_complete _ _ _ _ (by omega), Nat.zero_add]
    change chunk.getD i 0 = chunk[i]
    rw [List.getD_eq_getElem?_getD, List.getElem?_eq_getElem member,
      Option.getD_some]

private theorem write_chunk (call : Nat) {done chunk : List UInt8}
    (fits : done.length + chunk.length ≤ 0x200000) {fPos : Int64}
    (reached : fPos.toInt = done.length) {machine : Machine}
    (enabled : machine.firmwareEnabled = true)
    (begins : machine.BeginsWith done) :
    ∃ later : Machine,
      (quadcopterWrite call (chunkBuffer chunk) (UInt32.ofNat chunk.length)
        fPos).run Machine.execute machine =
          ((UInt32.ofNat chunk.length).toInt32, later) ∧
      later.register = machine.register ∧
      later.firmwareEnabled = true ∧ later.BeginsWith (done ++ chunk) := by
  have count : (UInt32.ofNat chunk.length).toNat = chunk.length := by
    rw [UInt32.toNat_ofNat']
    omega
  have whole : clampedCount fPos (UInt32.ofNat chunk.length) =
      UInt32.ofNat chunk.length := by
    have clamped := @clampedCount_fits fPos (UInt32.ofNat chunk.length)
      (by omega) (by omega)
    rw [if_neg (by omega)] at clamped
    apply UInt32.toNat_inj.mp
    omega
  have offset : fPos.toUInt64.toUInt32 = UInt32.ofNat done.length := by
    have truncated := MachineInt.toNat_truncated fPos
    apply UInt32.toNat_inj.mp
    rw [UInt32.toNat_ofNat']
    omega
  obtain ⟨firmware, ran, begun⟩ := storeFirmwareBytes_appends chunk (by omega)
    begins
  have copied : (copyFromUserToFirmware (UInt32.ofNat done.length)
      (chunkBuffer chunk) (UInt32.ofNat chunk.length)).run Machine.execute
        machine = (0, { machine with firmware }) := by
    unfold copyFromUserToFirmware
    dsimp only
    rw [Program.run_bind, chunkBuffer_first chunk count, ran]
    rfl
  refine ⟨{ machine with
    firmware
    fPos := Function.update machine.fPos call
      (fPos + Int64.ofNat (UInt32.ofNat chunk.length).toNat) }, ?_, rfl, enabled,
    begun⟩
  rw [quadcopterWrite_eq, Program.run_bind]
  change ((if machine.firmwareEnabled then _ else _ : KmodProgram Int32).run
    Machine.execute machine) = _
  rw [if_pos enabled, whole]
  unfold writeAdmitted
  rw [offset, Program.run_bind, copied]
  rfl

private theorem writes_load (call : Nat) (chunks : List (List UInt8))
    {done : List UInt8} (fits : done.length + chunks.flatten.length ≤ 0x200000)
    {fPos : Int64} (reached : fPos.toInt = done.length) {machine : Machine}
    (enabled : machine.firmwareEnabled = true)
    (begins : machine.BeginsWith done) :
    ∃ later : Machine,
      (firmwareWrites call chunks fPos).run Machine.execute machine =
          (true, later) ∧
      later.register = machine.register ∧
      later.BeginsWith (done ++ chunks.flatten) := by
  induction chunks generalizing done fPos machine with
  | nil =>
      refine ⟨machine, rfl, rfl, ?_⟩
      rw [List.flatten_nil, List.append_nil]
      exact begins
  | cons chunk chunks ih =>
      rw [List.flatten_cons, List.length_append] at fits
      have chunk_fits : done.length + chunk.length ≤ 0x200000 := by omega
      obtain ⟨middle, ran, same, still, begun⟩ :=
        write_chunk call chunk_fits reached enabled begins
      have count : (UInt32.ofNat chunk.length).toNat = chunk.length := by
        rw [UInt32.toNat_ofNat']
        omega
      have next : (fPos + Int64.ofNat (UInt32.ofNat chunk.length).toNat).toInt =
          (done ++ chunk).length := by
        rw [sum_toInt (by omega) (by omega), reached, count,
          List.length_append]
        rfl
      have room : (done ++ chunk).length + chunks.flatten.length ≤
          0x200000 := by
        rw [List.length_append]
        omega
      obtain ⟨later, ran_rest, same_rest, begun_rest⟩ :=
        ih room next still begun
      refine ⟨later, ?_, same_rest.trans same, ?_⟩
      · unfold firmwareWrites
        dsimp only
        rw [Program.run_bind, ran]
        dsimp only
        rw [if_pos rfl]
        exact ran_rest
      · rw [List.flatten_cons, ← List.append_assoc]
        exact begun_rest

def MachineOp.OffRegisters : MachineOp → Prop
  | .iowrite32 _ _ => False
  | _ => True

theorem MachineOp.OffRegisters.inReset {op : MachineOp}
    (off : op.OffRegisters) {machine : Machine} (held : machine.InReset) :
    (Machine.execute op machine).2.InReset := by
  cases op with
  | iowrite32 value register => exact off.elim
  | _ => exact held

private theorem storeFirmwareBytes_off (offset : UInt32) (bytes : List UInt8) :
    (storeFirmwareBytes offset bytes).Forall MachineOp.OffRegisters := by
  induction bytes generalizing offset with
  | nil => trivial
  | cons byte bytes ih => exact ⟨trivial, fun _ => ih (offset + 1)⟩

private theorem quadcopterWrite_off (call : Nat) (user : UserBuffer)
    (count : UInt32)
    (fPos : Int64) :
    (quadcopterWrite call user count fPos).Forall MachineOp.OffRegisters := by
  have admitted : (writeAdmitted call user (clampedCount fPos count)
      fPos).Forall MachineOp.OffRegisters := by
    unfold writeAdmitted
    apply Program.Forall.bind
    · exact (storeFirmwareBytes_off _ _).bind (fun _ => trivial)
    · intro left
      split
      · trivial
      · exact ⟨trivial, fun _ => trivial⟩
  have each : ∀ enabled : Bool, (if enabled then
      writeAdmitted call user (clampedCount fPos count) fPos
        else .ret minusEperm : KmodProgram Int32).Forall
          MachineOp.OffRegisters := by
    intro enabled
    cases enabled with
    | true => exact admitted
    | false => trivial
  rw [quadcopterWrite_eq]
  exact ⟨trivial, each⟩

private theorem firmwareWrites_off (call : Nat) (chunks : List (List UInt8))
    (fPos : Int64) :
    (firmwareWrites call chunks fPos).Forall MachineOp.OffRegisters := by
  induction chunks generalizing fPos with
  | nil => trivial
  | cons chunk chunks ih =>
      apply (quadcopterWrite_off _ _ _ _).bind
      intro taken
      split
      · exact ih _
      · trivial

private theorem translate_program {table : Buffer}
    (started : Represents sectionAttributes table startMapping) {i : Nat}
    (inside : i < 0x200000) :
    ∃ p, translate table (UInt32.ofNat i) = some p ∧
      p.toNat = Window.program.phys.toNat + i := by
  have number : (UInt32.ofNat i).toNat = i := by
    rw [UInt32.toNat_ofNat']
    omega
  have phys : Window.program.phys.toNat = 0x9E100000 := by decide
  have first : startMapping 0 = some 0x9E1 := by decide
  have second : startMapping 1 = some 0x9E2 := by decide
  have mapped := started.translate_eq (UInt32.ofNat i)
  unfold megabyteOf at mapped
  rw [number] at mapped
  rcases Nat.lt_or_ge i (2 ^ 20) with low | high
  · rw [Nat.div_eq_of_lt low, first, Option.map_some] at mapped
    obtain ⟨p, found, value⟩ := Option.map_eq_some_iff.mp mapped
    exact ⟨p, found, by omega⟩
  · rw [show i / 2 ^ 20 = 1 by omega, second, Option.map_some] at mapped
    obtain ⟨p, found, value⟩ := Option.map_eq_some_iff.mp mapped
    exact ⟨p, found, by omega⟩

private theorem cleared_bit (reg : UInt32) :
    reg &&& ~~~m3MmuReset &&& ~~~m3Cpu1Reset &&& m3MmuReset = 0 := by
  have clear : ~~~m3MmuReset &&& (~~~m3Cpu1Reset &&& m3MmuReset) = 0 := by
    decide
  rw [UInt32.and_assoc, UInt32.and_assoc, clear, UInt32.and_zero]

private theorem holds_of_started {image : List UInt8}
    (fits : image.length ≤ 0x200000) {machine : Machine}
    (filled : Represents sectionAttributes machine.table startMapping)
    (begins : machine.BeginsWith image) : machine.Holds image := by
  intro i inside
  obtain ⟨p, reached, number⟩ := translate_program filled
    (Nat.lt_of_lt_of_le inside fits)
  have low : Window.program.phys ≤ p := by
    rw [UInt32.le_iff_toNat_le]
    omega
  have offset : p - Window.program.phys = UInt32.ofNat i := by
    apply UInt32.toNat_inj.mp
    rw [UInt32.toNat_sub_of_le _ _ low, UInt32.toNat_ofNat']
    omega
  have small : UInt32.ofNat i < quadcopterFirmwareLength := by
    rw [UInt32.lt_iff_toNat_lt, UInt32.toNat_ofNat', length_toNat]
    omega
  unfold Machine.m3Load
  rw [reached]
  dsimp only
  rw [offset, if_pos ⟨low, small⟩, begins i inside]

/-- A START that finds the core in reset and the image written. -/
theorem start_runsOnly {image : List UInt8} (fits : image.length ≤ 0x200000)
    {machine : Machine} (held : machine.InReset)
    (begins : machine.BeginsWith image) :
    (quadcopterIoctl quadcopterStart).Throughout Machine.execute
        (Machine.RunsOnly image) machine ∧
      ((quadcopterIoctl quadcopterStart).run Machine.execute
        machine).2.Translating ∧
      ((quadcopterIoctl quadcopterStart).run Machine.execute
        machine).2.Holds image := by
  obtain ⟨table, filled, ran⟩ := run_startTable machine
  have kept := kept_bit (machine.register .rstctrl)
  have before : ∀ later : Machine,
      later.register .rstctrl &&& 1 = machine.register .rstctrl &&& 1 →
        later.RunsOnly image := by
    intro later same released
    exact absurd (same.trans held) released
  have after : (startCore.run Machine.execute
        (machine.withTable table)).2.Translating ∧
      (startCore.run Machine.execute (machine.withTable table)).2.Holds
        image :=
    ⟨⟨cleared_bit _, rfl, rfl, filled⟩,
      holds_of_started fits filled (fun i inside => begins i inside)⟩
  rw [quadcopterIoctl_start, ← Program.bind_assoc]
  constructor
  · rw [Program.throughout_bind, ran]
    constructor
    · apply Program.Throughout.mono _ (startTable_onTable.throughout
        (fun _ _ onTable => onTable.inReset) held)
      intro later later_held released
      exact absurd later_held released
    · exact ⟨before _ rfl, before _ rfl, before _ rfl, before _ rfl,
        before _ kept, before _ kept, before _ kept, before _ kept,
        before _ kept, fun _ => after⟩
  · rw [Program.run_bind, ran]
    exact after

/-- Whatever the m3 did before, once it has been stopped it does not run until its
mmu is on and it finds the whole image, and in the end it runs and the image
cannot be written. -/
theorem start_m3_boots_image (call : Nat) {image : List UInt8}
    {chunks : List (List UInt8)} (whole : chunks.flatten = image)
    (fits : image.length ≤ quadcopterFirmwareLength.toNat) (machine : Machine) :
    ∃ stopped later : Machine,
      ((quadcopterIoctl quadcopterStop).run Machine.execute machine).2 =
          stopped ∧ stopped.InReset ∧
      (startM3 call chunks).run Machine.execute machine = (true, later) ∧
      (loadM3 call chunks).Throughout Machine.execute
        (Machine.RunsOnly image) stopped ∧
      later.Started ∧ later.Translating ∧ later.Holds image := by
  rw [length_toNat] at fits
  generalize stopped_eq :
    ((quadcopterIoctl quadcopterStop).run Machine.execute machine).2 = stopped
  have held : stopped.InReset := by
    rw [← stopped_eq]
    exact held_bit (machine.register .rstctrl)
  have enabled : stopped.firmwareEnabled = true := by
    rw [← stopped_eq]
    rfl
  obtain ⟨written, ran, same, begun⟩ := @writes_load call chunks []
    (by rw [whole, List.length_nil, Nat.zero_add]; exact fits) 0 rfl stopped
    enabled (fun i inside => absurd inside (Nat.not_lt_zero i))
  rw [List.nil_append, whole] at begun
  have written_held : written.InReset := by
    unfold Machine.InReset
    rw [same]
    exact held
  obtain ⟨throughout, translating, holds⟩ :=
    start_runsOnly fits written_held begun
  refine ⟨stopped, ((quadcopterIoctl quadcopterStart).run Machine.execute
    written).2, rfl, held, ?_, ?_, start_started written,
    translating, holds⟩
  · unfold startM3 loadM3
    rw [Program.run_bind, stopped_eq, Program.run_bind, ran]
    dsimp only
    rw [if_pos rfl, Program.run_bind]
    rfl
  · unfold loadM3
    rw [Program.throughout_bind, ran]
    constructor
    · apply Program.Throughout.mono _ ((firmwareWrites_off call chunks 0).throughout
        (fun _ _ off => off.inReset) held)
      intro later later_held released
      exact absurd later_held released
    · dsimp only
      rw [if_pos rfl, Program.throughout_bind]
      exact ⟨throughout, fun _ => ⟨translating, holds⟩⟩

/-- An image of three bytes in two writes, to an m3 that runs. -/
theorem start_m3_boots_three_bytes :
    ∃ stopped later : Machine,
      ((quadcopterIoctl quadcopterStop).run Machine.execute
          { Machine.idle with register := fun _ => 0 }).2 = stopped ∧
        stopped.InReset ∧
      (startM3 0 [[1, 2], [3]]).run Machine.execute
        { Machine.idle with register := fun _ => 0 } = (true, later) ∧
      (loadM3 0 [[1, 2], [3]]).Throughout Machine.execute
        (Machine.RunsOnly [1, 2, 3]) stopped ∧
      later.Started ∧ later.Translating ∧ later.Holds [1, 2, 3] :=
  start_m3_boots_image 0 rfl (by decide) _

end Quadcopter

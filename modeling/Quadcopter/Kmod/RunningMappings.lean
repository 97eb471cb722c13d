import Quadcopter.Kmod.Start

/-
The mappings of a running m3.

START clears the table before it fills it again, and does not hold the core in
reset meanwhile.  A START that finds the core running takes its program away
from under it.
-/

namespace Quadcopter

open AtomicProgram SectionTable

/-- A core out of reset has an entry for every megabyte of its program and its
stack. -/
def Machine.KeepsMappings (machine : Machine) : Prop :=
  ¬ machine.InReset → ∀ v, Window.program.Holds v ∨ Window.stack.Holds v →
    IsSection (entry machine.table (megabyteOf v))

def runsAfter (runs : Bool) (ioctlNum : UInt32) : Bool :=
  if ioctlNum = quadcopterStop then false
  else if ioctlNum = quadcopterStart then true
  else runs

/-- Whether the core runs after some ioctls, the first of which found it in
reset. -/
def runsAfterAll (ioctlNums : List UInt32) : Bool :=
  ioctlNums.foldl runsAfter false

private theorem Machine.InReset.keepsMappings {machine : Machine}
    (held : machine.InReset) : machine.KeepsMappings :=
  fun released => absurd held released

private theorem started_entries {table : Buffer}
    (started : Represents sectionAttributes table startMapping) {v : UInt32}
    (inside : Window.program.Holds v ∨ Window.stack.Holds v) :
    IsSection (entry table (megabyteOf v)) := by
  have mapped : ∀ megabyte ∈ [0, 1, 3],
      (startMapping megabyte).isSome = true := by decide
  have member : megabyteOf v ∈ [0, 1, 3] := by
    have program_eq : Window.program.virt.toNat = 0 ∧
        Window.program.lenMb = 2 := by decide
    have stack_eq : Window.stack.virt.toNat = 0x300000 ∧
        Window.stack.lenMb = 1 := by decide
    unfold Window.Holds at inside
    rw [program_eq.1, program_eq.2, stack_eq.1, stack_eq.2] at inside
    simp only [List.mem_cons, List.not_mem_nil, or_false]
    unfold megabyteOf
    omega
  obtain ⟨target, found⟩ :=
    Option.isSome_iff_exists.mp (mapped (megabyteOf v) member)
  exact started.isSection_entry (megabyteOf_lt v) found

private theorem Machine.Started.keepsMappings {machine : Machine}
    (started : machine.Started) : machine.KeepsMappings :=
  fun _ _ inside => started_entries started.table inside

structure Machine.Between (runs : Bool) (machine : Machine) : Prop where
  inReset_iff : machine.InReset ↔ runs = false
  keeps : machine.KeepsMappings

private theorem stop_throughout {machine : Machine}
    (keeps : machine.KeepsMappings) :
    (quadcopterIoctl quadcopterStop).Throughout Machine.execute
      Machine.KeepsMappings machine := by
  have held := held_bit (machine.register .rstctrl)
  have later_held : ∀ later : Machine, later.register .rstctrl =
      machine.register .rstctrl ||| m3Cpu1Reset → later.KeepsMappings := by
    intro later same
    apply Machine.InReset.keepsMappings
    unfold Machine.InReset
    rw [same]
    exact held
  exact ⟨keeps, keeps, later_held _ rfl, later_held _ rfl⟩

private theorem stop_inReset (machine : Machine) :
    ((quadcopterIoctl quadcopterStop).run Machine.execute
      machine).2.InReset :=
  held_bit (machine.register .rstctrl)

private theorem startCore_throughout {machine : Machine}
    (held : machine.InReset)
    (filled : Represents sectionAttributes machine.table startMapping) :
    startCore.Throughout Machine.execute Machine.KeepsMappings machine := by
  have before : ∀ later : Machine,
      later.register .rstctrl &&& 1 = machine.register .rstctrl &&& 1 →
        later.KeepsMappings := by
    intro later same
    exact Machine.InReset.keepsMappings (same.trans held)
  have after : ∀ later : Machine, later.table = machine.table →
      later.KeepsMappings := by
    intro later same _ v inside
    rw [same]
    exact started_entries filled inside
  have kept := kept_bit (machine.register .rstctrl)
  exact ⟨before _ rfl, before _ rfl, before _ rfl, before _ rfl, before _ kept,
    before _ kept, before _ kept, before _ kept, before _ kept, after _ rfl⟩

private theorem start_throughout {machine : Machine} (held : machine.InReset) :
    (quadcopterIoctl quadcopterStart).Throughout Machine.execute
      Machine.KeepsMappings machine := by
  obtain ⟨table, filled, ran⟩ := run_startTable machine
  rw [quadcopterIoctl_start, ← Program.bind_assoc, Program.throughout_bind, ran]
  constructor
  · apply Program.Throughout.mono (fun _ => Machine.InReset.keepsMappings)
    exact startTable_onTable.throughout
      (fun _ _ onTable => onTable.inReset) held
  · exact startCore_throughout held filled

/-- A START that finds the core running clears the entry of its first megabyte
with its first store. -/
theorem start_not_throughout {machine : Machine} (released : ¬ machine.InReset) :
    ¬ (quadcopterIoctl quadcopterStart).Throughout Machine.execute
      Machine.KeepsMappings machine := by
  intro throughout
  rw [quadcopterIoctl_start, Program.throughout_bind] at throughout
  have length : mmuTableLength.toNat = 16383 + 1 := by decide
  have init := throughout.1
  unfold mmuInit at init
  rw [length, Program.throughout_bind] at init
  have keeps := init.1.2.first
  have inside : Window.program.Holds 0 := by
    constructor <;> decide
  have present := (isSection_iff _).mp (keeps released 0 (Or.inl inside))
  have low_clear : ∀ table : Buffer,
      (MachineInt.wordAt (Function.update table 0 0) 0).toNat % 4 = 0 := by
    intro table
    unfold MachineInt.wordAt
    rw [Function.update_self, UInt32.toNat_ofNat']
    have zero : (0 : UInt8).toNat = 0 := rfl
    omega
  have clear := low_clear machine.table
  exact absurd (clear.symm.trans present) (by decide)

private theorem ioctl_between {ioctlNum : UInt32} {runs : Bool}
    {machine : Machine}
    (between : machine.Between runs)
    (finds_reset : ioctlNum = quadcopterStart → runs = false) :
    (quadcopterIoctl ioctlNum).Throughout Machine.execute
        Machine.KeepsMappings machine ∧
      ((quadcopterIoctl ioctlNum).run Machine.execute machine).2.Between
        (runsAfter runs ioctlNum) := by
  unfold runsAfter
  by_cases stop : ioctlNum = quadcopterStop
  · have held := stop_inReset machine
    subst stop
    rw [if_pos rfl]
    exact ⟨stop_throughout between.keeps, iff_of_true held rfl,
      held.keepsMappings⟩
  · rw [if_neg stop]
    by_cases start : ioctlNum = quadcopterStart
    · have held := between.inReset_iff.mpr (finds_reset start)
      have started := start_started machine
      subst start
      rw [if_pos rfl]
      exact ⟨start_throughout held, iff_of_false started.released (by decide),
        started.keepsMappings⟩
    · rw [if_neg start, ioctl_other stop start]
      exact ⟨between.keeps, between⟩

def StartsFindReset (runs : Bool) (ioctlNums : List UInt32) : Prop :=
  ∀ before, before ++ [quadcopterStart] <+: ioctlNums →
    before.foldl runsAfter runs = false

private theorem startsFindReset_cons (runs : Bool) (ioctlNum : UInt32)
    (rest : List UInt32) :
    StartsFindReset runs (ioctlNum :: rest) ↔
      (ioctlNum = quadcopterStart → runs = false) ∧
        StartsFindReset (runsAfter runs ioctlNum) rest := by
  constructor
  · intro all
    constructor
    · intro start
      apply all []
      rw [start, List.nil_append]
      exact ⟨rest, rfl⟩
    · intro before ⟨after, same⟩
      apply all (ioctlNum :: before)
      exact ⟨after, congrArg (List.cons ioctlNum) same⟩
  · intro ⟨first, others⟩ before ⟨after, same⟩
    cases before with
    | nil => exact first (List.cons.inj same).1.symm
    | cons head before =>
        obtain ⟨head_eq, tail_eq⟩ := List.cons.inj same
        rw [List.foldl_cons, head_eq]
        exact others before ⟨after, tail_eq⟩

private theorem ioctls_throughout_iff (ioctlNums : List UInt32) {runs : Bool}
    {machine : Machine} (between : machine.Between runs) :
    (ioctls ioctlNums).Throughout Machine.execute Machine.KeepsMappings
        machine ↔
      StartsFindReset runs ioctlNums := by
  induction ioctlNums generalizing runs machine with
  | nil =>
      constructor
      · rintro _ before ⟨after, impossible⟩
        simp at impossible
      · intro _
        exact between.keeps
  | cons ioctlNum rest ih =>
      unfold ioctls
      rw [Program.throughout_bind, startsFindReset_cons]
      constructor
      · rintro ⟨now, later⟩
        have finds_reset : ioctlNum = quadcopterStart → runs = false := by
          intro start
          by_contra running
          have released := mt between.inReset_iff.mp running
          exact start_not_throughout released (start ▸ now)
        have next := (ioctl_between between finds_reset).2
        exact ⟨finds_reset, (ih next).mp later⟩
      · rintro ⟨finds_reset, others⟩
        obtain ⟨now, next⟩ := ioctl_between between finds_reset
        exact ⟨now, (ih next).mpr others⟩

theorem Machine.Loaded.between {machine : Machine} (loaded : machine.Loaded) :
    machine.Between false :=
  ⟨iff_of_true loaded.inReset rfl, loaded.inReset.keepsMappings⟩

/-- A running core keeps its mappings through a sequence of ioctls exactly when
no START among them finds it running. -/
theorem running_mappings_kept_iff {machine : Machine} (loaded : machine.Loaded)
    (ioctlNums : List UInt32) :
    (ioctls ioctlNums).Throughout Machine.execute Machine.KeepsMappings
        machine ↔
      ∀ before, before ++ [quadcopterStart] <+: ioctlNums →
        runsAfterAll before = false :=
  ioctls_throughout_iff ioctlNums loaded.between

theorem running_mappings_kept_iff_of_idle :
    (ioctls [quadcopterStart]).Throughout Machine.execute Machine.KeepsMappings
        Machine.idle ↔
      ∀ before, before ++ [quadcopterStart] <+: [quadcopterStart] →
        runsAfterAll before = false :=
  running_mappings_kept_iff Machine.idle_loaded [quadcopterStart]

/-- The second START takes the program away from under the running core. -/
theorem running_mappings_lost :
    ¬ (ioctls [quadcopterStart, quadcopterStart]).Throughout Machine.execute
      Machine.KeepsMappings Machine.idle := by
  intro throughout
  have finds_reset := (ioctls_throughout_iff _
    Machine.idle_loaded.between).mp throughout [quadcopterStart] ⟨[], rfl⟩
  exact absurd finds_reset (by decide)

end Quadcopter

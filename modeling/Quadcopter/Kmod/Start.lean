import Quadcopter.Kmod.MmuTable

/-
What QUADCOPTER_START and QUADCOPTER_STOP do to the machine, run alone.

START fills the table with eight windows, one after the other, and then releases
the core.
-/

namespace Quadcopter

open AtomicProgram SectionTable

/-- After quadcopter_init, with the m3 in reset: mmu_init has cleared the table
and firmware_enabled has its initial value. -/
structure Machine.Loaded (machine : Machine) : Prop where
  inReset : machine.InReset
  enabled : machine.firmwareEnabled = true
  cleared : ∀ index, index < mmuTableLength.toNat → machine.table index = 0

def Machine.idle : Machine :=
  { register := fun _ => 1
    table := fun _ => 0
    firmwareEnabled := true
    firmware := fun _ => 0
    fPos := fun _ => 0 }

theorem Machine.idle_loaded : Machine.idle.Loaded := by
  constructor
  · decide
  · rfl
  · intro index _
    rfl

def Window.Holds (window : Window) (v : UInt32) : Prop :=
  window.virt.toNat ≤ v.toNat ∧
    v.toNat < window.virt.toNat + window.lenMb * 2 ^ 20

def startWindows : List Window :=
  [.program, .stack, .per, .cfg, .m3Private, .tx, .rx, .trace]

def mapWindows : List Window → KmodProgram Unit
  | [] => return ()
  | window :: windows => do
      quadcopterMapRange window
      mapWindows windows

def Window.assignTo (mapping : Mapping) (window : Window) : Mapping :=
  mapping.assignRange (megabyteOf window.virt) (megabyteOf window.phys)
    window.lenMb

def startMapping : Mapping := startWindows.foldl Window.assignTo Mapping.empty

private theorem run_mapWindows (windows : List Window) {mapping : Mapping}
    (short : ∀ window ∈ windows, window.lenMb ≤ 4096) {machine : Machine}
    (represents : Represents sectionAttributes machine.table mapping) :
    ∃ table, (mapWindows windows).run Machine.execute machine =
        ((), machine.withTable table) ∧
      Represents sectionAttributes table
        (windows.foldl Window.assignTo mapping) := by
  induction windows generalizing mapping machine with
  | nil => exact ⟨machine.table, rfl, represents⟩
  | cons window windows ih =>
      have window_short := short window List.mem_cons_self
      have count_eq : (UInt32.ofNat window.lenMb).toNat = window.lenMb := by
        rw [UInt32.toNat_ofNat']
        omega
      obtain ⟨first, ran_first, stored_first⟩ :=
        run_mmuMapRange window.virt window.phys (UInt32.ofNat window.lenMb)
          (by omega) represents
      rw [count_eq] at stored_first
      have rest_short : ∀ other ∈ windows, other.lenMb ≤ 4096 :=
        fun other member => short other (List.mem_cons_of_mem _ member)
      have stored : Represents sectionAttributes (machine.withTable first).table
          (Window.assignTo mapping window) := stored_first
      obtain ⟨table, ran, done⟩ := ih rest_short stored
      refine ⟨table, ?_, done⟩
      unfold mapWindows quadcopterMapRange
      rw [Program.run_bind, ran_first]
      exact ran

/-- A megabyte that is mapped after some windows were assigned was mapped before,
or lies in one of them. -/
theorem found_in_window (windows : List Window) {mapping : Mapping}
    {megabyte target : Nat}
    (found : windows.foldl Window.assignTo mapping megabyte = some target) :
    mapping megabyte = some target ∨
      ∃ window ∈ windows,
        Mapping.distance (megabyteOf window.virt) megabyte < window.lenMb ∧
        target = (megabyteOf window.phys +
          Mapping.distance (megabyteOf window.virt) megabyte) % 4096 := by
  induction windows generalizing mapping with
  | nil => exact Or.inl found
  | cons window windows ih =>
      rcases ih found with here | ⟨other, member, inside⟩
      · unfold Window.assignTo Mapping.assignRange at here
        split at here
        · next near =>
            exact Or.inr ⟨window, List.mem_cons_self, near,
              (Option.some.inj here).symm⟩
        · exact Or.inl here
      · exact Or.inr ⟨other, List.mem_cons_of_mem _ member, inside⟩

def MachineOp.OnTable : MachineOp → Prop
  | .storeTableByte _ _ => True
  | .storeTable _ _ => True
  | _ => False

private theorem memsetIo_onTable (value : UInt8) (offset count : Nat) :
    (memsetIo value offset count).Forall MachineOp.OnTable := by
  induction count generalizing offset with
  | zero => trivial
  | succ count ih => exact ⟨trivial, fun _ => ih (offset + 1)⟩

private theorem mmuMapRangeLoop_onTable (vstart pstart : UInt32)
    (i left : Nat) :
    (mmuMapRangeLoop vstart pstart i left).Forall MachineOp.OnTable := by
  induction left generalizing i with
  | zero => trivial
  | succ left ih => exact ⟨trivial, fun _ => ih (i + 1)⟩

private theorem mapWindows_onTable (windows : List Window) :
    (mapWindows windows).Forall MachineOp.OnTable := by
  induction windows with
  | nil => trivial
  | cons window windows ih =>
      exact (mmuMapRangeLoop_onTable _ _ 0 _).bind (fun _ => ih)

private theorem mmuInit_onTable : mmuInit.Forall MachineOp.OnTable := by
  apply (memsetIo_onTable 0 0 _).bind
  intro _
  trivial

theorem startTable_onTable :
    (mmuInit >>= fun _ => mapWindows startWindows).Forall MachineOp.OnTable :=
  mmuInit_onTable.bind (fun _ => mapWindows_onTable startWindows)

theorem MachineOp.OnTable.rest {op : MachineOp} (onTable : op.OnTable)
    (machine : Machine) :
    (Machine.execute op machine).2.register = machine.register ∧
      (Machine.execute op machine).2.firmwareEnabled =
        machine.firmwareEnabled := by
  cases op with
  | storeTableByte offset value => exact ⟨rfl, rfl⟩
  | storeTable value offset => exact ⟨rfl, rfl⟩
  | _ => exact onTable.elim

theorem MachineOp.OnTable.inReset {op : MachineOp} (onTable : op.OnTable)
    {machine : Machine} (held : machine.InReset) :
    (Machine.execute op machine).2.InReset := by
  unfold Machine.InReset
  rw [(onTable.rest machine).1]
  exact held

theorem released_bit (reg : UInt32) : reg &&& ~~~m3Cpu1Reset &&& 1 = 0 := by
  have clear : ~~~m3Cpu1Reset &&& 1 = 0 := by decide
  rw [UInt32.and_assoc, clear, UInt32.and_zero]

theorem kept_bit (reg : UInt32) : reg &&& ~~~m3MmuReset &&& 1 = reg &&& 1 := by
  have kept : ~~~m3MmuReset &&& 1 = 1 := by decide
  rw [UInt32.and_assoc, kept]

theorem held_bit (reg : UInt32) : (reg ||| m3Cpu1Reset) &&& 1 = 1 := by
  have same : m3Cpu1Reset = 1 := rfl
  apply UInt32.toBitVec_inj.mp
  ext bit inside
  rw [same, UInt32.toBitVec_and, UInt32.toBitVec_or, BitVec.getElem_and,
    BitVec.getElem_or]
  cases (1 : UInt32).toBitVec[bit] with
  | false => exact Bool.and_false _
  | true => simp

def startCore : KmodProgram Int32 := do
  mmuEnable
  firmwareDisable
  mmuEnableM3
  return 0

theorem quadcopterIoctl_start :
    quadcopterIoctl quadcopterStart =
      (mmuInit >>= fun _ => mapWindows startWindows >>= fun _ => startCore) := by
  have different : quadcopterStart ≠ quadcopterStop := by decide
  unfold quadcopterIoctl
  rw [if_neg different, if_pos rfl]
  simp only [startWindows, mapWindows, startCore, Program.pure_eq,
    Program.bind_assoc, Program.ret_bind]

theorem run_startTable (machine : Machine) :
    ∃ table, Represents sectionAttributes table startMapping ∧
      (mmuInit >>= fun _ => mapWindows startWindows).run Machine.execute
        machine = ((), machine.withTable table) := by
  obtain ⟨cleared, ran_init, empty⟩ := run_mmuInit machine
  have short : ∀ window ∈ startWindows, window.lenMb ≤ 4096 := by decide
  have empty_here : Represents sectionAttributes
      (machine.withTable cleared).table Mapping.empty := empty
  obtain ⟨table, ran, stored⟩ := run_mapWindows startWindows short empty_here
  refine ⟨table, stored, ?_⟩
  rw [Program.run_bind, ran_init]
  exact ran

private theorem run_start (machine : Machine) :
    ∃ table, Represents sectionAttributes table startMapping ∧
      ((quadcopterIoctl quadcopterStart).run Machine.execute machine).2 =
        (startCore.run Machine.execute (machine.withTable table)).2 := by
  obtain ⟨table, stored, ran⟩ := run_startTable machine
  refine ⟨table, stored, ?_⟩
  rw [quadcopterIoctl_start, ← Program.bind_assoc, Program.run_bind, ran]

theorem ioctl_other {ioctlNum : UInt32} (not_stop : ioctlNum ≠ quadcopterStop)
    (not_start : ioctlNum ≠ quadcopterStart) :
    quadcopterIoctl ioctlNum = .ret 0 := by
  unfold quadcopterIoctl
  rw [if_neg not_stop, if_neg not_start]
  rfl

theorem run_ioctls_nil (machine : Machine) :
    ((ioctls []).run Machine.execute machine).2 = machine := rfl

theorem run_ioctls_cons (ioctlNum : UInt32) (rest : List UInt32)
    (machine : Machine) :
    ((ioctls (ioctlNum :: rest)).run Machine.execute machine).2 =
      ((ioctls rest).run Machine.execute
        ((quadcopterIoctl ioctlNum).run Machine.execute machine).2).2 := by
  rw [ioctls, Program.run_bind]

/-- What START leaves behind: the table is filled, the core is released and the
firmware is not to be written. -/
structure Machine.Started (machine : Machine) : Prop where
  table : Represents sectionAttributes machine.table startMapping
  released : ¬ machine.InReset
  disabled : machine.firmwareEnabled = false

theorem start_started (machine : Machine) :
    ((quadcopterIoctl quadcopterStart).run Machine.execute machine).2.Started := by
  obtain ⟨table, stored, same⟩ := run_start machine
  rw [same]
  constructor
  · exact stored
  · intro held
    have clear := released_bit (machine.register .rstctrl &&& ~~~m3MmuReset)
    exact absurd (clear.symm.trans held) (by decide)
  · rfl

end Quadcopter

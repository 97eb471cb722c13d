import Quadcopter.A9.MapCalls
import Quadcopter.A9.Uart

/-
The boot loader of the a9 (panda/a9/main.c, mmu_enable of panda/a9/mmu.c): it
builds the translation table of the m3, prints it, switches it on and lets the
m3 run.

The registers are those of the kernel module.  Where the linker has put the table
is a parameter; uart_init only sets up the uart.
-/

namespace Quadcopter.A9

open AtomicProgram SectionTable

/-- `image` is the first word of the image. -/
structure BootMachine where
  register : Register → UInt32
  table : Words
  uart : List UInt8
  image : UInt32

inductive BootOp where
  -- what mmu_init, mmu_map and mmu_map_range do
  | mmu (op : A9Op)
  | loadTable (index : Nat)
  | loadImage
  | load32 (register : Register)
  | store32 (value : UInt32) (register : Register)
deriving DecidableEq, Repr

@[reducible] def BootOp.Answer : BootOp → Type
  | .mmu op => op.Answer
  | .loadTable _ => UInt32
  | .loadImage => UInt32
  | .load32 _ => UInt32
  | .store32 _ _ => Unit

abbrev BootProgram (α : Type) : Type := Program BootOp BootOp.Answer α

def A9Op.bytes : A9Op → List UInt8
  | .storeTable _ _ => []
  | .uartPuts text => uartPutsBytes text
  | .uartPuthex value => uartPuthexBytes value

namespace BootMachine

def execute : Execution BootOp BootOp.Answer BootMachine
  | .mmu op, machine =>
      ((A9.execute op machine.table).1,
        { machine with
          table := (A9.execute op machine.table).2
          uart := machine.uart ++ op.bytes })
  | .loadTable index, machine => (machine.table index, machine)
  | .loadImage, machine => (machine.image, machine)
  | .load32 register, machine => (machine.register register, machine)
  | .store32 value register, machine =>
      ((), { machine with
        register := Function.update machine.register register value })

/-- Bit 0 of RM_MPU_M3_RSTCTRL holds the core in reset. -/
def InReset (machine : BootMachine) : Prop :=
  machine.register .rstctrl &&& m3Cpu1Reset = m3Cpu1Reset

end BootMachine

def call {α : Type} : A9Program α → BootProgram α
  | .ret value => .ret value
  | .step op next => .step (.mmu op) (fun answer => call (next answer))

def loadTable (index : Nat) : BootProgram UInt32 :=
  .perform (BootOp.loadTable index)

def loadImage : BootProgram UInt32 :=
  .perform BootOp.loadImage

def load32 (register : Register) : BootProgram UInt32 :=
  .perform (BootOp.load32 register)

def store32 (value : UInt32) (register : Register) : BootProgram Unit :=
  .perform (BootOp.store32 value register)

def mmuEnableLoop : (i left : Nat) → BootProgram Unit
  | _, 0 => return ()
  | i, left + 1 => do
      let word ← loadTable i
      if word = 0 then mmuEnableLoop (i + 1) left
      else do
        call (uartPuthex (UInt32.ofNat i <<< mmuVirtShift))
        call (uartPuts ": ")
        let word ← loadTable i
        call (uartPuthex word)
        call (uartPuts "\n")
        mmuEnableLoop (i + 1) left

def mmuEnable (table : UInt32) : BootProgram Unit := do
  call (uartPuts "MMU Table at address ")
  call (uartPuthex table)
  call (uartPuts "\n")
  mmuEnableLoop 0 4096
  store32 table .ttb
  store32 (cntlTwlenable ||| cntlMmuenable) .cntl

def main (table : UInt32) : BootProgram Unit := do
  call (uartPuts "hello\n")
  let word ← loadImage
  call (uartPuthex word)
  store32 modulemode .clkctrl
  store32 clktrctrlSwWkup .clkstctrl
  let reg ← load32 .rstctrl
  store32 (reg &&& ~~~m3MmuReset) .rstctrl
  call mmuInit
  call (mmuMapRange 0x00000000 0x9E100000 2)
  call (mmuMap 0x00300000 0x9E300000)
  call (mmuMapRange 0x48000000 0x48000000 16)
  call (mmuMapRange 0x4A000000 0x4A000000 16)
  call (mmuMap 0xE0000000 0xE0000000)
  mmuEnable table
  let reg ← load32 .rstctrl
  store32 (reg &&& ~~~m3Cpu1Reset) .rstctrl

private theorem run_call {α : Type} (program : A9Program α)
    (machine : BootMachine) :
    (call program).run BootMachine.execute machine =
      ((program.run A9.execute machine.table).1,
        { machine with
          table := (program.run A9.execute machine.table).2
          uart := machine.uart ++
            (program.trace A9.execute machine.table).flatMap A9Op.bytes }) := by
  induction program generalizing machine with
  | ret value =>
      unfold call
      simp [Program.trace]
  | step op next ih =>
      refine (ih _ _).trans ?_
      simp [Program.trace, BootMachine.execute]

private theorem run_uartPuts (text : String) (machine : BootMachine) :
    (call (uartPuts text)).run BootMachine.execute machine =
      ((), { machine with uart := machine.uart ++ uartPutsBytes text }) := rfl

private theorem run_uartPuthex (value : UInt32) (machine : BootMachine) :
    (call (uartPuthex value)).run BootMachine.execute machine =
      ((), { machine with uart := machine.uart ++ uartPuthexBytes value }) := rfl

private theorem call_bind {α β : Type} (program : A9Program α)
    (continuation : α → A9Program β) :
    call (program >>= continuation) =
      (call program >>= fun value => call (continuation value)) := by
  induction program with
  | ret value => rfl
  | step op next ih => exact congrArg (Program.step (BootOp.mmu op)) (funext ih)

/-- Not a store to RM_MPU_M3_RSTCTRL. -/
def BootOp.KeepsReset : BootOp → Prop
  | .store32 _ register => register ≠ .rstctrl
  | _ => True

private theorem call_keepsReset {α : Type} (program : A9Program α) :
    (call program).Forall BootOp.KeepsReset := by
  induction program with
  | ret value => trivial
  | step op next ih => exact ⟨trivial, ih⟩

theorem BootOp.KeepsReset.inReset {op : BootOp} (keeps : op.KeepsReset)
    {machine : BootMachine} (held : machine.InReset) :
    (BootMachine.execute op machine).2.InReset := by
  cases op with
  | store32 value register =>
      change Function.update machine.register register value .rstctrl &&&
        m3Cpu1Reset = m3Cpu1Reset
      rw [Function.update_of_ne (fun same => keeps same.symm)]
      exact held
  | _ => exact held

/-! ### The dump -/

/-- The entries that the loop of mmu_enable prints, with where their sections
begin. -/
def listed (table : Words) : (i left : Nat) → List (UInt32 × UInt32)
  | _, 0 => []
  | i, left + 1 =>
      if table i = 0 then listed table (i + 1) left
      else (UInt32.ofNat i <<< mmuVirtShift, table i) ::
        listed table (i + 1) left

private theorem mmuEnableLoop_keepsReset (i left : Nat) :
    (mmuEnableLoop i left).Forall BootOp.KeepsReset := by
  induction left generalizing i with
  | zero => trivial
  | succ left ih =>
      refine ⟨trivial, fun word => ?_⟩
      change Program.Forall BootOp.KeepsReset (ite (word = (0 : UInt32)) _ _)
      by_cases free : word = 0
      · rw [if_pos free]
        exact ih (i + 1)
      · rw [if_neg free]
        exact ⟨trivial, fun _ => ⟨trivial, fun _ => ⟨trivial, fun _ =>
          ⟨trivial, fun _ => ⟨trivial, fun _ => ih (i + 1)⟩⟩⟩⟩⟩

private theorem run_mmuEnableLoop (i left : Nat) (machine : BootMachine) :
    (mmuEnableLoop i left).run BootMachine.execute machine =
      ((), { machine with
        uart := machine.uart ++
          dumpCode.encodeAll (listed machine.table i left) }) := by
  induction left generalizing i machine with
  | zero =>
      unfold mmuEnableLoop listed
      simp
  | succ left ih =>
      unfold mmuEnableLoop listed
      by_cases free : machine.table i = 0
      · rw [if_pos free, ← ih (i + 1) machine]
        change (if machine.table i = 0 then _ else _ : BootProgram Unit).run
          BootMachine.execute machine = _
        rw [if_pos free]
      · rw [if_neg free, dumpCode.encodeAll_cons]
        change (if machine.table i = 0 then _ else _ : BootProgram Unit).run
          BootMachine.execute machine = _
        rw [if_neg free]
        refine (ih (i + 1) _).trans ?_
        rw [dumpCode_encode]
        unfold dumpLine
        simp only [BootMachine.execute, A9.execute, A9Op.bytes,
          List.append_assoc]

private theorem begins_iff (v : UInt32) {i : Nat} (inside : i < 4096) :
    UInt32.ofNat i <<< mmuVirtShift = v &&& mmuVirtMask ↔
      i = megabyteOf v := by
  have masked : (v &&& mmuVirtMask).toNat = megabyteOf v * 2 ^ 20 :=
    MachineInt.toNat_and_sectionMask v
  have shifted : (UInt32.ofNat i <<< mmuVirtShift).toNat = i * 2 ^ 20 := by
    rw [UInt32.toNat_shiftLeft]
    change (UInt32.ofNat i).toNat <<< 20 % 2 ^ 32 = _
    rw [Nat.shiftLeft_eq, UInt32.toNat_ofNat']
    omega
  rw [← UInt32.toNat_inj, masked, shifted]
  omega

/-- Looking the beginning of a section up among the entries listed. -/
theorem lookup_listed (table : Words) (v : UInt32) (i left : Nat)
    (short : i + left ≤ 4096) :
    (listed table i left).lookup (v &&& mmuVirtMask) =
      if i ≤ megabyteOf v ∧ megabyteOf v < i + left ∧
          table (megabyteOf v) ≠ 0 then
        some (table (megabyteOf v))
      else none := by
  induction left generalizing i with
  | zero =>
      rw [if_neg (by omega)]
      rfl
  | succ left ih =>
      have begins := begins_iff v (show i < 4096 by omega)
      have rest := ih (i + 1) (by omega)
      unfold listed
      by_cases free : table i = 0
      · rw [if_pos free, rest]
        by_cases here : i = megabyteOf v
        · rw [if_neg (by omega), if_neg (by rw [← here]; simp [free])]
        · simp only [show i + 1 ≤ megabyteOf v ↔ i ≤ megabyteOf v by omega,
            show i + 1 + left = i + (left + 1) by omega]
      · rw [if_neg free]
        by_cases here : i = megabyteOf v
        · rw [List.lookup_cons, begins.mpr here, beq_self_eq_true,
            if_pos ⟨by omega, by omega, by rw [← here]; exact free⟩, here]
        · have other : (v &&& mmuVirtMask ==
              UInt32.ofNat i <<< mmuVirtShift) = false :=
            beq_eq_false_iff_ne.mpr (fun same => here (begins.mp same.symm))
          rw [List.lookup_cons, other]
          simp only [rest, show i + 1 ≤ megabyteOf v ↔ i ≤ megabyteOf v by omega,
            show i + 1 + left = i + (left + 1) by omega]

def bootCalls : List MapCall :=
  [⟨0x00000000, 0x9E100000, 2⟩, ⟨0x00300000, 0x9E300000, 1⟩,
    ⟨0x48000000, 0x48000000, 16⟩, ⟨0x4A000000, 0x4A000000, 16⟩,
    ⟨0xE0000000, 0xE0000000, 1⟩]

/-- mmu_init and the calls after it. -/
def mapAll : A9Program Unit := do
  mmuInit
  mmuMapRange 0x00000000 0x9E100000 2
  mmuMap 0x00300000 0x9E300000
  mmuMapRange 0x48000000 0x48000000 16
  mmuMapRange 0x4A000000 0x4A000000 16
  mmuMap 0xE0000000 0xE0000000

/-- A single call of mmu_map is a range of one. -/
theorem run_mmuMap_range (virt phys : UInt32) {mapping : Mapping}
    {table : Words} (lists : Lists sectionAttributes table mapping) :
    Lists sectionAttributes ((mmuMap virt phys).run execute table).2
      (mapping.assignRange (megabyteOf virt) (megabyteOf phys)
        (1 : UInt32).toNat) := by
  have one := run_mmuMapRangeLoop virt phys 0 1 (by omega)
    (lists.congr (fun megabyte _ => rfl))
  unfold mmuMapRangeLoop mmuMapRangeLoop at one
  rw [Program.run_bind] at one
  simpa using one

private theorem run_mapAll (table : Words) :
    Lists sectionAttributes (mapAll.run execute table).2
      (mapping bootCalls) := by
  have cleared := run_mmuInit table
  unfold mapAll
  rw [Program.run_bind]
  generalize (mmuInit.run execute table).2 = empty at cleared ⊢
  have program := run_mmuMapRange 0x00000000 0x9E100000 2 (by decide) cleared
  have stack := run_mmuMap_range 0x00300000 0x9E300000 program
  have peripherals := run_mmuMapRange 0x48000000 0x48000000 16 (by decide)
    stack
  have config := run_mmuMapRange 0x4A000000 0x4A000000 16 (by decide)
    peripherals
  have whole := run_mmuMap_range 0xE0000000 0xE0000000 config
  unfold mapping bootCalls
  simp only [Program.run_bind, List.map_cons, List.map_nil, List.foldl_cons,
    List.foldl_nil, MapCall.range, Range.assignTo]
  exact whole

private theorem run_call_mapAll (machine : BootMachine) :
    ∃ log table, (call mapAll).run BootMachine.execute machine =
        ((), { machine with table := table, uart := machine.uart ++ log }) ∧
      Lists sectionAttributes table (mapping bootCalls) := by
  have lists := run_mapAll machine.table
  have ran := run_call mapAll machine
  generalize mapAll.run execute machine.table = mapped at lists ran
  generalize mapAll.trace execute machine.table = done at ran
  exact ⟨done.flatMap A9Op.bytes, mapped.2, ran, lists⟩

/-- The megabyte that the boot loader itself runs in (link.ld). -/
def ownMegabyte : Nat := 0x9E0

private theorem bootCalls_found {megabyte target : Nat}
    (found : mapping bootCalls megabyte = some target) :
    target < 4096 ∧ target ≠ ownMegabyte := by
  have each : ∀ call ∈ bootCalls, ∀ offset < call.count.toNat,
      (megabyteOf call.pstart + offset) % 4096 ≠ ownMegabyte := by decide
  rcases Range.found_in_range _ found with before | ⟨range, member, covers, rfl⟩
  · cases before
  · obtain ⟨call, listed, rfl⟩ := List.mem_map.mp member
    exact ⟨Nat.mod_lt _ (by omega), each call listed _ covers⟩

/-- Where the m3's mmu sends an address, once it walks the table. -/
def BootMachine.translate (machine : BootMachine) (v : UInt32) :
    Option UInt32 :=
  walk (machine.table (megabyteOf v)) v

/-- The mmu runs, on the table, which holds every range that main maps. -/
structure BootMachine.Translating (machine : BootMachine)
    (tableAddress : UInt32) : Prop where
  running : machine.register .rstctrl &&& m3MmuReset = 0
  enabled : machine.register .cntl = cntlTwlenable ||| cntlMmuenable
  walks : machine.register .ttb = tableAddress
  lists : Lists sectionAttributes machine.table (mapping bootCalls)

theorem BootMachine.translate_eq {machine : BootMachine}
    (lists : Lists sectionAttributes machine.table (mapping bootCalls))
    (v : UInt32) :
    (machine.translate v).map UInt32.toNat =
      (mapping bootCalls (megabyteOf v)).map
        (fun target => target * 2 ^ 20 + v.toNat % 2 ^ 20) :=
  lists.walk_eq (fun _ _ found => (bootCalls_found found).1) v

private theorem BootMachine.translate_away {machine : BootMachine}
    (lists : Lists sectionAttributes machine.table (mapping bootCalls))
    {v reached : UInt32} (sent : machine.translate v = some reached) :
    megabyteOf reached ≠ ownMegabyte := by
  have whole := BootMachine.translate_eq lists v
  rw [sent] at whole
  cases found : mapping bootCalls (megabyteOf v) with
  | none =>
      rw [found] at whole
      cases whole
  | some target =>
      rw [found] at whole
      simp only [Option.map_some, Option.some.injEq] at whole
      have other := (bootCalls_found found).2
      unfold megabyteOf
      omega

/-! ### main -/

def wake : BootProgram Unit := do
  call (uartPuts "hello\n")
  let word ← loadImage
  call (uartPuthex word)
  store32 modulemode .clkctrl
  store32 clktrctrlSwWkup .clkstctrl
  let reg ← load32 .rstctrl
  store32 (reg &&& ~~~m3MmuReset) .rstctrl

def prepare (table : UInt32) : BootProgram Unit := do
  wake
  call mapAll
  mmuEnable table

def release : BootProgram Unit := do
  let reg ← load32 .rstctrl
  store32 (reg &&& ~~~m3Cpu1Reset) .rstctrl

private theorem main_eq (table : UInt32) :
    main table = (prepare table >>= fun _ => release) := by
  unfold main prepare wake mapAll release
  simp only [call_bind, Program.bind_assoc]

private theorem wake_throughout {machine : BootMachine}
    (held : machine.InReset) :
    wake.Throughout BootMachine.execute BootMachine.InReset machine := by
  have kept := (kept_bit (machine.register .rstctrl)).trans held
  exact ⟨held, held, held, held, held, held, held, kept⟩

private theorem run_wake (machine : BootMachine) :
    ∃ awake, wake.run BootMachine.execute machine = ((), awake) ∧
      awake.register .rstctrl &&& m3MmuReset = 0 ∧
      ∃ log, awake.uart = machine.uart ++ log := by
  refine ⟨_, rfl, ?_, _, List.append_assoc _ _ _⟩
  change machine.register .rstctrl &&& ~~~m3MmuReset &&& m3MmuReset = 0
  rw [UInt32.and_assoc, show ~~~m3MmuReset &&& m3MmuReset = 0 by decide,
    UInt32.and_zero]

private theorem mmuEnable_keepsReset (table : UInt32) :
    (mmuEnable table).Forall BootOp.KeepsReset := by
  refine ⟨trivial, fun _ => ⟨trivial, fun _ => ⟨trivial, fun _ => ?_⟩⟩⟩
  apply (mmuEnableLoop_keepsReset 0 4096).bind
  intro _
  constructor
  · intro same
    cases same
  · intro _
    constructor
    · intro same
      cases same
    · intro _
      trivial

private theorem run_mmuEnable (table : UInt32) (machine : BootMachine) :
    ∃ log, (mmuEnable table).run BootMachine.execute machine =
      ((), { machine with
        register := Function.update
          (Function.update machine.register .ttb table) .cntl
            (cntlTwlenable ||| cntlMmuenable)
        uart := machine.uart ++
          (log ++ dumpCode.encodeAll (listed machine.table 0 4096)) }) := by
  refine ⟨uartPutsBytes "MMU Table at address " ++ (uartPuthexBytes table ++
    uartPutsBytes "\n"), ?_⟩
  unfold mmuEnable
  simp only [Program.run_bind, run_uartPuts, run_uartPuthex,
    run_mmuEnableLoop, List.append_assoc]
  rfl

private theorem prepare_throughout (table : UInt32) {machine : BootMachine}
    (held : machine.InReset) :
    (prepare table).Throughout BootMachine.execute BootMachine.InReset
      machine := by
  have first := wake_throughout held
  have rest : (call mapAll >>= fun _ => mmuEnable table).Forall
      BootOp.KeepsReset :=
    (call_keepsReset mapAll).bind (fun _ => mmuEnable_keepsReset table)
  unfold prepare
  rw [Program.throughout_bind]
  exact ⟨first, rest.throughout (fun op s keeps held => keeps.inReset held)
    first.last⟩

/-- Before its last assignment main has the mmu running, and the table printed. -/
theorem run_prepare (table : UInt32) {machine : BootMachine}
    (held : machine.InReset) :
    ∃ ready, (prepare table).run BootMachine.execute machine = ((), ready) ∧
      ready.InReset ∧ ready.Translating table ∧
      ∃ log, ready.uart = machine.uart ++
        (log ++ dumpCode.encodeAll (listed ready.table 0 4096)) := by
  have stays := (prepare_throughout table held).last
  obtain ⟨awake, ran, running, greeting, said⟩ := run_wake machine
  obtain ⟨mapping_log, filled, ran_map, lists⟩ := run_call_mapAll awake
  obtain ⟨heading, enabled⟩ := run_mmuEnable table
    { awake with table := filled, uart := awake.uart ++ mapping_log }
  unfold prepare at stays ⊢
  rw [Program.run_bind, ran, Program.run_bind, ran_map, enabled] at stays ⊢
  refine ⟨_, rfl, stays, ⟨running, rfl, rfl, lists⟩,
    greeting ++ (mapping_log ++ heading), ?_⟩
  simp only [said, List.append_assoc]

private theorem run_release (machine : BootMachine) :
    release.run BootMachine.execute machine =
      ((), { machine with
        register := Function.update machine.register .rstctrl
          (machine.register .rstctrl &&& ~~~m3Cpu1Reset) }) := rfl

private theorem run_main (table : UInt32) {machine : BootMachine}
    (held : machine.InReset) :
    ∃ final, (main table).run BootMachine.execute machine = ((), final) ∧
      ¬ final.InReset ∧ final.Translating table ∧
      (main table).Throughout BootMachine.execute
        (fun during => during.InReset ∨ during.Translating table) machine ∧
      ∃ log, final.uart = machine.uart ++
        (log ++ dumpCode.encodeAll (listed final.table 0 4096)) := by
  have throughout := prepare_throughout table held
  obtain ⟨ready, ran, stays, translating, log, said⟩ := run_prepare table held
  have released := released_bit (ready.register .rstctrl)
  have running : ready.register .rstctrl &&& ~~~m3Cpu1Reset &&& m3MmuReset =
      0 := by
    rw [UInt32.and_assoc, show ~~~m3Cpu1Reset &&& m3MmuReset = m3MmuReset by
      decide]
    exact translating.running
  have final_translating : BootMachine.Translating { ready with
      register := Function.update ready.register .rstctrl
        (ready.register .rstctrl &&& ~~~m3Cpu1Reset) } table :=
    ⟨running, translating.enabled, translating.walks, translating.lists⟩
  rw [main_eq, Program.run_bind, Program.throughout_bind, ran]
  refine ⟨_, run_release ready, ?_, final_translating, ?_, log, said⟩
  · intro in_reset
    exact absurd (released.symm.trans in_reset) (by decide)
  · exact ⟨throughout.mono (fun _ inReset => Or.inl inReset), Or.inl stays,
      Or.inl stays, Or.inr final_translating⟩

/-- The m3 is released into a translation that does not reach the boot loader,
and the dump on the uart is that translation. -/
theorem a9_boot_prints_map (table : UInt32) (machine : BootMachine)
    (held : machine.InReset) :
    ∃ final, (main table).run BootMachine.execute machine = ((), final) ∧
      (main table).Throughout BootMachine.execute
        (fun during => during.InReset ∨ during.Translating table) machine ∧
      ¬ final.InReset ∧ final.Translating table ∧
      (∀ v, (final.translate v).map UInt32.toNat =
        (mapping bootCalls (megabyteOf v)).map
          (fun target => target * 2 ^ 20 + v.toNat % 2 ^ 20)) ∧
      (∀ v reached, final.translate v = some reached →
        megabyteOf reached ≠ ownMegabyte) ∧
      ∃ log dump, final.uart = machine.uart ++ (log ++ dump) ∧
        dumpCode.decodeAll dump = (listed final.table 0 4096, []) ∧
        ∀ v, final.translate v =
          ((listed final.table 0 4096).lookup (v &&& mmuVirtMask)).bind
            (fun word => walk word v) := by
  obtain ⟨final, ran, released, translating, throughout, log, said⟩ :=
    run_main table held
  refine ⟨final, ran, throughout, released, translating,
    BootMachine.translate_eq translating.lists,
    fun v reached => BootMachine.translate_away translating.lists,
    log, _, said, ?_, ?_⟩
  · exact dumpCode.decodeAll_encodeAll (listed final.table 0 4096)
  · intro v
    have inside := megabyteOf_lt v
    rw [lookup_listed final.table v 0 4096 (by omega)]
    unfold BootMachine.translate
    by_cases free : final.table (megabyteOf v) = 0
    · rw [if_neg (fun all => all.2.2 free), free, walk_zero]
      rfl
    · rw [if_pos ⟨by omega, by omega, free⟩]
      rfl

/-- All registers 1, and an old table. -/
def BootMachine.held : BootMachine :=
  { register := fun _ => 1
    table := fun _ => 0xC02
    uart := []
    image := 0 }

theorem a9_boot_prints_map_from_held :
    ∃ final, (main 0x9E004000).run BootMachine.execute .held = ((), final) ∧
      (main 0x9E004000).Throughout BootMachine.execute
        (fun during => during.InReset ∨ during.Translating 0x9E004000) .held ∧
      ¬ final.InReset ∧
      (∃ log dump, final.uart = log ++ dump ∧
        dumpCode.decodeAll dump = (listed final.table 0 4096, [])) ∧
      (final.translate 0x00312345).map UInt32.toNat = some 0x9E312345 ∧
      (final.translate 0x00212345).map UInt32.toNat = none := by
  obtain ⟨final, ran, throughout, released, _, sent, _, log, dump, said, cut, _⟩ :=
    a9_boot_prints_map 0x9E004000 .held rfl
  refine ⟨final, ran, throughout, released, ⟨log, dump, said, cut⟩, ?_, ?_⟩
  · rw [sent]
    decide
  · rw [sent]
    decide

end Quadcopter.A9

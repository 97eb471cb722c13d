import Quadcopter.Kmod.Start
import Quadcopter.Library.Handles

/-
What the kernel module holds, and what its functions do to it (panda/kmod/main.c
quadcopter_init, quadcopter_exit and quadcopter_ioctl, panda/kmod/firmware.c
firmware_init and firmware_release, panda/kmod/mmu.c mmu_init and mmu_release).

A function is the list of its calls of the kernel and of its accesses through the
pointers that ioremap has returned.  What the kernel answers is an input: any
misc_register, request_mem_region or ioremap may fail.  Only the first two are
checked.
-/

namespace Quadcopter

/-- The regions that are passed to ioremap, each for one static pointer. -/
inductive IoRegion where
  -- mmu_ptr, core_cm2_ptr, core_prm_ptr and table_ptr of mmu.c
  | mmuConfig
  | coreCm2
  | corePrm
  | mmuTable
  -- firmware_ptr and trace_ptr of firmware.c
  | firmware
  | trace
  -- tx_buf and rx_buf of main.c
  | tx
  | rx
deriving DecidableEq, Repr

/-- The regions of the pointers of mmu.c. -/
def IoRegion.ofMmu : IoRegion → Bool
  | .firmware => false
  | .trace => false
  | .tx => false
  | .rx => false
  | _ => true

/-- The regions that hold a ring, each with a static struct ringbuf. -/
def IoRegion.isRing : IoRegion → Bool
  | .trace => true
  | .tx => true
  | .rx => true
  | _ => false

inductive KmodDevice where
  | ctrl
  | firmware
deriving DecidableEq, Repr

structure Kernel where
  mappings : Handles IoRegion
  registered : KmodDevice → Bool
  -- QUADCOPTER_REGION
  reserved : Bool
  -- `none` is NULL
  pointer : IoRegion → Option Nat
  -- whether ringbuf_init has set the struct ringbuf of the region
  rings : IoRegion → Bool
  -- something was reached or unmapped through a pointer that is not mapped, or
  -- a function was called after the module has gone
  faulted : Bool

namespace Kernel

def booted : Kernel where
  mappings := .empty
  registered := fun _ => false
  reserved := false
  pointer := fun _ => none
  rings := fun _ => false
  faulted := false

def ioremap (kernel : Kernel) (region : IoRegion) : Kernel :=
  { kernel with
    mappings := kernel.mappings.make region
    pointer := Function.update kernel.pointer region
      (some kernel.mappings.next) }

def mapped (kernel : Kernel) (region : IoRegion) : Option IoRegion :=
  (kernel.pointer region).bind kernel.mappings.live

def fault (kernel : Kernel) : Kernel := { kernel with faulted := true }

def iounmap (kernel : Kernel) (region : IoRegion) : Kernel :=
  match kernel.pointer region with
  | none => kernel.fault
  | some handle =>
      match kernel.mappings.live handle with
      | none => kernel.fault
      | some _ => { kernel with mappings := kernel.mappings.free handle }

/-- A load or store through the pointer of a region. -/
def touch (kernel : Kernel) (region : IoRegion) : Kernel :=
  if kernel.mapped region = some region then kernel else kernel.fault

def setRing (kernel : Kernel) (region : IoRegion) : Kernel :=
  { kernel with rings := Function.update kernel.rings region true }

/-- ringbuf_init stores the two indices. -/
def ringbufInit (kernel : Kernel) (region : IoRegion) : Kernel :=
  (kernel.touch region).setRing region

def touchRing (kernel : Kernel) (region : IoRegion) : Kernel :=
  if kernel.rings region = true then kernel.touch region else kernel.fault

/-- The statics of a module that is loaded are NULL. -/
def fresh (kernel : Kernel) : Kernel :=
  { kernel with pointer := fun _ => none, rings := fun _ => false }

def setRegistered (kernel : Kernel) (device : KmodDevice) (now : Bool) :
    Kernel :=
  { kernel with registered := Function.update kernel.registered device now }

end Kernel

inductive KernelOp where
  | miscRegister (device : KmodDevice) (status : Int32)
  | miscDeregister (device : KmodDevice)
  | requestMemRegion (given : Bool)
  | releaseMemRegion
  | ioremap (region : IoRegion) (given : Bool)
  | iounmap (region : IoRegion)
  | touch (region : IoRegion)
  | ringbufInit (region : IoRegion)
  | touchRing (region : IoRegion)
deriving DecidableEq, Repr

def KernelOp.execute (kernel : Kernel) : KernelOp → Kernel
  | .miscRegister device status =>
      if status < 0 then kernel else kernel.setRegistered device true
  | .miscDeregister device => kernel.setRegistered device false
  | .requestMemRegion given =>
      if given then { kernel with reserved := true } else kernel
  | .releaseMemRegion => { kernel with reserved := false }
  | .ioremap region given =>
      if given then kernel.ioremap region
      else { kernel with
        pointer := Function.update kernel.pointer region none }
  | .iounmap region => kernel.iounmap region
  | .touch region => kernel.touch region
  | .ringbufInit region => kernel.ringbufInit region
  | .touchRing region => kernel.touchRing region

def Kernel.run (kernel : Kernel) (ops : List KernelOp) : Kernel :=
  ops.foldl KernelOp.execute kernel

/-! ### The functions of the module -/

/-- What the kernel answers to an insmod: the statuses of misc_register for the
two devices, and whether request_mem_region and each ioremap are granted. -/
structure LoadOutcome where
  ctrl : Int32
  region : Bool
  firmware : Int32
  mapped : IoRegion → Bool

namespace KernelOp

def mmuRegions : List IoRegion := [.mmuConfig, .coreCm2, .corePrm, .mmuTable]

/-- memset_io is one access here. -/
def mmuInit (mapped : IoRegion → Bool) : List KernelOp :=
  mmuRegions.map (fun region => .ioremap region (mapped region)) ++
    [.touch .mmuTable]

def mmuRelease : List KernelOp := mmuRegions.map .iounmap

def firmwareInit (outcome : LoadOutcome) : List KernelOp × Int32 :=
  if outcome.firmware < 0 then
    ([.miscRegister .firmware outcome.firmware], outcome.firmware)
  else
    ([.miscRegister .firmware outcome.firmware,
      .ioremap .firmware (outcome.mapped .firmware),
      .ioremap .trace (outcome.mapped .trace), .ringbufInit .trace], 0)

def firmwareRelease : List KernelOp :=
  [.iounmap .firmware, .miscDeregister .firmware]

def initError (quadRes : Bool) : List KernelOp :=
  (if quadRes then [.releaseMemRegion] else []) ++ [.miscDeregister .ctrl]

def quadcopterInit (outcome : LoadOutcome) : List KernelOp × Int32 :=
  if outcome.ctrl < 0 then ([.miscRegister .ctrl outcome.ctrl], outcome.ctrl)
  else
    -- mmu_init returns 0
    let begun := [.miscRegister .ctrl outcome.ctrl] ++ mmuInit outcome.mapped ++
      [.requestMemRegion outcome.region]
    if outcome.region then
      let (ops, status) := firmwareInit outcome
      if status < 0 then (begun ++ ops ++ initError true, status)
      else
        (begun ++ ops ++ [.ioremap .tx (outcome.mapped .tx),
          .ioremap .rx (outcome.mapped .rx), .ringbufInit .tx,
          .ringbufInit .rx], 0)
    -- -EPERM
    else (begun ++ initError false, -1)

def quadcopterExit : List KernelOp :=
  firmwareRelease ++ mmuRelease ++ [.releaseMemRegion, .miscDeregister .ctrl]

end KernelOp

def Register.region : Register → IoRegion
  | .clkctrl => .coreCm2
  | .clkstctrl => .coreCm2
  | .rstctrl => .corePrm
  | .ttb => .mmuConfig
  | .cntl => .mmuConfig

/-- A call of a file of one of the devices.  The ring calls, and
copy_from_user, reach the memory a number of times, which is 0 for a write to the
firmware that firmware_enabled forbids. -/
inductive DeviceCall where
  | ctrlRead (accesses : Nat)
  | ctrlWrite (accesses : Nat)
  -- what ioremap answers to its mmu_init
  | start (mapped : IoRegion → Bool)
  | stop
  | firmwareRead (accesses : Nat)
  | firmwareWrite (accesses : Nat)

namespace DeviceCall

def device : DeviceCall → KmodDevice
  | .firmwareRead _ => .firmware
  | .firmwareWrite _ => .firmware
  | _ => .ctrl

def isStart : DeviceCall → Bool
  | .start _ => true
  | _ => false

def accesses (registers : List Register) : List KernelOp :=
  registers.map (fun register => .touch register.region)

def mmuEnable : List KernelOp :=
  accesses [.clkctrl, .clkstctrl, .rstctrl, .rstctrl, .ttb, .cntl]

/-- mmu_enable_m3 and mmu_disable_m3 -/
def mmuResetM3 : List KernelOp := accesses [.rstctrl, .rstctrl]

def quadcopterMapRange (window : Window) : List KernelOp :=
  List.replicate window.lenMb (.touch .mmuTable)

def ops : DeviceCall → List KernelOp
  | .ctrlRead accesses => List.replicate accesses (.touchRing .rx)
  | .ctrlWrite accesses => List.replicate accesses (.touchRing .tx)
  | .start mapped =>
      KernelOp.mmuInit mapped ++ startWindows.flatMap quadcopterMapRange ++
        mmuEnable ++ mmuResetM3
  | .stop => mmuResetM3
  | .firmwareRead accesses => List.replicate accesses (.touchRing .trace)
  | .firmwareWrite accesses => List.replicate accesses (.touch .firmware)

end DeviceCall

/-! ### Mapping and unmapping -/

namespace Kernel

def rest (kernel : Kernel) :
    (KmodDevice → Bool) × Bool × (IoRegion → Bool) × Bool :=
  (kernel.registered, kernel.reserved, kernel.rings, kernel.faulted)

section

variable {kernel : Kernel} {region other : IoRegion}

private theorem ioremap_mapped_self (kernel : Kernel) (region : IoRegion) :
    (kernel.ioremap region).mapped region = some region := by
  unfold mapped ioremap
  dsimp only
  rw [Function.update_self]
  exact kernel.mappings.make_live_next region

private theorem ioremap_mapped (before : kernel.mapped other = some other) :
    (kernel.ioremap region).mapped other = some other := by
  by_cases same : other = region
  · subst same
    exact ioremap_mapped_self kernel other
  · unfold mapped ioremap at *
    dsimp only
    rw [Function.update_of_ne same]
    obtain ⟨handle, pointer_eq, live⟩ := Option.bind_eq_some_iff.mp before
    rw [pointer_eq]
    exact Handles.make_live live

theorem touch_mapped (before : kernel.mapped region = some region) :
    kernel.touch region = kernel := if_pos before

private theorem iounmap_mapped (before : kernel.mapped region = some region) :
    (kernel.iounmap region).rest = kernel.rest ∧
      (kernel.iounmap region).pointer = kernel.pointer ∧
      (∀ other, (kernel.iounmap region).mappings.count other +
        (if other = region then 1 else 0) = kernel.mappings.count other) ∧
      ∀ other, other ≠ region → kernel.mapped other = some other →
        (kernel.iounmap region).mapped other = some other := by
  obtain ⟨handle, pointer_eq, live⟩ := Option.bind_eq_some_iff.mp before
  have freed : kernel.iounmap region =
      { kernel with mappings := kernel.mappings.free handle } := by
    unfold iounmap
    rw [pointer_eq]
    dsimp only
    rw [live]
  rw [freed]
  refine ⟨rfl, rfl, Handles.count_free live, ?_⟩
  intro other different kept
  obtain ⟨others, other_eq, other_live⟩ := Option.bind_eq_some_iff.mp kept
  unfold mapped
  dsimp only
  rw [other_eq]
  exact Handles.free_live live different other_live

end

private theorem one_if_same (region other : IoRegion) :
    (if region == other then 1 else 0) = if other = region then 1 else 0 := by
  apply if_congr _ rfl rfl
  rw [beq_iff_eq]
  exact eq_comm

theorem run_append (kernel : Kernel) (first second : List KernelOp) :
    kernel.run (first ++ second) = (kernel.run first).run second :=
  List.foldl_append

theorem run_cons (kernel : Kernel) (op : KernelOp) (ops : List KernelOp) :
    kernel.run (op :: ops) = (op.execute kernel).run ops := rfl

theorem run_nil (kernel : Kernel) : kernel.run [] = kernel := rfl

theorem execute_ioremap {given : Bool} (yes : given = true) (kernel : Kernel)
    (region : IoRegion) :
    KernelOp.execute kernel (.ioremap region given) = kernel.ioremap region :=
  if_pos yes

theorem execute_touch (kernel : Kernel) (region : IoRegion) :
    KernelOp.execute kernel (.touch region) = kernel.touch region := rfl

theorem execute_touchRing (kernel : Kernel) (region : IoRegion) :
    KernelOp.execute kernel (.touchRing region) =
      kernel.touchRing region := rfl

private theorem execute_ringbufInit (kernel : Kernel) (region : IoRegion) :
    KernelOp.execute kernel (.ringbufInit region) =
      kernel.ringbufInit region := rfl

private theorem ringbufInit_mapped {kernel : Kernel} {region : IoRegion}
    (before : kernel.mapped region = some region) :
    kernel.ringbufInit region = kernel.setRing region := by
  unfold ringbufInit
  rw [touch_mapped before]

theorem touchRing_mapped {kernel : Kernel} {region : IoRegion}
    (ring : kernel.rings region = true)
    (before : kernel.mapped region = some region) :
    kernel.touchRing region = kernel := by
  unfold touchRing
  rw [if_pos ring, touch_mapped before]

private theorem execute_requestMemRegion (kernel : Kernel) :
    KernelOp.execute kernel (.requestMemRegion true) =
      { kernel with reserved := true } := rfl

private theorem execute_miscRegister {status : Int32} (given : ¬ status < 0)
    (kernel : Kernel) (device : KmodDevice) :
    KernelOp.execute kernel (.miscRegister device status) =
      kernel.setRegistered device true :=
  if_neg given

theorem execute_miscRegister_refused {status : Int32} (refused : status < 0)
    (kernel : Kernel) (device : KmodDevice) :
    KernelOp.execute kernel (.miscRegister device status) = kernel :=
  if_pos refused

private theorem touch_faulted {kernel : Kernel}
    (faulted : kernel.faulted = true) (region : IoRegion) :
    (kernel.touch region).faulted = true := by
  unfold touch
  split
  · exact faulted
  · rfl

private theorem execute_faulted {kernel : Kernel}
    (faulted : kernel.faulted = true)
    (op : KernelOp) : (op.execute kernel).faulted = true := by
  cases op with
  | miscRegister device status =>
      unfold KernelOp.execute
      dsimp only
      split <;> exact faulted
  | miscDeregister device => exact faulted
  | requestMemRegion given =>
      unfold KernelOp.execute
      dsimp only
      split <;> exact faulted
  | releaseMemRegion => exact faulted
  | ioremap region given =>
      unfold KernelOp.execute
      dsimp only
      split <;> exact faulted
  | iounmap region =>
      unfold KernelOp.execute iounmap
      dsimp only
      split
      · rfl
      · split
        · rfl
        · exact faulted
  | touch region => exact touch_faulted faulted region
  | ringbufInit region => exact touch_faulted faulted region
  | touchRing region =>
      unfold KernelOp.execute touchRing
      dsimp only
      split
      · exact touch_faulted faulted region
      · rfl

/-- A fault is not undone: operations that end without one began without one. -/
theorem sound_of_run {kernel : Kernel} {ops : List KernelOp}
    (sound : (kernel.run ops).faulted = false) : kernel.faulted = false := by
  induction ops generalizing kernel with
  | nil => exact sound
  | cons op ops ih =>
      have later := ih sound
      by_contra faulted
      rw [Bool.not_eq_false] at faulted
      rw [execute_faulted faulted op] at later
      cases later

/-- `later` has one more mapping of each of the regions. -/
structure Maps (regions : List IoRegion) (kernel later : Kernel) : Prop where
  counted : ∀ region, later.mappings.count region =
    kernel.mappings.count region + regions.count region
  here : ∀ region ∈ regions, later.mapped region = some region
  kept : ∀ region, kernel.mapped region = some region →
    later.mapped region = some region

namespace Maps

variable {regions : List IoRegion} {kernel later : Kernel}

theorem refl (kernel : Kernel) : Maps [] kernel kernel :=
  ⟨fun _ => rfl, fun _ member => absurd member List.not_mem_nil,
    fun _ mapped => mapped⟩

theorem ioremap (maps : Maps regions kernel later) (region : IoRegion) :
    Maps (regions ++ [region]) kernel (later.ioremap region) := by
  constructor
  · intro other
    change (later.mappings.make region).count other = _
    rw [Handles.count_make, maps.counted, List.count_append,
      List.count_singleton, Nat.add_assoc, one_if_same]
  · intro other member
    rcases List.mem_append.mp member with before | now
    · exact ioremap_mapped (maps.here other before)
    · rw [List.mem_singleton.mp now]
      exact ioremap_mapped_self later region
  · intro other before
    exact ioremap_mapped (maps.kept other before)

theorem same {other : Kernel} (maps : Maps regions kernel later)
    (mappings_eq : other.mappings = later.mappings)
    (pointer_eq : other.pointer = later.pointer) : Maps regions kernel other := by
  have mapped_eq : other.mapped = later.mapped := by
    funext region
    unfold mapped
    rw [mappings_eq, pointer_eq]
  constructor
  · rw [mappings_eq]
    exact maps.counted
  · rw [mapped_eq]
    exact maps.here
  · rw [mapped_eq]
    exact maps.kept

private theorem setRing (maps : Maps regions kernel later) (region : IoRegion) :
    Maps regions kernel (later.setRing region) :=
  maps.same rfl rfl

private theorem ioremaps {mapped : IoRegion → Bool}
    (given : ∀ region, mapped region = true) (more : List IoRegion)
    (maps : Maps regions kernel later) :
    Maps (regions ++ more) kernel
        (later.run (more.map (fun region => .ioremap region (mapped region)))) ∧
      (later.run (more.map
        (fun region => .ioremap region (mapped region)))).rest = later.rest := by
  induction more generalizing regions later with
  | nil =>
      rw [List.append_nil]
      exact ⟨maps, rfl⟩
  | cons region more ih =>
      obtain ⟨mapped_all, rest⟩ := ih (maps.ioremap region)
      rw [List.append_assoc] at mapped_all
      rw [List.map_cons, run_cons, execute_ioremap (given region)]
      exact ⟨mapped_all, rest⟩

theorem mmuInit {mapped : IoRegion → Bool}
    (given : ∀ region, mapped region = true)
    (maps : Maps regions kernel later) :
    Maps (regions ++ KernelOp.mmuRegions) kernel
        (later.run (KernelOp.mmuInit mapped)) ∧
      (later.run (KernelOp.mmuInit mapped)).rest = later.rest := by
  obtain ⟨all, rest⟩ := maps.ioremaps given KernelOp.mmuRegions
  have table := all.here .mmuTable
    (List.mem_append_right _ (by decide : _ ∈ KernelOp.mmuRegions))
  unfold KernelOp.mmuInit
  rw [run_append]
  change Maps _ kernel (Kernel.touch _ .mmuTable) ∧
    (Kernel.touch _ .mmuTable).rest = _
  rw [touch_mapped table]
  exact ⟨all, rest⟩

end Maps

/-- `later` has one mapping fewer of each of the regions. -/
structure Unmaps (regions : List IoRegion) (kernel later : Kernel) : Prop where
  rest : later.rest = kernel.rest
  counted : ∀ region, later.mappings.count region + regions.count region =
    kernel.mappings.count region

private theorem unmaps_run {regions : List IoRegion} (once : regions.Nodup)
    {kernel : Kernel}
    (mapped : ∀ region ∈ regions, kernel.mapped region = some region) :
    Unmaps regions kernel (kernel.run (regions.map .iounmap)) := by
  induction regions generalizing kernel with
  | nil => exact ⟨rfl, fun _ => rfl⟩
  | cons region regions ih =>
      obtain ⟨absent, once⟩ := List.nodup_cons.mp once
      obtain ⟨rest, _, counted, kept⟩ :=
        iounmap_mapped (mapped region List.mem_cons_self)
      have later := ih once (fun other member => kept other
        (fun same => absent (same ▸ member))
        (mapped other (List.mem_cons_of_mem _ member)))
      constructor
      · exact later.rest.trans rest
      · intro other
        rw [← counted other, ← later.counted other, List.count_cons,
          Nat.add_assoc, one_if_same]
        rfl

/-! ### Loading and unloading -/

def allRegions : List IoRegion :=
  KernelOp.mmuRegions ++ [.firmware, .trace, .tx, .rx]

theorem count_allRegions (region : IoRegion) : allRegions.count region = 1 := by
  cases region <;> rfl

theorem count_mmuRegions (region : IoRegion) :
    KernelOp.mmuRegions.count region = region.ofMmu.toNat := by
  cases region <;> rfl

theorem count_unmapped (region : IoRegion) :
    (IoRegion.firmware :: KernelOp.mmuRegions).count region =
      (region.ofMmu || decide (region = .firmware)).toNat := by
  cases region <;> rfl

private theorem run_begun {outcome : LoadOutcome}
    (given : ∀ region, outcome.mapped region = true)
    (ctrl : ¬ outcome.ctrl < 0) (kernel : Kernel) :
    ∃ begun, Maps KernelOp.mmuRegions kernel begun ∧
      begun.rest = (kernel.setRegistered .ctrl true).rest ∧
      kernel.run ([.miscRegister .ctrl outcome.ctrl] ++
        KernelOp.mmuInit outcome.mapped ++
          [.requestMemRegion outcome.region]) =
        (KernelOp.requestMemRegion outcome.region).execute begun := by
  have start : Maps [] kernel (kernel.setRegistered .ctrl true) :=
    (Maps.refl kernel).same rfl rfl
  obtain ⟨maps, rest⟩ := start.mmuInit given
  refine ⟨_, maps, rest, ?_⟩
  rw [run_append, run_append, run_cons, run_nil, run_cons, run_nil,
    execute_miscRegister ctrl]

/-- A load to which nothing is refused. -/
theorem quadcopterInit_loads {outcome : LoadOutcome}
    (given : ∀ region, outcome.mapped region = true)
    (ctrl : ¬ outcome.ctrl < 0) (region : outcome.region = true)
    (firmware : ¬ outcome.firmware < 0) (kernel : Kernel) :
    ∃ later, kernel.run (KernelOp.quadcopterInit outcome).1 = later ∧
      (KernelOp.quadcopterInit outcome).2 = 0 ∧
      Maps allRegions kernel later ∧
      (∀ device, later.registered device = true) ∧ later.reserved = true ∧
      (∀ region, region.isRing = true → later.rings region = true) ∧
      later.faulted = kernel.faulted := by
  obtain ⟨begun, maps, rest, ran⟩ := run_begun given ctrl kernel
  rw [region] at ran
  have started : Maps KernelOp.mmuRegions kernel
      ({ begun with reserved := true }.setRegistered .firmware true) :=
    maps.same rfl rfl
  have traced := (started.ioremap .firmware).ioremap .trace
  have rings := ((traced.setRing .trace).ioremap .tx).ioremap .rx
  have all := (rings.setRing .tx).setRing .rx
  unfold KernelOp.quadcopterInit KernelOp.firmwareInit
  rw [if_neg ctrl, if_pos region, if_neg firmware]
  dsimp only
  rw [if_neg (by decide)]
  refine ⟨_, ?_, rfl, all, ?_, rfl, ?_, congrArg (fun rest => rest.2.2.2) rest⟩
  · rw [run_append, run_append, region, ran]
    simp only [run_cons, run_nil, execute_miscRegister firmware,
      execute_ioremap (given _), execute_ringbufInit, execute_requestMemRegion]
    rw [ringbufInit_mapped (traced.here .trace (by decide)),
      ringbufInit_mapped (rings.here .tx (by decide)),
      ringbufInit_mapped ((rings.setRing .tx).here .rx (by decide))]
  · intro device
    have both : begun.registered =
        Function.update kernel.registered .ctrl true :=
      congrArg Prod.fst rest
    change Function.update begun.registered .firmware true device = true
    rw [both]
    cases device <;> rfl
  · intro other ring
    cases other with
    | trace | tx | rx => rfl
    | mmuConfig | coreCm2 | corePrm | mmuTable | firmware => cases ring

/-- A load that fails once mmu_init has been called. -/
theorem quadcopterInit_fails {outcome : LoadOutcome}
    (given : ∀ region, outcome.mapped region = true)
    (ctrl : ¬ outcome.ctrl < 0)
    (refused : outcome.region = false ∨ outcome.firmware < 0) {kernel : Kernel}
    (free : kernel.reserved = false) :
    ∃ later, kernel.run (KernelOp.quadcopterInit outcome).1 = later ∧
      (KernelOp.quadcopterInit outcome).2 < 0 ∧
      Maps KernelOp.mmuRegions kernel later ∧
      later.registered = Function.update kernel.registered .ctrl false ∧
      later.reserved = false ∧ later.faulted = kernel.faulted := by
  obtain ⟨begun, maps, rest, ran⟩ := run_begun given ctrl kernel
  have both : begun.registered = Function.update kernel.registered .ctrl true :=
    congrArg Prod.fst rest
  have reserved : begun.reserved = kernel.reserved :=
    congrArg (fun rest => rest.2.1) rest
  have faulted : begun.faulted = kernel.faulted :=
    congrArg (fun rest => rest.2.2.2) rest
  have unregistered : Function.update begun.registered .ctrl false =
      Function.update kernel.registered .ctrl false := by
    rw [both, Function.update_idem]
  unfold KernelOp.quadcopterInit
  rw [if_neg ctrl]
  dsimp only
  cases region : outcome.region with
  | true =>
      have firmware : outcome.firmware < 0 := by
        rcases refused with none | no
        · rw [none] at region
          cases region
        · exact no
      rw [region] at ran
      unfold KernelOp.firmwareInit
      rw [if_pos rfl, if_pos firmware]
      dsimp only
      rw [if_pos firmware]
      refine ⟨{ begun with reserved := false }.setRegistered .ctrl false, ?_,
        firmware, maps.same rfl rfl, unregistered, rfl, faulted⟩
      rw [run_append, run_append, ran, run_cons, run_nil,
        execute_miscRegister_refused firmware]
      rfl
  | false =>
      rw [region] at ran
      rw [if_neg Bool.false_ne_true]
      refine ⟨begun.setRegistered .ctrl false, ?_, (by decide : (-1 : Int32) < 0),
        maps.same rfl rfl, unregistered, reserved.trans free, faulted⟩
      rw [run_append, ran]
      rfl

theorem quadcopterExit_unloads {kernel : Kernel}
    (mapped : ∀ region, kernel.mapped region = some region) :
    let later := kernel.run KernelOp.quadcopterExit
    (∀ region, later.mappings.count region +
        (IoRegion.firmware :: KernelOp.mmuRegions).count region =
      kernel.mappings.count region) ∧
    (∀ device, later.registered device = false) ∧ later.reserved = false ∧
    later.faulted = kernel.faulted := by
  intro later
  obtain ⟨rest, _, counted, kept⟩ := iounmap_mapped (mapped .firmware)
  have still : ∀ region ∈ KernelOp.mmuRegions,
      ((kernel.iounmap .firmware).setRegistered .firmware false).mapped region =
        some region := by
    intro region member
    apply kept region _ (mapped region)
    rintro rfl
    exact absurd member (by decide)
  obtain ⟨rest_mmu, counted_mmu⟩ := unmaps_run (by decide) still
  have ran : later = { (((kernel.iounmap .firmware).setRegistered .firmware
      false).run KernelOp.mmuRelease).setRegistered .ctrl false with
        reserved := false } := by
    change kernel.run KernelOp.quadcopterExit = _
    unfold KernelOp.quadcopterExit
    rw [run_append, run_append]
    rfl
  rw [ran]
  refine ⟨?_, ?_, rfl, ?_⟩
  · intro region
    rw [← counted region, List.count_cons, one_if_same, ← Nat.add_assoc]
    exact congrArg (· + _) (counted_mmu region)
  · intro device
    have released : (((kernel.iounmap .firmware).setRegistered .firmware
        false).run KernelOp.mmuRelease).registered =
          Function.update (kernel.iounmap .firmware).registered .firmware
            false :=
      congrArg Prod.fst rest_mmu
    change Function.update (Kernel.run _ _).registered .ctrl false device =
      false
    rw [released]
    cases device <;> rfl
  · exact (congrArg (fun rest => rest.2.2.2) rest_mmu).trans
      (congrArg (fun rest => rest.2.2.2) rest)

end Kernel

end Quadcopter

import Mathlib.Data.List.Perm.Basic
import Quadcopter.Kmod.Lifecycle
import Quadcopter.Library.StepRuns

/-
The life of the kernel module: loading, unloading and the calls of its devices,
one operation at a time and in any interleaving.

Both devices are registered before what their calls need is mapped, and neither
has an .owner: a file can be opened while quadcopter_init still runs, and stay
open when the module has gone.
-/

namespace Quadcopter

inductive ModuleReturn where
  | insmod (outcome : LoadOutcome)
  | rmmod
  | call (call : DeviceCall)

inductive ModulePhase where
  | absent
  -- what quadcopter_init has still to do, and what it will return
  | loading (outcome : LoadOutcome) (left : List KernelOp) (status : Int32)
  | loaded
  | unloading (left : List KernelOp)

structure Kmod where
  kernel : Kernel
  phase : ModulePhase
  -- that are open
  files : KmodDevice → Nat
  -- in progress, with what they have still to do
  calls : List (DeviceCall × List KernelOp)
  returned : List ModuleReturn

inductive KmodEvent where
  | insmod (outcome : LoadOutcome)
  | rmmod
  -- the next operation of quadcopter_init or quadcopter_exit, or its return
  | main
  | openFile (device : KmodDevice)
  | closeFile (device : KmodDevice)
  | call (call : DeviceCall)
  -- the same of a call in progress
  | next (place : Nat)

namespace Kmod

def booted : Kmod where
  kernel := .booted
  phase := .absent
  files := fun _ => 0
  calls := []
  returned := []

def enter (kmod : Kmod) : Kernel :=
  match kmod.phase with
  | .absent => kmod.kernel.fault
  | _ => kmod.kernel

/-- There is one module of a name, and quadcopter_exit waits for nobody. -/
def step (kmod : Kmod) : KmodEvent → Kmod
  | .insmod outcome =>
      match kmod.phase with
      | .absent =>
          { kmod with
            kernel := kmod.kernel.fresh
            phase :=
              .loading outcome (KernelOp.quadcopterInit outcome).1
                (KernelOp.quadcopterInit outcome).2 }
      | _ => kmod
  | .rmmod =>
      match kmod.phase with
      | .loaded => { kmod with phase := .unloading KernelOp.quadcopterExit }
      | _ => kmod
  | .main =>
      match kmod.phase with
      | .loading outcome (op :: left) status =>
          { kmod with
            kernel := op.execute kmod.kernel
            phase := .loading outcome left status }
      | .loading outcome [] status =>
          { kmod with
            phase := if status < 0 then .absent else .loaded
            returned := kmod.returned ++ [.insmod outcome] }
      | .unloading (op :: left) =>
          { kmod with
            kernel := op.execute kmod.kernel
            phase := .unloading left }
      | .unloading [] =>
          { kmod with
            phase := .absent
            returned := kmod.returned ++ [.rmmod] }
      | _ => kmod
  | .openFile device =>
      if kmod.kernel.registered device then
        { kmod with
          kernel := kmod.enter
          files := Function.update kmod.files device (kmod.files device + 1) }
      else kmod
  | .closeFile device =>
      if kmod.files device = 0 then kmod
      else
        { kmod with
          kernel := kmod.enter
          files := Function.update kmod.files device (kmod.files device - 1) }
  | .call call =>
      if kmod.files call.device = 0 then kmod
      else
        { kmod with
          kernel := kmod.enter
          calls := kmod.calls ++ [(call, call.ops)] }
  | .next place =>
      match kmod.calls[place]? with
      | none => kmod
      | some (call, op :: left) =>
          { kmod with
            kernel := op.execute kmod.enter
            calls := kmod.calls.set place (call, left) }
      | some (call, []) =>
          { kmod with
            kernel := kmod.enter
            calls := kmod.calls.eraseIdx place
            returned := kmod.returned ++ [.call call] }

end Kmod

/-! ### What is held -/

structure Kernel.Ready (kernel : Kernel) : Prop where
  sound : kernel.faulted = false
  registered : ∀ device, kernel.registered device = true
  reserved : kernel.reserved = true
  mapped : ∀ region, kernel.mapped region = some region
  rings : ∀ region, region.isRing = true → kernel.rings region = true

private theorem Kernel.Ready.of_maps {kernel later : Kernel}
    {regions : List IoRegion}
    (ready : kernel.Ready) (maps : Kernel.Maps regions kernel later)
    (rest : later.rest = kernel.rest) : later.Ready := by
  refine ⟨?_, ?_, ?_, ?_, ?_⟩
  · exact (congrArg (fun rest => rest.2.2.2) rest).trans ready.sound
  · intro device
    exact (congrFun (congrArg Prod.fst rest) device).trans
      (ready.registered device)
  · exact (congrArg (fun rest => rest.2.1) rest).trans ready.reserved
  · intro region
    exact maps.kept region (ready.mapped region)
  · intro region ring
    exact (congrFun (congrArg (fun rest => rest.2.2.1) rest) region).trans
      (ready.rings region ring)

/-- Whether the module is loaded, how often it has been, how many STARTs it was
given, and how many loads failed after mmu_init. -/
structure Ledger where
  loaded : Bool
  loads : Nat
  starts : Nat
  failures : Nat
deriving DecidableEq, Repr

namespace Ledger

def blank : Ledger := ⟨false, 0, 0, 0⟩

def step (ledger : Ledger) : ModuleReturn → Ledger
  | .insmod outcome =>
      if outcome.ctrl < 0 then ledger
      else if outcome.region && decide (0 ≤ outcome.firmware) then
        { ledger with loaded := true, loads := ledger.loads + 1 }
      else { ledger with failures := ledger.failures + 1 }
  | .rmmod => { ledger with loaded := false }
  | .call call =>
      { ledger with starts := ledger.starts + call.isStart.toNat }

def withStarts (ledger : Ledger) (more : Nat) : Ledger :=
  { ledger with starts := ledger.starts + more }

/-- How many mappings of a region there are.  Those of mmu.c are unmapped once for
each time that the module is unloaded, but made at each START and at each load
that fails later; those of the three rings are never unmapped. -/
def mappings (ledger : Ledger) : IoRegion → Nat
  | .firmware => ledger.loaded.toNat
  | .trace => ledger.loads
  | .tx => ledger.loads
  | .rx => ledger.loads
  | _ => ledger.loaded.toNat + ledger.starts + ledger.failures

structure Accounts (ledger : Ledger) (kernel : Kernel) : Prop where
  sound : kernel.faulted = false
  registered : ∀ device, kernel.registered device = ledger.loaded
  reserved : kernel.reserved = ledger.loaded
  counted : ∀ region, kernel.mappings.count region = ledger.mappings region
  ready : ledger.loaded = true → kernel.Ready

end Ledger

namespace Ledger.Accounts

variable {ledger : Ledger} {kernel : Kernel}

private theorem insmod (accounts : ledger.Accounts kernel)
    (absent : ledger.loaded = false) {outcome : LoadOutcome}
    (given : ∀ region, outcome.mapped region = true) :
    (ledger.step (.insmod outcome)).Accounts
        (kernel.fresh.run (KernelOp.quadcopterInit outcome).1) ∧
      ((ledger.step (.insmod outcome)).loaded = true ↔
        ¬ (KernelOp.quadcopterInit outcome).2 < 0) := by
  obtain ⟨sound, registered, reserved, counted, _⟩ := accounts
  rw [absent] at registered reserved
  have registered_eq : kernel.fresh.registered = kernel.registered := rfl
  have mappings_eq : kernel.fresh.mappings = kernel.mappings := rfl
  have reserved_eq : kernel.fresh.reserved = false := reserved
  have faulted_eq : kernel.fresh.faulted = false := sound
  generalize kernel.fresh = start at *
  have unmade : ∀ region, start.mappings.count region =
      ledger.mappings region := by
    intro region
    rw [mappings_eq]
    exact counted region
  have unloaded : ¬ ledger.loaded = true := by
    rw [absent]
    exact Bool.false_ne_true
  unfold Ledger.step
  dsimp only
  by_cases ctrl : outcome.ctrl < 0
  · have shape : KernelOp.quadcopterInit outcome =
        ([.miscRegister .ctrl outcome.ctrl], outcome.ctrl) := if_pos ctrl
    rw [if_pos ctrl, shape, Kernel.run_cons, Kernel.run_nil,
      Kernel.execute_miscRegister_refused ctrl]
    refine ⟨⟨faulted_eq, ?_, reserved_eq.trans absent.symm, unmade,
      fun loaded => (unloaded loaded).elim⟩, ?_⟩
    · intro device
      rw [registered_eq, absent]
      exact registered device
    · rw [absent]
      exact ⟨fun impossible => (Bool.false_ne_true impossible).elim,
        fun fine => absurd ctrl fine⟩
  · rw [if_neg ctrl]
    by_cases granted : (outcome.region && decide (0 ≤ outcome.firmware)) = true
    · rw [if_pos granted]
      obtain ⟨region, firmware⟩ := Bool.and_eq_true_iff.mp granted
      obtain ⟨later, ran, returned, maps, both, held, rings, faulted⟩ :=
        Kernel.quadcopterInit_loads given ctrl region
          (Int32.not_lt.mpr (of_decide_eq_true firmware)) start
      rw [ran, returned]
      have ready : later.Ready := by
        refine ⟨faulted.trans faulted_eq, both, held, ?_, rings⟩
        intro region
        exact maps.here region (by cases region <;> decide)
      refine ⟨⟨ready.sound, both, held, ?_, fun _ => ready⟩, ?_⟩
      · intro region
        rw [maps.counted, Kernel.count_allRegions, unmade]
        unfold mappings
        rw [absent, Bool.toNat_false, Bool.toNat_true]
        cases region <;> dsimp only <;> omega
      · exact ⟨fun _ => by decide, fun _ => rfl⟩
    · rw [if_neg granted]
      have refused : outcome.region = false ∨ outcome.firmware < 0 := by
        cases region : outcome.region with
        | false => exact Or.inl rfl
        | true =>
            right
            rw [region, Bool.true_and] at granted
            exact Int32.not_le.mp (fun fine => granted (decide_eq_true fine))
      obtain ⟨later, ran, negative, maps, neither, free, faulted⟩ :=
        Kernel.quadcopterInit_fails given ctrl refused reserved_eq
      rw [ran]
      refine ⟨⟨faulted.trans faulted_eq, ?_, free.trans absent.symm, ?_,
        fun loaded => (unloaded loaded).elim⟩, ?_⟩
      · intro device
        change later.registered device = ledger.loaded
        rw [neither, registered_eq, absent]
        cases device with
        | ctrl => rfl
        | firmware => exact registered .firmware
      · intro region
        rw [maps.counted, unmade, Kernel.count_mmuRegions]
        unfold mappings
        cases region <;> rfl
      · change ledger.loaded = true ↔ _
        rw [absent]
        exact ⟨fun impossible => (Bool.false_ne_true impossible).elim,
          fun fine => absurd negative fine⟩

private theorem rmmod (accounts : ledger.Accounts kernel)
    (loaded : ledger.loaded = true) :
    (ledger.step .rmmod).Accounts (kernel.run KernelOp.quadcopterExit) := by
  obtain ⟨unmapped, neither, free, faulted⟩ :=
    Kernel.quadcopterExit_unloads (accounts.ready loaded).mapped
  refine ⟨faulted.trans accounts.sound, neither, free, ?_, ?_⟩
  · intro region
    have before := unmapped region
    rw [accounts.counted, Kernel.count_unmapped] at before
    unfold mappings at before ⊢
    rw [loaded, Bool.toNat_true] at before
    unfold Ledger.step
    dsimp only
    rw [Bool.toNat_false]
    cases region <;> simp [IoRegion.ofMmu] at before ⊢ <;> omega
  · intro impossible
    cases impossible

end Ledger.Accounts

/-! ### The operations of a call -/

namespace KernelOp

def Serves : KernelOp → Prop
  | .touch _ => True
  | .touchRing region => region.isRing = true
  | .ioremap _ given => given = true
  | _ => False

def maps : KernelOp → List IoRegion
  | .ioremap region _ => [region]
  | _ => []

private theorem execute_maps {kernel : Kernel} {op : KernelOp}
    (serves : op.Serves)
    (ready : kernel.Ready) :
    Kernel.Maps op.maps kernel (op.execute kernel) ∧
      (op.execute kernel).rest = kernel.rest := by
  cases op with
  | touch region =>
      rw [Kernel.execute_touch, Kernel.touch_mapped (ready.mapped region)]
      exact ⟨Kernel.Maps.refl kernel, rfl⟩
  | touchRing region =>
      rw [Kernel.execute_touchRing,
        Kernel.touchRing_mapped (ready.rings region serves)
          (ready.mapped region)]
      exact ⟨Kernel.Maps.refl kernel, rfl⟩
  | ioremap region given =>
      rw [Kernel.execute_ioremap serves]
      exact ⟨(Kernel.Maps.refl kernel).ioremap region, rfl⟩
  | miscRegister | miscDeregister | requestMemRegion | releaseMemRegion
  | iounmap | ringbufInit => exact serves.elim

end KernelOp

namespace DeviceCall

def Granted : DeviceCall → Prop
  | .start mapped => ∀ region, mapped region = true
  | _ => True

private def Touches (ops : List KernelOp) : Prop :=
  ∀ op ∈ ops, op.Serves ∧ op.maps = []

private theorem replicate_touches (op : KernelOp) (count : Nat)
    (touches : op.Serves ∧ op.maps = []) :
    Touches (List.replicate count op) := by
  intro other member
  rw [List.eq_of_mem_replicate member]
  exact touches

private theorem accesses_touches (registers : List Register) :
    Touches (accesses registers) := by
  intro op member
  obtain ⟨register, _, rfl⟩ := List.mem_map.mp member
  exact ⟨trivial, rfl⟩

private theorem append_touches {first second : List KernelOp}
    (one : Touches first) (other : Touches second) :
    Touches (first ++ second) := by
  intro op member
  rcases List.mem_append.mp member with before | after
  · exact one op before
  · exact other op after

private theorem touches_serve {ops : List KernelOp} (touches : Touches ops) :
    (∀ op ∈ ops, op.Serves) ∧ ops.flatMap KernelOp.maps = [] :=
  ⟨fun op member => (touches op member).1,
    List.flatMap_eq_nil_iff.mpr (fun op member => (touches op member).2)⟩

private theorem start_touches : Touches
    (startWindows.flatMap quadcopterMapRange ++ mmuEnable ++ mmuResetM3) := by
  refine append_touches (append_touches ?_ (accesses_touches _))
    (accesses_touches _)
  intro op member
  obtain ⟨window, _, inside⟩ := List.mem_flatMap.mp member
  exact replicate_touches (.touch .mmuTable) window.lenMb ⟨trivial, rfl⟩ op
    inside

private theorem mmuInit_serves {mapped : IoRegion → Bool}
    (given : ∀ region, mapped region = true) :
    ∀ op ∈ KernelOp.mmuInit mapped, op.Serves := by
  intro op member
  rcases List.mem_append.mp member with before | after
  · obtain ⟨region, _, rfl⟩ := List.mem_map.mp before
    exact given region
  · rw [List.mem_singleton.mp after]
    trivial

/-- A START maps the regions of mmu.c once more; no other call maps anything. -/
theorem ops_serve {call : DeviceCall} (granted : call.Granted) :
    (∀ op ∈ call.ops, op.Serves) ∧
      call.ops.flatMap KernelOp.maps =
        if call.isStart then KernelOp.mmuRegions else [] := by
  cases call with
  | ctrlRead count => exact touches_serve (replicate_touches _ count ⟨rfl, rfl⟩)
  | ctrlWrite count => exact touches_serve (replicate_touches _ count ⟨rfl, rfl⟩)
  | stop => exact touches_serve (accesses_touches _)
  | firmwareRead count => exact touches_serve (replicate_touches _ count ⟨rfl, rfl⟩)
  | firmwareWrite count =>
      exact touches_serve (replicate_touches _ count ⟨trivial, rfl⟩)
  | start mapped =>
      obtain ⟨serve, nothing⟩ := touches_serve start_touches
      have ops_eq : (start mapped).ops = KernelOp.mmuInit mapped ++
          (startWindows.flatMap quadcopterMapRange ++ mmuEnable ++
            mmuResetM3) := by
        unfold ops
        simp only [List.append_assoc]
      rw [ops_eq]
      constructor
      · intro op member
        rcases List.mem_append.mp member with before | after
        · exact mmuInit_serves granted op before
        · exact serve op after
      · rw [List.flatMap_append, nothing, List.append_nil]
        rfl

end DeviceCall

/-! ### Histories -/

def ModulePhase.isLoaded : ModulePhase → Bool
  | .loaded => true
  | _ => false

def ModulePhase.atRest : ModulePhase → Bool
  | .absent => true
  | .loaded => true
  | _ => false

def KmodEvent.ofDevice : KmodEvent → Bool
  | .insmod _ => false
  | .rmmod => false
  | .main => false
  | _ => true

namespace Kmod

def ledger (kmod : Kmod) : Ledger := kmod.returned.foldl Ledger.step .blank

/-- No file is open and no call in progress. -/
structure Unused (kmod : Kmod) : Prop where
  files : ∀ device, kmod.files device = 0
  calls : kmod.calls = []

/-- No ioremap is refused, a file is opened only when quadcopter_init has returned
and before quadcopter_exit is called, and by then all are closed. -/
def Calm (kmod : Kmod) : KmodEvent → Prop
  | .insmod outcome => ∀ region, outcome.mapped region = true
  | .rmmod => kmod.Unused
  | .openFile _ => kmod.phase.isLoaded = true
  | .call call => call.Granted
  | _ => True

instance (mapped : IoRegion → Bool) :
    Decidable (∀ region, mapped region = true) :=
  decidable_of_iff (Kernel.allRegions.all mapped = true) (by
    rw [List.all_eq_true]
    constructor
    · intro every region
      exact every region (by cases region <;> decide)
    · exact fun every region _ => every region)

instance (kmod : Kmod) : Decidable kmod.Unused :=
  decidable_of_iff
    (kmod.files .ctrl = 0 ∧ kmod.files .firmware = 0 ∧
      kmod.calls.isEmpty = true) (by
    constructor
    · rintro ⟨ctrl, firmware, calls⟩
      refine ⟨?_, List.isEmpty_iff.mp calls⟩
      intro device
      cases device with
      | ctrl => exact ctrl
      | firmware => exact firmware
    · intro unused
      exact ⟨unused.files .ctrl, unused.files .firmware,
        List.isEmpty_iff.mpr unused.calls⟩)

instance (kmod : Kmod) : ∀ event, Decidable (kmod.Calm event)
  | .insmod outcome =>
      inferInstanceAs (Decidable (∀ region, outcome.mapped region = true))
  | .rmmod => inferInstanceAs (Decidable kmod.Unused)
  | .main => isTrue trivial
  | .openFile _ => inferInstanceAs (Decidable (kmod.phase.isLoaded = true))
  | .closeFile _ => isTrue trivial
  | .call (.ctrlRead _) => isTrue trivial
  | .call (.ctrlWrite _) => isTrue trivial
  | .call (.start mapped) =>
      inferInstanceAs (Decidable (∀ region, mapped region = true))
  | .call .stop => isTrue trivial
  | .call (.firmwareRead _) => isTrue trivial
  | .call (.firmwareWrite _) => isTrue trivial
  | .next _ => isTrue trivial

def pending (calls : List (DeviceCall × List KernelOp)) : List IoRegion :=
  calls.flatMap (fun entry => entry.2.flatMap KernelOp.maps)

def starts (calls : List (DeviceCall × List KernelOp)) : Nat :=
  calls.countP (fun entry => entry.1.isStart)

structure InService (kmod : Kmod) : Prop where
  loaded : kmod.ledger.loaded = true
  ready : kmod.kernel.Ready
  serves : ∀ entry ∈ kmod.calls, ∀ op ∈ entry.2, KernelOp.Serves op
  counted : ∀ region, kmod.kernel.mappings.count region +
      (pending kmod.calls).count region =
    (kmod.ledger.withStarts (starts kmod.calls)).mappings region

/-- What holds between two events: what the operations that are left of
quadcopter_init or quadcopter_exit lead to is what the ledger will say. -/
def Kept (kmod : Kmod) : Prop :=
  match kmod.phase with
  | .absent =>
      kmod.Unused ∧ kmod.ledger.loaded = false ∧
        kmod.ledger.Accounts kmod.kernel
  | .loading outcome left status =>
      kmod.Unused ∧ kmod.ledger.loaded = false ∧
        (kmod.ledger.step (.insmod outcome)).Accounts (kmod.kernel.run left) ∧
        ((kmod.ledger.step (.insmod outcome)).loaded = true ↔ ¬ status < 0)
  | .loaded => kmod.InService
  | .unloading left =>
      kmod.Unused ∧ (kmod.ledger.step .rmmod).Accounts (kmod.kernel.run left)

private theorem ledger_of_return (kmod : Kmod) (returned : ModuleReturn) :
    List.foldl Ledger.step .blank (kmod.returned ++ [returned]) =
      kmod.ledger.step returned :=
  List.foldl_append

private theorem kept_booted : booted.Kept := by
  refine ⟨⟨fun _ => rfl, rfl⟩, rfl, rfl, fun _ => rfl, rfl, ?_, ?_⟩
  · intro region
    cases region <;> rfl
  · intro impossible
    cases impossible

section

variable {kmod : Kmod}

theorem Kept.sound (kept : kmod.Kept) : kmod.kernel.faulted = false := by
  unfold Kept at kept
  cases phase : kmod.phase with
  | absent =>
      rw [phase] at kept
      exact kept.2.2.sound
  | loading outcome left status =>
      rw [phase] at kept
      exact Kernel.sound_of_run kept.2.2.1.sound
  | loaded =>
      rw [phase] at kept
      exact kept.ready.sound
  | unloading left =>
      rw [phase] at kept
      exact Kernel.sound_of_run kept.2.sound

private theorem Kept.of_service (phase : kmod.phase = .loaded)
    (service : kmod.InService) : kmod.Kept := by
  unfold Kept
  rw [phase]
  exact service

private theorem Kept.unused (kept : kmod.Kept)
    (idle : kmod.phase.isLoaded = false) : kmod.Unused := by
  unfold Kept at kept
  cases phase : kmod.phase with
  | absent | loading | unloading =>
      rw [phase] at kept
      exact kept.1
  | loaded =>
      rw [phase] at idle
      cases idle

theorem Kept.service (kept : kmod.Kept)
    (loaded : kmod.phase.isLoaded = true) : kmod.InService := by
  unfold Kept at kept
  cases phase : kmod.phase with
  | loaded =>
      rw [phase] at kept
      exact kept
  | absent | loading | unloading =>
      rw [phase] at loaded
      cases loaded

namespace InService

private theorem of_files (service : kmod.InService) (files : KmodDevice → Nat) :
    InService { kmod with files := files } :=
  ⟨service.loaded, service.ready, service.serves, service.counted⟩

private theorem accounts (service : kmod.InService) (calls : kmod.calls = []) :
    kmod.ledger.Accounts kmod.kernel := by
  have ready := service.ready
  refine ⟨ready.sound, ?_, ?_, ?_, fun _ => ready⟩
  · intro device
    rw [ready.registered, service.loaded]
  · rw [ready.reserved, service.loaded]
  · intro region
    have counted := service.counted region
    rw [calls] at counted
    exact counted

private theorem of_accounts (calls : kmod.calls = [])
    (loaded : kmod.ledger.loaded = true)
    (accounts : kmod.ledger.Accounts kmod.kernel) : kmod.InService := by
  refine ⟨loaded, accounts.ready loaded, ?_, ?_⟩
  · rw [calls]
    intro entry impossible
    cases impossible
  · intro region
    rw [calls]
    exact accounts.counted region

/-- What a START maps is owed from its first moment. -/
theorem call (service : kmod.InService) {call : DeviceCall}
    (granted : call.Granted) :
    InService { kmod with calls := kmod.calls ++ [(call, call.ops)] } := by
  obtain ⟨serve, maps⟩ := DeviceCall.ops_serve granted
  refine ⟨service.loaded, service.ready, ?_, ?_⟩
  · intro entry member
    rcases List.mem_append.mp member with before | now
    · exact service.serves entry before
    · rw [List.mem_singleton.mp now]
      exact serve
  · intro region
    have counted := service.counted region
    have pending_eq : pending (kmod.calls ++ [(call, call.ops)]) =
        pending kmod.calls ++ call.ops.flatMap KernelOp.maps := by
      unfold pending
      rw [List.flatMap_append, List.flatMap_singleton]
    have starts_eq : starts (kmod.calls ++ [(call, call.ops)]) =
        starts kmod.calls + if call.isStart then 1 else 0 := by
      unfold starts
      rw [List.countP_append, List.countP_singleton]
    change _ + (pending _).count region =
      (kmod.ledger.withStarts (starts _)).mappings region
    rw [pending_eq, starts_eq, maps, List.count_append, ← Nat.add_assoc, counted]
    cases call.isStart with
    | false => rfl
    | true =>
        rw [if_pos rfl, if_pos rfl, Kernel.count_mmuRegions]
        unfold Ledger.withStarts Ledger.mappings IoRegion.ofMmu
        cases region <;> dsimp only [Bool.toNat_true, Bool.toNat_false] <;> omega

theorem next (service : kmod.InService) {place : Nat} {call : DeviceCall}
    {op : KernelOp} {left : List KernelOp}
    (here : kmod.calls[place]? = some (call, op :: left)) :
    InService { kmod with
      kernel := op.execute kmod.kernel
      calls := kmod.calls.set place (call, left) } := by
  obtain ⟨inside, entry⟩ := List.getElem?_eq_some_iff.mp here
  have before := (List.getElem_cons_eraseIdx_perm inside).symm
  rw [entry] at before
  have after := List.set_perm_cons_eraseIdx inside (call, left)
  have serves : ∀ op' ∈ op :: left, KernelOp.Serves op' :=
    service.serves (call, op :: left)
      (before.mem_iff.mpr List.mem_cons_self)
  obtain ⟨maps, rest⟩ :=
    KernelOp.execute_maps (serves op List.mem_cons_self) service.ready
  refine ⟨service.loaded, service.ready.of_maps maps rest, ?_, ?_⟩
  · intro other member
    rcases List.mem_cons.mp (after.mem_iff.mp member) with same | elsewhere
    · rw [same]
      exact fun one inLeft => serves one (List.mem_cons_of_mem _ inLeft)
    · exact service.serves other
        (before.mem_iff.mpr (List.mem_cons_of_mem _ elsewhere))
  · intro region
    have pending_eq : (pending kmod.calls).count region =
        op.maps.count region +
          (pending (kmod.calls.set place (call, left))).count region := by
      unfold pending
      rw [(before.flatMap_right _).count_eq, (after.flatMap_right _).count_eq]
      simp only [List.flatMap_cons, List.count_append, Nat.add_assoc]
    have starts_eq : starts (kmod.calls.set place (call, left)) =
        starts kmod.calls := by
      unfold starts
      rw [before.countP_eq, after.countP_eq, List.countP_cons, List.countP_cons]
    change _ = (kmod.ledger.withStarts (starts _)).mappings region
    rw [starts_eq, ← service.counted region, maps.counted, pending_eq,
      Nat.add_assoc]

theorem finish (service : kmod.InService) {place : Nat} {call : DeviceCall}
    (here : kmod.calls[place]? = some (call, [])) :
    InService { kmod with
      calls := kmod.calls.eraseIdx place
      returned := kmod.returned ++ [.call call] } := by
  obtain ⟨inside, entry⟩ := List.getElem?_eq_some_iff.mp here
  have before := (List.getElem_cons_eraseIdx_perm inside).symm
  rw [entry] at before
  refine ⟨?_, service.ready, ?_, ?_⟩
  · unfold ledger
    rw [ledger_of_return]
    exact service.loaded
  · intro other member
    exact service.serves other
      (before.mem_iff.mpr (List.mem_cons_of_mem _ member))
  · intro region
    have pending_eq : (pending kmod.calls).count region =
        (pending (kmod.calls.eraseIdx place)).count region := by
      unfold pending
      rw [(before.flatMap_right _).count_eq]
      rfl
    have owed_eq : kmod.ledger.withStarts (starts kmod.calls) =
        (kmod.ledger.step (.call call)).withStarts
          (starts (kmod.calls.eraseIdx place)) := by
      unfold starts
      rw [before.countP_eq, List.countP_cons]
      unfold Ledger.step Ledger.withStarts
      dsimp only
      congr 1
      cases call.isStart with
      | false => rfl
      | true =>
          rw [if_pos rfl, Bool.toNat_true]
          omega
    unfold ledger
    rw [ledger_of_return, ← owed_eq, ← pending_eq]
    exact service.counted region

end InService

end

/-! ### One event -/

private theorem step_unused {kmod : Kmod} (unused : kmod.Unused)
    (idle : kmod.phase.isLoaded = false) {event : KmodEvent}
    (calm : kmod.Calm event) (device : event.ofDevice = true) :
    kmod.step event = kmod := by
  cases event with
  | insmod | rmmod | main => cases device
  | openFile =>
      have opened : kmod.phase.isLoaded = true := calm
      rw [idle] at opened
      cases opened
  | closeFile closed => exact if_pos (unused.files closed)
  | call call => exact if_pos (unused.files call.device)
  | next place =>
      unfold step
      dsimp only
      rw [unused.calls]
      rfl

private theorem kept_absent {kmod : Kmod} (phase : kmod.phase = .absent)
    (kept : kmod.Kept) {event : KmodEvent} (calm : kmod.Calm event)
    (main : ¬ event.ofDevice = true) : (kmod.step event).Kept := by
  have whole := kept
  unfold Kept at kept
  rw [phase] at kept
  obtain ⟨unused, absent, accounts⟩ := kept
  unfold step
  rw [phase]
  cases event with
  | insmod outcome =>
      obtain ⟨loads, returns⟩ := accounts.insmod absent calm
      exact ⟨⟨unused.files, unused.calls⟩, absent, loads, returns⟩
  | rmmod | main => exact whole
  | openFile | closeFile | call | next => exact absurd rfl main

private theorem kept_loading {kmod : Kmod} {outcome : LoadOutcome}
    {left : List KernelOp} {status : Int32}
    (phase : kmod.phase = .loading outcome left status) (kept : kmod.Kept)
    {event : KmodEvent} (main : ¬ event.ofDevice = true) :
    (kmod.step event).Kept := by
  have whole := kept
  unfold Kept at kept
  rw [phase] at kept
  obtain ⟨unused, absent, accounts, returns⟩ := kept
  unfold step
  rw [phase]
  cases event with
  | insmod | rmmod => exact whole
  | main =>
      cases left with
      | cons op left =>
          exact ⟨⟨unused.files, unused.calls⟩, absent, accounts, returns⟩
      | nil =>
          rw [← ledger_of_return] at accounts returns
          by_cases failed : status < 0
          · dsimp only
            rw [if_pos failed]
            refine ⟨⟨unused.files, unused.calls⟩, ?_, accounts⟩
            by_contra loaded
            exact returns.mp (Bool.not_eq_false _ ▸ loaded) failed
          · dsimp only
            rw [if_neg failed]
            exact InService.of_accounts unused.calls (returns.mpr failed)
              accounts
  | openFile | closeFile | call | next => exact absurd rfl main

private theorem kept_unloading {kmod : Kmod} {left : List KernelOp}
    (phase : kmod.phase = .unloading left) (kept : kmod.Kept)
    {event : KmodEvent} (main : ¬ event.ofDevice = true) :
    (kmod.step event).Kept := by
  have whole := kept
  unfold Kept at kept
  rw [phase] at kept
  obtain ⟨unused, accounts⟩ := kept
  unfold step
  rw [phase]
  cases event with
  | insmod | rmmod => exact whole
  | main =>
      cases left with
      | cons op left => exact ⟨⟨unused.files, unused.calls⟩, accounts⟩
      | nil =>
          rw [← ledger_of_return] at accounts
          refine ⟨⟨unused.files, unused.calls⟩, ?_, accounts⟩
          change Ledger.loaded (List.foldl _ _ _) = false
          rw [List.foldl_append]
          rfl
  | openFile | closeFile | call | next => exact absurd rfl main

/-- Every call that goes on finds the module loaded. -/
private theorem kept_loaded {kmod : Kmod} (phase : kmod.phase = .loaded)
    (kept : kmod.Kept) {event : KmodEvent} (calm : kmod.Calm event) :
    (kmod.step event).Kept := by
  have whole := kept
  have service := kept.service (congrArg ModulePhase.isLoaded phase)
  have enter : kmod.enter = kmod.kernel := by
    unfold Kmod.enter
    rw [phase]
  cases event with
  | insmod | main =>
      unfold step
      rw [phase]
      exact whole
  | rmmod =>
      have unused : kmod.Unused := calm
      unfold step
      rw [phase]
      exact ⟨⟨unused.files, unused.calls⟩,
        (service.accounts unused.calls).rmmod service.loaded⟩
  | openFile device =>
      unfold step
      dsimp only
      rw [enter, if_pos (service.ready.registered device)]
      exact Kept.of_service phase (service.of_files _)
  | closeFile device =>
      unfold step
      dsimp only
      rw [enter]
      split
      · exact whole
      · exact Kept.of_service phase (service.of_files _)
  | call call =>
      unfold step
      dsimp only
      rw [enter]
      split
      · exact whole
      · exact Kept.of_service phase (service.call calm)
  | next place =>
      unfold step
      dsimp only
      rw [enter]
      cases here : kmod.calls[place]? with
      | none => exact whole
      | some entry =>
          obtain ⟨call, left⟩ := entry
          cases left with
          | nil => exact Kept.of_service phase (service.finish here)
          | cons op left => exact Kept.of_service phase (service.next here)

private theorem kept_step (kmod : Kmod) (event : KmodEvent) (kept : kmod.Kept)
    (calm : kmod.Calm event) : (kmod.step event).Kept := by
  by_cases still : kmod.phase.isLoaded = false ∧ event.ofDevice = true
  · rw [step_unused (kept.unused still.1) still.1 calm still.2]
    exact kept
  · cases phase : kmod.phase with
    | loaded => exact kept_loaded phase kept calm
    | absent =>
        exact kept_absent phase kept calm
          (fun device => still ⟨congrArg ModulePhase.isLoaded phase, device⟩)
    | loading =>
        exact kept_loading phase kept
          (fun device => still ⟨congrArg ModulePhase.isLoaded phase, device⟩)
    | unloading =>
        exact kept_unloading phase kept
          (fun device => still ⟨congrArg ModulePhase.isLoaded phase, device⟩)

/-- Neither insmod nor rmmod nor a call of a device is in progress. -/
def AtRest (kmod : Kmod) : Prop :=
  kmod.calls.isEmpty = true ∧ kmod.phase.atRest = true

private theorem Kept.accounts {kmod : Kmod} (kept : kmod.Kept)
    (rest : kmod.AtRest) :
    kmod.ledger.Accounts kmod.kernel ∧
      (kmod.ledger.loaded = true ↔ kmod.phase.isLoaded = true) := by
  obtain ⟨calls, resting⟩ := rest
  cases phase : kmod.phase with
  | absent =>
      unfold Kept at kept
      rw [phase] at kept
      obtain ⟨_, unloaded, accounts⟩ := kept
      rw [unloaded]
      exact ⟨accounts, Iff.rfl⟩
  | loaded =>
      have service := kept.service (congrArg ModulePhase.isLoaded phase)
      exact ⟨service.accounts (List.isEmpty_iff.mp calls),
        fun _ => rfl, fun _ => service.loaded⟩
  | loading | unloading =>
      rw [phase] at resting
      cases resting

instance (kmod : Kmod) : Decidable kmod.AtRest :=
  inferInstanceAs (Decidable (_ ∧ _))

def granted : LoadOutcome := ⟨0, true, 0, fun _ => true⟩

def loadOnce : List KmodEvent := [.insmod granted] ++ List.replicate 16 .main

/-- A load that fails at request_mem_region, one that does not, a START between
whose operations a file is read, and an unload. -/
def oneSession : List KmodEvent :=
  [.insmod { granted with region := false }] ++ List.replicate 9 .main ++
    loadOnce ++
    [.openFile .ctrl, .call (.start fun _ => true), .next 0,
      .call (.ctrlRead 1), .next 0, .next 1, .next 1] ++
    List.replicate 63 (.next 0) ++
    [.closeFile .ctrl, .rmmod] ++ List.replicate 9 .main

/-- What happens when quadcopter_init does not look at a NULL, when a file is read
before the rings are mapped, and when one is closed after the module has gone. -/
theorem faults_of_not_calm :
    let refused : LoadOutcome :=
      { granted with mapped := fun region => decide (region ≠ .tx) }
    (runSteps step booted
      ([.insmod refused] ++ List.replicate 16 .main)).kernel.faulted = true ∧
    (runSteps step booted [.insmod granted, .main, .openFile .ctrl,
      .call (.ctrlRead 1), .next 0]).kernel.faulted = true ∧
    (runSteps step booted (loadOnce ++ [.openFile .ctrl, .rmmod] ++
      List.replicate 9 .main ++ [.closeFile .ctrl])).kernel.faulted = true := by
  decide +kernel

end Kmod

end Quadcopter

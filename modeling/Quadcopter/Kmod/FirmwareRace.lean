import Mathlib.Data.List.Induction
import Quadcopter.Kmod.FirmwareDevice
import Quadcopter.Library.Interleaving

/-
Firmware writes against the ioctls that start and stop the m3.

A write tests firmware_enabled once.  START clears the flag before it releases
the core, but a write that has passed its test by then goes on storing.
-/

namespace Quadcopter.FirmwareDevice

open AtomicProgram

inductive KmodThread where
  | ioctls
  | write (call : Nat)
deriving DecidableEq, Repr

def KmodThread.Result : KmodThread → Type
  | .ioctls => Unit
  | .write _ => Int32

structure WriteCall where
  user : UserBuffer
  count : UInt32

abbrev KmodThreads : Type :=
  Threads MachineOp MachineOp.Answer KmodThread KmodThread.Result Machine

/-- One process does the ioctls, and any others the writes. -/
def kmodThreads (machine : Machine) (ioctlNums : List UInt32)
    (writes : Nat → WriteCall) : KmodThreads :=
  Threads.start (fun
    | .ioctls => ioctls ioctlNums
    | .write call => quadcopterWrite call (writes call).user (writes call).count
        (machine.fPos call)) machine

def AboutToStore (program : KmodProgram Int32) : Prop :=
  ∃ offset byte next, program = .step (.storeFirmware offset byte) next

def AboutToRelease (threads : KmodThreads) : Prop :=
  threads.state.InReset ∧ ∃ value next,
    threads.program .ioctls = .step (.iowrite32 value .rstctrl) next ∧
      value &&& 1 ≠ 1

/-- While the core is out of reset no write can store. -/
def Untouched (threads : KmodThreads) : Prop :=
  ¬ threads.state.InReset →
    ∀ call, ¬ AboutToStore (threads.program (.write call))

def WritesRely (machine later : Machine) : Prop :=
  later.register = machine.register ∧
    later.firmwareEnabled = machine.firmwareEnabled

/-- The core is released only while no write can begin, and writes are allowed
only while it is in reset. -/
def IoctlGuard (machine : Machine) : MachineOp → Prop
  | .iowrite32 value .rstctrl =>
      value &&& 1 ≠ 1 → machine.firmwareEnabled = false
  | .storeFirmwareEnabled value => value = true → machine.InReset
  | _ => True

def FlagGuards (machine : Machine) : Prop :=
  ¬ machine.InReset → machine.firmwareEnabled = false

def IoctlsGuarded {α : Type} (program : KmodProgram α) (machine : Machine) :
    Prop :=
  Holds Machine.execute WritesRely IoctlGuard (fun _ => FlagGuards)
    program machine

theorem WritesRely.refl (machine : Machine) : WritesRely machine machine :=
  ⟨rfl, rfl⟩

theorem WritesRely.trans (first second third : Machine)
    (earlier : WritesRely first second) (later : WritesRely second third) :
    WritesRely first third :=
  ⟨later.1.trans earlier.1, later.2.trans earlier.2⟩

private theorem WritesRely.guarded {machine later : Machine}
    (rely : WritesRely machine later) (guarded : FlagGuards machine) :
    FlagGuards later := by
  unfold FlagGuards Machine.InReset at guarded ⊢
  rw [rely.1, rely.2]
  exact guarded

theorem WritesRely.inReset {machine later : Machine}
    (rely : WritesRely machine later) (held : machine.InReset) :
    later.InReset := by
  unfold Machine.InReset at held ⊢
  rw [rely.1]
  exact held

private theorem stop_guarded (machine : Machine) :
    IoctlsGuarded (quadcopterIoctl quadcopterStop) machine := by
  intro first _
  refine ⟨trivial, ?_⟩
  intro second moved
  have held := held_bit (first.register .rstctrl)
  refine ⟨fun cleared => absurd held cleared, ?_⟩
  intro third moved_again
  have third_held : third.InReset := moved_again.inReset held
  refine ⟨fun _ => third_held, ?_⟩
  intro last moved_last released
  exact absurd (moved_last.inReset third_held) released

private theorem startTable_guarded {machine : Machine}
    (guarded : FlagGuards machine) :
    IoctlsGuarded (mmuInit >>= fun _ => mapWindows startWindows) machine := by
  apply Holds.of_forall _ _ startTable_onTable guarded
  · intro before later kept rely
    exact rely.guarded kept
  · intro op before onTable kept
    have rest := onTable.rest before
    constructor
    · cases op with
      | storeTableByte offset value => trivial
      | storeTable value offset => trivial
      | _ => exact onTable.elim
    · unfold FlagGuards Machine.InReset
      rw [rest.1, rest.2]
      exact kept

private theorem startCore_guarded {machine : Machine}
    (guarded : FlagGuards machine) :
    IoctlsGuarded startCore machine := by
  -- before firmware_disable the core is as START has found it
  intro first moved
  have first_guarded := moved.guarded guarded
  refine ⟨trivial, ?_⟩
  intro second moved
  have second_guarded := moved.guarded first_guarded
  refine ⟨trivial, ?_⟩
  intro third moved
  have third_guarded := moved.guarded second_guarded
  refine ⟨trivial, ?_⟩
  intro fourth moved
  have fourth_guarded := moved.guarded third_guarded
  have bit_eq := kept_bit (third.register .rstctrl)
  have register_eq : fourth.register .rstctrl = third.register .rstctrl :=
    congrFun moved.1 _
  have kept : FlagGuards (Machine.execute (.iowrite32
      (third.register .rstctrl &&& ~~~m3MmuReset) .rstctrl) fourth).2 := by
    intro released
    apply fourth_guarded
    intro held
    apply released
    unfold Machine.InReset at held
    rw [register_eq] at held
    exact bit_eq.trans held
  refine ⟨kept, ?_⟩
  intro fifth moved
  have fifth_guarded := moved.guarded kept
  refine ⟨trivial, ?_⟩
  intro sixth moved
  have sixth_guarded := moved.guarded fifth_guarded
  refine ⟨trivial, ?_⟩
  intro seventh moved
  refine ⟨fun impossible => Bool.noConfusion impossible, ?_⟩
  -- from here on the flag is clear
  intro eighth moved
  have eighth_clear : eighth.firmwareEnabled = false := moved.2
  refine ⟨trivial, ?_⟩
  intro ninth moved
  have ninth_clear : ninth.firmwareEnabled = false := moved.2.trans eighth_clear
  refine ⟨fun _ => ninth_clear, ?_⟩
  intro last moved _
  exact moved.2.trans ninth_clear

private theorem ioctl_guarded (ioctlNum : UInt32) {machine : Machine}
    (guarded : FlagGuards machine) :
    IoctlsGuarded (quadcopterIoctl ioctlNum) machine := by
  by_cases stop : ioctlNum = quadcopterStop
  · rw [stop]
    exact stop_guarded machine
  · by_cases start : ioctlNum = quadcopterStart
    · rw [start, quadcopterIoctl_start, ← Program.bind_assoc]
      exact (startTable_guarded guarded).bind WritesRely.refl
        (fun _ _ => startCore_guarded)
    · rw [ioctl_other stop start]
      intro later moved
      exact moved.guarded guarded

private theorem ioctls_guarded (ioctlNums : List UInt32) {machine : Machine}
    (guarded : FlagGuards machine) :
    IoctlsGuarded (ioctls ioctlNums) machine := by
  induction ioctlNums generalizing machine with
  | nil =>
      intro later moved
      exact moved.guarded guarded
  | cons ioctlNum rest ih =>
      exact (ioctl_guarded ioctlNum guarded).bind WritesRely.refl
        (fun _ _ => ih)

def OnFPos : MachineOp → Prop
  | .storeFPos _ _ => True
  | _ => False

/-- A write has not made its test, or it has and some bytes are left. -/
def WriteStands (program : KmodProgram Int32) : Prop :=
  (∃ call user count fPos, program = quadcopterWrite call user count fPos) ∨
    ∃ offset bytes tail,
      program = (storeFirmwareBytes offset bytes >>= fun _ => tail) ∧
        tail.Forall OnFPos

private theorem not_aboutToStore_of_quiet {program : KmodProgram Int32}
    (quiet : program.Forall OnFPos) : ¬ AboutToStore program := by
  intro ⟨offset, byte, next, same⟩
  rw [same] at quiet
  exact quiet.1

private theorem writeAdmitted_stands (call : Nat) (user : UserBuffer)
    (n : UInt32)
    (fPos : Int64) : WriteStands (writeAdmitted call user n fPos) := by
  right
  refine ⟨fPos.toUInt64.toUInt32, _, _, Program.bind_assoc _ _ _, ?_⟩
  rw [Program.pure_eq, Program.ret_bind]
  split
  · trivial
  · exact ⟨trivial, fun _ => trivial⟩

structure WriteSteps (machine : Machine) (op : MachineOp)
    (next : op.Answer → KmodProgram Int32) : Prop where
  rely : WritesRely machine (Machine.execute op machine).2
  stands : WriteStands (next (Machine.execute op machine).1)
  silent : machine.firmwareEnabled = false → ¬ AboutToStore (.step op next) →
    ¬ AboutToStore (next (Machine.execute op machine).1)

private theorem WriteStands.of_quiet {program : KmodProgram Int32}
    (quiet : program.Forall OnFPos) : WriteStands program :=
  Or.inr ⟨0, [], program, rfl, quiet⟩

private theorem guard_step (call : Nat) (user : UserBuffer) (count : UInt32)
    (fPos : Int64) (machine : Machine) :
    WriteSteps machine .loadFirmwareEnabled (fun (firmwareEnabled : Bool) =>
      if firmwareEnabled then
        writeAdmitted call user (clampedCount fPos count) fPos
      else .ret minusEperm) := by
  have refused : (Program.ret minusEperm : KmodProgram Int32).Forall OnFPos :=
    trivial
  constructor
  · exact WritesRely.refl machine
  · change WriteStands (if machine.firmwareEnabled = true then _ else _)
    split
    · exact writeAdmitted_stands call user _ fPos
    · exact WriteStands.of_quiet refused
  · intro clear _
    change ¬ AboutToStore (if machine.firmwareEnabled = true then _ else _)
    rw [if_neg (by rw [clear]; decide)]
    exact not_aboutToStore_of_quiet refused

private theorem quiet_step {op : MachineOp}
    {next : op.Answer → KmodProgram Int32}
    (quiet : Program.Forall OnFPos (.step op next)) (machine : Machine) :
    WriteSteps machine op next := by
  obtain ⟨onFPos, rest⟩ := quiet
  constructor
  · cases op with
    | storeFPos call value => exact WritesRely.refl machine
    | _ => exact onFPos.elim
  · exact WriteStands.of_quiet (rest _)
  · exact fun _ _ => not_aboutToStore_of_quiet (rest _)

theorem WriteStands.step {op : MachineOp}
    {next : op.Answer → KmodProgram Int32} (stands : WriteStands (.step op next))
    (machine : Machine) : WriteSteps machine op next := by
  rcases stands with ⟨call, user, count, fPos, same⟩ |
    ⟨offset, bytes, tail, same, quiet⟩
  · rw [quadcopterWrite_eq] at same
    cases same
    exact guard_step call user count fPos machine
  · cases bytes with
    | nil =>
        have tail_eq : Program.step op next = tail := same
        rw [← tail_eq] at quiet
        exact quiet_step quiet machine
    | cons byte bytes =>
        cases same
        constructor
        · exact ⟨rfl, rfl⟩
        · exact Or.inr ⟨offset + 1, bytes, tail, rfl, quiet⟩
        · intro _ silent
          exact absurd ⟨offset, byte, _, rfl⟩ silent

/-- What every reachable state has, whatever the order. -/
structure Racing (threads : KmodThreads) : Prop where
  ioctls : IoctlsGuarded (threads.program .ioctls) threads.state
  guards : FlagGuards threads.state
  stands : ∀ call, WriteStands (threads.program (.write call))

theorem racing_start {machine : Machine} (loaded : machine.Loaded)
    (ioctlNums : List UInt32) (writes : Nat → WriteCall) :
    Racing (kmodThreads machine ioctlNums writes) := by
  have guards : FlagGuards machine :=
    fun released => absurd loaded.inReset released
  constructor
  · exact ioctls_guarded ioctlNums guards
  · exact guards
  · intro call
    exact Or.inl ⟨call, _, _, _, rfl⟩

private theorem IoctlGuard.guards {op : MachineOp} {machine : Machine}
    (allowed : IoctlGuard machine op) (guards : FlagGuards machine) :
    FlagGuards (Machine.execute op machine).2 := by
  cases op with
  | iowrite32 value register =>
      cases register with
      | rstctrl => exact allowed
      | _ => exact guards
  | storeFirmwareEnabled value =>
      intro released
      cases value with
      | true => exact absurd (allowed rfl) released
      | false => rfl
  | _ => exact guards

theorem Racing.step {threads : KmodThreads} (racing : Racing threads)
    (thread : KmodThread) : Racing (threads.step Machine.execute thread) := by
  cases thread with
  | ioctls =>
      cases doing : threads.program .ioctls with
      | ret value =>
          rw [Threads.step_ret doing]
          exact racing
      | step op next =>
          have ioctls := racing.ioctls
          rw [doing] at ioctls
          obtain ⟨allowed, rest⟩ := ioctls.during_next WritesRely.refl
          rw [Threads.step_step doing]
          constructor
          · simp only [Function.update_self]
            exact rest
          · exact allowed.guards racing.guards
          · intro call
            simp only [ne_eq, reduceCtorEq, not_false_eq_true,
              Function.update_of_ne]
            exact racing.stands call
  | write call =>
      cases doing : threads.program (.write call) with
      | ret value =>
          rw [Threads.step_ret doing]
          exact racing
      | step op next =>
          have stands := racing.stands call
          rw [doing] at stands
          have steps := stands.step threads.state
          rw [Threads.step_step doing]
          constructor
          · simp only [ne_eq, reduceCtorEq, not_false_eq_true,
              Function.update_of_ne]
            exact racing.ioctls.after_rely WritesRely.trans steps.rely
          · exact steps.rely.guarded racing.guards
          · intro other
            by_cases same : other = call
            · subst same
              simp only [Function.update_self]
              exact steps.stands
            · have different : KmodThread.write other ≠ .write call :=
                fun h => same (KmodThread.write.inj h)
              simp only [Function.update_of_ne different]
              exact racing.stands other

theorem racing_run {threads : KmodThreads} (racing : Racing threads)
    (schedule : List KmodThread) :
    Racing (threads.run Machine.execute schedule) :=
  Threads.run_preserves Racing (fun _ thread kept => kept.step thread) racing
    schedule

private theorem release_op {op : MachineOp} {machine : Machine}
    (held : machine.InReset)
    (released : ¬ (Machine.execute op machine).2.InReset) :
    ∃ value, op = .iowrite32 value .rstctrl ∧ value &&& 1 ≠ 1 := by
  cases op with
  | iowrite32 value register =>
      cases register with
      | rstctrl => exact ⟨value, rfl, released⟩
      | _ => exact absurd held released
  | _ => exact absurd held released

theorem AboutToRelease.released {threads : KmodThreads}
    (release : AboutToRelease threads) :
    ¬ (threads.step Machine.execute .ioctls).state.InReset := by
  obtain ⟨_, value, next, doing, cleared⟩ := release
  rw [Threads.step_step doing]
  exact cleared

/-- A step keeps the image untouched, unless it releases the core while some
write is about to store. -/
theorem Racing.untouched_step {threads : KmodThreads} (racing : Racing threads)
    (untouched : Untouched threads) (thread : KmodThread)
    (clear : thread = .ioctls → AboutToRelease threads →
      ∀ call, ¬ AboutToStore (threads.program (.write call))) :
    Untouched (threads.step Machine.execute thread) := by
  cases thread with
  | ioctls =>
      intro released call
      rw [Threads.step_other _ _ (by simp)]
      by_cases held : threads.state.InReset
      · apply clear rfl _ call
        refine ⟨held, ?_⟩
        cases doing : threads.program .ioctls with
        | ret value =>
            rw [Threads.step_ret doing] at released
            exact absurd held released
        | step op next =>
            rw [Threads.step_step doing] at released
            obtain ⟨value, rfl, cleared⟩ := release_op held released
            exact ⟨value, next, rfl, cleared⟩
      · exact untouched held call
  | write call =>
      cases doing : threads.program (.write call) with
      | ret value =>
          rw [Threads.step_ret doing]
          exact untouched
      | step op next =>
          have stands := racing.stands call
          rw [doing] at stands
          have steps := stands.step threads.state
          intro released other
          have running : ¬ threads.state.InReset := by
            intro held
            apply released
            rw [Threads.step_step doing]
            exact steps.rely.inReset held
          by_cases same : other = call
          · subst same
            have silent := untouched running other
            rw [doing] at silent
            rw [Threads.step_step doing]
            simp only [Function.update_self]
            exact steps.silent (racing.guards running) silent
          · have different : KmodThread.write other ≠ .write call :=
              fun h => same (KmodThread.write.inj h)
            rw [Threads.step_other _ _ different]
            exact untouched running other

/-! ### Any interleaving -/

/-- The firmware is untouched in every state of a run exactly when no release of
the core finds a write that is about to store. -/
theorem firmware_untouched_iff {machine : Machine} (loaded : machine.Loaded)
    (ioctlNums : List UInt32) (writes : Nat → WriteCall)
    (schedule : List KmodThread) :
    (∀ before, before <+: schedule →
      Untouched ((kmodThreads machine ioctlNums writes).run Machine.execute
        before)) ↔
      ∀ before, before ++ [.ioctls] <+: schedule →
        AboutToRelease ((kmodThreads machine ioctlNums writes).run
          Machine.execute before) →
        ∀ call, ¬ AboutToStore (((kmodThreads machine ioctlNums writes).run
          Machine.execute before).program (.write call)) := by
  constructor
  · intro all before within release call
    have untouched := all (before ++ [.ioctls]) within
    rw [Threads.run_append] at untouched
    have silent := untouched release.released call
    have unmoved := Threads.step_other Machine.execute
      ((kmodThreads machine ioctlNums writes).run Machine.execute before)
      (show KmodThread.write call ≠ .ioctls by simp)
    rw [← unmoved]
    exact silent
  · intro clear before
    induction before using List.reverseRecOn with
    | nil =>
        intro _ released
        exact absurd loaded.inReset released
    | append_singleton before thread ih =>
        intro within
        have earlier := ih ((List.prefix_append before [thread]).trans within)
        have racing := racing_run (racing_start loaded ioctlNums writes) before
        rw [Threads.run_append]
        apply racing.untouched_step earlier thread
        intro ioctls
        subst ioctls
        exact clear before within

theorem firmware_untouched_iff_of_idle :
    (∀ before, before <+: [.write 0, .ioctls] →
      Untouched ((kmodThreads Machine.idle [quadcopterStart]
        (fun _ => ⟨UserBuffer.readable (fun _ => 0), 1⟩)).run Machine.execute
          before)) ↔
      ∀ before, before ++ [.ioctls] <+: [.write 0, .ioctls] →
        AboutToRelease ((kmodThreads Machine.idle [quadcopterStart]
          (fun _ => ⟨UserBuffer.readable (fun _ => 0), 1⟩)).run Machine.execute
            before) →
        ∀ call, ¬ AboutToStore (((kmodThreads Machine.idle [quadcopterStart]
          (fun _ => ⟨UserBuffer.readable (fun _ => 0), 1⟩)).run Machine.execute
            before).program (.write call)) :=
  firmware_untouched_iff Machine.idle_loaded [quadcopterStart]
    (fun _ => ⟨UserBuffer.readable (fun _ => 0), 1⟩) [.write 0, .ioctls]

private theorem ioctls_run_alone {threads : KmodThreads}
    {ioctlNums : List UInt32}
    (doing : threads.program .ioctls = ioctls ioctlNums) :
    ∃ schedule, (threads.run Machine.execute schedule).state =
        ((ioctls ioctlNums).run Machine.execute threads.state).2 ∧
      ∀ call, (threads.run Machine.execute schedule).program (.write call) =
        threads.program (.write call) := by
  obtain ⟨state_eq, others⟩ := Threads.run_alone Machine.execute doing
  exact ⟨_, state_eq, fun call => others (.write call) (by simp)⟩

/-- A write of one byte passes its test, START runs to its end, and the write is
about to store under the running core. -/
theorem firmware_overwritten :
    ¬ ∀ schedule, Untouched ((kmodThreads Machine.idle [quadcopterStart]
      (fun _ => ⟨UserBuffer.readable (fun _ => 0), 1⟩)).run Machine.execute
        schedule) := by
  intro all
  let tested := (kmodThreads Machine.idle [quadcopterStart]
    (fun _ => ⟨UserBuffer.readable (fun _ => 0), 1⟩)).step Machine.execute
      (.write 0)
  have starting : tested.program .ioctls = ioctls [quadcopterStart] := rfl
  have unchanged : tested.state = Machine.idle := rfl
  obtain ⟨schedule, state_eq, waiting⟩ := ioctls_run_alone starting
  rw [unchanged, run_ioctls_cons, run_ioctls_nil] at state_eq
  have untouched : Untouched (tested.run Machine.execute schedule) :=
    all (.write 0 :: schedule)
  have stores : AboutToStore (tested.program (.write 0)) := ⟨0, 0, _, rfl⟩
  rw [← waiting 0] at stores
  apply untouched _ 0 stores
  rw [state_eq]
  exact (start_started Machine.idle).released

end Quadcopter.FirmwareDevice

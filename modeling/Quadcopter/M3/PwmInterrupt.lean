import Quadcopter.Library.AtomicProgram
import Quadcopter.Library.StepRuns
import Quadcopter.M3.Pwm

/-
The interrupt handlers of the motor timers (panda/m3/pwm.c).

A handler reads the status register, drives its pin by the overflow flag, and
writes back what it has read, which clears those flags.  The timer's events can
set flags at any point of it.
-/

namespace Quadcopter

open AtomicProgram

def ovfIrqFlag : UInt32 := (1 : UInt32) <<< 1

def matItFlag : UInt32 := (1 : UInt32) <<< 0

/-- The status register of a timer and the output register of the gpios. -/
structure PwmRegs where
  irqStatus : UInt32
  dataOut : UInt32
deriving DecidableEq, Repr

inductive PwmOp where
  | loadStatus
  | storeStatus (val : UInt32)
  | setDataOut (val : UInt32)
  | clearDataOut (val : UInt32)

def PwmOp.Answer : PwmOp → Type
  | .loadStatus => UInt32
  | _ => Unit

/-- Writing a flag back clears it. -/
def PwmRegs.execute : Execution PwmOp PwmOp.Answer PwmRegs
  | .loadStatus, regs => (regs.irqStatus, regs)
  | .storeStatus val, regs =>
      ((), { regs with irqStatus := regs.irqStatus &&& ~~~val })
  | .setDataOut val, regs =>
      ((), { regs with dataOut := regs.dataOut ||| val })
  | .clearDataOut val, regs =>
      ((), { regs with dataOut := regs.dataOut &&& ~~~val })

abbrev PwmProgram (α : Type) : Type := Program PwmOp PwmOp.Answer α

def loadStatus : PwmProgram UInt32 := .perform PwmOp.loadStatus

def storeStatus (val : UInt32) : PwmProgram Unit :=
  .perform (PwmOp.storeStatus val)

def setDataOut (val : UInt32) : PwmProgram Unit :=
  .perform (PwmOp.setDataOut val)

def clearDataOut (val : UInt32) : PwmProgram Unit :=
  .perform (PwmOp.clearDataOut val)

def pwmDrive (pin stat : UInt32) : PwmProgram Unit := do
  if stat &&& ovfIrqFlag ≠ 0 then
    setDataOut pin
  else
    clearDataOut pin
  storeStatus stat

def pwmHandler (pin : UInt32) : PwmProgram Unit := do
  let stat ← loadStatus
  pwmDrive pin stat

def pwm1Handler : PwmProgram Unit := pwmHandler ((1 : UInt32) <<< 0)

def pwm2Handler : PwmProgram Unit := pwmHandler ((1 : UInt32) <<< 1)

def pwm3Handler : PwmProgram Unit := pwmHandler ((1 : UInt32) <<< 2)

def pwm4Handler : PwmProgram Unit := pwmHandler ((1 : UInt32) <<< 3)

def PwmDevice.pin : PwmDevice → UInt32
  | .pwm1 => (1 : UInt32) <<< 0
  | .pwm2 => (1 : UInt32) <<< 1
  | .pwm3 => (1 : UInt32) <<< 2
  | .pwm4 => (1 : UInt32) <<< 3

def PwmDevice.handler : PwmDevice → PwmProgram Unit
  | .pwm1 => pwm1Handler
  | .pwm2 => pwm2Handler
  | .pwm3 => pwm3Handler
  | .pwm4 => pwm4Handler

theorem PwmDevice.handler_eq (pwm : PwmDevice) :
    pwm.handler = pwmHandler pwm.pin := by
  cases pwm with
  | pwm1 => rfl
  | pwm2 => rfl
  | pwm3 => rfl
  | pwm4 => rfl

def PwmRegs.PinHigh (pwm : PwmDevice) (regs : PwmRegs) : Prop :=
  regs.dataOut &&& pwm.pin ≠ 0

instance (pwm : PwmDevice) (regs : PwmRegs) : Decidable (regs.PinHigh pwm) :=
  inferInstanceAs (Decidable (_ ≠ _))

def PwmRegs.driven (pin stat : UInt32) (regs : PwmRegs) : PwmRegs :=
  { regs with
    dataOut :=
      if stat &&& ovfIrqFlag ≠ 0 then regs.dataOut ||| pin
      else regs.dataOut &&& ~~~pin }

theorem PwmRegs.driven_pinHigh (pwm : PwmDevice) (stat : UInt32)
    (regs : PwmRegs) :
    (regs.driven pwm.pin stat).PinHigh pwm ↔ stat &&& ovfIrqFlag ≠ 0 := by
  have some_ : pwm.pin ≠ 0 := by
    cases pwm with
    | pwm1 => decide
    | pwm2 => decide
    | pwm3 => decide
    | pwm4 => decide
  have set_ : (regs.dataOut ||| pwm.pin) &&& pwm.pin = pwm.pin := by
    apply UInt32.toBitVec_inj.mp
    ext place
    simp +contextual
  have cleared : regs.dataOut &&& ~~~pwm.pin &&& pwm.pin = 0 := by
    rw [UInt32.and_assoc, UInt32.not_and_self, UInt32.and_zero]
  unfold driven PinHigh
  dsimp only
  by_cases overflowed : stat &&& ovfIrqFlag ≠ 0
  · rw [if_pos overflowed, set_]
    simp only [some_, overflowed, not_false_eq_true, ne_eq]
  · rw [if_neg overflowed, cleared]
    simp only [overflowed, ne_eq, not_true_eq_false]

private theorem pwmDrive_run (pin stat : UInt32) (regs : PwmRegs) :
    ((pwmDrive pin stat).run PwmRegs.execute regs).2 =
      { (regs.driven pin stat) with
        irqStatus := regs.irqStatus &&& ~~~stat } := by
  unfold pwmDrive PwmRegs.driven
  by_cases overflowed : stat &&& ovfIrqFlag ≠ 0
  · rw [if_pos overflowed, if_pos overflowed]
    rfl
  · rw [if_neg overflowed, if_neg overflowed]
    rfl

theorem pwmHandler_run (pin : UInt32) (regs : PwmRegs) :
    ((pwmHandler pin).run PwmRegs.execute regs).2 =
      { (regs.driven pin regs.irqStatus) with irqStatus := 0 } := by
  change ((pwmDrive pin regs.irqStatus).run PwmRegs.execute regs).2 = _
  rw [pwmDrive_run, UInt32.and_not_self]

/-! ### Events and handler runs -/

inductive TimerEvent where
  | ovf
  | mat
deriving DecidableEq, Repr

def TimerEvent.flag : TimerEvent → UInt32
  | .ovf => ovfIrqFlag
  | .mat => matItFlag

def TimerEvent.other : TimerEvent → TimerEvent
  | .ovf => .mat
  | .mat => .ovf

def bothFlags : UInt32 := ovfIrqFlag ||| matItFlag

namespace TimerEvent

private theorem flag_or_other (event : TimerEvent) :
    event.flag ||| event.other.flag = bothFlags := by
  cases event with
  | ovf => rfl
  | mat => rfl

theorem other_other (event : TimerEvent) : event.other.other = event := by
  cases event with
  | ovf => rfl
  | mat => rfl

private theorem both_or_flag (event : TimerEvent) :
    bothFlags ||| event.flag = bothFlags := by
  cases event with
  | ovf => rfl
  | mat => rfl

private theorem both_without (event : TimerEvent) :
    bothFlags &&& ~~~event.flag = event.other.flag := by
  cases event with
  | ovf => rfl
  | mat => rfl

private theorem flag_and_other (event : TimerEvent) :
    event.flag &&& event.other.flag = 0 := by
  cases event with
  | ovf => rfl
  | mat => rfl

private theorem flag_ne_zero (event : TimerEvent) : event.flag ≠ 0 := by
  cases event with
  | ovf => decide
  | mat => decide

private theorem both_and_flag (event : TimerEvent) :
    bothFlags &&& event.flag = event.flag := by
  cases event with
  | ovf => rfl
  | mat => rfl

theorem flag_ovf (event : TimerEvent) :
    event.flag &&& ovfIrqFlag ≠ 0 ↔ event = .ovf := by
  cases event with
  | ovf => decide
  | mat => decide

end TimerEvent

/-- A timer whose events alternate, and the run of its handler.  `stat` is what
the run has read of the status, until it writes it back. -/
structure PwmMachine where
  regs : PwmRegs
  next : TimerEvent
  last : Option TimerEvent
  running : Option (PwmProgram Unit)
  stat : Option UInt32

inductive PwmAction where
  | event
  | handler

def PwmMachine.start (first : TimerEvent) (dataOut : UInt32) : PwmMachine :=
  { regs := ⟨0, dataOut⟩
    next := first
    last := none
    running := none
    stat := none }

def PwmMachine.remaining : PwmProgram Unit → Option (PwmProgram Unit)
  | .ret _ => none
  | .step op next => some (.step op next)

def PwmMachine.noted (op : PwmOp) (machine : PwmMachine) : Option UInt32 :=
  match op with
  | .loadStatus => some machine.regs.irqStatus
  | .storeStatus _ => none
  | _ => machine.stat

/-- An idle handler runs when a flag is pending; a running one does its next
operation. -/
def PwmMachine.step (pwm : PwmDevice) (machine : PwmMachine) :
    PwmAction → PwmMachine
  | .event =>
      { machine with
        regs := { machine.regs with
          irqStatus := machine.regs.irqStatus ||| machine.next.flag }
        next := machine.next.other
        last := some machine.next }
  | .handler =>
      match machine.running with
      | none =>
          if machine.regs.irqStatus = 0 then machine
          else { machine with running := some pwm.handler }
      | some (.ret _) => { machine with running := none }
      | some (.step op next) =>
          { machine with
            regs := (PwmRegs.execute op machine.regs).2
            running := remaining (next (PwmRegs.execute op machine.regs).1)
            stat := machine.noted op }

namespace PwmMachine

variable {pwm : PwmDevice} {machine : PwmMachine} {stat : UInt32}

private theorem step_begin (idle : machine.running = none)
    (pending : machine.regs.irqStatus ≠ 0) :
    machine.step pwm .handler = { machine with running := some pwm.handler } := by
  unfold step
  rw [idle]
  exact if_neg pending

private theorem step_load (begun : machine.running = some pwm.handler) :
    machine.step pwm .handler =
      { machine with
        running := some (pwmDrive pwm.pin machine.regs.irqStatus)
        stat := some machine.regs.irqStatus } := by
  have drives : remaining (pwmDrive pwm.pin machine.regs.irqStatus) =
      some (pwmDrive pwm.pin machine.regs.irqStatus) := by
    unfold pwmDrive
    split
    · rfl
    · rfl
  rw [PwmDevice.handler_eq] at begun
  unfold step
  rw [begun, ← drives]
  rfl

private theorem step_drive
    (loaded : machine.running = some (pwmDrive pwm.pin stat)) :
    machine.step pwm .handler =
      { machine with
        regs := machine.regs.driven pwm.pin stat
        running := some (storeStatus stat) } := by
  unfold step PwmRegs.driven
  rw [loaded]
  unfold pwmDrive
  by_cases overflowed : stat &&& ovfIrqFlag ≠ 0
  · rw [if_pos overflowed, if_pos overflowed]
    rfl
  · rw [if_neg overflowed, if_neg overflowed]
    rfl

private theorem step_store
    (driven : machine.running = some (storeStatus stat)) :
    machine.step pwm .handler =
      { machine with
        regs := { machine.regs with
          irqStatus := machine.regs.irqStatus &&& ~~~stat }
        running := none
        stat := none } := by
  unfold step
  rw [driven]
  rfl

/-- A run has read `stat`, and has driven the pin by it if it has come to the
write-back. -/
structure Reading (pwm : PwmDevice) (stat : UInt32) (machine : PwmMachine) :
    Prop where
  read : machine.stat = some stat
  running : machine.running = some (pwmDrive pwm.pin stat) ∨
    machine.running = some (storeStatus stat) ∧
      (machine.regs.PinHigh pwm ↔ stat &&& ovfIrqFlag ≠ 0)

structure Finished (pwm : PwmDevice) (stat : UInt32)
    (machine done : PwmMachine) : Prop where
  running : done.running = none
  read : done.stat = none
  status : done.regs.irqStatus = machine.regs.irqStatus &&& ~~~stat
  pin : done.regs.PinHigh pwm ↔ stat &&& ovfIrqFlag ≠ 0
  last : done.last = machine.last

theorem Reading.finish (reading : machine.Reading pwm stat) :
    ∃ count, Finished pwm stat machine
      (runSteps (step pwm) machine (List.replicate count .handler)) := by
  rcases reading.running with loaded | ⟨driven, pin⟩
  · have drives := step_drive loaded
    have stores : (machine.step pwm .handler).running =
        some (storeStatus stat) := by
      rw [drives]
    refine ⟨2, ?_⟩
    change Finished pwm stat machine
      ((machine.step pwm .handler).step pwm .handler)
    rw [step_store stores, drives]
    exact ⟨rfl, rfl, rfl, machine.regs.driven_pinHigh pwm stat, rfl⟩
  · refine ⟨1, ?_⟩
    change Finished pwm stat machine (machine.step pwm .handler)
    rw [step_store driven]
    exact ⟨rfl, rfl, rfl, pin, rfl⟩

private theorem finish_loaded (begun : machine.running = some pwm.handler) :
    ∃ count, Finished pwm machine.regs.irqStatus machine
      (runSteps (step pwm) machine (List.replicate count .handler)) := by
  have loaded := step_load begun
  have reading : (machine.step pwm .handler).Reading pwm
      machine.regs.irqStatus := by
    rw [loaded]
    exact ⟨rfl, .inl rfl⟩
  obtain ⟨count, done⟩ := reading.finish
  refine ⟨count + 1, done.running, done.read, done.status.trans ?_, done.pin,
    done.last.trans ?_⟩
  · rw [loaded]
  · rw [loaded]

/-- A run of the handler that nothing disturbs acknowledges every flag. -/
theorem finish_whole (idle : machine.running = none)
    (pending : machine.regs.irqStatus ≠ 0) :
    ∃ count, Finished pwm machine.regs.irqStatus machine
      (runSteps (step pwm) machine (List.replicate count .handler)) := by
  have begun := @step_begin pwm machine idle pending
  have running : (machine.step pwm .handler).running = some pwm.handler := by
    rw [begun]
  obtain ⟨count, done⟩ := finish_loaded running
  rw [begun] at done
  refine ⟨count + 1, ?_⟩
  rw [List.replicate_succ]
  unfold runSteps at done ⊢
  rw [List.foldl_cons, begun]
  exact ⟨done.running, done.read, done.status, done.pin, done.last⟩

/-- No event sets again a flag that the running handler has read, and a handler
that reads both flags reads them before the next match. -/
def Timely (machine : PwmMachine) : PwmAction → Prop
  | .event => ∀ stat ∈ machine.stat, stat &&& machine.next.flag = 0
  | .handler => machine.running.isSome → machine.stat = none →
      machine.regs.irqStatus = bothFlags → machine.last = some .ovf

instance (machine : PwmMachine) :
    (action : PwmAction) → Decidable (machine.Timely action)
  | .event => Option.decidableForallMem machine.stat
  | .handler => inferInstanceAs (Decidable (_ → _ → _ → _))

def Shows (pwm : PwmDevice) (machine : PwmMachine) : Prop :=
  ∀ event, machine.last = some event →
    (machine.regs.PinHigh pwm ↔ event = .ovf)

/-- Nothing is lost: with no handler running and no flag pending, the pin is as
the last event calls for. -/
def Settled (pwm : PwmDevice) (machine : PwmMachine) : Prop :=
  machine.running = none → machine.regs.irqStatus = 0 → machine.Shows pwm

/-! ### What timely steps keep -/

inductive Phase (pwm : PwmDevice) (machine : PwmMachine) : Prop where
  | unread (read : machine.stat = none)
      (running : machine.running = none ∨
        machine.running = some pwm.handler ∧ machine.regs.irqStatus ≠ 0)
      (status : machine.regs.irqStatus = 0 ∧ machine.Shows pwm ∨
        ∃ event, machine.last = some event ∧
          (machine.regs.irqStatus = event.flag ∨
            machine.regs.irqStatus = bothFlags))
  | reading (stat : UInt32) (event : TimerEvent)
      (reading : machine.Reading pwm stat)
      (decided : stat = event.flag ∨ stat = bothFlags ∧ event = .ovf)
      (since : machine.last = some event ∧ machine.regs.irqStatus = stat ∨
        stat = event.flag ∧ machine.last = some event.other ∧
          machine.regs.irqStatus = bothFlags)

structure Kept (pwm : PwmDevice) (machine : PwmMachine) : Prop where
  alternates : ∀ event, machine.last = some event → machine.next = event.other
  phase : machine.Phase pwm

private theorem decided_ovf {event : TimerEvent}
    (decided : stat = event.flag ∨ stat = bothFlags ∧ event = .ovf) :
    stat &&& ovfIrqFlag ≠ 0 ↔ event = .ovf := by
  rcases decided with rfl | ⟨rfl, rfl⟩
  · exact event.flag_ovf
  · decide

theorem start_kept (first : TimerEvent) (dataOut : UInt32) :
    (start first dataOut).Kept pwm where
  alternates := fun _ none_ => nomatch none_
  phase := .unread rfl (.inl rfl) (.inl ⟨rfl, fun _ none_ => nomatch none_⟩)

theorem Kept.event (kept : machine.Kept pwm)
    (timely : machine.Timely .event) : (machine.step pwm .event).Kept pwm := by
  constructor
  · intro event now
    cases now
    rfl
  · cases kept.phase with
    | unread read running status =>
        have set_ : machine.regs.irqStatus ||| machine.next.flag =
              machine.next.flag ∨
            machine.regs.irqStatus ||| machine.next.flag = bothFlags := by
          rcases status with ⟨none_, _⟩ | ⟨event, last, flag | both⟩
          · left
            rw [none_, UInt32.zero_or]
          · right
            rw [flag, kept.alternates event last, event.flag_or_other]
          · right
            rw [both, machine.next.both_or_flag]
        refine .unread read ?_ (.inr ⟨machine.next, rfl, set_⟩)
        rcases running with idle | ⟨begun, _⟩
        · exact .inl idle
        · refine .inr ⟨begun, ?_⟩
          change machine.regs.irqStatus ||| machine.next.flag ≠ 0
          rcases set_ with flag | both
          · rw [flag]
            exact machine.next.flag_ne_zero
          · rw [both]
            decide
    | reading stat event reading decided since =>
        have unseen := timely stat reading.read
        rcases since with ⟨last, status⟩ | ⟨flag, last, status⟩
        · have next := kept.alternates event last
          have one : stat = event.flag := by
            rcases decided with flag | ⟨both, _⟩
            · exact flag
            · rw [both, TimerEvent.both_and_flag] at unseen
              exact absurd unseen machine.next.flag_ne_zero
          refine .reading stat event ⟨reading.read, reading.running⟩ decided
            (.inr ⟨one, congrArg some next, ?_⟩)
          change machine.regs.irqStatus ||| machine.next.flag = bothFlags
          rw [status, one, next, event.flag_or_other]
        · have next := kept.alternates event.other last
          have again := next.trans event.other_other
          rw [flag, again, UInt32.and_self] at unseen
          exact absurd unseen event.flag_ne_zero

theorem Kept.handler (kept : machine.Kept pwm)
    (timely : machine.Timely .handler) :
    (machine.step pwm .handler).Kept pwm := by
  obtain ⟨alternates, phase⟩ := kept
  cases phase with
  | unread read running status =>
      rcases running with idle | ⟨begun, pending⟩
      · by_cases quiet : machine.regs.irqStatus = 0
        · have same : machine.step pwm .handler = machine := by
            unfold step
            rw [idle]
            exact if_pos quiet
          rw [same]
          exact ⟨alternates, .unread read (.inl idle) status⟩
        · rw [step_begin idle quiet]
          exact ⟨alternates, .unread read (.inr ⟨rfl, quiet⟩) status⟩
      · have isSome : machine.running.isSome := by
          rw [begun]
          rfl
        rw [step_load begun]
        refine ⟨alternates, ?_⟩
        rcases status with ⟨none_, _⟩ | ⟨event, last, flag | both⟩
        · exact absurd none_ pending
        · exact .reading _ event ⟨rfl, .inl rfl⟩ (.inl flag)
            (.inl ⟨last, rfl⟩)
        · have overflow := timely isSome read both
          have same : event = .ovf := Option.some.inj (last.symm.trans overflow)
          exact .reading _ event ⟨rfl, .inl rfl⟩ (.inr ⟨both, same⟩)
            (.inl ⟨last, rfl⟩)
  | reading stat event reading decided since =>
      rcases reading.running with loaded | ⟨driven, pin⟩
      · rw [step_drive loaded]
        exact ⟨alternates, .reading stat event
          ⟨reading.read, .inr ⟨rfl, machine.regs.driven_pinHigh pwm stat⟩⟩
          decided since⟩
      · rw [step_store driven]
        refine ⟨alternates, .unread rfl (.inl rfl) ?_⟩
        rcases since with ⟨last, status⟩ | ⟨flag, last, status⟩
        · left
          constructor
          · change machine.regs.irqStatus &&& ~~~stat = 0
            rw [status, UInt32.and_not_self]
          · intro other now
            cases last.symm.trans now
            exact pin.trans (decided_ovf decided)
        · right
          refine ⟨event.other, last, .inl ?_⟩
          change machine.regs.irqStatus &&& ~~~stat = event.other.flag
          rw [status, flag, event.both_without]

theorem Kept.step (kept : machine.Kept pwm) {action : PwmAction}
    (timely : machine.Timely action) : (machine.step pwm action).Kept pwm := by
  cases action with
  | event => exact kept.event timely
  | handler => exact kept.handler timely

theorem Kept.settled (kept : machine.Kept pwm) : machine.Settled pwm := by
  intro idle quiet
  cases kept.phase with
  | unread read running status =>
      rcases status with ⟨_, shows⟩ | ⟨event, last, flag | both⟩
      · exact shows
      · exact absurd (flag.symm.trans quiet) event.flag_ne_zero
      · rw [both] at quiet
        exact absurd quiet (by decide)
  | reading stat event reading decided since =>
      rcases reading.running with loaded | ⟨driven, _⟩
      · rw [idle] at loaded
        cases loaded
      · rw [idle] at driven
        cases driven

/-! ### What other steps lose -/

/-- A run that has read `stat` leaves the pin wrong if it acknowledges all that
is pending and was not to be decided by the last event. -/
theorem Finished.unsettled {done : PwmMachine}
    (finished : Finished pwm stat machine done)
    (quiet : machine.regs.irqStatus &&& ~~~stat = 0) {event : TimerEvent}
    (last : machine.last = some event)
    (wrong : ¬ (stat &&& ovfIrqFlag ≠ 0 ↔ event = .ovf)) :
    ¬ done.Settled pwm := by
  intro settled
  have shows := settled finished.running (finished.status.trans quiet) event
    (finished.last.trans last)
  exact wrong (finished.pin.symm.trans shows)

/-- An event sets again a flag that the running handler has read. -/
theorem Kept.untimely_event (kept : machine.Kept pwm)
    (untimely : ¬ machine.Timely .event) :
    ∃ count, ¬ (runSteps (PwmMachine.step pwm) (machine.step pwm .event)
      (List.replicate count .handler)).Settled pwm := by
  obtain ⟨alternates, phase⟩ := kept
  cases phase with
  | unread read running status =>
      refine absurd ?_ untimely
      intro stat now
      rw [read] at now
      cases now
  | reading stat event reading decided since =>
      have seen : stat &&& machine.next.flag ≠ 0 := by
        intro unseen
        apply untimely
        intro other now
        cases reading.read.symm.trans now
        exact unseen
      have after : (machine.step pwm .event).Reading pwm stat :=
        ⟨reading.read, reading.running⟩
      obtain ⟨count, done⟩ := after.finish
      rcases since with ⟨last, status⟩ | ⟨flag, last, status⟩
      · have next := alternates event last
        rcases decided with flag | ⟨both, overflow⟩
        · rw [flag, next, event.flag_and_other] at seen
          exact absurd rfl seen
        · refine ⟨count, done.unsettled ?_ rfl ?_⟩
          · change (machine.regs.irqStatus ||| machine.next.flag) &&&
              ~~~stat = 0
            rw [status, both, TimerEvent.both_or_flag, UInt32.and_not_self]
          · rw [next, overflow, both]
            decide
      · -- the flag of the event before is left, and its handler decides again
        have next : machine.next = event :=
          (alternates event.other last).trans event.other_other
        have left_ : (machine.regs.irqStatus ||| machine.next.flag) &&&
            ~~~stat = event.other.flag := by
          rw [status, flag, next, event.both_or_flag, event.both_without]
        have status_ := done.status.trans left_
        obtain ⟨more, again⟩ := finish_whole done.running
          (fun quiet => event.other.flag_ne_zero (status_.symm.trans quiet))
        refine ⟨count + more, ?_⟩
        rw [List.replicate_add, runSteps_append]
        refine again.unsettled UInt32.and_not_self
          (done.last.trans (congrArg some next)) ?_
        rw [status_, TimerEvent.flag_ovf]
        cases event with
        | ovf => decide
        | mat => decide

/-- A handler reads both flags after a match. -/
theorem Kept.untimely_handler (kept : machine.Kept pwm)
    (untimely : ¬ machine.Timely .handler) :
    ∃ count, ¬ (runSteps (PwmMachine.step pwm) (machine.step pwm .handler)
      (List.replicate count .handler)).Settled pwm := by
  unfold Timely at untimely
  simp only [Classical.not_imp] at untimely
  obtain ⟨isSome, unread_, both, notOverflow⟩ := untimely
  cases kept.phase with
  | unread read running status =>
      rcases running with idle | ⟨begun, _⟩
      · rw [idle] at isSome
        cases isSome
      · have after : (machine.step pwm .handler).Reading pwm bothFlags := by
          rw [step_load begun, both]
          exact ⟨rfl, .inl rfl⟩
        obtain ⟨count, done⟩ := after.finish
        rw [step_load begun] at done ⊢
        rcases status with ⟨none_, _⟩ | ⟨event, last, _⟩
        · rw [both] at none_
          exact absurd none_ (by decide)
        · refine ⟨count, done.unsettled ?_ last ?_⟩
          · change machine.regs.irqStatus &&& ~~~bothFlags = 0
            rw [both, UInt32.and_not_self]
          · intro same
            exact notOverflow (last.trans
              (congrArg some (same.mp (by decide))))
  | reading stat event reading decided since =>
      cases reading.read.symm.trans unread_

/-- After an untimely step a handler that is left alone leaves the pin wrong. -/
theorem Kept.untimely (kept : machine.Kept pwm) {action : PwmAction}
    (untimely : ¬ machine.Timely action) :
    ∃ count, ¬ (runSteps (PwmMachine.step pwm) (machine.step pwm action)
      (List.replicate count .handler)).Settled pwm := by
  cases action with
  | event => exact kept.untimely_event untimely
  | handler => exact kept.untimely_handler untimely

end PwmMachine

/-! ### Runs -/

/-- In every run of timely steps no event is lost.  After an untimely step there
is one, if the handler is then left alone. -/
theorem timely_interrupts_kept (pwm : PwmDevice) (first : TimerEvent)
    (dataOut : UInt32) (actions : List PwmAction)
    (timely : EveryStep (PwmMachine.step pwm) PwmMachine.Timely
      (.start first dataOut) actions) :
    let machine := runSteps (PwmMachine.step pwm) (.start first dataOut) actions
    machine.Settled pwm ∧
      ∀ action, ¬ machine.Timely action →
        ∃ count, ¬ (runSteps (PwmMachine.step pwm) (.start first dataOut)
          (actions ++ action :: List.replicate count .handler)).Settled pwm := by
  intro machine
  have kept : machine.Kept pwm := timely.invariant (PwmMachine.Kept pwm)
    (fun _ _ kept now => kept.step now) (PwmMachine.start_kept first dataOut)
  constructor
  · exact kept.settled
  · intro action untimely
    obtain ⟨count, lost⟩ := kept.untimely untimely
    refine ⟨count, ?_⟩
    rw [runSteps_append]
    exact lost

/-- A match comes while the overflow is handled. -/
theorem timely_interrupts_kept_of_match :
    (runSteps (PwmMachine.step .pwm1) (.start .ovf 0)
      [.event, .handler, .handler, .event, .handler, .handler, .handler,
        .handler, .handler, .handler]).Settled .pwm1 :=
  (timely_interrupts_kept .pwm1 .ovf 0
    [.event, .handler, .handler, .event, .handler, .handler, .handler,
      .handler, .handler, .handler] (by decide)).1

/-- A handler that is delayed past the match leaves the motor driven. -/
theorem delayed_interrupt_lost :
    ¬ ∀ (actions : List PwmAction),
      (runSteps (PwmMachine.step .pwm1) (.start .ovf 0) actions).Settled
        .pwm1 := by
  intro settled
  have shows := settled
    [.event, .event, .handler, .handler, .handler, .handler] rfl (by decide)
    .mat rfl
  exact absurd (shows.mp (by decide)) (by decide)

end Quadcopter

import Quadcopter.M3.PwmInterrupt

/-
The pulses of a motor (panda/m3/pwm.c).

A timer counts up to its overflow and starts again from its reload value.  The
pin rises at the overflow and falls at the match, and pwm_set can move the match
at any time, so also to where the counter has already been.
-/

namespace Quadcopter

open AtomicProgram

def PwmRegs.handled (pwm : PwmDevice) (event : TimerEvent) (regs : PwmRegs) :
    PwmRegs :=
  (pwm.handler.run PwmRegs.execute
    { regs with irqStatus := regs.irqStatus ||| event.flag }).2

structure PwmCounter where
  timers : PwmTimers
  regs : PwmRegs

inductive PulseAction where
  | tick
  | set (val : UInt16)

namespace PwmCounter

def start (reset timers : PwmTimers) (dataOut : UInt32) : PwmCounter :=
  { timers := pwmInit reset timers
    regs := ⟨0, dataOut⟩ }

def compare (pwm : PwmDevice) (counter : PwmCounter) : PwmCounter :=
  if (counter.timers pwm).tcrr = (counter.timers pwm).tmar then
    { counter with regs := counter.regs.handled pwm .mat }
  else counter

def Overflows (pwm : PwmDevice) (counter : PwmCounter) : Prop :=
  (counter.timers pwm).tcrr = 0xFFFFFFFF

instance (pwm : PwmDevice) (counter : PwmCounter) :
    Decidable (counter.Overflows pwm) :=
  inferInstanceAs (Decidable (_ = _))

def count (pwm : PwmDevice) (counter : PwmCounter) : PwmCounter :=
  let timer := counter.timers pwm
  if counter.Overflows pwm then
    { timers := Function.update counter.timers pwm
        { timer with tcrr := timer.tldr }
      regs := counter.regs.handled pwm .ovf }
  else
    { counter with
      timers := Function.update counter.timers pwm
        { timer with tcrr := timer.tcrr + 1 } }

def step (pwm : PwmDevice) (counter : PwmCounter) : PulseAction → PwmCounter
  | .tick => (counter.count pwm).compare pwm
  | .set val =>
      { counter with timers := pwmSet pwm val counter.timers }.compare pwm

end PwmCounter

def PulseAction.ticks : PulseAction → Nat
  | .tick => 1
  | .set _ => 0

/-- `age` is how long the pin has been high since it rose, and `late` whether the
last pwm_set since then has put the match behind the counter. -/
structure PulseWatch where
  counter : PwmCounter
  age : Option Nat
  late : Bool

namespace PulseWatch

def start (reset timers : PwmTimers) (dataOut : UInt32) : PulseWatch :=
  { counter := .start reset timers dataOut
    age := none
    late := false }

def nextAge (pwm : PwmDevice) (watch : PulseWatch) (action : PulseAction) :
    Option Nat :=
  if (watch.counter.step pwm action).regs.PinHigh pwm then
    if watch.counter.regs.PinHigh pwm then
      watch.age.map (· + action.ticks)
    else some 0
  else none

def nextLate (pwm : PwmDevice) (watch : PulseWatch) : PulseAction → Bool
  | .tick => !decide (watch.counter.Overflows pwm) && watch.late
  | .set val =>
      watch.age.isSome &&
        decide (matchValue val < (watch.counter.timers pwm).tcrr)

def step (pwm : PwmDevice) (watch : PulseWatch) (action : PulseAction) :
    PulseWatch :=
  { counter := watch.counter.step pwm action
    age := watch.nextAge pwm action
    late := watch.nextLate pwm action }

def Reloads (pwm : PwmDevice) (watch : PulseWatch) : PulseAction → Prop
  | .tick => watch.counter.Overflows pwm
  | .set _ => False

/-- A high phase ends before the timer starts a new period, and lasts as long as
it should. -/
def PulseOk (pwm : PwmDevice) (watch : PulseWatch) (action : PulseAction) :
    Prop :=
  ∀ age, watch.age = some age →
    ¬ watch.Reloads pwm action ∧
      (¬ (watch.counter.step pwm action).regs.PinHigh pwm →
        0x9600 ≤ age + action.ticks ∧ age + action.ticks ≤ 2 * 0x9600 + 1)

/-- No period ends after a match that was put behind the counter. -/
def InTime (pwm : PwmDevice) (watch : PulseWatch) (action : PulseAction) :
    Prop :=
  watch.Reloads pwm action → watch.late = false

end PulseWatch

theorem PwmRegs.handled_eq (pwm : PwmDevice) (event : TimerEvent)
    {regs : PwmRegs} (idle : regs.irqStatus = 0) :
    (regs.handled pwm event).irqStatus = 0 ∧
      ((regs.handled pwm event).PinHigh pwm ↔ event = .ovf) := by
  unfold handled
  rw [pwm.handler_eq, pwmHandler_run]
  constructor
  · rfl
  · rw [← event.flag_ovf]
    have driven := PwmRegs.driven_pinHigh pwm (regs.irqStatus ||| event.flag)
      { regs with irqStatus := regs.irqStatus ||| event.flag }
    rw [idle, UInt32.zero_or] at driven ⊢
    exact driven

/-! ### One step of the timer -/

namespace PwmCounter

variable {pwm : PwmDevice} {counter : PwmCounter}

private theorem not_overflows
    (less : (counter.timers pwm).tcrr.toNat < 0xFFFFFFFF) :
    ¬ counter.Overflows pwm := by
  intro overflows
  have last : (counter.timers pwm).tcrr.toNat = 0xFFFFFFFF :=
    congrArg UInt32.toNat overflows
  omega

private theorem compare_timers :
    (counter.compare pwm).timers = counter.timers := by
  unfold compare
  split
  · rfl
  · rfl

private theorem compare_regs (idle : counter.regs.irqStatus = 0) :
    (counter.compare pwm).regs.irqStatus = 0 ∧
      ((counter.compare pwm).regs.PinHigh pwm ↔
        counter.regs.PinHigh pwm ∧
          (counter.timers pwm).tcrr ≠ (counter.timers pwm).tmar) := by
  unfold compare
  by_cases equal : (counter.timers pwm).tcrr = (counter.timers pwm).tmar
  · obtain ⟨status, pin⟩ := PwmRegs.handled_eq pwm .mat idle
    rw [if_pos equal]
    refine ⟨status, pin.trans ?_⟩
    simp [equal]
  · rw [if_neg equal]
    refine ⟨idle, ?_⟩
    simp [equal]

private theorem count_overflow (overflows : counter.Overflows pwm)
    (idle : counter.regs.irqStatus = 0) :
    (counter.count pwm).timers pwm =
        { (counter.timers pwm) with tcrr := (counter.timers pwm).tldr } ∧
      (counter.count pwm).regs.irqStatus = 0 ∧
      (counter.count pwm).regs.PinHigh pwm := by
  obtain ⟨status, pin⟩ := PwmRegs.handled_eq pwm .ovf idle
  unfold count
  rw [if_pos overflows]
  exact ⟨Function.update_self _ _ _, status, pin.mpr rfl⟩

private theorem count_on (still : ¬ counter.Overflows pwm) :
    (counter.count pwm).timers pwm =
        { (counter.timers pwm) with tcrr := (counter.timers pwm).tcrr + 1 } ∧
      (counter.count pwm).regs = counter.regs := by
  unfold count
  rw [if_neg still]
  exact ⟨Function.update_self _ _ _, rfl⟩

private theorem count_on_toNat (still : ¬ counter.Overflows pwm) :
    ((counter.timers pwm).tcrr + 1).toNat =
      (counter.timers pwm).tcrr.toNat + 1 := by
  have bound := (counter.timers pwm).tcrr.toNat_lt
  have different : (counter.timers pwm).tcrr.toNat ≠ 0xFFFFFFFF := by
    intro same
    exact still (UInt32.toNat_inj.mp same)
  rw [UInt32.toNat_add]
  change ((counter.timers pwm).tcrr.toNat + 1) % 2 ^ 32 = _
  omega

private theorem set_timer (val : UInt16) :
    (counter.step pwm (.set val)).timers pwm =
      { (counter.timers pwm) with tmar := matchValue val } := by
  unfold step
  rw [compare_timers]
  exact Function.update_self _ _ _

private theorem set_regs (val : UInt16) (idle : counter.regs.irqStatus = 0) :
    (counter.step pwm (.set val)).regs.irqStatus = 0 ∧
      ((counter.step pwm (.set val)).regs.PinHigh pwm ↔
        counter.regs.PinHigh pwm ∧
          (counter.timers pwm).tcrr ≠ matchValue val) := by
  have compared := @compare_regs pwm
    { counter with timers := pwmSet pwm val counter.timers } idle
  unfold pwmSet at compared
  simp only [Function.update_self] at compared
  exact compared

private theorem tick_overflow (overflows : counter.Overflows pwm)
    (idle : counter.regs.irqStatus = 0) :
    (counter.step pwm .tick).timers pwm =
        { (counter.timers pwm) with tcrr := (counter.timers pwm).tldr } ∧
      (counter.step pwm .tick).regs.irqStatus = 0 ∧
      ((counter.step pwm .tick).regs.PinHigh pwm ↔
        (counter.timers pwm).tldr ≠ (counter.timers pwm).tmar) := by
  obtain ⟨timer, status, pin⟩ := count_overflow overflows idle
  have compared := @compare_regs pwm (counter.count pwm) status
  unfold step
  rw [compare_timers]
  refine ⟨timer, compared.1, compared.2.trans ?_⟩
  simp only [timer, pin, true_and]

private theorem tick_on (still : ¬ counter.Overflows pwm)
    (idle : counter.regs.irqStatus = 0) :
    (counter.step pwm .tick).timers pwm =
        { (counter.timers pwm) with tcrr := (counter.timers pwm).tcrr + 1 } ∧
      (counter.step pwm .tick).regs.irqStatus = 0 ∧
      ((counter.step pwm .tick).regs.PinHigh pwm ↔
        counter.regs.PinHigh pwm ∧
          (counter.timers pwm).tcrr + 1 ≠ (counter.timers pwm).tmar) := by
  obtain ⟨timer, regs⟩ := count_on still
  have compared := @compare_regs pwm (counter.count pwm) (regs ▸ idle)
  unfold step
  rw [compare_timers]
  refine ⟨timer, compared.1, compared.2.trans ?_⟩
  rw [timer, regs]

private theorem ticks_on (idle : counter.regs.irqStatus = 0) (count : Nat)
    (before : (counter.timers pwm).tcrr.toNat + count < 2 ^ 32) :
    let later := runSteps (step pwm) counter (List.replicate count .tick)
    (later.timers pwm).tcrr.toNat =
        (counter.timers pwm).tcrr.toNat + count ∧
      (later.timers pwm).tmar = (counter.timers pwm).tmar ∧
      later.regs.irqStatus = 0 := by
  induction count generalizing counter with
  | zero => exact ⟨rfl, rfl, idle⟩
  | succ count ih =>
      have still : ¬ counter.Overflows pwm := not_overflows (by omega)
      obtain ⟨timer, status, _⟩ := tick_on still idle
      have next : ((counter.step pwm .tick).timers pwm).tcrr.toNat =
          (counter.timers pwm).tcrr.toNat + 1 := by
        rw [timer]
        exact count_on_toNat still
      have same : ((counter.step pwm .tick).timers pwm).tmar =
          (counter.timers pwm).tmar := by
        rw [timer]
      obtain ⟨counted, tmar, last⟩ := ih status (by omega)
      refine ⟨counted.trans ?_, tmar.trans same, last⟩
      rw [next]
      omega

/-- From a reload, with the match left alone, the counter meets it before it
overflows, and the pin is low then. -/
theorem match_in_period {val : UInt16} (idle : counter.regs.irqStatus = 0)
    (reloaded : (counter.timers pwm).tcrr = 0xFFFE88FF)
    (matches_ : (counter.timers pwm).tmar = matchValue val) :
    ∃ count, count < 2 ^ 32 - 0xFFFE88FF ∧
      let met := runSteps (step pwm) counter (List.replicate count .tick)
      (met.timers pwm).tcrr = (met.timers pwm).tmar ∧
        (met.timers pwm).tmar = matchValue val ∧ ¬ met.regs.PinHigh pwm := by
  obtain ⟨least, most⟩ := matchValue_between val
  have begins : (counter.timers pwm).tcrr.toNat = 0xFFFE88FF :=
    congrArg UInt32.toNat reloaded
  obtain ⟨count, distance⟩ : ∃ count,
      (matchValue val).toNat = 0xFFFE88FF + (count + 1) :=
    ⟨(matchValue val).toNat - 0xFFFE88FF - 1, by omega⟩
  obtain ⟨counted, tmar, still⟩ := @ticks_on pwm counter idle count (by omega)
  have on : ¬ (runSteps (step pwm) counter
      (List.replicate count .tick)).Overflows pwm := not_overflows (by omega)
  obtain ⟨timer, _, pin⟩ := tick_on on still
  have meets : ((runSteps (step pwm) counter
      (List.replicate count .tick)).timers pwm).tcrr + 1 = matchValue val := by
    apply UInt32.toNat_inj.mp
    rw [count_on_toNat on, counted]
    omega
  have last : runSteps (step pwm) counter (List.replicate (count + 1) .tick) =
      (runSteps (step pwm) counter (List.replicate count .tick)).step pwm
        .tick := by
    rw [List.replicate_succ', runSteps_append]
    rfl
  refine ⟨count + 1, by omega, ?_⟩
  rw [last]
  refine ⟨?_, ?_, ?_⟩
  · rw [timer]
    exact meets.trans (tmar.trans matches_).symm
  · rw [timer]
    exact tmar.trans matches_
  · intro high
    exact (pin.mp high).2 (meets.trans (tmar.trans matches_).symm)

end PwmCounter

/-! ### What holds while no match is late -/

namespace PulseWatch

variable {pwm : PwmDevice} {watch : PulseWatch}

def timer (pwm : PwmDevice) (watch : PulseWatch) : PwmTimer :=
  watch.counter.timers pwm

/-- In a high phase of some age the counter is so far from the reload value, and
the match is still to come unless it is late. -/
structure HighPhase (pwm : PwmDevice) (watch : PulseWatch) (age : Nat) :
    Prop where
  high : watch.counter.regs.PinHigh pwm
  counted : (watch.timer pwm).tcrr.toNat = 0xFFFE88FF + age
  ahead : watch.late = false →
    (watch.timer pwm).tcrr.toNat < (watch.timer pwm).tmar.toNat
  behind : watch.late = true →
    (watch.timer pwm).tmar.toNat < (watch.timer pwm).tcrr.toNat

structure Kept (pwm : PwmDevice) (watch : PulseWatch) : Prop where
  idle : watch.counter.regs.irqStatus = 0
  reload : (watch.timer pwm).tldr = 0xFFFE88FF
  low : 0xFFFE88FF + 0x9600 ≤ (watch.timer pwm).tmar.toNat
  top : (watch.timer pwm).tmar.toNat ≤ 0xFFFE88FF + 2 * 0x9600
  phase : ∀ age, watch.age = some age → watch.HighPhase pwm age
  resting : watch.age = none → watch.late = false

theorem start_kept (pwm : PwmDevice) (reset timers : PwmTimers)
    (dataOut : UInt32) : (start reset timers dataOut).Kept pwm := by
  have between := matchValue_between 65535
  have timer_ := pwmInit_timer pwm reset timers
  have same : (start reset timers dataOut).timer pwm =
      pwmInit reset timers pwm := rfl
  constructor
  · rfl
  · rw [same, timer_]
  · rw [same, timer_]
    exact between.1
  · rw [same, timer_]
    exact between.2
  · intro age some_
    cases some_
  · intro _
    rfl

private theorem Kept.not_overflows (kept : watch.Kept pwm) {age : Nat}
    (high : watch.age = some age) (inTime : watch.late = false) :
    ¬ watch.counter.Overflows pwm := by
  have ahead := (kept.phase age high).ahead inTime
  have top := kept.top
  apply PwmCounter.not_overflows
  change (watch.timer pwm).tcrr.toNat < 0xFFFFFFFF
  omega

theorem Kept.overflow (kept : watch.Kept pwm)
    (inTime : watch.InTime pwm .tick)
    (overflows : watch.counter.Overflows pwm) :
    (watch.step pwm .tick).Kept pwm := by
  have punctual := inTime overflows
  have low := kept.low
  obtain ⟨timer_, status, pin⟩ := PwmCounter.tick_overflow overflows kept.idle
  have same : (watch.step pwm .tick).timer pwm =
      { (watch.timer pwm) with tcrr := (watch.timer pwm).tldr } := timer_
  have ahead : (watch.timer pwm).tldr.toNat < (watch.timer pwm).tmar.toNat := by
    rw [kept.reload]
    change 0xFFFE88FF < _
    omega
  have high : (watch.counter.step pwm .tick).regs.PinHigh pwm := by
    apply pin.mpr
    intro equal
    have equal_ := congrArg UInt32.toNat equal
    unfold timer at ahead
    omega
  have late : (watch.step pwm .tick).late = false := by
    change (!decide (watch.counter.Overflows pwm) && watch.late) = false
    rw [punctual, Bool.and_false]
  constructor
  · exact status
  · rw [same]
    exact kept.reload
  · rw [same]
    exact kept.low
  · rw [same]
    exact kept.top
  · intro age now
    have begins : age = 0 := by
      change watch.nextAge pwm .tick = some age at now
      unfold nextAge at now
      rw [if_pos high] at now
      cases before : watch.age with
      | none =>
          rw [before] at now
          split at now
          · cases now
          · exact (Option.some.inj now).symm
      | some old => exact absurd overflows (kept.not_overflows before punctual)
    refine ⟨high, ?_, ?_, ?_⟩
    · rw [same, begins]
      exact congrArg UInt32.toNat kept.reload
    · intro _
      rw [same]
      exact ahead
    · intro behind
      rw [late] at behind
      cases behind
  · intro _
    exact late

private theorem nextAge_cases {action : PulseAction} {stays : Prop}
    (pin : (watch.counter.step pwm action).regs.PinHigh pwm ↔
      watch.counter.regs.PinHigh pwm ∧ stays) :
    (∀ age, watch.nextAge pwm action = some age →
      (watch.counter.step pwm action).regs.PinHigh pwm ∧ stays ∧
        ∃ old, watch.age = some old ∧ age = old + action.ticks) ∧
    (watch.nextAge pwm action = none →
      ∀ old, watch.age = some old → watch.counter.regs.PinHigh pwm →
        ¬ stays) := by
  unfold nextAge
  by_cases high : (watch.counter.step pwm action).regs.PinHigh pwm
  · obtain ⟨before, still⟩ := pin.mp high
    rw [if_pos high, if_pos before]
    constructor
    · intro age now
      obtain ⟨old, same, sum⟩ := Option.map_eq_some_iff.mp now
      exact ⟨high, still, old, same, sum.symm⟩
    · intro none_ old some_
      rw [some_] at none_
      cases none_
  · rw [if_neg high]
    constructor
    · intro age now
      cases now
    · intro _ old _ before still
      exact high (pin.mpr ⟨before, still⟩)

private theorem late_on (still : ¬ watch.counter.Overflows pwm) :
    (watch.step pwm .tick).late = watch.late := by
  change (!decide (watch.counter.Overflows pwm) && watch.late) = watch.late
  rw [decide_eq_false still, Bool.not_false, Bool.true_and]

private theorem Kept.on (kept : watch.Kept pwm)
    (still : ¬ watch.counter.Overflows pwm) :
    (watch.step pwm .tick).Kept pwm := by
  obtain ⟨timer_, status, pin⟩ := PwmCounter.tick_on still kept.idle
  have counted := PwmCounter.count_on_toNat still
  have same : (watch.step pwm .tick).timer pwm =
      { (watch.timer pwm) with tcrr := (watch.timer pwm).tcrr + 1 } := timer_
  have late := late_on still
  obtain ⟨older, falls⟩ := nextAge_cases pin
  constructor
  · exact status
  · rw [same]
    exact kept.reload
  · rw [same]
    exact kept.low
  · rw [same]
    exact kept.top
  · intro age now
    obtain ⟨high, apart, old, before, sum⟩ := older age now
    obtain ⟨_, age_, ahead, behind⟩ := kept.phase old before
    have apart_ : (watch.timer pwm).tcrr.toNat + 1 ≠
        (watch.timer pwm).tmar.toNat := by
      intro equal
      exact apart (UInt32.toNat_inj.mp (counted.trans equal))
    have next : ((watch.step pwm .tick).timer pwm).tcrr.toNat =
        (watch.timer pwm).tcrr.toNat + 1 := by
      rw [same]
      exact counted
    have kept_ : ((watch.step pwm .tick).timer pwm).tmar =
        (watch.timer pwm).tmar := by
      rw [same]
    refine ⟨high, ?_, ?_, ?_⟩
    · rw [next, age_, sum]
      rfl
    · intro punctual
      have now_ := ahead (late.symm.trans punctual)
      rw [next, kept_]
      omega
    · intro tardy
      have now_ := behind (late.symm.trans tardy)
      rw [next, kept_]
      omega
  · intro now
    rw [late]
    cases before : watch.age with
    | none => exact kept.resting before
    | some old =>
        have phase := kept.phase old before
        have met := Decidable.not_not.mp (falls now old before phase.high)
        have equal : (watch.timer pwm).tcrr.toNat + 1 =
            (watch.timer pwm).tmar.toNat :=
          counted.symm.trans (congrArg UInt32.toNat met)
        cases tardy : watch.late with
        | false => rfl
        | true =>
            have now_ := phase.behind tardy
            omega

theorem Kept.set (kept : watch.Kept pwm) (val : UInt16) :
    (watch.step pwm (.set val)).Kept pwm := by
  have between := matchValue_between val
  obtain ⟨status, pin⟩ := @PwmCounter.set_regs pwm watch.counter val kept.idle
  have same : (watch.step pwm (.set val)).timer pwm =
      { (watch.timer pwm) with tmar := matchValue val } :=
    PwmCounter.set_timer val
  obtain ⟨older, falls⟩ := nextAge_cases pin
  constructor
  · exact status
  · rw [same]
    exact kept.reload
  · rw [same]
    exact between.1
  · rw [same]
    exact between.2
  · intro age now
    obtain ⟨high, apart, old, before, sum⟩ := older age now
    have late : (watch.step pwm (.set val)).late =
        decide (matchValue val < (watch.timer pwm).tcrr) := by
      change (watch.age.isSome && _) = _
      rw [before]
      exact Bool.true_and _
    have apart_ : (watch.timer pwm).tcrr.toNat ≠ (matchValue val).toNat := by
      intro equal
      exact apart (UInt32.toNat_inj.mp equal)
    refine ⟨high, ?_, ?_, ?_⟩
    · rw [same, sum]
      exact (kept.phase old before).counted
    · intro punctual
      have notLess := UInt32.not_lt.mp (of_decide_eq_false
        (late.symm.trans punctual))
      have least := UInt32.le_iff_toNat_le.mp notLess
      rw [same]
      change (watch.timer pwm).tcrr.toNat < (matchValue val).toNat
      omega
    · intro tardy
      rw [same]
      exact UInt32.lt_iff_toNat_lt.mp
        (of_decide_eq_true (late.symm.trans tardy))
  · intro now
    change (watch.age.isSome && _) = false
    cases before : watch.age with
    | none => rfl
    | some old =>
        have met := falls now old before (kept.phase old before).high
        rw [Bool.and_eq_false_iff]
        right
        apply decide_eq_false
        rw [Decidable.not_not.mp met]
        exact UInt32.lt_irrefl _

theorem Kept.step (kept : watch.Kept pwm) {action : PulseAction}
    (inTime : watch.InTime pwm action) : (watch.step pwm action).Kept pwm := by
  cases action with
  | tick =>
      by_cases overflows : watch.counter.Overflows pwm
      · exact kept.overflow inTime overflows
      · exact kept.on overflows
  | set val => exact kept.set val

theorem Kept.length (kept : watch.Kept pwm) {action : PulseAction} {age : Nat}
    (high : watch.age = some age) (still : ¬ watch.Reloads pwm action)
    (falls : ¬ (watch.counter.step pwm action).regs.PinHigh pwm) :
    0x9600 ≤ age + action.ticks ∧ age + action.ticks ≤ 2 * 0x9600 := by
  have phase := kept.phase age high
  have counted := phase.counted
  cases action with
  | tick =>
      obtain ⟨_, _, pin⟩ := PwmCounter.tick_on still kept.idle
      have met : (watch.timer pwm).tcrr + 1 = (watch.timer pwm).tmar := by
        refine Decidable.not_not.mp ?_
        intro apart
        exact falls (pin.mpr ⟨phase.high, apart⟩)
      have low := kept.low
      have top := kept.top
      have next : ((watch.timer pwm).tcrr + 1).toNat =
          (watch.timer pwm).tcrr.toNat + 1 :=
        PwmCounter.count_on_toNat still
      rw [met] at next
      change 0x9600 ≤ age + 1 ∧ age + 1 ≤ 2 * 0x9600
      omega
  | set val =>
      obtain ⟨_, pin⟩ := @PwmCounter.set_regs pwm watch.counter val kept.idle
      have met : (watch.timer pwm).tcrr = matchValue val := by
        refine Decidable.not_not.mp ?_
        intro apart
        exact falls (pin.mpr ⟨phase.high, apart⟩)
      have between := matchValue_between val
      rw [met] at counted
      change 0x9600 ≤ age + 0 ∧ age + 0 ≤ 2 * 0x9600
      omega

private theorem Kept.pulseOk_iff (kept : watch.Kept pwm)
    (action : PulseAction) :
    watch.InTime pwm action ↔ watch.PulseOk pwm action := by
  constructor
  · intro inTime age high
    have still : ¬ watch.Reloads pwm action := by
      intro reloads
      cases action with
      | tick => exact kept.not_overflows high (inTime reloads) reloads
      | set val => exact reloads
    refine ⟨still, ?_⟩
    intro falls
    obtain ⟨least, most⟩ := kept.length high still falls
    omega
  · intro ok reloads
    cases before : watch.age with
    | none => exact kept.resting before
    | some age => exact absurd reloads (ok age before).1

/-! ### A late match -/

theorem Kept.older (kept : watch.Kept pwm) {age : Nat}
    (high : watch.age = some age) (still : age < 96000)
    (apart : watch.late = true ∨
      0xFFFE88FF + age + 1 < (watch.timer pwm).tmar.toNat) :
    (watch.step pwm .tick).Kept pwm ∧
      (watch.step pwm .tick).age = some (age + 1) ∧
      (watch.step pwm .tick).late = watch.late ∧
      ((watch.step pwm .tick).timer pwm).tmar = (watch.timer pwm).tmar := by
  have phase := kept.phase age high
  have counted := phase.counted
  have on : ¬ watch.counter.Overflows pwm := by
    apply PwmCounter.not_overflows
    change (watch.timer pwm).tcrr.toNat < 0xFFFFFFFF
    omega
  obtain ⟨timer_, _, pin⟩ := PwmCounter.tick_on on kept.idle
  have next : ((watch.timer pwm).tcrr + 1).toNat =
      (watch.timer pwm).tcrr.toNat + 1 :=
    PwmCounter.count_on_toNat on
  have stays : (watch.timer pwm).tcrr + 1 ≠ (watch.timer pwm).tmar := by
    intro met
    rw [met] at next
    rcases apart with late | ahead
    · have behind := phase.behind late
      omega
    · omega
  refine ⟨kept.on on, ?_, late_on on, ?_⟩
  · change watch.nextAge pwm .tick = _
    unfold nextAge
    rw [if_pos (pin.mpr ⟨phase.high, stays⟩), if_pos phase.high, high]
    rfl
  · change ((watch.counter.step pwm .tick).timers pwm).tmar = _
    rw [timer_]
    rfl

theorem Kept.ticks (kept : watch.Kept pwm) {age : Nat} (count : Nat)
    (high : watch.age = some age) (still : age + count ≤ 96000)
    (apart : watch.late = true ∨
      0xFFFE88FF + age + count < (watch.timer pwm).tmar.toNat) :
    let later := runSteps (PulseWatch.step pwm) watch
      (List.replicate count .tick)
    later.Kept pwm ∧ later.age = some (age + count) ∧
      later.late = watch.late := by
  induction count generalizing watch age with
  | zero => exact ⟨kept, high, rfl⟩
  | succ count ih =>
      have before : watch.late = true ∨
          0xFFFE88FF + age + 1 < (watch.timer pwm).tmar.toNat := by
        rcases apart with late | ahead
        · exact .inl late
        · exact .inr (by omega)
      obtain ⟨next, older, late, tmar⟩ := kept.older high (by omega) before
      have after : (watch.step pwm .tick).late = true ∨
          0xFFFE88FF + (age + 1) + count <
            ((watch.step pwm .tick).timer pwm).tmar.toNat := by
        rw [late, tmar]
        rcases apart with late | ahead
        · exact .inl late
        · exact .inr (by omega)
      obtain ⟨last, oldest, same⟩ := ih next older (by omega) after
      refine ⟨last, oldest.trans ?_, same.trans late⟩
      rw [Nat.add_right_comm, Nat.add_assoc]

private theorem start_rises (pwm : PwmDevice) (reset timers : PwmTimers) :
    ((start reset timers 0).step pwm .tick).Kept pwm ∧
      ((start reset timers 0).step pwm .tick).age = some 0 ∧
      (((start reset timers 0).step pwm .tick).timer pwm).tmar =
        matchValue 65535 := by
  have timer_ := pwmInit_timer pwm reset timers
  have overflows : (start reset timers 0).counter.Overflows pwm :=
    congrArg PwmTimer.tcrr timer_
  have kept := start_kept pwm reset timers 0
  obtain ⟨after, _, pin⟩ := PwmCounter.tick_overflow overflows kept.idle
  have apart : (pwmInit reset timers pwm).tldr ≠
      (pwmInit reset timers pwm).tmar := by
    rw [timer_]
    decide
  have low : ¬ (start reset timers 0).counter.regs.PinHigh pwm := by
    intro high
    exact high UInt32.zero_and
  refine ⟨kept.step (fun _ => rfl), ?_, ?_⟩
  · change nextAge pwm (start reset timers 0) .tick = _
    unfold nextAge
    rw [if_pos (pin.mpr apart), if_neg low]
  · change (((start reset timers 0).counter.step pwm .tick).timers pwm).tmar = _
    rw [after]
    exact congrArg PwmTimer.tmar timer_

theorem Kept.behind (kept : watch.Kept pwm) {age : Nat} {val : UInt16}
    (high : watch.age = some age)
    (passed : (matchValue val).toNat < 0xFFFE88FF + age) :
    (watch.step pwm (.set val)).age = some age ∧
      (watch.step pwm (.set val)).late = true := by
  have phase := kept.phase age high
  have counted := phase.counted
  obtain ⟨_, pin⟩ := @PwmCounter.set_regs pwm watch.counter val kept.idle
  have less : matchValue val < (watch.timer pwm).tcrr := by
    apply UInt32.lt_iff_toNat_lt.mpr
    omega
  constructor
  · change watch.nextAge pwm (.set val) = _
    unfold nextAge
    rw [if_pos (pin.mpr ⟨phase.high, (UInt32.ne_of_lt less).symm⟩),
      if_pos phase.high, high]
    rfl
  · change (watch.age.isSome && decide (matchValue val < _)) = true
    rw [high, Option.isSome_some, Bool.true_and]
    exact decide_eq_true less

private theorem Kept.lengthened (kept : watch.Kept pwm) {age : Nat}
    (high : watch.age = some age) (still : age ≤ 96000)
    (late : watch.late = true) :
    ¬ EveryStep (PulseWatch.step pwm) (PulseWatch.PulseOk pwm) watch
      (List.replicate (96000 - age) .tick ++ [.tick]) := by
  intro ok
  obtain ⟨last, oldest, _⟩ := kept.ticks (96000 - age) high (by omega)
    (.inl late)
  have final := (EveryStep.append.mp ok).2.1 _ oldest
  have counted := (last.phase _ oldest).counted
  have overflows := UInt32.toNat_inj.mp (counted.trans
    (show 0xFFFE88FF + (age + (96000 - age)) = (0xFFFFFFFF : UInt32).toNat by
      change _ = 0xFFFFFFFF
      omega))
  exact final.1 overflows

end PulseWatch

/-! ### Runs -/

/-- The pulses of a run are as long as they should be if and only if no period
ends after a match that was put behind the counter. -/
theorem pulses_between_iff (pwm : PwmDevice) (reset timers : PwmTimers)
    (dataOut : UInt32) (actions : List PulseAction) :
    EveryStep (PulseWatch.step pwm) (PulseWatch.PulseOk pwm)
        (.start reset timers dataOut) actions ↔
      EveryStep (PulseWatch.step pwm) (PulseWatch.InTime pwm)
        (.start reset timers dataOut) actions := by
  refine (EveryStep.congr (PulseWatch.Kept pwm) ?_ ?_ actions
    (PulseWatch.start_kept pwm reset timers dataOut)).symm
  · intro watch action kept
    exact kept.pulseOk_iff action
  · intro watch action kept inTime
    exact kept.step inTime

/-- The throttle is cut 40000 ticks after the pin rose. -/
theorem late_match_lengthens_pulse :
    ¬ ∀ (reset timers : PwmTimers) (actions : List PulseAction),
      EveryStep (PulseWatch.step .pwm1) (PulseWatch.PulseOk .pwm1)
        (.start reset timers 0) actions := by
  intro ok
  let zero : PwmTimers := fun _ => ⟨0, 0, 0, 0, 0⟩
  obtain ⟨rises, high, tmar⟩ := PulseWatch.start_rises .pwm1 zero zero
  obtain ⟨kept, older, _⟩ := rises.ticks 40000 high (by decide)
    (.inr (by rw [tmar]; decide))
  obtain ⟨still, late⟩ := @PulseWatch.Kept.behind _ _ kept _ 0 older (by decide)
  have run := ok zero zero (.tick :: (List.replicate 40000 .tick ++
    .set 0 :: (List.replicate (96000 - (0 + 40000)) .tick ++ [.tick])))
  have rest := (EveryStep.append.mp run.2).2.2
  exact (kept.set 0).lengthened still (by decide) late rest

end Quadcopter

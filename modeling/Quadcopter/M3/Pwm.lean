import Quadcopter.Library.MachineInt

/-
The four motor timers (panda/m3/pwm.c), by the values last written to their
registers.
-/

namespace Quadcopter

inductive PwmDevice where
  | pwm1
  | pwm2
  | pwm3
  | pwm4
deriving DecidableEq, Repr

structure PwmTimer where
  irqEnableSet : UInt32
  tldr : UInt32
  tcrr : UInt32
  tmar : UInt32
  tclr : UInt32
deriving DecidableEq, Repr

abbrev PwmTimers : Type := PwmDevice → PwmTimer

def matchValue (val : UInt16) : UInt32 :=
  let scaled := val.toUInt32
  let scaled := scaled * 0x9600
  let scaled := scaled / 65535
  0xFFFE88FF + 0x9600 + scaled

def pwmSet (pwm : PwmDevice) (val : UInt16) (timers : PwmTimers) : PwmTimers :=
  Function.update timers pwm { timers pwm with tmar := matchValue val }

def ovfItEna : UInt32 := (1 : UInt32) <<< 1

def matItEna : UInt32 := (1 : UInt32) <<< 0

/-- After the reset of the timer, whose registers then hold `reset`. -/
def initTimer (pwm : PwmDevice) (reset : PwmTimer) (timers : PwmTimers) :
    PwmTimers :=
  let timers := Function.update timers pwm
    { reset with
      irqEnableSet := ovfItEna ||| matItEna
      tldr := 0xFFFE88FF
      tcrr := 0xFFFFFFFF }
  let timers := pwmSet pwm 65535 timers
  Function.update timers pwm { timers pwm with tclr := 0x00000043 }

def pwmInit (reset : PwmTimers) (timers : PwmTimers) : PwmTimers :=
  initTimer .pwm4 (reset .pwm4)
    (initTimer .pwm3 (reset .pwm3)
      (initTimer .pwm2 (reset .pwm2)
        (initTimer .pwm1 (reset .pwm1) timers)))

@[simp] theorem pwmSet_tmar (pwm other : PwmDevice) (val : UInt16)
    (timers : PwmTimers) :
    (pwmSet pwm val timers other).tmar =
      if other = pwm then matchValue val else (timers other).tmar := by
  unfold pwmSet
  by_cases same : other = pwm
  · rw [if_pos same, same, Function.update_self]
  · rw [if_neg same, Function.update_of_ne same]

private theorem initTimer_self (pwm : PwmDevice) (reset : PwmTimer)
    (timers : PwmTimers) :
    initTimer pwm reset timers pwm =
      { irqEnableSet := ovfItEna ||| matItEna
        tldr := 0xFFFE88FF
        tcrr := 0xFFFFFFFF
        tmar := matchValue 65535
        tclr := 0x00000043 } := by
  simp only [initTimer, pwmSet, Function.update_self]

private theorem initTimer_of_ne {pwm other : PwmDevice} (reset : PwmTimer)
    (timers : PwmTimers) (different : other ≠ pwm) :
    initTimer pwm reset timers other = timers other := by
  simp only [initTimer, pwmSet, Function.update_of_ne different]

theorem pwmInit_timer (pwm : PwmDevice) (reset timers : PwmTimers) :
    pwmInit reset timers pwm =
      { irqEnableSet := ovfItEna ||| matItEna
        tldr := 0xFFFE88FF
        tcrr := 0xFFFFFFFF
        tmar := matchValue 65535
        tclr := 0x00000043 } := by
  unfold pwmInit
  cases pwm with
  | pwm1 =>
      rw [initTimer_of_ne _ _ (by decide), initTimer_of_ne _ _ (by decide),
        initTimer_of_ne _ _ (by decide), initTimer_self]
  | pwm2 =>
      rw [initTimer_of_ne _ _ (by decide), initTimer_of_ne _ _ (by decide),
        initTimer_self]
  | pwm3 => rw [initTimer_of_ne _ _ (by decide), initTimer_self]
  | pwm4 => rw [initTimer_self]

/-- No product and no sum of pwm_set wraps. -/
theorem matchValue_toNat (val : UInt16) :
    val.toNat * 0x9600 < 2 ^ 32 ∧
      (matchValue val).toNat =
        0xFFFE88FF + 0x9600 + val.toNat * 0x9600 / 65535 := by
  have bound : val.toNat < 2 ^ 16 := val.toNat_lt
  have product : (val.toUInt32 * 0x9600).toNat = val.toNat * 0x9600 := by
    rw [UInt32.toNat_mul, UInt16.toNat_toUInt32]
    change val.toNat * 0x9600 % 2 ^ 32 = _
    omega
  have quotient : (val.toUInt32 * 0x9600 / 65535).toNat =
      val.toNat * 0x9600 / 65535 := by
    rw [UInt32.toNat_div, product]
    rfl
  constructor
  · omega
  · unfold matchValue
    dsimp only
    rw [UInt32.toNat_add, quotient]
    change (0xFFFE88FF + 0x9600 + val.toNat * 0x9600 / 65535) % 2 ^ 32 = _
    omega

theorem matchValue_mono {val other : UInt16} (order : val ≤ other) :
    matchValue val ≤ matchValue other := by
  have less := UInt16.le_iff_toNat_le.mp order
  apply UInt32.le_iff_toNat_le.mpr
  rw [(matchValue_toNat val).2, (matchValue_toNat other).2]
  have scaled : val.toNat * 0x9600 / 65535 ≤ other.toNat * 0x9600 / 65535 :=
    Nat.div_le_div_right (Nat.mul_le_mul_right _ less)
  omega

/-- The match comes one to two times 0x9600 ticks after the reload. -/
theorem matchValue_between (val : UInt16) :
    0xFFFE88FF + 0x9600 ≤ (matchValue val).toNat ∧
      (matchValue val).toNat ≤ 0xFFFE88FF + 2 * 0x9600 := by
  have bound : val.toNat < 2 ^ 16 := val.toNat_lt
  rw [(matchValue_toNat val).2]
  omega

end Quadcopter

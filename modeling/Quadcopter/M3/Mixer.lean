import Quadcopter.M3.Control

/-
The motor mixer of control_update, and the bounds check behind it.

The sums are taken in 32-bit ints before the check, and the controllers' outputs
are not capped.  What the motors are driven with is compared here with what the
exact sums call for.
-/

namespace Quadcopter

/-- What a motor is driven with when it should turn with `exact`. -/
def safeThrottle (exact : Int) : UInt16 :=
  if exact < 5000 then 0
  else if 40000 < exact then 40000
  else UInt16.ofNat exact.toNat

theorem safeThrottle_toNat (exact : Int) :
    (safeThrottle exact).toNat =
      if exact < 5000 then 0
      else if 40000 < exact then 40000
      else exact.toNat := by
  unfold safeThrottle
  split
  · rfl
  · split
    · rfl
    · rw [UInt16.toNat_ofNat']
      omega

private theorem safeThrottle_mono {exact other : Int} (order : exact ≤ other) :
    safeThrottle exact ≤ safeThrottle other := by
  apply UInt16.le_iff_toNat_le.mpr
  rw [safeThrottle_toNat, safeThrottle_toNat]
  split
  · exact Nat.zero_le _
  · split
    · rw [if_neg (by omega), if_pos (by omega)]
    · rw [if_neg (by omega)]
      split <;> omega

private theorem narrowed_eq {val : Int32} (low : 0 ≤ val.toInt) :
    val.toUInt32.toUInt16 = UInt16.ofNat val.toInt.toNat := by
  apply UInt16.toNat_inj.mp
  rw [UInt32.toNat_toUInt16, MachineInt.toNat_toUInt32 val low,
    UInt16.toNat_ofNat']

theorem setMotorSafe_drives (pwm : PwmDevice) (val : Int32)
    (timers : PwmTimers) :
    (setMotorSafe pwm val timers).2 =
      pwmSet pwm (safeThrottle val.toInt) timers := by
  unfold setMotorSafe safeThrottle
  by_cases low : val < throttleMin
  · have less := Int32.lt_iff_toInt_lt.mp low
    change val.toInt < 5000 at less
    rw [if_pos low, if_pos less]
  · have atLeast := Int32.le_iff_toInt_le.mp (Int32.not_lt.mp low)
    change 5000 ≤ val.toInt at atLeast
    rw [if_neg low, if_neg (show ¬ val.toInt < 5000 by omega)]
    by_cases high : throttleMax < val
    · have more := Int32.lt_iff_toInt_lt.mp high
      change 40000 < val.toInt at more
      rw [if_pos high, if_pos more]
      rfl
    · have atMost := Int32.le_iff_toInt_le.mp (Int32.not_lt.mp high)
      change val.toInt ≤ 40000 at atMost
      rw [if_neg high, if_neg (by omega),
        narrowed_eq (by omega)]

def Motors.at (motors : Motors) : PwmDevice → Int32
  | .pwm1 => motors.motor1
  | .pwm2 => motors.motor2
  | .pwm3 => motors.motor3
  | .pwm4 => motors.motor4

private theorem driveMotors_tmar (motors : Motors) (timers : PwmTimers)
    (pwm : PwmDevice) :
    (driveMotors motors timers pwm).tmar =
      matchValue (safeThrottle (motors.at pwm).toInt) := by
  unfold driveMotors
  simp only [setMotorSafe_drives, pwmSet_tmar]
  cases pwm with
  | pwm1 => rfl
  | pwm2 => rfl
  | pwm3 => rfl
  | pwm4 => rfl

def exactMotor (throttle pitchOut rollOut : Int) : PwmDevice → Int
  | .pwm1 => throttle + rollOut
  | .pwm2 => throttle - pitchOut
  | .pwm3 => throttle - rollOut
  | .pwm4 => throttle + pitchOut

def mixed (throttle : UInt16) (pitchOut rollOut : Int32) : Motors :=
  mixMotors throttle.toUInt32.toInt32 pitchOut rollOut 0

private theorem throttle_toInt (throttle : UInt16) :
    throttle.toUInt32.toInt32.toInt = throttle.toNat := by
  have bound : throttle.toNat < 2 ^ 16 := throttle.toNat_lt
  rw [MachineInt.toInt_toInt32 _ (by rw [UInt16.toNat_toUInt32]; omega),
    UInt16.toNat_toUInt32]

/-- The sums are exact up to a multiple of 2^32. -/
theorem mixed_toInt (throttle : UInt16) (pitchOut rollOut : Int32)
    (pwm : PwmDevice) :
    ((mixed throttle pitchOut rollOut).at pwm).toInt =
      (exactMotor throttle.toNat pitchOut.toInt rollOut.toInt pwm).bmod
        (2 ^ 32) := by
  rw [← throttle_toInt]
  unfold mixed mixMotors
  cases pwm with
  | pwm1 => simp only [Motors.at, exactMotor, Int32.add_zero, Int32.toInt_add]
  | pwm2 => simp only [Motors.at, exactMotor, Int32.sub_zero, Int32.toInt_sub]
  | pwm3 => simp only [Motors.at, exactMotor, Int32.add_zero, Int32.toInt_sub]
  | pwm4 => simp only [Motors.at, exactMotor, Int32.sub_zero, Int32.toInt_add]

/-- Each sum is exact, each motor is driven with 0, the exact value or
THROTTLE_MAX, and no smaller correction in the same direction drives a motor
higher. -/
structure MixesExactly (throttle : UInt16) (pitchOut rollOut : Int32) :
    Prop where
  sums : ∀ pwm, ((mixed throttle pitchOut rollOut).at pwm).toInt =
    exactMotor throttle.toNat pitchOut.toInt rollOut.toInt pwm
  drives : ∀ timers pwm,
    (driveMotors (mixed throttle pitchOut rollOut) timers pwm).tmar =
      matchValue (safeThrottle
        (exactMotor throttle.toNat pitchOut.toInt rollOut.toInt pwm))
  raises : ∀ timers pwm smallerPitch smallerRoll,
    0 ≤ exactMotor 0 smallerPitch.toInt smallerRoll.toInt pwm →
    exactMotor 0 smallerPitch.toInt smallerRoll.toInt pwm ≤
      exactMotor 0 pitchOut.toInt rollOut.toInt pwm →
    (driveMotors (mixed throttle smallerPitch smallerRoll) timers pwm).tmar ≤
      (driveMotors (mixed throttle pitchOut rollOut) timers pwm).tmar

private theorem exactMotor_throttle (throttle pitchOut rollOut : Int)
    (pwm : PwmDevice) :
    exactMotor throttle pitchOut rollOut pwm =
      throttle + exactMotor 0 pitchOut rollOut pwm := by
  cases pwm with
  | pwm1 => simp [exactMotor]
  | pwm2 => simp [exactMotor, Int.sub_eq_add_neg]
  | pwm3 => simp [exactMotor, Int.sub_eq_add_neg]
  | pwm4 => simp [exactMotor]

private theorem bmod_exact_iff (value : Int) :
    value.bmod (2 ^ 32) = value ↔ -2 ^ 31 ≤ value ∧ value < 2 ^ 31 := by
  unfold Int.bmod
  dsimp only
  constructor
  · intro same
    split at same <;> omega
  · intro range
    split <;> omega

/-- The sums can only exceed the ints at the upper end. -/
theorem exactMotor_bounds (throttle : UInt16) (pitchOut rollOut : Int32)
    (pwm : PwmDevice) :
    -2 ^ 31 ≤ exactMotor throttle.toNat pitchOut.toInt rollOut.toInt pwm := by
  have pitchLow := pitchOut.le_toInt
  have pitchHigh := pitchOut.toInt_lt
  have rollLow := rollOut.le_toInt
  have rollHigh := rollOut.toInt_lt
  cases pwm with
  | pwm1 => simp only [exactMotor]; omega
  | pwm2 => simp only [exactMotor]; omega
  | pwm3 => simp only [exactMotor]; omega
  | pwm4 => simp only [exactMotor]; omega

private theorem exactMotor_fits_iff (throttle : UInt16)
    (pitchOut rollOut : Int32) :
    (∀ pwm, exactMotor throttle.toNat pitchOut.toInt rollOut.toInt pwm < 2 ^ 31) ↔
      throttle.toNat + pitchOut.toInt.natAbs < 2 ^ 31 ∧
        throttle.toNat + rollOut.toInt.natAbs < 2 ^ 31 := by
  constructor
  · intro fits
    have first := fits .pwm1
    have second := fits .pwm2
    have third := fits .pwm3
    have fourth := fits .pwm4
    simp only [exactMotor] at first second third fourth
    omega
  · intro small pwm
    cases pwm with
    | pwm1 => simp only [exactMotor]; omega
    | pwm2 => simp only [exactMotor]; omega
    | pwm3 => simp only [exactMotor]; omega
    | pwm4 => simp only [exactMotor]; omega

private theorem mixed_exact {throttle : UInt16} {pitchOut rollOut : Int32}
    {pwm : PwmDevice}
    (fits : exactMotor throttle.toNat pitchOut.toInt rollOut.toInt pwm <
      2 ^ 31) :
    ((mixed throttle pitchOut rollOut).at pwm).toInt =
      exactMotor throttle.toNat pitchOut.toInt rollOut.toInt pwm := by
  rw [mixed_toInt]
  exact (bmod_exact_iff _).mpr
    ⟨exactMotor_bounds throttle pitchOut rollOut pwm, fits⟩

/-- The mixer is exact as long as the throttle and the size of each correction
add up to an int. -/
theorem mixer_exact_iff (throttle : UInt16) (pitchOut rollOut : Int32) :
    MixesExactly throttle pitchOut rollOut ↔
      throttle.toNat + pitchOut.toInt.natAbs < 2 ^ 31 ∧
        throttle.toNat + rollOut.toInt.natAbs < 2 ^ 31 := by
  rw [← exactMotor_fits_iff]
  constructor
  · intro exactly pwm
    have sum := exactly.sums pwm
    rw [mixed_toInt] at sum
    exact ((bmod_exact_iff _).mp sum).2
  · intro fits
    refine ⟨fun pwm => mixed_exact (fits pwm), ?_, ?_⟩
    · intro timers pwm
      rw [driveMotors_tmar, mixed_exact (fits pwm)]
    · intro timers pwm smallerPitch smallerRoll upward smaller
      have bound := fits pwm
      have smallerFits : exactMotor throttle.toNat smallerPitch.toInt
          smallerRoll.toInt pwm < 2 ^ 31 := by
        rw [exactMotor_throttle] at bound ⊢
        omega
      rw [driveMotors_tmar, driveMotors_tmar, mixed_exact bound,
        mixed_exact smallerFits]
      apply matchValue_mono
      apply safeThrottle_mono
      rw [exactMotor_throttle throttle.toNat pitchOut.toInt,
        exactMotor_throttle throttle.toNat smallerPitch.toInt]
      omega

/-- The largest correction of the second motor turns it off. -/
theorem mixer_wraps :
    ¬ MixesExactly 0 (-2147483648) 0 ∧
      ∀ timers, (driveMotors (mixed 0 (-2147483648) 0) timers .pwm2).tmar =
        matchValue 0 := by
  constructor
  · intro exactly
    exact absurd (exactly.sums .pwm2) (by decide)
  · intro timers
    rw [driveMotors_tmar]
    rfl

end Quadcopter

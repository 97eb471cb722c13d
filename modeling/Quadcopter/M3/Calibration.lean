import Quadcopter.M3.AttitudeNorms

/-
The calibration of the sensors over exact arithmetic.

For fifty ticks sensors_calibrate adds up what x, y and z hold after each
reading; the last of these calls divides the sums.  sensors_get_data subtracts
the same variable on every tick, be it a sum or a mean.
-/

namespace Quadcopter

noncomputable def readingSum (read : Nat → Option Axes) (n : Nat) : Vector3 ℝ :=
  { x := ∑ i ∈ Finset.range n, (read i).elim 0 (fun axes => (axes.x.toInt : ℝ))
    y := ∑ i ∈ Finset.range n, (read i).elim 0 (fun axes => (axes.y.toInt : ℝ))
    z := ∑ i ∈ Finset.range n, (read i).elim 0 (fun axes => (axes.z.toInt : ℝ)) }

def readingCount (read : Nat → Option Axes) (n : Nat) : Nat :=
  ((Finset.range n).filter (fun i => (read i).isSome)).card

/-- The mean of the first `n` readings, those that failed left out. -/
noncomputable def readingMean (read : Nat → Option Axes) (n : Nat) :
    Vector3 ℝ :=
  vector3Div (readingSum read n) (readingCount read n : ℝ)

private theorem readingSum_succ (read : Nat → Option Axes) (n : Nat) :
    readingSum read (n + 1) =
      { x := (readingSum read n).x +
          (read n).elim 0 (fun axes => (axes.x.toInt : ℝ))
        y := (readingSum read n).y +
          (read n).elim 0 (fun axes => (axes.y.toInt : ℝ))
        z := (readingSum read n).z +
          (read n).elim 0 (fun axes => (axes.z.toInt : ℝ)) } := by
  simp only [readingSum, Finset.sum_range_succ]

private theorem readingCount_all (reading : Nat → Axes) (n : Nat) :
    readingCount (fun i => some (reading i)) n = n := by
  simp [readingCount]

private theorem readingSum_congr {read other : Nat → Option Axes} {n : Nat}
    (same : ∀ i, i < n → read i = other i) :
    readingSum read n = readingSum other n := by
  have each : ∀ value : Axes → ℝ,
      ∑ i ∈ Finset.range n, (read i).elim 0 value =
        ∑ i ∈ Finset.range n, (other i).elim 0 value := by
    intro value
    apply Finset.sum_congr rfl
    intro i member
    rw [same i (Finset.mem_range.mp member)]
  simp only [readingSum, each]

private theorem readingMean_congr {read other : Nat → Option Axes} {n : Nat}
    (same : ∀ i, i < n → read i = other i) :
    readingMean read n = readingMean other n := by
  have counts : readingCount read n = readingCount other n := by
    unfold readingCount
    congr 1
    apply Finset.filter_congr
    intro i member
    rw [same i (Finset.mem_range.mp member)]
  unfold readingMean
  rw [readingSum_congr same, counts]

/-! ### The calls of sensors_calibrate -/

structure CalibrateCall where
  stack : Axes
  gyro : Option Buffer
  accel : Option Buffer

/-- What x, y and z hold when they are added to the gyro's offset. -/
def CalibrateCall.gyroAxes (call : CalibrateCall) : Axes :=
  (getGyroData call.gyro).getD call.stack

def CalibrateCall.accelAxes (call : CalibrateCall) : Axes :=
  (getAccelData call.accel).getD call.gyroAxes

section

variable {R : Type} [CMath R]

/-- How control_update calls it: no more once it has returned 0. -/
def CalibrateCall.step (call : CalibrateCall) (state : Bool × SensorsState R) :
    Bool × SensorsState R :=
  if state.1 then sensorsCalibrate call.stack call.gyro call.accel state.2
  else state

/-- `calibrating` and the statics of sensors.c before call `n`. -/
def calibrateRun (calls : Nat → CalibrateCall) : Nat → Bool × SensorsState R
  | 0 => (true, .start)
  | n + 1 => (calls n).step (calibrateRun calls n)

end

noncomputable def collected (calls : Nat → CalibrateCall) (n : Nat) :
    SensorsState ℝ :=
  { gyroOffset := readingSum (fun i => some (calls i).gyroAxes) n
    accelOffset :=
      { readingSum (fun i => some (calls i).accelAxes) n with z := 0 }
    calibrate := Int32.ofNat n }

noncomputable def averaged (calls : Nat → CalibrateCall) : SensorsState ℝ :=
  { gyroOffset := readingMean (fun i => some (calls i).gyroAxes) 50
    accelOffset :=
      { readingMean (fun i => some (calls i).accelAxes) 50 with z := 0 }
    calibrate := 50 }

private theorem calibrate_toInt {n : Nat} (few : n ≤ 50) :
    (Int32.ofNat n).toInt = n :=
  Int32.toInt_ofNat_of_lt (by omega)

private theorem calibrate_succ (n : Nat) :
    Int32.ofNat n + 1 = Int32.ofNat (n + 1) :=
  (Int32.ofNat_add n 1).symm

private theorem collected_zero (calls : Nat → CalibrateCall) :
    @SensorsState.start ℝ realMath = collected calls 0 := by
  unfold SensorsState.start collected readingSum
  simp

private theorem collected_cleared (calls : Nat → CalibrateCall) {n : Nat}
    (few : n ≤ 50) :
    (if (collected calls n).calibrate = 0 then
        { collected calls n with
          gyroOffset := (@SensorsState.start ℝ realMath).gyroOffset
          accelOffset := (@SensorsState.start ℝ realMath).accelOffset }
      else collected calls n) = collected calls n := by
  by_cases first : (collected calls n).calibrate = 0
  · have zero : n = 0 := by
      have value := congrArg Int32.toInt first
      change (Int32.ofNat n).toInt = 0 at value
      rw [calibrate_toInt few] at value
      omega
    subst n
    rw [if_pos first, collected_zero calls]
  · rw [if_neg first]

private theorem collected_step (calls : Nat → CalibrateCall) {n : Nat}
    (more : n < 50) :
    @CalibrateCall.step ℝ realMath (calls n) (true, collected calls n) =
      if n = 49 then (false, averaged calls)
      else (true, collected calls (n + 1)) := by
  have going : ¬ sensorsCalibrateSamples ≤ (collected calls n).calibrate := by
    intro done
    have bound := Int32.le_iff_toInt_le.mp done
    change 50 ≤ (Int32.ofNat n).toInt at bound
    rw [calibrate_toInt (by omega)] at bound
    omega
  have next : (collected calls n).calibrate + 1 = Int32.ofNat (n + 1) :=
    calibrate_succ n
  unfold CalibrateCall.step
  rw [if_pos rfl]
  unfold sensorsCalibrate
  rw [if_neg going, collected_cleared calls (by omega)]
  dsimp only
  rw [next]
  by_cases last : n = 49
  · subst n
    rw [if_pos (by decide), if_pos rfl]
    have samples : ((sensorsCalibrateSamples.toInt : Int) : ℝ) =
        ((50 : Nat) : ℝ) := by
      rw [show sensorsCalibrateSamples.toInt = 50 from rfl]
      norm_num
    unfold averaged readingMean
    rw [readingCount_all, readingCount_all,
      readingSum_succ (fun i => some (calls i).gyroAxes) 49,
      readingSum_succ (fun i => some (calls i).accelAxes) 49, ← samples]
    rfl
  · have early : ¬ sensorsCalibrateSamples ≤ Int32.ofNat (n + 1) := by
      intro done
      have bound := Int32.le_iff_toInt_le.mp done
      rw [calibrate_toInt (by omega)] at bound
      change (50 : Int) ≤ _ at bound
      omega
    rw [if_neg early, if_neg last]
    unfold collected
    simp only [readingSum_succ]
    rfl

private theorem calibrateRun_collecting (calls : Nat → CalibrateCall) {n : Nat}
    (few : n < 50) :
    @calibrateRun ℝ realMath calls n = (true, collected calls n) := by
  induction n with
  | zero =>
      unfold calibrateRun
      rw [collected_zero calls]
  | succ n ih =>
      unfold calibrateRun
      rw [ih (by omega), collected_step calls (by omega), if_neg (by omega)]

/-- The fiftieth call is the first to return 0, and nothing changes after it. -/
theorem calibrateRun_averaged (calls : Nat → CalibrateCall) {n : Nat}
    (enough : 50 ≤ n) :
    @calibrateRun ℝ realMath calls n = (false, averaged calls) := by
  induction n, enough using Nat.le_induction with
  | base =>
      unfold calibrateRun
      rw [calibrateRun_collecting calls (by decide),
        collected_step calls (by decide), if_pos rfl]
  | succ n enough ih =>
      unfold calibrateRun
      rw [ih]
      rfl

private theorem calibrateRun_ends_iff (calls : Nat → CalibrateCall) (n : Nat) :
    ((@calibrateRun ℝ realMath calls n).1 = true ∧
        (@calibrateRun ℝ realMath calls (n + 1)).1 = false) ↔ n = 49 := by
  constructor
  · intro ⟨going, ended⟩
    by_cases few : n + 1 < 50
    · rw [calibrateRun_collecting calls few] at ended
      cases ended
    · by_cases last : n < 50
      · omega
      · rw [calibrateRun_averaged calls (by omega)] at going
        cases going
  · intro last
    subst n
    rw [calibrateRun_collecting calls (by decide),
      calibrateRun_averaged calls (by decide)]
    exact ⟨rfl, rfl⟩

/-! ### Readings that fail -/

structure ReadPattern where
  gyro : Nat → Bool
  accel : Nat → Bool

def ReadPattern.Allows (pattern : ReadPattern) (calls : Nat → CalibrateCall) :
    Prop :=
  ∀ i, (calls i).gyro.isSome = pattern.gyro i ∧
    (calls i).accel.isSome = pattern.accel i

/-- The call that first returns 0 leaves the means of what has been read. -/
def AveragesReadings (calls : Nat → CalibrateCall) : Prop :=
  ∀ n, (@calibrateRun ℝ realMath calls n).1 = true →
    (@calibrateRun ℝ realMath calls (n + 1)).1 = false →
      let sensors := (@calibrateRun ℝ realMath calls (n + 1)).2
      let gyroMean := readingMean (fun i => getGyroData (calls i).gyro) (n + 1)
      let accelMean :=
        readingMean (fun i => getAccelData (calls i).accel) (n + 1)
      sensors.gyroOffset = gyroMean ∧
        sensors.accelOffset.x = accelMean.x ∧
        sensors.accelOffset.y = accelMean.y

private theorem averagesReadings_iff (calls : Nat → CalibrateCall) :
    AveragesReadings calls ↔
      (averaged calls).gyroOffset =
          readingMean (fun i => getGyroData (calls i).gyro) 50 ∧
        (averaged calls).accelOffset.x =
          (readingMean (fun i => getAccelData (calls i).accel) 50).x ∧
        (averaged calls).accelOffset.y =
          (readingMean (fun i => getAccelData (calls i).accel) 50).y := by
  constructor
  · intro averages
    obtain ⟨going, ended⟩ := (calibrateRun_ends_iff calls 49).mpr rfl
    have means := averages 49 going ended
    rw [calibrateRun_averaged calls (by decide)] at means
    exact means
  · intro means n going ended
    have last := (calibrateRun_ends_iff calls n).mp ⟨going, ended⟩
    subst n
    rw [calibrateRun_averaged calls (by decide)]
    exact means

private theorem CalibrateCall.axes_of_read {call : CalibrateCall}
    (gyro_read : call.gyro.isSome = true) (accel_read : call.accel.isSome = true) :
    some call.gyroAxes = getGyroData call.gyro ∧
      some call.accelAxes = getAccelData call.accel := by
  obtain ⟨gyro, gyro_eq⟩ := Option.isSome_iff_exists.mp gyro_read
  obtain ⟨accel, accel_eq⟩ := Option.isSome_iff_exists.mp accel_read
  unfold CalibrateCall.accelAxes CalibrateCall.gyroAxes
  rw [gyro_eq, accel_eq]
  exact ⟨rfl, rfl⟩

def yBuffer (tilted : Bool) : Buffer :=
  fun offset => if tilted ∧ offset = 3 then 1 else 0

/-- Calls that read zeros, and a one on the y axis of the gyro in one of them; a
gyro that cannot be read finds the same value in the variable. -/
def spikedCalls (pattern : ReadPattern) (spike : Nat) (i : Nat) :
    CalibrateCall :=
  { stack := ⟨0, if i = spike then 1 else 0, 0⟩
    gyro := if pattern.gyro i then some (yBuffer (i = spike)) else none
    accel := if pattern.accel i then some (yBuffer false) else none }

private theorem spikedCalls_allows (pattern : ReadPattern) (spike : Nat) :
    pattern.Allows (spikedCalls pattern spike) := by
  intro i
  unfold spikedCalls
  cases pattern.gyro i <;> cases pattern.accel i <;> exact ⟨rfl, rfl⟩

private theorem yBuffer_gyro (tilted : Bool) :
    getGyroData (some (yBuffer tilted)) =
      some ⟨0, if tilted then 1 else 0, 0⟩ := by
  cases tilted with
  | false => rfl
  | true => rfl

private theorem spikedCalls_gyro_y (pattern : ReadPattern) (spike i : Nat) :
    (spikedCalls pattern spike i).gyroAxes.y = if i = spike then 1 else 0 := by
  unfold spikedCalls CalibrateCall.gyroAxes
  cases pattern.gyro i with
  | false => rfl
  | true => simp [yBuffer_gyro]

private theorem spikedCalls_accel_y (pattern : ReadPattern) (spike i : Nat) :
    (spikedCalls pattern spike i).accelAxes.y =
      if pattern.accel i then 0 else if i = spike then 1 else 0 := by
  unfold CalibrateCall.accelAxes
  cases succeeds : pattern.accel i with
  | false =>
      have failed : (spikedCalls pattern spike i).accel = none := by
        simp [spikedCalls, succeeds]
      rw [failed]
      exact spikedCalls_gyro_y pattern spike i
  | true =>
      have read : (spikedCalls pattern spike i).accel =
          some (yBuffer false) := by
        simp [spikedCalls, succeeds]
      rw [read]
      rfl

/-- A single one among fifty zeros. -/
private theorem spike_sum {value : Nat → Axes} {spike : Nat}
    (inside : spike < 50)
    (one : (value spike).y = 1)
    (others : ∀ i, i ≠ spike → (value i).y = 0) :
    (readingSum (fun i => some (value i)) 50).y = 1 := by
  change ∑ i ∈ Finset.range 50, ((value i).y.toInt : ℝ) = 1
  rw [Finset.sum_eq_single spike]
  · rw [one, show (1 : Int16).toInt = 1 from rfl, Int.cast_one]
  · intro i _ other
    rw [others i other, show (0 : Int16).toInt = 0 from rfl, Int.cast_zero]
  · intro outside
    exact absurd (Finset.mem_range.mpr inside) outside

private theorem still_sum {read : Nat → Option Axes}
    (still : ∀ i axes, read i = some axes → axes.y = 0) (n : Nat) :
    (readingSum read n).y = 0 := by
  change ∑ i ∈ Finset.range n,
    (read i).elim 0 (fun axes => (axes.y.toInt : ℝ)) = 0
  apply Finset.sum_eq_zero
  intro i _
  cases reading : read i with
  | none => rfl
  | some axes =>
      rw [Option.elim_some, still i axes reading,
        show (0 : Int16).toInt = 0 from rfl, Int.cast_zero]

private theorem spike_mean {value : Nat → Axes} {spike : Nat}
    (inside : spike < 50) (one : (value spike).y = 1)
    (others : ∀ i, i ≠ spike → (value i).y = 0) :
    (readingMean (fun i => some (value i)) 50).y = 1 / (50 : Nat) := by
  unfold readingMean vector3Div
  dsimp only
  rw [readingCount_all, spike_sum inside one others]

private theorem still_mean {read : Nat → Option Axes}
    (still : ∀ i axes, read i = some axes → axes.y = 0) (n : Nat) :
    (readingMean read n).y = 0 := by
  unfold readingMean vector3Div
  dsimp only
  rw [still_sum still, zero_div]

private theorem spikedCalls_gyro_still {pattern : ReadPattern} {spike : Nat}
    (failed : pattern.gyro spike = false) (i : Nat) (axes : Axes)
    (reading : getGyroData (spikedCalls pattern spike i).gyro = some axes) :
    axes.y = 0 := by
  cases succeeds : pattern.gyro i with
  | false =>
      simp [spikedCalls, succeeds, getGyroData] at reading
  | true =>
      have other : i ≠ spike := by
        rintro rfl
        rw [succeeds] at failed
        cases failed
      simp only [spikedCalls, succeeds, if_true, yBuffer_gyro, other,
        decide_false] at reading
      cases reading
      rfl

private theorem spikedCalls_accel_still (pattern : ReadPattern) (spike i : Nat)
    (axes : Axes)
    (reading : getAccelData (spikedCalls pattern spike i).accel = some axes) :
    axes.y = 0 := by
  cases succeeds : pattern.accel i with
  | false =>
      simp [spikedCalls, succeeds, getAccelData] at reading
  | true =>
      simp only [spikedCalls, succeeds, if_true] at reading
      cases reading
      rfl

/-- A read that fails adds what its variables held. -/
theorem failed_read_counts (pattern : ReadPattern) {spike : Nat}
    (inside : spike < 50)
    (failed : pattern.gyro spike = false ∨ pattern.accel spike = false) :
    ¬ AveragesReadings (spikedCalls pattern spike) := by
  intro averages
  obtain ⟨gyro, _, accel⟩ := (averagesReadings_iff _).mp averages
  rcases failed with gyro_failed | accel_failed
  · have offset : (averaged (spikedCalls pattern spike)).gyroOffset.y =
        1 / (50 : Nat) := by
      apply spike_mean inside
      · rw [spikedCalls_gyro_y, if_pos rfl]
      · intro i other
        rw [spikedCalls_gyro_y, if_neg other]
    rw [gyro, still_mean (spikedCalls_gyro_still gyro_failed)] at offset
    norm_num at offset
  · have offset : (averaged (spikedCalls pattern spike)).accelOffset.y =
        1 / (50 : Nat) := by
      apply spike_mean inside
      · rw [spikedCalls_accel_y, accel_failed]
        simp
      · intro i other
        rw [spikedCalls_accel_y, if_neg other]
        simp
    rw [accel, still_mean (spikedCalls_accel_still pattern spike)] at offset
    norm_num at offset

/-- The offsets are the means of what has been read, whatever it is, exactly
when every read of the fifty calls succeeds. -/
theorem calibration_averages_iff (pattern : ReadPattern) :
    (∀ calls, pattern.Allows calls → AveragesReadings calls) ↔
      ∀ i, i < 50 → pattern.gyro i = true ∧ pattern.accel i = true := by
  constructor
  · intro averages i inside
    by_contra fails
    refine failed_read_counts pattern inside ?_
      (averages _ (spikedCalls_allows pattern i))
    cases gyro : pattern.gyro i with
    | false => exact Or.inl rfl
    | true =>
        right
        cases accel : pattern.accel i with
        | false => rfl
        | true => exact absurd ⟨gyro, accel⟩ fails
  · intro succeeds calls allows
    apply (averagesReadings_iff calls).mpr
    have read : ∀ i, i < 50 →
        some (calls i).gyroAxes = getGyroData (calls i).gyro ∧
          some (calls i).accelAxes = getAccelData (calls i).accel := by
      intro i inside
      obtain ⟨gyro, accel⟩ := succeeds i inside
      apply CalibrateCall.axes_of_read
      · rw [(allows i).1, gyro]
      · rw [(allows i).2, accel]
    have gyro := readingMean_congr (fun i inside => (read i inside).1)
    have accel := readingMean_congr (fun i inside => (read i inside).2)
    rw [← gyro, ← accel]
    exact ⟨rfl, rfl, rfl⟩

/-- Every read succeeds but the first of the accelerometer, which leaves the
gyro's values in the variables. -/
theorem calibration_adds_gyro_to_accel :
    ¬ ∀ calls, ReadPattern.Allows ⟨fun _ => true, fun i => i ≠ 0⟩ calls →
      AveragesReadings calls :=
  fun averages =>
    failed_read_counts ⟨fun _ => true, fun i => i ≠ 0⟩ (by decide)
      (Or.inr (by decide)) (averages _ (spikedCalls_allows _ 0))

/-! ### The rate that a tick hands on -/

section

variable {R : Type}

def TickInput.call (input : TickInput R) : CalibrateCall :=
  { stack := input.calibrateStack
    gyro := input.calibrateGyro
    accel := input.calibrateAccel }

def TickInput.data [CMath R] (input : TickInput R) (sensors : SensorsState R) :
    SensorData R :=
  (sensorsGetData sensors input.gyro input.accel none input.stack false).2

theorem flyTick_data [CFloat R] (input : TickInput R)
    (flight : Flight R) :
    let calibrated :=
      input.call.step (flight.control.calibrating, flight.sensors)
    let data := input.data calibrated.2
    (flyTick input flight).2.control.calibrating = calibrated.1 ∧
      (flyTick input flight).2.sensors = calibrated.2 ∧
      (flyTick input flight).2.angle =
        angleUpdate data.gyro data.accel flight.angle := by
  unfold CalibrateCall.step flyTick
  dsimp only
  cases flight.control.calibrating with
  | false => exact ⟨rfl, rfl, rfl⟩
  | true => exact ⟨rfl, rfl, rfl⟩

/-- The rate that tick `k` hands to angle_update, the first tick being 0. -/
def rateAt [CMath R] (inputs : Nat → TickInput R) (k : Nat) : Vector3 R :=
  ((inputs k).data (calibrateRun (fun i => (inputs i).call) (k + 1)).2).gyro

end

/-- Ticks whose gyro reads succeed; the others may fail. -/
def gyroTicks (sample gyro : Nat → Buffer) (rest : Nat → TickInput ℝ) (i : Nat) :
    TickInput ℝ :=
  { rest i with
    calibrateGyro := some (sample i)
    gyro := some (gyro i) }

def gyroSamples (sample : Nat → Buffer) (i : Nat) : Option Axes :=
  getGyroData (some (sample i))

noncomputable def gyroAxesReal (gyro : Buffer) : Vector3 ℝ :=
  { x := ((-axis (gyro 0) (gyro 1)).toInt : ℝ)
    y := ((axis (gyro 2) (gyro 3)).toInt : ℝ)
    z := ((axis (gyro 4) (gyro 5)).toInt : ℝ) }

noncomputable def rateAgainst (gyro : Buffer) (offset : Vector3 ℝ) :
    Vector3 ℝ :=
  vector3Mult (vector3SubEq (gyroAxesReal gyro) offset) (0.00121414209 * 3.6)

private theorem rateAgainst_inj {gyro : Buffer} {offset other : Vector3 ℝ} :
    rateAgainst gyro offset = rateAgainst gyro other ↔ offset = other := by
  constructor
  · intro same
    have scale : (0.00121414209 * 3.6 : ℝ) ≠ 0 := by norm_num
    unfold rateAgainst vector3Mult vector3SubEq at same
    simp only [Vector3.mk.injEq, mul_left_inj' scale, sub_right_inj] at same
    exact Vector3.ext_iff'.mpr same
  · intro same
    rw [same]

private theorem gyroTicks_rate (sample gyro : Nat → Buffer)
    (rest : Nat → TickInput ℝ)
    (k : Nat) :
    @rateAt ℝ realMath (gyroTicks sample gyro rest) k =
      rateAgainst (gyro k)
        (if k < 49 then readingSum (gyroSamples sample) (k + 1)
          else readingMean (gyroSamples sample) 50) := by
  unfold rateAt
  generalize calls_eq : (fun i => (gyroTicks sample gyro rest i).call) = calls
  have axes : (fun i => some (calls i).gyroAxes) = gyroSamples sample := by
    subst calls
    rfl
  have reads : ∀ sensors : SensorsState ℝ,
      (@TickInput.data ℝ realMath (gyroTicks sample gyro rest k) sensors).gyro =
        rateAgainst (gyro k) sensors.gyroOffset := by
    intro sensors
    unfold TickInput.data gyroTicks sensorsGetData
    cases (rest k).accel with
    | none => rfl
    | some accel => rfl
  rw [reads]
  by_cases collecting : k < 49
  · rw [if_pos collecting, calibrateRun_collecting calls (by omega), ← axes]
    rfl
  · rw [if_neg collecting, calibrateRun_averaged calls (by omega), ← axes]
    rfl

/-- A sum is the mean if there is one sample, or if it is zero. -/
theorem readingSum_eq_mean_iff (reading : Nat → Axes) (n : Nat) :
    readingSum (fun i => some (reading i)) (n + 1) =
        readingMean (fun i => some (reading i)) (n + 1) ↔
      n = 0 ∨ readingSum (fun i => some (reading i)) (n + 1) = Vector3.zero := by
  have size : ((n + 1 : Nat) : ℝ) ≠ 0 := Nat.cast_ne_zero.mpr (Nat.succ_ne_zero n)
  unfold readingMean
  rw [readingCount_all]
  generalize readingSum (fun i => some (reading i)) (n + 1) = sum
  have each : ∀ value : ℝ, value = value / ((n + 1 : Nat) : ℝ) ↔
      n = 0 ∨ value = 0 := by
    intro value
    rw [eq_div_iff size]
    constructor
    · intro same
      push_cast at same
      have product : (n : ℝ) * value = 0 := by linarith
      rcases mul_eq_zero.mp product with none_more | zero
      · exact Or.inl (Nat.cast_eq_zero.mp none_more)
      · exact Or.inr zero
    · intro either
      rcases either with rfl | rfl
      · simp
      · simp
  unfold vector3Div
  rw [Vector3.ext_iff', Vector3.ext_iff']
  simp only [each, Vector3.zero]
  tauto

/-- The rate is taken against the mean of the samples collected so far on the
first tick, when the calibration is over, and while the samples add up to
zero. -/
theorem gyro_against_mean_iff (sample gyro : Nat → Buffer)
    (rest : Nat → TickInput ℝ) (k : Nat) :
    @rateAt ℝ realMath (gyroTicks sample gyro rest) k =
        rateAgainst (gyro k)
          (readingMean (gyroSamples sample) (min (k + 1) 50)) ↔
      k = 0 ∨ 49 ≤ k ∨
        readingSum (gyroSamples sample) (k + 1) = Vector3.zero := by
  rw [gyroTicks_rate, rateAgainst_inj]
  by_cases collecting : k < 49
  · rw [if_pos collecting, Nat.min_eq_left (by omega)]
    have meets := readingSum_eq_mean_iff
      (fun i => ((gyroSamples sample i).getD ⟨0, 0, 0⟩)) k
    have late : ¬ 49 ≤ k := by omega
    simp only [late, false_or]
    exact meets
  · rw [if_neg collecting, Nat.min_eq_right (by omega)]
    constructor
    · intro _
      exact Or.inr (Or.inl (by omega))
    · intro _
      rfl

/-- A copter at rest whose gyro always reads one on the y axis is told in the
second tick that it turns. -/
theorem gyro_at_rest_turns :
    let still : Nat → Buffer := fun _ => yBuffer true
    let rest : Nat → TickInput ℝ := fun _ =>
      ⟨⟨0, 0, 0⟩, none, none, ⟨.zero, .zero, .zero⟩, none, none⟩
    @rateAt ℝ realMath (gyroTicks still still rest) 1 ≠
        rateAgainst (still 1) (readingMean (gyroSamples still) 2) ∧
      @rateAt ℝ realMath (gyroTicks still still rest) 1 ≠ Vector3.zero := by
  intro still rest
  have samples : gyroSamples still = fun _ => some ⟨0, 1, 0⟩ := by
    funext i
    exact yBuffer_gyro true
  have one : (Int16.toInt 1 : ℝ) = 1 := by
    rw [show (1 : Int16).toInt = 1 from rfl, Int.cast_one]
  have sum : (readingSum (gyroSamples still) 2).y = 2 := by
    rw [samples]
    change ∑ i ∈ Finset.range 2, (Int16.toInt 1 : ℝ) = 2
    rw [one]
    norm_num
  have mean : (readingMean (gyroSamples still) 2).y = 1 := by
    unfold readingMean vector3Div
    dsimp only
    rw [sum, samples, readingCount_all]
    norm_num
  have rate := gyroTicks_rate still still rest 1
  rw [if_pos (by decide)] at rate
  rw [rate]
  constructor
  · intro same
    have offsets := congrArg Vector3.y (rateAgainst_inj.mp same)
    rw [sum, mean] at offsets
    norm_num at offsets
  · intro none
    have y := congrArg Vector3.y none
    unfold rateAgainst vector3Mult vector3SubEq at y
    dsimp only [Vector3.zero] at y
    have reading : (gyroAxesReal (still 1)).y = 1 := by
      unfold gyroAxesReal
      dsimp only
      rw [show axis (still 1 2) (still 1 3) = 1 by decide, one]
    rw [sum, reading] at y
    norm_num at y

end Quadcopter

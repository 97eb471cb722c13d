import Quadcopter.M3.Sensors

/-
The values that the getters of panda/m3/sensors.c and maple/sensors.c store for
six raw bytes.

A getter negates some of its axes, and the most negative reading of such an axis
has no negation in an int16_t.
-/

namespace Quadcopter

namespace Maple

def getGyroData (read : Option Buffer) : Option Axes :=
  read.map (fun buf =>
    { x := axis (buf 0) (buf 1)
      y := -axis (buf 2) (buf 3)
      z := -axis (buf 4) (buf 5) })

def getAccelData (read : Option Buffer) : Option Axes :=
  read.map (fun buf =>
    { x := -axis (buf 1) (buf 0)
      y := axis (buf 3) (buf 2)
      z := axis (buf 5) (buf 4) })

def getMagData (read : Option Buffer) : Option Axes :=
  read.map (fun buf =>
    { x := axis (buf 2) (buf 3)
      y := axis (buf 0) (buf 1)
      z := axis (buf 4) (buf 5) })

end Maple

inductive Board where
  | panda
  | maple
deriving DecidableEq, Repr

inductive Sensor where
  | gyro
  | accel
  | mag
deriving DecidableEq, Repr

inductive Coordinate where
  | x
  | y
  | z
deriving DecidableEq, Repr

def Board.getData : Board → Sensor → Option Buffer → Option Axes
  | .panda, .gyro => getGyroData
  | .panda, .accel => getAccelData
  | .panda, .mag => getMagData
  | .maple, .gyro => Maple.getGyroData
  | .maple, .accel => Maple.getAccelData
  | .maple, .mag => Maple.getMagData

def Axes.value (axes : Axes) : Coordinate → Int16
  | .x => axes.x
  | .y => axes.y
  | .z => axes.z

def twosComplement (high low : UInt8) : Int :=
  let word : Int := 256 * high.toNat + low.toNat
  if word < 32768 then word else word - 65536

def Sensor.bigEndian : Sensor → Bool
  | .gyro => true
  | .accel => false
  | .mag => true

def Sensor.pair : Sensor → Coordinate → Nat
  | .mag, .x => 1
  | .mag, .y => 0
  | _, .x => 0
  | _, .y => 1
  | _, .z => 2

def Sensor.high (sensor : Sensor) (coordinate : Coordinate) : Nat :=
  if sensor.bigEndian then 2 * sensor.pair coordinate else 2 * sensor.pair coordinate + 1

def Sensor.low (sensor : Sensor) (coordinate : Coordinate) : Nat :=
  if sensor.bigEndian then 2 * sensor.pair coordinate + 1 else 2 * sensor.pair coordinate

def Board.negates : Board → Sensor → Coordinate → Bool
  | .panda, .gyro, .x => true
  | .panda, .accel, .x => true
  | .panda, .accel, .z => true
  | .panda, .mag, .z => true
  | .maple, .gyro, .y => true
  | .maple, .gyro, .z => true
  | .maple, .accel, .x => true
  | _, _, _ => false

def Sensor.reading (sensor : Sensor) (buf : Buffer) (coordinate : Coordinate) : Int :=
  twosComplement (buf (sensor.high coordinate)) (buf (sensor.low coordinate))

def Board.exact (board : Board) (sensor : Sensor) (buf : Buffer)
    (coordinate : Coordinate) : Int :=
  if board.negates sensor coordinate then -sensor.reading buf coordinate
  else sensor.reading buf coordinate

def Board.saturated (board : Board) (sensor : Sensor) (buf : Buffer)
    (coordinate : Coordinate) : Prop :=
  board.negates sensor coordinate = true ∧ buf (sensor.high coordinate) = 0x80 ∧
    buf (sensor.low coordinate) = 0

private theorem toInt_axis (high low : UInt8) :
    (axis high low).toInt = twosComplement high low := by
  have highBound := high.toNat_lt
  have lowBound := low.toNat_lt
  have word : (high.toUInt16 <<< 8 ||| low.toUInt16).toNat =
      256 * high.toNat + low.toNat := by
    rw [UInt16.toNat_or, UInt16.toNat_shiftLeft, UInt8.toNat_toUInt16,
      UInt8.toNat_toUInt16]
    change high.toNat <<< 8 % 2 ^ 16 ||| low.toNat = _
    rw [Nat.mod_eq_of_lt (by rw [Nat.shiftLeft_eq]; omega),
      ← Nat.shiftLeft_add_eq_or_of_lt lowBound, Nat.shiftLeft_eq]
    omega
  change (high.toUInt16 <<< 8 ||| low.toUInt16).toBitVec.toInt = _
  rw [BitVec.toInt_eq_toNat_cond]
  change (if 2 * (high.toUInt16 <<< 8 ||| low.toUInt16).toNat < 2 ^ 16 then
    ((high.toUInt16 <<< 8 ||| low.toUInt16).toNat : Int) else
    ((high.toUInt16 <<< 8 ||| low.toUInt16).toNat : Int) - (2 ^ 16 : Nat)) = _
  rw [word]
  unfold twosComplement
  dsimp only
  split <;> split <;> omega

private theorem twosComplement_least_iff (high low : UInt8) :
    twosComplement high low = -32768 ↔ high = 0x80 ∧ low = 0 := by
  have highBound := high.toNat_lt
  have lowBound := low.toNat_lt
  rw [← UInt8.toNat_inj, ← UInt8.toNat_inj]
  change _ ↔ high.toNat = 128 ∧ low.toNat = 0
  unfold twosComplement
  dsimp only
  constructor
  · intro least
    split at least <;> omega
  · intro ⟨highSame, lowSame⟩
    rw [highSame, lowSame]
    rfl

private theorem toInt_neg_iff (value : Int16) :
    (-value).toInt = -value.toInt ↔ value.toInt ≠ -32768 := by
  have low : -2 ^ 15 ≤ value.toInt := value.le_toInt
  have high : value.toInt < 2 ^ 15 := value.toInt_lt
  rw [Int16.toInt_neg]
  unfold Int.bmod
  dsimp only
  split <;> omega

def Sensor.word (sensor : Sensor) (buf : Buffer) (coordinate : Coordinate) :
    Int16 :=
  axis (buf (sensor.high coordinate)) (buf (sensor.low coordinate))

private theorem getData_value (board : Board) (sensor : Sensor) (buf : Buffer) :
    ∃ axes, board.getData sensor (some buf) = some axes ∧
      ∀ coordinate, axes.value coordinate =
        if board.negates sensor coordinate then -sensor.word buf coordinate
        else sensor.word buf coordinate := by
  cases board <;> cases sensor <;> refine ⟨_, rfl, ?_⟩ <;> intro coordinate <;>
    cases coordinate <;> rfl

private theorem exact_iff (board : Board) (sensor : Sensor) (buf : Buffer)
    (coordinate : Coordinate) :
    (if board.negates sensor coordinate then -sensor.word buf coordinate
      else sensor.word buf coordinate).toInt =
        board.exact sensor buf coordinate ↔
      ¬board.saturated sensor buf coordinate := by
  have word : (sensor.word buf coordinate).toInt =
      sensor.reading buf coordinate := toInt_axis _ _
  have least : sensor.reading buf coordinate = -32768 ↔
      buf (sensor.high coordinate) = 0x80 ∧ buf (sensor.low coordinate) = 0 :=
    twosComplement_least_iff _ _
  unfold Board.exact Board.saturated
  cases board.negates sensor coordinate with
  | false =>
      rw [if_neg Bool.false_ne_true, if_neg Bool.false_ne_true]
      constructor
      · rintro _ ⟨negated, _⟩
        exact Bool.false_ne_true negated
      · intro _
        exact word
  | true =>
      rw [if_pos rfl, if_pos rfl, ← word, toInt_neg_iff, word, Ne, least]
      constructor
      · rintro differs ⟨_, same⟩
        exact differs same
      · intro inside same
        exact inside ⟨rfl, same⟩

/-- The stored values are the exact ones as long as no negated axis reads
-32768. -/
theorem axes_exact_iff (board : Board) (sensor : Sensor) (buf : Buffer) :
    (∃ axes, board.getData sensor (some buf) = some axes ∧
      ∀ coordinate, (axes.value coordinate).toInt =
        board.exact sensor buf coordinate) ↔
      ∀ coordinate, ¬board.saturated sensor buf coordinate := by
  obtain ⟨axes, stored, values⟩ := getData_value board sensor buf
  constructor
  · rintro ⟨others, same, exactly⟩ coordinate
    rw [stored] at same
    cases same
    have value := exactly coordinate
    rw [values] at value
    exact (exact_iff board sensor buf coordinate).mp value
  · intro inside
    refine ⟨axes, stored, ?_⟩
    intro coordinate
    rw [values]
    exact (exact_iff board sensor buf coordinate).mpr (inside coordinate)

/-- The gyro of the panda reads -32768 on x, and -32768 is stored. -/
theorem gyro_sign_flips :
    ¬ ∀ (board : Board) (sensor : Sensor) (buf : Buffer),
        ∃ axes, board.getData sensor (some buf) = some axes ∧
          ∀ coordinate, (axes.value coordinate).toInt =
            board.exact sensor buf coordinate := by
  intro exactly
  obtain ⟨axes, stored, values⟩ :=
    exactly .panda .gyro (fun i => if i = 0 then 0x80 else 0)
  cases stored
  exact absurd (values .x) (by decide)

end Quadcopter

import Mathlib.Algebra.Group.Int.Defs
import Mathlib.Algebra.Group.Nat.Defs
import Mathlib.Data.Int.Basic
import Mathlib.Logic.Function.Basic

/-
Conversions between 32-bit signed and unsigned values in the range where both
read as the same number, and the little-endian bytes of a word.
-/

namespace Quadcopter.MachineInt

theorem toInt_toInt32 (word : UInt32) (small : word.toNat < 2 ^ 31) :
    word.toInt32.toInt = word.toNat := by
  change word.toBitVec.toInt = _
  apply BitVec.toInt_eq_toNat_of_lt
  change 2 * word.toNat < 2 ^ 32
  omega

theorem toNat_toUInt32 (value : Int32) (nonneg : 0 ≤ value.toInt) :
    value.toUInt32.toNat = value.toInt.toNat :=
  Int32.toNat_toUInt32_of_le (Int32.le_iff_toInt_le.mpr nonneg)

theorem toInt_div {value divisor : Int32} (nonneg : 0 ≤ value.toInt)
    (positive : 0 < divisor.toInt) :
    (value / divisor).toInt =
      ((value.toInt.toNat / divisor.toInt.toNat : Nat) : Int) := by
  rw [Int32.toInt_div_of_ne_right]
  · obtain ⟨dividend, dividend_eq⟩ := Int.eq_ofNat_of_zero_le nonneg
    obtain ⟨size, size_eq⟩ := Int.eq_ofNat_of_zero_le (Int.le_of_lt positive)
    rw [dividend_eq, size_eq]
    rfl
  · intro minus
    rw [minus] at positive
    exact absurd positive (by decide)

theorem toInt_mod {value divisor : Int32} (nonneg : 0 ≤ value.toInt)
    (positive : 0 < divisor.toInt) :
    (value % divisor).toInt =
      ((value.toInt.toNat % divisor.toInt.toNat : Nat) : Int) := by
  obtain ⟨dividend, dividend_eq⟩ := Int.eq_ofNat_of_zero_le nonneg
  obtain ⟨size, size_eq⟩ := Int.eq_ofNat_of_zero_le (Int.le_of_lt positive)
  rw [Int32.toInt_mod, dividend_eq, size_eq]
  rfl

theorem toInt_mul {value factor : Int32}
    (low : -2 ^ 31 ≤ value.toInt * factor.toInt)
    (high : value.toInt * factor.toInt < 2 ^ 31) :
    (value * factor).toInt = value.toInt * factor.toInt := by
  rw [Int32.toInt_mul]
  generalize value.toInt * factor.toInt = product at low high
  unfold Int.bmod
  dsimp only
  split <;> omega

theorem toNat_mul {value factor : Int32} {left right : Nat}
    (value_eq : value.toInt = left) (factor_eq : factor.toInt = right)
    (small : left * right < 2 ^ 31) :
    (value * factor).toUInt32.toNat = left * right := by
  have times : value.toInt * factor.toInt = ((left * right : Nat) : Int) := by
    rw [value_eq, factor_eq, Int.natCast_mul]
  have product : (value * factor).toInt = ((left * right : Nat) : Int) := by
    rw [toInt_mul (by omega) (by omega), times]
  rw [toNat_toUInt32 _ (by omega), product, Int.toNat_natCast]

theorem bmod_eq_self {value : Int} (low : -2 ^ 63 ≤ value)
    (high : value < 2 ^ 63) : value.bmod (2 ^ 64) = value := by
  unfold Int.bmod
  dsimp only
  split <;> omega

theorem bmod_wraps {value : Int} (low : 2 ^ 63 ≤ value)
    (high : value < 2 ^ 64) : value.bmod (2 ^ 64) = value - 2 ^ 64 := by
  unfold Int.bmod
  dsimp only
  split <;> omega

theorem toNat_truncated (value : Int64) :
    (value.toUInt64.toUInt32.toNat : Int) = value.toInt % 2 ^ 32 := by
  have bits : (value.toUInt64.toNat : Int) % 2 ^ 32 = value.toInt % 2 ^ 32 := by
    change (value.toBitVec.toNat : Int) % 2 ^ 32 =
      value.toBitVec.toInt % 2 ^ 32
    rw [BitVec.toInt_eq_toNat_cond]
    omega
  rw [UInt64.toNat_toUInt32]
  omega

def wordBytes (word : UInt32) : List UInt8 :=
  [UInt8.ofNat word.toNat, UInt8.ofNat (word.toNat / 2 ^ 8),
    UInt8.ofNat (word.toNat / 2 ^ 16), UInt8.ofNat (word.toNat / 2 ^ 24)]

def halfBytes (half : UInt16) : List UInt8 :=
  [UInt8.ofNat half.toNat, UInt8.ofNat (half.toNat / 2 ^ 8)]

def wordAt (bytes : Nat → UInt8) (start : Nat) : UInt32 :=
  UInt32.ofNat
    ((bytes start).toNat + 2 ^ 8 * (bytes (start + 1)).toNat +
      2 ^ 16 * (bytes (start + 2)).toNat + 2 ^ 24 * (bytes (start + 3)).toNat)

def halfAt (bytes : Nat → UInt8) (start : Nat) : UInt16 :=
  UInt16.ofNat ((bytes start).toNat + 2 ^ 8 * (bytes (start + 1)).toNat)

theorem wordAt_of_bytes {bytes : Nat → UInt8} {start : Nat} {word : UInt32}
    (stored : [bytes start, bytes (start + 1), bytes (start + 2),
      bytes (start + 3)] = wordBytes word) : wordAt bytes start = word := by
  have bound := word.toNat_lt
  simp only [wordBytes, List.cons.injEq, and_true] at stored
  obtain ⟨first, second, third, fourth⟩ := stored
  apply UInt32.toNat_inj.mp
  unfold wordAt
  rw [first, second, third, fourth]
  simp only [UInt32.toNat_ofNat', UInt8.toNat_ofNat']
  omega

theorem halfAt_of_bytes {bytes : Nat → UInt8} {start : Nat} {half : UInt16}
    (stored : [bytes start, bytes (start + 1)] = halfBytes half) :
    halfAt bytes start = half := by
  have bound := half.toNat_lt
  simp only [halfBytes, List.cons.injEq, and_true] at stored
  obtain ⟨first, second⟩ := stored
  apply UInt16.toNat_inj.mp
  unfold halfAt
  rw [first, second]
  simp only [UInt16.toNat_ofNat', UInt8.toNat_ofNat']
  omega

theorem shift_or_bytes (bytes : Nat → UInt8) (start : Nat) :
    (bytes (start + 1)).toUInt16 <<< 8 ||| (bytes start).toUInt16 =
      halfAt bytes start := by
  have low := (bytes start).toNat_lt
  have high := (bytes (start + 1)).toNat_lt
  have shifted : (bytes (start + 1)).toNat <<< 8 % 2 ^ 16 =
      (bytes (start + 1)).toNat <<< 8 := by
    rw [Nat.shiftLeft_eq]
    omega
  apply UInt16.toNat_inj.mp
  unfold halfAt
  rw [UInt16.toNat_or, UInt16.toNat_shiftLeft, UInt8.toNat_toUInt16,
    UInt8.toNat_toUInt16, UInt16.toNat_ofNat']
  change (bytes (start + 1)).toNat <<< 8 % 2 ^ 16 ||| _ = _
  rw [shifted, ← Nat.shiftLeft_add_eq_or_of_lt low, Nat.shiftLeft_eq]
  omega

/-- The four bytes of `word` stored from `start` on. -/
def storeWord (bytes : Nat → UInt8) (start : Nat) (word : UInt32) :
    Nat → UInt8 :=
  fun index =>
    if start ≤ index then (wordBytes word)[index - start]?.getD (bytes index)
    else bytes index

theorem storeWord_outside (bytes : Nat → UInt8) (word : UInt32)
    {start index : Nat} (outside : index < start ∨ start + 4 ≤ index) :
    storeWord bytes start word index = bytes index := by
  unfold storeWord
  rcases outside with before | after
  · rw [if_neg (by omega)]
  · rw [if_pos (by omega), List.getElem?_eq_none]
    · rfl
    · change 4 ≤ index - start
      omega

theorem wordAt_storeWord (bytes : Nat → UInt8) (start : Nat) (word : UInt32) :
    wordAt (storeWord bytes start word) start = word := by
  apply wordAt_of_bytes
  simp [storeWord, wordBytes]

theorem wordAt_congr {bytes other : Nat → UInt8} {start : Nat}
    (same : ∀ index, start ≤ index → index < start + 4 →
      bytes index = other index) : wordAt bytes start = wordAt other start := by
  unfold wordAt
  rw [same start (by omega) (by omega), same (start + 1) (by omega) (by omega),
    same (start + 2) (by omega) (by omega),
    same (start + 3) (by omega) (by omega)]

theorem wordBytes_getElem? (word : UInt32) {place : Nat} (small : place < 4) :
    (wordBytes word)[place]? =
      some (UInt8.ofNat (word.toNat / 2 ^ (8 * place))) := by
  have whole : word.toNat / 2 ^ (8 * 0) = word.toNat := Nat.div_one _
  rcases place with _ | _ | _ | _ | place
  · rw [whole]
    rfl
  · rfl
  · rfl
  · rfl
  · exact absurd small (by omega)

theorem storeWord_inside (bytes : Nat → UInt8) (start : Nat) (word : UInt32)
    {place : Nat} (small : place < 4) :
    storeWord bytes start word (start + place) =
      UInt8.ofNat (word.toNat / 2 ^ (8 * place)) := by
  unfold storeWord
  rw [if_pos (Nat.le_add_right start place), Nat.add_sub_cancel_left,
    wordBytes_getElem? word small]
  rfl

theorem wordAt_toNat (bytes : Nat → UInt8) (start : Nat) :
    (wordAt bytes start).toNat =
      (bytes start).toNat + 2 ^ 8 * (bytes (start + 1)).toNat +
        2 ^ 16 * (bytes (start + 2)).toNat +
        2 ^ 24 * (bytes (start + 3)).toNat := by
  have first := (bytes start).toNat_lt
  have second := (bytes (start + 1)).toNat_lt
  have third := (bytes (start + 2)).toNat_lt
  have fourth := (bytes (start + 3)).toNat_lt
  unfold wordAt
  rw [UInt32.toNat_ofNat']
  omega

theorem wordAt_byte (bytes : Nat → UInt8) (start : Nat) {place : Nat}
    (small : place < 4) :
    UInt8.ofNat ((wordAt bytes start).toNat / 2 ^ (8 * place)) =
      bytes (start + place) := by
  have first := (bytes start).toNat_lt
  have second := (bytes (start + 1)).toNat_lt
  have third := (bytes (start + 2)).toNat_lt
  apply UInt8.toNat_inj.mp
  rw [UInt8.toNat_ofNat', wordAt_toNat]
  rcases place with _ | _ | _ | _ | place
  · change _ / 2 ^ 0 % 2 ^ 8 = (bytes start).toNat
    omega
  · change _ / 2 ^ 8 % 2 ^ 8 = (bytes (start + 1)).toNat
    omega
  · change _ / 2 ^ 16 % 2 ^ 8 = (bytes (start + 2)).toNat
    omega
  · have fourth := (bytes (start + 3)).toNat_lt
    change _ / 2 ^ 24 % 2 ^ 8 = (bytes (start + 3)).toNat
    omega
  · exact absurd small (by omega)

/-- The byte of `word` from bit `off` on is cleared, and `byte` laid there. -/
def replaceByte (word : UInt32) (off : UInt32) (byte : UInt8) : UInt32 :=
  (word &&& ~~~((0xFF : UInt32) <<< off)) ||| (byte.toUInt32 <<< off)

theorem testBit_shifted (value off : UInt32) {bit : Nat}
    (small : off.toNat < 32) (inside : bit < 32) :
    (value <<< off).toNat.testBit bit =
      (decide (off.toNat ≤ bit) && value.toNat.testBit (bit - off.toNat)) := by
  rw [UInt32.toNat_shiftLeft, Nat.mod_eq_of_lt small, Nat.testBit_mod_two_pow,
    Nat.testBit_shiftLeft, decide_eq_true inside, Bool.true_and]

theorem testBit_complement (value : UInt32) {bit : Nat} (inside : bit < 32) :
    (~~~value).toNat.testBit bit = !value.toNat.testBit bit := by
  have bound := value.toNat_lt
  have same : (~~~value).toNat = 2 ^ 32 - (value.toNat + 1) := by
    change (~~~value.toBitVec).toNat = _
    rw [BitVec.toNat_not]
    change 2 ^ 32 - 1 - value.toNat = _
    omega
  rw [same, Nat.testBit_two_pow_sub_succ bound, decide_eq_true inside,
    Bool.true_and]

theorem testBit_replaceByte (word off : UInt32) (byte : UInt8) {bit : Nat}
    (small : off.toNat < 32) (inside : bit < 32) :
    (replaceByte word off byte).toNat.testBit bit =
      if off.toNat ≤ bit ∧ bit < off.toNat + 8 then
        byte.toNat.testBit (bit - off.toNat)
      else word.toNat.testBit bit := by
  have mask : (0xFF : UInt32).toNat.testBit (bit - off.toNat) =
      decide (bit - off.toNat < 8) :=
    Nat.testBit_two_pow_sub_one 8 _
  unfold replaceByte
  rw [UInt32.toNat_or, UInt32.toNat_and, Nat.testBit_or, Nat.testBit_and,
    testBit_complement _ inside, testBit_shifted _ _ small inside,
    testBit_shifted _ _ small inside, mask, UInt8.toNat_toUInt32]
  by_cases low : off.toNat ≤ bit
  · by_cases high : bit < off.toNat + 8
    · have covered : bit - off.toNat < 8 := by omega
      simp [low, high, covered]
    · have above : ¬ bit - off.toNat < 8 := by omega
      have clear : byte.toNat.testBit (bit - off.toNat) = false := by
        apply Nat.testBit_lt_two_pow
        exact Nat.lt_of_lt_of_le byte.toNat_lt
          (Nat.pow_le_pow_right (by omega) (by omega))
      simp [low, high, above, clear]
  · simp [low]

theorem replaceByte_byte (word off : UInt32) (byte : UInt8) {place target : Nat}
    (shift : off.toNat = 8 * target) (small : target < 4) (inside : place < 4) :
    UInt8.ofNat ((replaceByte word off byte).toNat / 2 ^ (8 * place)) =
      if place = target then byte
      else UInt8.ofNat (word.toNat / 2 ^ (8 * place)) := by
  apply UInt8.toNat_inj.mp
  apply Nat.eq_of_testBit_eq
  intro bit
  rw [UInt8.toNat_ofNat', Nat.testBit_mod_two_pow, Nat.testBit_div_two_pow]
  by_cases low : bit < 8
  · rw [testBit_replaceByte word off byte (by omega) (by omega), shift,
      decide_eq_true low, Bool.true_and]
    by_cases same : place = target
    · rw [if_pos (by omega), if_pos same, same, Nat.add_sub_cancel]
    · rw [if_neg (by omega), if_neg same, UInt8.toNat_ofNat',
        Nat.testBit_mod_two_pow, Nat.testBit_div_two_pow, decide_eq_true low,
        Bool.true_and]
  · have clear : ∀ other : UInt8, other.toNat.testBit bit = false := by
      intro other
      apply Nat.testBit_lt_two_pow
      exact Nat.lt_of_lt_of_le other.toNat_lt
        (Nat.pow_le_pow_right (by omega) (by omega))
    rw [clear, decide_eq_false low, Bool.false_and]

/-- Reading a word, replacing one of its bytes and storing it changes that byte
and no other. -/
theorem storeWord_replaceByte (bytes : Nat → UInt8) (start : Nat)
    (off : UInt32) (byte : UInt8) {place : Nat} (shift : off.toNat = 8 * place)
    (small : place < 4) :
    storeWord bytes start (replaceByte (wordAt bytes start) off byte) =
      Function.update bytes (start + place) byte := by
  funext index
  by_cases inside : start ≤ index ∧ index < start + 4
  · obtain ⟨other, rfl⟩ := Nat.exists_eq_add_of_le inside.1
    have other_small : other < 4 := by omega
    rw [storeWord_inside _ _ _ other_small,
      replaceByte_byte _ off byte shift small other_small,
      wordAt_byte bytes start other_small]
    by_cases same : other = place
    · rw [if_pos same, same, Function.update_self]
    · rw [if_neg same, Function.update_of_ne (by omega)]
  · rw [storeWord_outside _ _ (by omega), Function.update_of_ne (by omega)]

theorem toNat_and_sectionMask (word : UInt32) :
    (word &&& 0xFFF00000).toNat = word.toNat / 2 ^ 20 * 2 ^ 20 := by
  have bound := word.toNat_lt
  have mask : ∀ bit, bit < 32 →
      Nat.testBit 0xFFF00000 bit = decide (20 ≤ bit) := by decide
  rw [UInt32.toNat_and, ← Nat.shiftRight_eq_div_pow, ← Nat.shiftLeft_eq]
  apply Nat.eq_of_testBit_eq
  intro bit
  rw [Nat.testBit_and, Nat.testBit_shiftLeft, Nat.testBit_shiftRight]
  by_cases high : 20 ≤ bit
  · rw [show 20 + (bit - 20) = bit by omega]
    by_cases inside : bit < 32
    · rw [show (0xFFF00000 : UInt32).toNat = 0xFFF00000 from rfl,
        mask bit inside, Bool.and_comm]
    · have clear : word.toNat.testBit bit = false := by
        apply Nat.testBit_lt_two_pow
        exact Nat.lt_of_lt_of_le bound (Nat.pow_le_pow_right (by omega)
          (by omega))
      rw [clear, Bool.false_and, Bool.and_false]
  · rw [show (0xFFF00000 : UInt32).toNat = 0xFFF00000 from rfl,
      mask bit (by omega), Bool.and_comm]
    simp [high]

theorem toNat_section_or (high low : UInt32) (aligned : high.toNat % 2 ^ 20 = 0)
    (small : low.toNat < 2 ^ 20) :
    (high ||| low).toNat = high.toNat + low.toNat := by
  have whole : high.toNat / 2 ^ 20 * 2 ^ 20 = high.toNat := by omega
  rw [UInt32.toNat_or]
  have summed := Nat.shiftLeft_add_eq_or_of_lt small (high.toNat / 2 ^ 20)
  rw [Nat.shiftLeft_eq, whole] at summed
  exact summed.symm

end Quadcopter.MachineInt

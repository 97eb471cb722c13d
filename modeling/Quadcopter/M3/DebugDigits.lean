import Quadcopter.Library.Numerals
import Quadcopter.M3.Debug

/-
What convert_dec, convert_hex and convert_oct (panda/m3/debug.c) leave in the
buffer, and the characters that output_int and output_uint pass on.
-/

namespace Quadcopter

open Numerals

/-- 0 to 9, and then a to f or A to F. -/
def digitSymbol (upperCase : Bool) (digit : Nat) : UInt8 :=
  if digit < 10 then UInt8.ofNat digit + '0'.toUInt8
  else
    UInt8.ofNat (digit - 10) +
      if upperCase then 'A'.toUInt8 else 'a'.toUInt8

def decimal (value : Nat) : List UInt8 := numeral (digitSymbol false) 10 value

def signedDecimal (value : Int) : List UInt8 :=
  if value < 0 then '-'.toUInt8 :: decimal value.natAbs
  else decimal value.natAbs

private theorem bufferText_succ (buf : ConvBuf) (start : Int) (len : Nat) :
    bufferText buf start ((len + 1 : Nat) : Int) =
      bufferText buf start len ++ [buf (start + len)] := by
  unfold bufferText
  rw [Int.toNat_natCast, Int.toNat_natCast, List.range_succ, List.map_append]
  rfl

private theorem bufferText_cons (buf : ConvBuf) (start : Int) (len : Nat) :
    bufferText buf start ((len + 1 : Nat) : Int) =
      buf start :: bufferText buf (start + 1) len := by
  unfold bufferText
  rw [Int.toNat_natCast, Int.toNat_natCast, List.range_succ_eq_map,
    List.map_cons, List.map_map]
  congr 1
  · rw [Int.natCast_zero, Int.add_zero]
  · apply List.map_congr_left
    intro i _
    change buf (start + ((i + 1 : Nat) : Int)) = buf (start + 1 + (i : Int))
    congr 1
    omega

private theorem bufferText_congr {buf other : ConvBuf} {start : Int} {len : Nat}
    (same : ∀ index, start ≤ index → index < start + len →
      buf index = other index) :
    bufferText buf start len = bufferText other start len := by
  unfold bufferText
  apply List.map_congr_left
  intro i member
  rw [Int.toNat_natCast, List.mem_range] at member
  exact same _ (by omega) (by omega)

/-- The loop leaves the numeral right behind pos, up to the cells that it had,
and nothing else. -/
structure Converted (left : Nat) (buf : ConvBuf) (shown : List UInt8)
    (done : Int × ConvBuf) : Prop where
  pos : done.1 + 1 + shown.length = left
  text : bufferText done.2 (done.1 + 1) shown.length = shown
  rest : ∀ index, (left : Int) ≤ index → done.2 index = buf index

private theorem update_beyond (buf : ConvBuf) (pos : Nat) (c : UInt8)
    {index : Int}
    (beyond : ((pos + 1 : Nat) : Int) ≤ index) :
    Function.update buf (pos : Int) c index = buf index :=
  Function.update_of_ne (by omega) _ _

private theorem converted_single (pos : Nat) (buf : ConvBuf) (c : UInt8) :
    Converted (pos + 1) buf [c]
      ((pos : Int) - 1, Function.update buf (pos : Int) c) := by
  refine ⟨?_, ?_, fun _ => update_beyond buf pos c⟩
  · rw [List.length_singleton, Int.sub_add_cancel]
    rfl
  · rw [List.length_singleton, Int.sub_add_cancel]
    change bufferText _ (pos : Int) ((0 + 1 : Nat) : Int) = _
    dsimp only
    rw [bufferText_succ, Int.natCast_zero, Int.add_zero, Function.update_self]
    rfl

/-- The loop stores a digit and goes on before it. -/
theorem Converted.snoc {pos : Nat} {buf : ConvBuf} {c : UInt8}
    {shown : List UInt8} {done : Int × ConvBuf}
    (later : Converted pos (Function.update buf (pos : Int) c) shown done) :
    Converted (pos + 1) buf (shown ++ [c]) done := by
  obtain ⟨at_pos, text, rest⟩ := later
  refine ⟨?_, ?_, ?_⟩
  · rw [List.length_append, List.length_singleton]
    omega
  · rw [List.length_append, List.length_singleton, bufferText_succ, text,
      at_pos, rest _ (Int.le_refl _), Function.update_self]
  · intro index beyond
    rw [rest index (by omega)]
    exact update_beyond buf pos c beyond

private theorem convertLoop_converted {digit : UInt64 → UInt8}
    {next : UInt64 → UInt64} {symbol : Nat → UInt8} {radix : Nat}
    (base : 1 < radix)
    (digit_eq : ∀ value, digit value = symbol (value.toNat % radix))
    (next_eq : ∀ value, (next value).toNat = value.toNat / radix)
    (left : Nat) (some_left : 0 < left) (value : UInt64)
    (fits : value.toNat < radix ^ left) (buf : ConvBuf) :
    Converted left buf (numeral symbol radix value.toNat)
      (convertLoop digit next left value buf) := by
  induction left generalizing value buf with
  | zero => exact absurd some_left (Nat.lt_irrefl 0)
  | succ pos ih =>
      by_cases last : next value = 0
      · have quotient : value.toNat / radix = 0 := by
          rw [← next_eq, last]
          rfl
        have small : value.toNat < radix :=
          Nat.lt_of_div_eq_zero (by omega) quotient
        rw [convertLoop, if_pos last, digit_eq, Nat.mod_eq_of_lt small,
          numeral_of_lt symbol small]
        exact converted_single pos buf _
      · have quotient : value.toNat / radix ≠ 0 := by
          rw [← next_eq]
          intro zero
          exact last (UInt64.toNat_inj.mp zero)
        have large : radix ≤ value.toNat := (Nat.div_ne_zero_iff.mp quotient).2
        have fits_next : (next value).toNat < radix ^ pos := by
          rw [next_eq, Nat.div_lt_iff_lt_mul (by omega), ← Nat.pow_succ]
          exact fits
        have some_pos : 0 < pos := by
          rcases Nat.eq_zero_or_pos pos with zero | positive
          · rw [zero, Nat.pow_zero, next_eq] at fits_next
            exact absurd (Nat.lt_one_iff.mp fits_next) quotient
          · exact positive
        have later := ih some_pos (next value) fits_next
          (Function.update buf (pos : Int) (digit value))
        rw [next_eq, digit_eq] at later
        rw [convertLoop, if_neg last, digit_eq,
          numeral_step symbol base large]
        exact later.snoc

private theorem toUInt8_eq {value : UInt64} {digit : Nat}
    (same : value.toNat = digit) : value.toUInt8 = UInt8.ofNat digit := by
  apply UInt8.toNat_inj.mp
  rw [UInt64.toNat_toUInt8, UInt8.toNat_ofNat', same]

private theorem digitSymbol_of_lt (upperCase : Bool) {digit : Nat}
    (small : digit < 10) :
    digitSymbol upperCase digit = UInt8.ofNat digit + '0'.toUInt8 :=
  if_pos small

theorem convertDec_converted (value : UInt64) (buf : ConvBuf) :
    Converted 64 buf (decimal value.toNat) (convertDec value buf) := by
  apply convertLoop_converted (by decide) _ _ 64 (by decide)
  · exact Nat.lt_trans value.toNat_lt (by decide)
  · intro value
    have small : value.toNat % 10 < 10 := Nat.mod_lt _ (by decide)
    rw [digitSymbol_of_lt false small, toUInt8_eq (UInt64.toNat_mod value 10)]
    rfl
  · intro value
    exact UInt64.toNat_div value 10

private theorem toNat_and_mask (value : UInt64) {mask : UInt64} {bits : Nat}
    (mask_eq : mask.toNat = 2 ^ bits - 1) :
    (value &&& mask).toNat = value.toNat % 2 ^ bits := by
  rw [UInt64.toNat_and, mask_eq]
  exact Nat.and_two_pow_sub_one_eq_mod _ bits

theorem convertOct_converted (value : UInt64) (buf : ConvBuf) :
    Converted 64 buf (numeral (digitSymbol false) 8 value.toNat)
      (convertOct value buf) := by
  apply convertLoop_converted (by decide) _ _ 64 (by decide)
  · exact Nat.lt_trans value.toNat_lt (by decide)
  · intro value
    have masked : (value &&& 0x7).toNat = value.toNat % 8 :=
      @toNat_and_mask value 7 3 rfl
    have small : value.toNat % 8 < 8 := Nat.mod_lt _ (by decide)
    rw [digitSymbol_of_lt false (Nat.lt_trans small (by decide)),
      toUInt8_eq masked]
  · intro value
    rw [UInt64.toNat_shiftRight]
    exact Nat.shiftRight_eq_div_pow value.toNat 3

theorem convertHex_converted (upperCase : Bool) (value : UInt64)
    (buf : ConvBuf) :
    Converted 64 buf (numeral (digitSymbol upperCase) 16 value.toNat)
      (convertHex value upperCase buf) := by
  apply convertLoop_converted (by decide) _ _ 64 (by decide)
  · exact Nat.lt_trans value.toNat_lt (by decide)
  · intro value
    have masked : (value &&& 0xF).toNat = value.toNat % 16 :=
      @toNat_and_mask value 15 4 rfl
    have small : value.toNat % 16 < 16 := Nat.mod_lt _ (by decide)
    rw [toUInt8_eq masked]
    generalize value.toNat % 16 = digit at small
    unfold digitSymbol
    by_cases decimal_digit : digit < 10
    · have below : ¬ 10 ≤ UInt8.ofNat digit := by
        rw [UInt8.le_iff_toNat_le, UInt8.toNat_ofNat']
        change ¬ 10 ≤ digit % 256
        omega
      rw [if_neg below, if_pos decimal_digit]
    · have above : 10 ≤ UInt8.ofNat digit := by
        rw [UInt8.le_iff_toNat_le, UInt8.toNat_ofNat']
        change 10 ≤ digit % 256
        omega
      have letter : UInt8.ofNat digit - 10 = UInt8.ofNat (digit - 10) := by
        apply UInt8.toNat_inj.mp
        rw [UInt8.toNat_sub_of_le _ _ above, UInt8.toNat_ofNat',
          UInt8.toNat_ofNat']
        change digit % 256 - 10 = (digit - 10) % 256
        omega
      rw [if_pos above, if_neg decimal_digit, letter]
  · intro value
    rw [UInt64.toNat_shiftRight]
    exact Nat.shiftRight_eq_div_pow value.toNat 4

def put (args : List VarArg) (text : List UInt8) : Output :=
  { count := Int32.ofNat text.length
    args
    out := [text] }

private theorem putBuffer_eq (args : List VarArg) {pos : Int} {buf : ConvBuf}
    {text : List UInt8} (at_pos : pos + 1 + text.length = 64)
    (shown : bufferText buf (pos + 1) text.length = text) :
    putBuffer args pos buf = put args text := by
  have len : (convBufSize : Int) - pos - 1 = text.length := by
    change 64 - pos - 1 = _
    omega
  unfold putBuffer
  dsimp only
  rw [len, shown]
  rfl

private theorem toNat_toUInt64_of_nonneg {value : Int64}
    (nonneg : ¬ value < 0) :
    value.toUInt64.toNat = value.toInt.natAbs := by
  have whole := BitVec.toInt_eq_toNat_cond value.toBitVec
  have positive : 0 ≤ value.toInt := by
    rw [Int64.lt_iff_toInt_lt] at nonneg
    exact Int.not_lt.mp nonneg
  change value.toBitVec.toNat = value.toBitVec.toInt.natAbs
  change 0 ≤ value.toBitVec.toInt at positive
  have bound := value.toBitVec.isLt
  split at whole <;> omega

private theorem toNat_neg_of_neg {value : Int64} (negative : value < 0) :
    (-value).toUInt64.toNat = value.toInt.natAbs := by
  have whole := BitVec.toInt_eq_toNat_cond value.toBitVec
  rw [Int64.lt_iff_toInt_lt] at negative
  change value.toBitVec.toInt < 0 at negative
  change (-value.toBitVec).toNat = value.toBitVec.toInt.natAbs
  rw [BitVec.toNat_neg]
  have bound := value.toBitVec.isLt
  split at whole <;> omega

theorem putInt_eq (buf : ConvBuf) (value : Int64) (args : List VarArg) :
    putInt buf value args = put args (signedDecimal value.toInt) := by
  unfold putInt signedDecimal
  by_cases negative : value < 0
  · have negative_int : value.toInt < 0 := Int64.lt_iff_toInt_lt.mp negative
    obtain ⟨at_pos, text, _⟩ := convertDec_converted (-value).toUInt64 buf
    rw [toNat_neg_of_neg negative] at at_pos text
    simp only [if_pos negative, if_pos negative_int]
    generalize convertDec (-value).toUInt64 buf = done at at_pos text
    apply putBuffer_eq
    · rw [List.length_cons]
      omega
    · have behind_sign : bufferText
          (Function.update done.2 done.1 '-'.toUInt8) (done.1 + 1)
            (decimal value.toInt.natAbs).length =
          bufferText done.2 (done.1 + 1)
            (decimal value.toInt.natAbs).length := by
        apply bufferText_congr
        intro index low _
        exact Function.update_of_ne (by omega) _ _
      rw [List.length_cons, Int.sub_add_cancel, bufferText_cons,
        Function.update_self, behind_sign, text]
  · have nonneg_int : ¬ value.toInt < 0 :=
      fun lower => negative (Int64.lt_iff_toInt_lt.mpr lower)
    obtain ⟨at_pos, text, _⟩ := convertDec_converted value.toUInt64 buf
    rw [toNat_toUInt64_of_nonneg negative] at at_pos text
    simp only [if_neg negative, if_neg nonneg_int]
    exact putBuffer_eq args at_pos text

theorem putUint_eq (buf : ConvBuf) {radix : Nat} (upperCase : Bool)
    (value : UInt64) (args : List VarArg)
    (known : radix = 16 ∨ (radix = 8 ∨ radix = 10) ∧ upperCase = false) :
    putUint buf radix upperCase value args =
      put args (numeral (digitSymbol upperCase) radix value.toNat) := by
  rcases known with hex | ⟨oct | dec, lower⟩
  · subst hex
    obtain ⟨at_pos, text, _⟩ := convertHex_converted upperCase value buf
    exact putBuffer_eq args at_pos text
  · subst oct lower
    obtain ⟨at_pos, text, _⟩ := convertOct_converted value buf
    exact putBuffer_eq args at_pos text
  · subst dec lower
    obtain ⟨at_pos, text, _⟩ := convertDec_converted value buf
    exact putBuffer_eq args at_pos text

structure Output.Counted (done : Output) : Prop where
  count : done.count = Int32.ofNat done.out.flatten.length
  small : done.out.flatten.length ≤ 65

theorem Output.Counted.ne {done : Output} (counted : done.Counted) :
    done.count ≠ -1 := by
  have small := counted.small
  have value : done.count.toInt = done.out.flatten.length := by
    rw [counted.count]
    exact Int32.toInt_ofNat_of_lt (by omega)
  intro failed
  rw [failed] at value
  change (-1 : Int) = _ at value
  omega

private theorem put_counted (args : List VarArg) {text : List UInt8}
    (small : text.length ≤ 65) : (put args text).Counted := by
  have all : (put args text).out.flatten = text := by
    simp [put]
  constructor
  · rw [all]
    rfl
  · rw [all]
    exact small

private theorem numeral_length (symbol : Nat → UInt8) {radix value : Nat}
    (base : 1 < radix) (small : value < 2 ^ 64) :
    (numeral symbol radix value).length ≤ 64 := by
  apply numeral_length_le symbol base (by decide)
  exact Nat.lt_of_lt_of_le small (Nat.pow_le_pow_left base 64)

private theorem putInt_counted (buf : ConvBuf) (value : Int64)
    (args : List VarArg) :
    (putInt buf value args).Counted := by
  have low := value.le_toInt
  have high := value.toInt_lt
  have digits : (decimal value.toInt.natAbs).length ≤ 64 :=
    numeral_length (digitSymbol false) (by decide) (by omega)
  rw [putInt_eq]
  apply put_counted
  unfold signedDecimal
  split
  · rw [List.length_cons]
    omega
  · omega

private theorem putUint_counted (buf : ConvBuf) {radix : Nat} (upperCase : Bool)
    (value : UInt64) (args : List VarArg)
    (known : radix = 16 ∨ (radix = 8 ∨ radix = 10) ∧ upperCase = false) :
    (putUint buf radix upperCase value args).Counted := by
  have base : 1 < radix := by omega
  have digits := numeral_length (digitSymbol upperCase) base value.toNat_lt
  rw [putUint_eq buf upperCase value args known]
  exact put_counted args (by omega)

theorem outputInt_counted {buf : ConvBuf} {length : LengthMod}
    {args : List VarArg} {done : Output}
    (put_out : outputInt buf length args = .ok done) : done.Counted := by
  unfold outputInt at put_out
  cases fetched : intArgument length args with
  | error fault =>
      rw [fetched] at put_out
      cases put_out
  | ok argument =>
      rw [fetched] at put_out
      cases argument with
      | none =>
          cases put_out
          exact ⟨rfl, Nat.zero_le _⟩
      | some argument =>
          cases put_out
          exact putInt_counted buf argument.1 argument.2

theorem outputUint_counted {buf : ConvBuf} {length : LengthMod} {radix : Nat}
    {upperCase : Bool} {args : List VarArg} {done : Output}
    (known : radix = 16 ∨ (radix = 8 ∨ radix = 10) ∧ upperCase = false)
    (put_out : outputUint buf length radix upperCase args = .ok done) :
    done.Counted := by
  unfold outputUint at put_out
  cases fetched : uintArgument length args with
  | error fault =>
      rw [fetched] at put_out
      cases put_out
  | ok argument =>
      rw [fetched] at put_out
      cases argument with
      | none =>
          cases put_out
          exact ⟨rfl, Nat.zero_le _⟩
      | some argument =>
          cases put_out
          exact putUint_counted buf upperCase argument.1 argument.2 known

theorem outputChar_counted {args : List VarArg} {done : Output}
    (put_out : outputChar args = .ok done) : done.Counted := by
  unfold outputChar at put_out
  cases fetched : vaWord args with
  | error fault =>
      rw [fetched] at put_out
      cases put_out
  | ok argument =>
      rw [fetched] at put_out
      cases put_out
      exact ⟨rfl, by simp⟩

end Quadcopter

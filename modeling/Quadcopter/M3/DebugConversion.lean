import Quadcopter.M3.DebugDigits

/-
convert_dec, convert_oct and convert_hex (panda/m3/debug.c) are exact and stay
in the buffer, with room left for the sign.
-/

namespace Quadcopter

open Numerals

private theorem convertLoop_pos_lt (digit : UInt64 → UInt8)
    (next : UInt64 → UInt64)
    (left : Nat) (value : UInt64) (buf : ConvBuf) :
    (convertLoop digit next left value buf).1 < left := by
  induction left generalizing value buf with
  | zero => exact Int.negSucc_lt_zero 0
  | succ pos ih =>
      rw [convertLoop]
      split
      · omega
      · exact Int.lt_trans (ih _ _) (by omega)

private theorem convertLoop_before (digit : UInt64 → UInt8)
    (next : UInt64 → UInt64)
    (left : Nat) (value : UInt64) (buf : ConvBuf) {index : Int}
    (before : index ≤ (convertLoop digit next left value buf).1) :
    (convertLoop digit next left value buf).2 index = buf index := by
  induction left generalizing value buf with
  | zero => rfl
  | succ pos ih =>
      rw [convertLoop] at before ⊢
      split at before
      · next last =>
          rw [if_pos last]
          exact Function.update_of_ne (by omega) _ _
      · next more =>
          have at_pos := convertLoop_pos_lt digit next pos (next value)
            (Function.update buf (pos : Int) (digit value))
          rw [if_neg more, ih _ _ before]
          exact Function.update_of_ne (by omega) _ _

def digitOf (shown : UInt8) : Option Nat :=
  if '0'.toUInt8 ≤ shown ∧ shown ≤ '9'.toUInt8 then
    some (shown - '0'.toUInt8).toNat
  else if 'a'.toUInt8 ≤ shown ∧ shown ≤ 'f'.toUInt8 then
    some ((shown - 'a'.toUInt8).toNat + 10)
  else if 'A'.toUInt8 ≤ shown ∧ shown ≤ 'F'.toUInt8 then
    some ((shown - 'A'.toUInt8).toNat + 10)
  else none

private theorem digitOf_digitSymbol : ∀ upperCase digit, digit < 16 →
    digitOf (digitSymbol upperCase digit) = some digit := by decide

private theorem digitSymbol_ne_zero :
    ∀ upperCase digit, digit < 16 → 0 < digit →
      digitSymbol upperCase digit ≠ '0'.toUInt8 := by decide

def convertedText (done : Int × ConvBuf) : List UInt8 :=
  bufferText done.2 (done.1 + 1) (convBufSize - 1 - done.1)

/-- The digits of the value stand behind pos, and nothing else has changed. -/
structure DigitConversion (radix : Nat) (upperCase : Bool) (value : UInt64)
    (buf : ConvBuf) (done : Int × ConvBuf) : Prop where
  pos_nonneg : 0 ≤ done.1
  some_digit : done.1 < convBufSize - 1
  numeral : convertedText done =
    numeral (digitSymbol upperCase) radix value.toNat
  digits : ∀ shown ∈ convertedText done,
    ∃ digit < radix, digitSymbol upperCase digit = shown
  leading : value ≠ 0 → (convertedText done).head? ≠ some '0'.toUInt8
  zero : value = 0 → convertedText done = ['0'.toUInt8]
  read_back :
    readNumeral digitOf radix (convertedText done) = some value.toNat
  rest : ∀ index, index ≤ done.1 ∨ convBufSize ≤ index →
    done.2 index = buf index

/-- A buffer of 64 characters has room for 22 octal digits and more. -/
theorem numeral_length_le_of_octal (symbol : Nat → UInt8) {radix : Nat}
    (base : 8 ≤ radix) (value : UInt64) :
    (numeral symbol radix value.toNat).length ≤ 22 := by
  apply numeral_length_le symbol (by omega) (by decide)
  exact Nat.lt_of_lt_of_le (Nat.lt_trans value.toNat_lt (by decide))
    (Nat.pow_le_pow_left base 22)

private theorem numeral_head_ne_zero (upperCase : Bool) {radix : Nat}
    (base : 1 < radix) (symbols : radix ≤ 16) {value : Nat}
    (nonzero : value ≠ 0) :
    (numeral (digitSymbol upperCase) radix value).head? ≠
      some '0'.toUInt8 := by
  obtain ⟨digit, rest, positive, below, leads⟩ :=
    numeral_leading (digitSymbol upperCase) base nonzero
  rw [leads, List.head?_cons]
  intro same
  exact digitSymbol_ne_zero upperCase digit (by omega) positive
    (Option.some.inj same)

private theorem Converted.convertedText_eq {buf : ConvBuf} {shown : List UInt8}
    {done : Int × ConvBuf} (converted : Converted 64 buf shown done) :
    convertedText done = shown := by
  have at_pos := converted.pos
  have len : (convBufSize : Int) - 1 - done.1 = shown.length := by
    change (64 : Int) - 1 - _ = _
    omega
  unfold convertedText
  rw [len, converted.text]

private theorem Converted.digitConversion {radix : Nat} {upperCase : Bool}
    {value : UInt64} {buf : ConvBuf} {done : Int × ConvBuf}
    (base : 8 ≤ radix) (symbols : radix ≤ 16)
    (converted : Converted 64 buf
      (Numerals.numeral (digitSymbol upperCase) radix value.toNat) done)
    (before : ∀ index, index ≤ done.1 → done.2 index = buf index) :
    DigitConversion radix upperCase value buf done := by
  have at_pos := converted.pos
  have shown := converted.convertedText_eq
  have short := numeral_length_le_of_octal (digitSymbol upperCase) base value
  have some_digit := List.length_pos_iff.mpr
    (numeral_ne_nil (digitSymbol upperCase) radix value.toNat)
  constructor
  · omega
  · change done.1 < 64 - 1
    omega
  · exact shown
  · intro c member
    rw [shown] at member
    exact mem_numeral _ (by omega) member
  · intro nonzero
    rw [shown]
    exact numeral_head_ne_zero upperCase (by omega) symbols
      (fun same => nonzero (UInt64.toNat_inj.mp same))
  · intro zero
    rw [shown, zero]
    cases upperCase <;> rfl
  · rw [shown]
    apply readNumeral_numeral _ _ (by omega)
    intro digit below
    exact digitOf_digitSymbol upperCase digit (by omega)
  · intro index outside
    rcases outside with low | high
    · exact before index low
    · exact converted.rest index high

/-- Every 64-bit value, in every radix that output_int and output_uint use. -/
theorem convert_exact (value : UInt64) (buf : ConvBuf) :
    DigitConversion 10 false value buf (convertDec value buf) ∧
      DigitConversion 8 false value buf (convertOct value buf) ∧
      ∀ upperCase, DigitConversion 16 upperCase value buf
        (convertHex value upperCase buf) := by
  refine ⟨?_, ?_, fun upperCase => ?_⟩
  · exact (convertDec_converted value buf).digitConversion (by decide)
      (by decide) fun _ => convertLoop_before _ _ _ value buf
  · exact (convertOct_converted value buf).digitConversion (by decide)
      (by decide) fun _ => convertLoop_before _ _ _ value buf
  · exact (convertHex_converted upperCase value buf).digitConversion
      (by decide) (by decide) fun _ => convertLoop_before _ _ _ value buf

end Quadcopter

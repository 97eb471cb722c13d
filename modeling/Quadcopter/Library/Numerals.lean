import Mathlib.Data.Nat.Digits.Lemmas

/-
Numerals: the digits of a number in a radix, most significant first, each shown
by its symbol.  The number zero has one digit.  Reading a numeral gives the
number back.
-/

namespace Quadcopter.Numerals

variable {α : Type} (symbol : Nat → α)

def numeral (radix value : Nat) : List α :=
  if value = 0 then [symbol 0]
  else (Nat.digits radix value).reverse.map symbol

theorem numeral_of_lt {radix value : Nat} (small : value < radix) :
    numeral symbol radix value = [symbol value] := by
  unfold numeral
  by_cases zero : value = 0
  · rw [if_pos zero, zero]
  · rw [if_neg zero, Nat.digits_of_lt radix value zero small]
    rfl

theorem numeral_step {radix value : Nat} (base : 1 < radix)
    (large : radix ≤ value) :
    numeral symbol radix value =
      numeral symbol radix (value / radix) ++ [symbol (value % radix)] := by
  have nonzero : value ≠ 0 := by omega
  have more : value / radix ≠ 0 :=
    Nat.div_ne_zero_iff.mpr ⟨by omega, large⟩
  unfold numeral
  rw [if_neg nonzero, if_neg more,
    Nat.digits_def' base (Nat.pos_of_ne_zero nonzero), List.reverse_cons,
    List.map_append]
  rfl

theorem numeral_ne_nil (radix value : Nat) :
    numeral symbol radix value ≠ [] := by
  unfold numeral
  split
  · exact List.cons_ne_nil _ _
  · next nonzero =>
      intro empty
      have none := List.map_eq_nil_iff.mp empty
      exact Nat.digits_ne_nil_iff_ne_zero.mpr nonzero
        (List.reverse_eq_nil_iff.mp none)

theorem numeral_length_le {radix value width : Nat} (base : 1 < radix)
    (wide : 0 < width) (fits : value < radix ^ width) :
    (numeral symbol radix value).length ≤ width := by
  unfold numeral
  split
  · exact wide
  · rw [List.length_map, List.length_reverse]
    exact (Nat.digits_length_le_iff base value).mpr fits

theorem mem_numeral {radix value : Nat} (base : 1 < radix) {shown : α}
    (member : shown ∈ numeral symbol radix value) :
    ∃ digit, digit < radix ∧ symbol digit = shown := by
  unfold numeral at member
  split at member
  · exact ⟨0, by omega, (List.mem_singleton.mp member).symm⟩
  · obtain ⟨digit, listed, same⟩ := List.mem_map.mp member
    exact ⟨digit, Nat.digits_lt_base base (List.mem_reverse.mp listed), same⟩

/-- Only the number zero starts with the digit zero. -/
theorem numeral_leading {radix value : Nat} (base : 1 < radix)
    (nonzero : value ≠ 0) :
    ∃ digit rest, 0 < digit ∧ digit < radix ∧
      numeral symbol radix value = symbol digit :: rest := by
  induction value using Nat.strong_induction_on with
  | _ value ih =>
      rcases Nat.lt_or_ge value radix with small | large
      · exact ⟨value, [], Nat.pos_of_ne_zero nonzero, small,
          numeral_of_lt symbol small⟩
      · have more : value / radix ≠ 0 :=
          Nat.div_ne_zero_iff.mpr ⟨by omega, large⟩
        have lower : value / radix < value :=
          Nat.div_lt_self (Nat.pos_of_ne_zero nonzero) base
        obtain ⟨digit, rest, positive, below, leads⟩ := ih _ lower more
        refine ⟨digit, rest ++ [symbol (value % radix)], positive, below, ?_⟩
        rw [numeral_step symbol base large, leads, List.cons_append]

variable (digitOf : α → Option Nat)

/-- A character that shows no digit of the radix stops the reading. -/
def readDigit (radix value : Nat) (shown : α) : Option Nat :=
  (digitOf shown).bind fun digit =>
    if digit < radix then some (value * radix + digit) else none

def readNumeral (radix : Nat) (text : List α) : Option Nat :=
  text.foldlM (readDigit digitOf radix) 0

theorem readDigit_symbol {radix digit : Nat} (value : Nat)
    (below : digit < radix) (inverse : digitOf (symbol digit) = some digit) :
    readDigit digitOf radix value (symbol digit) =
      some (value * radix + digit) := by
  unfold readDigit
  rw [inverse, Option.bind_some, if_pos below]

theorem readNumeral_snoc (radix : Nat) (text : List α) (shown : α) :
    readNumeral digitOf radix (text ++ [shown]) =
      (readNumeral digitOf radix text).bind fun value =>
        readDigit digitOf radix value shown := by
  unfold readNumeral
  rw [List.foldlM_append]
  cases text.foldlM (readDigit digitOf radix) 0 with
  | none => rfl
  | some value => simp

theorem readNumeral_numeral {radix : Nat} (base : 1 < radix)
    (inverse : ∀ digit, digit < radix →
      digitOf (symbol digit) = some digit) (value : Nat) :
    readNumeral digitOf radix (numeral symbol radix value) = some value := by
  induction value using Nat.strong_induction_on with
  | _ value ih =>
      rcases Nat.lt_or_ge value radix with small | large
      · rw [numeral_of_lt symbol small, ← List.nil_append [symbol value],
          readNumeral_snoc]
        change readDigit digitOf radix 0 (symbol value) = some value
        rw [readDigit_symbol symbol digitOf 0 small (inverse value small),
          Nat.zero_mul, Nat.zero_add]
      · have below : value % radix < radix := Nat.mod_lt _ (by omega)
        have lower : value / radix < value :=
          Nat.div_lt_self (by omega) base
        rw [numeral_step symbol base large, readNumeral_snoc, ih _ lower,
          Option.bind_some,
          readDigit_symbol symbol digitOf _ below (inverse _ below),
          Nat.div_add_mod']

end Quadcopter.Numerals

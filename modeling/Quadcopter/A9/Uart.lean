import Quadcopter.Library.Numerals
import Quadcopter.Library.SelfDelimiting

/-
What the a9 boot loader puts on its uart (panda/a9/uart.c), and the lines in
which mmu_enable prints the translation table (panda/a9/mmu.c).

uart_putc waits until the byte has left; only the bytes matter here.
-/

namespace Quadcopter

namespace A9

open SelfDelimiting

def uartPutsBytes (text : String) : List UInt8 :=
  text.toList.flatMap (fun c =>
    if c = '\n' then ['\r'.toUInt8, c.toUInt8] else [c.toUInt8])

def uartPuthexLoop (num mask shift : UInt32) : List UInt8 :=
  if mask = 0 then []
  else
    let tmp := (num &&& mask) >>> shift
    let digit :=
      if tmp < 10 then tmp.toUInt8 + '0'.toUInt8
      else (tmp - 10).toUInt8 + 'a'.toUInt8
    digit :: uartPuthexLoop num (mask >>> 4) (shift - 4)
termination_by mask.toNat
decreasing_by
  have some : mask.toNat ≠ 0 := fun none => by
    apply ‹¬ mask = 0›
    exact UInt32.toNat_inj.mp none
  have shifted : (mask >>> 4).toNat = mask.toNat / 16 := by
    rw [UInt32.toNat_shiftRight]
    change mask.toNat >>> 4 = _
    rw [Nat.shiftRight_eq_div_pow]
  omega

def uartPuthexBytes (num : UInt32) : List UInt8 :=
  uartPuthexLoop num 0xF0000000 28

def hexSymbol (digit : Nat) : UInt8 :=
  if digit < 10 then UInt8.ofNat digit + '0'.toUInt8
  else UInt8.ofNat (digit - 10) + 'a'.toUInt8

/-- The value of a digit, as a reader of the log takes it. -/
def hexDigit (shown : UInt8) : Option Nat :=
  if '0'.toUInt8 ≤ shown ∧ shown ≤ '9'.toUInt8 then
    some (shown - '0'.toUInt8).toNat
  else if 'a'.toUInt8 ≤ shown ∧ shown ≤ 'f'.toUInt8 then
    some ((shown - 'a'.toUInt8).toNat + 10)
  else none

private theorem hexDigit_hexSymbol {digit : Nat} (small : digit < 16) :
    hexDigit (hexSymbol digit) = some digit := by
  have each : ∀ digit < 16, hexDigit (hexSymbol digit) = some digit := by
    decide
  exact each digit small

private theorem uartPuthexLoop_round (num : UInt32) {mask shift : UInt32}
    {place : Nat}
    (small : place < 32) (shift_eq : shift.toNat = place)
    (mask_eq : mask.toNat = 15 * 2 ^ place) :
    uartPuthexLoop num mask shift =
      hexSymbol (num.toNat / 2 ^ place % 16) ::
        uartPuthexLoop num (mask >>> 4) (shift - 4) := by
  have power : 0 < 2 ^ place := Nat.two_pow_pos place
  have nonzero : mask ≠ 0 := by
    intro none
    rw [none] at mask_eq
    change 0 = _ at mask_eq
    omega
  have digit_eq : ((num &&& mask) >>> shift).toNat =
      num.toNat / 2 ^ place % 16 := by
    rw [UInt32.toNat_shiftRight, shift_eq, Nat.mod_eq_of_lt small,
      UInt32.toNat_and, Nat.shiftRight_and_distrib, mask_eq,
      Nat.shiftRight_eq_div_pow, Nat.shiftRight_eq_div_pow,
      Nat.mul_div_cancel _ power]
    exact Nat.and_two_pow_sub_one_eq_mod _ 4
  have below : num.toNat / 2 ^ place % 16 < 16 := Nat.mod_lt _ (by omega)
  have word : (num &&& mask) >>> shift =
      UInt32.ofNat (num.toNat / 2 ^ place % 16) := by
    apply UInt32.toNat_inj.mp
    rw [digit_eq, UInt32.toNat_ofNat']
    omega
  have shown : ∀ digit < 16,
      (if UInt32.ofNat digit < 10 then
          (UInt32.ofNat digit).toUInt8 + '0'.toUInt8
        else (UInt32.ofNat digit - 10).toUInt8 + 'a'.toUInt8) =
          hexSymbol digit := by
    decide
  rw [uartPuthexLoop, if_neg nonzero, word, ← shown _ below]

/-- Eight digits, the first the most significant. -/
theorem uartPuthexBytes_eq (num : UInt32) :
    uartPuthexBytes num =
      [28, 24, 20, 16, 12, 8, 4, 0].map (fun place =>
        hexSymbol (num.toNat / 2 ^ place % 16)) := by
  unfold uartPuthexBytes
  rw [uartPuthexLoop_round num (by omega : 28 < 32) rfl rfl,
    uartPuthexLoop_round num (by omega : 24 < 32) rfl rfl,
    uartPuthexLoop_round num (by omega : 20 < 32) rfl rfl,
    uartPuthexLoop_round num (by omega : 16 < 32) rfl rfl,
    uartPuthexLoop_round num (by omega : 12 < 32) rfl rfl,
    uartPuthexLoop_round num (by omega : 8 < 32) rfl rfl,
    uartPuthexLoop_round num (by omega : 4 < 32) rfl rfl,
    uartPuthexLoop_round num (by omega : 0 < 32) rfl rfl, uartPuthexLoop,
    if_pos (by decide)]
  rfl

private theorem uartPuthexBytes_length (num : UInt32) :
    (uartPuthexBytes num).length = 8 := by
  rw [uartPuthexBytes_eq]
  rfl

def readHex (shown : List UInt8) : Option UInt32 :=
  (Numerals.readNumeral hexDigit 16 shown).map UInt32.ofNat

private theorem readHex_uartPuthexBytes (num : UInt32) :
    readHex (uartPuthexBytes num) = some num := by
  have bound := num.toNat_lt
  have step : ∀ (value place : Nat), Numerals.readDigit hexDigit 16 value
      (hexSymbol (num.toNat / 2 ^ place % 16)) =
        some (value * 16 + num.toNat / 2 ^ place % 16) := by
    intro value place
    have below : num.toNat / 2 ^ place % 16 < 16 := Nat.mod_lt _ (by omega)
    exact Numerals.readDigit_symbol hexSymbol hexDigit value below
      (hexDigit_hexSymbol below)
  unfold readHex Numerals.readNumeral
  rw [uartPuthexBytes_eq]
  simp only [List.map_cons, List.map_nil, List.foldlM_cons, List.foldlM_nil,
    step, Option.bind_eq_bind, Option.bind_some, Option.pure_def,
    Option.map_some, Option.some.injEq]
  apply UInt32.toNat_inj.mp
  rw [UInt32.toNat_ofNat']
  omega

def dumpLine (entry : UInt32 × UInt32) : List UInt8 :=
  uartPuthexBytes entry.1 ++
    (uartPutsBytes ": " ++ (uartPuthexBytes entry.2 ++ uartPutsBytes "\n"))

def readLine (line : List UInt8) : Option (UInt32 × UInt32) := do
  let address ← readHex (line.take 8)
  let word ← readHex ((line.drop 10).take 8)
  return (address, word)

private theorem dumpLine_length (entry : UInt32 × UInt32) :
    (dumpLine entry).length = 20 := by
  unfold dumpLine
  simp only [List.length_append, uartPuthexBytes_length]
  rfl

private theorem readLine_dumpLine (entry : UInt32 × UInt32) :
    readLine (dumpLine entry) = some entry := by
  have first : (dumpLine entry).take 8 = uartPuthexBytes entry.1 :=
    List.take_left' (uartPuthexBytes_length entry.1)
  have second : (dumpLine entry).drop 10 =
      uartPuthexBytes entry.2 ++ uartPutsBytes "\n" := by
    unfold dumpLine
    rw [← List.append_assoc]
    apply List.drop_left'
    rw [List.length_append, uartPuthexBytes_length]
    rfl
  unfold readLine
  rw [first, second, List.take_left' (uartPuthexBytes_length entry.2),
    readHex_uartPuthexBytes, readHex_uartPuthexBytes]
  rfl

/-- The dump is a code of the entries that it lists. -/
def dumpCode : Code (UInt32 × UInt32) UInt8 :=
  .ofWidth dumpLine 20 readLine (by omega) dumpLine_length readLine_dumpLine

theorem dumpCode_encode (entry : UInt32 × UInt32) :
    dumpCode.encode entry = dumpLine entry := rfl

end A9

end Quadcopter

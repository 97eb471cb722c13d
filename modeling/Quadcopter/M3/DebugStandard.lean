import Quadcopter.M3.DebugFormat

/-
The text that the C standard prescribes for a format string with integer
conversions, and the text that debug_printf (panda/m3/debug.c) emits.

output_int casts the argument of %hhd and %hhi to char, which is unsigned on
this ABI and not the standard's signed char.
-/

namespace Quadcopter

open Numerals

def modifierOf : List ModifierLetter → Option LengthMod
  | [] => some .none
  | [.h, .h] => some .hh
  | [.h] => some .h
  | [.l] => some .l
  | [.l, .l] => some .ll
  | [.j] => some .j
  | [.z] => some .z
  | [.t] => some .t
  | _ => none

/-- The value of a signed argument: signed char, short, int, long, long long,
intmax_t or ptrdiff_t.  `none` if the argument has another size. -/
def standardSigned : LengthMod → VarArg → Option Int
  | .none, .word bits => some bits.toInt32.toInt
  | .hh, .word bits => some bits.toUInt8.toInt8.toInt
  | .h, .word bits => some bits.toUInt16.toInt16.toInt
  | .l, .word bits => some bits.toInt32.toInt
  | .ll, .doubleWord bits => some bits.toInt64.toInt
  | .j, .doubleWord bits => some bits.toInt64.toInt
  | .t, .word bits => some bits.toInt32.toInt
  | _, _ => none

/-- The value of an unsigned argument: unsigned char, unsigned short, unsigned
int, unsigned long, unsigned long long, uintmax_t or size_t. -/
def standardUnsigned : LengthMod → VarArg → Option Nat
  | .none, .word bits => some bits.toNat
  | .hh, .word bits => some bits.toUInt8.toNat
  | .h, .word bits => some bits.toUInt16.toNat
  | .l, .word bits => some bits.toNat
  | .ll, .doubleWord bits => some bits.toNat
  | .j, .doubleWord bits => some bits.toNat
  | .z, .word bits => some bits.toNat
  | _, _ => none

def standardChar : LengthMod → VarArg → Option UInt8
  | .none, .word bits => some bits.toUInt8
  | _, _ => none

def Conversion.standard (conv : Conversion) (length : LengthMod)
    (arg : VarArg) : Option (List UInt8) :=
  match conv with
  | .d => (standardSigned length arg).map signedDecimal
  | .i => (standardSigned length arg).map signedDecimal
  | .o => (standardUnsigned length arg).map (numeral (digitSymbol false) 8)
  | .u => (standardUnsigned length arg).map (numeral (digitSymbol false) 10)
  | .x => (standardUnsigned length arg).map (numeral (digitSymbol false) 16)
  | .X => (standardUnsigned length arg).map (numeral (digitSymbol true) 16)
  | .c => (standardChar length arg).map (fun c => [c])

/-- `none` where the standard leaves the format or its arguments undefined, and
for %zd, %zi, %to, %tu, %tx and %tX. -/
def standardText : List Item → List VarArg → Option (List UInt8)
  | [], _ => some []
  | .literal c _ :: items, args => do
      let rest ← standardText items args
      return c :: rest
  | .percent letters :: items, args =>
      if letters = [] then do
        let rest ← standardText items args
        return '%'.toUInt8 :: rest
      else none
  | .conversion letters conv :: items, arg :: args => do
      let length ← modifierOf letters
      let shown ← conv.standard length arg
      let rest ← standardText items args
      return shown ++ rest
  | .conversion _ _ :: _, [] => none

def VarArg.lowByte : VarArg → UInt8
  | .word bits => bits.toUInt8
  | .doubleWord bits => bits.toUInt8

def SignedChar (taker : LengthMod × Conversion) : Prop :=
  taker.1 = .hh ∧ (taker.2 = .d ∨ taker.2 = .i)

instance (taker : LengthMod × Conversion) : Decidable (SignedChar taker) :=
  inferInstanceAs (Decidable (_ ∧ _))

def printedAs (taker : LengthMod × Conversion) (arg : VarArg)
    (shown : List UInt8) : List UInt8 :=
  if SignedChar taker then decimal arg.lowByte.toNat else shown

private theorem lengthOf_of_modifierOf {letters : List ModifierLetter}
    {length : LengthMod} (known : modifierOf letters = some length) :
    lengthOf letters = length := by
  unfold modifierOf at known
  split at known <;> first | (cases known; rfl) | cases known

private theorem toInt_lowByte (byte : UInt8) :
    byte.toUInt64.toInt64.toInt = byte.toNat := by
  have bound := byte.toNat_lt
  change byte.toUInt64.toBitVec.toInt = _
  have whole : byte.toUInt64.toBitVec.toNat = byte.toNat :=
    UInt8.toNat_toUInt64 byte
  rw [BitVec.toInt_eq_toNat_of_lt (by omega), whole]

private theorem intArgument_eq {length : LengthMod} {arg : VarArg} {value : Int}
    (standard : standardSigned length arg = some value)
    (args : List VarArg) :
    ∃ read, intArgument length (arg :: args) = .ok (some (read, args)) ∧
      read.toInt = if length = .hh then (arg.lowByte.toNat : Int) else value := by
  cases length with
  | none =>
      cases arg with
      | word bits =>
          cases standard
          exact ⟨_, rfl, Int32.toInt_toInt64 _⟩
      | doubleWord bits => cases standard
  | hh =>
      cases arg with
      | word bits => exact ⟨_, rfl, toInt_lowByte _⟩
      | doubleWord bits => cases standard
  | h =>
      cases arg with
      | word bits =>
          cases standard
          exact ⟨_, rfl, Int16.toInt_toInt64 _⟩
      | doubleWord bits => cases standard
  | l =>
      cases arg with
      | word bits =>
          cases standard
          exact ⟨_, rfl, Int32.toInt_toInt64 _⟩
      | doubleWord bits => cases standard
  | ll =>
      cases arg with
      | word bits => cases standard
      | doubleWord bits =>
          cases standard
          exact ⟨_, rfl, rfl⟩
  | j =>
      cases arg with
      | word bits => cases standard
      | doubleWord bits =>
          cases standard
          exact ⟨_, rfl, rfl⟩
  | z => cases arg <;> cases standard
  | t =>
      cases arg with
      | word bits =>
          cases standard
          exact ⟨_, rfl, Int32.toInt_toInt64 _⟩
      | doubleWord bits => cases standard

private theorem uintArgument_eq {length : LengthMod} {arg : VarArg}
    {value : Nat}
    (standard : standardUnsigned length arg = some value)
    (args : List VarArg) :
    ∃ read, uintArgument length (arg :: args) = .ok (some (read, args)) ∧
      read.toNat = value := by
  cases length <;> cases arg <;> cases standard <;>
    exact ⟨_, rfl, by simp⟩

private theorem outputInt_eq (buf : ConvBuf) {length : LengthMod} {arg : VarArg}
    {value : Int} (standard : standardSigned length arg = some value)
    (args : List VarArg) :
    outputInt buf length (arg :: args) =
      .ok (put args
        (if length = .hh then decimal arg.lowByte.toNat
          else signedDecimal value)) := by
  obtain ⟨read, fetched, read_eq⟩ := intArgument_eq standard args
  have text : signedDecimal read.toInt =
      if length = .hh then decimal arg.lowByte.toNat
        else signedDecimal value := by
    rw [read_eq]
    by_cases char : length = .hh
    · have nonneg : ¬ (arg.lowByte.toNat : Int) < 0 := by omega
      rw [if_pos char, if_pos char, signedDecimal, if_neg nonneg,
        Int.natAbs_natCast]
    · rw [if_neg char, if_neg char]
  unfold outputInt
  rw [fetched, ← text, ← putInt_eq buf]
  rfl

private theorem outputUint_eq (buf : ConvBuf) {length : LengthMod} {radix : Nat}
    {upperCase : Bool} {arg : VarArg} {value : Nat}
    (known : radix = 16 ∨ (radix = 8 ∨ radix = 10) ∧ upperCase = false)
    (standard : standardUnsigned length arg = some value)
    (args : List VarArg) :
    outputUint buf length radix upperCase (arg :: args) =
      .ok (put args (numeral (digitSymbol upperCase) radix value)) := by
  obtain ⟨read, fetched, read_eq⟩ := uintArgument_eq standard args
  unfold outputUint
  rw [fetched, ← read_eq, ← putUint_eq buf upperCase read args known]
  rfl

private theorem output_eq (buf : ConvBuf) {conv : Conversion}
    {length : LengthMod}
    {arg : VarArg} {shown : List UInt8}
    (standard : conv.standard length arg = some shown) (args : List VarArg) :
    conv.output buf length (arg :: args) =
      .ok (put args (printedAs (length, conv) arg shown)) := by
  have signed : (conv = .d ∨ conv = .i) →
      (standardSigned length arg).map signedDecimal = some shown →
      outputInt buf length (arg :: args) =
        .ok (put args (printedAs (length, conv) arg shown)) := by
    intro is_signed known
    obtain ⟨value, read, text⟩ := Option.map_eq_some_iff.mp known
    rw [outputInt_eq buf read args, text]
    simp only [printedAs, SignedChar, is_signed, and_true]
  have unsigned : ∀ radix upperCase,
      (radix = 16 ∨ (radix = 8 ∨ radix = 10) ∧ upperCase = false) →
      ¬ (conv = .d ∨ conv = .i) →
      (standardUnsigned length arg).map
        (numeral (digitSymbol upperCase) radix) = some shown →
      outputUint buf length radix upperCase (arg :: args) =
        .ok (put args (printedAs (length, conv) arg shown)) := by
    intro radix upperCase known_radix is_unsigned known
    obtain ⟨value, read, text⟩ := Option.map_eq_some_iff.mp known
    rw [outputUint_eq buf known_radix read args, text]
    simp only [printedAs, SignedChar, is_unsigned, and_false, if_false]
  cases conv with
  | d => exact signed (by decide) standard
  | i => exact signed (by decide) standard
  | o => exact unsigned 8 false (by decide) (by decide) standard
  | u => exact unsigned 10 false (by decide) (by decide) standard
  | x => exact unsigned 16 false (by decide) (by decide) standard
  | X => exact unsigned 16 true (by decide) (by decide) standard
  | c =>
      cases length <;> cases arg <;> cases standard
      rfl

/-! ### The whole text -/

/-- No %hhd or %hhi has an argument whose low byte is negative as a signed
char. -/
def SignedCharsSmall (items : List Item) (args : List VarArg) : Prop :=
  ∀ entry ∈ (takers items).zip args,
    SignedChar entry.1 → entry.2.lowByte.toNat < 128

private theorem minus_not_digit {value : Nat} :
    '-'.toUInt8 ∉ decimal value := by
  intro member
  obtain ⟨digit, small, shown⟩ := mem_numeral _ (by decide) member
  have no_digit : ∀ digit, digit < 10 →
      digitSymbol false digit ≠ '-'.toUInt8 := by decide
  exact no_digit digit small shown

private theorem signedDecimal_low (bits : UInt32)
    (small : bits.toUInt8.toNat < 128) :
    signedDecimal bits.toUInt8.toInt8.toInt = decimal bits.toUInt8.toNat := by
  have value : bits.toUInt8.toInt8.toInt = bits.toUInt8.toNat := by
    change bits.toUInt8.toBitVec.toInt = _
    apply BitVec.toInt_eq_toNat_of_lt
    change 2 * bits.toUInt8.toNat < 2 ^ 8
    omega
  have nonneg : ¬ ((bits.toUInt8.toNat : Int) < 0) := by omega
  rw [value, signedDecimal, if_neg nonneg, Int.natAbs_natCast]

private theorem signedDecimal_high (bits : UInt32)
    (large : ¬ bits.toUInt8.toNat < 128) :
    ∃ shown, signedDecimal bits.toUInt8.toInt8.toInt =
      '-'.toUInt8 :: shown := by
  have negative : bits.toUInt8.toInt8.toInt < 0 := by
    change bits.toUInt8.toBitVec.toInt < 0
    have whole := BitVec.toInt_eq_toNat_cond bits.toUInt8.toBitVec
    have bound := bits.toUInt8.toBitVec.isLt
    change ¬ bits.toUInt8.toBitVec.toNat < 128 at large
    split at whole <;> omega
  exact ⟨_, if_pos negative⟩

private theorem standard_signedChar {taker : LengthMod × Conversion}
    {arg : VarArg}
    {shown : List UInt8} (signed_char : SignedChar taker)
    (standard : taker.2.standard taker.1 arg = some shown) :
    ∃ bits, arg = .word bits ∧
      shown = signedDecimal bits.toUInt8.toInt8.toInt := by
  obtain ⟨length, conv⟩ := taker
  obtain ⟨is_hh, is_signed⟩ := signed_char
  dsimp only at is_hh is_signed standard
  subst is_hh
  rcases is_signed with is_d | is_i
  · subst is_d
    cases arg with
    | word bits => exact ⟨bits, rfl, (Option.some.inj standard).symm⟩
    | doubleWord bits => cases standard
  · subst is_i
    cases arg with
    | word bits => exact ⟨bits, rfl, (Option.some.inj standard).symm⟩
    | doubleWord bits => cases standard

/-- The first text that differs begins with a digit instead of the sign. -/
theorem printedAs_append_iff {taker : LengthMod × Conversion} {arg : VarArg}
    {shown : List UInt8} (standard : taker.2.standard taker.1 arg = some shown)
    (printed rest : List UInt8) :
    printedAs taker arg shown ++ printed = shown ++ rest ↔
      (SignedChar taker → arg.lowByte.toNat < 128) ∧ printed = rest := by
  unfold printedAs
  by_cases signed_char : SignedChar taker
  · obtain ⟨bits, is_word, text⟩ := standard_signedChar signed_char standard
    subst is_word
    rw [if_pos signed_char, text]
    change decimal bits.toUInt8.toNat ++ printed = _ ↔
      (_ → bits.toUInt8.toNat < 128) ∧ _
    by_cases small : bits.toUInt8.toNat < 128
    · rw [signedDecimal_low bits small]
      constructor
      · intro same
        exact ⟨fun _ => small, List.append_cancel_left same⟩
      · intro ⟨_, same⟩
        rw [same]
    · obtain ⟨digits, signed⟩ := signedDecimal_high bits small
      constructor
      · intro same
        rw [signed] at same
        cases first : decimal bits.toUInt8.toNat with
        | nil => exact absurd first (numeral_ne_nil _ _ _)
        | cons symbol symbols =>
            rw [first, List.cons_append, List.cons_append] at same
            have is_sign := (List.cons.inj same).1
            have member : '-'.toUInt8 ∈ decimal bits.toUInt8.toNat := by
              rw [first, is_sign]
              exact List.mem_cons_self
            exact absurd member minus_not_digit
      · intro ⟨fits, _⟩
        exact absurd (fits signed_char) small
  · rw [if_neg signed_char]
    constructor
    · intro same
      exact ⟨fun is_signed => absurd is_signed signed_char,
        List.append_cancel_left same⟩
    · intro ⟨_, same⟩
      rw [same]

private theorem signedCharsSmall_cons (letters : List ModifierLetter)
    (conv : Conversion) (items : List Item) (arg : VarArg)
    (args : List VarArg) :
    SignedCharsSmall (.conversion letters conv :: items) (arg :: args) ↔
      (SignedChar (lengthOf letters, conv) → arg.lowByte.toNat < 128) ∧
        SignedCharsSmall items args :=
  List.forall_mem_cons

/-- One conversion and the text behind it. -/
theorem printLoop_conversion_standard (buf : ConvBuf) (fuel : Nat)
    (pending tail rest : List UInt8) {letters : List ModifierLetter}
    {conv : Conversion} {arg : VarArg} {args : List VarArg}
    {shown : List UInt8} (count : Int32)
    (standard : conv.standard (lengthOf letters) arg = some shown)
    {later : Prop}
    (ran_rest : ∀ count, ∃ printed,
      printLoop buf fuel (.within tail) 0 count args = .ok printed ∧
        (printed.text = rest ↔ later)) :
    ∃ printed,
      printLoop buf (fuel + 1)
          (.within (pending ++ ((Item.conversion letters conv).chars ++ tail)))
          pending.length count (arg :: args) = .ok printed ∧
        (printed.text = pending ++ (shown ++ rest) ↔
          (SignedChar (lengthOf letters, conv) → arg.lowByte.toNat < 128) ∧
            later) := by
  have put_out := output_eq buf standard args
  have looped := printLoop_conversion buf fuel pending tail letters conv count
    (arg :: args) put_out
  obtain ⟨printed, ran, same⟩ := ran_rest (count +
    Int32.ofNat pending.length +
      (put args (printedAs (lengthOf letters, conv) arg shown)).count)
  obtain ⟨whole, ran_whole, text_whole⟩ := continued_ok pending (arg :: args)
    (put args (printedAs (lengthOf letters, conv) arg shown)) printed
  refine ⟨whole, ?_, ?_⟩
  · rw [looped, ← ran_whole, ← ran]
    rfl
  · have put_text : (put args
        (printedAs (lengthOf letters, conv) arg shown)).out.flatten =
          printedAs (lengthOf letters, conv) arg shown := by
      simp [put]
    rw [text_whole, List.append_cancel_left_eq, put_text, ← same]
    exact printedAs_append_iff standard printed.text rest

private theorem printLoop_percent_standard (buf : ConvBuf) (fuel : Nat)
    (pending tail rest : List UInt8) (letters : List ModifierLetter)
    {args : List VarArg} (count : Int32) {later : Prop}
    (ran_rest : ∀ count, ∃ printed,
      printLoop buf fuel (.within tail) 0 count args = .ok printed ∧
        (printed.text = rest ↔ later)) :
    ∃ printed,
      printLoop buf (fuel + 1)
          (.within (pending ++ ((Item.percent letters).chars ++ tail)))
          pending.length count args = .ok printed ∧
        (printed.text = pending ++ '%'.toUInt8 :: rest ↔ later) := by
  obtain ⟨printed, ran, same⟩ :=
    ran_rest (count + Int32.ofNat pending.length + 1)
  obtain ⟨whole, ran_whole, text_whole⟩ :=
    continued_ok pending args (percentOutput args) printed
  refine ⟨whole, ?_, ?_⟩
  · rw [← ran_whole, ← ran]
    exact printLoop_percent buf fuel pending tail letters count args
  · rw [text_whole, List.append_cancel_left_eq]
    change '%'.toUInt8 :: printed.text = '%'.toUInt8 :: rest ↔ _
    rw [List.cons.injEq, eq_self, true_and]
    exact same

private theorem printLoop_standard (buf : ConvBuf) (items : List Item)
    (pending : List UInt8) {args : List VarArg} {text : List UInt8}
    (standard : standardText items args = some text) (count : Int32)
    {fuel : Nat} (enough : items.length < fuel) :
    ∃ printed, printLoop buf fuel (.within (pending ++ render items))
        pending.length count args = .ok printed ∧
      (printed.text = pending ++ text ↔ SignedCharsSmall items args) := by
  induction items generalizing pending args text count fuel with
  | nil =>
      obtain ⟨fuel, rfl, _⟩ := round_of_enough enough
      have ran := printLoop_end buf fuel pending count args
      cases standard
      refine ⟨{ ret := count + Int32.ofNat pending.length
                calls := [.outFunc pending] }, ?_, ?_⟩
      · rw [render, List.flatMap_nil, List.append_nil]
        exact ran
      · simp [Printed.text, PrintCall.text, SignedCharsSmall, takers]
  | cons item items ih =>
      obtain ⟨fuel, rfl, enough_rest⟩ := round_of_enough enough
      cases item with
      | literal c plain =>
          obtain ⟨rest, standard_rest, shown⟩ :=
            Option.bind_eq_some_iff.mp standard
          cases shown
          obtain ⟨printed, ran, same⟩ :=
            ih (pending ++ [c]) standard_rest count enough_rest
          refine ⟨printed, ?_, ?_⟩
          · rw [← ran]
            exact printLoop_literal buf fuel pending (render items) plain count
              args
          · rw [List.append_assoc] at same
            exact same
      | percent letters =>
          have plain : letters = [] := by
            by_cases empty : letters = []
            · exact empty
            · rw [standardText, if_neg empty] at standard
              cases standard
          rw [standardText, if_pos plain] at standard
          obtain ⟨rest, standard_rest, shown⟩ :=
            Option.bind_eq_some_iff.mp standard
          cases shown
          exact printLoop_percent_standard buf fuel pending (render items) rest
            letters count
            (fun count => ih [] standard_rest count enough_rest)
      | conversion letters conv =>
          cases args with
          | nil => cases standard
          | cons arg args =>
              obtain ⟨length, known, standard⟩ :=
                Option.bind_eq_some_iff.mp standard
              obtain ⟨shown, shown_as, standard⟩ :=
                Option.bind_eq_some_iff.mp standard
              obtain ⟨rest, standard_rest, whole⟩ :=
                Option.bind_eq_some_iff.mp standard
              cases whole
              rw [← lengthOf_of_modifierOf known] at shown_as
              rw [signedCharsSmall_cons]
              exact printLoop_conversion_standard buf fuel pending
                (render items) rest count shown_as
                (fun count => ih [] standard_rest count enough_rest)

/-- The emitted text is the one of the standard if and only if no %hhd or %hhi
shows a negative signed char. -/
theorem debug_printf_standard_iff (buf : ConvBuf) (items : List Item)
    (args : List VarArg) (text : List UInt8)
    (standard : standardText items args = some text) :
    (∃ printed, doPrintf buf (render items) args = .ok printed ∧
      printed.text = text) ↔ SignedCharsSmall items args := by
  have enough : items.length < (render items).length + 1 :=
    Nat.lt_succ_of_le (items_length_le items)
  obtain ⟨printed, ran, same⟩ :=
    printLoop_standard buf items [] standard 0 enough
  have ran_whole : doPrintf buf (render items) args = .ok printed := ran
  rw [ran_whole, ← same]
  constructor
  · intro ⟨other, is_printed, text_eq⟩
    cases is_printed
    exact text_eq
  · intro text_eq
    exact ⟨printed, rfl, text_eq⟩

def smallestItems : List Item :=
  [.conversion [.h, .h] .d, .literal ' '.toUInt8 (by decide),
    .conversion [.l, .l] .d]

theorem debug_printf_standard_of_smallest :
    ∃ printed, doPrintf (fun _ => 0) (render smallestItems)
        [.word 5, .doubleWord 0x8000000000000000] = .ok printed ∧
      printed.text = "5 -9223372036854775808".toList.map Char.toUInt8 := by
  apply (debug_printf_standard_iff (fun _ => 0) smallestItems
    [.word 5, .doubleWord 0x8000000000000000] _ (by decide)).mpr
  unfold SignedCharsSmall
  decide

/-- %hhd with -1 -/
theorem debug_printf_char_unsigned :
    ¬ ∀ (buf : ConvBuf) (items : List Item) (args : List VarArg)
      (text : List UInt8), standardText items args = some text →
      ∃ printed, doPrintf buf (render items) args = .ok printed ∧
        printed.text = text := by
  intro agrees
  obtain ⟨printed, ran, text⟩ := agrees (fun _ => 0)
    [.conversion [.h, .h] .d] [.word 0xFFFFFFFF] ['-'.toUInt8, '1'.toUInt8]
    (by decide)
  have shown : doPrintf (fun _ => 0) (render [.conversion [.h, .h] .d])
      [.word 0xFFFFFFFF] =
        .ok { ret := 3
              calls := [.outFunc [],
                .parseSpecifier [.word 0xFFFFFFFF] []
                  [['2'.toUInt8, '5'.toUInt8, '5'.toUInt8]],
                .outFunc []] } := by decide
  rw [shown] at ran
  cases ran
  exact absurd text (by decide)

end Quadcopter

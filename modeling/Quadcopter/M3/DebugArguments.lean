import Quadcopter.M3.DebugFormat

/-
Which argument every conversion of do_printf (panda/m3/debug.c) consumes.

The default branches of the switches in output_int and output_uint return
without a va_arg: %zd and %zi, and %to, %tu, %tx and %tX.
-/

namespace Quadcopter

open Numerals

def VarArg.isDouble : VarArg → Bool
  | .word _ => false
  | .doubleWord _ => true

def asksDouble (taker : LengthMod × Conversion) : Bool :=
  match taker.2 with
  | .c => false
  | _ => taker.1 = .ll || taker.1 = .j

/-- The i-th argument has the size of the i-th conversion. -/
structure Supplied (items : List Item) (args : List VarArg) : Prop where
  enough : (takers items).length ≤ args.length
  sizes : ∀ entry ∈ (takers items).zip args,
    entry.2.isDouble = asksDouble entry.1

theorem Supplied.cons {letters : List ModifierLetter} {conv : Conversion}
    {items : List Item} {args : List VarArg}
    (supplied : Supplied (.conversion letters conv :: items) args) :
    ∃ arg rest, args = arg :: rest ∧
      arg.isDouble = asksDouble (lengthOf letters, conv) ∧
      Supplied items rest := by
  cases args with
  | nil => exact absurd supplied.enough (Nat.not_succ_le_zero _)
  | cons arg rest =>
      have sizes := List.forall_mem_cons.mp supplied.sizes
      exact ⟨arg, rest, rfl, sizes.1,
        ⟨Nat.le_of_succ_le_succ supplied.enough, sizes.2⟩⟩

def Conversion.alone (conv : Conversion) (buf : ConvBuf) (length : LengthMod)
    (arg : VarArg) : List (List UInt8) :=
  match conv.output buf length [arg] with
  | .ok done => done.out
  | .error _ => []

/-- The calls of parse_specifier, if every conversion consumes its own argument
and prints what it does alone. -/
def ownCalls (buf : ConvBuf) : List Item → List VarArg → List PrintCall
  | [], _ => []
  | .literal _ _ :: items, args => ownCalls buf items args
  | .percent _ :: items, args =>
      .parseSpecifier args args [['%'.toUInt8]] :: ownCalls buf items args
  | .conversion letters conv :: items, arg :: args =>
      .parseSpecifier (arg :: args) args
          (conv.alone buf (lengthOf letters) arg) ::
        ownCalls buf items args
  | .conversion _ _ :: _, [] => []

def PrintCall.isSpecifier : PrintCall → Bool
  | .outFunc _ => false
  | .parseSpecifier _ _ _ => true

def Printed.specifiers (printed : Printed) : List PrintCall :=
  printed.calls.filter PrintCall.isSpecifier

def Specifies (result : Except PrintFault Printed)
    (calls : List PrintCall) : Prop :=
  ∃ printed, result = .ok printed ∧ printed.specifiers = calls

def InStep (buf : ConvBuf) (items : List Item) (args : List VarArg) : Prop :=
  Specifies (doPrintf buf (render items) args) (ownCalls buf items args)

/-- The switch of the output function has a case for the modifier. -/
def Fetches (taker : LengthMod × Conversion) : Prop :=
  match taker.2 with
  | .d => taker.1 ≠ .z
  | .i => taker.1 ≠ .z
  | .o => taker.1 ≠ .t
  | .u => taker.1 ≠ .t
  | .x => taker.1 ≠ .t
  | .X => taker.1 ≠ .t
  | .c => True

instance (taker : LengthMod × Conversion) : Decidable (Fetches taker) := by
  unfold Fetches
  split <;> infer_instance

private theorem intArgument_fetch {length : LengthMod} {arg : VarArg}
    (has_case : length ≠ .z)
    (size : arg.isDouble = (length = .ll || length = .j)) :
    ∃ value, ∀ args,
      intArgument length (arg :: args) = .ok (some (value, args)) := by
  cases length <;> cases arg <;>
    first
      | exact absurd rfl has_case
      | exact ⟨_, fun _ => rfl⟩
      | cases size

private theorem uintArgument_fetch {length : LengthMod} {arg : VarArg}
    (has_case : length ≠ .t)
    (size : arg.isDouble = (length = .ll || length = .j)) :
    ∃ value, ∀ args,
      uintArgument length (arg :: args) = .ok (some (value, args)) := by
  cases length <;> cases arg <;>
    first
      | exact absurd rfl has_case
      | exact ⟨_, fun _ => rfl⟩
      | cases size

private theorem outputInt_fetch (buf : ConvBuf) {length : LengthMod}
    {arg : VarArg}
    (has_case : length ≠ .z)
    (size : arg.isDouble = (length = .ll || length = .j)) :
    ∃ text, ∀ args,
      outputInt buf length (arg :: args) = .ok (put args text) := by
  obtain ⟨value, fetched⟩ := intArgument_fetch has_case size
  refine ⟨signedDecimal value.toInt, ?_⟩
  intro args
  unfold outputInt
  rw [fetched, ← putInt_eq buf]
  rfl

private theorem outputUint_fetch (buf : ConvBuf) {length : LengthMod}
    {radix : Nat}
    {upperCase : Bool} {arg : VarArg}
    (known : radix = 16 ∨ (radix = 8 ∨ radix = 10) ∧ upperCase = false)
    (has_case : length ≠ .t)
    (size : arg.isDouble = (length = .ll || length = .j)) :
    ∃ text, ∀ args,
      outputUint buf length radix upperCase (arg :: args) =
        .ok (put args text) := by
  obtain ⟨value, fetched⟩ := uintArgument_fetch has_case size
  refine ⟨numeral (digitSymbol upperCase) radix value.toNat, ?_⟩
  intro args
  unfold outputUint
  rw [fetched, ← putUint_eq buf upperCase value args known]
  rfl

private theorem outputChar_fetch {arg : VarArg} (size : arg.isDouble = false) :
    ∃ text, ∀ args, outputChar (arg :: args) = .ok (put args text) := by
  cases arg with
  | word bits => exact ⟨[bits.toUInt8], fun _ => rfl⟩
  | doubleWord bits => cases size

private theorem output_fetch (buf : ConvBuf) {taker : LengthMod × Conversion}
    {arg : VarArg} (fetches : Fetches taker)
    (size : arg.isDouble = asksDouble taker) :
    ∃ text, ∀ args, taker.2.output buf taker.1 (arg :: args) =
      .ok (put args text) := by
  obtain ⟨length, conv⟩ := taker
  cases conv with
  | c => exact outputChar_fetch size
  | d => exact outputInt_fetch buf fetches size
  | i => exact outputInt_fetch buf fetches size
  | o => exact outputUint_fetch buf (by decide) fetches size
  | u => exact outputUint_fetch buf (by decide) fetches size
  | x => exact outputUint_fetch buf (by decide) fetches size
  | X => exact outputUint_fetch buf (by decide) fetches size

private theorem output_alone (buf : ConvBuf) {taker : LengthMod × Conversion}
    {arg : VarArg} (fetches : Fetches taker)
    (size : arg.isDouble = asksDouble taker) (args : List VarArg) :
    ∃ done, taker.2.output buf taker.1 (arg :: args) = .ok done ∧
      done.args = args ∧ done.out = taker.2.alone buf taker.1 arg := by
  obtain ⟨text, printed⟩ := output_fetch buf fetches size
  refine ⟨put args text, printed args, rfl, ?_⟩
  unfold Conversion.alone
  rw [printed []]
  rfl

private theorem output_skips (buf : ConvBuf) {taker : LengthMod × Conversion}
    (skips : ¬ Fetches taker) (args : List VarArg) :
    taker.2.output buf taker.1 args =
      .ok { count := 0
            args
            out := [] } := by
  obtain ⟨length, conv⟩ := taker
  cases conv with
  | c => exact absurd trivial skips
  | _ =>
      have no_case := Decidable.not_not.mp skips
      dsimp only at no_case
      subst no_case
      rfl

private theorem Supplied.behind_literal {c : UInt8}
    {plain : c ≠ 0 ∧ c ≠ '%'.toUInt8}
    {items : List Item} {args : List VarArg}
    (supplied : Supplied (.literal c plain :: items) args) :
    Supplied items args :=
  ⟨supplied.enough, supplied.sizes⟩

private theorem Supplied.behind_percent {letters : List ModifierLetter}
    {items : List Item} {args : List VarArg}
    (supplied : Supplied (.percent letters :: items) args) :
    Supplied items args :=
  ⟨supplied.enough, supplied.sizes⟩

private theorem specifies_continued (pending : List UInt8)
    (args after : List VarArg)
    (done : Output) (out : List (List UInt8))
    (later : Except PrintFault Printed) (calls : List PrintCall) :
    Specifies (continued pending args done later)
        (.parseSpecifier args after out :: calls) ↔
      (done.args = after ∧ done.out = out) ∧ Specifies later calls := by
  cases later with
  | error fault =>
      constructor
      · intro ⟨printed, failed, _⟩
        cases failed
      · intro ⟨_, printed, failed, _⟩
        cases failed
  | ok printed =>
      have head_and_rest : Specifies (continued pending args done (.ok printed))
          (.parseSpecifier args after out :: calls) ↔
            PrintCall.parseSpecifier args done.args done.out ::
              printed.specifiers = .parseSpecifier args after out :: calls := by
        constructor
        · intro ⟨whole, is_whole, same⟩
          cases is_whole
          exact same
        · intro same
          exact ⟨_, rfl, same⟩
      have rest : Specifies (.ok printed) calls ↔
          printed.specifiers = calls := by
        constructor
        · intro ⟨whole, is_whole, same⟩
          cases is_whole
          exact same
        · intro same
          exact ⟨printed, rfl, same⟩
      rw [head_and_rest, rest]
      simp only [List.cons.injEq, PrintCall.parseSpecifier.injEq, true_and]

/-- One conversion and what is behind it. -/
theorem printLoop_conversion_specifies (buf : ConvBuf) (fuel : Nat)
    (pending tail : List UInt8) (letters : List ModifierLetter)
    (conv : Conversion) {arg : VarArg}
    (size : arg.isDouble = asksDouble (lengthOf letters, conv))
    (args : List VarArg) (count : Int32) {calls : List PrintCall}
    {later : Prop}
    (rest : ∀ count,
      Specifies (printLoop buf fuel (.within tail) 0 count args) calls ↔
        later) :
    Specifies (printLoop buf (fuel + 1)
        (.within (pending ++ ((Item.conversion letters conv).chars ++ tail)))
        pending.length count (arg :: args))
      (.parseSpecifier (arg :: args) args
        (conv.alone buf (lengthOf letters) arg) :: calls) ↔
      Fetches (lengthOf letters, conv) ∧ later := by
  by_cases fetches : Fetches (lengthOf letters, conv)
  · obtain ⟨done, put_out, consumed, printed⟩ :=
      output_alone buf fetches size args
    have step := printLoop_conversion buf fuel pending tail letters conv count
      (arg :: args) put_out
    rw [step, specifies_continued, consumed, rest]
    constructor
    · rintro ⟨_, behind⟩
      exact ⟨fetches, behind⟩
    · rintro ⟨_, behind⟩
      exact ⟨⟨rfl, printed⟩, behind⟩
  · have put_out := output_skips buf fetches (arg :: args)
    have step := printLoop_conversion buf fuel pending tail letters conv count
      (arg :: args) put_out
    rw [step, specifies_continued]
    constructor
    · rintro ⟨⟨same, _⟩, _⟩
      exact absurd same (List.cons_ne_self arg args)
    · rintro ⟨fetches_too, _⟩
      exact absurd fetches_too fetches

private theorem printLoop_specifies_iff (buf : ConvBuf) (items : List Item)
    (pending : List UInt8) {args : List VarArg} (supplied : Supplied items args)
    (count : Int32) {fuel : Nat} (enough : items.length < fuel) :
    Specifies (printLoop buf fuel (.within (pending ++ render items))
        pending.length count args) (ownCalls buf items args) ↔
      ∀ taker ∈ takers items, Fetches taker := by
  induction items generalizing pending args count fuel with
  | nil =>
      obtain ⟨fuel, rfl, _⟩ := round_of_enough enough
      have ran := printLoop_end buf fuel pending count args
      rw [render, List.flatMap_nil, List.append_nil, ran]
      constructor
      · intro _ taker none
        cases none
      · intro _
        exact ⟨_, rfl, rfl⟩
  | cons item items ih =>
      obtain ⟨fuel, rfl, enough_rest⟩ := round_of_enough enough
      cases item with
      | literal c plain =>
          have step := printLoop_literal buf fuel pending (render items) plain
            count args
          change Specifies (printLoop buf (fuel + 1)
            (.within (pending ++ c :: render items)) _ _ _) _ ↔ _
          rw [step]
          exact ih (pending ++ [c]) supplied.behind_literal count enough_rest
      | percent letters =>
          have step := printLoop_percent buf fuel pending (render items) letters
            count args
          have rest := ih [] supplied.behind_percent
            (count + Int32.ofNat pending.length + 1) enough_rest
          change Specifies (printLoop buf (fuel + 1) (.within (pending ++
            ((Item.percent letters).chars ++ render items))) _ _ _) _ ↔ _
          rw [step, ownCalls, specifies_continued]
          constructor
          · rintro ⟨_, later⟩
            exact rest.mp later
          · intro fetches
            exact ⟨⟨rfl, rfl⟩, rest.mpr fetches⟩
      | conversion letters conv =>
          obtain ⟨arg, args, rfl, size, supplied_rest⟩ := supplied.cons
          change _ ↔
            ∀ taker ∈ (lengthOf letters, conv) :: takers items, Fetches taker
          rw [List.forall_mem_cons, ownCalls]
          exact printLoop_conversion_specifies buf fuel pending (render items)
            letters conv size args count
            (fun count => ih [] supplied_rest count enough_rest)

/-- Arguments stay in step if and only if no conversion has a modifier without a
case. -/
theorem arguments_in_step_iff (buf : ConvBuf) (items : List Item)
    (args : List VarArg) (supplied : Supplied items args) :
    InStep buf items args ↔ ∀ taker ∈ takers items, Fetches taker := by
  have enough : items.length < (render items).length + 1 :=
    Nat.lt_succ_of_le (items_length_le items)
  exact printLoop_specifies_iff buf items [] supplied 0 enough

theorem arguments_in_step_of_three :
    InStep (fun _ => 0)
      [.conversion [.h] .u, .conversion [.l, .l] .d, .percent [],
        .conversion [] .c]
      [.word 1, .doubleWord 2, .word 3] :=
  (arguments_in_step_iff _ _ _ ⟨by decide, by decide⟩).mpr (by decide)

/-- %zd and %d with 3 and 4: the 3 is printed for %d. -/
theorem argument_slips :
    ¬ ∀ (buf : ConvBuf) (items : List Item) (args : List VarArg),
      Supplied items args → InStep buf items args := by
  intro in_step
  obtain ⟨printed, ran, same⟩ := in_step (fun _ => 0)
    [.conversion [.z] .d, .conversion [] .d] [.word 3, .word 4]
    ⟨by decide, by decide⟩
  have shown : doPrintf (fun _ => 0)
      (render [.conversion [.z] .d, .conversion [] .d]) [.word 3, .word 4] =
        .ok { ret := 1
              calls := [.outFunc [],
                .parseSpecifier [.word 3, .word 4] [.word 3, .word 4] [],
                .outFunc [],
                .parseSpecifier [.word 3, .word 4] [.word 4]
                  [['3'.toUInt8]],
                .outFunc []] } := by decide
  rw [shown] at ran
  cases ran
  exact absurd same (by decide)

end Quadcopter

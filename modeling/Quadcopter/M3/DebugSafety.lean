import Quadcopter.M3.DebugArguments

/-
do_printf (panda/m3/debug.c) on any string: it ends, it does not read behind the
NUL, and it counts what it passes to out_func.

parse_specifier steps over the NUL when the string ends in a specifier.  It then
returns -1, and do_printf reads no further.
-/

namespace Quadcopter

def sizes (args : List VarArg) : List Bool := args.map VarArg.isDouble

def intAsks : LengthMod → List Bool
  | .ll => [true]
  | .j => [true]
  | .z => []
  | _ => [false]

def uintAsks : LengthMod → List Bool
  | .ll => [true]
  | .j => [true]
  | .t => []
  | _ => [false]

/-- The sizes of the arguments that a string asks for, from a place of it on:
outside of a specifier, or in one behind the modifiers that `length` stands
for. -/
def asked : (length : Option LengthMod) → List UInt8 → List Bool
  | _, [] => []
  | none, c :: rest =>
      if c = 0 then []
      else if c = '%'.toUInt8 then asked (some .none) rest
      else asked none rest
  | some length, c :: rest =>
      match specCase c with
      | .modifierTwice first second =>
          asked (some (if length = first then second else first)) rest
      | .modifier next => asked (some next) rest
      | .outputInt => intAsks length ++ asked none rest
      | .outputUint _ _ => uintAsks length ++ asked none rest
      | .outputChar => false :: asked none rest
      | .percent => asked none rest
      | .unimplemented => asked (some length) rest
      -- do_printf returns
      | .other => []

def Typed (fmt : List UInt8) (args : List VarArg) : Prop :=
  asked none fmt <+: sizes args

instance (fmt : List UInt8) (args : List VarArg) :
    Decidable (Typed fmt args) := inferInstanceAs (Decidable (_ <+: _))

/-- Arguments of the sizes that are asked for are taken; when they are not
there, that is the fault. -/
inductive Taken {α : Type} (asks : List Bool) (args : List VarArg)
    (after : α → List VarArg) : Except PrintFault α → Prop where
  | missing (unlike : ¬ asks <+: sizes args) :
      Taken asks args after (.error .badArgument)
  | taken (value : α) (front : List VarArg)
      (split : args = front ++ after value) (sizes_eq : sizes front = asks) :
      Taken asks args after (.ok value)

private theorem Taken.bind {α β : Type} {asks : List Bool}
    {args : List VarArg} {after : α → List VarArg} {result : Except PrintFault α}
    (taken : Taken asks args after result) {next : α → Except PrintFault β}
    {later : β → List VarArg} (f : α → β)
    (returns : ∀ value, next value = .ok (f value))
    (kept : ∀ value, later (f value) = after value) :
    Taken asks args later (result >>= next) := by
  cases taken with
  | missing unlike => exact .missing unlike
  | taken value front split sizes_eq =>
      change Taken asks args later (next value)
      rw [returns]
      exact .taken (f value) front ((kept value).symm ▸ split) sizes_eq

private theorem vaWord_taken (args : List VarArg) :
    Taken [false] args Prod.snd (vaWord args) := by
  cases args with
  | nil => exact .missing (by decide)
  | cons arg args =>
      cases arg with
      | word bits => exact .taken (bits, args) [.word bits] rfl rfl
      | doubleWord bits =>
          refine .missing (fun same => ?_)
          cases (List.cons_prefix_cons.mp same).1

private theorem vaDoubleWord_taken (args : List VarArg) :
    Taken [true] args Prod.snd (vaDoubleWord args) := by
  cases args with
  | nil => exact .missing (by decide)
  | cons arg args =>
      cases arg with
      | word bits =>
          refine .missing (fun same => ?_)
          cases (List.cons_prefix_cons.mp same).1
      | doubleWord bits => exact .taken (bits, args) [.doubleWord bits] rfl rfl

def leftOf {α : Type} (args : List VarArg) :
    Option (α × List VarArg) → List VarArg
  | none => args
  | some (_, rest) => rest

private theorem intArgument_taken (length : LengthMod) (args : List VarArg) :
    Taken (intAsks length) args (leftOf args) (intArgument length args) := by
  have word := vaWord_taken args
  have doubleWord := vaDoubleWord_taken args
  cases length with
  | ll => exact doubleWord.bind _ (fun _ => rfl) (fun _ => rfl)
  | j => exact doubleWord.bind _ (fun _ => rfl) (fun _ => rfl)
  | z => exact .taken none [] rfl rfl
  | _ => exact word.bind _ (fun _ => rfl) (fun _ => rfl)

private theorem uintArgument_taken (length : LengthMod) (args : List VarArg) :
    Taken (uintAsks length) args (leftOf args) (uintArgument length args) := by
  have word := vaWord_taken args
  have doubleWord := vaDoubleWord_taken args
  cases length with
  | ll => exact doubleWord.bind _ (fun _ => rfl) (fun _ => rfl)
  | j => exact doubleWord.bind _ (fun _ => rfl) (fun _ => rfl)
  | t => exact .taken none [] rfl rfl
  | _ => exact word.bind _ (fun _ => rfl) (fun _ => rfl)

private theorem outputInt_taken (buf : ConvBuf) (length : LengthMod)
    (args : List VarArg) :
    Taken (intAsks length) args Output.args (outputInt buf length args) := by
  apply (intArgument_taken length args).bind
    (fun argument => argument.elim { count := 0, args, out := [] }
      (fun fetched => putInt buf fetched.1 fetched.2))
  · intro argument
    cases argument <;> rfl
  · intro argument
    cases argument with
    | none => rfl
    | some fetched =>
        change (putInt buf fetched.1 fetched.2).args = fetched.2
        unfold putInt
        dsimp only
        split <;> rfl

private theorem outputUint_taken (buf : ConvBuf) (length : LengthMod)
    (radix : Nat) (upperCase : Bool) (args : List VarArg) :
    Taken (uintAsks length) args Output.args
      (outputUint buf length radix upperCase args) := by
  apply (uintArgument_taken length args).bind
    (fun argument => argument.elim { count := 0, args, out := [] }
      (fun fetched => putUint buf radix upperCase fetched.1 fetched.2))
  · intro argument
    cases argument <;> rfl
  · intro argument
    cases argument <;> rfl

private theorem outputChar_taken (args : List VarArg) :
    Taken [false] args Output.args (outputChar args) :=
  (vaWord_taken args).bind _ (fun _ => rfl) (fun _ => rfl)

/-- A specifier that was read whole: the pointer is still in the string, behind
where it was, the arguments that were asked for are taken, and the count is the
number of characters. -/
structure Specifier.Whole (length : LengthMod) (rest : List UInt8)
    (args : List VarArg) (spec : Specifier) : Prop where
  fmt : ∃ tail, spec.fmt = .within tail ∧ tail.length < rest.length ∧
    ∃ front, args = front ++ spec.args ∧
      asked (some length) rest = sizes front ++ asked none tail
  count : spec.count = Int32.ofNat spec.out.flatten.length
  known : spec.count ≠ -1

inductive SpecifierSafe (length : LengthMod) (rest : List UInt8)
    (args : List VarArg) : Except PrintFault Specifier → Prop where
  | missing (unlike : ¬ asked (some length) rest <+: sizes args) :
      SpecifierSafe length rest args (.error .badArgument)
  | failed (spec : Specifier) (count : spec.count = -1)
      (nothing : asked (some length) rest = []) :
      SpecifierSafe length rest args (.ok spec)
  | whole (spec : Specifier) (read : spec.Whole length rest args) :
      SpecifierSafe length rest args (.ok spec)

private theorem specifierSafe_of_output {length : LengthMod} {c : UInt8}
    {rest : List UInt8} {args : List VarArg} {asks : List Bool}
    {result : Except PrintFault Output}
    (asked_eq : asked (some length) (c :: rest) = asks ++ asked none rest)
    (taken : Taken asks args Output.args result)
    (counted : ∀ done, result = .ok done → done.Counted) :
    SpecifierSafe length (c :: rest) args (do
      let done ← result
      return done.before rest) := by
  cases taken with
  | missing unlike =>
      refine .missing (fun same => unlike ?_)
      rw [asked_eq] at same
      exact (List.prefix_append _ _).trans same
  | taken done front split sizes_eq =>
      apply SpecifierSafe.whole
      constructor
      · refine ⟨rest, rfl, Nat.lt_succ_self _, front, split, ?_⟩
        rw [asked_eq, sizes_eq]
      · exact (counted done rfl).count
      · exact (counted done rfl).ne

private theorem SpecifierSafe.behind {length next : LengthMod} {c : UInt8}
    {rest : List UInt8} {args : List VarArg}
    {result : Except PrintFault Specifier}
    (asked_eq : asked (some length) (c :: rest) = asked (some next) rest)
    (safe : SpecifierSafe next rest args result) :
    SpecifierSafe length (c :: rest) args result := by
  cases safe with
  | missing unlike => exact .missing (asked_eq ▸ unlike)
  | failed spec count nothing => exact .failed spec count (asked_eq.trans nothing)
  | whole spec read =>
      obtain ⟨tail, fmt, shorter, front, split, asks⟩ := read.fmt
      exact .whole spec ⟨⟨tail, fmt, Nat.lt_succ_of_lt shorter, front, split,
        asked_eq.trans asks⟩, read.count, read.known⟩

def SpecCase.RadixKnown : SpecCase → Prop
  | .outputUint radix upperCase =>
      radix = 16 ∨ (radix = 8 ∨ radix = 10) ∧ upperCase = false
  | _ => True

private theorem radixKnown_ite {condition : Prop} [Decidable condition]
    {first second : SpecCase} (one : first.RadixKnown)
    (other : second.RadixKnown) :
    (if condition then first else second).RadixKnown := by
  split
  · exact one
  · exact other

private theorem specCase_radixKnown (c : UInt8) : (specCase c).RadixKnown := by
  unfold specCase
  repeat' apply radixKnown_ite
  all_goals simp [SpecCase.RadixKnown]

private theorem parseFrom_safe (buf : ConvBuf) (rest : List UInt8)
    (length : LengthMod) (args : List VarArg) :
    SpecifierSafe length rest args (parseFrom buf rest length args) := by
  induction rest generalizing length with
  | nil => exact .failed _ rfl rfl
  | cons c rest ih =>
      have asked_eq : asked (some length) (c :: rest) = _ := asked.eq_3 ..
      rw [parseFrom]
      cases which : specCase c with
      | modifierTwice first second =>
          rw [which] at asked_eq
          exact (ih _).behind asked_eq
      | modifier next =>
          rw [which] at asked_eq
          exact (ih next).behind asked_eq
      | outputInt =>
          rw [which] at asked_eq
          exact specifierSafe_of_output asked_eq (outputInt_taken buf length args)
            (fun _ put_out => outputInt_counted put_out)
      | outputUint radix upperCase =>
          have known := specCase_radixKnown c
          rw [which] at known asked_eq
          exact specifierSafe_of_output asked_eq
            (outputUint_taken buf length radix upperCase args)
            (fun _ put_out => outputUint_counted known put_out)
      | outputChar =>
          rw [which] at asked_eq
          exact specifierSafe_of_output asked_eq (outputChar_taken args)
            (fun _ put_out => outputChar_counted put_out)
      | percent =>
          rw [which] at asked_eq
          apply SpecifierSafe.whole
          constructor
          · exact ⟨rest, rfl, Nat.lt_succ_self _, [], rfl, asked_eq⟩
          · rfl
          · change (1 : Int32) ≠ -1
            decide
      | unimplemented =>
          rw [which] at asked_eq
          exact (ih length).behind asked_eq
      | other =>
          rw [which] at asked_eq
          exact .failed _ rfl asked_eq

inductive PrintSafe (asks : List Bool) (args : List VarArg) (count : Int32) :
    Except PrintFault Printed → Prop where
  | missing (unlike : ¬ asks <+: sizes args) :
      PrintSafe asks args count (.error .badArgument)
  | printed (there : asks <+: sizes args) (printed : Printed)
      (returned : printed.ret = -1 ∨
        printed.ret = count + Int32.ofNat printed.text.length) :
      PrintSafe asks args count (.ok printed)

private theorem chars_length {rest : List UInt8} {length : Nat}
    (inside : length ≤ rest.length) :
    (FormatPtr.chars (.within rest) length).length = length :=
  List.length_take_of_le inside

private theorem printSafe_end {rest : List UInt8} {length : Nat}
    (inside : length ≤ rest.length) (args : List VarArg) (count : Int32) :
    PrintSafe [] args count (.ok
      { ret := count + Int32.ofNat length
        calls := [.outFunc (FormatPtr.chars (.within rest) length)] }) := by
  refine .printed List.nil_prefix _ (Or.inr ?_)
  simp [Printed.text, PrintCall.text, chars_length inside]

private theorem printSafe_specifier {rest : List UInt8} {length : Nat}
    (inside : length ≤ rest.length) (count : Int32) {spec : Specifier}
    (counted : spec.count = Int32.ofNat spec.out.flatten.length)
    {asks : List Bool} {front : List VarArg} {later : Except PrintFault Printed}
    (safe : PrintSafe asks spec.args (count + Int32.ofNat length + spec.count)
      later) :
    PrintSafe (sizes front ++ asks) (front ++ spec.args) count (do
      let printed ← later
      return { printed with
        calls := [.outFunc (FormatPtr.chars (.within rest) length),
          .parseSpecifier (front ++ spec.args) spec.args spec.out] ++
            printed.calls }) := by
  have sizes_eq : sizes (front ++ spec.args) = sizes front ++ sizes spec.args :=
    List.map_append
  cases safe with
  | missing unlike =>
      refine .missing (fun same => unlike ?_)
      rw [sizes_eq] at same
      exact (List.prefix_append_right_inj _).mp same
  | printed there printed returned =>
      refine .printed ?_ _ ?_
      · rw [sizes_eq]
        exact (List.prefix_append_right_inj _).mpr there
      · rcases returned with failed | whole_count
        · exact Or.inl failed
        · refine Or.inr ?_
          have text_length : (Printed.text { printed with
              calls := [.outFunc (FormatPtr.chars (.within rest) length),
                .parseSpecifier (front ++ spec.args) spec.args spec.out] ++
                  printed.calls }).length =
              length + (spec.out.flatten.length + printed.text.length) := by
            have first := chars_length inside
            simp only [Printed.text, PrintCall.text, List.cons_append,
              List.nil_append, List.flatMap_cons, List.length_append, first]
          rw [text_length, Int32.ofNat_add, Int32.ofNat_add, ← counted]
          dsimp only
          rw [whole_count, Int32.add_assoc, Int32.add_assoc]

/-- What a string asks for behind a place where no specifier is open. -/
private theorem asked_drop {rest : List UInt8} {length : Nat}
    (more : length < rest.length) :
    asked none (rest.drop length) =
      if rest.getD length 0 = 0 then []
      else if rest.getD length 0 = '%'.toUInt8 then
        asked (some .none) (rest.drop (length + 1))
      else asked none (rest.drop (length + 1)) := by
  have here : rest.getD length 0 = rest[length] := by simp [more]
  rw [List.drop_eq_getElem_cons more, here]
  rfl

private theorem printLoop_safe (buf : ConvBuf) (fuel : Nat) {rest : List UInt8}
    {length : Nat} (inside : length ≤ rest.length)
    (enough : rest.length - length < fuel) (count : Int32)
    (args : List VarArg) :
    PrintSafe (asked none (rest.drop length)) args count
      (printLoop buf fuel (.within rest) length count args) := by
  induction fuel generalizing rest length count args with
  | zero => exact absurd enough (Nat.not_lt_zero _)
  | succ fuel ih =>
      rw [printLoop]
      by_cases more : length < rest.length
      · have read_char : FormatPtr.read (.within rest) length =
            .ok (rest.getD length 0) := if_pos more
        have behind : FormatPtr.add (.within rest) (length + 1) =
            .within (rest.drop (length + 1)) := if_pos more
        rw [read_char, asked_drop more]
        simp only [bind, Except.bind, behind, parseSpecifier]
        by_cases is_nul : rest.getD length 0 = 0
        · rw [if_pos is_nul, if_pos is_nul]
          exact printSafe_end inside args count
        · rw [if_neg is_nul, if_neg is_nul]
          by_cases is_percent : rest.getD length 0 = '%'.toUInt8
          · rw [if_pos is_percent, if_pos is_percent]
            have safe := parseFrom_safe buf (rest.drop (length + 1)) .none args
            generalize parseFrom buf (rest.drop (length + 1)) .none args =
              parsed at safe ⊢
            cases safe with
            | missing unlike => exact .missing unlike
            | failed spec failed nothing =>
                dsimp only
                rw [if_pos failed, nothing]
                exact .printed List.nil_prefix _ (Or.inl rfl)
            | whole spec whole =>
                dsimp only
                rw [if_neg whole.known]
                obtain ⟨tail, fmt, shorter, front, split, asks⟩ := whole.fmt
                rw [List.length_drop] at shorter
                rw [fmt, asks, split]
                exact printSafe_specifier inside count whole.count
                  (ih (Nat.zero_le _) (by omega) _ _)
          · rw [if_neg is_percent, if_neg is_percent]
            exact ih more (by omega) count args
      · have at_end : length = rest.length := by omega
        have read_nul : FormatPtr.read (.within rest) length = .ok 0 :=
          (if_neg more).trans (if_pos at_end)
        rw [read_nul, at_end, List.drop_length]
        exact printSafe_end (Nat.le_refl _) args count

/-- On every string, and with every list of arguments of the types that it asks
for, do_printf ends without a fault and returns -1 or the number of characters,
as an int; with other arguments, that is its only fault. -/
theorem do_printf_safe (buf : ConvBuf) (fmt : List UInt8)
    (args : List VarArg) :
    (Typed fmt args →
      ∃ printed, doPrintf buf fmt args = .ok printed ∧
        (printed.ret = -1 ∨
          printed.ret = Int32.ofNat printed.text.length ∧
            (printed.text.length < 2 ^ 31 →
              printed.ret.toInt = printed.text.length))) ∧
    (¬ Typed fmt args → doPrintf buf fmt args = .error .badArgument) := by
  have enough : fmt.length - 0 < fmt.length + 1 := Nat.lt_succ_self _
  have safe := printLoop_safe buf (fmt.length + 1) (Nat.zero_le _) enough 0 args
  change PrintSafe (asked none fmt) args 0 (doPrintf buf fmt args) at safe
  generalize doPrintf buf fmt args = result at safe ⊢
  cases safe with
  | missing unlike => exact ⟨fun typed => absurd typed unlike, fun _ => rfl⟩
  | printed there printed returned =>
      refine ⟨fun _ => ⟨printed, rfl, ?_⟩, fun untyped => absurd there untyped⟩
      rcases returned with failed | counted
      · exact Or.inl failed
      · rw [Int32.zero_add] at counted
        refine Or.inr ⟨counted, ?_⟩
        intro small
        rw [counted]
        exact Int32.toInt_ofNat_of_lt small

theorem do_printf_safe_of_two :
    ∃ printed, doPrintf (fun _ => 0)
        (['a', '%', 'h', 'd', '%', 'l', 'l', 'u'].map (fun c => c.toUInt8))
        [.word 1, .doubleWord 2] = .ok printed ∧
      (printed.ret = -1 ∨
        printed.ret = Int32.ofNat printed.text.length ∧
          (printed.text.length < 2 ^ 31 →
            printed.ret.toInt = printed.text.length)) :=
  (do_printf_safe _ _ _).1 (by decide)

end Quadcopter

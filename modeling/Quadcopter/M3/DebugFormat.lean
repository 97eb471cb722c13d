import Quadcopter.M3.DebugDigits

/-
Format strings made of literal characters, of %% and of conversions with runs of
modifier letters, and what do_printf (panda/m3/debug.c) does with them.
-/

namespace Quadcopter

inductive ModifierLetter where
  | h
  | l
  | j
  | z
  | t
deriving DecidableEq, Repr

namespace ModifierLetter

def char : ModifierLetter → UInt8
  | .h => 'h'.toUInt8
  | .l => 'l'.toUInt8
  | .j => 'j'.toUInt8
  | .z => 'z'.toUInt8
  | .t => 't'.toUInt8

/-- The modifier that a letter makes of those before it. -/
def after (length : LengthMod) : ModifierLetter → LengthMod
  | .h => if length = .h then .hh else .h
  | .l => if length = .l then .ll else .l
  | .j => .j
  | .z => .z
  | .t => .t

end ModifierLetter

def lengthOf (letters : List ModifierLetter) : LengthMod :=
  letters.foldl ModifierLetter.after .none

inductive Conversion where
  | d
  | i
  | o
  | u
  | x
  | X
  | c
deriving DecidableEq, Repr

namespace Conversion

def char : Conversion → UInt8
  | .d => 'd'.toUInt8
  | .i => 'i'.toUInt8
  | .o => 'o'.toUInt8
  | .u => 'u'.toUInt8
  | .x => 'x'.toUInt8
  | .X => 'X'.toUInt8
  | .c => 'c'.toUInt8

def output (conv : Conversion) (buf : ConvBuf) (length : LengthMod)
    (args : List VarArg) : Except PrintFault Output :=
  match conv with
  | .d => outputInt buf length args
  | .i => outputInt buf length args
  | .o => outputUint buf length 8 false args
  | .u => outputUint buf length 10 false args
  | .x => outputUint buf length 16 false args
  | .X => outputUint buf length 16 true args
  | .c => outputChar args

end Conversion

inductive Item where
  | literal (c : UInt8) (plain : c ≠ 0 ∧ c ≠ '%'.toUInt8)
  | percent (letters : List ModifierLetter)
  | conversion (letters : List ModifierLetter) (conv : Conversion)

def Item.chars : Item → List UInt8
  | .literal c _ => [c]
  | .percent letters =>
      '%'.toUInt8 :: (letters.map ModifierLetter.char ++ ['%'.toUInt8])
  | .conversion letters conv =>
      '%'.toUInt8 :: (letters.map ModifierLetter.char ++ [conv.char])

def render (items : List Item) : List UInt8 := items.flatMap Item.chars

def takers (items : List Item) : List (LengthMod × Conversion) :=
  items.filterMap (fun
    | .conversion letters conv => some (lengthOf letters, conv)
    | _ => none)

theorem items_length_le (items : List Item) :
    items.length ≤ (render items).length := by
  induction items with
  | nil => exact Nat.le_refl 0
  | cons item items ih =>
      have some_char : 0 < item.chars.length := by
        cases item <;> exact Nat.succ_pos _
      change _ ≤ (item.chars ++ render items).length
      rw [List.length_append, List.length_cons]
      omega

theorem round_of_enough {rounds fuel : Nat} (enough : rounds < fuel) :
    ∃ later, fuel = later + 1 ∧ rounds ≤ later := by
  cases fuel with
  | zero => exact absurd enough (Nat.not_lt_zero rounds)
  | succ later => exact ⟨later, rfl, Nat.le_of_lt_succ enough⟩

private theorem parseFrom_letters (buf : ConvBuf)
    (letters : List ModifierLetter)
    (rest : List UInt8) (length : LengthMod) (args : List VarArg) :
    parseFrom buf (letters.map ModifierLetter.char ++ rest) length args =
      parseFrom buf rest (letters.foldl ModifierLetter.after length) args := by
  induction letters generalizing length with
  | nil => rfl
  | cons letter letters ih =>
      rw [List.foldl_cons, ← ih]
      cases letter <;> rfl

private theorem parseFrom_conversion (buf : ConvBuf) (conv : Conversion)
    (rest : List UInt8) (length : LengthMod) (args : List VarArg) :
    parseFrom buf (conv.char :: rest) length args =
      (conv.output buf length args).map (fun done => done.before rest) := by
  cases conv <;> rfl

private theorem output_counted {conv : Conversion} {buf : ConvBuf}
    {length : LengthMod} {args : List VarArg} {done : Output}
    (put_out : conv.output buf length args = .ok done) : done.Counted := by
  cases conv with
  | d => exact outputInt_counted put_out
  | i => exact outputInt_counted put_out
  | o => exact outputUint_counted (by decide) put_out
  | u => exact outputUint_counted (by decide) put_out
  | x => exact outputUint_counted (by decide) put_out
  | X => exact outputUint_counted (by decide) put_out
  | c => exact outputChar_counted put_out

def percentOutput (args : List VarArg) : Output :=
  { count := 1
    args
    out := [['%'.toUInt8]] }

private theorem parseFrom_percent (buf : ConvBuf) (rest : List UInt8)
    (length : LengthMod) (args : List VarArg) :
    parseFrom buf ('%'.toUInt8 :: rest) length args =
      .ok ((percentOutput args).before rest) := rfl

private theorem read_inside (pending rest : List UInt8) (c : UInt8) :
    FormatPtr.read (.within (pending ++ c :: rest)) pending.length = .ok c := by
  simp [FormatPtr.read]

private theorem read_end (pending : List UInt8) :
    FormatPtr.read (.within pending) pending.length = .ok 0 := by
  simp [FormatPtr.read]

theorem printLoop_end (buf : ConvBuf) (fuel : Nat) (pending : List UInt8)
    (count : Int32) (args : List VarArg) :
    printLoop buf (fuel + 1) (.within pending) pending.length count args =
      .ok { ret := count + Int32.ofNat pending.length
            calls := [.outFunc pending] } := by
  rw [printLoop, read_end]
  simp [bind, Except.bind, pure, Except.pure, FormatPtr.chars]

theorem printLoop_literal (buf : ConvBuf) (fuel : Nat)
    (pending rest : List UInt8) {c : UInt8} (plain : c ≠ 0 ∧ c ≠ '%'.toUInt8)
    (count : Int32) (args : List VarArg) :
    printLoop buf (fuel + 1) (.within (pending ++ c :: rest)) pending.length
        count args =
      printLoop buf fuel (.within ((pending ++ [c]) ++ rest))
        (pending ++ [c]).length count args := by
  rw [printLoop, read_inside]
  simp [bind, Except.bind, plain.1, plain.2]

def continued (pending : List UInt8) (args : List VarArg) (done : Output)
    (later : Except PrintFault Printed) : Except PrintFault Printed :=
  later.map (fun printed =>
    { printed with
      calls := .outFunc pending :: .parseSpecifier args done.args done.out ::
        printed.calls })

private theorem printLoop_specifier (buf : ConvBuf) (fuel : Nat)
    (pending rest tail : List UInt8) (count : Int32) (args : List VarArg)
    {done : Output} (known : done.count ≠ -1)
    (parsed : parseFrom buf rest .none args = .ok (done.before tail)) :
    printLoop buf (fuel + 1) (.within (pending ++ '%'.toUInt8 :: rest))
        pending.length count args =
      continued pending args done
        (printLoop buf fuel (.within tail) 0
          (count + Int32.ofNat pending.length + done.count) done.args) := by
  have percent_ne : '%'.toUInt8 ≠ 0 := by decide
  have behind : FormatPtr.add (.within (pending ++ '%'.toUInt8 :: rest))
      (pending.length + 1) = .within rest := by
    simp [FormatPtr.add]
  have before : FormatPtr.chars (.within (pending ++ '%'.toUInt8 :: rest))
      pending.length = pending := by
    simp [FormatPtr.chars]
  rw [printLoop, read_inside]
  simp only [bind, Except.bind, percent_ne, if_false, if_true, behind, before,
    parseSpecifier, parsed]
  have go_on : (done.before tail).count ≠ -1 := known
  rw [if_neg go_on]
  unfold continued Output.before
  dsimp only
  cases printLoop buf fuel (.within tail) 0
      (count + Int32.ofNat pending.length + done.count) done.args with
  | error fault => rfl
  | ok printed => rfl

theorem printLoop_conversion (buf : ConvBuf) (fuel : Nat)
    (pending tail : List UInt8) (letters : List ModifierLetter)
    (conv : Conversion) (count : Int32) (args : List VarArg) {done : Output}
    (put_out : conv.output buf (lengthOf letters) args = .ok done) :
    printLoop buf (fuel + 1)
        (.within (pending ++ ((Item.conversion letters conv).chars ++ tail)))
        pending.length count args =
      continued pending args done
        (printLoop buf fuel (.within tail) 0
          (count + Int32.ofNat pending.length + done.count) done.args) := by
  have parsed : parseFrom buf
      (letters.map ModifierLetter.char ++ conv.char :: tail) .none args =
        .ok (done.before tail) := by
    rw [parseFrom_letters, parseFrom_conversion]
    change Except.map _ (conv.output buf (lengthOf letters) args) = _
    rw [put_out]
    rfl
  have shape : pending ++ ((Item.conversion letters conv).chars ++ tail) =
      pending ++ '%'.toUInt8 ::
        (letters.map ModifierLetter.char ++ conv.char :: tail) := by
    simp [Item.chars]
  rw [shape]
  exact printLoop_specifier buf fuel pending _ tail count args
    (output_counted put_out).ne parsed

theorem printLoop_percent (buf : ConvBuf) (fuel : Nat)
    (pending tail : List UInt8) (letters : List ModifierLetter)
    (count : Int32) (args : List VarArg) :
    printLoop buf (fuel + 1)
        (.within (pending ++ ((Item.percent letters).chars ++ tail)))
        pending.length count args =
      continued pending args (percentOutput args)
        (printLoop buf fuel (.within tail) 0
          (count + Int32.ofNat pending.length + 1) args) := by
  have parsed : parseFrom buf
      (letters.map ModifierLetter.char ++ '%'.toUInt8 :: tail) .none args =
        .ok ((percentOutput args).before tail) := by
    rw [parseFrom_letters, parseFrom_percent]
  have shape : pending ++ ((Item.percent letters).chars ++ tail) =
      pending ++ '%'.toUInt8 ::
        (letters.map ModifierLetter.char ++ '%'.toUInt8 :: tail) := by
    simp [Item.chars]
  have known : (percentOutput args).count ≠ -1 := by
    change (1 : Int32) ≠ -1
    decide
  rw [shape]
  exact printLoop_specifier buf fuel pending _ tail count args known parsed

theorem continued_ok (pending : List UInt8) (args : List VarArg)
    (done : Output) (printed : Printed) :
    ∃ whole, continued pending args done (.ok printed) = .ok whole ∧
      whole.text = pending ++ (done.out.flatten ++ printed.text) := by
  refine ⟨_, rfl, ?_⟩
  simp [Printed.text, PrintCall.text]

end Quadcopter

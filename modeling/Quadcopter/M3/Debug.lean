import Mathlib.Logic.Function.Basic

/-
The formatted output of the m3 (panda/m3/debug.c).  maple/debug.c has the same
functions with another out_func.

The ABI is the one of arm-none-eabi-gcc: int, long, size_t and ptrdiff_t have 32
bits, long long and intmax_t have 64, plain char is unsigned, and -O0 lets the
negation of the smallest value wrap.  An argument of the wrong size, a read
behind the NUL of the format and a run that is cut off are faults.
-/

namespace Quadcopter

inductive PrintFault where
  | badArgument
  | pastNul
  | noFuel
deriving DecidableEq, Repr

inductive LengthMod where
  | none
  | hh
  | h
  | l
  | ll
  | j
  | z
  | t
deriving DecidableEq, Repr

/-- char buf[CONV_BUF_SIZE], by offset. -/
abbrev ConvBuf : Type := Int → UInt8

def convBufSize : Nat := 64

/-- The loops of convert_dec, convert_hex and convert_oct: `pos + 1` is the
number of cells that are left.  Returns pos and the buffer. -/
def convertLoop (digit : UInt64 → UInt8) (next : UInt64 → UInt64) :
    (left : Nat) → UInt64 → ConvBuf → Int × ConvBuf
  | 0, _, buf => (-1, buf)
  | pos + 1, value, buf =>
      let buf := Function.update buf (pos : Int) (digit value)
      let value := next value
      if value = 0 then ((pos : Int) - 1, buf)
      else convertLoop digit next pos value buf

def convertDec (value : UInt64) (buf : ConvBuf) : Int × ConvBuf :=
  convertLoop (fun value => (value % 10).toUInt8 + '0'.toUInt8)
    (fun value => value / 10) convBufSize value buf

def convertHex (value : UInt64) (upperCase : Bool) (buf : ConvBuf) :
    Int × ConvBuf :=
  let a := if upperCase then 'A'.toUInt8 else 'a'.toUInt8
  convertLoop
    (fun value =>
      let cur := (value &&& 0xF).toUInt8
      if 10 ≤ cur then cur - 10 + a else cur + '0'.toUInt8)
    (fun value => value >>> 4) convBufSize value buf

def convertOct (value : UInt64) (buf : ConvBuf) : Int × ConvBuf :=
  convertLoop (fun value => (value &&& 0x7).toUInt8 + '0'.toUInt8)
    (fun value => value >>> 3) convBufSize value buf

def bufferText (buf : ConvBuf) (start len : Int) : List UInt8 :=
  (List.range len.toNat).map (fun (i : Nat) => buf (start + i))

inductive VarArg where
  | word (bits : UInt32)
  | doubleWord (bits : UInt64)
deriving DecidableEq, Repr

/-- va_arg for a type of 32 bits. -/
def vaWord : List VarArg → Except PrintFault (UInt32 × List VarArg)
  | .word bits :: args => .ok (bits, args)
  | _ => .error .badArgument

/-- va_arg for a type of 64 bits. -/
def vaDoubleWord : List VarArg → Except PrintFault (UInt64 × List VarArg)
  | .doubleWord bits :: args => .ok (bits, args)
  | _ => .error .badArgument

/-- The switch of output_int; `none` is its default. -/
def intArgument (length : LengthMod) (args : List VarArg) :
    Except PrintFault (Option (Int64 × List VarArg)) :=
  match length with
  | .none => do
      let (bits, args) ← vaWord args
      return some (bits.toInt32.toInt64, args)
  | .hh => do
      let (bits, args) ← vaWord args
      return some (bits.toUInt8.toUInt64.toInt64, args)
  | .h => do
      let (bits, args) ← vaWord args
      return some (bits.toUInt16.toInt16.toInt64, args)
  | .l => do
      let (bits, args) ← vaWord args
      return some (bits.toInt32.toInt64, args)
  | .ll => do
      let (bits, args) ← vaDoubleWord args
      return some (bits.toInt64, args)
  | .j => do
      let (bits, args) ← vaDoubleWord args
      return some (bits.toInt64, args)
  | .t => do
      let (bits, args) ← vaWord args
      return some (bits.toInt32.toInt64, args)
  | .z => return none

def uintArgument (length : LengthMod) (args : List VarArg) :
    Except PrintFault (Option (UInt64 × List VarArg)) :=
  match length with
  | .none => do
      let (bits, args) ← vaWord args
      return some (bits.toUInt64, args)
  | .hh => do
      let (bits, args) ← vaWord args
      return some (bits.toUInt8.toUInt64, args)
  | .h => do
      let (bits, args) ← vaWord args
      return some (bits.toUInt16.toUInt64, args)
  | .l => do
      let (bits, args) ← vaWord args
      return some (bits.toUInt64, args)
  | .ll => do
      let (bits, args) ← vaDoubleWord args
      return some (bits, args)
  | .j => do
      let (bits, args) ← vaDoubleWord args
      return some (bits, args)
  | .z => do
      let (bits, args) ← vaWord args
      return some (bits.toUInt64, args)
  | .t => return none

/-- What a function returns, what it leaves of the arguments, and what it passes
to out_func, call by call. -/
structure Output where
  count : Int32
  args : List VarArg
  out : List (List UInt8)
deriving DecidableEq, Repr

def putBuffer (args : List VarArg) (pos : Int) (buf : ConvBuf) : Output :=
  let len := (convBufSize : Int) - pos - 1
  { count := Int32.ofInt len
    args
    out := [bufferText buf (pos + 1) len] }

def putInt (buf : ConvBuf) (value : Int64) (args : List VarArg) : Output :=
  let uvalue := if value < 0 then (-value).toUInt64 else value.toUInt64
  let (pos, buf) := convertDec uvalue buf
  if value < 0 then
    putBuffer args (pos - 1) (Function.update buf pos '-'.toUInt8)
  else putBuffer args pos buf

def outputInt (buf : ConvBuf) (length : LengthMod) (args : List VarArg) :
    Except PrintFault Output := do
  match ← intArgument length args with
  | none => return { count := 0, args, out := [] }
  | some (value, args) => return putInt buf value args

def putUint (buf : ConvBuf) (radix : Nat) (upperCase : Bool) (value : UInt64)
    (args : List VarArg) : Output :=
  let (pos, buf) :=
    if radix = 16 then convertHex value upperCase buf
    else if radix = 8 then convertOct value buf
    else convertDec value buf
  putBuffer args pos buf

def outputUint (buf : ConvBuf) (length : LengthMod) (radix : Nat)
    (upperCase : Bool) (args : List VarArg) : Except PrintFault Output := do
  match ← uintArgument length args with
  | none => return { count := 0, args, out := [] }
  | some (value, args) => return putUint buf radix upperCase value args

def outputChar (args : List VarArg) : Except PrintFault Output := do
  let (bits, args) ← vaWord args
  return { count := 1, args, out := [[bits.toUInt8]] }

inductive SpecCase where
  -- `first`, or `second` when it follows `first`
  | modifierTwice (first second : LengthMod)
  | modifier (length : LengthMod)
  | outputInt
  | outputUint (radix : Nat) (upperCase : Bool)
  | outputChar
  | percent
  -- f, s and p break out of the switch and not out of the loop
  | unimplemented
  | other
deriving DecidableEq, Repr

def specCase (c : UInt8) : SpecCase :=
  if c = 'h'.toUInt8 then .modifierTwice .h .hh
  else if c = 'l'.toUInt8 then .modifierTwice .l .ll
  else if c = 'j'.toUInt8 then .modifier .j
  else if c = 'z'.toUInt8 then .modifier .z
  else if c = 't'.toUInt8 then .modifier .t
  else if c = 'd'.toUInt8 then .outputInt
  else if c = 'i'.toUInt8 then .outputInt
  else if c = 'o'.toUInt8 then .outputUint 8 false
  else if c = 'u'.toUInt8 then .outputUint 10 false
  else if c = 'X'.toUInt8 then .outputUint 16 true
  else if c = 'x'.toUInt8 then .outputUint 16 false
  else if c = 'f'.toUInt8 then .unimplemented
  else if c = 'c'.toUInt8 then .outputChar
  else if c = 's'.toUInt8 then .unimplemented
  else if c = 'p'.toUInt8 then .unimplemented
  else if c = '%'.toUInt8 then .percent
  else .other

/-- A pointer into a string, by the characters before its NUL. -/
inductive FormatPtr where
  | within (rest : List UInt8)
  | beyond
deriving DecidableEq, Repr

namespace FormatPtr

def read : FormatPtr → Nat → Except PrintFault UInt8
  | .within rest, i =>
      if i < rest.length then .ok (rest.getD i 0)
      else if i = rest.length then .ok 0
      else .error .pastNul
  | .beyond, _ => .error .pastNul

def add : FormatPtr → Nat → FormatPtr
  | .within rest, i =>
      if i ≤ rest.length then .within (rest.drop i) else .beyond
  | .beyond, _ => .beyond

def chars : FormatPtr → (length : Nat) → List UInt8
  | .within rest, length => rest.take length
  | .beyond, _ => []

end FormatPtr

/-- What parse_specifier returns, where it leaves *fmtp, and the rest as for its
output functions. -/
structure Specifier where
  count : Int32
  fmt : FormatPtr
  args : List VarArg
  out : List (List UInt8)
deriving DecidableEq, Repr

def Output.before (done : Output) (rest : List UInt8) : Specifier :=
  { count := done.count
    fmt := .within rest
    args := done.args
    out := done.out }

def parseFrom (buf : ConvBuf) : List UInt8 → LengthMod → List VarArg →
    Except PrintFault Specifier
  -- the NUL is a character without a case, and done steps over it
  | [], _, args => return { count := -1, fmt := .beyond, args, out := [] }
  | c :: rest, length, args =>
      match specCase c with
      | .modifierTwice first second =>
          parseFrom buf rest (if length = first then second else first) args
      | .modifier next => parseFrom buf rest next args
      | .outputInt => do
          let done ← outputInt buf length args
          return done.before rest
      | .outputUint radix upperCase => do
          let done ← outputUint buf length radix upperCase args
          return done.before rest
      | .outputChar => do
          let done ← outputChar args
          return done.before rest
      | .percent =>
          return { count := 1, fmt := .within rest, args
                   out := [['%'.toUInt8]] }
      | .unimplemented => parseFrom buf rest length args
      | .other => return { count := -1, fmt := .within rest, args, out := [] }

def parseSpecifier (buf : ConvBuf) (fmt : FormatPtr) (args : List VarArg) :
    Except PrintFault Specifier :=
  match fmt with
  | .within rest => parseFrom buf rest .none args
  | .beyond => .error .pastNul

/-- What do_printf calls, with the arguments before and after. -/
inductive PrintCall where
  | outFunc (text : List UInt8)
  | parseSpecifier (before after : List VarArg) (out : List (List UInt8))
deriving DecidableEq, Repr

def PrintCall.text : PrintCall → List UInt8
  | .outFunc text => text
  | .parseSpecifier _ _ out => out.flatten

structure Printed where
  ret : Int32
  calls : List PrintCall
deriving DecidableEq, Repr

def Printed.text (printed : Printed) : List UInt8 :=
  printed.calls.flatMap PrintCall.text

/-- The loop.  `length` is an index into the string, which fits in an int, and
count is a sum that wraps. -/
def printLoop (buf : ConvBuf) : (fuel : Nat) → FormatPtr → (length : Nat) →
    (count : Int32) → List VarArg → Except PrintFault Printed
  | 0, _, _, _, _ => .error .noFuel
  | fuel + 1, fmt, length, count, args => do
      let c ← fmt.read length
      if c = 0 then
        return { ret := count + Int32.ofNat length
                 calls := [.outFunc (fmt.chars length)] }
      else if c = '%'.toUInt8 then do
        let spec ← parseSpecifier buf (fmt.add (length + 1)) args
        let calls := [.outFunc (fmt.chars length),
          .parseSpecifier args spec.args spec.out]
        if spec.count = -1 then return { ret := -1, calls }
        else do
          let printed ← printLoop buf fuel spec.fmt 0
            (count + Int32.ofNat length + spec.count) spec.args
          return { printed with calls := calls ++ printed.calls }
      else printLoop buf fuel fmt (length + 1) count args

/-- Every round reads a further character of the string, the NUL included. -/
def doPrintf (buf : ConvBuf) (fmt : List UInt8) (args : List VarArg) :
    Except PrintFault Printed :=
  printLoop buf (fmt.length + 1) (.within fmt) 0 0 args

end Quadcopter

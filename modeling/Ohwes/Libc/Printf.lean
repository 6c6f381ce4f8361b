import Ohwes.Libc.Ctype

/-! # `libc/printf.c`: `_doprintf`

A format is the list of its bytes, the terminating NUL included; a read behind that is a fault. Where
the source keeps the character `c` it has just read and the pointer `format` behind it, the functions
here keep the rest of the format from `c` on. The arguments are the 32-bit words `va_arg` takes them
from. The compiler's target is two's complement throughout: an `int` that overflows wraps. -/

namespace Ohwes
set_option autoImplicit false

def NUM2STR_BUFSIZ : Nat := 64

/-- The value an `int` has after its computation. -/
def wrapInt (x : Int) : Int := x.bmod (2 ^ 32)

theorem wrapInt_of_le {x : Int} (hlo : -(INT_MAX : Int) ≤ x) (hhi : x ≤ INT_MAX) : wrapInt x = x := by
  have hmax : (INT_MAX : Int) = 2147483647 := rfl
  rw [wrapInt]
  apply Int.bmod_eq_of_le
  · omega
  · omega

theorem wrapInt_of_gt {x : Int} (hlo : INT_MAX < x) (hhi : x ≤ INT_MAX + 2) :
    wrapInt x = x - 4294967296 := by
  have hmax : (INT_MAX : Int) = 2147483647 := rfl
  rw [wrapInt, ← Int.sub_bmod_right]
  apply Int.bmod_eq_of_le
  · omega
  · omega

theorem wrapInt_le (x : Int) : wrapInt x ≤ INT_MAX := by
  have hlt : x.bmod (2 ^ 32) < ((2 ^ 32 : Nat) + 1) / 2 := Int.bmod_lt (by decide)
  have hmax : (INT_MAX : Int) = 2147483647 := rfl
  rw [wrapInt]
  omega

abbrev FormatArgs := List (BitVec 32)

/-- `va_arg` of a type of 32 bits. -/
def vaWord : FormatArgs → Call (BitVec 32 × FormatArgs)
  | [] => .error .fault
  | word :: args => .ok (word, args)

/-- `va_arg` of a type of 64 bits, its low word first. -/
def vaPair : FormatArgs → Call (BitVec 64 × FormatArgs)
  | low :: high :: args => .ok (high ++ low, args)
  | _ => .error .fault

/-! ## The specification -/

structure FormatFlags where
  ljustify : Bool
  signflag : Bool
  signpad : Bool
  altflag : Bool
  zeropad : Bool
  deriving DecidableEq, Repr

def FormatFlags.clear : FormatFlags where
  ljustify := false
  signflag := false
  signpad := false
  altflag := false
  zeropad := false

/-- The switch of the flags loop; its default, which ends the loop, is `none`. -/
def FormatFlags.add (flags : FormatFlags) (c : Byte) : Option FormatFlags :=
  if c = 0x2D then some { flags with ljustify := true }
  else if c = 0x2B then some { flags with signflag := true }
  else if c = 0x20 then some { flags with signpad := true }
  else if c = 0x23 then some { flags with altflag := true }
  else if c = 0x30 then some { flags with zeropad := true }
  else none

/-- The flags loop. At the end of the format `c` is still the character before. -/
def parseFlags (flags : FormatFlags) : List Byte → Call (FormatFlags × List Byte)
  | c :: next :: format =>
    if next = 0 then .ok (flags, c :: next :: format)
    else
      match flags.add next with
      | some flags => parseFlags flags (next :: format)
      | none => .ok (flags, next :: format)
  | _ => .error .fault

/-- Space is ignored beside `+`, and `0` beside `-`. -/
def FormatFlags.settle (flags : FormatFlags) : FormatFlags :=
  { flags with
    signpad := flags.signpad && !flags.signflag
    zeropad := flags.zeropad && !flags.ljustify }

/-- The digit loops of the width and of the precision. -/
def parseDigits (value : Int) : List Byte → Call (Int × List Byte)
  | [] => .error .fault
  | c :: format =>
    if isdigit c then parseDigits (wrapInt (wrapInt (value * 10) + (c.toNat - 0x30 : Int))) format
    else .ok (value, c :: format)

/-- `c = *format++`. -/
def advanceFormat : List Byte → Call (List Byte)
  | _ :: c :: format => .ok (c :: format)
  | _ => .error .fault

/-- A field of the specification with what is behind it. -/
structure Parsed (α : Type) where
  value : α
  format : List Byte
  args : FormatArgs

/-- The width `*`: an argument, whose sign is a `-` flag. -/
def starWidth (flags : FormatFlags) (format : List Byte) (args : FormatArgs) :
    Call (Parsed (FormatFlags × Int)) := do
  let (word, args) ← vaWord args
  let format ← advanceFormat format
  if word.toInt < 0 then
    .ok ⟨({ flags with ljustify := true }, wrapInt (-word.toInt)), format, args⟩
  else .ok ⟨(flags, word.toInt), format, args⟩

def parseWidth (flags : FormatFlags) (format : List Byte) (args : FormatArgs) :
    Call (Parsed (FormatFlags × Int)) := do
  let (width, format) ← parseDigits 0 format
  if format.head? = some 0x2A then starWidth flags format args
  else .ok ⟨(flags, width), format, args⟩

/-- Whether the precision is the default, and the precision. -/
abbrev Precision := Bool × Int

/-- The precision `*`: an argument, ignored where it is negative. -/
def starPrecision (format : List Byte) (args : FormatArgs) : Call (Parsed Precision) := do
  let (word, args) ← vaWord args
  let format ← advanceFormat format
  if word.toInt < 0 then .ok ⟨(true, 1), format, args⟩
  else .ok ⟨(false, word.toInt), format, args⟩

def dotPrecision (format : List Byte) (args : FormatArgs) : Call (Parsed Precision) := do
  let format ← advanceFormat format
  let (prec, format) ← parseDigits 0 format
  if format.head? = some 0x2A then starPrecision format args
  else .ok ⟨(false, prec), format, args⟩

def parsePrecision (format : List Byte) (args : FormatArgs) : Call (Parsed Precision) :=
  if format.head? = some 0x2E then dotPrecision format args
  else .ok ⟨(true, 1), format, args⟩

/-- The length modifiers `L_DEFAULT` to `L_T`. -/
inductive ArgLength where
  | default
  | hh
  | h
  | l
  | ll
  | j
  | z
  | t
  deriving DecidableEq, Repr

/-- A modifier that counts only as the first: the length, and whether the loop goes on. -/
def ArgLength.only (length modifier : ArgLength) : ArgLength × Bool :=
  if length = .default then (modifier, false) else (length, true)

/-- The switch of the length loop; where no modifier matches it is `none`. -/
def ArgLength.add (length : ArgLength) (c : Byte) : Option (ArgLength × Bool) :=
  if c = 0x68 then
    some (if length = .default then (.h, true)
      else if length = .h then (.hh, false)
      else (length, true))
  else if c = 0x6C then
    some (if length = .default then (.l, true)
      else if length = .l then (.ll, false)
      else (length, true))
  else if c = 0x6A then some (length.only .j)
  else if c = 0x7A then some (length.only .z)
  else if c = 0x74 then some (length.only .t)
  else none

def parseLength (length : ArgLength) : List Byte → Call (ArgLength × List Byte)
  | [] => .error .fault
  | c :: format =>
    match length.add c with
    | none => .ok (length, c :: format)
    | some (length, true) => parseLength length format
    | some (length, false) => (advanceFormat (c :: format)).map fun format => (length, format)

/-- What the specification sets. -/
structure FormatSpec where
  flags : FormatFlags
  width : Int
  defaultPrec : Bool
  prec : Int
  length : ArgLength
  deriving DecidableEq, Repr

/-- The specification behind a `%`, which is the first character of the format here. -/
def parseSpec (format : List Byte) (args : FormatArgs) : Call (Parsed FormatSpec) := do
  let (flags, format) ← parseFlags FormatFlags.clear format
  let ⟨(flags, width), format, args⟩ ← parseWidth flags.settle format args
  let ⟨(defaultPrec, prec), format, args⟩ ← parsePrecision format args
  let (length, format) ← parseLength .default format
  .ok ⟨⟨flags, width, defaultPrec, prec, length⟩, format, args⟩

/-! ## Numbers -/

/-- The locals set by a numeric conversion; `num` is the magnitude. -/
structure FormatNumber where
  radix : Nat
  capital : Bool
  signd : Bool
  negative : Bool
  num : BitVec 64
  deriving DecidableEq, Repr

/-- `n` of the signed conversions, an `intmax_t`. -/
def getSigned (length : ArgLength) (args : FormatArgs) : Call (BitVec 64 × FormatArgs) :=
  match length with
  | .hh => (vaWord args).map fun x => ((x.1.setWidth 8).signExtend 64, x.2)
  | .h => (vaWord args).map fun x => ((x.1.setWidth 16).signExtend 64, x.2)
  | .ll => vaPair args
  | .j => vaPair args
  | .z => (vaWord args).map fun x => (x.1.setWidth 64, x.2)
  | _ => (vaWord args).map fun x => (x.1.signExtend 64, x.2)

/-- `num` of the unsigned conversions, a `uintmax_t`. -/
def getUnsigned (length : ArgLength) (args : FormatArgs) : Call (BitVec 64 × FormatArgs) :=
  match length with
  | .hh => (vaWord args).map fun x => ((x.1.setWidth 8).setWidth 64, x.2)
  | .h => (vaWord args).map fun x => ((x.1.setWidth 16).setWidth 64, x.2)
  | .ll => vaPair args
  | .j => vaPair args
  | .t => (vaWord args).map fun x => (x.1.signExtend 64, x.2)
  | _ => (vaWord args).map fun x => (x.1.setWidth 64, x.2)

def signedNumber (n : BitVec 64) : FormatNumber where
  radix := 10
  capital := false
  signd := true
  negative := n.toInt < 0
  num := if n.toInt < 0 then -n else n

def unsignedNumber (radix : Nat) (capital : Bool) (num : BitVec 64) : FormatNumber where
  radix := radix
  capital := capital
  signd := false
  negative := false
  num := num

def digits : CString := text
  ['0', '1', '2', '3', '4', '5', '6', '7', '8', '9', 'a', 'b', 'c', 'd', 'e', 'f', 'g', 'h', 'i',
    'j', 'k', 'l', 'm', 'n', 'o', 'p', 'q', 'r', 's', 't', 'u', 'v', 'w', 'x', 'y', 'z']

def digits_cap : CString := text
  ['0', '1', '2', '3', '4', '5', '6', '7', '8', '9', 'A', 'B', 'C', 'D', 'E', 'F', 'G', 'H', 'I',
    'J', 'K', 'L', 'M', 'N', 'O', 'P', 'Q', 'R', 'S', 'T', 'U', 'V', 'W', 'X', 'Y', 'Z']

/-- The conversion loop: it fills the buffer from its end, `room` characters are free before
`str`. -/
def num2str (capital : Bool) (radix : Nat) : Nat → BitVec 64 → CString → Call CString
  | room, num, str =>
    if num = 0 then .ok str
    else
      match room with
      | 0 => .error .fault
      | room + 1 =>
        let table := if capital then digits_cap else digits
        let digit := table.getD (num % BitVec.ofNat 64 radix).toNat 0
        num2str capital radix room (num / BitVec.ofNat 64 radix) (digit :: str)

/-- The length of the output so far, and of its leading zeros. -/
structure NumberTally where
  len : Int
  numZeros : Int
  deriving DecidableEq, Repr

/-- The loops that add zeros until `len` reaches a limit, an `int`: it is not past its own there. -/
def NumberTally.countZeros (limit : Int) (t : NumberTally) : NumberTally :=
  if limit > t.len then countZeros limit ⟨t.len + 1, wrapInt (t.numZeros + 1)⟩ else t
termination_by (limit - t.len).toNat

/-- `sign_char`. -/
def signChar (flags : FormatFlags) (n : FormatNumber) : Option Byte :=
  if !n.signd then none
  else if n.negative then some 0x2D
  else if flags.signflag then some 0x2B
  else if flags.signpad then some 0x20
  else none

/-- The characters of the radix prefix. -/
def radixPrefix (flags : FormatFlags) (n : FormatNumber) : CString :=
  if flags.altflag && n.radix = 16 && n.num ≠ 0 then [0x30, if n.capital then 0x58 else 0x78] else []

def NumberTally.addSign (flags : FormatFlags) (n : FormatNumber) (t : NumberTally) : NumberTally :=
  if (signChar flags n).isSome then { t with len := wrapInt (t.len + 1) } else t

/-- The length of the alternative representation. -/
def NumberTally.addAlt (flags : FormatFlags) (n : FormatNumber) (t : NumberTally) : NumberTally :=
  if !flags.altflag then t
  else if n.radix = 8 ∧ t.numZeros = 0 then ⟨wrapInt (t.len + 1), wrapInt (t.numZeros + 1)⟩
  else if n.radix = 16 ∧ n.num ≠ 0 then { t with len := wrapInt (t.len + 2) }
  else t

/-- The loops that print a character until `limit`, which they count down, is `len`. -/
def putWhile (c : Byte) (limit len : Int) : CString :=
  if limit > len then c :: putWhile c (limit - 1) len else []
termination_by (limit - len).toNat

/-- Whether zeros fill the field. -/
def FormatSpec.zeroFill (s : FormatSpec) : Bool := s.flags.zeropad && s.defaultPrec

def FormatSpec.rightJustify (s : FormatSpec) (t : NumberTally) : CString × NumberTally :=
  if s.flags.ljustify then ([], t)
  else if s.zeroFill then ([], t.countZeros s.width)
  else (putWhile 0x20 s.width t.len, t)

def FormatSpec.leftJustify (s : FormatSpec) (t : NumberTally) : CString :=
  if s.flags.ljustify then putWhile 0x20 s.width t.len else []

/-- The numeric conversions from `zero = (num == 0)` on: the characters they print. -/
def putNumber (s : FormatSpec) (n : FormatNumber) : Call CString := do
  let str ← num2str n.capital n.radix NUM2STR_BUFSIZ n.num []
  let t := NumberTally.countZeros s.prec ⟨str.length, 0⟩
  let t := (t.addSign s.flags n).addAlt s.flags n
  let (spaces, t) := s.rightJustify t
  .ok (spaces ++ (signChar s.flags n).toList ++ radixPrefix s.flags n ++
    putWhile 0x30 t.numZeros 0 ++ str ++ s.leftJustify t)

/-! ## The conversions -/

/-- What a pass of the loop prints, and what it leaves of the format and of the arguments. -/
structure Printed where
  out : CString
  format : List Byte
  args : FormatArgs

def putSigned (s : FormatSpec) (format : List Byte) (args : FormatArgs) : Call Printed := do
  let (n, args) ← getSigned s.length args
  let out ← putNumber s (signedNumber n)
  .ok ⟨out, format, args⟩

def putUnsigned (radix : Nat) (capital : Bool) (s : FormatSpec) (format : List Byte)
    (args : FormatArgs) : Call Printed := do
  let (num, args) ← getUnsigned s.length args
  let out ← putNumber s (unsignedNumber radix capital num)
  .ok ⟨out, format, args⟩

def putChar (format : List Byte) (args : FormatArgs) : Call Printed := do
  let (word, args) ← vaWord args
  .ok ⟨[word.setWidth 8], format, args⟩

section Conversions
variable (strings : Ptr → CString)

def argString (str : Ptr) : CString :=
  if str = 0 then text ['(', 'n', 'u', 'l', 'l', ')'] else strings str

/-- `%s`. With a precision the padding goes by it, also where the string is shorter. -/
def putString (s : FormatSpec) (format : List Byte) (args : FormatArgs) : Call Printed :=
  if s.length = .default then do
    let (word, args) ← vaWord args
    let str := argString strings word
    let len := if s.defaultPrec then wrapInt str.length else s.prec
    let pad := putWhile 0x20 s.width len
    let shown := str.take len.toNat
    .ok ⟨if s.flags.ljustify then shown ++ pad else pad ++ shown, format, args⟩
  else .ok ⟨[], format, args⟩

/-- The switch over the conversion specifier `c`. What is no conversion is printed as it stands, from
the `%` on. -/
def putConversion (start : List Byte) (s : FormatSpec) (c : Byte) (format : List Byte)
    (args : FormatArgs) : Call Printed :=
  if c = 0x25 then .ok ⟨[c], format, args⟩
  else if c = 0x63 then putChar format args
  else if c = 0x73 then putString strings s format args
  else if c = 0x6F then putUnsigned 8 false s format args
  else if c = 0x58 then putUnsigned 16 true s format args
  else if c = 0x78 then putUnsigned 16 false s format args
  else if c = 0x64 ∨ c = 0x69 then putSigned s format args
  else if c = 0x75 then putUnsigned 10 false s format args
  else .ok ⟨0x25 :: start.take (start.length - format.length), format, args⟩

/-- One pass of the loop of `_doprintf`. -/
def formatPass (format : List Byte) (args : FormatArgs) : Call Printed :=
  match format with
  | [] => .error .fault
  | c :: start =>
    if c ≠ 0x25 then .ok ⟨[c], start, args⟩
    else do
      let ⟨s, format, args⟩ ← parseSpec (c :: start) args
      match format with
      | [] => .error .fault
      | c :: format => putConversion strings start s c format args

/-- The loop, for a number of passes. -/
def formatLoop : Nat → List Byte → FormatArgs → Call CString
  | 0, _, _ => .error .diverges
  | passes + 1, format, args =>
    if format.head? = some 0 then .ok []
    else do
      let p ← formatPass strings format args
      let out ← formatLoop passes p.format p.args
      .ok (p.out ++ out)

/-- The characters `_doprintf` hands to `putc` before the terminating NUL. A pass uses up a character
of the format at least. -/
def formatOut (format : List Byte) (args : FormatArgs) : Call CString :=
  formatLoop strings (format.length + 1) format args

end Conversions

end Ohwes

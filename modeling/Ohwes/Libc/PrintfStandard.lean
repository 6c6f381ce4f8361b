import Ohwes.Libc.Printf

/-! # The numeric conversions as C99 has them

A conversion specification by its parts, and the characters the standard gives for it. `int` and
`long` have 32 bits, `long long` and `intmax_t` 64. The alternative form of `d`, `i` and `u`, which
the standard leaves undefined, is their plain form here. -/

namespace Ohwes
open Library
set_option autoImplicit false

inductive FlagChar where
  | minus
  | plus
  | space
  | hash
  | zero
  deriving DecidableEq, Repr

inductive NumericSpecifier where
  | d
  | i
  | u
  | o
  | x
  | X
  deriving DecidableEq, Repr

/-- A literal width starts with no zero, which would be a flag. -/
inductive FieldWidth where
  | absent
  | literal (first : Fin 10) (ds : List (Fin 10)) (leads : first ≠ 0)
      (fits : literalValue (first :: ds) ≤ INT_MAX)
  | star (arg : BitVec 32) (above : -(INT_MAX : Int) ≤ arg.toInt)

/-- A lone period is the literal with no digit. -/
inductive FieldPrecision where
  | absent
  | literal (ds : List (Fin 10)) (fits : literalValue ds ≤ INT_MAX)
  | star (arg : BitVec 32) (above : -(INT_MAX : Int) ≤ arg.toInt)

/-- A specification and its argument; of an argument of 32 bits the low word of `arg` is passed. -/
structure NumericConversion where
  flags : List FlagChar
  width : FieldWidth
  precision : FieldPrecision
  length : ArgLength
  specifier : NumericSpecifier
  arg : BitVec 64

/-! ## How it is written -/

def FlagChar.char : FlagChar → Byte
  | .minus => 0x2D
  | .plus => 0x2B
  | .space => 0x20
  | .hash => 0x23
  | .zero => 0x30

def NumericSpecifier.char : NumericSpecifier → Byte
  | .d => 0x64
  | .i => 0x69
  | .u => 0x75
  | .o => 0x6F
  | .x => 0x78
  | .X => 0x58

def FieldWidth.text : FieldWidth → CString
  | .absent => []
  | .literal first ds _ _ => literalText (first :: ds)
  | .star _ _ => [0x2A]

def FieldPrecision.text : FieldPrecision → CString
  | .absent => []
  | .literal ds _ => 0x2E :: literalText ds
  | .star _ _ => [0x2E, 0x2A]

def ArgLength.text : ArgLength → CString
  | .default => []
  | .hh => [0x68, 0x68]
  | .h => [0x68]
  | .l => [0x6C]
  | .ll => [0x6C, 0x6C]
  | .j => [0x6A]
  | .z => [0x7A]
  | .t => [0x74]

/-- What is behind the `%`. -/
def NumericConversion.text (cv : NumericConversion) : CString :=
  cv.flags.map FlagChar.char ++ (cv.width.text ++ (cv.precision.text ++
    (cv.length.text ++ [cv.specifier.char])))

def FieldWidth.words : FieldWidth → FormatArgs
  | .star arg _ => [arg]
  | _ => []

def FieldPrecision.words : FieldPrecision → FormatArgs
  | .star arg _ => [arg]
  | _ => []

/-- The size of the type converted from. -/
def ArgLength.bits : ArgLength → Nat
  | .hh => 8
  | .h => 16
  | .ll => 64
  | .j => 64
  | _ => 32

def NumericConversion.valueWords (cv : NumericConversion) : FormatArgs :=
  if cv.length.bits = 64 then [cv.arg.setWidth 32, cv.arg.extractLsb' 32 32]
  else [cv.arg.setWidth 32]

/-- The arguments the specification takes. -/
def NumericConversion.words (cv : NumericConversion) : FormatArgs :=
  cv.width.words ++ (cv.precision.words ++ cv.valueWords)

/-! ## What it means -/

/-- The width; the minus of a negative argument is a flag. -/
def FieldWidth.size : FieldWidth → Nat
  | .absent => 0
  | .literal first ds _ _ => literalValue (first :: ds)
  | .star arg _ => arg.toInt.natAbs

def FieldWidth.left : FieldWidth → Bool
  | .star arg _ => arg.toInt < 0
  | _ => false

/-- The precision; a negative argument is taken as if it were omitted. -/
def FieldPrecision.size : FieldPrecision → Option Nat
  | .absent => none
  | .literal ds _ => some (literalValue ds)
  | .star arg _ => if arg.toInt < 0 then none else some arg.toInt.natAbs

def NumericSpecifier.signed : NumericSpecifier → Bool
  | .d => true
  | .i => true
  | _ => false

def NumericSpecifier.radix : NumericSpecifier → Nat
  | .o => 8
  | .x => 16
  | .X => 16
  | _ => 10

def digitChar (capital : Bool) (d : Nat) : Byte :=
  BitVec.ofNat 8 (if d < 10 then 0x30 + d else (if capital then 0x41 else 0x61) + (d - 10))

/-- A number in its field: with spaces behind it, with zeros behind its sign or with spaces before
it. -/
def justify (left zeroFill : Bool) (pad : Nat) (head body : CString) : CString :=
  if left then head ++ body ++ List.replicate pad 0x20
  else if zeroFill then head ++ List.replicate pad 0x30 ++ body
  else List.replicate pad 0x20 ++ head ++ body

namespace NumericConversion

def value (cv : NumericConversion) : Int :=
  if cv.specifier.signed then (cv.arg.setWidth cv.length.bits).toInt
  else (cv.arg.setWidth cv.length.bits).toNat

def left (cv : NumericConversion) : Bool := .minus ∈ cv.flags || cv.width.left

def sign (cv : NumericConversion) : CString :=
  if !cv.specifier.signed then []
  else if cv.value < 0 then [0x2D]
  else if .plus ∈ cv.flags then [0x2B]
  else if .space ∈ cv.flags then [0x20]
  else []

def radixSign (cv : NumericConversion) : CString :=
  if .hash ∈ cv.flags ∧ cv.specifier.radix = 16 ∧ cv.value ≠ 0 then [0x30, cv.specifier.char] else []

/-- What stands before the digits: a sign or `0x`. -/
def head (cv : NumericConversion) : CString := cv.sign ++ cv.radixSign

def digits (cv : NumericConversion) : CString :=
  (numeral cv.specifier.radix cv.value.natAbs).map (digitChar (cv.specifier = .X))

/-- The minimum number of digits. -/
def minDigits (cv : NumericConversion) : Nat := cv.precision.size.getD 1

/-- The digits, with the zeros of the precision and the zero of the alternative octal form. -/
def body (cv : NumericConversion) : CString :=
  let ds := List.replicate (cv.minDigits - cv.digits.length) 0x30 ++ cv.digits
  if .hash ∈ cv.flags ∧ cv.specifier.radix = 8 ∧ ds.head? ≠ some 0x30 then 0x30 :: ds else ds

/-- The characters of the conversion. The `0` flag is ignored beside a `-` and beside a precision. -/
def standardOutput (cv : NumericConversion) : CString :=
  justify cv.left (.zero ∈ cv.flags && cv.precision.size = none)
    (cv.width.size - (cv.head.length + cv.body.length)) cv.head cv.body

/-- The digits of the precision and what stands before them are no more than an `int` can count. -/
def Countable (cv : NumericConversion) : Prop := cv.minDigits + cv.head.length ≤ INT_MAX

instance (cv : NumericConversion) : Decidable cv.Countable := inferInstanceAs (Decidable (_ ≤ _))

end NumericConversion

end Ohwes

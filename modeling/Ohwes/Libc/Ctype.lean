import Ohwes.Libc.String
import Ohwes.Library.Numerals

/-! # `libc/ctype.c` and the number scanner of `libc/string.c`

A `char` is its byte. The functions of `ctype.c` take an `int`, to which a `char` is extended with
its sign; the characters from `0x80` on are negative there and belong to no class, as their bytes
belong to none here. -/

namespace Ohwes
set_option autoImplicit false
open Library

def toChar (c : Byte) : Char := Char.ofNat c.toNat

def isdigit (c : Byte) : Bool := 0x30 ≤ c && c ≤ 0x39

def isupper (c : Byte) : Bool := 0x41 ≤ c && c ≤ 0x5A

def islower (c : Byte) : Bool := 0x61 ≤ c && c ≤ 0x7A

def isalpha (c : Byte) : Bool := isupper c || islower c

def isalnum (c : Byte) : Bool := isalpha c || isdigit c

def isspace (c : Byte) : Bool :=
  c == 0x09 || c == 0x0C || c == 0x0B || c == 0x0A || c == 0x0D || c == 0x20

def isxdigit (c : Byte) : Bool := isdigit c || 0x41 ≤ c && c ≤ 0x46 || 0x61 ≤ c && c ≤ 0x66

def toxdigit (c : Byte) : Byte :=
  let c := c &&& 0xF
  if c > 9 then c - 0xA + 0x61 else c + 0x30

def tolower (c : Byte) : Byte := if isupper c then c ||| 0x20 else c

def toupper (c : Byte) : Byte := if islower c then c &&& ~~~0x20 else c

/-! ## Decimal literals -/

def INT_MAX : Nat := 2147483647

/-- The value of a literal. -/
def literalValue (ds : List (Fin 10)) : Nat := readDigits 10 0 (ds.map Fin.val)

def literalText (ds : List (Fin 10)) : CString := ds.map fun d => BitVec.ofNat 8 (0x30 + d.val)

/-! ## `_strtoull` -/

inductive ScanState where
  | space
  | sign
  | base
  | number
  deriving DecidableEq, Repr

/-- The local variables of `_strtoull`; the sign is whether there was a minus. -/
structure Scan where
  state : ScanState
  base : Nat
  minus : Bool
  length : Nat
  value : BitVec 64
  valid : Bool
  signSeen : Bool
  zeroSeen : Bool
  deriving DecidableEq, Repr

def Scan.start (base : Nat) : Scan where
  state := .space
  base := base
  minus := false
  length := 0
  value := 0
  valid := false
  signSeen := false
  zeroSeen := false

def digitValue (c : Byte) : Nat :=
  if isdigit c then (c - 0x30).toNat else 10 + (tolower c - 0x61).toNat

/-- The part of the loop for a digit. The flag says whether the loop goes on. -/
def scanNumber (s : Scan) (c : Byte) : Scan × Bool :=
  if !isalnum c then (s, false)
  else if digitValue c ≥ s.base then (s, false)
  else
    ({ s with
        value := s.value * BitVec.ofNat 64 s.base + BitVec.ofNat 64 (digitValue c)
        valid := true
        length := s.length + 1 }, true)

/-- The part of the loop for the base. A leading zero makes it octal, even where the base is 16. -/
def scanBase (s : Scan) (c : Byte) : Scan × Bool :=
  if s.state ≠ .base then scanNumber s c
  else if s.base = 0 ∨ s.base = 8 ∨ s.base = 16 then
    if !s.zeroSeen && c == 0x30 then ({ s with zeroSeen := true, base := 8, valid := true }, true)
    else if s.zeroSeen && tolower c == 0x78 then ({ s with base := 16 }, true)
    else scanNumber { s with base := if s.base = 0 then 10 else s.base, state := .number } c
  else scanNumber { s with state := .number } c

def scanSign (s : Scan) (c : Byte) : Scan × Bool :=
  if s.state ≠ .sign then scanBase s c
  else if !s.signSeen && c == 0x2B then ({ s with signSeen := true, minus := false }, true)
  else if !s.signSeen && c == 0x2D then ({ s with signSeen := true, minus := true }, true)
  else scanBase { s with state := .base } c

/-- One pass of the loop on the character at `p`. -/
def scanChar (s : Scan) (c : Byte) : Scan × Bool :=
  if s.state ≠ .space then scanSign s c
  else if isspace c then (s, true)
  else scanSign { s with state := .sign } c

/-- The loop, from the `p`-th character on. It never goes on after the terminating NUL. -/
def scanLoop : CString → Nat → Scan → Scan × Nat
  | [], p, s => ((scanChar s 0).1, p + 1)
  | c :: str, p, s =>
    if (scanChar s c).2 then scanLoop str (p + 1) (scanChar s c).1 else ((scanChar s c).1, p + 1)

/-- The value, and where `str_end` points to; a base out of range leaves that alone. -/
def strtoull (str : CString) (base : Nat) : BitVec 64 × Option Nat :=
  if (base < 2 ∨ base > 36) ∧ base ≠ 0 then (0, none)
  else
    let x := scanLoop str 0 (Scan.start base)
    let s := x.1
    let p := if s.length = 0 ∧ s.base = 16 ∧ s.zeroSeen then x.2 - 1 else x.2
    (if s.minus then -s.value else s.value, some (if s.valid then p - 1 else 0))

/-- `long` is 32 bits wide. -/
def strtol (str : CString) (base : Nat) : BitVec 32 × Option Nat :=
  ((strtoull str base).1.truncate 32, (strtoull str base).2)

example : strtol (text ['1', 'f', ',', '2']) 16 = (0x1F, some 2) := by decide

end Ohwes

import Ohwes.Libc.PrintfText

/-! # `i386/kernel/crash.c`: text on the crash screen

`wrap_text` sets a text in lines with a margin on both sides. It goes over the formatted text in its
buffer with the pointers `p` and `word`, each given here by the string it points to, and hands what
it prints to `fbprint`. -/

namespace Ohwes
set_option autoImplicit false

def CRASH_BUFSIZ : Nat := 1024

/-- The buffer of `wrap_text` after `vsnprintf`, with a text shorter than the buffer. -/
structure CrashBuffer where
  base : Ptr
  text : CString
  nonNull : base ≠ 0
  inside : base.toNat + CRASH_BUFSIZ ≤ 2 ^ 32
  fits : text.length < CRASH_BUFSIZ
  notNul : 0 ∉ text

namespace CrashBuffer
variable (b : CrashBuffer)

/-- `p - buf`, for the pointer to a string in the buffer. -/
def offset (p : CString) : Nat := b.text.length - p.length

def pointer (p : CString) : Ptr := b.base + BitVec.ofNat 32 (b.offset p)

/-- The string at an address. -/
def string (a : Ptr) : CString := b.text.drop (a - b.base).toNat

/-- The characters that a call of `fbprint` prints. -/
def fbprint (format : CString) (args : FormatArgs) : Call CString :=
  formatOut b.string (format ++ [0]) args

end CrashBuffer

/-- `esc`: no escape sequence, behind its first character, in its parameters. -/
inductive CrashEsc where
  | none
  | esc
  | csi
deriving DecidableEq, Repr

/-- The variables of `wrap_text`, but for `p`; `out` is what has been printed. -/
structure Wrap where
  word : CString
  linelen : Nat
  wordlen : Nat
  esclen : Nat
  printMargin : Bool
  esc : CrashEsc
  out : CString
deriving DecidableEq, Repr

section Model
variable (b : CrashBuffer)

def Wrap.print (s : Wrap) (format : CString) (args : FormatArgs) : Call Wrap := do
  let printed ← b.fbprint format args
  .ok { s with out := s.out ++ printed }

/-- `fbprint("%.*s", wordlen + esclen, word)`. -/
def Wrap.printWord (s : Wrap) : Call Wrap :=
  s.print b [0x25, 0x2E, 0x2A, 0x73] [BitVec.ofNat 32 (s.wordlen + s.esclen), b.pointer s.word]

def Wrap.printSpaces (s : Wrap) : Nat → Call Wrap
  | 0 => .ok s
  | margin + 1 => do (← s.print b [0x20] []).printSpaces margin

variable (margin cols : Nat)

/-- The line is too long: a new one is begun. -/
def Wrap.newLine (s : Wrap) : Call Wrap := do
  let s ← s.print b [0x0D, 0x0A] []
  .ok { s with linelen := 2 * margin + s.wordlen, printMargin := true }

/-- The check at the head of the inner loop. -/
def Wrap.checkLine (s : Wrap) : Call Wrap := if s.linelen > cols then s.newLine b margin else .ok s

/-- The margin before the first character of a line. -/
def Wrap.putMargin (s : Wrap) : Call Wrap :=
  if s.printMargin then do
    let s ← s.printSpaces b margin
    .ok { s with printMargin := false }
  else .ok s

/-- The inner loop: over the word at `p`, up to a line feed or a space outside of escape
sequences. -/
def scanWord : CString → Wrap → Call (CString × Wrap)
  | [], s => .ok ([], s)
  | c :: rest, s =>
    if b.offset (c :: rest) < CRASH_BUFSIZ then do
      let s ← s.checkLine b margin cols
      if c = 0x0A then
        let s ← s.printWord b
        .ok (c :: rest, { s with linelen := 2 * margin, printMargin := true })
      else if c = 0x1B then scanWord rest { s with esc := .esc, esclen := s.esclen + 1 }
      else match s.esc with
        | .esc =>
          let s := { s with esclen := s.esclen + 1 }
          if c = 0x5B then scanWord rest { s with esc := .csi }
          else scanWord rest { s with esc := .none }
        | .csi =>
          let s := { s with esclen := s.esclen + 1 }
          if isdigit c || c == 0x3B then scanWord rest s
          else scanWord rest { s with esc := .none }
        | .none =>
          let s ← s.putMargin b margin
          if isspace c then
            let s ← s.printWord b
            .ok (c :: rest, s)
          else scanWord rest { s with wordlen := s.wordlen + 1, linelen := s.linelen + 1 }
    else .ok (c :: rest, s)

/-- The white space behind the word. -/
def eatSpaces : CString → Wrap → Call (CString × Wrap)
  | [], s => .ok ([], s)
  | c :: rest, s =>
    if isspace c then
      if s.linelen > cols then do
        let s ← s.newLine b margin
        .ok (c :: rest, s)
      else if s.linelen > 0 then do
        let s ← s.print b [0x25, 0x63] [c.signExtend 32]
        eatSpaces rest { s with linelen := s.linelen + 1 }
      else eatSpaces rest s
    else .ok (c :: rest, s)

/-- The outer loop, for at most so many words. -/
def wrapLoop : Nat → CString → Wrap → Call Wrap
  | 0, _, _ => .error .diverges
  | fuel + 1, p, s =>
    if b.offset p < CRASH_BUFSIZ ∧ p ≠ [] then do
      let (p, s) ← scanWord b margin cols p { s with word := p, wordlen := 0, esclen := 0 }
      let (p, s) ← eatSpaces b margin cols p s
      wrapLoop fuel p s
    else .ok s

end Model

/-- What the variables are set to. -/
def Wrap.start (text : CString) (margin : Nat) : Wrap where
  word := text
  linelen := 2 * margin
  wordlen := 0
  esclen := 0
  printMargin := true
  esc := .none
  out := []

/-- `wrap_text` on a screen of `cols` columns: all that it prints. -/
def wrapText (b : CrashBuffer) (margin : Int) (cols : BitVec 8) (fuel : Nat) : Call CString :=
  if margin < 0 then .ok []
  else do
    let s ← wrapLoop b margin.toNat cols.toNat fuel b.text (Wrap.start b.text margin.toNat)
    let s ← s.printWord b
    .ok s.out

/-! ## What is printed -/

namespace CrashBuffer
variable (b : CrashBuffer)

theorem fbprint_text (cv : TextConversion) :
    b.fbprint (0x25 :: cv.text) cv.words = .ok (cv.output b.string) := by
  have hpass := cv.formatPass_text b.string [0] []
  rw [List.append_nil] at hpass
  rw [fbprint, List.cons_append, formatOut_step (by decide) hpass]
  simp [formatOut, formatLoop, Except.map]

theorem fbprint_char (c : Byte) : b.fbprint [0x25, 0x63] [c.signExtend 32] = .ok [c] := by
  have hout := b.fbprint_text ⟨[], .absent, .absent, .c, c.signExtend 32⟩
  have hc : (c.signExtend 32).setWidth 8 = c := by
    apply BitVec.eq_of_getLsbD_eq
    intro i hi
    rw [BitVec.getLsbD_setWidth, BitVec.getLsbD_signExtend]
    simp [hi]
    omega
  rw [TextConversion.output] at hout
  simp only [hc] at hout
  exact hout

theorem fbprint_space : b.fbprint [0x20] [] = .ok [0x20] := rfl

theorem fbprint_newLine : b.fbprint [0x0D, 0x0A] [] = .ok [0x0D, 0x0A] := rfl

/-- The pointer to a string in the buffer points to it. -/
theorem string_pointer {p : CString} (hp : p <:+ b.text) : b.string (b.pointer p) = p := by
  obtain ⟨before, hbefore⟩ := hp
  have hlen : b.offset p = before.length := by
    rw [offset, ← hbefore, List.length_append, Nat.add_sub_cancel]
  have hsmall : before.length < 2 ^ 32 := by
    have := b.fits
    rw [← hbefore, List.length_append] at this
    simp only [CRASH_BUFSIZ] at this
    omega
  have hoff : b.pointer p - b.base = BitVec.ofNat 32 before.length := by
    rw [pointer, hlen, BitVec.add_comm, BitVec.add_sub_cancel]
  rw [string, hoff, BitVec.toNat_ofNat, Nat.mod_eq_of_lt hsmall, ← hbefore, List.drop_left]

theorem pointer_ne_zero (p : CString) : b.pointer p ≠ 0 := by
  intro h
  have hbase : b.base.toNat ≠ 0 := fun e => b.nonNull (BitVec.eq_of_toNat_eq e)
  have hoffset : b.offset p < CRASH_BUFSIZ := Nat.lt_of_le_of_lt (Nat.sub_le ..) b.fits
  have hinside := b.inside
  have hzero : (b.pointer p).toNat = 0 := congrArg BitVec.toNat h
  rw [pointer, BitVec.toNat_add, BitVec.toNat_ofNat] at hzero
  simp only [CRASH_BUFSIZ] at hoffset hinside
  omega

theorem fbprint_word {p : CString} (hp : p <:+ b.text) {n : Nat} (hn : n ≤ p.length) :
    b.fbprint [0x25, 0x2E, 0x2A, 0x73] [BitVec.ofNat 32 n, b.pointer p] = .ok (p.take n) := by
  have hlen : p.length < CRASH_BUFSIZ := Nat.lt_of_le_of_lt hp.length_le b.fits
  simp only [CRASH_BUFSIZ] at hlen
  have hint : (BitVec.ofNat 32 n).toInt = n := by
    rw [BitVec.toInt_eq_toNat_of_lt, BitVec.toNat_ofNat]
    · omega
    · rw [BitVec.toNat_ofNat]
      omega
  have habove : -(INT_MAX : Int) ≤ (BitVec.ofNat 32 n).toInt := by
    rw [hint]
    have : (INT_MAX : Int) = 2147483647 := rfl
    omega
  have hout := b.fbprint_text ⟨[], .absent, .star (BitVec.ofNat 32 n) habove, .s, b.pointer p⟩
  have hstring : argString b.string (b.pointer p) = p := by
    rw [argString, if_neg (b.pointer_ne_zero p), b.string_pointer hp]
  have hsize : (FieldPrecision.star (BitVec.ofNat 32 n) habove).size = some n := by
    rw [FieldPrecision.size, hint, if_neg (by omega), Int.natAbs_natCast]
  simp only [TextConversion.output, TextConversion.putShown, hstring, hsize,
    Int.toNat_natCast] at hout
  simp [justify, FieldWidth.size, TextConversion.left, FieldWidth.left] at hout
  exact hout

end CrashBuffer

section Printing
variable (b : CrashBuffer) (s : Wrap)

theorem Wrap.print_ok {format printed : CString} {args : FormatArgs}
    (h : b.fbprint format args = .ok printed) :
    s.print b format args = .ok { s with out := s.out ++ printed } := by
  rw [Wrap.print, h, ok_bind]

theorem Wrap.newLine_eq (margin : Nat) :
    s.newLine b margin =
      .ok { s with
        linelen := 2 * margin + s.wordlen, printMargin := true, out := s.out ++ [0x0D, 0x0A] } := by
  rw [Wrap.newLine, s.print_ok b b.fbprint_newLine, ok_bind]

theorem Wrap.printSpaces_eq (margin : Nat) :
    s.printSpaces b margin = .ok { s with out := s.out ++ List.replicate margin 0x20 } := by
  induction margin generalizing s with
  | zero => simp [Wrap.printSpaces]
  | succ margin ih =>
    rw [Wrap.printSpaces, s.print_ok b b.fbprint_space, ok_bind, ih, List.replicate_succ]
    simp

theorem Wrap.printWord_eq {done rest : CString} (hword : s.word = done ++ rest)
    (hlen : s.wordlen + s.esclen = done.length) (hin : s.word <:+ b.text) :
    s.printWord b = .ok { s with out := s.out ++ done } := by
  have hroom : s.wordlen + s.esclen ≤ s.word.length := by
    rw [hlen, hword, List.length_append]
    exact Nat.le_add_right ..
  have htake : s.word.take (s.wordlen + s.esclen) = done := by rw [hlen, hword, List.take_left]
  rw [Wrap.printWord, s.print_ok b (b.fbprint_word hin hroom), htake]

end Printing

end Ohwes

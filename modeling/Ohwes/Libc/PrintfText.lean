import Ohwes.Libc.PrintfConversion

/-! # `%c` and `%s`

What the standard asks of the two conversions of characters, and where `_doprintf` does it: `%c` is
never padded, and `%s` is padded by its precision, as if the string were at least that long. -/

namespace Ohwes
set_option autoImplicit false

inductive TextSpecifier where
  | c
  | s
  deriving DecidableEq, Repr

/-- A specification and its argument, the character or the address of the string. -/
structure TextConversion where
  flags : List FlagChar
  width : FieldWidth
  precision : FieldPrecision
  specifier : TextSpecifier
  arg : BitVec 32

def TextSpecifier.char : TextSpecifier → Byte
  | .c => 0x63
  | .s => 0x73

namespace TextConversion

/-- What is behind the `%`. -/
def text (cv : TextConversion) : CString :=
  cv.flags.map FlagChar.char ++ (cv.width.text ++ (cv.precision.text ++ [cv.specifier.char]))

/-- The arguments the specification takes. -/
def words (cv : TextConversion) : FormatArgs := cv.width.words ++ (cv.precision.words ++ [cv.arg])

def left (cv : TextConversion) : Bool := .minus ∈ cv.flags || cv.width.left

section Strings
variable (strings : Ptr → CString) (cv : TextConversion)

/-- The character, or as much of the string as the precision allows. -/
def shown : CString :=
  match cv.specifier with
  | .c => [cv.arg.setWidth 8]
  | .s => (argString strings cv.arg).take (cv.precision.size.getD (argString strings cv.arg).length)

/-- The characters the standard asks for. -/
def standardOutput : CString :=
  justify cv.left false (cv.width.size - (cv.shown strings).length) [] (cv.shown strings)

/-- Where the source prints them: a character fits its field; the precision is within the string, or
the field is; a string without a precision has a length an `int` can count, or is made of as many
spaces as a negative length is padded with. -/
def PadsRight : Prop :=
  match cv.specifier, cv.precision.size with
  | .c, _ => cv.width.size ≤ 1
  | .s, some prec =>
    prec ≤ (argString strings cv.arg).length ∨ cv.width.size ≤ (argString strings cv.arg).length
  | .s, none =>
    (argString strings cv.arg).length ≤ INT_MAX ∨
      argString strings cv.arg = List.replicate (argString strings cv.arg).length 0x20 ∧
        ((argString strings cv.arg).length : Int) =
          cv.width.size - wrapInt (argString strings cv.arg).length

/-! ## What the source prints -/

def spec : FormatSpec := fieldSpec cv.flags cv.width cv.precision .default

/-- What `%s` prints where its precision, or its length, is `len`. -/
def putShown (str : CString) (len : Int) : CString :=
  justify cv.left false (cv.width.size - len).toNat [] (str.take len.toNat)

/-- The output of the source. -/
def output : CString :=
  match cv.specifier with
  | .c => [cv.arg.setWidth 8]
  | .s =>
    cv.putShown (argString strings cv.arg)
      (match cv.precision.size with
        | some prec => (prec : Int)
        | none => wrapInt (argString strings cv.arg).length)

theorem specifier_endsLength : EndsLength cv.specifier.char where
  alpha := by cases cv.specifier <;> rfl
  add length := by cases cv.specifier <;> rfl

theorem putString_eq (hs : cv.specifier = .s) (rest : List Byte) (more : FormatArgs) :
    putString strings cv.spec rest (cv.arg :: more) = .ok ⟨cv.output strings, rest, more⟩ := by
  have hlen : (if cv.spec.defaultPrec then wrapInt (argString strings cv.arg).length
      else cv.spec.prec) =
        match cv.precision.size with
        | some prec => (prec : Int)
        | none => wrapInt (argString strings cv.arg).length := by
    have hdefault : cv.spec.defaultPrec = decide (cv.precision.size = none) := rfl
    have hprec : cv.spec.prec = (cv.precision.size.getD 1 : Nat) := rfl
    rw [hdefault, hprec]
    cases cv.precision.size with
    | none => exact if_pos (decide_eq_true rfl)
    | some prec => exact if_neg (by simp)
  have hleft : cv.spec.flags.ljustify = cv.left := rfl
  have hwidth : cv.spec.width = cv.width.size := rfl
  have hlength : cv.spec.length = .default := rfl
  rw [putString, if_pos hlength, vaWord, ok_bind]
  simp only [hlen, hleft, hwidth, putWhile_eq]
  rw [output, hs, putShown, justify]
  simp

theorem formatPass_text (rest : List Byte) (more : FormatArgs) :
    formatPass strings (0x25 :: (cv.text ++ rest)) (cv.words ++ more) =
      .ok ⟨cv.output strings, rest, more⟩ := by
  have hspec : parseSpec (0x25 :: (cv.text ++ rest)) (cv.words ++ more) =
      .ok ⟨cv.spec, cv.specifier.char :: rest, cv.arg :: more⟩ := by
    have hparse := parseSpec_fields cv.flags cv.width cv.precision .default
      cv.specifier_endsLength rest (cv.arg :: more) 0x25
    have hnone : ArgLength.default.text = [] := rfl
    rw [hnone, List.nil_append] at hparse
    rw [text, words, spec]
    simpa using hparse
  rw [formatPass]
  simp only [ne_eq, not_true_eq_false, if_false, hspec, ok_bind]
  cases hs : cv.specifier with
  | c =>
    rw [output, hs]
    rfl
  | s => exact cv.putString_eq strings hs rest more

end Strings

/-! ## Against the standard -/

section Against
variable {strings : Ptr → CString} (cv : TextConversion)

theorem putShown_length (str : CString) (len : Int) :
    (cv.putShown str len).length = (cv.width.size - len).toNat + min len.toNat str.length := by
  rw [putShown, justify_length, List.length_take, List.length_nil, Nat.add_zero]

theorem justify_nil (left : Bool) (pad : Nat) :
    justify left false pad [] [] = List.replicate pad 0x20 := by
  cases left with
  | true => rfl
  | false => simp [justify]

/-- With a precision. -/
theorem putShown_prec_iff (str : CString) (prec : Nat) :
    cv.putShown str prec = justify cv.left false (cv.width.size - (str.take prec).length) []
        (str.take prec) ↔
      prec ≤ str.length ∨ cv.width.size ≤ str.length := by
  rw [putShown, Int.toNat_natCast, justify_inj, List.length_take]
  omega

/-- Without one, where the length of the string cannot be counted. -/
theorem putShown_long_iff (str : CString) (hlong : INT_MAX < str.length) :
    cv.putShown str (wrapInt str.length) = str ↔
      str = List.replicate str.length 0x20 ∧
        (str.length : Int) = cv.width.size - wrapInt str.length := by
  have hmax : INT_MAX = 2147483647 := rfl
  have hwidth := cv.width.size_le
  have hle := wrapInt_le str.length
  generalize wrapInt str.length = len at *
  constructor
  · intro h
    have hlen := cv.putShown_length str len
    rw [h] at hlen
    have hneg : len < 0 := by
      by_contra hpos
      omega
    have hnone : len.toNat = 0 := by omega
    refine ⟨?_, by omega⟩
    have hspaces := h
    rw [putShown, hnone, List.take_zero, justify_nil] at hspaces
    rw [← hspaces, List.length_replicate]
  · rintro ⟨hspaces, hlen⟩
    have hnone : len.toNat = 0 := by omega
    have hpad : (cv.width.size - len).toNat = str.length := by omega
    rw [putShown, hnone, hpad, List.take_zero, justify_nil]
    exact hspaces.symm

theorem output_iff : cv.output strings = cv.standardOutput strings ↔ cv.PadsRight strings := by
  rw [output, standardOutput, shown, PadsRight]
  cases cv.specifier with
  | c =>
    simp only [List.length_singleton]
    constructor
    · intro h
      have hlen := congrArg List.length h
      rw [justify_length, List.length_singleton] at hlen
      simp at hlen
      omega
    · intro h
      rw [Nat.sub_eq_zero_of_le h, justify]
      cases cv.left <;> rfl
  | s =>
    cases hp : cv.precision.size with
    | some prec => exact cv.putShown_prec_iff (argString strings cv.arg) prec
    | none =>
      simp only [Option.getD_none, List.take_length]
      by_cases hlong : INT_MAX < (argString strings cv.arg).length
      · have hwidth := cv.width.size_le
        have hstd : justify cv.left false
            (cv.width.size - (argString strings cv.arg).length) [] (argString strings cv.arg) =
              argString strings cv.arg := by
          rw [Nat.sub_eq_zero_of_le (by omega), justify]
          cases cv.left <;> simp
        rw [hstd, cv.putShown_long_iff _ hlong, or_iff_right (by omega)]
      · refine iff_of_true ?_ (Or.inl (Nat.le_of_not_lt hlong))
        rw [putShown, wrapInt_of_le (by omega) (by omega), Int.toNat_natCast, List.take_length,
          justify_inj]
        omega

end Against

end TextConversion

/-- At `%c` and `%s` `_doprintf` takes their arguments and prints characters, then goes on with the
rest of the format. The characters are those of the standard exactly where the padding is right. -/
theorem text_conversion_standard (strings : Ptr → CString) (cv : TextConversion) :
    ∃ out, (∀ (rest : List Byte) (more : FormatArgs),
        formatOut strings (0x25 :: (cv.text ++ rest)) (cv.words ++ more) =
          (formatOut strings rest more).map (out ++ ·)) ∧
      (out = cv.standardOutput strings ↔ cv.PadsRight strings) :=
  ⟨cv.output strings,
    fun rest more => formatOut_step (by decide) (cv.formatPass_text strings rest more),
    cv.output_iff⟩

/-- `%-5c` of an `A`, and what comes of it. -/
theorem char_not_padded :
    formatOut (fun _ => []) (text ['%', '-', '5', 'c'] ++ [0]) [0x41] ≠
      .ok (text ['A', ' ', ' ', ' ', ' ']) := by
  decide

end Ohwes

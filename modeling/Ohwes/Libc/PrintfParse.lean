import Ohwes.Libc.PrintfStandard

/-! # How `_doprintf` reads a specification

What the parser leaves is always a suffix of what it was given, so that a pass makes the format
shorter. Each field of a numeric conversion is read back from its text, when what is behind it starts
with no character that the field could go on with. -/

namespace Ohwes
open Library
set_option autoImplicit false

/-! ## Suffixes -/

theorem parseFlags_suffix {flags flags' : FormatFlags} {format format' : List Byte}
    (h : parseFlags flags format = .ok (flags', format')) : format' <:+ format := by
  induction flags, format using parseFlags.induct with
  | case1 flags c format =>
    rw [parseFlags, if_pos rfl] at h
    cases h
    exact List.suffix_refl _
  | case2 flags c next format hnext flags₁ hadd ih =>
    rw [parseFlags, if_neg hnext, hadd] at h
    exact (ih h).trans (List.suffix_cons c _)
  | case3 flags c next format hnext hadd =>
    rw [parseFlags, if_neg hnext, hadd] at h
    cases h
    exact List.suffix_cons c _
  | case4 flags format hne =>
    rw [parseFlags] at h
    · cases h
    · exact hne

theorem parseDigits_suffix {value value' : Int} {format format' : List Byte}
    (h : parseDigits value format = .ok (value', format')) : format' <:+ format := by
  induction format generalizing value with
  | nil => cases h
  | cons c format ih =>
    rw [parseDigits] at h
    split at h
    · exact (ih h).trans (List.suffix_cons c _)
    · cases h
      exact List.suffix_refl _

theorem advanceFormat_suffix {format format' : List Byte} (h : advanceFormat format = .ok format') :
    format' <:+ format := by
  match format with
  | [] => cases h
  | [c] => cases h
  | c :: next :: format =>
    cases h
    exact List.suffix_cons c _

theorem parseWidth_suffix {flags : FormatFlags} {format : List Byte} {args : FormatArgs}
    {p : Parsed (FormatFlags × Int)} (h : parseWidth flags format args = .ok p) :
    p.format <:+ format := by
  rw [parseWidth, bind_ok] at h
  obtain ⟨⟨width, format₁⟩, hdigits, h⟩ := h
  have h₁ := parseDigits_suffix hdigits
  simp only at h
  split at h
  · rw [starWidth, bind_ok] at h
    obtain ⟨⟨word, args₁⟩, -, h⟩ := h
    rw [bind_ok] at h
    obtain ⟨format₂, hadv, h⟩ := h
    have h₂ := (advanceFormat_suffix hadv).trans h₁
    split at h
    · cases h
      exact h₂
    · cases h
      exact h₂
  · cases h
    exact h₁

theorem parsePrecision_suffix {format : List Byte} {args : FormatArgs} {p : Parsed Precision}
    (h : parsePrecision format args = .ok p) : p.format <:+ format := by
  rw [parsePrecision] at h
  split at h
  · rw [dotPrecision, bind_ok] at h
    obtain ⟨format₁, hadv, h⟩ := h
    rw [bind_ok] at h
    obtain ⟨⟨prec, format₂⟩, hdigits, h⟩ := h
    have h₂ := (parseDigits_suffix hdigits).trans (advanceFormat_suffix hadv)
    simp only at h
    split at h
    · rw [starPrecision, bind_ok] at h
      obtain ⟨⟨word, args₁⟩, -, h⟩ := h
      rw [bind_ok] at h
      obtain ⟨format₃, hadv, h⟩ := h
      have h₃ := (advanceFormat_suffix hadv).trans h₂
      split at h
      · cases h
        exact h₃
      · cases h
        exact h₃
    · cases h
      exact h₂
  · cases h
    exact List.suffix_refl _

theorem parseLength_suffix {length length' : ArgLength} {format format' : List Byte}
    (h : parseLength length format = .ok (length', format')) : format' <:+ format := by
  induction format generalizing length with
  | nil => cases h
  | cons c format ih =>
    rw [parseLength] at h
    split at h
    · cases h
      exact List.suffix_refl _
    · exact (ih h).trans (List.suffix_cons c _)
    · cases hadv : advanceFormat (c :: format) with
      | error e =>
        rw [hadv] at h
        cases h
      | ok format₁ =>
        rw [hadv] at h
        cases h
        exact advanceFormat_suffix hadv

theorem parseSpec_suffix {format : List Byte} {args : FormatArgs} {p : Parsed FormatSpec}
    (h : parseSpec format args = .ok p) : p.format <:+ format := by
  rw [parseSpec, bind_ok] at h
  obtain ⟨⟨flags, format₁⟩, h₁, h⟩ := h
  rw [bind_ok] at h
  obtain ⟨⟨⟨flags₂, width⟩, format₂, args₂⟩, h₂, h⟩ := h
  rw [bind_ok] at h
  obtain ⟨⟨⟨defaultPrec, prec⟩, format₃, args₃⟩, h₃, h⟩ := h
  rw [bind_ok] at h
  obtain ⟨⟨length, format₄⟩, h₄, h⟩ := h
  cases h
  exact (parseLength_suffix h₄).trans ((parsePrecision_suffix h₃).trans
    ((parseWidth_suffix h₂).trans (parseFlags_suffix h₁)))

/-! ## The characters between the fields -/

/-- A character that ends the flags. -/
def EndsFlags (c : Byte) : Prop := c ≠ 0 ∧ ∀ flags : FormatFlags, flags.add c = none

theorem endsFlags_iff {c : Byte} :
    EndsFlags c ↔ c ≠ 0 ∧ c ≠ 0x2D ∧ c ≠ 0x2B ∧ c ≠ 0x20 ∧ c ≠ 0x23 ∧ c ≠ 0x30 := by
  constructor
  · rintro ⟨h0, h⟩
    have hadd := h FormatFlags.clear
    rw [FormatFlags.add] at hadd
    split_ifs at hadd
    simp_all
  · rintro ⟨h0, h₁, h₂, h₃, h₄, h₅⟩
    refine ⟨h0, fun flags => ?_⟩
    rw [FormatFlags.add, if_neg h₁, if_neg h₂, if_neg h₃, if_neg h₄, if_neg h₅]

/-- A character that starts the precision or a later field. -/
def StartsTail (c : Byte) : Prop := isalpha c ∨ c = 0x2E

instance (c : Byte) : Decidable (StartsTail c) := inferInstanceAs (Decidable (_ ∨ _))

theorem not_field_of_isalpha {c : Byte} (h : isalpha c) :
    isdigit c = false ∧ c ≠ 0x2A ∧ c ≠ 0x2E := by
  have hall : ∀ c : Byte, isalpha c → isdigit c = false ∧ c ≠ 0x2A ∧ c ≠ 0x2E := by decide
  exact hall c h

theorem StartsTail.not_width {c : Byte} (h : StartsTail c) : isdigit c = false ∧ c ≠ 0x2A := by
  have hall : ∀ c : Byte, StartsTail c → isdigit c = false ∧ c ≠ 0x2A := by decide
  exact hall c h

theorem StartsTail.endsFlags {c : Byte} (h : StartsTail c) : EndsFlags c := by
  have hall : ∀ c : Byte, StartsTail c →
      c ≠ 0 ∧ c ≠ 0x2D ∧ c ≠ 0x2B ∧ c ≠ 0x20 ∧ c ≠ 0x23 ∧ c ≠ 0x30 := by decide
  exact endsFlags_iff.mpr (hall c h)

/-- A conversion character that no length modifier is. -/
structure EndsLength (c : Byte) : Prop where
  alpha : isalpha c
  add (length : ArgLength) : length.add c = none

theorem NumericSpecifier.endsLength (specifier : NumericSpecifier) : EndsLength specifier.char where
  alpha := by cases specifier <;> rfl
  add length := by cases specifier <;> rfl

section Fields
variable {conv : Byte} (hconv : EndsLength conv) (rest : List Byte)
include hconv

theorem length_starts (length : ArgLength) :
    ∃ c tail, length.text ++ conv :: rest = c :: tail ∧ isalpha c := by
  cases length with
  | default => exact ⟨_, _, rfl, hconv.alpha⟩
  | _ => exact ⟨_, _, rfl, rfl⟩

theorem precision_starts (precision : FieldPrecision) (length : ArgLength) :
    ∃ c tail, precision.text ++ (length.text ++ conv :: rest) = c :: tail ∧ StartsTail c := by
  cases precision with
  | absent =>
    obtain ⟨c, tail, htext, hc⟩ := length_starts hconv rest length
    exact ⟨c, tail, htext, Or.inl hc⟩
  | literal ds fits => exact ⟨_, _, rfl, Or.inr rfl⟩
  | star arg above => exact ⟨_, _, rfl, Or.inr rfl⟩

theorem width_starts (width : FieldWidth) (precision : FieldPrecision) (length : ArgLength) :
    ∃ c tail, width.text ++ (precision.text ++ (length.text ++ conv :: rest)) = c :: tail ∧
      EndsFlags c := by
  cases width with
  | absent =>
    obtain ⟨c, tail, htext, hc⟩ := precision_starts hconv rest precision length
    exact ⟨c, tail, htext, hc.endsFlags⟩
  | literal first ds leads fits =>
    refine ⟨_, _, rfl, endsFlags_iff.mpr ?_⟩
    revert leads
    clear fits
    revert first
    decide
  | star arg above => exact ⟨_, _, rfl, endsFlags_iff.mpr (by decide)⟩

end Fields

/-! ## Reading the fields back -/

/-- The flags after those of a list. -/
def FormatFlags.addAll (flags : FormatFlags) (l : List FlagChar) : FormatFlags where
  ljustify := flags.ljustify || .minus ∈ l
  signflag := flags.signflag || .plus ∈ l
  signpad := flags.signpad || .space ∈ l
  altflag := flags.altflag || .hash ∈ l
  zeropad := flags.zeropad || .zero ∈ l

theorem add_char (flags : FormatFlags) (f : FlagChar) :
    flags.add f.char = some (flags.addAll [f]) := by
  cases f <;> simp [FormatFlags.add, FormatFlags.addAll, FlagChar.char]

theorem addAll_cons (flags : FormatFlags) (f : FlagChar) (l : List FlagChar) :
    (flags.addAll [f]).addAll l = flags.addAll (f :: l) := by
  simp [FormatFlags.addAll, Bool.or_assoc]

theorem char_ne_zero (f : FlagChar) : f.char ≠ 0 := by
  cases f <;> decide

theorem parseFlags_text (flags : FormatFlags) (l : List FlagChar) (c : Byte) {next : Byte}
    {rest : List Byte} (h : EndsFlags next) :
    parseFlags flags (c :: (l.map FlagChar.char ++ next :: rest)) =
      .ok (flags.addAll l, next :: rest) := by
  induction l generalizing flags c with
  | nil =>
    have hnil : flags.addAll [] = flags := by simp [FormatFlags.addAll]
    rw [List.map_nil, List.nil_append, parseFlags, if_neg h.1, h.2, hnil]
  | cons f l ih =>
    rw [List.map_cons, List.cons_append, parseFlags, if_neg (char_ne_zero f), add_char]
    simp only
    rw [ih, addAll_cons]

theorem parseDigits_text (ds : List (Fin 10)) (value : Nat) {c : Byte} {rest : List Byte}
    (hc : isdigit c = false) (hfits : readDigits 10 value (ds.map Fin.val) ≤ INT_MAX) :
    parseDigits value (literalText ds ++ c :: rest) =
      .ok ((readDigits 10 value (ds.map Fin.val) : Nat), c :: rest) := by
  induction ds generalizing value with
  | nil => simp [literalText, parseDigits, hc]
  | cons d ds ih =>
    have hdigit : ∀ d : Fin 10, isdigit (BitVec.ofNat 8 (0x30 + d.val)) = true ∧
        (BitVec.ofNat 8 (0x30 + d.val)).toNat = 0x30 + d.val := by decide
    rw [List.map_cons, readDigits_cons] at hfits ⊢
    have hle : value * 10 + d.val ≤ readDigits 10 (value * 10 + d.val) (ds.map Fin.val) :=
      le_readDigits (by decide) _ _
    rw [literalText, List.map_cons, List.cons_append, parseDigits, if_pos (hdigit d).1, (hdigit d).2]
    have hmax : INT_MAX = 2147483647 := rfl
    have hnext : wrapInt (wrapInt ((value : Int) * 10) + ((0x30 + d.val : Nat) - 0x30 : Int)) =
        (value * 10 + d.val : Nat) := by
      rw [wrapInt_of_le (x := (value : Int) * 10) (by omega) (by omega), wrapInt_of_le (by omega) (by omega)]
      omega
    rw [hnext]
    exact ih _ hfits

section Fields
variable {c : Byte} {rest : List Byte} {more : FormatArgs}

theorem ne_star (h : c ≠ 0x2A) : ¬ (c :: rest).head? = some 0x2A := by
  rw [List.head?_cons, Option.some_inj]
  exact h

theorem starWidth_text (flags : FormatFlags) (arg : BitVec 32) (above : -(INT_MAX : Int) ≤ arg.toInt) :
    starWidth flags (0x2A :: c :: rest) (arg :: more) =
      .ok ⟨({ flags with ljustify := flags.ljustify || decide (arg.toInt < 0) }, arg.toInt.natAbs),
        c :: rest, more⟩ := by
  have hlt := BitVec.toInt_lt (x := arg)
  have hmax : INT_MAX = 2147483647 := rfl
  rw [starWidth, vaWord, ok_bind]
  simp only [advanceFormat, ok_bind]
  split
  · next h =>
    have habs : wrapInt (-arg.toInt) = arg.toInt.natAbs := by
      rw [wrapInt_of_le (by omega) (by omega)]
      omega
    simp [h, habs]
  · next h =>
    have habs : (arg.toInt.natAbs : Int) = arg.toInt := by omega
    simp [h, habs]

theorem parseWidth_text (flags : FormatFlags) (width : FieldWidth) (hc : StartsTail c) :
    parseWidth flags (width.text ++ c :: rest) (width.words ++ more) =
      .ok ⟨({ flags with ljustify := flags.ljustify || width.left }, width.size), c :: rest, more⟩ := by
  obtain ⟨hdigit, hstar⟩ := hc.not_width
  cases width with
  | absent =>
    have hparse : parseDigits 0 (c :: rest) = .ok (0, c :: rest) :=
      parseDigits_text [] 0 hdigit (Nat.zero_le _)
    rw [FieldWidth.text, List.nil_append, parseWidth, hparse, ok_bind]
    simp only [if_neg (ne_star hstar)]
    simp [FieldWidth.words, FieldWidth.left, FieldWidth.size]
  | literal first ds leads fits =>
    have hparse : parseDigits 0 (literalText (first :: ds) ++ c :: rest) =
        .ok ((literalValue (first :: ds) : Nat), c :: rest) :=
      parseDigits_text (first :: ds) 0 hdigit fits
    rw [FieldWidth.text, parseWidth, hparse, ok_bind]
    simp only [if_neg (ne_star hstar)]
    simp [FieldWidth.words, FieldWidth.left, FieldWidth.size]
  | star arg above =>
    have hparse : parseDigits 0 (0x2A :: c :: rest) = .ok (0, 0x2A :: c :: rest) :=
      parseDigits_text [] 0 rfl (Nat.zero_le _)
    rw [FieldWidth.text, List.cons_append, List.nil_append, parseWidth, hparse, ok_bind]
    simp only [List.head?_cons, if_true]
    exact starWidth_text flags arg above

theorem dotPrecision_literal (ds : List (Fin 10)) (fits : literalValue ds ≤ INT_MAX)
    (hdigit : isdigit c = false) (hstar : c ≠ 0x2A) :
    dotPrecision (0x2E :: (literalText ds ++ c :: rest)) more =
      .ok ⟨(false, literalValue ds), c :: rest, more⟩ := by
  have hadv : advanceFormat (0x2E :: (literalText ds ++ c :: rest)) =
      .ok (literalText ds ++ c :: rest) := by
    cases ds <;> rfl
  have hparse : parseDigits 0 (literalText ds ++ c :: rest) =
      .ok ((literalValue ds : Nat), c :: rest) := parseDigits_text ds 0 hdigit fits
  rw [dotPrecision, hadv, ok_bind, hparse, ok_bind]
  simp only [if_neg (ne_star hstar)]

theorem dotPrecision_star (arg : BitVec 32) :
    dotPrecision (0x2E :: 0x2A :: c :: rest) (arg :: more) =
      .ok ⟨if arg.toInt < 0 then (true, 1) else (false, arg.toInt), c :: rest, more⟩ := by
  have hparse : parseDigits 0 (0x2A :: c :: rest) = .ok (0, 0x2A :: c :: rest) :=
    parseDigits_text [] 0 rfl (Nat.zero_le _)
  rw [dotPrecision, advanceFormat, ok_bind, hparse, ok_bind]
  simp only [List.head?_cons, if_true]
  rw [starPrecision, vaWord, ok_bind]
  simp only [advanceFormat, ok_bind]
  split <;> rfl

theorem parsePrecision_text (precision : FieldPrecision) (hc : isalpha c) :
    parsePrecision (precision.text ++ c :: rest) (precision.words ++ more) =
      .ok ⟨(precision.size = none, precision.size.getD 1), c :: rest, more⟩ := by
  obtain ⟨hdigit, hstar, hdot⟩ := not_field_of_isalpha hc
  cases precision with
  | absent =>
    have hhead : ¬ (c :: rest).head? = some 0x2E := by
      rw [List.head?_cons, Option.some_inj]
      exact hdot
    rw [FieldPrecision.text, List.nil_append, parsePrecision, if_neg hhead]
    rfl
  | literal ds fits =>
    have hwords : (FieldPrecision.literal ds fits).words ++ more = more := rfl
    rw [FieldPrecision.text, List.cons_append, parsePrecision, if_pos (by rfl), hwords,
      dotPrecision_literal ds fits hdigit hstar]
    simp [FieldPrecision.size]
  | star arg above =>
    rw [FieldPrecision.text, parsePrecision, List.cons_append, List.cons_append, List.nil_append,
      if_pos (by rfl), FieldPrecision.words, List.singleton_append, dotPrecision_star,
      FieldPrecision.size]
    split
    · rfl
    · next h =>
      have habs : (arg.toInt.natAbs : Int) = arg.toInt := by omega
      simp [habs]

theorem parseLength_text (length : ArgLength) {conv : Byte} (hconv : EndsLength conv) :
    parseLength .default (length.text ++ conv :: rest) = .ok (length, conv :: rest) := by
  have hend : ∀ length : ArgLength,
      parseLength length (conv :: rest) = .ok (length, conv :: rest) := by
    intro length
    rw [parseLength, hconv.add]
  cases length with
  | default => exact hend .default
  | h => exact hend .h
  | l => exact hend .l
  | _ => rfl

end Fields

/-! ## A whole specification -/

/-- What the fields of a specification set. -/
def fieldSpec (flags : List FlagChar) (width : FieldWidth) (precision : FieldPrecision)
    (length : ArgLength) : FormatSpec where
  flags :=
    { ljustify := .minus ∈ flags || width.left
      signflag := .plus ∈ flags
      signpad := .space ∈ flags && !(.plus ∈ flags)
      altflag := .hash ∈ flags
      zeropad := .zero ∈ flags && !(.minus ∈ flags) }
  width := width.size
  defaultPrec := precision.size = none
  prec := (precision.size.getD 1 : Nat)
  length := length

theorem settle_addAll (flags : List FlagChar) (width : FieldWidth) (precision : FieldPrecision)
    (length : ArgLength) :
    { (FormatFlags.clear.addAll flags).settle with
        ljustify := (FormatFlags.clear.addAll flags).settle.ljustify || width.left } =
      (fieldSpec flags width precision length).flags := by
  simp [FormatFlags.settle, FormatFlags.addAll, FormatFlags.clear, fieldSpec]

theorem parseSpec_fields (flags : List FlagChar) (width : FieldWidth) (precision : FieldPrecision)
    (length : ArgLength) {conv : Byte} (hconv : EndsLength conv) (rest : List Byte)
    (more : FormatArgs) (c : Byte) :
    parseSpec
        (c :: (flags.map FlagChar.char ++
          (width.text ++ (precision.text ++ (length.text ++ conv :: rest)))))
        (width.words ++ (precision.words ++ more)) =
      .ok ⟨fieldSpec flags width precision length, conv :: rest, more⟩ := by
  obtain ⟨c₁, tail₁, htail₁, hc₁⟩ := width_starts hconv rest width precision length
  obtain ⟨c₂, tail₂, htail₂, hc₂⟩ := precision_starts hconv rest precision length
  obtain ⟨c₃, tail₃, htail₃, hc₃⟩ := length_starts hconv rest length
  have hflags : parseFlags FormatFlags.clear (c :: (flags.map FlagChar.char ++
      (width.text ++ (precision.text ++ (length.text ++ conv :: rest))))) =
        .ok (FormatFlags.clear.addAll flags, c₁ :: tail₁) := by
    rw [htail₁]
    exact parseFlags_text _ _ _ hc₁
  have hwidth : parseWidth (FormatFlags.clear.addAll flags).settle (c₁ :: tail₁)
      (width.words ++ (precision.words ++ more)) =
        .ok ⟨((fieldSpec flags width precision length).flags, width.size), c₂ :: tail₂,
          precision.words ++ more⟩ := by
    rw [← htail₁, htail₂, parseWidth_text _ _ hc₂, settle_addAll]
  have hprec : parsePrecision (c₂ :: tail₂) (precision.words ++ more) =
      .ok ⟨(precision.size = none, (precision.size.getD 1 : Nat)), c₃ :: tail₃, more⟩ := by
    rw [← htail₂, htail₃]
    exact parsePrecision_text _ hc₃
  have hlength : parseLength .default (c₃ :: tail₃) = .ok (length, conv :: rest) := by
    rw [← htail₃]
    exact parseLength_text _ hconv
  rw [parseSpec, hflags, ok_bind]
  simp only [hwidth, hprec, hlength, ok_bind]
  rfl

end Ohwes

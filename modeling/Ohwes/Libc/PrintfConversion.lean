import Ohwes.Libc.PrintfNumbers
import Ohwes.Libc.PrintfParse

/-! # Numeric conversions in a format

What a pass of `_doprintf` prints for a numeric conversion, and how the passes of a format add up. -/

namespace Ohwes
open Library
set_option autoImplicit false

/-! ## One pass -/

namespace NumericConversion
variable (cv : NumericConversion) (rest : List Byte) (more : FormatArgs)

theorem text_append :
    cv.text ++ rest = cv.flags.map FlagChar.char ++ (cv.width.text ++ (cv.precision.text ++
      (cv.length.text ++ cv.specifier.char :: rest))) := by
  simp [text]

theorem words_append :
    cv.words ++ more = cv.width.words ++ (cv.precision.words ++ (cv.valueWords ++ more)) := by
  simp [words]

theorem parseSpec_text (c : Byte) :
    parseSpec (c :: (cv.text ++ rest)) (cv.words ++ more) =
      .ok ⟨cv.spec, cv.specifier.char :: rest, cv.valueWords ++ more⟩ := by
  rw [text_append, words_append]
  exact parseSpec_fields cv.flags cv.width cv.precision cv.length cv.specifier.endsLength rest _ c

theorem pair_eq (arg : BitVec 64) :
    (arg.extractLsb' 32 32 ++ arg.setWidth 32 : BitVec (32 + 32)) = arg := by
  apply BitVec.eq_of_toNat_eq
  rw [BitVec.toNat_append, BitVec.extractLsb'_toNat, BitVec.toNat_setWidth,
    ← Nat.shiftLeft_add_eq_or_of_lt (Nat.mod_lt _ (by decide)), Nat.shiftLeft_eq,
    Nat.shiftRight_eq_div_pow]
  have hlt := arg.isLt
  omega

/-- `va_arg` of the value. -/
theorem getSigned_words (h : cv.specifier.signed) :
    getSigned cv.length (cv.valueWords ++ more) = .ok (cv.fetched, more) := by
  have hpair := pair_eq cv.arg
  rw [fetched, valueWords, h]
  cases hl : cv.length <;>
    simp_all [getSigned, ArgLength.bits, ArgLength.signExtends, vaWord, vaPair, Except.map]

theorem getUnsigned_words (h : cv.specifier.signed = false) :
    getUnsigned cv.length (cv.valueWords ++ more) = .ok (cv.fetched, more) := by
  have hpair := pair_eq cv.arg
  rw [fetched, valueWords, h]
  cases hl : cv.length <;>
    simp_all [getUnsigned, ArgLength.bits, ArgLength.signExtends, vaWord, vaPair, Except.map]

theorem putSigned_words (h : cv.specifier.signed) {out : CString}
    (hout : putNumber cv.spec cv.number = .ok out) :
    putSigned cv.spec rest (cv.valueWords ++ more) = .ok ⟨out, rest, more⟩ := by
  have hlength : cv.spec.length = cv.length := rfl
  rw [number, h, if_pos rfl] at hout
  rw [putSigned, hlength, cv.getSigned_words more h, ok_bind]
  simp only [hout, ok_bind]

theorem putUnsigned_words (h : cv.specifier.signed = false) {out : CString}
    (hout : putNumber cv.spec cv.number = .ok out) :
    putUnsigned cv.specifier.radix (cv.specifier = .X) cv.spec rest (cv.valueWords ++ more) =
      .ok ⟨out, rest, more⟩ := by
  have hlength : cv.spec.length = cv.length := rfl
  rw [number, h] at hout
  simp only [Bool.false_eq_true, if_false] at hout
  rw [putUnsigned, hlength, cv.getUnsigned_words more h, ok_bind]
  simp only [hout, ok_bind]

theorem putConversion_number (strings : Ptr → CString) (start : List Byte) {out : CString}
    (hout : putNumber cv.spec cv.number = .ok out) :
    putConversion strings start cv.spec cv.specifier.char rest (cv.valueWords ++ more) =
      .ok ⟨out, rest, more⟩ := by
  cases hs : cv.specifier.signed with
  | true =>
    have hput := cv.putSigned_words rest more hs hout
    cases hc : cv.specifier <;> rw [hc] at hs <;> first | exact hput | cases hs
  | false =>
    have hput := cv.putUnsigned_words rest more hs hout
    cases hc : cv.specifier <;> rw [hc] at hs hput <;> first | exact hput | cases hs

/-- The pass over a conversion uses up its text and its arguments. -/
theorem formatPass_text (strings : Ptr → CString) {out : CString}
    (hout : putNumber cv.spec cv.number = .ok out) :
    formatPass strings (0x25 :: (cv.text ++ rest)) (cv.words ++ more) = .ok ⟨out, rest, more⟩ := by
  rw [formatPass]
  simp only [ne_eq, not_true_eq_false, if_false, cv.parseSpec_text rest more, ok_bind]
  exact cv.putConversion_number rest more strings _ hout

end NumericConversion

/-! ## The passes of a format -/

section Passes
variable {strings : Ptr → CString}

theorem putConversion_format {start : List Byte} {s : FormatSpec} {c : Byte} {format : List Byte}
    {args : FormatArgs} {p : Printed} (h : putConversion strings start s c format args = .ok p) :
    p.format = format := by
  have hsigned : ∀ p, putSigned s format args = .ok p → p.format = format := by
    intro p h
    rw [putSigned, bind_ok] at h
    obtain ⟨x, -, h⟩ := h
    rw [bind_ok] at h
    obtain ⟨out, -, h⟩ := h
    cases h
    rfl
  have hunsigned : ∀ radix capital p, putUnsigned radix capital s format args = .ok p →
      p.format = format := by
    intro radix capital p h
    rw [putUnsigned, bind_ok] at h
    obtain ⟨x, -, h⟩ := h
    rw [bind_ok] at h
    obtain ⟨out, -, h⟩ := h
    cases h
    rfl
  have hchar : putChar format args = .ok p → p.format = format := by
    intro h
    rw [putChar, bind_ok] at h
    obtain ⟨x, -, h⟩ := h
    cases h
    rfl
  have hstring : putString strings s format args = .ok p → p.format = format := by
    intro h
    rw [putString] at h
    split at h
    · rw [bind_ok] at h
      obtain ⟨x, -, h⟩ := h
      cases h
      rfl
    · cases h
      rfl
  rw [putConversion] at h
  split_ifs at h
  · cases h
    rfl
  · exact hchar h
  · exact hstring h
  · exact hunsigned _ _ _ h
  · exact hunsigned _ _ _ h
  · exact hunsigned _ _ _ h
  · exact hsigned _ h
  · exact hunsigned _ _ _ h
  · cases h
    rfl

/-- A pass uses up a character of the format at least. -/
theorem formatPass_shorter {format : List Byte} {args : FormatArgs} {p : Printed}
    (h : formatPass strings format args = .ok p) : p.format.length < format.length := by
  cases format with
  | nil => cases h
  | cons c start =>
    rw [formatPass] at h
    split at h
    · cases h
      exact Nat.lt_succ_self _
    · rw [bind_ok] at h
      obtain ⟨⟨s, format₁, args₁⟩, hspec, h⟩ := h
      have hle := (parseSpec_suffix hspec).length_le
      cases format₁ with
      | nil => cases h
      | cons c₁ format₁ =>
        rw [putConversion_format h]
        exact hle

/-- The number of passes allowed does not matter, if it is above the length of the format. -/
theorem formatLoop_passes {passes passes' : Nat} {format : List Byte} {args : FormatArgs}
    (h : format.length < passes) (h' : format.length < passes') :
    formatLoop strings passes format args = formatLoop strings passes' format args := by
  induction passes generalizing passes' format args with
  | zero => omega
  | succ passes ih =>
    cases passes' with
    | zero => omega
    | succ passes' =>
      rw [formatLoop, formatLoop]
      split
      · rfl
      · cases hp : formatPass strings format args with
        | error e => rfl
        | ok p =>
          have hlt := formatPass_shorter hp
          have hrest : formatLoop strings passes p.format p.args =
              formatLoop strings passes' p.format p.args := ih (by omega) (by omega)
          rw [ok_bind, ok_bind, hrest]

theorem formatOut_step {c : Byte} {format : List Byte} {args : FormatArgs} {p : Printed}
    (hc : c ≠ 0) (h : formatPass strings (c :: format) args = .ok p) :
    formatOut strings (c :: format) args =
      (formatOut strings p.format p.args).map (p.out ++ ·) := by
  have hlt := formatPass_shorter h
  have hhead : ¬ (c :: format).head? = some 0 := by
    rw [List.head?_cons, Option.some_inj]
    exact hc
  rw [formatOut, formatLoop, if_neg hhead, h, ok_bind, formatOut,
    formatLoop_passes hlt (Nat.lt_succ_self _)]
  cases formatLoop strings (p.format.length + 1) p.format p.args <;> rfl

end Passes

/-! ## The conversions and the standard -/

/-- At a numeric conversion `_doprintf` takes its arguments and prints characters, then goes on with
the rest of the format. The characters are those of the standard exactly where the digits of the
precision and what stands before them can be counted in an `int`. -/
theorem numeric_conversion_standard (cv : NumericConversion) (hz : cv.length ≠ .z)
    (ht : cv.length ≠ .t) :
    ∃ out, (∀ (strings : Ptr → CString) (rest : List Byte) (more : FormatArgs),
        formatOut strings (0x25 :: (cv.text ++ rest)) (cv.words ++ more) =
          (formatOut strings rest more).map (out ++ ·)) ∧
      (out = cv.standardOutput ↔ cv.Countable) := by
  obtain ⟨out, hout, hiff⟩ := NumericConversion.putNumber_standard (NumericConversion.exact hz ht)
  refine ⟨out, ?_, hiff⟩
  intro strings rest more
  exact formatOut_step (by decide) (cv.formatPass_text rest more strings hout)

local instance neZeroTen : NeZero 10 := ⟨by decide⟩

theorem five_leads : (5 : Fin 10) ≠ 0 := by decide

theorem five_fits : literalValue [5] ≤ INT_MAX := by decide

/-- `%05hd` of -42. -/
def padded : NumericConversion where
  flags := [.zero]
  width := .literal 5 [] five_leads five_fits
  precision := .absent
  length := .h
  specifier := .d
  arg := 0xFFD6

theorem numeric_conversion_standard_padded :
    ∃ out, (∀ (strings : Ptr → CString) (rest : List Byte) (more : FormatArgs),
        formatOut strings (0x25 :: (padded.text ++ rest)) (padded.words ++ more) =
          (formatOut strings rest more).map (out ++ ·)) ∧
      (out = padded.standardOutput ↔ padded.Countable) :=
  numeric_conversion_standard padded (by decide) (by decide)

/-- `%+.2147483647d` of 5. -/
def overlong : NumericConversion where
  flags := [.plus]
  width := .absent
  precision := .literal [2, 1, 4, 7, 4, 8, 3, 6, 4, 7] (by decide)
  length := .default
  specifier := .d
  arg := 5

/-- The sign makes `len` negative, and spaces fill up to it. -/
theorem overlong_output :
    formatOut (fun _ => [])
        (text ['%', '+', '.', '2', '1', '4', '7', '4', '8', '3', '6', '4', '7', 'd'] ++ [0]) [5] ≠
      .ok overlong.standardOutput := by
  obtain ⟨out, hout, hiff⟩ := NumericConversion.putNumber_standard
    (NumericConversion.exact (by decide : overlong.length ≠ .z) (by decide))
  have htext : text ['%', '+', '.', '2', '1', '4', '7', '4', '8', '3', '6', '4', '7', 'd'] ++ [0] =
      0x25 :: (overlong.text ++ [0]) := by decide
  have hpass := overlong.formatPass_text [0] [] (fun _ => []) hout
  have hend : formatOut (fun _ => []) [0] [] = .ok [] := rfl
  have hstep := formatOut_step (by decide) hpass
  rw [hend] at hstep
  intro h
  have hwords : ([5] : FormatArgs) = overlong.words ++ [] := by decide
  rw [htext, hwords, hstep] at h
  have hstd : out = overlong.standardOutput := by simpa [Except.map] using h
  have hnot : ¬ overlong.Countable := by
    have hhead : overlong.head = [0x2B] := by decide
    have hdigits : overlong.minDigits = INT_MAX := by decide
    rw [NumericConversion.Countable, hhead, hdigits]
    decide
  exact hnot (hiff.mp hstd)

end Ohwes

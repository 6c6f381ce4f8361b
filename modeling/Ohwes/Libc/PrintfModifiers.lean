import Ohwes.Libc.PrintfConversion

/-! # The length modifiers `z` and `t`

An argument of 32 bits is widened to 64: one of `size_t` always with zeros, one of `ptrdiff_t` always
with its sign, whatever the conversion is. What is printed then determines the number, so the output is
wrong wherever that number is. -/

namespace Ohwes
open Library
set_option autoImplicit false

/-! ## Reading a number back -/

theorem digitValue_digitChar (capital : Bool) {d : Nat} (hd : d < 16) :
    digitValue (digitChar capital d) = d := by
  have h : ∀ capital : Bool, ∀ d : Fin 16, digitValue (digitChar capital d) = d.val := by decide
  exact h capital ⟨d, hd⟩

theorem digitChar_no_sign (capital : Bool) {d : Nat} (hd : d < 16) :
    digitChar capital d ≠ 0x20 ∧ digitChar capital d ≠ 0x2D := by
  have h : ∀ capital : Bool, ∀ d : Fin 16,
      digitChar capital d ≠ 0x20 ∧ digitChar capital d ≠ 0x2D := by decide
  exact h capital ⟨d, hd⟩

/-- Digits with zeros in front have the value of the digits. -/
theorem readDigits_padded {radix : Nat} (hr : 1 < radix) (hr' : radix ≤ 16) (capital : Bool)
    (k num : Nat) :
    readDigits radix 0
      ((List.replicate k 0x30 ++ (numeral radix num).map (digitChar capital)).map digitValue) =
        num := by
  have hdigits : ((numeral radix num).map (digitChar capital)).map digitValue = numeral radix num := by
    rw [List.map_map]
    refine (List.map_congr_left fun d hd => ?_).trans (List.map_id _)
    exact digitValue_digitChar capital (lt_of_lt_of_le (numeral_lt hr hd) hr')
  have hzero : digitValue 0x30 = 0 := by decide
  rw [List.map_append, List.map_replicate, hzero, hdigits, readDigits_zeros, readDigits_numeral hr]

theorem mem_digits {radix num : Nat} (hr : 1 < radix) (hr' : radix ≤ 16) {capital : Bool} {k : Nat}
    {c : Byte} (h : c ∈ List.replicate k 0x30 ++ (numeral radix num).map (digitChar capital)) :
    c ≠ 0x20 ∧ c ≠ 0x2D := by
  rcases List.mem_append.mp h with h | h
  · rw [List.eq_of_mem_replicate h]
    decide
  · obtain ⟨d, hd, rfl⟩ := List.mem_map.mp h
    exact digitChar_no_sign capital (lt_of_lt_of_le (numeral_lt hr hd) hr')

section Justify
variable {left zeroFill : Bool} {pad : Nat} {head body : CString}

/-- Without its spaces a field is the number with zeros in front of the digits. -/
theorem justify_filter (left zeroFill : Bool) (pad : Nat) (hhead : 0x20 ∉ head)
    (hbody : 0x20 ∉ body) :
    ∃ k, (justify left zeroFill pad head body).filter (fun c => c != 0x20) =
      head ++ (List.replicate k 0x30 ++ body) := by
  have hkeep : ∀ s : CString, 0x20 ∉ s → s.filter (fun c => c != 0x20) = s := by
    intro s hs
    rw [List.filter_eq_self]
    intro c hc
    exact bne_iff_ne.mpr fun heq => hs (heq ▸ hc)
  have hspaces : (List.replicate pad (0x20 : Byte)).filter (fun c => c != 0x20) = [] := by
    rw [List.filter_eq_nil_iff]
    intro c hc
    rw [List.eq_of_mem_replicate hc]
    decide
  have hzeros : (List.replicate pad (0x30 : Byte)).filter (fun c => c != 0x20) =
      List.replicate pad 0x30 := hkeep _ fun h => absurd (List.eq_of_mem_replicate h) (by decide)
  rw [justify]
  split_ifs
  · refine ⟨0, ?_⟩
    rw [List.filter_append, List.filter_append, hkeep head hhead, hkeep body hbody, hspaces]
    simp
  · refine ⟨pad, ?_⟩
    rw [List.filter_append, List.filter_append, hkeep head hhead, hkeep body hbody, hzeros,
      List.append_assoc]
  · refine ⟨0, ?_⟩
    rw [List.filter_append, List.filter_append, hkeep head hhead, hkeep body hbody, hspaces]
    simp

/-- The padding has no minus sign in it. -/
theorem minus_mem_justify (hbody : 0x2D ∉ body) :
    0x2D ∈ justify left zeroFill pad head body ↔ 0x2D ∈ head := by
  have hpad : ∀ c : Byte, c ≠ 0x2D → 0x2D ∉ List.replicate pad c :=
    fun c hc h => hc (List.eq_of_mem_replicate h).symm
  have hspace := hpad 0x20 (by decide)
  have hzero := hpad 0x30 (by decide)
  rw [justify]
  split_ifs <;> simp only [List.mem_append, hbody, hspace, hzero, or_false, false_or]

end Justify

/-! ## What is printed determines the number -/

namespace NumericConversion
variable {cv : NumericConversion}

theorem one_lt_radix (cv : NumericConversion) : 1 < cv.specifier.radix := by
  cases cv.specifier <;> decide

theorem radix_le (cv : NumericConversion) : cv.specifier.radix ≤ 16 := by
  cases cv.specifier <;> decide

/-- The digits of the source and those of the standard, with their zeros. -/
theorem bodies_eq (cv : NumericConversion) :
    (∃ k, numberBody cv.spec cv.number = List.replicate k 0x30 ++
      (numeral cv.specifier.radix cv.number.num.toNat).map (digitChar (cv.specifier = .X))) ∧
    ∃ k, cv.body = List.replicate k 0x30 ++
      (numeral cv.specifier.radix cv.value.natAbs).map (digitChar (cv.specifier = .X)) := by
  refine ⟨⟨numberZeros cv.spec cv.number, ?_⟩, ⟨_, cv.body_eq⟩⟩
  rw [numberBody, numberDigits, number_radix, number_capital]

theorem body_no_sign (cv : NumericConversion) :
    (0x20 ∉ numberBody cv.spec cv.number ∧ 0x2D ∉ numberBody cv.spec cv.number) ∧
      0x20 ∉ cv.body ∧ 0x2D ∉ cv.body := by
  obtain ⟨⟨k, hsource⟩, k', hstd⟩ := cv.bodies_eq
  rw [hsource, hstd]
  have hno : ∀ k num c, c ∈ List.replicate k 0x30 ++
      (numeral cv.specifier.radix num).map (digitChar (cv.specifier = .X)) → c ≠ 0x20 ∧ c ≠ 0x2D :=
    fun k num c => mem_digits cv.one_lt_radix cv.radix_le
  exact ⟨⟨fun h => (hno _ _ _ h).1 rfl, fun h => (hno _ _ _ h).2 rfl⟩,
    fun h => (hno _ _ _ h).1 rfl, fun h => (hno _ _ _ h).2 rfl⟩

/-- The minus sign is printed by the source for a negative number, and by the standard for a negative
value. -/
theorem minus_mem_iff (cv : NumericConversion) {pad pad' : Nat} {left left' fill fill' : Bool}
    (h : justify left fill pad (formatHead cv.spec.flags cv.number) (numberBody cv.spec cv.number) =
      justify left' fill' pad' cv.head cv.body) (hs : cv.specifier.signed) :
    cv.number.negative = true ↔ cv.value < 0 := by
  have hradix : cv.specifier.radix = 10 := by
    revert hs
    cases cv.specifier <;> decide
  have hsource : 0x2D ∈ formatHead cv.spec.flags cv.number ↔ cv.number.negative = true := by
    rw [formatHead, signChar, radixPrefix, number_signd, number_radix, hs, hradix]
    cases cv.number.negative with
    | true => simp
    | false =>
      simp only [Bool.not_true, Bool.false_eq_true, if_false, iff_false]
      split_ifs <;> simp_all
  have hstd : 0x2D ∈ cv.head ↔ cv.value < 0 := by
    rw [head, sign, radixSign, hs, hradix]
    by_cases hv : cv.value < 0
    · simp [hv]
    · simp only [Bool.not_true, Bool.false_eq_true, if_false, hv, iff_false]
      split_ifs <;> simp_all
  obtain ⟨⟨-, hbody⟩, -, hbody'⟩ := cv.body_no_sign
  rw [← hsource, ← hstd, ← minus_mem_justify hbody, h, minus_mem_justify hbody']

/-- An unsigned number is read back from its field. -/
theorem num_eq_of_justify (cv : NumericConversion) {pad pad' : Nat} {left left' fill fill' : Bool}
    (h : justify left fill pad cv.head (numberBody cv.spec cv.number) =
      justify left' fill' pad' cv.head cv.body) (hs : cv.specifier.signed = false) :
    cv.number.num.toNat = cv.value.natAbs := by
  have hhead : 0x20 ∉ cv.head := by
    rw [head, sign, radixSign, hs]
    have hchar : cv.specifier.char ≠ 0x20 := by cases cv.specifier <;> decide
    simp only [Bool.not_false, if_true, List.nil_append]
    split_ifs
    · intro hmem
      rcases List.mem_pair.mp hmem with h | h
      · exact absurd h (by decide)
      · exact hchar h.symm
    · exact List.not_mem_nil
  obtain ⟨⟨hbody, -⟩, hbody', -⟩ := cv.body_no_sign
  obtain ⟨⟨z, hsource⟩, z', hstd⟩ := cv.bodies_eq
  obtain ⟨k, hk⟩ := justify_filter left fill pad hhead hbody
  obtain ⟨k', hk'⟩ := justify_filter left' fill' pad' hhead hbody'
  rw [h, hk'] at hk
  have hdigits := List.append_cancel_left hk
  rw [hsource, hstd, ← List.append_assoc, ← List.append_assoc, List.replicate_append_replicate,
    List.replicate_append_replicate] at hdigits
  have hvalue := congrArg (fun s => readDigits cv.specifier.radix 0 (s.map digitValue)) hdigits
  simp only [readDigits_padded cv.one_lt_radix cv.radix_le] at hvalue
  exact hvalue.symm

/-- Where the argument is widened as it should not be, and that makes a difference, the output is
wrong. -/
theorem output_ne_of_not_extended (h : ¬ cv.Extended) {out : CString}
    (hout : putNumber cv.spec cv.number = .ok out) : out ≠ cv.standardOutput := by
  rw [Extended, not_or, Bool.not_eq_false] at h
  obtain ⟨hext, hmsb⟩ := h
  rw [putNumber_eq cv.spec_regular cv.number_regular] at hout
  intro heq
  rw [← Except.ok.inj hout, standardOutput] at heq
  cases hs : cv.specifier.signed with
  | true =>
    rw [hs] at hext
    have hz : cv.length = .z := by
      cases hl : cv.length <;> rw [hl] at hext <;> first | rfl | exact absurd rfl hext
    have hneg : cv.value < 0 := by
      rw [BitVec.msb_eq_toInt, decide_eq_true_iff] at hmsb
      rw [value, hs, if_pos rfl]
      exact hmsb
    have hnum := (cv.minus_mem_iff heq hs).mpr hneg
    have hfetched : cv.fetched.toNat < 2 ^ 32 := by
      rw [fetched, hz, ArgLength.signExtends, if_neg (by decide), BitVec.toNat_setWidth]
      exact lt_of_le_of_lt (Nat.mod_le _ _) (cv.arg.setWidth 32).isLt
    rw [number, hs, if_pos rfl, signedNumber, decide_eq_true_iff, BitVec.toInt_eq_toNat_cond,
      if_pos (by omega)] at hnum
    omega
  | false =>
    rw [hs] at hext
    have ht : cv.length = .t := by
      cases hl : cv.length <;> rw [hl] at hext <;> first | rfl | exact absurd rfl hext
    have hvalue : cv.value.natAbs = (cv.arg.setWidth 32).toNat := by
      rw [value, hs, ht]
      rfl
    have hfetched : cv.fetched.toNat = (cv.arg.setWidth 32).toNat + (2 ^ 64 - 2 ^ 32) := by
      have hmsb' : (cv.arg.setWidth 32).msb = true := by
        rw [ht] at hmsb
        exact hmsb
      have hlt := (cv.arg.setWidth 32).isLt
      rw [fetched, ht, ArgLength.signExtends, if_pos rfl]
      show ((cv.arg.setWidth 32).signExtend 64).toNat = _
      rw [BitVec.toNat_signExtend, hmsb', if_pos rfl, BitVec.toNat_setWidth,
        Nat.mod_eq_of_lt (by omega)]
    have hnum : cv.number.num = cv.fetched := by
      rw [number, hs]
      rfl
    have hne : cv.number.num ≠ 0 ↔ cv.value ≠ 0 := by
      rw [hnum, ← Int.natAbs_ne_zero, hvalue]
      rw [BitVec.msb_eq_decide, decide_eq_true_iff, ht] at hmsb
      refine iff_of_true (fun h0 => ?_) ?_
      · rw [h0] at hfetched
        simp at hfetched
      · have hge : 2 ^ 31 ≤ (cv.arg.setWidth 32).toNat := hmsb
        omega
    have hneg : cv.number.negative = (cv.specifier.signed && decide (cv.value < 0)) := by
      rw [number, hs]
      rfl
    rw [formatHead_eq hne hneg] at heq
    have hsame := cv.num_eq_of_justify heq hs
    rw [hnum, hfetched, hvalue] at hsame
    omega

end NumericConversion

/-! ## The conversions -/

/-- With `z` and `t` the characters are those of the standard exactly where they are with the other
modifiers and, in addition, the top bit of the argument is clear or the conversion has the sign of the
type. -/
theorem numeric_modifier_standard (cv : NumericConversion) (h : cv.length = .z ∨ cv.length = .t) :
    ∃ out, (∀ (strings : Ptr → CString) (rest : List Byte) (more : FormatArgs),
        formatOut strings (0x25 :: (cv.text ++ rest)) (cv.words ++ more) =
          (formatOut strings rest more).map (out ++ ·)) ∧
      (out = cv.standardOutput ↔ cv.Countable ∧
        (cv.specifier.signed = decide (cv.length = .t) ∨ (cv.arg.setWidth 32).msb = false)) := by
  have hextended : cv.Extended ↔
      cv.specifier.signed = decide (cv.length = .t) ∨ (cv.arg.setWidth 32).msb = false := by
    rw [NumericConversion.Extended]
    rcases h with h | h
    · rw [h]
      exact or_congr eq_comm Iff.rfl
    · rw [h]
      exact or_congr eq_comm Iff.rfl
  rw [← hextended]
  by_cases hext : cv.Extended
  · obtain ⟨out, hout, hiff⟩ := NumericConversion.putNumber_standard hext.exact
    refine ⟨out, ?_, by rw [hiff, and_iff_left hext]⟩
    intro strings rest more
    exact formatOut_step (by decide) (cv.formatPass_text rest more strings hout)
  · obtain ⟨out, hout⟩ : ∃ out, putNumber cv.spec cv.number = .ok out :=
      ⟨_, putNumber_eq cv.spec_regular cv.number_regular⟩
    have hne := NumericConversion.output_ne_of_not_extended hext hout
    refine ⟨out, ?_, iff_of_false hne fun hc => hext hc.2⟩
    intro strings rest more
    exact formatOut_step (by decide) (cv.formatPass_text rest more strings hout)

/-- `%zd` of -1. -/
def sizeMinusOne : NumericConversion where
  flags := []
  width := .absent
  precision := .absent
  length := .z
  specifier := .d
  arg := 0xFFFFFFFF

/-- `%zu` of the same word. -/
def sizeMax : NumericConversion := { sizeMinusOne with specifier := .u }

theorem numeric_modifier_standard_max :
    ∃ out, (∀ (strings : Ptr → CString) (rest : List Byte) (more : FormatArgs),
        formatOut strings (0x25 :: (sizeMax.text ++ rest)) (sizeMax.words ++ more) =
          (formatOut strings rest more).map (out ++ ·)) ∧
      (out = sizeMax.standardOutput ↔ sizeMax.Countable ∧
        (sizeMax.specifier.signed = decide (sizeMax.length = .t) ∨
          (sizeMax.arg.setWidth 32).msb = false)) :=
  numeric_modifier_standard sizeMax (Or.inl rfl)

/-- It is printed as 4294967295. -/
theorem size_minus_one_output :
    formatOut (fun _ => []) (text ['%', 'z', 'd'] ++ [0]) [0xFFFFFFFF] ≠
      .ok sizeMinusOne.standardOutput := by
  obtain ⟨out, hout⟩ : ∃ out, putNumber sizeMinusOne.spec sizeMinusOne.number = .ok out :=
    ⟨_, putNumber_eq sizeMinusOne.spec_regular sizeMinusOne.number_regular⟩
  have hext : ¬ sizeMinusOne.Extended := by
    rw [NumericConversion.Extended]
    decide
  have hne := NumericConversion.output_ne_of_not_extended hext hout
  have htext : text ['%', 'z', 'd'] ++ [0] = 0x25 :: (sizeMinusOne.text ++ [0]) := by decide
  have hwords : ([0xFFFFFFFF] : FormatArgs) = sizeMinusOne.words ++ [] := by decide
  have hpass := sizeMinusOne.formatPass_text [0] [] (fun _ => []) hout
  have hend : formatOut (fun _ => []) [0] [] = .ok [] := rfl
  rw [htext, hwords, formatOut_step (by decide) hpass, hend]
  intro h
  apply hne
  simpa [Except.map] using h

end Ohwes

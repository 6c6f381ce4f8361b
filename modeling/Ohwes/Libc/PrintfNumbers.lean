import Mathlib.Tactic.Ring
import Ohwes.Libc.PrintfStandard

/-! # The numeric output of `_doprintf`

The loops over `len`, `num_zeros` and `width` in closed form, and from them what the conversions
print. It is what the standard asks for unless `len` overflows: then the field is padded as if
nothing had been printed. -/

namespace Ohwes
open Library
set_option autoImplicit false

/-! ## The digits -/

theorem table_getD (capital : Bool) {d : Nat} (hd : d < 16) :
    (if capital then digits_cap else digits).getD d 0 = digitChar capital d := by
  have h : ∀ capital : Bool, ∀ d : Fin 16,
      (if capital then digits_cap else digits).getD d 0 = digitChar capital d := by decide
  exact h capital ⟨d, hd⟩

theorem digitChar_eq_zero (capital : Bool) {d : Nat} (hd : d < 16) :
    digitChar capital d = 0x30 ↔ d = 0 := by
  have h : ∀ capital : Bool, ∀ d : Fin 16, digitChar capital d = 0x30 ↔ d.val = 0 := by decide
  exact h capital ⟨d, hd⟩

theorem num2str_eq (capital : Bool) {radix : Nat} (hr : 1 < radix) (hr' : radix ≤ 16) (room : Nat)
    (num : BitVec 64) (str : CString) (h : num.toNat < radix ^ room) :
    num2str capital radix room num str =
      .ok ((numeral radix num.toNat).map (digitChar capital) ++ str) := by
  induction room generalizing num str with
  | zero =>
    have hnum : num = 0 := by
      apply BitVec.eq_of_toNat_eq
      simpa using h
    simp [num2str, hnum]
  | succ room ih =>
    by_cases hnum : num = 0
    · simp [num2str, hnum]
    have hne : num.toNat ≠ 0 := fun h0 => hnum (BitVec.eq_of_toNat_eq (by simpa using h0))
    have hradix : (BitVec.ofNat 64 radix).toNat = radix := by
      rw [BitVec.toNat_ofNat]
      omega
    have hdiv : (num / BitVec.ofNat 64 radix).toNat = num.toNat / radix := by
      rw [BitVec.toNat_udiv, hradix]
    have hmod : (num % BitVec.ofNat 64 radix).toNat = num.toNat % radix := by
      rw [BitVec.toNat_umod, hradix]
    have hlt : num.toNat / radix < radix ^ room := by
      rw [Nat.div_lt_iff_lt_mul (by omega)]
      simpa [Nat.pow_succ] using h
    have hdigit : num.toNat % radix < 16 := lt_of_lt_of_le (Nat.mod_lt _ (by omega)) hr'
    rw [num2str, if_neg hnum]
    simp only
    rw [hmod, table_getD capital hdigit, ih _ _ (by rwa [hdiv]), hdiv, numeral_eq_append hr hne]
    simp

theorem num2str_buffer (capital : Bool) {radix : Nat} (hr : 1 < radix) (hr' : radix ≤ 16)
    (num : BitVec 64) :
    num2str capital radix NUM2STR_BUFSIZ num [] =
      .ok ((numeral radix num.toNat).map (digitChar capital)) := by
  have hlt : num.toNat < radix ^ NUM2STR_BUFSIZ :=
    calc num.toNat < 2 ^ 64 := num.isLt
      _ ≤ radix ^ NUM2STR_BUFSIZ := Nat.pow_le_pow_left hr 64
  rw [num2str_eq capital hr hr' _ _ _ hlt, List.append_nil]

/-! ## The loops -/

theorem putWhile_eq (c : Byte) (limit len : Int) :
    putWhile c limit len = List.replicate (limit - len).toNat c := by
  induction limit using putWhile.induct len with
  | case1 limit h ih =>
    have hn : (limit - len).toNat = (limit - 1 - len).toNat + 1 := by omega
    rw [putWhile, if_pos h, ih, hn, List.replicate_succ]
  | case2 limit h =>
    have hn : (limit - len).toNat = 0 := by omega
    rw [putWhile, if_neg h, hn, List.replicate_zero]

theorem countZeros_eq (limit : Int) (t : NumberTally) (h0 : 0 ≤ t.numZeros)
    (h : t.numZeros + (limit - t.len).toNat ≤ INT_MAX) :
    t.countZeros limit =
      ⟨t.len + (limit - t.len).toNat, t.numZeros + (limit - t.len).toNat⟩ := by
  induction t using NumberTally.countZeros.induct limit with
  | case1 t hlt ih =>
    have hn : (limit - t.len).toNat = (limit - (t.len + 1)).toNat + 1 := by omega
    have hwrap : wrapInt (t.numZeros + 1) = t.numZeros + 1 := by
      apply wrapInt_of_le
      · omega
      · omega
    rw [hwrap] at ih
    rw [NumberTally.countZeros, if_pos hlt, hwrap, ih (by simp only; omega) (by simp only; omega), hn]
    simp only [NumberTally.mk.injEq]
    omega
  | case2 t hge =>
    have hn : (limit - t.len).toNat = 0 := by omega
    rw [NumberTally.countZeros, if_neg hge, hn]
    simp

/-! ## Signs and prefixes -/

section Number
variable {s : FormatSpec} {n : FormatNumber}

def formatHead (flags : FormatFlags) (n : FormatNumber) : CString :=
  (signChar flags n).toList ++ radixPrefix flags n

/-- The zero the alternative octal form adds to that many zeros. -/
def octalZero (flags : FormatFlags) (n : FormatNumber) (zeros : Nat) : Nat :=
  if flags.altflag ∧ n.radix = 8 ∧ zeros = 0 then 1 else 0

theorem formatHead_length_le (flags : FormatFlags) (hn : n.signd → n.radix = 10) :
    (formatHead flags n).length ≤ 2 := by
  rw [formatHead, signChar, radixPrefix]
  split_ifs <;> simp_all

theorem octalZero_le (flags : FormatFlags) (zeros : Nat) : octalZero flags n zeros ≤ 1 := by
  rw [octalZero]
  split
  · exact le_rfl
  · exact Nat.zero_le 1

theorem addSign_eq (flags : FormatFlags) (len zeros : Int) (h : wrapInt len = len) :
    NumberTally.addSign flags n ⟨len, zeros⟩ =
      ⟨wrapInt (len + (signChar flags n).toList.length), zeros⟩ := by
  rw [NumberTally.addSign]
  cases signChar flags n with
  | none => simp [h]
  | some c => simp

theorem addAlt_eq (flags : FormatFlags) (len : Int) (zeros : Nat) (h : wrapInt len = len) :
    NumberTally.addAlt flags n ⟨len, zeros⟩ =
      ⟨wrapInt (len + octalZero flags n zeros + (radixPrefix flags n).length),
        zeros + octalZero flags n zeros⟩ := by
  rw [NumberTally.addAlt, radixPrefix, octalZero]
  cases ha : flags.altflag with
  | false => simp [h]
  | true =>
    by_cases h8 : n.radix = 8
    · by_cases hz : zeros = 0
      · have hone : wrapInt 1 = 1 := by decide
        simp [h8, hz, hone]
      · simp [h8, hz, h]
    · by_cases h16 : n.radix = 16
      · by_cases hnum : n.num = 0
        · simp [h16, hnum, h]
        · rw [BitVec.ofNat_eq_ofNat] at hnum
          simp [h16, hnum]
      · simp [h8, h16, h]

theorem addAlt_addSign (flags : FormatFlags) (hn : n.signd → n.radix = 10) (len zeros : Nat)
    (hlen : len ≤ INT_MAX) :
    (NumberTally.addSign flags n ⟨len, zeros⟩).addAlt flags n =
      ⟨wrapInt (len + octalZero flags n zeros + (formatHead flags n).length),
        zeros + octalZero flags n zeros⟩ := by
  have hself : wrapInt len = len := wrapInt_of_le (by omega) (by omega)
  rw [addSign_eq flags len zeros hself]
  cases hs : n.signd with
  | true =>
    have hr := hn hs
    have hoct : octalZero flags n zeros = 0 := by simp [octalZero, hr]
    have hpre : radixPrefix flags n = [] := by simp [radixPrefix, hr]
    have halt : ∀ t : NumberTally, t.addAlt flags n = t := by
      intro t
      simp [NumberTally.addAlt, hr]
    rw [halt, hoct, formatHead, hpre, List.append_nil]
    simp
  | false =>
    have hsign : signChar flags n = none := by simp [signChar, hs]
    rw [formatHead, hsign]
    simp only [Option.toList_none, List.length_nil, Nat.cast_zero, add_zero, List.nil_append]
    rw [hself, addAlt_eq flags len zeros hself]

/-! ## What is printed -/

def numberDigits (n : FormatNumber) : CString :=
  (numeral n.radix n.num.toNat).map (digitChar n.capital)

def numberZeros (s : FormatSpec) (n : FormatNumber) : Nat :=
  s.prec.toNat - (numberDigits n).length +
    octalZero s.flags n (s.prec.toNat - (numberDigits n).length)

def numberBody (s : FormatSpec) (n : FormatNumber) : CString :=
  List.replicate (numberZeros s n) 0x30 ++ numberDigits n

/-- `len` after the digits, their zeros and what stands before them are counted. -/
def numberLen (s : FormatSpec) (n : FormatNumber) : Int :=
  wrapInt ((numberBody s n).length + (formatHead s.flags n).length : Nat)

/-- The specifications the parser gives: `width` and `prec` are not negative. -/
structure FormatSpec.Regular (s : FormatSpec) : Prop where
  width_nonneg : 0 ≤ s.width
  width_le : s.width ≤ INT_MAX
  prec_nonneg : 0 ≤ s.prec
  prec_le : s.prec ≤ INT_MAX
  prec_default : s.defaultPrec → s.prec = 1

/-- The numbers the conversions set. -/
structure FormatNumber.Regular (n : FormatNumber) : Prop where
  one_lt_radix : 1 < n.radix
  radix_le : n.radix ≤ 16
  signd_radix : n.signd → n.radix = 10

theorem numberDigits_length (hn : n.Regular) : (numberDigits n).length ≤ 64 := by
  rw [numberDigits, List.length_map]
  apply length_numeral_le hn.one_lt_radix
  calc n.num.toNat < 2 ^ 64 := n.num.isLt
    _ ≤ n.radix ^ 64 := Nat.pow_le_pow_left hn.one_lt_radix 64

theorem counted_eq (hs : s.Regular) (hn : n.Regular) :
    ((NumberTally.countZeros s.prec ⟨(numberDigits n).length, 0⟩).addSign s.flags n).addAlt
        s.flags n = ⟨numberLen s n, numberZeros s n⟩ := by
  have hdigits := numberDigits_length hn
  have hprec := hs.prec_le
  have hprec0 := hs.prec_nonneg
  have hmax : INT_MAX = 2147483647 := rfl
  have hzeros : (s.prec - (numberDigits n).length).toNat =
      s.prec.toNat - (numberDigits n).length := by omega
  have hcount := countZeros_eq s.prec ⟨(numberDigits n).length, 0⟩ le_rfl (by simp only; omega)
  simp only [hzeros, zero_add] at hcount
  rw [hcount, ← Nat.cast_add, addAlt_addSign s.flags hn.signd_radix _ _ (by omega), numberLen,
    numberBody, List.length_append, List.length_replicate, numberZeros]
  congr 2
  push_cast
  ring

theorem numberBody_length_of_default (hs : s.Regular) (hn : n.Regular) (h : s.defaultPrec) :
    (numberBody s n).length ≤ 66 := by
  have hdigits := numberDigits_length hn
  have hoct := octalZero_le (n := n) s.flags (s.prec.toNat - (numberDigits n).length)
  have hprec := hs.prec_default h
  rw [numberBody, List.length_append, List.length_replicate, numberZeros]
  omega

/-- With zeros filling the field nothing overflows: the precision is 1. -/
theorem numberLen_of_default (hs : s.Regular) (hn : n.Regular) (h : s.defaultPrec) :
    numberLen s n = ((numberBody s n).length + (formatHead s.flags n).length : Nat) := by
  have hhead := formatHead_length_le s.flags hn.signd_radix
  have hbody := numberBody_length_of_default hs hn h
  have hmax : INT_MAX = 2147483647 := rfl
  rw [numberLen]
  apply wrapInt_of_le
  · omega
  · omega

/-- Where zeros fill the field, `num_zeros` grows as `len` does. -/
theorem filled_eq (hs : s.Regular) (hn : n.Regular) (h : s.defaultPrec) :
    (NumberTally.countZeros s.width ⟨numberLen s n, numberZeros s n⟩).numZeros =
      (numberZeros s n + (s.width - numberLen s n).toNat : Nat) := by
  have hzeros : numberZeros s n ≤ (numberBody s n).length := by
    rw [numberBody, List.length_append, List.length_replicate]
    omega
  have hbody := numberBody_length_of_default hs hn h
  have hlen := numberLen_of_default hs hn h
  have hwidth := hs.width_le
  have hmax : INT_MAX = 2147483647 := rfl
  rw [countZeros_eq s.width ⟨numberLen s n, numberZeros s n⟩ (by simp only; omega)
    (by simp only; omega)]
  simp only
  omega

theorem putNumber_eq (hs : s.Regular) (hn : n.Regular) :
    putNumber s n =
      .ok (justify s.flags.ljustify s.zeroFill (s.width - numberLen s n).toNat
        (formatHead s.flags n) (numberBody s n)) := by
  have hbuf := num2str_buffer n.capital hn.one_lt_radix hn.radix_le n.num
  rw [putNumber, hbuf, ok_bind]
  simp only
  rw [show (List.map (digitChar n.capital) (numeral n.radix n.num.toNat)) = numberDigits n from rfl,
    counted_eq hs hn, justify, FormatSpec.rightJustify, FormatSpec.leftJustify]
  cases hl : s.flags.ljustify with
  | true =>
    simp only [if_true, putWhile_eq, formatHead, numberBody, sub_zero, Int.toNat_natCast,
      List.nil_append, List.append_assoc]
  | false =>
    cases hz : s.zeroFill with
    | false =>
      simp only [Bool.false_eq_true, if_false, putWhile_eq, formatHead, numberBody, sub_zero,
        Int.toNat_natCast, List.append_assoc, List.append_nil]
    | true =>
      have hdef : s.defaultPrec = true := by
        rw [FormatSpec.zeroFill, Bool.and_eq_true] at hz
        exact hz.2
      simp only [Bool.false_eq_true, if_false, if_true, filled_eq hs hn hdef, putWhile_eq,
        formatHead, numberBody, sub_zero, Int.toNat_natCast, List.append_assoc, List.append_nil,
        List.nil_append]
      rw [← List.append_assoc (List.replicate _ _) (List.replicate _ _), 
        List.replicate_append_replicate, Nat.add_comm]

end Number

/-! ## Against the standard -/

/-- Whether the source extends the argument with its sign. -/
def ArgLength.signExtends (length : ArgLength) (signed : Bool) : Bool :=
  match length with
  | .z => false
  | .t => true
  | _ => signed

namespace NumericConversion

/-- What the parser makes of the text. -/
def spec (cv : NumericConversion) : FormatSpec where
  flags :=
    { ljustify := cv.left
      signflag := .plus ∈ cv.flags
      signpad := .space ∈ cv.flags && !(.plus ∈ cv.flags)
      altflag := .hash ∈ cv.flags
      zeropad := .zero ∈ cv.flags && !(.minus ∈ cv.flags) }
  width := cv.width.size
  defaultPrec := cv.precision.size = none
  prec := cv.minDigits
  length := cv.length

/-- What the source takes the argument for. -/
def fetched (cv : NumericConversion) : BitVec 64 :=
  if cv.length.signExtends cv.specifier.signed then (cv.arg.setWidth cv.length.bits).signExtend 64
  else (cv.arg.setWidth cv.length.bits).setWidth 64

def number (cv : NumericConversion) : FormatNumber :=
  if cv.specifier.signed then signedNumber cv.fetched
  else unsignedNumber cv.specifier.radix (cv.specifier = .X) cv.fetched

theorem number_radix (cv : NumericConversion) : cv.number.radix = cv.specifier.radix := by
  rw [number]
  cases cv.specifier <;> rfl

theorem number_signd (cv : NumericConversion) : cv.number.signd = cv.specifier.signed := by
  rw [number]
  cases cv.specifier <;> rfl

theorem number_capital (cv : NumericConversion) :
    cv.number.capital = decide (cv.specifier = .X) := by
  rw [number]
  cases cv.specifier <;> rfl

theorem number_regular (cv : NumericConversion) : cv.number.Regular where
  one_lt_radix := by
    rw [number_radix]
    cases cv.specifier <;> decide
  radix_le := by
    rw [number_radix]
    cases cv.specifier <;> decide
  signd_radix := by
    rw [number_radix, number_signd]
    cases cv.specifier <;> decide

end NumericConversion

theorem ArgLength.bits_le (length : ArgLength) : length.bits ≤ 64 := by
  cases length <;> decide

theorem FieldWidth.size_le (width : FieldWidth) : width.size ≤ INT_MAX := by
  cases width with
  | absent => exact Nat.zero_le _
  | literal first ds leads fits => exact fits
  | star arg above =>
    have hlt := BitVec.toInt_lt (x := arg)
    have hmax : INT_MAX = 2147483647 := rfl
    rw [FieldWidth.size]
    omega

theorem FieldPrecision.size_le {precision : FieldPrecision} {n : Nat}
    (h : precision.size = some n) : n ≤ INT_MAX := by
  cases precision with
  | absent => cases h
  | literal ds fits =>
    cases h
    exact fits
  | star arg above =>
    have hlt := BitVec.toInt_lt (x := arg)
    have hmax : INT_MAX = 2147483647 := rfl
    rw [FieldPrecision.size] at h
    split at h
    · cases h
    · cases h
      omega

namespace NumericConversion

theorem minDigits_le (cv : NumericConversion) : cv.minDigits ≤ INT_MAX := by
  rw [minDigits]
  cases h : cv.precision.size with
  | none => decide
  | some n => exact FieldPrecision.size_le h

theorem spec_regular (cv : NumericConversion) : cv.spec.Regular where
  width_nonneg := Int.natCast_nonneg _
  width_le := Int.ofNat_le.mpr cv.width.size_le
  prec_nonneg := Int.natCast_nonneg _
  prec_le := Int.ofNat_le.mpr cv.minDigits_le
  prec_default := by
    intro h
    have hnone : cv.precision.size = none := of_decide_eq_true h
    simp [spec, minDigits, hnone]

/-- The source takes the argument for what the standard does. -/
structure Exact (cv : NumericConversion) : Prop where
  magnitude : cv.number.num.toNat = cv.value.natAbs
  negative : cv.number.negative = (cv.specifier.signed && decide (cv.value < 0))

end NumericConversion

theorem signedNumber_num (n : BitVec 64) : (signedNumber n).num.toNat = n.toInt.natAbs := by
  rw [signedNumber]
  simp only
  split
  · next h => 
    rw [BitVec.toNat_neg]
    rw [BitVec.toInt_eq_toNat_cond] at h ⊢
    have := n.isLt
    split at h
    · omega
    · omega
  · next h =>
    rw [BitVec.toInt_eq_toNat_cond] at h ⊢
    have := n.isLt
    split at h
    · omega
    · omega

/-- The source extends the argument as it should, or the extension makes no difference. -/
def NumericConversion.Extended (cv : NumericConversion) : Prop :=
  cv.length.signExtends cv.specifier.signed = cv.specifier.signed ∨
    (cv.arg.setWidth cv.length.bits).msb = false

theorem NumericConversion.Extended.fetched_eq {cv : NumericConversion} (h : cv.Extended) :
    cv.fetched = if cv.specifier.signed then (cv.arg.setWidth cv.length.bits).signExtend 64
      else (cv.arg.setWidth cv.length.bits).setWidth 64 := by
  rcases h with hext | hmsb
  · rw [fetched, hext]
  · rw [fetched, BitVec.signExtend_eq_setWidth_of_msb_false hmsb, ite_self, ite_self]

theorem NumericConversion.Extended.exact {cv : NumericConversion} (h : cv.Extended) : cv.Exact := by
  have hbits := cv.length.bits_le
  have hfetched := h.fetched_eq
  cases hs : cv.specifier.signed with
  | true =>
    have hval : cv.fetched.toInt = cv.value := by
      rw [hfetched, value, hs, if_pos rfl, if_pos rfl]
      exact BitVec.toInt_signExtend_of_le hbits
    have hnum : cv.number = signedNumber cv.fetched := by rw [number, hs, if_pos rfl]
    constructor
    · rw [hnum, signedNumber_num, hval]
    · rw [hnum, hs, Bool.true_and, ← hval]
      rfl
  | false =>
    have hval : (cv.fetched.toNat : Int) = cv.value := by
      rw [hfetched, value, hs]
      simp only [Bool.false_eq_true, if_false, Nat.cast_inj]
      exact BitVec.toNat_setWidth_of_le hbits
    have hnum : cv.number = unsignedNumber cv.specifier.radix (cv.specifier = .X) cv.fetched := by
      rw [number, hs]
      rfl
    constructor
    · rw [hnum, unsignedNumber, ← hval, Int.natAbs_natCast]
    · rw [hnum, hs]
      rfl

theorem NumericConversion.exact {cv : NumericConversion} (hz : cv.length ≠ .z)
    (ht : cv.length ≠ .t) : cv.Exact := by
  have hext : cv.length.signExtends cv.specifier.signed = cv.specifier.signed := by
    cases h : cv.length <;> first | rfl | contradiction
  exact Extended.exact (Or.inl hext)

namespace NumericConversion
variable {cv : NumericConversion}

theorem Exact.num_ne (h : cv.Exact) : cv.number.num ≠ 0 ↔ cv.value ≠ 0 := by
  have hnum : cv.number.num ≠ 0 ↔ cv.number.num.toNat ≠ 0 := by
    rw [not_iff_not, ← BitVec.toNat_inj]
    rfl
  rw [hnum, h.magnitude, Int.natAbs_ne_zero]

/-- What stands before the digits depends on the sign, and on whether the number is zero. -/
theorem formatHead_eq (hnum : cv.number.num ≠ 0 ↔ cv.value ≠ 0)
    (hneg : cv.number.negative = (cv.specifier.signed && decide (cv.value < 0))) :
    formatHead cv.spec.flags cv.number = cv.head := by
  have hsign : (signChar cv.spec.flags cv.number).toList = cv.sign := by
    rw [signChar, sign, number_signd, hneg, spec]
    cases cv.specifier.signed with
    | false => rfl
    | true => 
      simp only [Bool.true_and, Bool.not_true, Bool.false_eq_true, if_false]
      split_ifs <;> simp_all
  have hradix : radixPrefix cv.spec.flags cv.number = cv.radixSign := by
    have halt : cv.spec.flags.altflag = decide (.hash ∈ cv.flags) := rfl
    have hchar : cv.specifier.radix = 16 →
        (if cv.number.capital then 0x58 else 0x78) = cv.specifier.char := by
      rw [number_capital]
      cases cv.specifier <;> decide
    rw [radixPrefix, radixSign, halt, number_radix]
    by_cases hr : cv.specifier.radix = 16
    · simp only [hr, hchar hr, Bool.and_eq_true, decide_eq_true_eq, hnum, and_assoc]
    · simp [hr]
  rw [formatHead, hsign, hradix, head]

theorem Exact.formatHead_eq (h : cv.Exact) : formatHead cv.spec.flags cv.number = cv.head :=
  NumericConversion.formatHead_eq h.num_ne h.negative

theorem Exact.numberDigits_eq (h : cv.Exact) : numberDigits cv.number = cv.digits := by
  rw [numberDigits, digits, number_radix, number_capital, h.magnitude]

theorem digits_head? (cv : NumericConversion) : cv.digits.head? ≠ some 0x30 := by
  have hr : 1 < cv.specifier.radix := by cases cv.specifier <;> decide
  have hr' : cv.specifier.radix ≤ 16 := by cases cv.specifier <;> decide
  rw [digits, List.head?_map]
  intro h0
  obtain ⟨d, hd, hchar⟩ := Option.map_eq_some_iff.mp h0
  have hmem := List.mem_of_mem_head? hd
  have hlt : d < 16 := lt_of_lt_of_le (numeral_lt hr hmem) hr'
  rw [digitChar_eq_zero _ hlt] at hchar
  rw [hchar] at hd
  exact numeral_head?_ne _ _ hd

/-- The zeros before the digits; the octal form adds one where the precision gives none. -/
theorem body_eq (cv : NumericConversion) :
    cv.body = List.replicate (cv.minDigits - cv.digits.length +
      if .hash ∈ cv.flags ∧ cv.specifier.radix = 8 ∧ cv.minDigits - cv.digits.length = 0 then 1
      else 0) 0x30 ++ cv.digits := by
  have hhead := cv.digits_head?
  rw [body]
  generalize cv.minDigits - cv.digits.length = zeros
  cases zeros with
  | zero =>
    simp only [List.replicate_zero, List.nil_append, ne_eq, hhead, not_false_eq_true, and_true,
      Nat.zero_add]
    split <;> rfl
  | succ zeros => simp [List.replicate_succ]

theorem Exact.numberBody_eq (h : cv.Exact) : numberBody cv.spec cv.number = cv.body := by
  have halt : cv.spec.flags.altflag = decide (.hash ∈ cv.flags) := rfl
  have hprec : cv.spec.prec.toNat = cv.minDigits := rfl
  rw [numberBody, numberZeros, h.numberDigits_eq, octalZero, number_radix, body_eq, hprec, halt]
  simp only [decide_eq_true_eq]

theorem digits_length_le (h : cv.Exact) : cv.digits.length ≤ 64 := by
  rw [← h.numberDigits_eq]
  exact numberDigits_length cv.number_regular

theorem head_length_le (h : cv.Exact) : cv.head.length ≤ 2 := by
  rw [← h.formatHead_eq]
  exact formatHead_length_le _ cv.number_regular.signd_radix

/-- The digits of the precision take the count past an `int` exactly where the whole number does. -/
theorem countable_iff (h : cv.Exact) :
    cv.Countable ↔ cv.body.length + cv.head.length ≤ INT_MAX := by
  have hdigits := digits_length_le h
  have hhead := head_length_le h
  have hmax : INT_MAX = 2147483647 := rfl
  rw [Countable, body_eq, List.length_append, List.length_replicate]
  split_ifs with hoct
  · omega
  · omega

theorem body_head_length_le (h : cv.Exact) : cv.body.length + cv.head.length ≤ INT_MAX + 2 := by
  have hdigits := digits_length_le h
  have hhead := head_length_le h
  have hprec := cv.minDigits_le
  have hmax : INT_MAX = 2147483647 := rfl
  rw [body_eq, List.length_append, List.length_replicate]
  split_ifs with hoct
  · omega
  · omega

theorem pad_eq_iff (h : cv.Exact) :
    (cv.spec.width - wrapInt (cv.body.length + cv.head.length : Nat)).toNat =
      cv.width.size - (cv.head.length + cv.body.length) ↔ cv.Countable := by
  have hwidth : cv.spec.width = cv.width.size := rfl
  have hle := cv.width.size_le
  have hall := body_head_length_le h
  have hmax : INT_MAX = 2147483647 := rfl
  rw [countable_iff h, hwidth]
  constructor
  · intro hpad
    by_contra hgt
    rw [wrapInt_of_gt (by omega) (by omega)] at hpad
    omega
  · intro hfits
    rw [wrapInt_of_le (by omega) (by omega)]
    omega

end NumericConversion

theorem justify_length (left zeroFill : Bool) (pad : Nat) (head body : CString) :
    (justify left zeroFill pad head body).length = pad + head.length + body.length := by
  rw [justify]
  split_ifs
  · simp only [List.length_append, List.length_replicate]
    omega
  · simp only [List.length_append, List.length_replicate]
    omega
  · simp only [List.length_append, List.length_replicate]

theorem justify_inj {left zeroFill : Bool} {pad pad' : Nat} {head body : CString} :
    justify left zeroFill pad head body = justify left zeroFill pad' head body ↔ pad = pad' := by
  constructor
  · intro h
    have hlen := congrArg List.length h
    rw [justify_length, justify_length] at hlen
    omega
  · rintro rfl
    rfl

theorem justify_left (zeroFill zeroFill' : Bool) (pad : Nat) (head body : CString) :
    justify true zeroFill pad head body = justify true zeroFill' pad head body := rfl

namespace NumericConversion
variable {cv : NumericConversion}

/-- The characters of a numeric conversion are those of the standard exactly where they can be
counted in an `int`. -/
theorem putNumber_standard (h : cv.Exact) :
    ∃ out, putNumber cv.spec cv.number = .ok out ∧ (out = cv.standardOutput ↔ cv.Countable) := by
  refine ⟨_, putNumber_eq cv.spec_regular cv.number_regular, ?_⟩
  have hleft : cv.spec.flags.ljustify = cv.left := rfl
  have hfill : cv.left = false →
      cv.spec.zeroFill = (decide (.zero ∈ cv.flags) && decide (cv.precision.size = none)) := by
    intro hl
    rw [left, Bool.or_eq_false_iff] at hl
    simp [FormatSpec.zeroFill, spec, hl.1]
  rw [numberLen, h.formatHead_eq, h.numberBody_eq, hleft, standardOutput, ← pad_eq_iff h]
  cases hl : cv.left with
  | true => rw [justify_left _ (decide (.zero ∈ cv.flags) && decide (cv.precision.size = none)),
      justify_inj]
  | false => rw [hfill hl, justify_inj]

end NumericConversion

end Ohwes

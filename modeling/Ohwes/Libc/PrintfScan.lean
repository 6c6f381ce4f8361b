import Mathlib.Data.List.TakeWhile
import Ohwes.Libc.PrintfConversion

/-! # `libc/printf.c`: scanning a format

Where a specification ends is read off the string here, field by field, and the scanner of `_doprintf`
is compared with that. A field that the end of the string cuts off takes the NUL for its next
character, and the loop goes on behind it; only the flags leave the NUL where it is. -/

namespace Ohwes
set_option autoImplicit false

/-! ## Where a specification ends -/

def isFlag (c : Byte) : Bool := c ∈ ([0x2D, 0x2B, 0x20, 0x23, 0x30] : CString)

def isModifier (c : Byte) : Bool := c ∈ ([0x68, 0x6C, 0x6A, 0x7A, 0x74] : CString)

/-- The characters `%`, `c`, `s`, `o`, `X`, `x`, `d`, `i` and `u`. -/
def isConversion (c : Byte) : Bool :=
  c ∈ ([0x25, 0x63, 0x73, 0x6F, 0x58, 0x78, 0x64, 0x69, 0x75] : CString)

/-- The string behind a character it may start with. -/
def skipChar (c : Byte) (s : CString) : CString := if s.head? = some c then s.tail else s

/-- The string behind the digits and the `*` it may start with. -/
def skipNumber (s : CString) : CString := skipChar 0x2A (s.dropWhile isdigit)

def skipPrecision (s : CString) : CString := if s.head? = some 0x2E then skipNumber s.tail else s

/-- The string behind a length modifier. Behind an `h` or `l` other modifiers are passed over, and the
same once more. -/
def skipLength : CString → CString
  | [] => []
  | c :: s =>
    if c = 0x68 ∨ c = 0x6C then skipChar c (s.dropWhile fun d => isModifier d && d != c)
    else if isModifier c then s
    else c :: s

/-- From the conversion character on, for a string that starts behind a `%`. -/
def skipFields (s : CString) : CString :=
  skipLength (skipPrecision (skipNumber (s.dropWhile isFlag)))

/-- Every specification of the string has its conversion character, except that the last one may be
cut off behind the `%` or behind a flag other than `0`. -/
inductive EndsWell : CString → Prop
  | nil : EndsWell []
  | plain {c : Byte} {s : CString} : c ≠ 0x25 → EndsWell s → EndsWell (c :: s)
  | spec {s rest : CString} {conv : Byte} :
      skipFields s = conv :: rest → EndsWell rest → EndsWell (0x25 :: s)
  | flags {s : CString} :
      (∀ c ∈ s, isFlag c) → s.getLastD 0x25 ≠ 0x30 → EndsWell (0x25 :: s)

/-- The specification lacks a conversion character `_doprintf` knows. -/
def Invalid (s : CString) : Prop := ∀ conv rest, skipFields s = conv :: rest → isConversion conv = false

/-! ## What the scanner passes over -/

/-- What is left from `c` on when the flags loop ends. -/
def behindFlags (c : Byte) (s : CString) : CString :=
  if s.dropWhile isFlag = [] then [s.getLastD c] else s.dropWhile isFlag

/-- What is left from `c` on at the switch over the conversion character. -/
def scanned (s : CString) : CString :=
  skipLength (skipPrecision (skipNumber (behindFlags 0x25 s)))

theorem add_isSome (flags : FormatFlags) (c : Byte) : (flags.add c).isSome = isFlag c := by
  rw [FormatFlags.add, isFlag]
  split_ifs
  all_goals simp_all

theorem behindFlags_cons {d : Byte} (h : isFlag d = true) (c : Byte) (s : CString) :
    behindFlags c (d :: s) = behindFlags d s := by
  rw [behindFlags, behindFlags, List.dropWhile_cons_of_pos h, List.getLastD_cons]

theorem parseFlags_run {s : CString} (hs : 0 ∉ s) (flags : FormatFlags) (c : Byte) :
    ∃ flags', parseFlags flags (c :: (s ++ [0])) = .ok (flags', behindFlags c s ++ [0]) := by
  induction s generalizing flags c with
  | nil => exact ⟨flags, rfl⟩
  | cons d s ih =>
    rw [List.mem_cons, not_or] at hs
    have hd : ¬ d = 0 := fun h => hs.1 h.symm
    have hadd := add_isSome flags d
    cases hflag : flags.add d with
    | none =>
      rw [hflag] at hadd
      have hstop : (d :: s).dropWhile isFlag = d :: s :=
        List.dropWhile_cons_of_neg (by rw [← hadd]; decide)
      refine ⟨flags, ?_⟩
      rw [List.cons_append, parseFlags, if_neg hd, hflag, behindFlags, hstop,
        if_neg (List.cons_ne_nil d s)]
      rfl
    | some flags₁ =>
      rw [hflag] at hadd
      obtain ⟨flags', hrun⟩ := ih hs.2 flags₁ d
      refine ⟨flags', ?_⟩
      rw [List.cons_append, parseFlags, if_neg hd, hflag, behindFlags_cons hadd.symm]
      exact hrun

theorem parseDigits_run (s : CString) (value : Int) :
    ∃ value', parseDigits value (s ++ [0]) = .ok (value', s.dropWhile isdigit ++ [0]) := by
  induction s generalizing value with
  | nil => exact ⟨value, rfl⟩
  | cons c s ih =>
    cases hc : isdigit c with
    | true =>
      obtain ⟨value', hrun⟩ := ih (wrapInt (wrapInt (value * 10) + (c.toNat - 0x30 : Int)))
      refine ⟨value', ?_⟩
      rw [List.cons_append, parseDigits, if_pos hc, hrun, List.dropWhile_cons_of_pos hc]
    | false =>
      have hneg : ¬ isdigit c = true := by rw [hc]; decide
      refine ⟨value, ?_⟩
      rw [List.cons_append, parseDigits, if_neg hneg, List.dropWhile_cons_of_neg hneg,
        List.cons_append]

theorem advanceFormat_run (c : Byte) (s : CString) :
    advanceFormat (c :: (s ++ [0])) = .ok (s ++ [0]) := by
  cases s <;> rfl

/-- At a character other than NUL the string and the format agree on what they start with. -/
theorem head_run {c : Byte} (hc : c ≠ 0) (s : CString) :
    (s ++ [0]).head? = some c ↔ s.head? = some c := by
  cases s with
  | nil => simpa using hc.symm
  | cons d s => rfl

theorem cons_of_head {c : Byte} {s : CString} (h : s.head? = some c) : s = c :: s.tail := by
  cases s with
  | nil => cases h
  | cons d s =>
    cases h
    rfl

section Fields
variable (flags : FormatFlags) (s : CString) {args : FormatArgs}

theorem vaWord_run (h : 1 ≤ args.length) :
    ∃ word args', vaWord args = .ok (word, args') ∧ args.length = args'.length + 1 := by
  cases args with
  | nil => cases h
  | cons word args => exact ⟨word, args, rfl, rfl⟩

/-- Behind the digits of a number there is a `*` or there is none. -/
theorem skipNumber_cases :
    (∃ rest, s.dropWhile isdigit = 0x2A :: rest ∧ skipNumber s = rest) ∨
      ((s.dropWhile isdigit ++ [0]).head? ≠ some 0x2A ∧ skipNumber s = s.dropWhile isdigit) := by
  rw [skipNumber, skipChar, ne_eq, head_run (by decide)]
  by_cases hstar : (s.dropWhile isdigit).head? = some 0x2A
  · rw [if_pos hstar]
    exact Or.inl ⟨_, cons_of_head hstar, rfl⟩
  · rw [if_neg hstar]
    exact Or.inr ⟨hstar, rfl⟩

theorem starWidth_run (h : 1 ≤ args.length) :
    ∃ p, starWidth flags (0x2A :: (s ++ [0])) args = .ok p ∧ p.format = s ++ [0] ∧
      args.length ≤ p.args.length + 1 := by
  obtain ⟨word, args', hword, hlen⟩ := vaWord_run h
  rw [starWidth, hword, ok_bind]
  simp only [advanceFormat_run, ok_bind]
  split
  · exact ⟨_, rfl, rfl, Nat.le_of_eq hlen⟩
  · exact ⟨_, rfl, rfl, Nat.le_of_eq hlen⟩

theorem starPrecision_run (h : 1 ≤ args.length) :
    ∃ p, starPrecision (0x2A :: (s ++ [0])) args = .ok p ∧ p.format = s ++ [0] ∧
      args.length ≤ p.args.length + 1 := by
  obtain ⟨word, args', hword, hlen⟩ := vaWord_run h
  rw [starPrecision, hword, ok_bind]
  simp only [advanceFormat_run, ok_bind]
  split
  · exact ⟨_, rfl, rfl, Nat.le_of_eq hlen⟩
  · exact ⟨_, rfl, rfl, Nat.le_of_eq hlen⟩

theorem parseWidth_run (h : 1 ≤ args.length) :
    ∃ p, parseWidth flags (s ++ [0]) args = .ok p ∧ p.format = skipNumber s ++ [0] ∧
      args.length ≤ p.args.length + 1 := by
  obtain ⟨width, hdigits⟩ := parseDigits_run s 0
  rw [parseWidth, hdigits, ok_bind]
  obtain ⟨rest, hrest, hskip⟩ | ⟨hstar, hskip⟩ := skipNumber_cases s
  · rw [hskip, hrest]
    exact starWidth_run flags rest h
  · rw [hskip]
    simp only [if_neg hstar]
    exact ⟨_, rfl, rfl, Nat.le_succ _⟩

theorem dotPrecision_run (h : 1 ≤ args.length) :
    ∃ p, dotPrecision (0x2E :: (s ++ [0])) args = .ok p ∧ p.format = skipNumber s ++ [0] ∧
      args.length ≤ p.args.length + 1 := by
  obtain ⟨prec, hdigits⟩ := parseDigits_run s 0
  rw [dotPrecision, advanceFormat_run, ok_bind, hdigits, ok_bind]
  obtain ⟨rest, hrest, hskip⟩ | ⟨hstar, hskip⟩ := skipNumber_cases s
  · rw [hskip, hrest]
    exact starPrecision_run rest h
  · rw [hskip]
    simp only [if_neg hstar]
    exact ⟨_, rfl, rfl, Nat.le_succ _⟩

theorem parsePrecision_run (h : 1 ≤ args.length) :
    ∃ p, parsePrecision (s ++ [0]) args = .ok p ∧ p.format = skipPrecision s ++ [0] ∧
      args.length ≤ p.args.length + 1 := by
  rw [parsePrecision, skipPrecision]
  by_cases hdot : s.head? = some 0x2E
  · obtain ⟨rest, rfl⟩ : ∃ rest, s = 0x2E :: rest := ⟨_, cons_of_head hdot⟩
    rw [List.cons_append, List.head?_cons, List.head?_cons, if_pos rfl, if_pos rfl]
    exact dotPrecision_run rest h
  · rw [if_neg hdot, if_neg fun h => hdot ((head_run (by decide) s).mp h)]
    exact ⟨_, rfl, rfl, Nat.le_succ _⟩

end Fields

/-- Behind an `h` or an `l` the loop goes on up to the same once more. -/
theorem parseLength_second {length : ArgLength} {c : Byte}
    (hgo : ∀ d, isModifier d = true → d ≠ c → length.add d = some (length, true))
    (hend : ∃ longer, length.add c = some (longer, false))
    (hstop : ∀ d, isModifier d = false → length.add d = none) (s : CString) :
    ∃ length', parseLength length (s ++ [0]) =
      .ok (length', skipChar c (s.dropWhile fun d => isModifier d && d != c) ++ [0]) := by
  induction s with
  | nil =>
    refine ⟨length, ?_⟩
    rw [List.nil_append, parseLength, hstop 0 rfl]
    rfl
  | cons d s ih =>
    by_cases hd : d = c
    · subst hd
      obtain ⟨longer, hlonger⟩ := hend
      refine ⟨longer, ?_⟩
      rw [List.cons_append, parseLength, hlonger, List.dropWhile_cons_of_neg (by simp)]
      simp only [advanceFormat_run]
      rw [skipChar, if_pos List.head?_cons]
      rfl
    · cases hm : isModifier d with
      | true =>
        obtain ⟨length', hrun⟩ := ih
        refine ⟨length', ?_⟩
        rw [List.cons_append, parseLength, hgo d hm hd, List.dropWhile_cons_of_pos (by simp [hm, hd])]
        exact hrun
      | false =>
        refine ⟨length, ?_⟩
        have hne : ¬ (d :: s).head? = some c := by simpa using hd
        rw [List.cons_append, parseLength, hstop d hm, List.dropWhile_cons_of_neg (by simp [hm]),
          skipChar, if_neg hne]
        rfl

theorem parseLength_run (s : CString) :
    ∃ length, parseLength .default (s ++ [0]) = .ok (length, skipLength s ++ [0]) := by
  have hstop : ∀ (length : ArgLength) (d : Byte), isModifier d = false → length.add d = none := by
    intro length d hd
    simp [isModifier] at hd
    simp [ArgLength.add, hd]
  have hgo : ∀ d, isModifier d = true → (d ≠ 0x68 → ArgLength.h.add d = some (.h, true)) ∧
      (d ≠ 0x6C → ArgLength.l.add d = some (.l, true)) := by decide
  cases s with
  | nil => exact ⟨.default, rfl⟩
  | cons c s =>
    rw [List.cons_append, parseLength, skipLength]
    by_cases hh : c = 0x68
    · subst hh
      exact parseLength_second (fun d hd => (hgo d hd).1) ⟨.hh, rfl⟩ (hstop .h) s
    by_cases hl : c = 0x6C
    · subst hl
      exact parseLength_second (fun d hd => (hgo d hd).2) ⟨.ll, rfl⟩ (hstop .l) s
    rw [if_neg (not_or.mpr ⟨hh, hl⟩)]
    cases hm : isModifier c with
    | true =>
      have honly : ∀ c, ¬ c = 0x68 → ¬ c = 0x6C → isModifier c = true →
          (ArgLength.default.add c).map Prod.snd = some false := by decide
      obtain ⟨⟨length, goes⟩, hadd, hgoes⟩ := Option.map_eq_some_iff.mp (honly c hh hl hm)
      refine ⟨length, ?_⟩
      rw [hadd, show goes = false from hgoes]
      simp only [advanceFormat_run]
      rfl
    | false =>
      refine ⟨.default, ?_⟩
      rw [hstop .default c hm]
      rfl

theorem parseSpec_run {s : CString} (hs : 0 ∉ s) {args : FormatArgs} (h : 2 ≤ args.length) :
    ∃ p, parseSpec (0x25 :: (s ++ [0])) args = .ok p ∧ p.format = scanned s ++ [0] ∧
      args.length ≤ p.args.length + 2 := by
  obtain ⟨flags, hflags⟩ := parseFlags_run hs FormatFlags.clear 0x25
  obtain ⟨w, hwidth, hw, hwargs⟩ :=
    parseWidth_run flags.settle (behindFlags 0x25 s) (show 1 ≤ args.length by omega)
  obtain ⟨q, hprec, hq, hqargs⟩ :=
    parsePrecision_run (skipNumber (behindFlags 0x25 s)) (show 1 ≤ w.args.length by omega)
  obtain ⟨length, hlength⟩ := parseLength_run (skipPrecision (skipNumber (behindFlags 0x25 s)))
  rw [← hw] at hprec
  rw [← hq] at hlength
  rw [parseSpec, hflags, ok_bind]
  simp only [hwidth, hprec, hlength, ok_bind]
  refine ⟨_, rfl, rfl, ?_⟩
  show args.length ≤ q.args.length + 2
  omega

/-! ## A pass -/

section Pass
variable {strings : Ptr → CString} {start format : List Byte} {spec : FormatSpec} {args : FormatArgs}

theorem getSigned_run (length : ArgLength) (h : 2 ≤ args.length) :
    ∃ x, getSigned length args = .ok x ∧ args.length ≤ x.2.length + 2 := by
  match args, h with
  | low :: high :: more, _ => cases length <;> exact ⟨_, rfl, by simp⟩

theorem getUnsigned_run (length : ArgLength) (h : 2 ≤ args.length) :
    ∃ x, getUnsigned length args = .ok x ∧ args.length ≤ x.2.length + 2 := by
  match args, h with
  | low :: high :: more, _ => cases length <;> exact ⟨_, rfl, by simp⟩

theorem putNumber_run (s : FormatSpec) (n : FormatNumber) (hr : 1 < n.radix) (hr' : n.radix ≤ 16) :
    ∃ out, putNumber s n = .ok out := by
  rw [putNumber, num2str_buffer n.capital hr hr', ok_bind]
  exact ⟨_, rfl⟩

theorem putSigned_run (h : 2 ≤ args.length) :
    ∃ p, putSigned spec format args = .ok p ∧ args.length ≤ p.args.length + 2 := by
  obtain ⟨⟨n, args'⟩, hn, hlen⟩ := getSigned_run spec.length h
  obtain ⟨out, hout⟩ := putNumber_run spec (signedNumber n) (show 1 < 10 by decide)
    (show 10 ≤ 16 by decide)
  rw [putSigned, hn, ok_bind]
  simp only [hout, ok_bind]
  exact ⟨_, rfl, hlen⟩

theorem putUnsigned_run {radix : Nat} (hr : 1 < radix) (hr' : radix ≤ 16) (capital : Bool)
    (h : 2 ≤ args.length) :
    ∃ p, putUnsigned radix capital spec format args = .ok p ∧ args.length ≤ p.args.length + 2 := by
  obtain ⟨⟨num, args'⟩, hnum, hlen⟩ := getUnsigned_run spec.length h
  obtain ⟨out, hout⟩ := putNumber_run spec (unsignedNumber radix capital num) hr hr'
  rw [putUnsigned, hnum, ok_bind]
  simp only [hout, ok_bind]
  exact ⟨_, rfl, hlen⟩

theorem putConversion_run (c : Byte) (h : 2 ≤ args.length) :
    ∃ p, putConversion strings start spec c format args = .ok p ∧
      args.length ≤ p.args.length + 2 := by
  obtain ⟨word, args', hword, hlen⟩ := vaWord_run (show 1 ≤ args.length by omega)
  rw [putConversion]
  split_ifs
  · exact ⟨_, rfl, Nat.le_add_right _ _⟩
  · rw [putChar, hword]
    exact ⟨_, rfl, by simp only; omega⟩
  · rw [putString, hword]
    split
    · exact ⟨_, rfl, by simp only; omega⟩
    · exact ⟨_, rfl, Nat.le_add_right _ _⟩
  · exact putUnsigned_run (by decide) (by decide) false h
  · exact putUnsigned_run (by decide) (by decide) true h
  · exact putUnsigned_run (by decide) (by decide) false h
  · exact putSigned_run h
  · exact putUnsigned_run (by decide) (by decide) false h
  · exact ⟨_, rfl, Nat.le_add_right _ _⟩

theorem putConversion_invalid {c : Byte} (h : isConversion c = false) :
    putConversion strings start spec c format args =
      .ok ⟨0x25 :: start.take (start.length - format.length), format, args⟩ := by
  simp [isConversion] at h
  simp [putConversion, h]

theorem suffix_of_cons_suffix {α : Type} {a b : α} {l m : List α} (h : a :: l <:+ b :: m) :
    l <:+ m := by
  rcases List.suffix_cons_iff.mp h with heq | hsuf
  · rw [(List.cons.inj heq).2]
  · exact (List.suffix_cons a l).trans hsuf

/-- What is printed for no conversion is what was read. -/
theorem verbatim {l m : List Byte} (h : l <:+ m) : m.take (m.length - l.length) ++ l = m := by
  obtain ⟨t, rfl⟩ := h
  rw [List.length_append, Nat.add_sub_cancel, List.take_left]

end Pass

/-- A pass at a `%` takes the conversion character, be it the NUL, and four words at most. -/
theorem formatPass_run (strings : Ptr → CString) {s : CString} (hs : 0 ∉ s) {args : FormatArgs}
    (h : 4 ≤ args.length) :
    ∃ p, formatPass strings (0x25 :: (s ++ [0])) args = .ok p ∧
      p.format = (scanned s ++ [0]).tail ∧ p.format <:+ s ++ [0] ∧
      args.length ≤ p.args.length + 4 ∧
      (isConversion ((scanned s).headD 0) = false → p.out ++ p.format = 0x25 :: (s ++ [0])) := by
  obtain ⟨⟨spec, format, args'⟩, hspec, hformat, hlen⟩ := parseSpec_run hs (show 2 ≤ args.length by omega)
  simp only at hformat hlen
  obtain ⟨c, rest, hrest⟩ : ∃ c rest, scanned s ++ [0] = c :: rest := by
    cases scanned s with
    | nil => exact ⟨0, [], rfl⟩
    | cons c rest => exact ⟨c, rest ++ [0], rfl⟩
  have hc : (scanned s).headD 0 = c := by
    cases hscan : scanned s with
    | nil =>
      rw [hscan] at hrest
      exact (List.cons.inj hrest).1
    | cons d t =>
      rw [hscan] at hrest
      exact (List.cons.inj hrest).1
  have hsuffix := parseSpec_suffix hspec
  simp only [hformat, hrest] at hsuffix hspec
  obtain ⟨p, hp, hargs⟩ : ∃ p, putConversion strings (s ++ [0]) spec c rest args' = .ok p ∧
      args'.length ≤ p.args.length + 2 := putConversion_run c (by omega)
  have hleft : p.format = rest := putConversion_format hp
  have hpass : formatPass strings (0x25 :: (s ++ [0])) args = .ok p := by
    rw [formatPass, if_neg (by decide), hspec, ok_bind]
    exact hp
  refine ⟨p, hpass, ?_, ?_, by omega, fun hinvalid => ?_⟩
  · rw [hrest, List.tail_cons, hleft]
  · rw [hleft]
    exact suffix_of_cons_suffix hsuffix
  · rw [hc] at hinvalid
    rw [putConversion_invalid hinvalid] at hp
    cases hp
    rw [List.cons_append, verbatim (suffix_of_cons_suffix hsuffix)]

/-! ## Where the scanner stops -/

theorem scanned_of_unflagged {s : CString} (h : s.dropWhile isFlag ≠ []) : scanned s = skipFields s := by
  rw [scanned, behindFlags, if_neg h, skipFields]

theorem skipFields_of_flags {s : CString} (h : s.dropWhile isFlag = []) : skipFields s = [] := by
  rw [skipFields, h]
  rfl

theorem getLastD_mem {s : CString} (h : s ≠ []) (c : Byte) : s.getLastD c ∈ s := by
  cases s with
  | nil => exact absurd rfl h
  | cons d s =>
    have hlast := List.getLast_mem (List.cons_ne_nil d s)
    rwa [List.getLast_eq_getLastD, ← List.getLastD_cons] at hlast

/-- Behind flags only, the last of them is the conversion character, if it is not the digit. -/
theorem scanned_of_flags {s : CString} (h : s.dropWhile isFlag = []) :
    scanned s = if s.getLastD 0x25 = 0x30 then [] else [s.getLastD 0x25] := by
  rw [scanned, behindFlags, if_pos h]
  have hall : ∀ c ∈ s, isFlag c := List.dropWhile_eq_nil_iff.mp h
  have hlast : s.getLastD 0x25 = 0x25 ∨ isFlag (s.getLastD 0x25) = true := by
    by_cases hnil : s = []
    · exact Or.inl (by rw [hnil]; rfl)
    · exact Or.inr (hall _ (getLastD_mem hnil 0x25))
  revert hlast
  generalize s.getLastD 0x25 = c
  revert c
  decide

theorem endsWell_plain_iff {c : Byte} (hc : c ≠ 0x25) {s : CString} :
    EndsWell (c :: s) ↔ EndsWell s := by
  constructor
  · intro h
    cases h with
    | plain _ hs => exact hs
    | spec _ _ => exact absurd rfl hc
    | flags _ _ => exact absurd rfl hc
  · exact EndsWell.plain hc

theorem endsWell_spec_iff {s : CString} :
    EndsWell (0x25 :: s) ↔ ∃ conv rest, scanned s = conv :: rest ∧ EndsWell rest := by
  constructor
  · intro h
    cases h with
    | plain hc _ => exact absurd rfl hc
    | spec hskip hrest =>
      have hne : s.dropWhile isFlag ≠ [] := by
        intro hnil
        rw [skipFields_of_flags hnil] at hskip
        cases hskip
      exact ⟨_, _, (scanned_of_unflagged hne).trans hskip, hrest⟩
    | flags hall hlast =>
      have hscan := scanned_of_flags (List.dropWhile_eq_nil_iff.mpr hall)
      rw [if_neg hlast] at hscan
      exact ⟨_, _, hscan, EndsWell.nil⟩
  · rintro ⟨conv, rest, hscan, hrest⟩
    by_cases hnil : s.dropWhile isFlag = []
    · rw [scanned_of_flags hnil] at hscan
      split_ifs at hscan with hlast
      exact EndsWell.flags (List.dropWhile_eq_nil_iff.mp hnil) hlast
    · rw [scanned_of_unflagged hnil] at hscan
      exact EndsWell.spec hscan hrest

/-! ## The whole format -/

theorem suffix_of_nul_suffix {s t : CString} (h : s ++ [0] <:+ t ++ [0]) : s <:+ t := by
  obtain ⟨u, hu⟩ := h
  rw [← List.append_assoc] at hu
  exact ⟨u, List.append_cancel_right hu⟩

/-- What a pass leaves is a string again, as long as the format ends well. -/
theorem pass_string (strings : Ptr → CString) {c : Byte} {s : CString} (hs : 0 ∉ c :: s)
    {args : FormatArgs} (h : 4 * (c :: s).length ≤ args.length) :
    ∃ p, formatPass strings (c :: (s ++ [0])) args = .ok p ∧
      ((p.format = [] ∧ ¬ EndsWell (c :: s)) ∨
        ∃ t, p.format = t ++ [0] ∧ t <:+ s ∧ 4 * t.length ≤ p.args.length ∧
          (EndsWell (c :: s) ↔ EndsWell t)) := by
  rw [List.mem_cons, not_or] at hs
  rw [List.length_cons] at h
  by_cases hc : c = 0x25
  · subst hc
    obtain ⟨p, hpass, hformat, hsuffix, hargs, -⟩ := formatPass_run strings hs.2 (by omega : 4 ≤ args.length)
    refine ⟨p, hpass, ?_⟩
    cases hscan : scanned s with
    | nil =>
      rw [hscan] at hformat
      refine Or.inl ⟨hformat, fun hwell => ?_⟩
      obtain ⟨conv, rest, hcons, -⟩ := endsWell_spec_iff.mp hwell
      rw [hscan] at hcons
      cases hcons
    | cons conv rest =>
      rw [hscan, List.cons_append, List.tail_cons] at hformat
      rw [hformat] at hsuffix
      have hrest := suffix_of_nul_suffix hsuffix
      have hle := hrest.length_le
      refine Or.inr ⟨rest, hformat, hrest, by omega, ?_⟩
      rw [endsWell_spec_iff, hscan]
      constructor
      · rintro ⟨conv', rest', heq, hwell⟩
        rw [(List.cons.inj heq).2]
        exact hwell
      · exact fun hwell => ⟨conv, rest, rfl, hwell⟩
  · refine ⟨⟨[c], s ++ [0], args⟩, by rw [formatPass, if_pos hc], ?_⟩
    exact Or.inr ⟨s, rfl, List.suffix_refl s, by simp only; omega, endsWell_plain_iff hc⟩

theorem formatOut_nil (strings : Ptr → CString) (args : FormatArgs) :
    formatOut strings [] args = .error .fault := rfl

/-- With words enough for its conversions, a format is printed if and only if it ends well. -/
theorem formatOut_ok_iff (strings : Ptr → CString) {s : CString} (hs : 0 ∉ s) {args : FormatArgs}
    (h : 4 * s.length ≤ args.length) :
    (∃ out, formatOut strings (s ++ [0]) args = .ok out) ↔ EndsWell s := by
  induction hn : s.length using Nat.strongRecOn generalizing s args with
  | ind n ih =>
    cases s with
    | nil => exact iff_of_true ⟨[], rfl⟩ EndsWell.nil
    | cons c s =>
      have hc : c ≠ 0 := fun heq => hs (by rw [heq]; exact List.mem_cons_self)
      obtain ⟨p, hpass, hcases⟩ := pass_string strings hs h
      rw [List.cons_append, formatOut_step hc hpass]
      rcases hcases with ⟨hformat, hbad⟩ | ⟨t, hformat, ht, hargs, hwell⟩
      · rw [hformat, formatOut_nil]
        refine iff_of_false ?_ hbad
        rintro ⟨out, hout⟩
        cases hout
      · have hlt : t.length < n := by
          have hle := ht.length_le
          rw [List.length_cons] at hn
          omega
        have hnul : 0 ∉ t := fun hmem => hs (List.mem_cons_of_mem c (ht.mem hmem))
        rw [hwell, ← ih _ hlt hnul hargs rfl, hformat]
        cases formatOut strings (t ++ [0]) p.args with
        | error e => exact iff_of_false (fun ⟨_, hout⟩ => nomatch hout) (fun ⟨_, hout⟩ => nomatch hout)
        | ok out => exact iff_of_true ⟨_, rfl⟩ ⟨_, rfl⟩

section Reached
variable (strings : Ptr → CString) (format : List Byte) (args : FormatArgs)

/-- The loop gets to a place in the format with words left. -/
inductive Reached : List Byte → FormatArgs → Prop
  | start : Reached format args
  | pass {f : List Byte} {a : FormatArgs} {p : Printed} :
      Reached f a → f.head? ≠ some 0 → formatPass strings f a = .ok p → Reached p.format p.args

end Reached

/-- The scanner stays inside a format, if there are words enough: the loop ends at the NUL, and what is
no specification is printed as it stands. -/
def ScansInside (s : CString) : Prop :=
  ∃ words, ∀ (strings : Ptr → CString) (args : FormatArgs), words ≤ args.length →
    (∃ out, formatOut strings (s ++ [0]) args = .ok out) ∧
    ∀ t args', Reached strings (s ++ [0]) args (0x25 :: (t ++ [0])) args' → Invalid t →
      ∃ p, formatPass strings (0x25 :: (t ++ [0])) args' = .ok p ∧
        p.out ++ p.format = 0x25 :: (t ++ [0]) ∧ p.format = (skipFields t).tail ++ [0]

/-- Wherever the loop gets to, the format still ends well, and has its words. -/
theorem Reached.endsWell {strings : Ptr → CString} {s : CString} {args args' : FormatArgs}
    {format : List Byte} (h : Reached strings (s ++ [0]) args format args') (hs : 0 ∉ s)
    (hwell : EndsWell s) (hargs : 4 * s.length ≤ args.length) :
    ∃ t, format = t ++ [0] ∧ 0 ∉ t ∧ EndsWell t ∧ 4 * t.length ≤ args'.length := by
  induction h with
  | start => exact ⟨s, rfl, hs, hwell, hargs⟩
  | @pass f a p hreach hhead hpass ih =>
    obtain ⟨t, rfl, ht, htwell, htargs⟩ := ih
    cases t with
    | nil => exact absurd rfl hhead
    | cons c t =>
      obtain ⟨p', hpass', hcases⟩ := pass_string strings ht htargs
      have hp : p = p' := Except.ok.inj (hpass.symm.trans hpass')
      subst hp
      rcases hcases with ⟨-, hbad⟩ | ⟨u, hformat, hu, huargs, huwell⟩
      · exact absurd htwell hbad
      · exact ⟨u, hformat, fun hmem => ht (List.mem_cons_of_mem c (hu.mem hmem)), huwell.mp htwell,
          huargs⟩

theorem invalid_verbatim (strings : Ptr → CString) {s : CString} (hs : 0 ∉ s)
    (hwell : EndsWell (0x25 :: s)) (hinvalid : Invalid s) {args : FormatArgs}
    (h : 4 ≤ args.length) :
    ∃ p, formatPass strings (0x25 :: (s ++ [0])) args = .ok p ∧
      p.out ++ p.format = 0x25 :: (s ++ [0]) ∧ p.format = (skipFields s).tail ++ [0] := by
  obtain ⟨p, hpass, hformat, -, -, hverbatim⟩ := formatPass_run strings hs h
  obtain ⟨conv, rest, hscan, -⟩ := endsWell_spec_iff.mp hwell
  rw [hscan, List.cons_append, List.tail_cons] at hformat
  rw [hscan, List.headD_cons] at hverbatim
  by_cases hnil : s.dropWhile isFlag = []
  · have hend := scanned_of_flags hnil
    rw [hscan] at hend
    split_ifs at hend with hlast
    obtain ⟨hconv, rfl⟩ := List.cons.inj hend
    rw [skipFields_of_flags hnil]
    by_cases hempty : s = []
    · subst hempty
      exact ⟨_, rfl, rfl, rfl⟩
    · have hflag : isFlag conv = true := by
        rw [hconv]
        exact List.dropWhile_eq_nil_iff.mp hnil _ (getLastD_mem hempty 0x25)
      have hnot : ∀ c, isFlag c = true → isConversion c = false := by decide
      exact ⟨p, hpass, hverbatim (hnot conv hflag), hformat⟩
  · rw [scanned_of_unflagged hnil] at hscan
    rw [hscan]
    exact ⟨p, hpass, hverbatim (hinvalid conv rest hscan), hformat⟩

theorem scans_inside_iff {s : CString} (hs : 0 ∉ s) : ScansInside s ↔ EndsWell s := by
  constructor
  · rintro ⟨words, hscan⟩
    let args : FormatArgs := List.replicate (words + 4 * s.length) 0
    have hlen : args.length = words + 4 * s.length := List.length_replicate
    obtain ⟨hout, -⟩ := hscan (fun _ => []) args (by omega)
    exact (formatOut_ok_iff _ hs (by omega)).mp hout
  · refine fun hwell => ⟨4 * s.length, fun strings args hargs => ?_⟩
    refine ⟨(formatOut_ok_iff strings hs hargs).mpr hwell, fun t args' hreach hinvalid => ?_⟩
    obtain ⟨u, heq, hu, huwell, huargs⟩ := hreach.endsWell hs hwell hargs
    rw [← List.cons_append] at heq
    obtain rfl := List.append_cancel_right heq
    rw [List.length_cons] at huargs
    exact invalid_verbatim strings (fun hmem => hu (List.mem_cons_of_mem _ hmem)) huwell hinvalid
      (by omega)

/-- `%5`: the width takes the NUL for the conversion character. -/
theorem width_at_end_runs_over : ¬ ScansInside (text ['%', '5']) := by
  rintro ⟨words, hscan⟩
  obtain ⟨⟨out, hout⟩, -⟩ := hscan (fun _ => []) (List.replicate words 0)
    (Nat.le_of_eq List.length_replicate.symm)
  have hfault : ∀ args : FormatArgs,
      formatOut (fun _ => []) (text ['%', '5'] ++ [0]) args = .error .fault := fun _ => rfl
  rw [hfault] at hout
  cases hout

theorem scans_inside_unknown : ScansInside (text ['%', '0', '&', 'd', '%', '-']) := by
  refine (scans_inside_iff (by decide)).mpr ?_
  have hlast : EndsWell (text ['%', '-']) := EndsWell.flags (by decide) (by decide)
  have hskip : skipFields (text ['0', '&', 'd', '%', '-']) = 0x26 :: text ['d', '%', '-'] := by decide
  exact EndsWell.spec hskip (EndsWell.plain (by decide) hlast)

end Ohwes

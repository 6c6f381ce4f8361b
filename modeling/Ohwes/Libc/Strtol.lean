import Mathlib.Tactic.SplitIfs
import Ohwes.Libc.NumberGrammar

/-! # `strtol`, `strtoul`, `strtoll` and `strtoull`

All four are the scanner `_strtoull`. It looks for the prefix of a number in any of the bases 0, 8 and
16, and a zero at the front sets the base to 8 until an `x` sets it to 16; every further `x` is skipped
too. `strtol_family_iff` says for which numbers that is right. -/

namespace Ohwes
set_option autoImplicit false
open Library

/-- `unsigned long` is 32 bits wide. -/
def strtoul (str : CString) (base : Nat) : BitVec 32 × Option Nat :=
  ((strtoull str base).1.truncate 32, (strtoull str base).2)

def strtoll (str : CString) (base : Nat) : BitVec 64 × Option Nat := strtoull str base

/-! ## The phases of the scanner -/

section Scanner
variable {s s' : Scan} {r : CString} {p : Nat}

theorem scanLoop_go {c : Byte} (h : scanChar s c = (s', true)) :
    scanLoop (c :: r) p s = scanLoop r (p + 1) s' := by
  rw [scanLoop, h]
  rfl

theorem scanLoop_stop (h : scanChar s (r.headD 0) = (s', false)) :
    scanLoop r p s = (s', p + 1) := by
  cases r with
  | nil =>
    rw [List.headD_nil] at h
    rw [scanLoop, h]
  | cons c r =>
    rw [List.headD_cons] at h
    rw [scanLoop, h]
    rfl

/-- Two states that treat the next character alike go on alike. -/
theorem scanLoop_congr (h : scanChar s (r.headD 0) = scanChar s' (r.headD 0)) :
    scanLoop r p s = scanLoop r p s' := by
  cases r with
  | nil =>
    rw [List.headD_nil] at h
    rw [scanLoop, scanLoop, h]
  | cons c r =>
    rw [List.headD_cons] at h
    rw [scanLoop, scanLoop, h]

theorem scanChar_number (hs : s.state = .number) (c : Byte) : scanChar s c = scanNumber s c := by
  rw [scanChar, hs, if_pos (by decide), scanSign, hs, if_pos (by decide), scanBase, hs,
    if_pos (by decide)]

theorem scanNumber_stop {c : Byte} (h : isBaseDigit s.base c = false) : scanNumber s c = (s, false) := by
  rw [isBaseDigit, Bool.and_eq_false_iff, decide_eq_false_iff_not, Nat.not_lt] at h
  rw [scanNumber]
  cases ha : isalnum c with
  | false => rfl
  | true =>
    have hge : digitValue c ≥ s.base := h.resolve_left (by rw [ha]; decide)
    rw [if_neg (by decide), if_pos hge]

theorem scanNumber_go {c : Byte} (h : isBaseDigit s.base c = true) :
    scanNumber s c =
      ({ s with
          value := s.value * BitVec.ofNat 64 s.base + BitVec.ofNat 64 (digitValue c)
          valid := true
          length := s.length + 1 }, true) := by
  rw [isBaseDigit, Bool.and_eq_true, decide_eq_true_iff] at h
  rw [scanNumber, h.1, if_neg (by decide), if_neg (by omega)]

/-- The digits are read up to the first character that is none, and that one is passed over. -/
theorem scanLoop_number (hs : s.state = .number) {v : Nat} (hv : s.value = BitVec.ofNat 64 v) :
    scanLoop r p s =
      ({ s with
          value := BitVec.ofNat 64 (readDigits s.base v ((digitRun s.base r).map digitValue))
          valid := s.valid || decide (digitRun s.base r ≠ [])
          length := s.length + (digitRun s.base r).length },
        p + (digitRun s.base r).length + 1) := by
  induction r generalizing p s v with
  | nil =>
    have hstop : scanChar s (([] : CString).headD 0) = (s, false) := by
      rw [scanChar_number hs]
      exact scanNumber_stop rfl
    rw [scanLoop_stop hstop]
    simp [digitRun, ← hv]
  | cons c r ih =>
    cases hc : isBaseDigit s.base c with
    | false =>
      have hstop : scanChar s ((c :: r).headD 0) = (s, false) := by
        rw [scanChar_number hs]
        exact scanNumber_stop hc
      rw [scanLoop_stop hstop, digitRun_cons_of_not hc]
      simp [← hv]
    | true =>
      have hgo := scanNumber_go hc
      rw [← scanChar_number hs] at hgo
      have hnext : s.value * BitVec.ofNat 64 s.base + BitVec.ofNat 64 (digitValue c) =
          BitVec.ofNat 64 (v * s.base + digitValue c) := by
        rw [hv, ← BitVec.ofNat_mul, ← BitVec.ofNat_add]
      have hrest := ih (p := p + 1) (s := { s with
          value := s.value * BitVec.ofNat 64 s.base + BitVec.ofNat 64 (digitValue c)
          valid := true
          length := s.length + 1 }) hs hnext
      rw [scanLoop_go hgo, hrest, digitRun_cons hc]
      have hlength : s.length + 1 + (digitRun s.base r).length =
          s.length + ((digitRun s.base r).length + 1) := by omega
      have hend : p + 1 + (digitRun s.base r).length + 1 =
          p + ((digitRun s.base r).length + 1) + 1 := by omega
      simp [hlength, hend]

theorem scanLoop_spaces (hs : s.state = .space) {ws : CString} (hws : ∀ c ∈ ws, isspace c) :
    scanLoop (ws ++ r) p s = scanLoop r (p + ws.length) s := by
  induction ws generalizing p with
  | nil => rfl
  | cons c ws ih =>
    have hgo : scanChar s c = (s, true) := by
      rw [scanChar, hs, if_neg (by decide), if_pos (hws c List.mem_cons_self)]
    rw [List.cons_append, scanLoop_go hgo, ih fun d hd => hws d (List.mem_cons_of_mem c hd),
      List.length_cons]
    congr 1
    omega

theorem scanChar_space (hs : s.state = .space) {c : Byte} (hc : isspace c = false) :
    scanChar s c = scanChar { s with state := .sign } c := by
  rw [scanChar, hs, if_neg (by decide), hc, if_neg (by decide), scanChar, if_pos (by simp)]

theorem scanChar_sign (hs : s.state = .sign) (c : Byte) : scanChar s c = scanSign s c := by
  rw [scanChar, hs, if_pos (by decide)]

theorem scanChar_base (hs : s.state = .base) (c : Byte) : scanChar s c = scanBase s c := by
  rw [scanChar, hs, if_pos (by decide), scanSign, hs, if_pos (by decide)]

/-- A character that is no sign, or any character behind a sign. -/
theorem scanChar_no_sign (hs : s.state = .sign) {c : Byte}
    (hc : s.signSeen = true ∨ c ≠ 0x2B ∧ c ≠ 0x2D) :
    scanChar s c = scanChar { s with state := .base } c := by
  have hplus : (!s.signSeen && c == 0x2B) = false := by
    rcases hc with h | h
    · rw [h]
      rfl
    · rw [beq_eq_false_iff_ne.mpr h.1, Bool.and_false]
  have hminus : (!s.signSeen && c == 0x2D) = false := by
    rcases hc with h | h
    · rw [h]
      rfl
    · rw [beq_eq_false_iff_ne.mpr h.2, Bool.and_false]
  rw [scanChar_sign hs, scanSign, hs, if_neg (by decide), hplus, if_neg (by decide), hminus,
    if_neg (by decide), scanChar_base rfl]

end Scanner

/-- The scanner behind the white space and the sign. -/
def Scan.behindSign (base : Nat) (minus seen : Bool) : Scan :=
  { Scan.start base with state := .base, minus := minus, signSeen := seen }

theorem headD_dropWhile {f : Byte → Bool} (h0 : f 0 = false) (t : CString) :
    f ((t.dropWhile f).headD 0) = false := by
  cases ht : t.dropWhile f with
  | nil => exact h0
  | cons c u =>
    have hhead := List.head?_dropWhile_not f t
    rw [ht, List.head?_cons] at hhead
    simpa using hhead

theorem scanLoop_lead (str : CString) (base : Nat) :
    ∃ seen, scanLoop str 0 (Scan.start base) =
      scanLoop (subject str) (lead str).length (Scan.behindSign base (negative str) seen) := by
  have hws : ∀ c ∈ str.takeWhile isspace, isspace c := fun _ hc => List.mem_takeWhile_imp hc
  have hspaces : scanLoop str 0 (Scan.start base) =
      scanLoop (str.dropWhile isspace) (str.takeWhile isspace).length
        { Scan.start base with state := .sign } := by
    have hrun := scanLoop_spaces (s := Scan.start base) (r := str.dropWhile isspace) (p := 0) rfl hws
    rw [List.takeWhile_append_dropWhile, Nat.zero_add] at hrun
    rw [hrun]
    exact scanLoop_congr (scanChar_space rfl (headD_dropWhile rfl str))
  have hlen : (str.takeWhile isspace).length + (str.dropWhile isspace).length =
      (lead str).length + (subject str).length := by
    rw [← List.length_append, ← List.length_append, List.takeWhile_append_dropWhile,
      lead_append_subject]
  rw [hspaces, negative]
  rw [subject] at hlen ⊢
  cases ht : str.dropWhile isspace with
  | nil =>
    rw [ht] at hlen
    refine ⟨false, ?_⟩
    have hlead : (str.takeWhile isspace).length = (lead str).length := by simpa using hlen
    rw [hlead]
    exact scanLoop_congr (scanChar_no_sign rfl (Or.inr (by decide)))
  | cons c t =>
    rw [ht] at hlen
    by_cases hplus : c = 0x2B
    · subst hplus
      refine ⟨true, ?_⟩
      have hlead : (lead str).length = (str.takeWhile isspace).length + 1 := by
        simp at hlen
        omega
      have hstep : scanChar (Scan.start base) 0x2B =
          ({ Scan.start base with state := .sign, signSeen := true }, true) := rfl
      refine (scanLoop_go hstep).trans ?_
      rw [hlead]
      exact scanLoop_congr (scanChar_no_sign rfl (Or.inl rfl))
    · by_cases hminus : c = 0x2D
      · subst hminus
        refine ⟨true, ?_⟩
        have hlead : (lead str).length = (str.takeWhile isspace).length + 1 := by
          simp at hlen
          omega
        have hstep : scanChar (Scan.start base) 0x2D =
            ({ Scan.start base with state := .sign, signSeen := true, minus := true }, true) := rfl
        refine (scanLoop_go hstep).trans ?_
        rw [hlead]
        exact scanLoop_congr (scanChar_no_sign rfl (Or.inl rfl))
      · have hno := no_sign (t := t) hplus hminus
        refine ⟨false, ?_⟩
        have hlead : (str.takeWhile isspace).length = (lead str).length := by
          simp only [if_neg hno] at hlen
          omega
        simp only [if_neg hno, decide_eq_false fun h => hno (Or.inr h), hlead]
        exact scanLoop_congr (scanChar_no_sign rfl (Or.inr ⟨hplus, hminus⟩))

/-! ## The base and its prefix -/

/-- The bases in which the scanner looks for a prefix. -/
abbrev Prefixed (base : Nat) : Prop := base = 0 ∨ base = 8 ∨ base = 16

section Base
variable {base p : Nat} {minus seen : Bool} {r : CString}

/-- Without a zero in front the digits begin. -/
theorem scanLoop_plain (h : ¬ (Prefixed base ∧ r.head? = some 0x30)) :
    scanLoop r p (Scan.behindSign base minus seen) =
      scanLoop r p
        { Scan.behindSign (if base = 0 then 10 else base) minus seen with state := .number } := by
  apply scanLoop_congr
  rw [scanChar_base rfl, scanChar_number rfl, scanBase]
  by_cases hpre : Prefixed base
  · have hc : (r.headD 0 == 0x30) = false := by
      rw [beq_eq_false_iff_ne]
      cases r with
      | nil => decide
      | cons c r => exact fun hc => h ⟨hpre, congrArg some hc⟩
    have hbase : (Scan.behindSign base minus seen).base = base := rfl
    rw [if_neg (by simp [Scan.behindSign]), hbase, if_pos hpre, hc]
    rfl
  · have hbase : (Scan.behindSign base minus seen).base = base := rfl
    have hne : base ≠ 0 := fun h0 => hpre (Or.inl h0)
    rw [if_neg (by simp [Scan.behindSign]), hbase, if_neg hpre, if_neg hne]
    rfl

/-- The scanner behind a zero. -/
def Scan.behindZero (base : Nat) (minus seen : Bool) : Scan :=
  { Scan.behindSign base minus seen with zeroSeen := true, valid := true }

theorem scanLoop_zero (h : Prefixed base) (t : CString) :
    scanLoop (0x30 :: t) p (Scan.behindSign base minus seen) =
      scanLoop t (p + 1) (Scan.behindZero 8 minus seen) := by
  apply scanLoop_go
  have hbase : (Scan.behindSign base minus seen).base = base := rfl
  rw [scanChar_base rfl, scanBase, if_neg (by simp [Scan.behindSign]), hbase, if_pos h]
  rfl

theorem scanLoop_x {b : Nat} (hb : b = 8 ∨ b = 16) {xs : CString} (hxs : ∀ c ∈ xs, isPrefixX c)
    (u : CString) :
    scanLoop (xs ++ u) p (Scan.behindZero b minus seen) =
      scanLoop u (p + xs.length) (Scan.behindZero (if xs = [] then b else 16) minus seen) := by
  induction xs generalizing b p with
  | nil => rfl
  | cons c xs ih =>
    have hbase : (Scan.behindZero b minus seen).base = b := rfl
    have hx : (tolower c == 0x78) = true := hxs c List.mem_cons_self
    have hgo : scanChar (Scan.behindZero b minus seen) c = (Scan.behindZero 16 minus seen, true) := by
      rw [scanChar_base rfl, scanBase, if_neg (by simp [Scan.behindZero, Scan.behindSign]), hbase,
        if_pos (Or.inr hb), hx]
      rfl
    rw [List.cons_append, scanLoop_go hgo,
      ih (Or.inr rfl) fun d hd => hxs d (List.mem_cons_of_mem c hd), List.length_cons, ite_self,
      if_neg (List.cons_ne_nil c xs), Nat.add_comm xs.length 1, Nat.add_assoc]

theorem scanLoop_behindZero {b : Nat} (hb : b = 8 ∨ b = 16) {u : CString}
    (hu : isPrefixX (u.headD 0) = false) :
    scanLoop u p (Scan.behindZero b minus seen) =
      scanLoop u p { Scan.behindZero b minus seen with state := .number } := by
  apply scanLoop_congr
  have hbase : (Scan.behindZero b minus seen).base = b := rfl
  have hx : (tolower (u.headD 0) == 0x78) = false := hu
  have hne : b ≠ 0 := by omega
  rw [scanChar_base rfl, scanChar_number rfl, scanBase,
    if_neg (by simp [Scan.behindZero, Scan.behindSign]), hbase, if_pos (Or.inr hb), hx, if_neg hne]
  rfl

end Base

/-! ## What the source reads -/

/-- The length and the value of the number without its sign, as the scanner finds them. Where it has
read an `x` and no digit, it steps back by one character. -/
def sourceRead (base : Nat) (r : CString) : Nat × Nat :=
  if Prefixed base ∧ r.head? = some 0x30 then
    let xs := r.tail.takeWhile isPrefixX
    let b := if xs = [] then 8 else 16
    let ds := digitRun b (r.tail.dropWhile isPrefixX)
    (if ds = [] ∧ xs ≠ [] then xs.length else 1 + xs.length + ds.length, digitsValue b ds)
  else
    let b := if base = 0 then 10 else base
    ((digitRun b r).length, digitsValue b (digitRun b r))

theorem sourceRead_zero {base b : Nat} (h : Prefixed base) {t xs u ds : CString}
    (hxs : t.takeWhile isPrefixX = xs) (hu : t.dropWhile isPrefixX = u)
    (hb : (if xs = [] then 8 else 16) = b) (hds : digitRun b u = ds) :
    sourceRead base (0x30 :: t) =
      (if ds = [] ∧ xs ≠ [] then xs.length else 1 + xs.length + ds.length, digitsValue b ds) := by
  subst hds hb hu hxs
  rw [sourceRead, if_pos ⟨h, rfl⟩]
  rfl

theorem strtoull_of_scan {base : Nat} (hbase : base = 0 ∨ 2 ≤ base ∧ base ≤ 36) {str : CString}
    {s : Scan} {p : Nat} (h : scanLoop str 0 (Scan.start base) = (s, p)) :
    strtoull str base =
      (applySign s.minus s.value,
        some (if s.valid then (if s.length = 0 ∧ s.base = 16 ∧ s.zeroSeen then p - 1 else p) - 1
          else 0)) := by
  have hvalid : ¬ ((base < 2 ∨ base > 36) ∧ base ≠ 0) := by omega
  rw [strtoull, if_neg hvalid, h]
  rfl

theorem strtoull_eq {base : Nat} (hbase : base = 0 ∨ 2 ≤ base ∧ base ≤ 36) (str : CString) :
    strtoull str base = readResult 64 str (sourceRead base (subject str)) := by
  obtain ⟨seen, hlead⟩ := scanLoop_lead str base
  by_cases hzero : Prefixed base ∧ (subject str).head? = some 0x30
  · obtain ⟨t, ht⟩ : ∃ t, subject str = 0x30 :: t := by
      cases hr : subject str with
      | nil =>
        rw [hr] at hzero
        cases hzero.2
      | cons c t =>
        rw [hr] at hzero
        exact ⟨t, by rw [Option.some.inj hzero.2]⟩
    obtain ⟨xs, hxs⟩ : ∃ xs, t.takeWhile isPrefixX = xs := ⟨_, rfl⟩
    obtain ⟨u, hu⟩ : ∃ u, t.dropWhile isPrefixX = u := ⟨_, rfl⟩
    obtain ⟨b, hb⟩ : ∃ b, (if xs = [] then 8 else 16) = b := ⟨_, rfl⟩
    obtain ⟨ds, hds⟩ : ∃ ds, digitRun b u = ds := ⟨_, rfl⟩
    have hsource := sourceRead_zero hzero.1 hxs hu hb hds
    have hall : ∀ c ∈ xs, isPrefixX c := by
      rw [← hxs]
      exact fun _ hc => List.mem_takeWhile_imp hc
    have hjoin : t = xs ++ u := by rw [← hxs, ← hu, List.takeWhile_append_dropWhile]
    have hb8 : b = 8 ∨ b = 16 := by
      rw [← hb]
      split_ifs
      · exact Or.inl rfl
      · exact Or.inr rfl
    have hb16 : b = 16 ↔ xs ≠ [] := by
      rw [← hb]
      split_ifs with hnil
      · exact iff_of_false (by decide) (not_not_intro hnil)
      · exact iff_of_true rfl hnil
    rw [ht, scanLoop_zero hzero.1, hjoin, scanLoop_x (Or.inl rfl) hall, hb] at hlead
    have hnext : isPrefixX (u.headD 0) = false := hu ▸ headD_dropWhile rfl t
    have hend := hlead.trans ((scanLoop_behindZero hb8 hnext).trans (scanLoop_number (v := 0) rfl rfl))
    rw [strtoull_of_scan hbase hend, ht, hsource, readResult]
    simp only [Scan.behindZero, Scan.behindSign, Scan.start, hb16, hds]
    refine Prod.ext rfl (congrArg some ?_)
    by_cases hback : ds = [] ∧ xs ≠ []
    · obtain ⟨rfl, hne⟩ := hback
      simp [hne]
    · have hgo : ¬ (0 + ds.length = 0 ∧ xs ≠ [] ∧ True) := by
        rintro ⟨hlen, hne, -⟩
        exact hback ⟨List.eq_nil_of_length_eq_zero (by omega), hne⟩
      simp only [if_neg hback, if_neg hgo, Bool.true_or, if_true]
      rw [if_neg (by omega)]
      omega
  · rw [readResult, sourceRead, if_neg hzero]
    have hend := hlead.trans ((scanLoop_plain hzero).trans (scanLoop_number (v := 0) rfl rfl))
    rw [strtoull_of_scan hbase hend]
    simp only [Scan.behindSign, Scan.start]
    generalize (if base = 0 then 10 else base) = b
    refine Prod.ext rfl (congrArg some ?_)
    by_cases hds : digitRun b (subject str) = []
    · simp [hds]
    · have hpos := List.length_pos_of_ne_nil hds
      simp only [Bool.false_or, ne_eq, hds, not_false_eq_true, decide_true, if_true,
        Bool.false_eq_true, and_false, if_false]
      rw [if_neg (by omega)]
      omega

/-! ## Against the standard -/

section Against
variable {base w : Nat} {r t : CString}

/-- Where the scanner looks for a prefix and finds a zero: there is one `x` at most, in base 8 no
hexadecimal digit behind it, and in base 16 without an `x` only octal digits, whose value is the same
in both bases. -/
def WellRead (w base : Nat) (r : CString) : Prop :=
  Prefixed base ∧ r.head? = some 0x30 →
    let xs := r.tail.takeWhile isPrefixX
    let u := r.tail.dropWhile isPrefixX
    (xs = [] → base = 16 → digitRun 8 u = digitRun 16 u ∧
        digitsValue 8 (digitRun 8 u) ≡ digitsValue 16 (digitRun 16 u) [MOD 2 ^ w]) ∧
      (xs ≠ [] → xs.length = 1 ∧ (base = 8 → digitRun 16 u = []))

/-- Two readings say the same of a word of `w` bits. -/
def SameRead (w : Nat) (read read' : Nat × Nat) : Prop :=
  read.1 = read'.1 ∧ read.2 ≡ read'.2 [MOD 2 ^ w]

theorem applySign_inj {minus : Bool} {x y : BitVec w} :
    applySign minus x = applySign minus y ↔ x = y := by
  cases minus with
  | false => rfl
  | true => exact BitVec.neg_inj

theorem readResult_inj (str : CString) (read read' : Nat × Nat) :
    readResult w str read = readResult w str read' ↔ SameRead w read read' := by
  have hvalue : BitVec.ofNat w read.2 = BitVec.ofNat w read'.2 ↔ read.2 ≡ read'.2 [MOD 2 ^ w] := by
    rw [← BitVec.toNat_inj, BitVec.toNat_ofNat, BitVec.toNat_ofNat]
    rfl
  have hend : (if read.1 = 0 then 0 else (lead str).length + read.1) =
      (if read'.1 = 0 then 0 else (lead str).length + read'.1) ↔ read.1 = read'.1 := by
    split_ifs <;> omega
  rw [readResult, readResult, Prod.mk.injEq, applySign_inj, hvalue, Option.some.injEq, hend,
    SameRead, and_comm]

theorem digitsValue_zero (k : Nat) (ds : CString) : digitsValue k (0x30 :: ds) = digitsValue k ds := by
  have hzero : digitValue 0x30 = 0 := by decide
  rw [digitsValue, List.map_cons, readDigits_cons, hzero, Nat.zero_mul]
  rfl

theorem digitRun_mono {k k' : Nat} (h : k ≤ k') (u : CString) : digitRun k u <+: digitRun k' u := by
  induction u with
  | nil => exact List.prefix_refl []
  | cons c u ih =>
    cases hc : isBaseDigit k c with
    | false =>
      rw [digitRun_cons_of_not hc]
      exact List.nil_prefix
    | true =>
      have hc' : isBaseDigit k' c = true := by
        rw [isBaseDigit, Bool.and_eq_true, decide_eq_true_iff] at hc ⊢
        exact ⟨hc.1, by omega⟩
      rw [digitRun_cons hc, digitRun_cons hc']
      exact (List.prefix_cons_inj c).mpr ih

/-- Without a zero in front there is no prefix either. -/
theorem sourceRead_plain (h : ¬ (Prefixed base ∧ r.head? = some 0x30)) :
    sourceRead base r = standardRead base r := by
  have hhex : hexDigits base r = [] := by
    by_contra hne
    obtain ⟨hb, x, u, rfl, -, -⟩ := hexDigits_ne_nil hne
    exact h ⟨by omega, rfl⟩
  have hplain : plainBase base r = if base = 0 then 10 else base := by
    by_cases hb : base = 0
    · have hhead : ¬ r.head? = some 0x30 := fun h0 => h ⟨Or.inl hb, h0⟩
      rw [plainBase, if_neg (not_not_intro hb), if_neg hhead, if_pos hb]
    · rw [plainBase_of_ne hb, if_neg hb]
  rw [sourceRead, if_neg h, standardRead_plain hhex, plainRead, hplain]

/-- Behind a zero, what the standard reads without a prefix. -/
theorem standardRead_zero_plain (hp : Prefixed base) (hhex : hexDigits base (0x30 :: t) = []) :
    standardRead base (0x30 :: t) =
      (1 + (digitRun (if base = 16 then 16 else 8) t).length,
        digitsValue (if base = 16 then 16 else 8) (digitRun (if base = 16 then 16 else 8) t)) := by
  have hplain : plainBase base (0x30 :: t) = if base = 16 then 16 else 8 := by
    rcases hp with rfl | rfl | rfl <;> rfl
  have htwo : 2 ≤ if base = 16 then 16 else 8 := by split_ifs <;> decide
  rw [standardRead_plain hhex, plainRead, hplain, digitRun_cons (isBaseDigit_zero htwo),
    digitsValue_zero, List.length_cons, Nat.add_comm]

/-- What is behind the zero: no `x`, or one or more of them. -/
theorem takeWhile_x_cases (t : CString) :
    (t.takeWhile isPrefixX = [] ∧ t.dropWhile isPrefixX = t ∧ ∀ base, hexDigits base (0x30 :: t) = []) ∨
      ∃ x t', t = x :: t' ∧ isPrefixX x = true := by
  cases t with
  | nil => exact Or.inl ⟨rfl, rfl, fun _ => rfl⟩
  | cons x t' =>
    cases hx : isPrefixX x with
    | true => exact Or.inr ⟨x, t', rfl, hx⟩
    | false =>
      refine Or.inl ⟨?_, ?_, fun base => ?_⟩
      · rw [List.takeWhile_cons, hx]
        rfl
      · rw [List.dropWhile_cons, hx]
        rfl
      · rw [hexDigits, if_neg]
        rintro ⟨-, -, h⟩
        rw [hx] at h
        cases h

/-- Without an `x`. -/
theorem sameRead_no_x (h : Prefixed base) (hxs : t.takeWhile isPrefixX = [])
    (hu : t.dropWhile isPrefixX = t) (hhex : hexDigits base (0x30 :: t) = []) :
    SameRead w (sourceRead base (0x30 :: t)) (standardRead base (0x30 :: t)) ↔
      (base = 16 → digitRun 8 t = digitRun 16 t ∧
        digitsValue 8 (digitRun 8 t) ≡ digitsValue 16 (digitRun 16 t) [MOD 2 ^ w]) := by
  have hsource : sourceRead base (0x30 :: t) =
      (1 + (digitRun 8 t).length, digitsValue 8 (digitRun 8 t)) := by
    rw [sourceRead_zero h hxs hu rfl rfl]
    simp
  rw [hsource, standardRead_zero_plain h hhex, SameRead]
  by_cases hb : base = 16
  · simp only [hb, if_true, true_implies]
    refine and_congr_left fun _ => ⟨fun hlen => ?_, fun heq => by rw [heq]⟩
    exact eq_of_prefix_of_length (digitRun_mono (by decide) t) (by omega)
  · simp only [hb, if_false, false_implies, iff_true]
    exact ⟨trivial, Nat.ModEq.refl _⟩

/-- With an `x`. -/
theorem sameRead_x (h : Prefixed base) {x : Byte} (hx : isPrefixX x = true) (t : CString) :
    SameRead w (sourceRead base (0x30 :: x :: t)) (standardRead base (0x30 :: x :: t)) ↔
      t.takeWhile isPrefixX = [] ∧ (base = 8 → digitRun 16 (t.dropWhile isPrefixX) = []) := by
  have hxs : (x :: t).takeWhile isPrefixX = x :: t.takeWhile isPrefixX := by
    rw [List.takeWhile_cons, hx]
    rfl
  have hu : (x :: t).dropWhile isPrefixX = t.dropWhile isPrefixX := by
    rw [List.dropWhile_cons, hx]
    rfl
  have hsource : sourceRead base (0x30 :: x :: t) =
      (if digitRun 16 (t.dropWhile isPrefixX) = [] then 1 + (t.takeWhile isPrefixX).length
        else 2 + (t.takeWhile isPrefixX).length + (digitRun 16 (t.dropWhile isPrefixX)).length,
        digitsValue 16 (digitRun 16 (t.dropWhile isPrefixX))) := by
    rw [sourceRead_zero h hxs hu (if_neg (List.cons_ne_nil x _)) rfl, List.length_cons]
    refine Prod.ext ?_ rfl
    by_cases hds : digitRun 16 (t.dropWhile isPrefixX) = []
    · rw [if_pos hds]
      simp [hds]
      omega
    · rw [if_neg hds]
      simp [hds]
      omega
  -- without a digit behind the `x` the standard reads the zero only
  have hzero : hexDigits base (0x30 :: x :: t) = [] →
      standardRead base (0x30 :: x :: t) = (1, 0) := by
    intro hhex
    have hsmall : (if base = 16 then 16 else 8) ≤ 16 := by split_ifs <;> decide
    rw [standardRead_zero_plain h hhex, digitRun_cons_of_not (isBaseDigit_x hsmall hx)]
    rfl
  rw [hsource, SameRead]
  obtain ⟨hnone, hrest, -⟩ | ⟨c, t, rfl, hc⟩ := takeWhile_x_cases t
  · rw [hnone, hrest]
    simp only [true_and]
    by_cases hds : digitRun 16 t = []
    · have hhex : hexDigits base (0x30 :: x :: t) = [] := by
        rw [hexDigits, hds, ite_self]
      rw [hds, hzero hhex]
      exact iff_of_true ⟨rfl, Nat.ModEq.refl _⟩ fun _ => rfl
    · simp only [if_neg hds, List.length_nil, Nat.add_zero]
      by_cases hb : base = 8
      · have hhex : hexDigits base (0x30 :: x :: t) = [] := by
          rw [hexDigits, if_neg]
          omega
        rw [hzero hhex]
        refine iff_of_false ?_ fun hnil => hds (hnil hb)
        rintro ⟨hlen, -⟩
        simp only at hlen
        omega
      · have hhex : hexDigits base (0x30 :: x :: t) = digitRun 16 t :=
          hexDigits_x (by omega) hx t
        rw [standardRead_hex (by rw [hhex]; exact hds), hhex]
        exact iff_of_true ⟨rfl, Nat.ModEq.refl _⟩ fun h8 => absurd h8 hb
  · have hmore : (c :: t).takeWhile isPrefixX = c :: t.takeWhile isPrefixX := by
      rw [List.takeWhile_cons, hc]
      rfl
    have hhex : hexDigits base (0x30 :: x :: c :: t) = [] := by
      rw [hexDigits, digitRun_cons_of_not (isBaseDigit_x (Nat.le_refl 16) hc), ite_self]
    rw [hzero hhex, hmore, List.length_cons]
    refine iff_of_false ?_ fun hnil => List.cons_ne_nil _ _ hnil.1
    rintro ⟨hlen, -⟩
    simp only at hlen
    split_ifs at hlen <;> omega

theorem sameRead_iff (h : Prefixed base) (t : CString) :
    SameRead w (sourceRead base (0x30 :: t)) (standardRead base (0x30 :: t)) ↔
      WellRead w base (0x30 :: t) := by
  have hwell : WellRead w base (0x30 :: t) ↔
      (t.takeWhile isPrefixX = [] → base = 16 →
        digitRun 8 (t.dropWhile isPrefixX) = digitRun 16 (t.dropWhile isPrefixX) ∧
          digitsValue 8 (digitRun 8 (t.dropWhile isPrefixX)) ≡
            digitsValue 16 (digitRun 16 (t.dropWhile isPrefixX)) [MOD 2 ^ w]) ∧
      (t.takeWhile isPrefixX ≠ [] → (t.takeWhile isPrefixX).length = 1 ∧
        (base = 8 → digitRun 16 (t.dropWhile isPrefixX) = [])) :=
    ⟨fun hw => hw ⟨h, rfl⟩, fun hw _ => hw⟩
  rw [hwell]
  obtain ⟨hxs, hu, hhex⟩ | ⟨x, t, rfl, hx⟩ := takeWhile_x_cases t
  · rw [hxs, hu, sameRead_no_x h hxs hu (hhex base)]
    exact ⟨fun hb => ⟨fun _ => hb, fun hne => absurd rfl hne⟩, fun hb => hb.1 rfl⟩
  · have hxs : (x :: t).takeWhile isPrefixX = x :: t.takeWhile isPrefixX := by
      rw [List.takeWhile_cons, hx]
      rfl
    have hu : (x :: t).dropWhile isPrefixX = t.dropWhile isPrefixX := by
      rw [List.dropWhile_cons, hx]
      rfl
    rw [sameRead_x h hx t, hxs, hu, List.length_cons, Nat.add_eq_right, List.length_eq_zero_iff]
    exact ⟨fun hb => ⟨fun hnil => absurd hnil (List.cons_ne_nil _ _), fun _ => hb⟩,
      fun hb => hb.2 (List.cons_ne_nil _ _)⟩

end Against

theorem truncate_readResult (str : CString) (read : Nat × Nat) :
    ((readResult 64 str read).1.truncate 32, (readResult 64 str read).2) = readResult 32 str read := by
  have hvalue : (BitVec.ofNat 64 read.2).truncate 32 = BitVec.ofNat 32 read.2 := by
    apply BitVec.eq_of_toNat_eq
    rw [BitVec.truncate_eq_setWidth, BitVec.toNat_setWidth, BitVec.toNat_ofNat, BitVec.toNat_ofNat]
    omega
  have hneg : ∀ x : BitVec 64, (-x).truncate 32 = - x.truncate 32 := by
    intro x
    bv_omega
  rw [readResult, readResult, applySign, applySign]
  cases negative str with
  | false => exact Prod.ext hvalue rfl
  | true => exact Prod.ext ((hneg _).trans (congrArg _ hvalue)) rfl

theorem converts_source_iff {base w : Nat} (hbase : base = 0 ∨ 2 ≤ base ∧ base ≤ 36) (str : CString) :
    Converts base str (readResult w str (sourceRead base (subject str))) ↔
      WellRead w base (subject str) := by
  rw [converts_iff (by omega), readResult_inj]
  by_cases hzero : Prefixed base ∧ (subject str).head? = some 0x30
  · obtain ⟨hp, hhead⟩ := hzero
    obtain ⟨t, ht⟩ := List.head?_eq_some_iff.mp hhead
    rw [ht]
    exact sameRead_iff hp t
  · rw [sourceRead_plain hzero]
    exact iff_of_true ⟨rfl, Nat.ModEq.refl _⟩ fun h => absurd h hzero

/-- The four functions do what they have to exactly where the number is well read in a word of their
width. -/
theorem strtol_family_iff (base : Nat) (hbase : base = 0 ∨ 2 ≤ base ∧ base ≤ 36) (str : CString) :
    (Converts base str (strtoull str base) ↔ WellRead 64 base (subject str)) ∧
      (Converts base str (strtoll str base) ↔ WellRead 64 base (subject str)) ∧
      (Converts base str (strtoul str base) ↔ WellRead 32 base (subject str)) ∧
      (Converts base str (strtol str base) ↔ WellRead 32 base (subject str)) := by
  have hshort : strtoul str base = readResult 32 str (sourceRead base (subject str)) := by
    rw [strtoul, strtoull_eq hbase, truncate_readResult]
  have hlong := converts_source_iff (w := 64) hbase str
  have hshort' := converts_source_iff (w := 32) hbase str
  rw [← strtoull_eq hbase] at hlong
  rw [← hshort] at hshort'
  exact ⟨hlong, hlong, hshort', hshort'⟩

/-- An address as the debugger sends it. -/
theorem strtol_family_prefixed :
    (Converts 16 (text ['0', 'x', 'f', 'f']) (strtoull (text ['0', 'x', 'f', 'f']) 16) ↔
        WellRead 64 16 (subject (text ['0', 'x', 'f', 'f']))) ∧
      (Converts 16 (text ['0', 'x', 'f', 'f']) (strtoll (text ['0', 'x', 'f', 'f']) 16) ↔
        WellRead 64 16 (subject (text ['0', 'x', 'f', 'f']))) ∧
      (Converts 16 (text ['0', 'x', 'f', 'f']) (strtoul (text ['0', 'x', 'f', 'f']) 16) ↔
        WellRead 32 16 (subject (text ['0', 'x', 'f', 'f']))) ∧
      (Converts 16 (text ['0', 'x', 'f', 'f']) (strtol (text ['0', 'x', 'f', 'f']) 16) ↔
        WellRead 32 16 (subject (text ['0', 'x', 'f', 'f']))) :=
  strtol_family_iff 16 (by decide) (text ['0', 'x', 'f', 'f'])

/-- Without the prefix, a zero in front makes it octal: `0ff` is 0, and ends behind the zero. -/
theorem leading_zero_octal :
    ¬ Converts 16 (text ['0', 'f', 'f']) (strtoull (text ['0', 'f', 'f']) 16) := by
  have hread : strtoull (text ['0', 'f', 'f']) 16 = (0, some 1) := by decide
  have hstd : readResult 64 (text ['0', 'f', 'f']) (standardRead 16 (subject (text ['0', 'f', 'f']))) =
      (0xFF, some 3) := by decide
  rw [converts_iff (by decide), hread, hstd]
  decide

end Ohwes

import Mathlib.Data.List.TakeWhile
import Ohwes.Libc.Ctype

/-! # Integers as C99 reads them

What `strtol` and its relatives have to accept: white space, a sign, a prefix for the base, digits.
`Converts` is what the longest part of a string that is accepted comes to, and `converts_iff` computes
it. -/

namespace Ohwes
set_option autoImplicit false
open Library

def isBaseDigit (base : Nat) (c : Byte) : Bool := isalnum c && decide (digitValue c < base)

/-- The `x` of the prefix `0x`. -/
def isPrefixX (c : Byte) : Bool := tolower c == 0x78

def digitsValue (base : Nat) (ds : CString) : Nat := readDigits base 0 (ds.map digitValue)

/-- One digit at least, and nothing else. -/
def Digits (base : Nat) (ds : CString) : Prop := ds ≠ [] ∧ ∀ c ∈ ds, isBaseDigit base c

inductive Sign : CString → Bool → Prop
  | none : Sign [] false
  | plus : Sign [0x2B] false
  | minus : Sign [0x2D] true

/-- A number without its sign, and its value. -/
inductive Unsigned (base : Nat) : CString → Nat → Prop
  | digits {ds : CString} (hbase : 2 ≤ base) (h : Digits base ds) :
    Unsigned base ds (digitsValue base ds)
  | hexadecimal {x : Byte} {ds : CString} (hbase : base = 0 ∨ base = 16) (hx : isPrefixX x)
    (h : Digits 16 ds) : Unsigned base (0x30 :: x :: ds) (digitsValue 16 ds)
  | octal {ds : CString} (hbase : base = 0) (h : Digits 8 (0x30 :: ds)) :
    Unsigned base (0x30 :: ds) (digitsValue 8 (0x30 :: ds))
  | decimal {d : Byte} {ds : CString} (hbase : base = 0) (hd : d ≠ 0x30) (h : Digits 10 (d :: ds)) :
    Unsigned base (d :: ds) (digitsValue 10 (d :: ds))

/-- The text is a number of that sign and value. -/
def Accepts (base : Nat) (text : CString) (minus : Bool) (value : Nat) : Prop :=
  ∃ ws sign body, text = ws ++ (sign ++ body) ∧ (∀ c ∈ ws, isspace c) ∧ Sign sign minus ∧
    Unsigned base body value

def applySign {w : Nat} (minus : Bool) (value : BitVec w) : BitVec w :=
  if minus then -value else value

/-- The value of the longest first part of the string that is a number, and where it ends. -/
inductive Converts {w : Nat} (base : Nat) (str : CString) : BitVec w × Option Nat → Prop
  | number {text : CString} {minus : Bool} {value : Nat} (part : text <+: str)
    (accepted : Accepts base text minus value)
    (longest : ∀ text' minus' value', text' <+: str → Accepts base text' minus' value' →
      text'.length ≤ text.length) :
    Converts base str (applySign minus (BitVec.ofNat w value), some text.length)
  | nothing (none : ∀ text minus value, text <+: str → ¬ Accepts base text minus value) :
    Converts base str (0, some 0)

/-! ## Digits -/

def digitRun (base : Nat) (r : CString) : CString := r.takeWhile (isBaseDigit base)

theorem Digits.of_run {base : Nat} {r : CString} (h : digitRun base r ≠ []) :
    Digits base (digitRun base r) :=
  ⟨h, fun _ hc => List.mem_takeWhile_imp hc⟩

theorem digitRun_isPrefix (base : Nat) (r : CString) : digitRun base r <+: r :=
  List.takeWhile_prefix (isBaseDigit base)

theorem take_digitRun (base : Nat) (r : CString) :
    r.take (digitRun base r).length = digitRun base r :=
  (List.prefix_iff_eq_take.mp (digitRun_isPrefix base r)).symm

theorem digitRun_cons_of_not {base : Nat} {c : Byte} (h : isBaseDigit base c = false) (r : CString) :
    digitRun base (c :: r) = [] := by
  rw [digitRun, List.takeWhile_cons, h]
  rfl

theorem digitRun_cons {base : Nat} {c : Byte} (h : isBaseDigit base c = true) (r : CString) :
    digitRun base (c :: r) = c :: digitRun base r := by
  rw [digitRun, List.takeWhile_cons, h]
  rfl

/-- Digits at the front of a string are part of its run of digits. -/
theorem Digits.prefix_run {base : Nat} {ds r : CString} (h : Digits base ds) (hp : ds <+: r) :
    ds <+: digitRun base r := by
  obtain ⟨rest, rfl⟩ := hp
  have hall : ds.takeWhile (isBaseDigit base) = ds := List.takeWhile_eq_self_iff.mpr h.2
  have hrun : (ds ++ rest).takeWhile (isBaseDigit base) = ds ++ rest.takeWhile (isBaseDigit base) :=
    List.takeWhile_append_of_pos h.2
  rw [digitRun, hrun]
  exact List.prefix_append ds _

theorem eq_of_prefix_of_length {ds r : CString} (hp : ds <+: r) (h : ds.length = r.length) : ds = r :=
  List.IsPrefix.eq_of_length hp h

/-- The `x` is no digit of a base up to 16. -/
theorem isBaseDigit_x {base : Nat} (hbase : base ≤ 16) {x : Byte} (hx : isPrefixX x) :
    isBaseDigit base x = false := by
  have hall : ∀ x : Byte, isPrefixX x → digitValue x = 33 := by decide
  rw [isBaseDigit, hall x hx, Bool.and_eq_false_iff, decide_eq_false_iff_not]
  exact Or.inr (by omega)

theorem isBaseDigit_zero {base : Nat} (hbase : 2 ≤ base) : isBaseDigit base 0x30 = true := by
  have hzero : isalnum 0x30 = true ∧ digitValue 0x30 = 0 := by decide
  rw [isBaseDigit, hzero.1, hzero.2, Bool.true_and, decide_eq_true_iff]
  omega

/-! ## The longest number at the front -/

/-- The base of digits without a prefix. -/
def plainBase (base : Nat) (r : CString) : Nat :=
  if base ≠ 0 then base else if r.head? = some 0x30 then 8 else 10

def plainRead (base : Nat) (r : CString) : Nat × Nat :=
  ((digitRun (plainBase base r) r).length, digitsValue (plainBase base r) (digitRun (plainBase base r) r))

/-- What follows a prefix `0x`, where the base has one. -/
def hexDigits (base : Nat) : CString → CString
  | c :: x :: u => if (base = 0 ∨ base = 16) ∧ c = 0x30 ∧ isPrefixX x then digitRun 16 u else []
  | _ => []

/-- The length and the value of the longest number without a sign; the length 0 if there is none. -/
def standardRead (base : Nat) (r : CString) : Nat × Nat :=
  if hexDigits base r ≠ [] then (2 + (hexDigits base r).length, digitsValue 16 (hexDigits base r))
  else plainRead base r

theorem hexDigits_ne_nil {base : Nat} {r : CString} (h : hexDigits base r ≠ []) :
    (base = 0 ∨ base = 16) ∧ ∃ x u, r = 0x30 :: x :: u ∧ isPrefixX x ∧
      hexDigits base r = digitRun 16 u := by
  match r with
  | [] => exact absurd rfl h
  | [c] => exact absurd rfl h
  | c :: x :: u =>
    rw [hexDigits] at h ⊢
    split at h
    · next hx =>
      rw [if_pos hx, hx.2.1]
      exact ⟨hx.1, x, u, rfl, hx.2.2, rfl⟩
    · exact absurd rfl h

theorem prefix_head {c d : Byte} {ds r : CString} (h : c :: ds <+: d :: r) : c = d ∧ ds <+: r :=
  List.cons_prefix_cons.mp h

/-- A number in digits only is shorter than one with the prefix. -/
theorem length_le_one_of_digits {base : Nat} (hbase : base ≤ 16) {ds : CString} {x : Byte}
    {u : CString} (hx : isPrefixX x) (h : Digits base ds) (hp : ds <+: 0x30 :: x :: u) :
    ds.length ≤ 1 := by
  match ds with
  | [] => exact Nat.zero_le 1
  | [c] => exact Nat.le_refl 1
  | c :: d :: ds =>
    have hd := prefix_head (prefix_head hp).2
    have hdigit := h.2 d (List.mem_cons_of_mem c List.mem_cons_self)
    rw [hd.1, isBaseDigit_x hbase hx] at hdigit
    cases hdigit

section Longest
variable {base : Nat} {b r : CString} {v : Nat}

theorem plain_longest {k : Nat} (hb : plainBase base r = k) (h : Digits k b) (hp : b <+: r) :
    b.length ≤ (plainRead base r).1 ∧
      (b.length = (plainRead base r).1 → digitsValue k b = (plainRead base r).2) := by
  have hrun := h.prefix_run hp
  rw [plainRead, hb]
  exact ⟨hrun.length_le, fun hlen => by rw [eq_of_prefix_of_length hrun hlen]⟩

theorem plainBase_of_ne (h : base ≠ 0) (r : CString) : plainBase base r = base := if_pos h

theorem plainBase_zero (t : CString) : plainBase 0 (0x30 :: t) = 8 := rfl

theorem plainBase_of_head {d : Byte} (hd : d ≠ 0x30) (t : CString) : plainBase 0 (d :: t) = 10 := by
  rw [plainBase, if_neg (by decide), List.head?_cons, if_neg fun h => hd (Option.some.inj h)]

theorem standardRead_plain (h : hexDigits base r = []) : standardRead base r = plainRead base r := by
  rw [standardRead, if_neg fun hne => hne h]

theorem standardRead_hex (h : hexDigits base r ≠ []) :
    standardRead base r =
      (2 + (hexDigits base r).length, digitsValue 16 (hexDigits base r)) := by
  rw [standardRead, if_pos h]

theorem hexDigits_x {x : Byte} (hbase : base = 0 ∨ base = 16) (hx : isPrefixX x) (u : CString) :
    hexDigits base (0x30 :: x :: u) = digitRun 16 u := by
  rw [hexDigits, if_pos ⟨hbase, rfl, hx⟩]

/-- No number at the front of the string is longer, and one of that length has that value. -/
theorem Unsigned.longest (h : Unsigned base b v) (hp : b <+: r) :
    b.length ≤ (standardRead base r).1 ∧
      (b.length = (standardRead base r).1 → v = (standardRead base r).2) := by
  by_cases hhex : hexDigits base r = []
  · rw [standardRead_plain hhex]
    cases h with
    | digits hbase h =>
      have hb : plainBase base r = base := plainBase_of_ne (by omega) r
      exact plain_longest hb h hp
    | hexadecimal hbase hx h =>
      obtain ⟨rest, rfl⟩ := hp
      rw [List.cons_append, List.cons_append, hexDigits_x hbase hx] at hhex
      have hrun := h.prefix_run (List.prefix_append _ rest)
      rw [hhex] at hrun
      exact absurd (List.prefix_nil.mp hrun) h.1
    | octal hbase h =>
      subst hbase
      obtain ⟨rest, rfl⟩ := hp
      exact plain_longest (plainBase_zero _) h (List.prefix_append _ rest)
    | decimal hbase hd h =>
      subst hbase
      obtain ⟨rest, rfl⟩ := hp
      exact plain_longest (plainBase_of_head hd _) h (List.prefix_append _ rest)
  · obtain ⟨hb, x, u, rfl, hx, hrun⟩ := hexDigits_ne_nil hhex
    have hshort : ∀ k ≤ 16, ∀ ds, Digits k ds → ds <+: 0x30 :: x :: u → ds.length ≤ 1 :=
      fun k hk ds h hp => length_le_one_of_digits hk hx h hp
    rw [standardRead_hex hhex, hrun]
    cases h with
    | digits hbase h =>
      have hlen := hshort base (by omega) b h hp
      exact ⟨by simp only; omega, fun heq => by simp only at heq; omega⟩
    | hexadecimal hbase hx' h =>
      have hds := (prefix_head (prefix_head hp).2).2
      have hle := h.prefix_run hds
      have hlen := hle.length_le
      simp only [List.length_cons]
      refine ⟨by omega, fun heq => ?_⟩
      rw [eq_of_prefix_of_length hle (by omega)]
    | octal hbase h =>
      have hlen := hshort 8 (by decide) _ h hp
      exact ⟨by simp only; omega, fun heq => by simp only at heq; omega⟩
    | decimal hbase hd h => exact absurd (prefix_head hp).1 hd

theorem standardRead_unsigned (hbase : base = 0 ∨ 2 ≤ base) (h : (standardRead base r).1 ≠ 0) :
    Unsigned base (r.take (standardRead base r).1) (standardRead base r).2 := by
  by_cases hhex : hexDigits base r = []
  · rw [standardRead_plain hhex] at h ⊢
    have hne : digitRun (plainBase base r) r ≠ [] := fun hnil => h (by rw [plainRead, hnil]; rfl)
    have hdigits := Digits.of_run hne
    rw [plainRead]
    simp only [take_digitRun]
    by_cases hb : base = 0
    · subst hb
      match r with
      | [] => exact absurd rfl hne
      | c :: t =>
        by_cases hc : c = 0x30
        · subst hc
          rw [plainBase_zero] at hdigits ⊢
          rw [digitRun_cons (isBaseDigit_zero (by decide))] at hdigits ⊢
          exact .octal rfl hdigits
        · rw [plainBase_of_head hc] at hdigits hne ⊢
          cases hd : isBaseDigit 10 c with
          | false => exact absurd (digitRun_cons_of_not hd t) hne
          | true =>
            rw [digitRun_cons hd] at hdigits ⊢
            exact .decimal rfl hc hdigits
    · rw [plainBase_of_ne hb] at hdigits ⊢
      exact .digits (by omega) hdigits
  · obtain ⟨hb, x, u, rfl, hx, hrun⟩ := hexDigits_ne_nil hhex
    rw [hrun] at hhex
    have hdigits := Digits.of_run hhex
    rw [standardRead_hex (by rw [hrun]; exact hhex), hrun]
    have htake : (0x30 :: x :: u : CString).take (2 + (digitRun 16 u).length) =
        0x30 :: x :: digitRun 16 u := by
      rw [Nat.add_comm, List.take_succ_cons, List.take_succ_cons, take_digitRun]
    rw [htake]
    exact .hexadecimal hb hx hdigits

theorem standardRead_le (base : Nat) (r : CString) : (standardRead base r).1 ≤ r.length := by
  by_cases hhex : hexDigits base r = []
  · rw [standardRead_plain hhex]
    exact (digitRun_isPrefix _ r).length_le
  · obtain ⟨hb, x, u, rfl, hx, hrun⟩ := hexDigits_ne_nil hhex
    have hle := (digitRun_isPrefix 16 u).length_le
    rw [standardRead_hex hhex, hrun, List.length_cons, List.length_cons]
    simp only
    omega

theorem standardRead_zero (h : (standardRead base r).1 = 0) : (standardRead base r).2 = 0 := by
  by_cases hhex : hexDigits base r = []
  · rw [standardRead_plain hhex] at h ⊢
    rw [plainRead] at h ⊢
    rw [List.eq_nil_of_length_eq_zero h]
    rfl
  · rw [standardRead_hex hhex] at h
    simp only at h
    omega

end Longest

/-! ## White space and signs -/

/-- What is behind the white space and the sign. -/
def subject (str : CString) : CString :=
  let t := str.dropWhile isspace
  if t.head? = some 0x2B ∨ t.head? = some 0x2D then t.tail else t

def negative (str : CString) : Bool := (str.dropWhile isspace).head? = some 0x2D

/-- The white space and the sign. -/
def lead (str : CString) : CString := str.take (str.length - (subject str).length)

theorem subject_suffix (str : CString) : subject str <:+ str := by
  have hdrop := List.dropWhile_suffix isspace (l := str)
  rw [subject]
  split
  · exact (List.tail_suffix _).trans hdrop
  · exact hdrop

theorem lead_append_subject (str : CString) : lead str ++ subject str = str := by
  obtain ⟨front, hfront⟩ := subject_suffix str
  have hlen : str.length - (subject str).length = front.length := by
    have hall := congrArg List.length hfront
    rw [List.length_append] at hall
    omega
  have hlead : lead str = front := by
    rw [lead, hlen]
    exact (List.prefix_iff_eq_take.mp ⟨_, hfront⟩).symm
  rw [hlead]
  exact hfront

theorem no_sign {c : Byte} {t : CString} (hplus : c ≠ 0x2B) (hminus : c ≠ 0x2D) :
    ¬ ((c :: t).head? = some 0x2B ∨ (c :: t).head? = some 0x2D) := by
  rintro (h | h)
  · exact hplus (Option.some.inj h)
  · exact hminus (Option.some.inj h)

theorem alnum_no_lead {c : Byte} (h : isalnum c) : isspace c = false ∧ c ≠ 0x2B ∧ c ≠ 0x2D := by
  have hall : ∀ c : Byte, isalnum c → isspace c = false ∧ c ≠ 0x2B ∧ c ≠ 0x2D := by decide
  exact hall c h

theorem isalnum_of_digit {base : Nat} {c : Byte} (h : isBaseDigit base c = true) : isalnum c := by
  rw [isBaseDigit, Bool.and_eq_true] at h
  exact h.1

theorem Unsigned.head {base : Nat} {b : CString} {v : Nat} (h : Unsigned base b v) :
    ∃ d ds, b = d :: ds ∧ isalnum d := by
  have hdigits : ∀ {k : Nat} {ds : CString}, Digits k ds → ∃ d ds', ds = d :: ds' ∧ isalnum d := by
    intro k ds h
    obtain ⟨d, ds', rfl⟩ := List.exists_cons_of_ne_nil h.1
    exact ⟨d, ds', rfl, isalnum_of_digit (h.2 d List.mem_cons_self)⟩
  cases h with
  | digits hbase h => exact hdigits h
  | hexadecimal hbase hx h => exact ⟨_, _, rfl, rfl⟩
  | octal hbase h => exact hdigits h
  | decimal hbase hd h => exact hdigits h

/-- White space and a sign in front of a character that is neither. -/
theorem subject_eq {ws sign r : CString} {minus : Bool} {d : Byte} (hws : ∀ c ∈ ws, isspace c)
    (hsign : Sign sign minus) (hd : isalnum d) :
    subject (ws ++ (sign ++ d :: r)) = d :: r ∧ negative (ws ++ (sign ++ d :: r)) = minus := by
  obtain ⟨hspace, hplus, hminus⟩ := alnum_no_lead hd
  have hdrop : (ws ++ (sign ++ d :: r)).dropWhile isspace = sign ++ d :: r := by
    rw [List.dropWhile_append_of_pos hws]
    cases hsign with
    | none => exact List.dropWhile_cons_of_neg (by simp [hspace])
    | plus => rfl
    | minus => rfl
  rw [subject, negative, hdrop]
  cases hsign with
  | none =>
    have hno := no_sign (t := r) hplus hminus
    exact ⟨if_neg hno, decide_eq_false fun h => hno (Or.inr h)⟩
  | plus => exact ⟨rfl, rfl⟩
  | minus => exact ⟨rfl, rfl⟩

theorem Accepts.split {base : Nat} {text str : CString} {minus : Bool} {value : Nat}
    (h : Accepts base text minus value) (hp : text <+: str) :
    ∃ body, body <+: subject str ∧ text = lead str ++ body ∧ minus = negative str ∧
      Unsigned base body value := by
  obtain ⟨ws, sign, body, rfl, hws, hsign, hbody⟩ := h
  obtain ⟨rest, rfl⟩ := hp
  obtain ⟨d, ds, rfl, hd⟩ := hbody.head
  have hstr : ws ++ (sign ++ d :: ds) ++ rest = ws ++ (sign ++ d :: (ds ++ rest)) := by
    rw [List.append_assoc, List.append_assoc, List.cons_append]
  obtain ⟨hsub, hneg⟩ := subject_eq (r := ds ++ rest) hws hsign hd
  have hlead : lead (ws ++ (sign ++ d :: (ds ++ rest))) = ws ++ sign := by
    have hall := lead_append_subject (ws ++ (sign ++ d :: (ds ++ rest)))
    rw [hsub] at hall
    have hboth : lead (ws ++ (sign ++ d :: (ds ++ rest))) ++ d :: (ds ++ rest) =
        (ws ++ sign) ++ d :: (ds ++ rest) := by
      rw [hall, List.append_assoc]
    exact List.append_cancel_right hboth
  rw [hstr, hsub, hneg, hlead]
  refine ⟨d :: ds, List.prefix_append (d :: ds) rest, ?_, rfl, hbody⟩
  rw [List.append_assoc]

/-- The white space and the sign that a string starts with. -/
theorem lead_split (str : CString) :
    ∃ ws sign, lead str = ws ++ sign ∧ (∀ c ∈ ws, isspace c) ∧ Sign sign (negative str) := by
  have hws : ∀ c ∈ str.takeWhile isspace, isspace c := fun _ hc => List.mem_takeWhile_imp hc
  have hstr := List.takeWhile_append_dropWhile (p := isspace) (l := str)
  have hlead := lead_append_subject str
  have hsplit : ∀ sign, str.dropWhile isspace = sign ++ subject str →
      lead str = str.takeWhile isspace ++ sign := by
    intro sign hsign
    have hall : lead str ++ subject str = (str.takeWhile isspace ++ sign) ++ subject str := by
      rw [hlead, List.append_assoc, ← hsign, hstr]
    exact List.append_cancel_right hall
  refine ⟨str.takeWhile isspace, ?_⟩
  cases ht : str.dropWhile isspace with
  | nil =>
    refine ⟨[], hsplit [] ?_, hws, ?_⟩
    · rw [subject, ht]
      rfl
    · rw [negative, ht]
      exact .none
  | cons c t =>
    by_cases hplus : c = 0x2B
    · subst hplus
      refine ⟨[0x2B], hsplit _ ?_, hws, ?_⟩
      · rw [subject, ht]
        rfl
      · rw [negative, ht]
        exact .plus
    · by_cases hminus : c = 0x2D
      · subst hminus
        refine ⟨[0x2D], hsplit _ ?_, hws, ?_⟩
        · rw [subject, ht]
          rfl
        · rw [negative, ht]
          exact .minus
      · have hno := no_sign (t := t) hplus hminus
        refine ⟨[], hsplit [] ?_, hws, ?_⟩
        · rw [subject, ht]
          exact (if_neg hno).symm
        · rw [negative, ht, decide_eq_false fun h => hno (Or.inr h)]
          exact .none

/-! ## What a conversion comes to -/

theorem applySign_zero {w : Nat} (minus : Bool) : applySign minus (0 : BitVec w) = 0 := by
  cases minus
  · rfl
  · exact BitVec.neg_zero w

/-- The result for a string from the length and the value of the number without its sign. -/
def readResult (w : Nat) (str : CString) (read : Nat × Nat) : BitVec w × Option Nat :=
  (applySign (negative str) (BitVec.ofNat w read.2),
    some (if read.1 = 0 then 0 else (lead str).length + read.1))

theorem converts_iff {base w : Nat} (hbase : base = 0 ∨ 2 ≤ base) (str : CString)
    (res : BitVec w × Option Nat) :
    Converts base str res ↔ res = readResult w str (standardRead base (subject str)) := by
  have haccept : (standardRead base (subject str)).1 ≠ 0 →
      Accepts base (lead str ++ (subject str).take (standardRead base (subject str)).1)
        (negative str) (standardRead base (subject str)).2 := by
    intro hne
    obtain ⟨ws, sign, hlead, hws, hsign⟩ := lead_split str
    refine ⟨ws, sign, _, ?_, hws, hsign, standardRead_unsigned hbase hne⟩
    rw [hlead, List.append_assoc]
  have hpart : lead str ++ (subject str).take (standardRead base (subject str)).1 <+: str := by
    have hp := List.prefix_append_right_inj (lead str) |>.mpr
      (List.take_prefix (standardRead base (subject str)).1 (subject str))
    rwa [lead_append_subject] at hp
  have hlen : (lead str ++ (subject str).take (standardRead base (subject str)).1).length =
      (lead str).length + (standardRead base (subject str)).1 := by
    rw [List.length_append, List.length_take, Nat.min_eq_left (standardRead_le base _)]
  constructor
  · intro h
    cases h with
    | number part accepted longest =>
      obtain ⟨body, hbody, rfl, rfl, hu⟩ := accepted.split part
      obtain ⟨hle, hvalue⟩ := hu.longest hbody
      obtain ⟨d, ds, rfl, -⟩ := hu.head
      rw [List.length_cons] at hle hvalue
      have hne : (standardRead base (subject str)).1 ≠ 0 := by omega
      have hge := longest _ _ _ hpart (haccept hne)
      rw [hlen, List.length_append, List.length_cons] at hge
      have heq : ds.length + 1 = (standardRead base (subject str)).1 := by omega
      rw [readResult, if_neg hne, ← hvalue heq, List.length_append, List.length_cons, heq]
    | nothing none =>
      by_cases hzero : (standardRead base (subject str)).1 = 0
      · rw [readResult, if_pos hzero, standardRead_zero hzero]
        exact congrArg (·, some 0) (applySign_zero (negative str)).symm
      · exact absurd (haccept hzero) (none _ _ _ hpart)
  · rintro rfl
    by_cases hzero : (standardRead base (subject str)).1 = 0
    · have hnone : ∀ text minus value, text <+: str → ¬ Accepts base text minus value := by
        intro text minus value hp ha
        obtain ⟨body, hbody, -, -, hu⟩ := ha.split hp
        obtain ⟨d, ds, rfl, -⟩ := hu.head
        have hle := (hu.longest hbody).1
        rw [hzero] at hle
        exact absurd hle (Nat.not_succ_le_zero _)
      rw [readResult, if_pos hzero, standardRead_zero hzero]
      have hres : applySign (negative str) (BitVec.ofNat w 0) = 0 := applySign_zero _
      rw [hres]
      exact .nothing hnone
    · rw [readResult, if_neg hzero, ← hlen]
      refine .number hpart (haccept hzero) ?_
      intro text minus value hp ha
      obtain ⟨body, hbody, rfl, -, hu⟩ := ha.split hp
      rw [hlen, List.length_append]
      exact Nat.add_le_add_left (hu.longest hbody).1 _

end Ohwes

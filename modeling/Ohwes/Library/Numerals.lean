import Mathlib.Data.Nat.Digits.Lemmas

/-! # Positional numerals

The digits of a number as they are written, the most significant first, and the value read off a
list of digits from its front. Zero is written with no digit. -/

namespace Ohwes.Library
set_option autoImplicit false

def numeral (radix n : ℕ) : List ℕ := (Nat.digits radix n).reverse

@[simp] theorem numeral_zero (radix : ℕ) : numeral radix 0 = [] := by simp [numeral]

theorem numeral_eq_append {radix n : ℕ} (hr : 1 < radix) (hn : n ≠ 0) :
    numeral radix n = numeral radix (n / radix) ++ [n % radix] := by
  rw [numeral, Nat.digits_eq_cons_digits_div hr hn, List.reverse_cons]
  rfl

theorem numeral_lt {radix n d : ℕ} (hr : 1 < radix) (hd : d ∈ numeral radix n) : d < radix :=
  Nat.digits_lt_base hr (List.mem_reverse.mp hd)

theorem numeral_head?_ne (radix n : ℕ) : (numeral radix n).head? ≠ some 0 := by
  rw [numeral, List.head?_reverse]
  intro h
  have hn : n ≠ 0 := by
    rintro rfl
    simp at h
  rw [List.getLast?_eq_getLast_of_ne_nil (Nat.digits_ne_nil_iff_ne_zero.mpr hn)] at h
  exact Nat.getLast_digit_ne_zero radix hn (Option.some.inj h)

theorem length_numeral_le {radix n k : ℕ} (hr : 1 < radix) (h : n < radix ^ k) :
    (numeral radix n).length ≤ k := by
  rw [numeral, List.length_reverse]
  exact (Nat.digits_length_le_iff hr n).mpr h

/-- The value of the digits behind a number already read. -/
def readDigits (radix : ℕ) (value : ℕ) (ds : List ℕ) : ℕ :=
  ds.foldl (fun v d => v * radix + d) value

@[simp] theorem readDigits_nil (radix value : ℕ) : readDigits radix value [] = value := rfl

@[simp] theorem readDigits_cons (radix value d : ℕ) (ds : List ℕ) :
    readDigits radix value (d :: ds) = readDigits radix (value * radix + d) ds := rfl

theorem readDigits_append (radix value : ℕ) (ds es : List ℕ) :
    readDigits radix value (ds ++ es) = readDigits radix (readDigits radix value ds) es :=
  List.foldl_append

theorem readDigits_zeros (radix k : ℕ) (ds : List ℕ) :
    readDigits radix 0 (List.replicate k 0 ++ ds) = readDigits radix 0 ds := by
  induction k with
  | zero => rfl
  | succ k ih => rw [List.replicate_succ, List.cons_append, readDigits_cons, Nat.zero_mul, ih]

/-- A number is read back from its numeral. -/
theorem readDigits_numeral {radix : ℕ} (hr : 1 < radix) (n : ℕ) :
    readDigits radix 0 (numeral radix n) = n := by
  induction n using Nat.strong_induction_on with
  | _ n ih =>
    by_cases hn : n = 0
    · rw [hn, numeral_zero, readDigits_nil]
    · have hlt : n / radix < n := Nat.div_lt_self (Nat.pos_of_ne_zero hn) hr
      rw [numeral_eq_append hr hn, readDigits_append, ih _ hlt, readDigits_cons, readDigits_nil]
      exact Nat.div_add_mod' n radix

theorem le_readDigits {radix : ℕ} (hr : 0 < radix) (value : ℕ) (ds : List ℕ) :
    value ≤ readDigits radix value ds := by
  induction ds generalizing value with
  | nil => exact le_rfl
  | cons d ds ih =>
    calc value ≤ value * radix := Nat.le_mul_of_pos_right value hr
      _ ≤ value * radix + d := Nat.le_add_right _ _
      _ ≤ readDigits radix value (d :: ds) := ih _

end Ohwes.Library

import Mathlib.Data.BitVec

/-! # Fields of a word

A field is `w` bits from bit `lo` on. Setting one changes no other. -/

namespace Ohwes.Library
set_option autoImplicit false

section Field
variable {n w : Nat} (v : BitVec n) (lo : Nat) (x : BitVec w)

def field (w : Nat) : BitVec w := v.extractLsb' lo w

def setField : BitVec n := (v &&& ~~~ ((BitVec.allOnes w).setWidth n <<< lo)) ||| (x.setWidth n <<< lo)

theorem getLsbD_setField (i : Nat) : (setField v lo x).getLsbD i =
    if lo ≤ i ∧ i < lo + w then decide (i < n) && x.getLsbD (i - lo) else v.getLsbD i := by
  rw [setField, BitVec.getLsbD_or, BitVec.getLsbD_and, BitVec.getLsbD_not, BitVec.getLsbD_shiftLeft,
    BitVec.getLsbD_shiftLeft, BitVec.getLsbD_setWidth, BitVec.getLsbD_setWidth, BitVec.getLsbD_allOnes]
  by_cases hn : i < n
  · by_cases hlo : lo ≤ i
    · by_cases hw : i < lo + w
      · have h1 : ¬ i < lo := by omega
        have h2 : i - lo < n := by omega
        have h3 : i - lo < w := by omega
        simp [hn, hlo, hw, h1, h2, h3]
      · have h1 : ¬ i < lo := by omega
        have h3 : ¬ i - lo < w := by omega
        have hx : x.getLsbD (i - lo) = false := BitVec.getLsbD_of_ge x _ (by omega)
        simp [hn, hlo, hw, h1, h3, hx]
    · have h1 : i < lo := by omega
      simp [hn, hlo, h1]
  · have hv : v.getLsbD i = false := BitVec.getLsbD_of_ge v i (by omega)
    simp [hn, hv]

/-- What was set is read back. -/
theorem field_setField (h : lo + w ≤ n) : field (setField v lo x) lo w = x := by
  refine BitVec.eq_of_getLsbD_eq fun i hi => ?_
  rw [field, BitVec.getLsbD_extractLsb', getLsbD_setField, if_pos ⟨by omega, by omega⟩,
    decide_eq_true hi, decide_eq_true (by omega : lo + i < n), Bool.true_and, Bool.true_and,
    Nat.add_sub_cancel_left]

/-- The other fields are as they were. -/
theorem field_setField_apart {lo' w' : Nat} (h : lo' + w' ≤ lo ∨ lo + w ≤ lo') :
    field (setField v lo x) lo' w' = field v lo' w' := by
  refine BitVec.eq_of_getLsbD_eq fun i hi => ?_
  rw [field, field, BitVec.getLsbD_extractLsb', BitVec.getLsbD_extractLsb', getLsbD_setField,
    if_neg (by omega)]

theorem field_zero (w : Nat) : field (0 : BitVec n) lo w = 0 := by
  refine BitVec.eq_of_getLsbD_eq fun i hi => ?_
  rw [field, BitVec.getLsbD_extractLsb', BitVec.ofNat_eq_ofNat, BitVec.getLsbD_zero,
    BitVec.ofNat_eq_ofNat, BitVec.getLsbD_zero, Bool.and_false]

end Field

end Ohwes.Library

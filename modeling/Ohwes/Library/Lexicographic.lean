import Mathlib.Data.List.Basic

/-! # Comparing lists by their first difference

`firstDiff` gives the first two elements that differ. Lists neither of which goes on where the other
has ended are `Aligned`: then the lexicographic order is that of the first difference. Lists with an
end mark behind them are aligned, and where the mark is least it does not change their order. -/

namespace Ohwes.Library
set_option autoImplicit false
open Std
variable {α : Type}

section Diff
variable [DecidableEq α]

def firstDiff : List α → List α → Option (α × α)
  | a :: x, b :: y => if a = b then firstDiff x y else some (a, b)
  | _, _ => none

theorem firstDiff_same (a : α) (x y : List α) : firstDiff (a :: x) (a :: y) = firstDiff x y := by
  rw [firstDiff, if_pos rfl]

theorem firstDiff_ne {a b : α} (h : a ≠ b) (x y : List α) :
    firstDiff (a :: x) (b :: y) = some (a, b) := by
  rw [firstDiff, if_neg h]

theorem ne_of_firstDiff {x y : List α} {p : α × α} (h : firstDiff x y = some p) : p.1 ≠ p.2 := by
  induction x, y using firstDiff.induct with
  | case1 a x y ih =>
    rw [firstDiff_same] at h
    exact ih h
  | case2 a x b y hne =>
    rw [firstDiff_ne hne] at h
    cases h
    exact hne
  | case3 x y hnil =>
    rw [firstDiff] at h
    · cases h
    · exact hnil

theorem firstDiff_swap (x y : List α) : firstDiff y x = (firstDiff x y).map Prod.swap := by
  induction x, y using firstDiff.induct with
  | case1 a x y ih => rw [firstDiff_same, firstDiff_same, ih]
  | case2 a x b y hne =>
    rw [firstDiff_ne hne, firstDiff_ne fun h => hne h.symm]
    rfl
  | case3 x y hnil =>
    cases x with
    | nil => cases y <;> rfl
    | cons a x =>
      cases y with
      | nil => rfl
      | cons b y => exact absurd rfl (hnil a x b y rfl)

theorem firstDiff_take {x y : List α} {n : Nat} (h : min x.length y.length ≤ n) :
    firstDiff (x.take n) (y.take n) = firstDiff x y := by
  induction x generalizing y n with
  | nil =>
    rw [List.take_nil]
    cases y.take n <;> cases y <;> rfl
  | cons a x ih =>
    cases y with
    | nil =>
      rw [List.take_nil]
      cases (a :: x).take n <;> rfl
    | cons b y =>
      cases n with
      | zero => simp at h
      | succ n =>
        have htail : min x.length y.length ≤ n := by
          rw [List.length_cons, List.length_cons] at h
          omega
        rw [List.take_succ_cons, List.take_succ_cons, firstDiff, firstDiff, ih htail]

end Diff

/-- Neither list is a proper first part of the other. -/
inductive Aligned : List α → List α → Prop
  | nil : Aligned [] []
  | diff {a b : α} (h : a ≠ b) (x y : List α) : Aligned (a :: x) (b :: y)
  | same (a : α) {x y : List α} (h : Aligned x y) : Aligned (a :: x) (a :: y)

namespace Aligned

theorem of_length_eq {x y : List α} (h : x.length = y.length) : Aligned x y := by
  induction x generalizing y with
  | nil =>
    rw [List.length_nil] at h
    rw [List.eq_nil_of_length_eq_zero h.symm]
    exact nil
  | cons a x ih =>
    cases y with
    | nil => cases h
    | cons b y =>
      by_cases hab : a = b
      · rw [hab]
        exact same b (ih (Nat.succ.inj h))
      · exact diff hab x y

theorem take {x y : List α} (h : Aligned x y) (n : Nat) : Aligned (x.take n) (y.take n) := by
  induction h generalizing n with
  | nil =>
    rw [List.take_nil]
    exact nil
  | diff hne x y =>
    cases n with
    | zero => exact nil
    | succ n => exact diff hne _ _
  | same a h ih =>
    cases n with
    | zero => exact nil
    | succ n => exact same a (ih n)

/-- Lists that end with a mark which is nowhere else in them. -/
theorem of_mark {e : α} {x y : List α} (hx : e ∉ x) (hy : e ∉ y) :
    Aligned (x ++ [e]) (y ++ [e]) := by
  induction x generalizing y with
  | nil =>
    cases y with
    | nil => exact same e nil
    | cons b y =>
      have hne : e ≠ b := fun h => hy (h ▸ List.mem_cons_self)
      exact diff hne _ _
  | cons a x ih =>
    cases y with
    | nil =>
      have hne : a ≠ e := fun h => hx (h ▸ List.mem_cons_self)
      exact diff hne _ _
    | cons b y =>
      by_cases hab : a = b
      · rw [hab]
        exact same b (ih (fun h => hx (List.mem_cons_of_mem a h))
          (fun h => hy (List.mem_cons_of_mem b h)))
      · exact diff hab _ _

theorem compareLex_eq [DecidableEq α] {cmp : α → α → Ordering} [LawfulEqCmp cmp] {x y : List α}
    (h : Aligned x y) :
    List.compareLex cmp x y = (firstDiff x y).elim .eq fun p => cmp p.1 p.2 := by
  induction h with
  | nil => rfl
  | diff hne x y =>
    rename_i a b
    have hcmp : cmp a b ≠ .eq := fun h => hne (LawfulEqCmp.eq_of_compare h)
    rw [List.compareLex_cons_cons, firstDiff_ne hne, Option.elim_some]
    cases hc : cmp a b with
    | eq => exact absurd hc hcmp
    | lt => rfl
    | gt => rfl
  | same a h ih =>
    have hcmp : cmp a a = .eq := ReflCmp.compare_self
    rw [List.compareLex_cons_cons, firstDiff_same, hcmp, ← ih]
    rfl

end Aligned

/-- An end mark that is least in the order. -/
theorem compareLex_mark_take {cmp : α → α → Ordering} [OrientedCmp cmp] [ReflCmp cmp] {e : α}
    (least : ∀ a, a ≠ e → cmp e a = .lt) {x y : List α} (hx : e ∉ x) (hy : e ∉ y) (n : Nat) :
    List.compareLex cmp ((x ++ [e]).take n) ((y ++ [e]).take n) =
      List.compareLex cmp (x.take n) (y.take n) := by
  induction x generalizing y n with
  | nil =>
    cases n with
    | zero => rfl
    | succ n =>
      cases y with
      | nil =>
        have hself : cmp e e = .eq := ReflCmp.compare_self
        simp [List.compareLex_cons_cons, hself, List.compareLex_nil_nil]
      | cons b y =>
        have hb : b ≠ e := fun h => hy (h ▸ List.mem_cons_self)
        simp [List.compareLex_cons_cons, least b hb, List.compareLex_nil_cons]
  | cons a x ih =>
    cases n with
    | zero => rfl
    | succ n =>
      cases y with
      | nil =>
        have ha : a ≠ e := fun h => hx (h ▸ List.mem_cons_self)
        have hgt : cmp a e = .gt := OrientedCmp.gt_of_lt (least a ha)
        simp [List.compareLex_cons_cons, hgt, List.compareLex_cons_nil]
      | cons b y =>
        have htail := ih (fun h => hx (List.mem_cons_of_mem a h))
          (fun h => hy (List.mem_cons_of_mem b h)) n
        simp only [List.cons_append, List.take_succ_cons, List.compareLex_cons_cons, htail]

end Ohwes.Library

import Mathlib.Data.List.TakeWhile
import Mathlib.Tactic.SplitIfs
import Ohwes.Libc.String
import Ohwes.Library.Lexicographic

/-! # The order of `memcmp`, `strcmp` and `strncmp`

A `char` of the source is signed. The three functions agree with each other and each of them is an
order, but not that of the unsigned bytes: `string_order_iff` says when it comes to the same. -/

namespace Ohwes
set_option autoImplicit false
open Library

/-- A string with its NUL. -/
def terminated (s : CString) : List Byte := cstring s ++ [0]

/-- The lexicographic order of unsigned bytes. -/
def byteOrder : List Byte → List Byte → Ordering := List.compareLex (compareOn BitVec.toNat)

/-- The first bytes that differ are both below `0x80`, or neither is. -/
def SameHalf (x y : List Byte) : Prop := ∀ p ∈ firstDiff x y, p.1.msb = p.2.msb

instance (x y : List Byte) : Decidable (SameHalf x y) :=
  inferInstanceAs (Decidable (∀ p ∈ firstDiff x y, p.1.msb = p.2.msb))

/-- `cmp` orders its arguments. -/
structure Orders {α : Type} (cmp : α → α → Int) : Prop where
  refl (a : α) : cmp a a = 0
  antisymm (a b : α) : cmp b a = - cmp a b
  trans {a b c : α} : cmp a b ≤ 0 → cmp b c ≤ 0 → cmp a c ≤ 0

/-! ## The difference of the first characters that differ -/

def charDiff (x y : List Byte) : Int :=
  (firstDiff x y).elim 0 fun p => p.1.toInt - p.2.toInt

theorem charDiff_same (a : Byte) (x y : List Byte) : charDiff (a :: x) (a :: y) = charDiff x y := by
  rw [charDiff, firstDiff_same, charDiff]

theorem charDiff_ne {a b : Byte} (h : a ≠ b) (x y : List Byte) :
    charDiff (a :: x) (b :: y) = a.toInt - b.toInt := by
  rw [charDiff, firstDiff_ne h, Option.elim_some]

theorem charDiff_self (x : List Byte) : charDiff x x = 0 := by
  induction x with
  | nil => rfl
  | cons a x ih => rw [charDiff_same, ih]

theorem zero_notMem_cstring (s : CString) : 0 ∉ cstring s := by
  intro h
  have hne := List.mem_takeWhile_imp (p := fun c : Byte => decide (c ≠ 0)) h
  simp at hne

theorem terminated_eq (s : CString) :
    terminated s = if s.headD 0 = 0 then [0] else s.headD 0 :: terminated s.tail := by
  rw [terminated, cstring_eq]
  split_ifs <;> rfl

theorem memcmp_eq (m : Memory) (lhs rhs : Ptr) (count : Nat) :
    memcmp m lhs rhs count = charDiff (bytesAt m lhs count) (bytesAt m rhs count) := by
  induction count generalizing lhs rhs with
  | zero => rfl
  | succ count ih =>
    rw [memcmp, bytesAt, bytesAt]
    by_cases heq : m lhs = m rhs
    · rw [heq, charDiff_same]
      by_cases hcount : count = 0
      · rw [if_neg fun h => h.2 hcount, hcount, Int.sub_self]
        rfl
      · rw [if_pos ⟨rfl, hcount⟩, ih]
    · rw [if_neg fun h => heq h.1, charDiff_ne heq]

theorem strcmp_eq (lhs rhs : CString) :
    strcmp lhs rhs = charDiff (terminated lhs) (terminated rhs) := by
  induction lhs generalizing rhs with
  | nil =>
    have hnil : terminated [] = [0] := rfl
    rw [strcmp, hnil, terminated_eq rhs]
    by_cases hr : rhs.headD 0 = 0
    · rw [if_pos hr, hr, Int.sub_self, charDiff_self]
    · rw [if_neg hr, charDiff_ne fun h => hr h.symm]
  | cons c lhs ih =>
    rw [strcmp, terminated_eq (c :: lhs), terminated_eq rhs, List.headD_cons, List.tail_cons]
    by_cases hc : c = 0
    · rw [if_neg fun h => h.1 hc, if_pos hc, hc]
      by_cases hr : rhs.headD 0 = 0
      · rw [if_pos hr, hr, Int.sub_self, charDiff_self]
      · rw [if_neg hr, charDiff_ne fun h => hr h.symm]
    · rw [if_neg hc]
      by_cases heq : c = rhs.headD 0
      · rw [if_pos ⟨hc, heq⟩, if_neg (heq ▸ hc), ih, ← heq, charDiff_same]
      · rw [if_neg fun h => heq h.2]
        by_cases hr : rhs.headD 0 = 0
        · rw [if_pos hr, hr, charDiff_ne hc]
        · rw [if_neg hr, charDiff_ne heq]

theorem strncmp_eq (lhs rhs : CString) (count : Nat) :
    strncmp lhs rhs count =
      charDiff ((terminated lhs).take count) ((terminated rhs).take count) := by
  induction count generalizing lhs rhs with
  | zero => rfl
  | succ count ih =>
    have htail := ih lhs.tail rhs.tail
    have hdiff : ∀ a b : Byte, a.toInt - b.toInt ≠ 0 ↔ a ≠ b :=
      fun a b => (Int.sub_eq_zero.trans BitVec.toInt_inj).not
    rw [strncmp, terminated_eq lhs, terminated_eq rhs]
    generalize lhs.headD 0 = l at *
    generalize rhs.headD 0 = r at *
    simp only [hdiff]
    by_cases heq : l = r
    · subst heq
      by_cases hl : l = 0
      · rw [if_pos (Or.inr (Or.inl hl)), if_pos hl, if_pos hl, charDiff_self, Int.sub_self]
      · have hgo : ¬ (l ≠ l ∨ l = 0 ∨ l = 0) := by simpa using hl
        rw [if_neg hgo, if_neg hl, if_neg hl, List.take_succ_cons, List.take_succ_cons,
          charDiff_same, htail]
    · rw [if_pos (Or.inl heq)]
      split_ifs with hl hr hr
      · exact absurd (hl.trans hr.symm) heq
      · rw [List.take_succ_cons, List.take_succ_cons, ← hl, charDiff_ne heq]
      · rw [List.take_succ_cons, List.take_succ_cons, ← hr, charDiff_ne heq]
      · rw [List.take_succ_cons, List.take_succ_cons, charDiff_ne heq]

/-! ## Against the order of the bytes -/

theorem compare_sub (a b : Int) : compare (a - b) 0 = compare a b := by
  rcases Int.lt_trichotomy a b with h | h | h
  · rw [Int.compare_eq_lt.mpr h, Int.compare_eq_lt.mpr (by omega)]
  · rw [Int.compare_eq_eq.mpr h, Int.compare_eq_eq.mpr (by omega)]
  · rw [Int.compare_eq_gt.mpr h, Int.compare_eq_gt.mpr (by omega)]

instance lawfulEqCmpToNat : Std.LawfulEqCmp (compareOn (BitVec.toNat : Byte → Nat)) where
  compare_self := Nat.compare_eq_eq.mpr rfl
  eq_of_compare h := BitVec.eq_of_toNat_eq (Nat.compare_eq_eq.mp h)

instance lawfulEqCmpToInt : Std.LawfulEqCmp (compareOn (BitVec.toInt : Byte → Int)) where
  compare_self := Int.compare_eq_eq.mpr rfl
  eq_of_compare h := BitVec.eq_of_toInt_eq (Int.compare_eq_eq.mp h)

theorem compare_toInt_iff {a b : Byte} (h : a ≠ b) :
    compare a.toInt b.toInt = compare a.toNat b.toNat ↔ a.msb = b.msb := by
  have hne : a.toNat ≠ b.toNat := fun hn => h (BitVec.eq_of_toNat_eq hn)
  have hlt := a.isLt
  have hlt' := b.isLt
  rw [BitVec.msb_eq_decide, BitVec.msb_eq_decide, decide_eq_decide, BitVec.toInt_eq_toNat_cond,
    BitVec.toInt_eq_toNat_cond]
  rcases Nat.lt_or_gt_of_ne hne with hab | hba
  · rw [Nat.compare_eq_lt.mpr hab, Int.compare_eq_lt]
    split_ifs <;> omega
  · rw [Nat.compare_eq_gt.mpr hba, Int.compare_eq_gt]
    split_ifs <;> omega

/-- The order of the functions is that of the signed characters. -/
theorem compare_charDiff {x y : List Byte} (h : Aligned x y) :
    compare (charDiff x y) 0 = List.compareLex (compareOn BitVec.toInt) x y := by
  rw [h.compareLex_eq, charDiff]
  cases firstDiff x y with
  | none => rfl
  | some p => exact compare_sub p.1.toInt p.2.toInt

theorem charDiff_iff {x y : List Byte} (h : Aligned x y) :
    compare (charDiff x y) 0 = byteOrder x y ↔ SameHalf x y := by
  rw [byteOrder, h.compareLex_eq, charDiff, SameHalf]
  cases hd : firstDiff x y with
  | none =>
    refine iff_of_true rfl fun p hp => ?_
    cases hp
  | some p =>
    have hne := ne_of_firstDiff hd
    simp only [Option.elim_some, compare_sub, Option.mem_some_iff, forall_eq', compareOn]
    exact compare_toInt_iff hne

theorem charDiff_orders {α : Type} {view : α → List Byte} (h : ∀ a b, Aligned (view a) (view b)) :
    Orders fun a b => charDiff (view a) (view b) where
  refl a := charDiff_self (view a)
  antisymm a b := by
    rw [charDiff, charDiff, firstDiff_swap]
    cases firstDiff (view a) (view b) with
    | none => rfl
    | some p => exact (Int.neg_sub p.1.toInt p.2.toInt).symm
  trans := by
    intro a b c hab hbc
    rw [← Int.isLE_compare, compare_charDiff (h _ _)] at hab hbc ⊢
    exact Std.TransCmp.isLE_trans hab hbc

/-! ## The three functions -/

/-- `cmp` orders its arguments, and does so as the unsigned bytes `bytes` are ordered exactly where
the bytes it looks at differ first in bytes of the same half. -/
structure OrderedAs {α : Type} (cmp : α → α → Int) (bytes seen : α → List Byte) : Prop where
  sign (a b : α) :
    compare (cmp a b) 0 = byteOrder (bytes a) (bytes b) ↔ SameHalf (seen a) (seen b)
  orders : Orders cmp

/-- On two strings, with as many characters to compare as the shorter has up to its NUL, or more
where the function stops at a NUL, the three functions return the same. -/
structure Agree (lhs rhs : CString) : Prop where
  memcmp (m : Memory) (a b : Ptr) :
    bytesAt m a (terminated lhs).length = terminated lhs →
      bytesAt m b (terminated rhs).length = terminated rhs →
        memcmp m a b (min (terminated lhs).length (terminated rhs).length) = strcmp lhs rhs
  strncmp (count : Nat) :
    min (terminated lhs).length (terminated rhs).length ≤ count →
      strncmp lhs rhs count = strcmp lhs rhs

theorem bytesAt_take (m : Memory) (a : Ptr) (n count : Nat) :
    (bytesAt m a n).take count = bytesAt m a (min count n) := by
  induction n generalizing a count with
  | zero => rw [bytesAt, List.take_nil, Nat.min_zero, bytesAt]
  | succ n ih =>
    cases count with
    | zero => rw [List.take_zero, Nat.zero_min, bytesAt]
    | succ count => rw [bytesAt, List.take_succ_cons, ih, Nat.succ_min_succ, bytesAt]

theorem aligned_terminated (lhs rhs : CString) : Aligned (terminated lhs) (terminated rhs) :=
  Aligned.of_mark (zero_notMem_cstring lhs) (zero_notMem_cstring rhs)

theorem byteOrder_terminated_take (lhs rhs : CString) (count : Nat) :
    byteOrder ((terminated lhs).take count) ((terminated rhs).take count) =
      byteOrder ((cstring lhs).take count) ((cstring rhs).take count) := by
  have least : ∀ a : Byte, a ≠ 0 → compareOn BitVec.toNat 0 a = .lt := by
    intro a ha
    have hpos : a.toNat ≠ 0 := fun h => ha (BitVec.eq_of_toNat_eq h)
    exact Nat.compare_eq_lt.mpr (Nat.pos_of_ne_zero hpos)
  exact compareLex_mark_take least (zero_notMem_cstring lhs) (zero_notMem_cstring rhs) count

theorem byteOrder_terminated (lhs rhs : CString) :
    byteOrder (terminated lhs) (terminated rhs) = byteOrder (cstring lhs) (cstring rhs) := by
  have hall := byteOrder_terminated_take lhs rhs
    ((terminated lhs).length + (terminated rhs).length)
  have hlen : ∀ s : CString, (terminated s).length = (cstring s).length + 1 := fun s => by
    rw [terminated, List.length_append, List.length_singleton]
  rw [List.take_of_length_le (by omega), List.take_of_length_le (by omega),
    List.take_of_length_le (by rw [hlen, hlen]; omega),
    List.take_of_length_le (by rw [hlen, hlen]; omega)] at hall
  exact hall

theorem orderedAs_memcmp (m : Memory) (count : Nat) :
    OrderedAs (fun a b => memcmp m a b count) (fun a => bytesAt m a count)
      (fun a => bytesAt m a count) := by
  have halign : ∀ a b, Aligned (bytesAt m a count) (bytesAt m b count) := fun a b =>
    Aligned.of_length_eq (by rw [bytesAt_length, bytesAt_length])
  simp only [memcmp_eq]
  exact ⟨fun a b => charDiff_iff (halign a b), charDiff_orders halign⟩

theorem orderedAs_strcmp : OrderedAs strcmp cstring terminated := by
  have hfun : strcmp = fun a b => charDiff (terminated a) (terminated b) := by
    funext a b
    exact strcmp_eq a b
  rw [hfun]
  refine ⟨fun a b => ?_, charDiff_orders aligned_terminated⟩
  rw [← byteOrder_terminated]
  exact charDiff_iff (aligned_terminated a b)

theorem orderedAs_strncmp (count : Nat) :
    OrderedAs (fun a b => strncmp a b count) (fun s => (cstring s).take count)
      (fun s => (terminated s).take count) := by
  have halign : ∀ a b, Aligned ((terminated a).take count) ((terminated b).take count) :=
    fun a b => (aligned_terminated a b).take count
  simp only [strncmp_eq]
  refine ⟨fun a b => ?_, charDiff_orders halign⟩
  rw [← byteOrder_terminated_take]
  exact charDiff_iff (halign a b)

theorem agree (lhs rhs : CString) : Agree lhs rhs where
  memcmp m a b ha hb := by
    have hta := bytesAt_take m a (terminated lhs).length
      (min (terminated lhs).length (terminated rhs).length)
    have htb := bytesAt_take m b (terminated rhs).length
      (min (terminated lhs).length (terminated rhs).length)
    rw [ha, Nat.min_eq_left (Nat.min_le_left _ _)] at hta
    rw [hb, Nat.min_eq_left (Nat.min_le_right _ _)] at htb
    rw [memcmp_eq, strcmp_eq, ← hta, ← htb, charDiff, firstDiff_take (Nat.le_refl _), charDiff]
  strncmp count h := by
    rw [strncmp_eq, strcmp_eq, charDiff, firstDiff_take h, charDiff]

/-- The sign is that of the order of the unsigned bytes exactly where no byte from `0x80` on is
compared with one below. The functions are orders, and agree, on all strings. -/
theorem string_order_iff (m : Memory) (count : Nat) (lhs rhs : CString) :
    OrderedAs (fun a b => memcmp m a b count) (fun a => bytesAt m a count)
        (fun a => bytesAt m a count) ∧
      OrderedAs strcmp cstring terminated ∧
      OrderedAs (fun a b => strncmp a b count) (fun s => (cstring s).take count)
        (fun s => (terminated s).take count) ∧
      Agree lhs rhs :=
  ⟨orderedAs_memcmp m count, orderedAs_strcmp, orderedAs_strncmp count, agree lhs rhs⟩

/-- Three bytes of memory: the strings of the byte `0x80` and of the byte 1, in one. -/
def highLow : Memory := fun a => if a = 0 then 0x80 else if a = 1 then 0x01 else 0

/-- The byte `0x80` comes before 1 in all three. -/
theorem high_byte_first :
    compare (memcmp highLow 0 1 1) 0 ≠ byteOrder (bytesAt highLow 0 1) (bytesAt highLow 1 1) ∧
      compare (strcmp [0x80] [0x01]) 0 ≠ byteOrder (cstring [0x80]) (cstring [0x01]) ∧
      compare (strncmp [0x80] [0x01] 1) 0 ≠
        byteOrder ((cstring [0x80]).take 1) ((cstring [0x01]).take 1) := by
  decide

end Ohwes

import Mathlib.Logic.Function.Basic
import Ohwes.Kernel.Basic

/-! # `libc/string.c`: memory and C strings

The memory functions work through a `Bus`, so that the same loops run on plain RAM and on an address
space behind a page table. A C string is the list of its bytes; the terminating NUL comes after the
last of them. -/

namespace Ohwes
set_option autoImplicit false

/-- Byte access to a memory. -/
structure Bus (σ : Type) where
  load : σ → Ptr → Byte
  store : σ → Ptr → Byte → σ

abbrev Memory := Ptr → Byte

def ram : Bus Memory where
  load m a := m a
  store m a b := Function.update m a b

section Loops
variable {σ : Type} (bus : Bus σ)

def memset (m : σ) (dst : Ptr) (c : Byte) : Nat → σ
  | 0 => m
  | count + 1 => memset (bus.store m dst c) (dst + 1) c count

def memcpy (m : σ) (dst src : Ptr) : Nat → σ
  | 0 => m
  | count + 1 => memcpy (bus.store m dst (bus.load m src)) (dst + 1) (src + 1) count

end Loops

/-- `zeromem` of `ohwes.h`. -/
def zeromem (m : Memory) (dst : Ptr) (count : Nat) : Memory := memset ram m dst 0 count

theorem memset_apply (m : Memory) (dst : Ptr) (c : Byte) (n : Nat) (a : Ptr) :
    memset ram m dst c n a = if (a - dst).toNat < n then c else m a := by
  induction n generalizing m dst with
  | zero => simp [memset]
  | succ n ih =>
    rw [memset, ih]
    by_cases h : a = dst
    · subst h
      simp [ram]
    · have hsub : (a - (dst + 1)).toNat + 1 = (a - dst).toNat := by
        have h0 : (a - dst).toNat ≠ 0 := by bv_omega
        bv_omega
      have hlt : (a - (dst + 1)).toNat < n ↔ (a - dst).toNat < n + 1 := by omega
      simp only [hlt, ram, Function.update_of_ne h]

theorem zeromem_apply (m : Memory) (dst : Ptr) (n : Nat) (a : Ptr) :
    zeromem m dst n a = if (a - dst).toNat < n then 0 else m a := memset_apply m dst 0 n a

/-- The bytes from an address on. -/
def bytesAt (m : Memory) (a : Ptr) : Nat → List Byte
  | 0 => []
  | count + 1 => m a :: bytesAt m (a + 1) count

@[simp] theorem bytesAt_length (m : Memory) (a : Ptr) (count : Nat) :
    (bytesAt m a count).length = count := by
  induction count generalizing a with
  | zero => rfl
  | succ count ih => rw [bytesAt, List.length_cons, ih]

/-- The bytes of a word in memory, the lowest first. -/
def leBytes (w : BitVec 32) : List Byte :=
  [w.extractLsb' 0 8, w.extractLsb' 8 8, w.extractLsb' 16 8, w.extractLsb' 24 8]

/-- The word whose bytes start at `i`. -/
def leWord (bytes : List Byte) (i : Nat) : BitVec 32 :=
  bytes.getD (i + 3) 0 ++ bytes.getD (i + 2) 0 ++ bytes.getD (i + 1) 0 ++ bytes.getD i 0

theorem leWord_leBytes (w : BitVec 32) :
    w.extractLsb' 24 8 ++ w.extractLsb' 16 8 ++ w.extractLsb' 8 8 ++ w.extractLsb' 0 8 = w := by
  ext i hi
  simp only [BitVec.getElem_append, BitVec.getElem_extractLsb']
  split_ifs <;> grind

/-- `memcmp`: the difference of the first two (signed) characters that differ. -/
def memcmp (m : Memory) (lhs rhs : Ptr) : Nat → Int
  | 0 => 0
  | count + 1 =>
    if m lhs = m rhs ∧ count ≠ 0 then memcmp m (lhs + 1) (rhs + 1) count
    else (m lhs).toInt - (m rhs).toInt

/-! ## Strings -/

abbrev CString := List Byte

def strnlen : CString → Nat → Nat
  | _, 0 => 0
  | [], _ + 1 => 0
  | c :: str, maxlen + 1 => if c = 0 then 0 else strnlen str maxlen + 1

/-- `strncpy` into the buffer `dst`: the string as far as it fits, then NULs up to `count`. -/
def strncpy (dst : List Byte) (src : CString) (count : Nat) : List Byte :=
  let len := strnlen src count
  src.take len ++ List.replicate (count - len) 0 ++ dst.drop count

/-- `strcmp`: the difference of the first two (signed) characters that differ. -/
def strcmp : CString → CString → Int
  | [], rhs => (0 : Byte).toInt - (rhs.headD 0).toInt
  | c :: lhs, rhs =>
    if c ≠ 0 ∧ c = rhs.headD 0 then strcmp lhs rhs.tail else c.toInt - (rhs.headD 0).toInt

/-- `strncmp`: the difference of the first two (signed) characters that differ. -/
def strncmp : CString → CString → Nat → Int
  | _, _, 0 => 0
  | lhs, rhs, count + 1 =>
    let diff := (lhs.headD 0).toInt - (rhs.headD 0).toInt
    if diff ≠ 0 ∨ lhs.headD 0 = 0 ∨ rhs.headD 0 = 0 then diff
    else strncmp lhs.tail rhs.tail count

/-- The bytes of a text. -/
def text (chars : List Char) : CString := chars.map fun c => BitVec.ofNat 8 c.toNat

/-- `%d` of a natural number. -/
def decimal (n : Nat) : CString := text (Nat.toDigits 10 n)

/-- The characters in front of the first NUL. -/
def cstring (s : List Byte) : CString := s.takeWhile (· ≠ 0)

theorem cstring_eq (s : List Byte) :
    cstring s = if s.headD 0 = 0 then [] else s.headD 0 :: cstring s.tail := by
  cases s with
  | nil => rfl
  | cons c s =>
    rw [List.headD_cons, List.tail_cons]
    by_cases h : c = 0
    · rw [if_pos h]
      exact List.takeWhile_cons_of_neg (by simpa using h)
    · rw [if_neg h]
      exact List.takeWhile_cons_of_pos (decide_eq_true h)

/-- `strncmp` finds no difference in strings that agree up to the bound or to their end. -/
theorem strncmp_eq_zero_iff (lhs rhs : CString) (n : Nat) :
    strncmp lhs rhs n = 0 ↔ (cstring lhs).take n = (cstring rhs).take n := by
  induction n generalizing lhs rhs with
  | zero => exact iff_of_true rfl rfl
  | succ n ih =>
    have htail := ih lhs.tail rhs.tail
    rw [strncmp, cstring_eq lhs, cstring_eq rhs]
    generalize lhs.headD 0 = l
    generalize rhs.headD 0 = r
    have hdiff : l.toInt - r.toInt = 0 ↔ l = r := Int.sub_eq_zero.trans BitVec.toInt_inj
    by_cases heq : l = r
    · subst heq
      by_cases hl : l = 0
      · rw [if_pos (Or.inr (Or.inl hl)), if_pos hl, if_pos hl, hdiff]
        exact iff_of_true rfl rfl
      · have hgo : ¬ (l.toInt - l.toInt ≠ 0 ∨ l = 0 ∨ l = 0) := by
          rintro (h | h | h)
          · exact h (hdiff.mpr rfl)
          · exact hl h
          · exact hl h
        rw [if_neg hgo, if_neg hl, if_neg hl, htail, List.take_succ_cons, List.take_succ_cons,
          List.cons_inj_right]
    · rw [if_pos (Or.inl (hdiff.not.mpr heq)), hdiff]
      refine iff_of_false heq fun h => ?_
      by_cases hl : l = 0
      · rw [if_pos hl, if_neg fun hr => heq (hl.trans hr.symm)] at h
        cases h
      by_cases hr : r = 0
      · rw [if_neg hl, if_pos hr] at h
        cases h
      · rw [if_neg hl, if_neg hr] at h
        exact heq (List.cons.inj h).1

end Ohwes

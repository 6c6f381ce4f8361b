import Mathlib.Data.List.Basic
import Mathlib.Logic.Function.Basic

/-! # Stretches of an addressed store

A store maps addresses to values. `slice m a n` reads the `n` values from address `a` on, and
`overlay m a xs` lays the values `xs` over the store from address `a` on. -/

namespace Ohwes.Library
set_option autoImplicit false
variable {α : Type}

def slice (m : Nat → α) (start n : Nat) : List α := (List.range n).map fun i => m (start + i)

def overlay (m : Nat → α) (start : Nat) (xs : List α) : Nat → α :=
  fun a => if a < start then m a else (xs[a - start]?).getD (m a)

@[simp] theorem slice_length (m : Nat → α) (start n : Nat) : (slice m start n).length = n := by
  simp [slice]

@[simp] theorem slice_zero (m : Nat → α) (start : Nat) : slice m start 0 = [] := rfl

theorem slice_getElem? (m : Nat → α) (start n i : Nat) :
    (slice m start n)[i]? = if i < n then some (m (start + i)) else none := by
  by_cases h : i < n
  · simp [slice, h]
  · simp [slice, h]

theorem slice_congr {m m' : Nat → α} {start n : Nat}
    (h : ∀ a, start ≤ a → a < start + n → m a = m' a) : slice m start n = slice m' start n := by
  refine List.map_congr_left fun i hi => h _ (by omega) ?_
  have := List.mem_range.mp hi
  omega

theorem slice_add (m : Nat → α) (start n k : Nat) :
    slice m start (n + k) = slice m start n ++ slice m (start + n) k := by
  rw [slice, List.range_add, List.map_append, List.map_map]
  refine congrArg (slice m start n ++ ·) (List.map_congr_left fun i _ => ?_)
  rw [Function.comp_apply, Nat.add_assoc]

theorem overlay_before (m : Nat → α) {start a : Nat} (xs : List α) (h : a < start) :
    overlay m start xs a = m a := if_pos h

theorem overlay_after (m : Nat → α) {start a : Nat} (xs : List α) (h : start + xs.length ≤ a) :
    overlay m start xs a = m a := by
  rw [overlay, if_neg (by omega), List.getElem?_eq_none (by omega), Option.getD_none]

theorem overlay_inside (m : Nat → α) (start : Nat) {xs : List α} {i : Nat} (h : i < xs.length) :
    overlay m start xs (start + i) = xs[i] := by
  rw [overlay, if_neg (by omega), Nat.add_sub_cancel_left, List.getElem?_eq_getElem h,
    Option.getD_some]

/-- Of a row of values, a part is found where it begins. -/
theorem overlay_part (m : Nat → α) (start : Nat) {pre mid xs : List α} (h : pre ++ mid <+: xs)
    {i : Nat} (hi : i < mid.length) : overlay m start xs (start + pre.length + i) = mid[i] := by
  obtain ⟨post, rfl⟩ := h
  have hlen : pre.length + i < (pre ++ mid ++ post).length := by
    rw [List.length_append, List.length_append]
    omega
  rw [Nat.add_assoc, overlay_inside m start hlen, List.getElem_append_left (by simpa using hi),
    List.getElem_append_right (Nat.le_add_right _ _)]
  simp only [Nat.add_sub_cancel_left]

@[simp] theorem overlay_nil (m : Nat → α) (start : Nat) : overlay m start [] = m := by
  funext a
  simp [overlay]

/-- Laying values over a store and more of them right behind is laying all of them at once. -/
theorem overlay_append (m : Nat → α) (start : Nat) (xs ys : List α) :
    overlay (overlay m start xs) (start + xs.length) ys = overlay m start (xs ++ ys) := by
  funext a
  by_cases h : a < start
  · rw [overlay_before _ _ (by omega), overlay_before _ _ h, overlay_before _ _ h]
  · by_cases hx : a < start + xs.length
    · rw [overlay_before _ _ hx, overlay, overlay, if_neg h, if_neg h,
        List.getElem?_append_left (by omega)]
    · have hsub : a - start - xs.length = a - (start + xs.length) := by omega
      rw [overlay, if_neg hx, overlay_after _ _ (by omega), overlay, if_neg h,
        List.getElem?_append_right (by omega), hsub]

/-- So is laying the ones behind first. -/
theorem overlay_prepend (m : Nat → α) (start : Nat) (xs ys : List α) :
    overlay (overlay m (start + xs.length) ys) start xs = overlay m start (xs ++ ys) := by
  rw [← overlay_append]
  funext a
  by_cases hx : start ≤ a ∧ a < start + xs.length
  · obtain ⟨i, rfl⟩ : ∃ i, a = start + i := ⟨a - start, by omega⟩
    rw [overlay_inside _ start (by omega), overlay_before _ ys hx.2, overlay_inside _ start (by omega)]
  · by_cases ha : a < start
    · rw [overlay_before _ xs ha, overlay_before _ ys (by omega), overlay_before _ ys (by omega),
        overlay_before _ xs ha]
    · have hbehind : ∀ m : Nat → α, overlay m start xs a = m a :=
        fun m => overlay_after m xs (by omega)
      rw [hbehind, overlay, overlay, hbehind]

theorem overlay_singleton (m : Nat → α) (start : Nat) (x : α) :
    overlay m start [x] = Function.update m start x := by
  funext a
  by_cases h : a = start
  · rw [h, Function.update_self]
    have hin : 0 < [x].length := Nat.succ_pos 0
    exact overlay_inside m start hin
  · rw [Function.update_of_ne h]
    rcases Nat.lt_or_gt_of_ne h with hlt | hgt
    · exact overlay_before m [x] hlt
    · exact overlay_after m [x] hgt

/-- What was laid over a store is read back. -/
theorem slice_overlay (m : Nat → α) (start : Nat) (xs : List α) :
    slice (overlay m start xs) start xs.length = xs := by
  refine List.ext_getElem? fun i => ?_
  rw [slice_getElem?]
  split
  · rename_i h
    rw [overlay_inside m start h, List.getElem?_eq_getElem h]
  · rename_i h
    rw [List.getElem?_eq_none (by omega)]

/-- A store with a stretch of it laid over another stretch. -/
theorem overlay_slice_apply (m : Nat → α) (d s n a : Nat) :
    overlay m d (slice m s n) a = if d ≤ a ∧ a < d + n then m (s + (a - d)) else m a := by
  have hlen : (slice m s n).length = n := slice_length m s n
  by_cases h : d ≤ a ∧ a < d + n
  · have hget : (slice m s n)[a - d]? = some (m (s + (a - d))) := by
      rw [slice_getElem?, if_pos (by omega)]
    rw [if_pos h, overlay, if_neg (by omega), hget, Option.getD_some]
  · rw [if_neg h]
    by_cases ha : a < d
    · exact overlay_before m _ ha
    · exact overlay_after m _ (by omega)

/-- A stretch apart from what was laid over the store is as before. -/
theorem slice_overlay_apart (m : Nat → α) {start base n : Nat} (xs : List α)
    (h : base + n ≤ start ∨ start + xs.length ≤ base) :
    slice (overlay m start xs) base n = slice m base n := by
  refine slice_congr fun a ha han => ?_
  rcases h with h | h
  · exact overlay_before m xs (by omega)
  · exact overlay_after m xs (by omega)

/-- Values laid over a store leave it as it was if and only if they were there. -/
theorem overlay_eq_self_iff {m : Nat → α} {start : Nat} {xs : List α} :
    overlay m start xs = m ↔ slice m start xs.length = xs := by
  constructor
  · intro h
    rw [← congrArg (slice · start xs.length) h, slice_overlay]
  · intro h
    funext a
    by_cases hin : start ≤ a ∧ a < start + xs.length
    · have hget := slice_getElem? m start xs.length (a - start)
      rw [h, if_pos (by omega), Nat.add_sub_cancel' hin.1] at hget
      rw [overlay, if_neg (by omega), hget, Option.getD_some]
    · rcases not_and_or.mp hin with hlow | hhigh
      · exact overlay_before m xs (by omega)
      · exact overlay_after m xs (by omega)

/-! ## Two stores -/

theorem slice_eq_slice {m m' : Nat → α} {a b n : Nat} :
    slice m a n = slice m' b n ↔ ∀ k < n, m (a + k) = m' (b + k) := by
  constructor
  · intro h k hk
    have hget := congrArg (·[k]?) h
    simp only [slice_getElem?, if_pos hk] at hget
    exact Option.some.inj hget
  · intro h
    exact List.map_congr_left fun k hk => h k (List.mem_range.mp hk)

/-- Stretches that agree agree in every part. -/
theorem slice_part {m m' : Nat → α} {a b n i k : Nat} (h : slice m a n = slice m' b n)
    (hik : i + k ≤ n) : slice m (a + i) k = slice m' (b + i) k := by
  refine slice_eq_slice.mpr fun j hj => ?_
  have hpart := slice_eq_slice.mp h (i + j) (by omega)
  rwa [← Nat.add_assoc, ← Nat.add_assoc] at hpart

/-- They still agree when the same values are laid over both in the same place. -/
theorem slice_overlay_both {m m' : Nat → α} {a b n : Nat} (h : slice m a n = slice m' b n) (i : Nat)
    (xs : List α) : slice (overlay m (a + i) xs) a n = slice (overlay m' (b + i) xs) b n := by
  refine slice_eq_slice.mpr fun k hk => ?_
  have hk' := slice_eq_slice.mp h k hk
  by_cases hki : k < i
  · rw [overlay_before m xs (Nat.add_lt_add_left hki a), overlay_before m' xs (Nat.add_lt_add_left hki b),
      hk']
  · rw [overlay, overlay, if_neg (by omega), if_neg (by omega), Nat.add_sub_add_left,
      Nat.add_sub_add_left, hk']

/-! ## Several stretches -/

/-- One after the other. -/
def overlayAll (m : Nat → α) (ws : List (Nat × List α)) : Nat → α :=
  ws.foldl (fun m w => overlay m w.1 w.2) m

/-- The stretches have no address in common. -/
def StretchesApart (v w : Nat × List α) : Prop := v.1 + v.2.length ≤ w.1 ∨ w.1 + w.2.length ≤ v.1

theorem slice_overlayAll_apart {m : Nat → α} {base n : Nat} {ws : List (Nat × List α)}
    (h : ∀ w ∈ ws, base + n ≤ w.1 ∨ w.1 + w.2.length ≤ base) :
    slice (overlayAll m ws) base n = slice m base n := by
  induction ws generalizing m with
  | nil => rfl
  | cons w ws ih =>
    refine (ih fun v hv => h v (List.mem_cons_of_mem w hv)).trans ?_
    exact slice_overlay_apart m w.2 (h w (List.mem_cons_self ..))

/-- Of stretches apart, each is read back. -/
theorem slice_overlayAll {m : Nat → α} {ws : List (Nat × List α)} (h : ws.Pairwise StretchesApart)
    {w : Nat × List α} (hw : w ∈ ws) : slice (overlayAll m ws) w.1 w.2.length = w.2 := by
  induction ws generalizing m with
  | nil => cases hw
  | cons v ws ih =>
    obtain ⟨hv, hrest⟩ := List.pairwise_cons.mp h
    obtain rfl | hw := List.mem_cons.mp hw
    · exact (slice_overlayAll_apart fun u hu => hv u hu).trans (slice_overlay m w.1 w.2)
    · exact ih hrest hw

theorem overlayAll_eq_self {m : Nat → α} {ws : List (Nat × List α)}
    (h : ∀ w ∈ ws, slice m w.1 w.2.length = w.2) : overlayAll m ws = m := by
  induction ws with
  | nil => rfl
  | cons w ws ih =>
    have hw := overlay_eq_self_iff.mpr (h w (List.mem_cons_self ..))
    rw [overlayAll, List.foldl_cons, hw]
    exact ih fun v hv => h v (List.mem_cons_of_mem w hv)

theorem overlayAll_eq_self_iff {m : Nat → α} {ws : List (Nat × List α)} (h : ws.Pairwise StretchesApart) :
    overlayAll m ws = m ↔ ∀ w ∈ ws, slice m w.1 w.2.length = w.2 := by
  constructor
  · intro hm w hw
    have hread := slice_overlayAll h hw (m := m)
    rwa [hm] at hread
  · exact overlayAll_eq_self

end Ohwes.Library

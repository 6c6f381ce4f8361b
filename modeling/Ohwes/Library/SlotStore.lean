import Mathlib.Algebra.BigOperators.Group.Finset.Basic
import Mathlib.Algebra.Order.BigOperators.Group.Finset
import Mathlib.Data.Finset.Range

/-! # Values in numbered slots

A store has `cap` slots. Each is free or holds a value under a key. A value is put where its key is,
or else in the first free slot. -/

namespace Ohwes.Library
set_option autoImplicit false

abbrev SlotStore (κ ν : Type) := Nat → Option (κ × ν)

namespace SlotStore
variable {κ ν : Type} [DecidableEq κ] (cap : Nat) (s : SlotStore κ ν)

/-- Whether the slot holds a value under the key. -/
def holds (k : κ) (i : Nat) : Bool := (s i).any fun x => x.1 = k

def find (k : κ) : Option Nat := (List.range cap).find? (s.holds k)

def firstFree : Option Nat := (List.range cap).find? fun i => (s i).isNone

def lookup (k : κ) : Option ν := (s.find cap k).bind fun i => (s i).map Prod.snd

/-- Where a value is put under the key. -/
def place (k : κ) : Option Nat := (s.find cap k).or (s.firstFree cap)

/-- The store with a value in the slot. -/
def put (i : Nat) (k : κ) (v : ν) : SlotStore κ ν := Function.update s i (some (k, v))

omit [DecidableEq κ] in
/-- No key is in two slots. -/
def Distinct (s : SlotStore κ ν) : Prop :=
  ∀ i < cap, ∀ j < cap, ∀ x y, s i = some x → s j = some y → x.1 = y.1 → i = j

variable {cap s} {k k' : κ} {v : ν} {i : Nat}

theorem holds_iff : s.holds k i = true ↔ ∃ v, s i = some (k, v) := by
  rw [holds, Option.any_eq_true]
  constructor
  · rintro ⟨⟨k', v⟩, hs, hk⟩
    rw [decide_eq_true_iff] at hk
    exact ⟨v, hk ▸ hs⟩
  · rintro ⟨v, hs⟩
    exact ⟨(k, v), hs, decide_eq_true rfl⟩

/-- A key that is found is in the slot. -/
theorem find_some (h : s.find cap k = some i) : i < cap ∧ ∃ v, s i = some (k, v) :=
  ⟨List.mem_range.mp (List.mem_of_find?_eq_some h), holds_iff.mp (List.find?_some h)⟩

theorem find_none : s.find cap k = none ↔ ∀ i < cap, ∀ v, s i ≠ some (k, v) := by
  rw [find, List.find?_eq_none]
  constructor
  · intro h i hi v hs
    exact h i (List.mem_range.mpr hi) (holds_iff.mpr ⟨v, hs⟩)
  · intro h i hi hh
    obtain ⟨v, hs⟩ := holds_iff.mp hh
    exact h i (List.mem_range.mp hi) v hs

omit [DecidableEq κ] in
theorem firstFree_some (h : s.firstFree cap = some i) : i < cap ∧ s i = none := by
  refine ⟨List.mem_range.mp (List.mem_of_find?_eq_some h), ?_⟩
  have hnone := List.find?_some (p := fun i => (s i).isNone) h
  exact Option.isNone_iff_eq_none.mp hnone

theorem place_lt (h : s.place cap k = some i) : i < cap := by
  rw [place, Option.or_eq_some_iff] at h
  rcases h with h | ⟨-, h⟩
  · exact (find_some h).1
  · exact (firstFree_some h).1

/-- In a slot of its place there is nothing else. -/
theorem place_only (hs : s.Distinct cap) (h : s.place cap k = some i) :
    ∀ j < cap, j ≠ i → ∀ v, s j ≠ some (k, v) := by
  intro j hj hne v hjk
  rw [place, Option.or_eq_some_iff] at h
  rcases h with h | ⟨h, -⟩
  · obtain ⟨hi, w, hw⟩ := find_some h
    exact hne (hs j hj i hi _ _ hjk hw rfl)
  · exact find_none.mp h j hj v hjk

theorem find_eq_iff (hs : s.Distinct cap) :
    s.find cap k = some i ↔ i < cap ∧ ∃ v, s i = some (k, v) := by
  refine ⟨find_some, fun ⟨hi, v, hv⟩ => ?_⟩
  cases hfind : s.find cap k with
  | none => exact absurd hv (find_none.mp hfind i hi v)
  | some j =>
    obtain ⟨hj, w, hw⟩ := find_some hfind
    rw [hs j hj i hi _ _ hw hv rfl]

theorem lookup_eq_iff (hs : s.Distinct cap) :
    s.lookup cap k = some v ↔ ∃ i < cap, s i = some (k, v) := by
  rw [lookup, Option.bind_eq_some_iff]
  constructor
  · rintro ⟨i, hfind, hv⟩
    obtain ⟨hi, w, hw⟩ := find_some hfind
    rw [hw, Option.map_some] at hv
    exact ⟨i, hi, Option.some.inj hv ▸ hw⟩
  · rintro ⟨i, hi, hv⟩
    exact ⟨i, (find_eq_iff hs).mpr ⟨hi, v, hv⟩, by rw [hv, Option.map_some]⟩

theorem distinct_put (hs : s.Distinct cap) (h : s.place cap k = some i) (v : ν) :
    (s.put i k v).Distinct cap := by
  intro a ha b hb x y hx hy hxy
  rw [put, Function.update_apply] at hx hy
  have hother : ∀ j < cap, j ≠ i → ∀ z, s j = some z → z.1 ≠ k := by
    rintro j hj hne ⟨k', w⟩ hz rfl
    exact place_only hs h j hj hne w hz
  split at hx <;> split at hy
  · rw [‹a = i›, ‹b = i›]
  · obtain rfl := Option.some.inj hx
    exact absurd hxy.symm (hother b hb ‹_› y hy)
  · obtain rfl := Option.some.inj hy
    exact absurd hxy (hother a ha ‹_› x hx)
  · exact hs a ha b hb x y hx hy hxy

/-! ## What the values take -/

/-- The sum of what the values in the slots take. -/
def used (cap : Nat) (s : SlotStore κ ν) (cost : ν → Nat) : Nat :=
  ∑ i ∈ Finset.range cap, (s i).elim 0 fun x => cost x.2

end SlotStore

end Ohwes.Library

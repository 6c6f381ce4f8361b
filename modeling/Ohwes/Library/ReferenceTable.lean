import Mathlib.Data.List.Perm.Subperm
import Mathlib.Logic.Function.Basic

/-! # Tables of references

A table of `n` slots refers to objects, or to nothing (`null`). `Exact` says that the table and a list
of live objects are in bijection: every live object is in exactly one slot, and every slot that is
not empty names a live object. Filling an empty slot with a new object and emptying a slot together
with its object keep it (`Exact.fill`, `Exact.drop`); an object that is live without a slot breaks it
(`not_exact`). -/

namespace Ohwes.Library
set_option autoImplicit false

section Table
variable {ν : Type} {n : Nat} {null : ν} {table : Nat → ν} {live : List ν}

structure Exact (n : Nat) (null : ν) (table : Nat → ν) (live : List ν) : Prop where
  referenced : ∀ x ∈ live, ∃ i, i < n ∧ table i = x ∧ ∀ j, j < n → table j = x → j = i
  allocated : ∀ i, i < n → table i ≠ null → table i ∈ live

theorem not_exact {x : ν} (hx : x ∈ live) (h : ∀ i, i < n → table i ≠ x) :
    ¬ Exact n null table live := by
  intro he
  obtain ⟨i, hi, hix, _⟩ := he.referenced x hx
  exact h i hi hix

namespace Exact

theorem congr {table' : Nat → ν} {live' : List ν} (h : Exact n null table live)
    (ht : ∀ i, table' i = table i) (hl : ∀ x, x ∈ live' ↔ x ∈ live) :
    Exact n null table' live' where
  referenced x hx := by
    obtain ⟨i, hi, hix, huniq⟩ := h.referenced x ((hl x).mp hx)
    refine ⟨i, hi, by rw [ht, hix], fun j hj hjx => huniq j hj ?_⟩
    rw [← ht, hjx]
  allocated i hi h0 := by
    rw [ht] at h0 ⊢
    exact (hl _).mpr (h.allocated i hi h0)

/-- Two slots that name the same object are the same. -/
theorem slot_inj (h : Exact n null table live) {i j : Nat} (hi : i < n) (hj : j < n)
    (h0 : table i ≠ null) (heq : table j = table i) : j = i := by
  obtain ⟨k, _, _, huniq⟩ := h.referenced _ (h.allocated i hi h0)
  rw [huniq i hi rfl, huniq j hj heq]

theorem fill (h : Exact n null table live) {i : Nat} {x : ν} (hi : i < n)
    (hempty : table i = null) (hnull : null ∉ live) (hx0 : x ≠ null) (hx : x ∉ live) :
    Exact n null (Function.update table i x) (x :: live) where
  referenced y hy := by
    obtain rfl | hy := List.mem_cons.mp hy
    · refine ⟨i, hi, Function.update_self .., fun j hj hjy => ?_⟩
      by_contra hne
      rw [Function.update_of_ne hne] at hjy
      have hlive := h.allocated j hj (by rw [hjy]; exact hx0)
      rw [hjy] at hlive
      exact hx hlive
    · obtain ⟨k, hk, hky, huniq⟩ := h.referenced y hy
      have hyx : y ≠ x := fun e => hx (e ▸ hy)
      have hki : k ≠ i := by
        rintro rfl
        rw [hempty] at hky
        exact hnull (hky ▸ hy)
      refine ⟨k, hk, by rw [Function.update_of_ne hki, hky], fun j hj hjy => huniq j hj ?_⟩
      have hji : j ≠ i := by
        rintro rfl
        rw [Function.update_self] at hjy
        exact hyx hjy.symm
      rwa [Function.update_of_ne hji] at hjy
  allocated j hj h0 := by
    by_cases hji : j = i
    · rw [hji, Function.update_self]
      exact List.mem_cons_self ..
    · rw [Function.update_of_ne hji] at h0 ⊢
      exact List.mem_cons_of_mem _ (h.allocated j hj h0)

theorem drop [DecidableEq ν] (h : Exact n null table live) {i : Nat} (hi : i < n)
    (h0 : table i ≠ null) (hnull : null ∉ live) (hnd : live.Nodup) :
    Exact n null (Function.update table i null) (live.erase (table i)) where
  referenced y hy := by
    obtain ⟨hyi, hlive⟩ := (hnd.mem_erase_iff).mp hy
    obtain ⟨k, hk, hky, huniq⟩ := h.referenced y hlive
    have hki : k ≠ i := by
      rintro rfl
      exact hyi hky.symm
    refine ⟨k, hk, by rw [Function.update_of_ne hki, hky], fun j hj hjy => huniq j hj ?_⟩
    have hji : j ≠ i := by
      rintro rfl
      rw [Function.update_self] at hjy
      exact hnull (hjy ▸ hlive)
    rwa [Function.update_of_ne hji] at hjy
  allocated j hj hj0 := by
    have hji : j ≠ i := by
      rintro rfl
      rw [Function.update_self] at hj0
      exact hj0 rfl
    rw [Function.update_of_ne hji] at hj0 ⊢
    refine (hnd.mem_erase_iff).mpr ⟨fun e => hji ?_, h.allocated j hj hj0⟩
    exact h.slot_inj hi hj h0 e

/-- There are no more live objects than slots. -/
theorem length_le (h : Exact n null table live) (hnd : live.Nodup) : live.length ≤ n := by
  have hsub : live ⊆ (List.range n).map table := by
    intro x hx
    obtain ⟨i, hi, hix, _⟩ := h.referenced x hx
    exact List.mem_map.mpr ⟨i, List.mem_range.mpr hi, hix⟩
  have hle := (hnd.subperm hsub).length_le
  rwa [List.length_map, List.length_range] at hle

end Exact

end Table

end Ohwes.Library

import Mathlib.Data.List.Nodup
import Mathlib.Logic.Function.Basic

/-! # Singly linked lists in a table of successors

`next` gives the successor of every cell, and `nil` ends a list. `Linked next nil a l` says that the
cells of `l` are what a walk from `a` passes through before it comes to `nil`. Such a walk has no
cell twice. The three changes a program makes to such a list are an append behind the last cell, the
removal of the first one, and the removal of the one behind another. -/

namespace Ohwes.Library
set_option autoImplicit false

section Linked
variable {ν : Type} {next next' : ν → ν} {nil a b c x y : ν} {l l' l₁ l₂ : List ν}

/-- From `a` a walk along `next` passes through the cells of the list and arrives at the last
argument. -/
def Segment (next : ν → ν) : ν → List ν → ν → Prop
  | a, [], b => a = b
  | a, x :: l, b => a = x ∧ Segment next (next x) l b

theorem segment_append_cons :
    Segment next a (l₁ ++ x :: l₂) c ↔ Segment next a l₁ x ∧ Segment next (next x) l₂ c := by
  induction l₁ generalizing a with
  | nil => exact Iff.rfl
  | cons y l₁ ih =>
    rw [List.cons_append, Segment, Segment, ih, and_assoc]

/-- A walk depends on the successors of the cells it passes. -/
theorem Segment.congr (h : Segment next a l b) (heq : ∀ x ∈ l, next' x = next x) :
    Segment next' a l b := by
  induction l generalizing a with
  | nil => exact h
  | cons x l ih =>
    obtain ⟨rfl, h⟩ := h
    refine ⟨rfl, ?_⟩
    rw [heq a List.mem_cons_self]
    exact ih h fun x hx => heq x (List.mem_cons_of_mem _ hx)

theorem Segment.update [DecidableEq ν] (h : Segment next a l b) (hx : x ∉ l) :
    Segment (Function.update next x y) a l b :=
  h.congr fun z hz => by
    have hzx : z ≠ x := fun he => hx (he ▸ hz)
    exact Function.update_of_ne hzx ..

variable (next nil a l) in
/-- The list of the cells from `a` on. -/
structure Linked : Prop where
  segment : Segment next a l nil
  nil_notMem : nil ∉ l

theorem linked_nil : Linked next nil nil [] := ⟨rfl, List.not_mem_nil⟩

theorem linked_cons : Linked next nil a (x :: l) ↔ a = x ∧ x ≠ nil ∧ Linked next nil (next x) l := by
  constructor
  · rintro ⟨⟨rfl, h⟩, hnil⟩
    rw [List.mem_cons, not_or] at hnil
    exact ⟨rfl, Ne.symm hnil.1, h, hnil.2⟩
  · rintro ⟨rfl, hx, h⟩
    exact ⟨⟨rfl, h.segment⟩, List.not_mem_cons_of_ne_of_not_mem hx.symm h.nil_notMem⟩

theorem Linked.eq_nil_iff (h : Linked next nil a l) : a = nil ↔ l = [] := by
  cases l with
  | nil => exact iff_of_true h.segment rfl
  | cons x l =>
    obtain ⟨rfl, hx, -⟩ := linked_cons.mp h
    exact iff_of_false hx (List.cons_ne_nil _ _)

theorem Linked.unique (h : Linked next nil a l) (h' : Linked next nil a l') : l = l' := by
  induction l generalizing a l' with
  | nil => exact (h'.eq_nil_iff.mp h.segment).symm
  | cons x l ih =>
    obtain ⟨rfl, hx, ht⟩ := linked_cons.mp h
    cases l' with
    | nil => exact absurd h'.segment hx
    | cons y l' =>
      obtain ⟨rfl, -, ht'⟩ := linked_cons.mp h'
      rw [ih ht ht']

theorem Linked.suffix (h : Linked next nil a (l₁ ++ x :: l₂)) : Linked next nil x (x :: l₂) := by
  exact ⟨⟨rfl, (segment_append_cons.mp h.segment).2⟩,
    fun hmem => h.nil_notMem (List.mem_append_right _ hmem)⟩

theorem Linked.nodup (h : Linked next nil a l) : l.Nodup := by
  induction l generalizing a with
  | nil => exact List.nodup_nil
  | cons x l ih =>
    obtain ⟨rfl, -, ht⟩ := linked_cons.mp h
    refine List.nodup_cons.mpr ⟨fun hmem => ?_, ih ht⟩
    -- a walk that comes back to its start would have a shorter walk from there
    obtain ⟨l₁, l₂, rfl⟩ := List.mem_iff_append.mp hmem
    have hlen := congrArg List.length (h.unique ht.suffix)
    simp only [List.length_cons, List.length_append] at hlen
    omega

variable [DecidableEq ν]

theorem linked_singleton (hx : x ≠ nil) : Linked (Function.update next x nil) nil x [x] := by
  rw [linked_cons, Function.update_self]
  exact ⟨rfl, hx, linked_nil⟩

/-- A cell behind the last one. -/
theorem Linked.append (h : Linked next nil a (l ++ [y])) (hx : x ∉ l ++ [y]) (hnil : x ≠ nil) :
    Linked (Function.update (Function.update next y x) x nil) nil a ((l ++ [y]) ++ [x]) := by
  obtain ⟨hl, -⟩ := segment_append_cons.mp h.segment
  have hy : y ∉ l := fun hmem => List.disjoint_of_nodup_append h.nodup hmem List.mem_cons_self
  have hxy : y ≠ x := fun he => hx (he ▸ List.mem_append_right _ List.mem_cons_self)
  have hfront : Segment (Function.update (Function.update next y x) x nil) a l y :=
    (hl.update hy).update fun hmem => hx (List.mem_append_left _ hmem)
  refine ⟨segment_append_cons.mpr ⟨segment_append_cons.mpr ⟨hfront, ?_⟩, ?_⟩, ?_⟩
  · show Function.update (Function.update next y x) x nil y = x
    rw [Function.update_of_ne hxy, Function.update_self]
  · exact Function.update_self ..
  · rw [List.mem_append, List.mem_singleton, not_or]
    exact ⟨h.nil_notMem, hnil.symm⟩

/-- Without its first cell, which is left with no successor. -/
theorem Linked.tail (h : Linked next nil a (x :: l)) :
    Linked (Function.update next x nil) nil (next x) l := by
  obtain ⟨-, -, ht⟩ := linked_cons.mp h
  exact ⟨ht.segment.update (List.nodup_cons.mp h.nodup).1, ht.nil_notMem⟩

/-- Without the cell behind `y`. -/
theorem Linked.unlink (h : Linked next nil a (l₁ ++ y :: x :: l₂)) :
    Linked (Function.update next y (next x)) nil a (l₁ ++ y :: l₂) := by
  obtain ⟨hl, hyx, hrest⟩ := segment_append_cons.mp h.segment
  have hnodup := h.nodup
  rw [List.nodup_append] at hnodup
  obtain ⟨-, hback, hapart⟩ := hnodup
  have hy : y ∉ l₁ := fun hmem => hapart y hmem y List.mem_cons_self rfl
  have hy₂ : y ∉ l₂ := fun hmem =>
    (List.nodup_cons.mp hback).1 (List.mem_cons_of_mem _ hmem)
  refine ⟨segment_append_cons.mpr ⟨hl.update hy, ?_⟩, fun hmem => h.nil_notMem ?_⟩
  · rw [Function.update_self]
    exact hrest.update hy₂
  · simp only [List.mem_append, List.mem_cons] at hmem ⊢
    tauto

end Linked

end Ohwes.Library

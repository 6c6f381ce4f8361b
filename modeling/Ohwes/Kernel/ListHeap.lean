import Ohwes.Kernel.List
import Ohwes.Library.CircularHeap

/-! # `kernel/list.c`: several lists in one memory

The pools, the dentries, the drivers and the I/O ranges keep their nodes in lists of their own, all
of them changed by the same functions. -/

namespace Ohwes
set_option autoImplicit false
open Library

section ListHeap
variable {ν : Type} [DecidableEq ν]

/-- Every node is on a list, and lists that have a node in common are one list. -/
structure Parted (h : Links ν) (S : Set ν) : Prop where
  listed : ∀ b ∈ S, OnList h b b
  disjoint : ∀ b c y, OnList h b y → OnList h c y → ∀ z, OnList h b z ↔ OnList h c z

/-- `x` has been put on the list of `a`. -/
structure Added (h h' : Links ν) (S : Set ν) (a x : ν) : Prop where
  wellFormed : WellFormed h' (insert x S)
  parted : Parted h' (insert x S)
  order : Rearranged h h' S x
  lists : ∀ b ∈ S, b ≠ x → ∀ c ≠ x, (OnList h' b c ↔ OnList h b c)
  list : ∀ b ∈ S, b ≠ x → (OnList h' b x ↔ OnList h b a)
  untouched : ∀ y ≠ x, ¬ OnList h a y → h'.next y = h.next y ∧ h'.prev y = h.prev y

/-- `x` has been taken out of its list. -/
structure Removed (h h' : Links ν) (S : Set ν) (x : ν) : Prop where
  wellFormed : WellFormed h' S
  parted : Parted h' S
  alone : Circular h' x []
  order : Rearranged h h' S x
  lists : ∀ b ∈ S, b ≠ x → ∀ c ≠ x, (OnList h' b c ↔ OnList h b c)
  untouched : ∀ y, ¬ OnList h x y → h'.next y = h.next y ∧ h'.prev y = h.prev y

variable {h : Links ν} {S : Set ν} {a x p : ν}

theorem parted_of_wellFormed (wf : WellFormed h S) : Parted h S := by
  constructor
  · intro b hb
    exact wf.onList_self hb
  · intro b c y hby hcy z
    constructor
    · intro hbz
      exact (hcy.trans hby.symm).trans hbz
    · intro hcz
      exact (hby.trans hcy.symm).trans hcz

/-- An insertion between `p` and its successor, of which `a` is one. -/
theorem insertIntoList_added (wf : WellFormed h S) (hp : p ∈ S) (hap : OnList h a p)
    (han : OnList h a (h.next p)) (hfree : x ∈ S → h.next x = x) (hpx : p ≠ x) :
    Added h (insertIntoList h p (h.next p) x) S a x := by
  have hwf : WellFormed (insertIntoList h p (h.next p) x) (insert x S) := wf.splice hp hfree hpx
  have horder : Rearranged h (insertIntoList h p (h.next p) x) S x := wf.splice_rearranged hp hfree
  refine ⟨hwf, parted_of_wellFormed hwf, horder, ?_, ?_, ?_⟩
  · intro b hb hbx c hcx
    exact horder.onList_iff wf hb hbx hcx
  · intro b hb hbx
    have hlist : OnList (insertIntoList h p (h.next p) x) b x ↔ OnList h b p :=
      wf.splice_onList hp hfree hb hbx
    rw [hlist]
    exact ⟨fun hbp => hbp.trans hap.symm, fun hba => hba.trans hap⟩
  · intro y hyx hy
    exact h.splice_of_ne (fun e => hy (e ▸ hap)) (fun e => hy (e ▸ han)) hyx

theorem listAdd_added (wf : WellFormed h S) (ha : a ∈ S) (hxa : x ≠ a)
    (hfree : x ∈ S → h.next x = x) :
    Added h (listAdd h a x) S a x ∧ Adjacent (listAdd h a x) x a := by
  have hnext := wf.next_prev a ha
  have hpx : h.prev a ≠ x := by
    rintro rfl
    exact hxa ((hfree (wf.prev_mem a ha)).symm.trans hnext)
  have hap := wf.onList_prev ha
  have han : OnList h a (h.next (h.prev a)) := by
    rw [hnext]
    exact wf.onList_self ha
  have hadded := insertIntoList_added wf (wf.prev_mem a ha) hap han hfree hpx
  rw [hnext] at hadded
  refine ⟨hadded, ?_, ?_⟩
  · simp [listAdd, insertIntoList]
  · simp [listAdd, insertIntoList, Ne.symm hxa]

theorem listAddTail_added (wf : WellFormed h S) (ha : a ∈ S) (hxa : x ≠ a)
    (hfree : x ∈ S → h.next x = x) :
    Added h (listAddTail h a x) S a x ∧ Adjacent (listAddTail h a x) a x := by
  have hadded :=
    insertIntoList_added wf ha (wf.onList_self ha) (wf.onList_next ha) hfree (Ne.symm hxa)
  refine ⟨hadded, ?_, ?_⟩
  · simp [listAddTail, insertIntoList, Ne.symm hxa]
  · simp [listAddTail, insertIntoList]

theorem listRemove_removed (wf : WellFormed h S) (hx : x ∈ S) :
    Removed h (listRemove h x) S x := by
  have hwf : WellFormed (listRemove h x) S := wf.unlink hx
  have horder : Rearranged h (listRemove h x) S x := wf.unlink_rearranged hx
  refine ⟨hwf, parted_of_wellFormed hwf, Circular.unlink_alone h _ _ x, horder, ?_, ?_⟩
  · intro b hb hbx c hcx
    exact horder.onList_iff wf hb hbx hcx
  · intro y hy
    refine h.unlink_of_ne ?_ ?_ ?_
    · rintro rfl
      exact hy (wf.onList_prev hx)
    · rintro rfl
      exact hy (wf.onList_next hx)
    · rintro rfl
      exact hy (wf.onList_self hx)

/-- A node that is in no list or alone on its own goes next to any other node, and any node can be
taken out of its list; all else stays in its order. -/
theorem list_operations (wf : WellFormed h S) :
    (∀ a ∈ S, ∀ x ≠ a, (x ∈ S → h.next x = x) →
      (Added h (listAdd h a x) S a x ∧ Adjacent (listAdd h a x) x a) ∧
      (Added h (listAddTail h a x) S a x ∧ Adjacent (listAddTail h a x) a x)) ∧
    ∀ x ∈ S, Removed h (listRemove h x) S x := by
  constructor
  · intro a ha x hxa hfree
    exact ⟨listAdd_added wf ha hxa hfree, listAddTail_added wf ha hxa hfree⟩
  · intro x hx
    exact listRemove_removed wf hx

/-- Nodes 0 and 1 are on one list, node 2 is on none. -/
def pairLinks : Links (Fin 3) where
  prev i := if i = 0 then 1 else if i = 1 then 0 else 2
  next i := if i = 0 then 1 else if i = 1 then 0 else 2

theorem pairLinks_wellFormed : WellFormed pairLinks {0, 1} := by
  constructor
  · rintro a (rfl | rfl) <;> decide
  · rintro a (rfl | rfl) <;> decide
  · rintro a (rfl | rfl) <;> rfl
  · rintro a (rfl | rfl) <;> rfl
  · rintro a (rfl | rfl)
    · exact ⟨2, by decide, rfl⟩
    · exact ⟨2, by decide, rfl⟩

/-- Node 2 goes in front of node 0, and node 1 is taken out. -/
theorem list_operations_pair :
    (Added pairLinks (listAdd pairLinks 0 2) {0, 1} 0 2 ∧ Adjacent (listAdd pairLinks 0 2) 2 0) ∧
    Removed pairLinks (listRemove pairLinks 1) {0, 1} 1 := by
  have hadd := (list_operations pairLinks_wellFormed).1 0 (.inl rfl) 2 (by decide) fun _ => rfl
  exact ⟨hadd.1, (list_operations pairLinks_wellFormed).2 1 (.inr rfl)⟩

/-! ## Any number of operations -/

/-- What the functions of `list.c` make of the links and of the set of nodes that are in lists. -/
inductive ListStep : Links ν × Set ν → Links ν × Set ν → Prop where
  | init (h : Links ν) (S : Set ν) (x : ν) (hfree : x ∈ S → h.next x = x) :
      ListStep (h, S) (listInit h x, insert x S)
  | add (h : Links ν) (S : Set ν) (a x : ν) (ha : a ∈ S) (hxa : x ≠ a)
      (hfree : x ∈ S → h.next x = x) : ListStep (h, S) (listAdd h a x, insert x S)
  | addTail (h : Links ν) (S : Set ν) (a x : ν) (ha : a ∈ S) (hxa : x ≠ a)
      (hfree : x ∈ S → h.next x = x) : ListStep (h, S) (listAddTail h a x, insert x S)
  | remove (h : Links ν) (S : Set ν) (x : ν) (hx : x ∈ S) : ListStep (h, S) (listRemove h x, S)

theorem ListStep.wellFormed {s t : Links ν × Set ν} (hst : ListStep s t)
    (wf : WellFormed s.1 s.2) : WellFormed t.1 t.2 := by
  cases hst with
  | init h S x hfree => exact wf.loop hfree
  | add h S a x ha hxa hfree => exact (listAdd_added wf ha hxa hfree).1.wellFormed
  | addTail h S a x ha hxa hfree => exact (listAddTail_added wf ha hxa hfree).1.wellFormed
  | remove h S x hx => exact (listRemove_removed wf hx).wellFormed

/-- Lists built by these functions from nothing are well formed at any time. -/
theorem wellFormed_of_empty {h : Links ν} {t : Links ν × Set ν}
    (hrun : Relation.ReflTransGen ListStep (h, ∅) t) : WellFormed t.1 t.2 := by
  induction hrun with
  | refl => exact WellFormed.of_circular fun a ha => absurd ha (Set.notMem_empty a)
  | tail _ hstep ih => exact hstep.wellFormed ih

end ListHeap

end Ohwes

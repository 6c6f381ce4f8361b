import Ohwes.Library.CircularList

/-! # `kernel/list.c`: the kernel's doubly linked lists

The functions of `list.c` on the links of all nodes, with the pointer writes in the order of the
source. `listAdd` puts an item in front of the head, so at the end of the iteration order, and
`listAddTail` behind it, so at its start (the header names them the other way round from what
`tail` suggests). -/

namespace Ohwes
set_option autoImplicit false
open Library

variable {ν : Type} [DecidableEq ν]

def insertIntoList (h : Links ν) (prev next item : ν) : Links ν :=
  let h := h.setPrev next item
  let h := h.setNext prev item
  let h := h.setPrev item prev
  h.setNext item next

def removeFromList (h : Links ν) (prev next item : ν) : Links ν :=
  let h := h.setPrev next prev
  let h := h.setNext prev next
  let h := h.setPrev item item
  h.setNext item item

def listInit (h : Links ν) (head : ν) : Links ν :=
  let h := h.setPrev head head
  h.setNext head head

def listEmpty (h : Links ν) (head : ν) : Bool := h.next head = head

def listAdd (h : Links ν) (head item : ν) : Links ν := insertIntoList h (h.prev head) head item

def listAddTail (h : Links ν) (head item : ν) : Links ν :=
  insertIntoList h head (h.next head) item

def listRemove (h : Links ν) (item : ν) : Links ν :=
  removeFromList h (h.prev item) (h.next item) item

/-- The positions `list_iterator` goes through, `fuel` of them at most. -/
def listIterator (h : Links ν) (head : ν) (fuel : Nat) : List ν :=
  Circular.visit h head fuel (h.next head)

/-! ## What they do to a cycle -/

section Cycle
variable {h : Links ν} {a x : ν} {l l₁ l₂ : List ν}

theorem listInit_circular (h : Links ν) (a : ν) : Circular (listInit h a) a [] := Circular.loop h a

theorem listEmpty_eq (hc : Circular h a l) : listEmpty h a = l.isEmpty := by
  rw [Bool.eq_iff_iff, listEmpty, decide_eq_true_eq, hc.next_head_eq_iff, List.isEmpty_iff]

theorem listIterator_eq {fuel : Nat} (hc : Circular h a l) (hf : l.length < fuel) :
    listIterator h a fuel = l := by
  have hc' : Circular h a ([] ++ l) := hc
  rw [listIterator, hc.next_head]
  exact Circular.visit_eq [] l fuel hc' hf

/-- `list_add` on the head: the item comes last. -/
theorem listAdd_circular (hc : Circular h a l) (hx : x ∉ a :: l) :
    Circular (listAdd h a x) a (l ++ [x]) := by
  have hc' : Circular h a (l ++ []) := by simpa using hc
  exact hc'.splice (by simpa using hx) hc.prev_head (by simp)

/-- `list_add_tail` on the head: the item comes first. -/
theorem listAddTail_circular (hc : Circular h a l) (hx : x ∉ a :: l) :
    Circular (listAddTail h a x) a (x :: l) := by
  have hc' : Circular h a ([] ++ l) := hc
  exact hc'.splice hx (by simp) hc.next_head

theorem listRemove_circular (hc : Circular h a (l₁ ++ x :: l₂)) :
    Circular (listRemove h x) a (l₁ ++ l₂) := hc.unlink.1

/-- An insertion at the head writes only links of the cycle and of the new item. -/
theorem listAdd_of_notMem (hc : Circular h a l) {y : ν} (hy : y ∉ a :: l) (hyx : y ≠ x) :
    (listAdd h a x).next y = h.next y ∧ (listAdd h a x).prev y = h.prev y := by
  have hp : h.prev a ∈ a :: (l ++ []) := mem_of_getLast hc.prev_head
  rw [List.append_nil] at hp
  exact h.splice_of_ne (fun e => hy (e ▸ hp)) (fun e => hy (e ▸ List.mem_cons_self ..)) hyx

theorem listAddTail_of_notMem (hc : Circular h a l) {y : ν} (hy : y ∉ a :: l) (hyx : y ≠ x) :
    (listAddTail h a x).next y = h.next y ∧ (listAddTail h a x).prev y = h.prev y := by
  have hn : h.next a ∈ a :: ([] ++ l) := mem_of_head hc.next_head
  exact h.splice_of_ne (fun e => hy (e ▸ List.mem_cons_self ..)) (fun e => hy (e ▸ hn)) hyx

theorem listRemove_of_notMem (hc : Circular h a (l₁ ++ x :: l₂)) {y : ν}
    (hy : y ∉ a :: (l₁ ++ x :: l₂)) :
    (listRemove h x).next y = h.next y ∧ (listRemove h x).prev y = h.prev y := by
  have hp : h.prev x ∈ a :: (l₁ ++ x :: l₂) := mem_of_getLast hc.prev_item
  have hn : h.next x ∈ a :: ((l₁ ++ [x]) ++ l₂) := mem_of_head hc.next_item
  have hx : x ∈ a :: (l₁ ++ x :: l₂) := by simp
  refine h.unlink_of_ne (fun e => hy (e ▸ hp)) (fun e => hy ?_) (fun e => hy (e ▸ hx))
  rw [e]
  simpa using hn

end Cycle

end Ohwes

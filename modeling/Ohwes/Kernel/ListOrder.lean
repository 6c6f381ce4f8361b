import Ohwes.Kernel.List

/-! # The order of a list

The test of the lists has `list_add` put an item in front of all others and `list_add_tail` behind
them. `list.c` has it the other way round: what is visited is the mirror image of that order. -/

namespace Ohwes
set_option autoImplicit false
open Library

/-- A call on a list; `list_remove` of the head, as in the test, empties the list. -/
inductive ListOp (ν : Type) where
  | add (item : ν)
  | addTail (item : ν)
  | remove (item : ν)

section Order
variable {ν : Type} [DecidableEq ν]

def listStep (head : ν) (h : Links ν) : ListOp ν → Links ν
  | .add x => listAdd h head x
  | .addTail x => listAddTail h head x
  | .remove x => listRemove h x

/-- The items in the order that the test expects, and the items that `list_remove` has taken out. -/
structure Ordered (ν : Type) where
  items : List ν
  out : List ν

def Ordered.empty : Ordered ν := ⟨[], []⟩

def orderStep (head : ν) (o : Ordered ν) : ListOp ν → Ordered ν
  | .add x => ⟨x :: o.items, o.out.filter (· ≠ x)⟩
  | .addTail x => ⟨o.items ++ [x], o.out.filter (· ≠ x)⟩
  | .remove x => if x = head then ⟨[], o.out⟩ else ⟨o.items.erase x, x :: o.out⟩

/-- An item is added while it is not in the list, and removed while it is, or once more. -/
def Proper (head : ν) (o : Ordered ν) : ListOp ν → Prop
  | .add x | .addTail x => x ≠ head ∧ x ∉ o.items
  | .remove x => x = head ∨ x ∈ o.items ∨ x ∈ o.out

def ProperRun (head : ν) : Ordered ν → List (ListOp ν) → Prop
  | _, [] => True
  | o, op :: ops => Proper head o op ∧ ProperRun head (orderStep head o op) ops

/-- The walk of `list_iterator` ends, and visits the items in this order. -/
def Visits (h : Links ν) (head : ν) (items : List ν) : Prop :=
  ∃ n, ∀ fuel ≥ n, listIterator h head fuel = items

theorem visits_of_circular {h : Links ν} {head : ν} {l : List ν} (hc : Circular h head l) :
    Visits h head l :=
  ⟨l.length + 1, fun _ hfuel => listIterator_eq hc hfuel⟩

theorem Visits.unique {h : Links ν} {head : ν} {l l' : List ν} (hl : Visits h head l)
    (hl' : Visits h head l') : l = l' := by
  obtain ⟨n, hn⟩ := hl
  obtain ⟨m, hm⟩ := hl'
  rw [← hn (max n m) (Nat.le_max_left n m), hm (max n m) (Nat.le_max_right n m)]

/-! ## The invariant -/

/-- The cycle has the items in reverse; an item that was taken out points to itself. -/
structure ListMirrors (h : Links ν) (head : ν) (o : Ordered ν) : Prop where
  cycle : Circular h head o.items.reverse
  loose : ∀ x ∈ o.out, x ∉ head :: o.items ∧ h.next x = x ∧ h.prev x = x

namespace ListMirrors
variable {h : Links ν} {head x : ν} {o : Ordered ν}

omit [DecidableEq ν] in
theorem mem_cycle {y : ν} : y ∈ head :: o.items.reverse ↔ y ∈ head :: o.items := by
  rw [List.mem_cons, List.mem_cons, List.mem_reverse]

omit [DecidableEq ν] in
theorem nodup (hm : ListMirrors h head o) : o.items.Nodup := List.nodup_reverse.mp hm.cycle.items_nodup

/-- An insertion leaves the items alone that were taken out. -/
theorem loose_insert (hm : ListMirrors h head o) {h' : Links ν} {items : List ν}
    (hitems : ∀ y ∈ items, y = x ∨ y ∈ o.items)
    (hsame : ∀ y, y ∉ head :: o.items.reverse → y ≠ x → h'.next y = h.next y ∧ h'.prev y = h.prev y) :
    ∀ y ∈ o.out.filter (· ≠ x), y ∉ head :: items ∧ h'.next y = y ∧ h'.prev y = y := by
  intro y hy
  obtain ⟨hy, hyx⟩ := List.mem_filter.mp hy
  have hyx : y ≠ x := of_decide_eq_true hyx
  obtain ⟨hout, hnext, hprev⟩ := hm.loose y hy
  obtain ⟨hn, hp⟩ := hsame y (fun hmem => hout (mem_cycle.mp hmem)) hyx
  rw [List.mem_cons, not_or] at hout ⊢
  exact ⟨⟨hout.1, fun hmem => hout.2 ((hitems y hmem).resolve_left hyx)⟩, hn.trans hnext,
    hp.trans hprev⟩

theorem add (hm : ListMirrors h head o) (hx : x ∉ head :: o.items) :
    ListMirrors (listAdd h head x) head ⟨x :: o.items, o.out.filter (· ≠ x)⟩ where
  cycle := by
    rw [List.reverse_cons]
    exact listAdd_circular hm.cycle fun hmem => hx (mem_cycle.mp hmem)
  loose := hm.loose_insert (fun _ hy => List.mem_cons.mp hy)
    fun _ hy hyx => listAdd_of_notMem hm.cycle hy hyx

theorem addTail (hm : ListMirrors h head o) (hx : x ∉ head :: o.items) :
    ListMirrors (listAddTail h head x) head ⟨o.items ++ [x], o.out.filter (· ≠ x)⟩ where
  cycle := by
    rw [List.reverse_append, List.reverse_singleton, List.singleton_append]
    exact listAddTail_circular hm.cycle fun hmem => hx (mem_cycle.mp hmem)
  loose := hm.loose_insert
    (fun _ hy => (List.mem_append.mp hy).symm.imp_left List.mem_singleton.mp)
    fun _ hy hyx => listAddTail_of_notMem hm.cycle hy hyx

theorem removeItem (hm : ListMirrors h head o) (hx : x ∈ o.items) :
    ListMirrors (listRemove h x) head ⟨o.items.erase x, x :: o.out⟩ := by
  obtain ⟨l₁, l₂, hsplit⟩ := List.append_of_mem hx
  have hcycle : Circular h head (l₂.reverse ++ x :: l₁.reverse) := by
    have := hm.cycle
    rw [hsplit] at this
    simpa using this
  have hx₁ : x ∉ l₁ := by
    have hnodup := hm.nodup
    rw [hsplit] at hnodup
    exact fun hmem => (List.nodup_append.mp hnodup).2.2 x hmem x List.mem_cons_self rfl
  have herase : o.items.erase x = l₁ ++ l₂ := by
    rw [hsplit, List.erase_append_right _ hx₁, List.erase_cons_head]
  constructor
  case cycle =>
    rw [herase, List.reverse_append]
    exact listRemove_circular hcycle
  case loose =>
    intro y hy
    rcases List.mem_cons.mp hy with rfl | hy
    · have hself := hcycle.unlink.2
      refine ⟨?_, hself.next_head, hself.prev_head⟩
      have hne : y ≠ head := fun heq => hm.cycle.head_notMem (List.mem_reverse.mpr (heq ▸ hx))
      rw [List.mem_cons, not_or]
      exact ⟨hne, hm.nodup.not_mem_erase⟩
    · obtain ⟨hout, hnext, hprev⟩ := hm.loose y hy
      have hsame := listRemove_of_notMem hcycle (y := y) fun hmem => hout (by
        rw [hsplit]
        simpa [or_comm, or_left_comm, or_assoc] using hmem)
      refine ⟨fun hmem => hout ?_, hsame.1.trans hnext, hsame.2.trans hprev⟩
      rcases List.mem_cons.mp hmem with rfl | hmem
      · exact List.mem_cons_self
      · exact List.mem_cons_of_mem _ (List.mem_of_mem_erase hmem)

/-- Taking the head out leaves it alone; the items keep their links to each other. -/
theorem removeHead (hm : ListMirrors h head o) : ListMirrors (listRemove h head) head ⟨[], o.out⟩ where
  cycle := Circular.loop _ head
  loose y hy := by
    obtain ⟨hout, hnext, hprev⟩ := hm.loose y hy
    have hne : ∀ z ∈ head :: o.items.reverse, y ≠ z := fun z hz heq =>
      hout (mem_cycle.mp (heq ▸ hz))
    have hp : h.prev head ∈ head :: (o.items.reverse ++ []) := mem_of_getLast hm.cycle.prev_head
    have hn : h.next head ∈ head :: ([] ++ o.items.reverse) := mem_of_head hm.cycle.next_head
    rw [List.append_nil] at hp
    have hsame := h.unlink_of_ne (hne _ hp) (hne _ hn) (hne head List.mem_cons_self)
    refine ⟨?_, hsame.1.trans hnext, hsame.2.trans hprev⟩
    rw [List.mem_singleton]
    exact hne head List.mem_cons_self

/-- Taking an item out once more changes nothing. -/
theorem removeLoose (hm : ListMirrors h head o) (hx : x ∈ o.out) (hin : x ∉ o.items) :
    ListMirrors (listRemove h x) head ⟨o.items.erase x, x :: o.out⟩ := by
  obtain ⟨hout, hnext, hprev⟩ := hm.loose x hx
  have hsame : listRemove h x = h := by
    have hp : Function.update h.prev x x = h.prev := Function.update_eq_self_iff.mpr hprev.symm
    have hn : Function.update h.next x x = h.next := Function.update_eq_self_iff.mpr hnext.symm
    rw [listRemove, removeFromList, hnext, hprev]
    simp only [Links.setPrev, Links.setNext, hp, hn]
  rw [hsame, List.erase_of_not_mem hin]
  refine ⟨hm.cycle, fun y hy => ?_⟩
  rcases List.mem_cons.mp hy with rfl | hy
  · exact ⟨hout, hnext, hprev⟩
  · exact hm.loose y hy

/-- **The step lemma.** -/
theorem step {op : ListOp ν} (hm : ListMirrors h head o) (hop : Proper head o op) :
    ListMirrors (listStep head h op) head (orderStep head o op) := by
  cases op with
  | add x =>
    refine hm.add ?_
    rw [List.mem_cons, not_or]
    exact hop
  | addTail x =>
    refine hm.addTail ?_
    rw [List.mem_cons, not_or]
    exact hop
  | remove x =>
    rw [orderStep, listStep]
    by_cases hhead : x = head
    · rw [if_pos hhead, hhead]
      exact hm.removeHead
    · rw [if_neg hhead]
      by_cases hin : x ∈ o.items
      · exact hm.removeItem hin
      · exact hm.removeLoose ((hop.resolve_left hhead).resolve_left hin) hin

theorem run (ops : List (ListOp ν)) (hm : ListMirrors h head o) (hops : ProperRun head o ops) :
    ListMirrors (ops.foldl (listStep head) h) head (ops.foldl (orderStep head) o) := by
  induction ops generalizing h o with
  | nil => exact hm
  | cons op ops ih => exact ih (hm.step hops.1) hops.2

end ListMirrors

/-! ## The order -/

omit [DecidableEq ν] in
/-- A list without repetitions is its own mirror image if it has one item at most. -/
theorem reverse_eq_self_iff {l : List ν} (hl : l.Nodup) : l.reverse = l ↔ l.length ≤ 1 := by
  match l with
  | [] => simp
  | [x] => simp
  | x :: y :: l =>
    refine iff_of_false (fun heq => ?_) (by simp)
    have hlast : (x :: y :: l).reverse.head? = some x := by rw [heq]; rfl
    rw [List.head?_reverse, List.getLast?_cons_cons] at hlast
    exact (List.nodup_cons.mp hl).1 (List.mem_of_getLast? hlast)

/-- From an empty list on, the items are visited in the order of the test if and only if there is at
most one. -/
theorem list_order_iff (links : Links ν) (head : ν) (ops : List (ListOp ν))
    (hops : ProperRun head .empty ops) :
    Visits (ops.foldl (listStep head) (listInit links head)) head
        (ops.foldl (orderStep head) .empty).items ↔
      (ops.foldl (orderStep head) .empty).items.length ≤ 1 := by
  have hm : ListMirrors (listInit links head) head .empty := ⟨listInit_circular links head, nofun⟩
  have hrun := hm.run ops hops
  rw [← reverse_eq_self_iff hrun.nodup]
  have hvisits := visits_of_circular hrun.cycle
  exact ⟨fun hv => hvisits.unique hv, fun heq => heq ▸ hvisits⟩

end Order

/-- An item that comes and goes, and another one. -/
theorem list_order_single :
    Visits ([ListOp.add 1, .remove 1, .remove 1, .addTail 2].foldl (listStep 0)
      (listInit ⟨fun _ => 0, fun _ => 0⟩ 0)) 0 [2] :=
  (list_order_iff ⟨fun _ => 0, fun _ => 0⟩ 0 [.add 1, .remove 1, .remove 1, .addTail 2]
    ⟨⟨by decide, by decide⟩, Or.inr (Or.inl (by decide)), Or.inr (Or.inr (by decide)),
      ⟨by decide, by decide⟩, trivial⟩).mpr (by decide)

/-- The second item that `list_add` puts in front is visited behind the first. -/
theorem list_order_two :
    ¬ Visits ([ListOp.add 1, .add 2].foldl (listStep 0) (listInit ⟨fun _ => 0, fun _ => 0⟩ 0)) 0
      ([ListOp.add 1, .add 2].foldl (orderStep 0) .empty).items := by
  have hm : ListMirrors (listInit ⟨fun _ => 0, fun _ => 0⟩ 0) 0 .empty :=
    ⟨listInit_circular _ 0, nofun⟩
  have hrun := hm.run [.add 1, .add 2]
    ⟨⟨by decide, by decide⟩, ⟨by decide, by decide⟩, trivial⟩
  exact fun hv => absurd ((visits_of_circular hrun.cycle).unique hv) (by decide)

end Ohwes

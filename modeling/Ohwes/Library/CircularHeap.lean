import Mathlib.Data.List.Range
import Mathlib.Data.Set.Insert
import Mathlib.Dynamics.PeriodicPts.Defs
import Ohwes.Library.CircularList

/-! # Heaps of circular doubly linked lists

A set of nodes is well formed when `next` and `prev` stay inside it, are inverse to each other on it
and lead back to where they started. Equivalently, every node of the set is on a cycle of nodes of
the set. Splicing a node in and unlinking one rearrange one cycle; every other cycle and the order of
all other nodes stay. -/

namespace Ohwes.Library
set_option autoImplicit false

section Heap
variable {ν : Type}

/-- The nodes of `S` make up circular lists. -/
structure WellFormed (h : Links ν) (S : Set ν) : Prop where
  next_mem : ∀ a ∈ S, h.next a ∈ S
  prev_mem : ∀ a ∈ S, h.prev a ∈ S
  prev_next : ∀ a ∈ S, h.prev (h.next a) = a
  next_prev : ∀ a ∈ S, h.next (h.prev a) = a
  finite : ∀ a ∈ S, ∃ n > 0, h.next^[n] a = a

/-- Node `b` is on the list of node `a`. -/
def OnList (h : Links ν) (a b : ν) : Prop := ∃ l, Circular h a l ∧ b ∈ a :: l

/-! ## Cycles -/

/-- A cycle may be entered at any of its nodes. -/
theorem Circular.rotate {h : Links ν} {a b : ν} {l₁ l₂ : List ν}
    (hc : Circular h a (l₁ ++ b :: l₂)) : Circular h b (l₂ ++ a :: l₁) := by
  constructor
  · have hsplit : ((a :: l₁) ++ b :: (l₂ ++ [a])).IsChain (Adjacent h) := by simpa using hc.chain
    obtain ⟨hleft, hright⟩ := List.isChain_split.mp hsplit
    have hjoin : ((b :: l₂) ++ a :: (l₁ ++ [b])).IsChain (Adjacent h) :=
      List.isChain_split.mpr ⟨by simpa using hright, by simpa using hleft⟩
    simpa using hjoin
  · have hperm : (b :: (l₂ ++ a :: l₁)).Perm (a :: (l₁ ++ b :: l₂)) := by
      have hswap : ((b :: l₂) ++ (a :: l₁)).Perm ((a :: l₁) ++ (b :: l₂)) := List.perm_append_comm
      simpa using hswap
    exact hperm.nodup_iff.mpr hc.nodup

theorem Circular.unique [DecidableEq ν] {h : Links ν} {a : ν} {l l' : List ν}
    (hc : Circular h a l) (hc' : Circular h a l') : l = l' := by
  have hl := Circular.visit_eq [] l (l.length + l'.length + 1) hc (by omega)
  have hl' := Circular.visit_eq [] l' (l.length + l'.length + 1) hc' (by omega)
  rw [← hc.next_head] at hl
  rw [← hc'.next_head] at hl'
  exact hl.symm.trans hl'

theorem Circular.closed {h : Links ν} {a y : ν} {l : List ν} (hc : Circular h a l)
    (hy : y ∈ a :: l) : h.next y ∈ a :: l ∧ h.prev y ∈ a :: l := by
  rcases List.mem_cons.mp hy with rfl | hy
  · constructor
    · have hhead : h.next y ∈ y :: ([] ++ l) := mem_of_head hc.next_head
      simpa using hhead
    · have hlast : h.prev y ∈ y :: (l ++ []) := mem_of_getLast hc.prev_head
      simpa using hlast
  · obtain ⟨l₁, l₂, rfl⟩ := List.append_of_mem hy
    constructor
    · have hhead : h.next y ∈ a :: ((l₁ ++ [y]) ++ l₂) := mem_of_head hc.next_item
      simpa using hhead
    · exact mem_of_getLast hc.prev_item

/-- The links of a node on a cycle are inverse to each other. -/
theorem Circular.inverse {h : Links ν} {a : ν} {l : List ν} (hc : Circular h a l) :
    h.prev (h.next a) = a ∧ h.next (h.prev a) = a := by
  have hchain := hc.chain
  constructor
  · cases l with
    | nil =>
      have hpair := List.isChain_pair.mp hchain
      rw [hpair.1, hpair.2]
    | cons y l =>
      have hpair := (List.isChain_cons_cons.mp hchain).1
      rw [hpair.1, hpair.2]
  · rcases List.eq_nil_or_concat l with rfl | ⟨m, y, rfl⟩
    · have hpair := List.isChain_pair.mp hchain
      rw [hpair.2, hpair.1]
    · have hlast : ((a :: m) ++ y :: a :: []).IsChain (Adjacent h) := by simpa using hchain
      have hpair := (List.isChain_append_cons_cons.mp hlast).2.1
      rw [hpair.2, hpair.1]

theorem iterate_of_chain {h : Links ν} {a : ν} {m : List ν} (hc : (a :: m).IsChain (Adjacent h)) :
    h.next^[m.length] a = (a :: m).getLast (by simp) := by
  induction m generalizing a with
  | nil => rfl
  | cons y m ih =>
    obtain ⟨hpair, hrest⟩ := List.isChain_cons_cons.mp hc
    rw [List.length_cons, Function.iterate_succ_apply, hpair.1, ih hrest]
    rfl

/-- Going once round a cycle comes back to where it started. -/
theorem Circular.iterate_length {h : Links ν} {a : ν} {l : List ν} (hc : Circular h a l) :
    h.next^[l.length + 1] a = a := by
  have hround := iterate_of_chain hc.chain
  rw [List.length_append, List.length_singleton] at hround
  simpa using hround

/-! ## Well-formed sets of nodes -/

namespace WellFormed
variable {h : Links ν} {S : Set ν} {a : ν}

theorem iterate_mem (wf : WellFormed h S) (ha : a ∈ S) (i : Nat) : h.next^[i] a ∈ S := by
  induction i with
  | zero => exact ha
  | succ i ih =>
    rw [Function.iterate_succ_apply']
    exact wf.next_mem _ ih

/-- The list of a node: what `next` goes through before it comes back. -/
theorem circular (wf : WellFormed h S) (ha : a ∈ S) : ∃ l, Circular h a l ∧ ∀ y ∈ l, y ∈ S := by
  obtain ⟨n, hn, hround⟩ := wf.finite a ha
  have hpos : 0 < Function.minimalPeriod h.next a :=
    Function.IsPeriodicPt.minimalPeriod_pos hn hround
  obtain ⟨k, hk⟩ := Nat.exists_eq_succ_of_ne_zero (Nat.ne_of_gt hpos)
  have hcycle : a :: (List.range k).map (fun i => h.next^[i + 1] a) =
      (List.range (k + 1)).map fun i => h.next^[i] a := by
    rw [List.range_succ_eq_map, List.map_cons, List.map_map]
    rfl
  have hclosed : h.next^[k + 1] a = a := by
    have := Function.iterate_minimalPeriod (f := h.next) (x := a)
    rwa [hk] at this
  refine ⟨(List.range k).map fun i => h.next^[i + 1] a, ⟨?_, ?_⟩, ?_⟩
  · have hall : a :: ((List.range k).map (fun i => h.next^[i + 1] a) ++ [a]) =
        (List.range (k + 2)).map fun i => h.next^[i] a := by
      rw [← List.cons_append, hcycle, List.range_succ (n := k + 1), List.map_append,
        List.map_singleton, hclosed]
    rw [hall, List.isChain_map, List.isChain_range_succ]
    intro i _
    have hnext : h.next (h.next^[i] a) = h.next^[i + 1] a :=
      (Function.iterate_succ_apply' h.next i a).symm
    exact ⟨hnext, by rw [← hnext, wf.prev_next _ (wf.iterate_mem ha i)]⟩
  · rw [hcycle]
    refine List.Nodup.map_on ?_ List.nodup_range
    intro i hi j hj heq
    rw [List.mem_range, ← Nat.succ_eq_add_one, ← hk] at hi hj
    exact (Function.iterate_eq_iterate_iff_of_lt_minimalPeriod hi hj).mp heq
  · intro y hy
    obtain ⟨i, -, rfl⟩ := List.mem_map.mp hy
    exact wf.iterate_mem ha (i + 1)

theorem of_circular (hc : ∀ a ∈ S, ∃ l, Circular h a l ∧ ∀ y ∈ l, y ∈ S) : WellFormed h S := by
  have hin : ∀ {a l}, a ∈ S → (∀ y ∈ l, y ∈ S) → ∀ y ∈ a :: l, y ∈ S := by
    intro a l ha hl y hy
    rcases List.mem_cons.mp hy with rfl | hy
    · exact ha
    · exact hl y hy
  constructor
  · intro a ha
    obtain ⟨l, hl, hS⟩ := hc a ha
    exact hin ha hS _ (hl.closed (List.mem_cons_self ..)).1
  · intro a ha
    obtain ⟨l, hl, hS⟩ := hc a ha
    exact hin ha hS _ (hl.closed (List.mem_cons_self ..)).2
  · intro a ha
    obtain ⟨l, hl, -⟩ := hc a ha
    exact hl.inverse.1
  · intro a ha
    obtain ⟨l, hl, -⟩ := hc a ha
    exact hl.inverse.2
  · intro a ha
    obtain ⟨l, hl, -⟩ := hc a ha
    exact ⟨l.length + 1, Nat.succ_pos _, hl.iterate_length⟩

/-- The nodes of a list are in the set. -/
theorem cycle_mem [DecidableEq ν] (wf : WellFormed h S) (ha : a ∈ S) {l : List ν}
    (hc : Circular h a l) : ∀ y ∈ a :: l, y ∈ S := by
  obtain ⟨l', hc', hl'⟩ := wf.circular ha
  rw [hc.unique hc']
  intro y hy
  rcases List.mem_cons.mp hy with rfl | hy
  · exact ha
  · exact hl' y hy

end WellFormed

/-! ## Lists do not share nodes -/

theorem OnList.symm {h : Links ν} {a b : ν} (hab : OnList h a b) : OnList h b a := by
  obtain ⟨l, hc, hb⟩ := hab
  rcases List.mem_cons.mp hb with rfl | hb
  · exact ⟨l, hc, List.mem_cons_self ..⟩
  · obtain ⟨l₁, l₂, rfl⟩ := List.append_of_mem hb
    exact ⟨_, hc.rotate, by simp⟩

theorem OnList.trans [DecidableEq ν] {h : Links ν} {a b c : ν} (hab : OnList h a b)
    (hbc : OnList h b c) : OnList h a c := by
  obtain ⟨l, hl, hb⟩ := hab
  obtain ⟨m, hm, hc⟩ := hbc
  refine ⟨l, hl, ?_⟩
  rcases List.mem_cons.mp hb with rfl | hb
  · rwa [hl.unique hm]
  · obtain ⟨l₁, l₂, rfl⟩ := List.append_of_mem hb
    rw [← hl.rotate.unique hm] at hc
    simp only [List.mem_cons, List.mem_append] at hc ⊢
    tauto

theorem Circular.onList_iff [DecidableEq ν] {h : Links ν} {a b : ν} {l : List ν}
    (hc : Circular h a l) : OnList h a b ↔ b ∈ a :: l := by
  constructor
  · rintro ⟨m, hm, hb⟩
    rwa [hc.unique hm]
  · intro hb
    exact ⟨l, hc, hb⟩

section Neighbours
variable {h : Links ν} {S : Set ν} {a : ν}

theorem WellFormed.onList_self (wf : WellFormed h S) (ha : a ∈ S) : OnList h a a := by
  obtain ⟨l, hc, -⟩ := wf.circular ha
  exact ⟨l, hc, List.mem_cons_self ..⟩

theorem WellFormed.onList_next (wf : WellFormed h S) (ha : a ∈ S) : OnList h a (h.next a) := by
  obtain ⟨l, hc, -⟩ := wf.circular ha
  exact ⟨l, hc, (hc.closed (List.mem_cons_self ..)).1⟩

theorem WellFormed.onList_prev (wf : WellFormed h S) (ha : a ∈ S) : OnList h a (h.prev a) := by
  obtain ⟨l, hc, -⟩ := wf.circular ha
  exact ⟨l, hc, (hc.closed (List.mem_cons_self ..)).2⟩

end Neighbours

/-! ## One node moves -/

variable [DecidableEq ν]

/-- Only `x` has moved: without it the order of every list is what it was. -/
def Rearranged (h h' : Links ν) (S : Set ν) (x : ν) : Prop :=
  ∀ b ∈ S, b ≠ x → ∀ l, Circular h b l → ∃ l', Circular h' b l' ∧ l'.erase x = l.erase x

/-- Which of the other nodes are on one list does not change. -/
theorem Rearranged.onList_iff {h h' : Links ν} {S : Set ν} {x b c : ν} (hr : Rearranged h h' S x)
    (wf : WellFormed h S) (hb : b ∈ S) (hbx : b ≠ x) (hcx : c ≠ x) :
    OnList h' b c ↔ OnList h b c := by
  obtain ⟨l, hl, -⟩ := wf.circular hb
  obtain ⟨l', hl', herase⟩ := hr b hb hbx l hl
  have hmem : c ∈ l' ↔ c ∈ l := by
    rw [← List.mem_erase_of_ne hcx, herase, List.mem_erase_of_ne hcx]
  rw [hl.onList_iff, hl'.onList_iff, List.mem_cons, List.mem_cons, hmem]

section Splice
variable {h : Links ν} {S : Set ν} {b p x : ν} {l : List ν}

/-- A node spliced in behind `p` shows on the list of `p`, and other lists stay. -/
theorem Circular.splice_behind (hc : Circular h b l) (hx : x ∉ b :: l)
    (hinv : h.prev (h.next p) = p) :
    ∃ l', Circular (h.splice p (h.next p) x) b l' ∧ l'.erase x = l ∧ (x ∈ l' ↔ p ∈ b :: l) := by
  have hxl : x ∉ l := fun hm => hx (List.mem_cons_of_mem _ hm)
  by_cases hp : p ∈ b :: l
  · have hcut : ∃ l₁ l₂, l = l₁ ++ l₂ ∧ Circular (h.splice p (h.next p) x) b (l₁ ++ x :: l₂) := by
      rcases List.mem_cons.mp hp with rfl | hp
      · have hc' : Circular h p ([] ++ l) := hc
        exact ⟨[], l, rfl, hc'.splice hx rfl hc.next_head⟩
      · obtain ⟨l₁, l₂, rfl⟩ := List.append_of_mem hp
        have hc' : Circular h b ((l₁ ++ [p]) ++ l₂) := by simpa using hc
        exact ⟨l₁ ++ [p], l₂, by simp, hc'.splice (by simpa using hx) (by simp) hc.next_item⟩
    obtain ⟨l₁, l₂, rfl, hspliced⟩ := hcut
    have hleft : x ∉ l₁ := fun hm => hxl (List.mem_append_left _ hm)
    refine ⟨_, hspliced, ?_, by simp [hp]⟩
    rw [List.erase_append_right _ hleft, List.erase_cons_head]
  · have hn : h.next p ∉ b :: l := by
      intro hmem
      have := (hc.closed hmem).2
      rw [hinv] at this
      exact hp this
    refine ⟨l, hc.frame fun y hy => ?_, List.erase_of_not_mem hxl, by simp [hp, hxl]⟩
    exact h.splice_of_ne (fun e => hp (e ▸ hy)) (fun e => hn (e ▸ hy)) fun e => hx (e ▸ hy)

/-- A node in no list, or alone on its own, is not on the list of another node. -/
theorem WellFormed.notMem_of_free (wf : WellFormed h S) (hfree : x ∈ S → h.next x = x) (hb : b ∈ S)
    (hbx : b ≠ x) (hc : Circular h b l) : x ∉ b :: l := by
  intro hx
  have hself := hfree (wf.cycle_mem hb hc x hx)
  rcases List.mem_cons.mp hx with rfl | hx
  · exact hbx rfl
  · obtain ⟨l₁, l₂, rfl⟩ := List.append_of_mem hx
    have hnil := hc.rotate.next_head_eq_iff.mp hself
    simp at hnil

theorem WellFormed.splice_rearranged (wf : WellFormed h S) (hp : p ∈ S)
    (hfree : x ∈ S → h.next x = x) : Rearranged h (h.splice p (h.next p) x) S x := by
  intro b hb hbx l hc
  have hx := wf.notMem_of_free hfree hb hbx hc
  obtain ⟨l', hc', herase, -⟩ := hc.splice_behind hx (wf.prev_next p hp)
  refine ⟨l', hc', ?_⟩
  rw [herase, List.erase_of_not_mem fun hm => hx (List.mem_cons_of_mem _ hm)]

/-- The node is on the list it has been put in. -/
theorem WellFormed.splice_onList (wf : WellFormed h S) (hp : p ∈ S)
    (hfree : x ∈ S → h.next x = x) (hb : b ∈ S) (hbx : b ≠ x) :
    OnList (h.splice p (h.next p) x) b x ↔ OnList h b p := by
  obtain ⟨l, hc, -⟩ := wf.circular hb
  have hx := wf.notMem_of_free hfree hb hbx hc
  obtain ⟨l', hc', -, hmem⟩ := hc.splice_behind hx (wf.prev_next p hp)
  rw [hc.onList_iff, hc'.onList_iff, List.mem_cons, hmem]
  simp [Ne.symm hbx]

theorem WellFormed.splice (wf : WellFormed h S) (hp : p ∈ S) (hfree : x ∈ S → h.next x = x)
    (hpx : p ≠ x) : WellFormed (h.splice p (h.next p) x) (insert x S) := by
  have hlist : ∀ b ∈ S, b ≠ x → ∃ l', Circular (h.splice p (h.next p) x) b l' ∧
      ∀ y ∈ l', y ∈ insert x S := by
    intro b hb hbx
    obtain ⟨l, hc, hl⟩ := wf.circular hb
    obtain ⟨l', hc', herase, -⟩ :=
      hc.splice_behind (wf.notMem_of_free hfree hb hbx hc) (wf.prev_next p hp)
    refine ⟨l', hc', fun y hy => ?_⟩
    by_cases hyx : y = x
    · exact .inl hyx
    · rw [← List.mem_erase_of_ne hyx, herase] at hy
      exact .inr (hl y hy)
  apply WellFormed.of_circular
  intro b hb
  by_cases hbx : b = x
  · obtain ⟨l, hc, hl⟩ := hlist p hp hpx
    have hx := hc.onList_iff.mp ((wf.splice_onList hp hfree hp hpx).mpr (wf.onList_self hp))
    have hxl : x ∈ l := (List.mem_cons.mp hx).resolve_left (Ne.symm hpx)
    obtain ⟨l₁, l₂, rfl⟩ := List.append_of_mem hxl
    rw [hbx]
    refine ⟨_, hc.rotate, fun y hy => ?_⟩
    have hin : y = p ∨ y ∈ l₁ ++ x :: l₂ := by
      simp only [List.mem_append, List.mem_cons] at hy ⊢
      tauto
    rcases hin with rfl | hin
    · exact .inr hp
    · exact hl y hin
  · exact hlist b (hb.resolve_left hbx) hbx

end Splice

/-- A free node made a list of its own. -/
theorem WellFormed.loop {h : Links ν} {S : Set ν} {x : ν} (wf : WellFormed h S)
    (hfree : x ∈ S → h.next x = x) : WellFormed (h.loop x) (insert x S) := by
  apply WellFormed.of_circular
  intro b hb
  by_cases hbx : b = x
  · rw [hbx]
    exact ⟨[], Circular.loop h x, by simp⟩
  · have hbS := hb.resolve_left hbx
    obtain ⟨l, hc, hl⟩ := wf.circular hbS
    have hx := wf.notMem_of_free hfree hbS hbx hc
    refine ⟨l, hc.frame fun y hy => ?_, fun y hy => .inr (hl y hy)⟩
    have hyx : y ≠ x := fun e => hx (e ▸ hy)
    simp [Links.loop, hyx]

section Unlink
variable {h : Links ν} {S : Set ν} {b x : ν} {l : List ν}

theorem Circular.unlink_erase (hc : Circular h b l) (hbx : b ≠ x) (hprev : h.next (h.prev x) = x)
    (hnext : h.prev (h.next x) = x) :
    Circular (h.unlink (h.prev x) (h.next x) x) b (l.erase x) := by
  by_cases hx : x ∈ l
  · obtain ⟨l₁, l₂, rfl⟩ := List.append_of_mem hx
    have hleft : x ∉ l₁ := by
      intro hm
      have hnd := hc.items_nodup
      exact (List.nodup_append.mp hnd).2.2 x hm x (List.mem_cons_self ..) rfl
    rw [List.erase_append_right _ hleft, List.erase_cons_head]
    exact hc.unlink.1
  · have hnot : x ∉ b :: l := by
      intro hm
      rcases List.mem_cons.mp hm with rfl | hm
      · exact hbx rfl
      · exact hx hm
    rw [List.erase_of_not_mem hx]
    refine hc.frame fun y hy => h.unlink_of_ne ?_ ?_ fun e => hnot (e ▸ hy)
    · rintro rfl
      exact hnot (hprev ▸ (hc.closed hy).1)
    · rintro rfl
      exact hnot (hnext ▸ (hc.closed hy).2)

theorem WellFormed.unlink_rearranged (wf : WellFormed h S) (hx : x ∈ S) :
    Rearranged h (h.unlink (h.prev x) (h.next x) x) S x := by
  intro b _ hbx l hc
  refine ⟨_, hc.unlink_erase hbx (wf.next_prev x hx) (wf.prev_next x hx), ?_⟩
  exact List.erase_of_not_mem hc.items_nodup.not_mem_erase

/-- The node that is taken out is alone. -/
theorem Circular.unlink_alone (h : Links ν) (p n x : ν) : Circular (h.unlink p n x) x [] := by
  refine ⟨List.isChain_pair.mpr ⟨?_, ?_⟩, List.nodup_singleton x⟩
  · simp [Links.unlink]
  · simp [Links.unlink]

theorem WellFormed.unlink (wf : WellFormed h S) (hx : x ∈ S) :
    WellFormed (h.unlink (h.prev x) (h.next x) x) S := by
  apply WellFormed.of_circular
  intro b hb
  by_cases hbx : b = x
  · rw [hbx]
    exact ⟨[], Circular.unlink_alone h _ _ x, by simp⟩
  · obtain ⟨l, hc, hl⟩ := wf.circular hb
    refine ⟨_, hc.unlink_erase hbx (wf.next_prev x hx) (wf.prev_next x hx), fun y hy => ?_⟩
    exact hl y (List.mem_of_mem_erase hy)

end Unlink

end Heap

end Ohwes.Library

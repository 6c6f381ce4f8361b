import Mathlib.Data.List.Chain
import Mathlib.Data.List.Nodup
import Mathlib.Logic.Function.Basic

/-! # Circular doubly linked lists

The heap of a circular doubly linked list is a pair of functions on nodes: `prev` and `next`.
`Circular h a l` says that the cycle through the head `a` consists of `a` followed by the nodes of
`l`, in the order of `next`, that `prev` goes the other way round, and that no node occurs twice.

`splice` puts a node between two neighbours and `unlink` takes one out, each with four pointer
writes. `Circular.splice` and `Circular.unlink` say what they do to the cycle they work on, and
`Circular.frame` that a cycle is untouched as long as the links of its own nodes are. -/

namespace Ohwes.Library
set_option autoImplicit false

/-- The link fields of all list nodes. -/
structure Links (ν : Type) where
  prev : ν → ν
  next : ν → ν

namespace Links
variable {ν : Type} [DecidableEq ν]

def setNext (h : Links ν) (a b : ν) : Links ν := { h with next := Function.update h.next a b }

def setPrev (h : Links ν) (a b : ν) : Links ν := { h with prev := Function.update h.prev a b }

@[simp] theorem setNext_prev (h : Links ν) (a b : ν) : (h.setNext a b).prev = h.prev := rfl

@[simp] theorem setPrev_next (h : Links ν) (a b : ν) : (h.setPrev a b).next = h.next := rfl

@[simp] theorem setNext_next (h : Links ν) (a b c : ν) :
    (h.setNext a b).next c = if c = a then b else h.next c := Function.update_apply ..

@[simp] theorem setPrev_prev (h : Links ν) (a b c : ν) :
    (h.setPrev a b).prev c = if c = a then b else h.prev c := Function.update_apply ..

/-- Put `x` between the neighbours `p` and `n`. -/
def splice (h : Links ν) (p n x : ν) : Links ν :=
  (((h.setPrev n x).setNext p x).setPrev x p).setNext x n

/-- Take `x` out from between `p` and `n`; it becomes a cycle of its own. -/
def unlink (h : Links ν) (p n x : ν) : Links ν :=
  (((h.setPrev n p).setNext p n).setPrev x x).setNext x x

theorem splice_of_ne (h : Links ν) {p n x y : ν} (hp : y ≠ p) (hn : y ≠ n) (hx : y ≠ x) :
    (h.splice p n x).next y = h.next y ∧ (h.splice p n x).prev y = h.prev y := by
  simp [splice, hp, hn, hx]

theorem unlink_of_ne (h : Links ν) {p n x y : ν} (hp : y ≠ p) (hn : y ≠ n) (hx : y ≠ x) :
    (h.unlink p n x).next y = h.next y ∧ (h.unlink p n x).prev y = h.prev y := by
  simp [unlink, hp, hn, hx]

/-- Make `a` a cycle of its own. -/
def loop (h : Links ν) (a : ν) : Links ν := (h.setPrev a a).setNext a a

end Links

section Circular
variable {ν : Type}

/-- `b` follows `a`, and `a` precedes `b`. -/
def Adjacent (h : Links ν) (a b : ν) : Prop := h.next a = b ∧ h.prev b = a

/-- The cycle through `a` is `a` followed by `l`, once round. -/
structure Circular (h : Links ν) (a : ν) (l : List ν) : Prop where
  chain : (a :: (l ++ [a])).IsChain (Adjacent h)
  nodup : (a :: l).Nodup

namespace Circular
variable {h : Links ν} {a x : ν} {l : List ν}

theorem head_notMem (hc : Circular h a l) : a ∉ l := (List.nodup_cons.mp hc.nodup).1

theorem items_nodup (hc : Circular h a l) : l.Nodup := (List.nodup_cons.mp hc.nodup).2

theorem next_head (hc : Circular h a l) : h.next a = (l ++ [a]).head (by simp) := by
  have h1 := hc.chain
  cases l with
  | nil => exact (List.isChain_pair.mp h1).1
  | cons y l => exact (List.isChain_cons_cons.mp h1).1.1

theorem prev_head (hc : Circular h a l) : h.prev a = (a :: l).getLast (by simp) := by
  have h1 := hc.chain
  rcases List.eq_nil_or_concat l with rfl | ⟨m, y, rfl⟩
  · exact (List.isChain_pair.mp h1).2
  · have h2 : ((a :: m) ++ y :: a :: []).IsChain (Adjacent h) := by simpa using h1
    have h3 := (List.isChain_append_cons_cons.mp h2).2.1.2
    simpa using h3

/-- The cycle has no item exactly when the head is its own successor. -/
theorem next_head_eq_iff (hc : Circular h a l) : h.next a = a ↔ l = [] := by
  rw [hc.next_head]
  cases l with
  | nil => simp
  | cons y l =>
    have hy : y ≠ a := fun e => hc.head_notMem (e ▸ List.mem_cons_self ..)
    simp [hy]

theorem next_item {l₁ l₂ : List ν} (hc : Circular h a (l₁ ++ x :: l₂)) :
    h.next x = (l₂ ++ [a]).head (by simp) := by
  have h1 : ((a :: l₁) ++ x :: (l₂ ++ [a])).IsChain (Adjacent h) := by simpa using hc.chain
  have h2 := (List.isChain_split.mp h1).2
  cases l₂ with
  | nil => exact (List.isChain_pair.mp h2).1
  | cons y l₂ => exact (List.isChain_cons_cons.mp h2).1.1

theorem prev_item {l₁ l₂ : List ν} (hc : Circular h a (l₁ ++ x :: l₂)) :
    h.prev x = (a :: l₁).getLast (by simp) := by
  have h1 := hc.chain
  rcases List.eq_nil_or_concat l₁ with rfl | ⟨m, y, rfl⟩
  · exact (List.isChain_cons_cons.mp h1).1.2
  · have h2 : ((a :: m) ++ y :: x :: (l₂ ++ [a])).IsChain (Adjacent h) := by simpa using h1
    have h3 := (List.isChain_append_cons_cons.mp h2).2.1.2
    simpa using h3

/-- The nodes visited from `pos` on before the head comes up again, at most `fuel` of them. -/
def visit [DecidableEq ν] (h : Links ν) (a : ν) : Nat → ν → List ν
  | 0, _ => []
  | fuel + 1, pos => if pos = a then [] else pos :: visit h a fuel (h.next pos)

theorem visit_eq [DecidableEq ν] (l₁ l₂ : List ν) (fuel : Nat) (hc : Circular h a (l₁ ++ l₂))
    (hf : l₂.length < fuel) : visit h a fuel ((l₂ ++ [a]).head (by simp)) = l₂ := by
  induction l₂ generalizing l₁ fuel with
  | nil =>
    obtain ⟨fuel, rfl⟩ : ∃ k, fuel = k + 1 := ⟨fuel - 1, by omega⟩
    simp [visit]
  | cons y l₂ ih =>
    obtain ⟨fuel, rfl⟩ : ∃ k, fuel = k + 1 := ⟨fuel - 1, by omega⟩
    have hy : y ≠ a := fun e => hc.head_notMem (by simp [e])
    have hn := hc.next_item
    have h1 := ih (l₁ ++ [y]) fuel (by simpa using hc) (by simpa using hf)
    show visit h a (fuel + 1) y = y :: l₂
    rw [visit, if_neg hy, hn, h1]

end Circular

/-- A chain survives changes outside the links it runs through. -/
theorem isChain_frame {h h' : Links ν} {m : List ν}
    (hn : ∀ y ∈ m.dropLast, h'.next y = h.next y) (hp : ∀ y ∈ m.tail, h'.prev y = h.prev y)
    (hc : m.IsChain (Adjacent h)) : m.IsChain (Adjacent h') := by
  induction m with
  | nil => exact .nil
  | cons b m ih =>
    cases m with
    | nil => exact .singleton b
    | cons c m =>
      obtain ⟨hbc, hr⟩ := List.isChain_cons_cons.mp hc
      refine List.isChain_cons_cons.mpr ⟨⟨?_, ?_⟩, ?_⟩
      · rw [hn b (by simp)]; exact hbc.1
      · rw [hp c (by simp)]; exact hbc.2
      · exact ih (fun y hy => hn y (by simp [hy])) (fun y hy => hp y (List.mem_of_mem_tail hy)) hr

/-- **Frame.** A cycle is untouched by writes to the links of other nodes. -/
theorem Circular.frame {h h' : Links ν} {a : ν} {l : List ν} (hc : Circular h a l)
    (hsame : ∀ y ∈ a :: l, h'.next y = h.next y ∧ h'.prev y = h.prev y) : Circular h' a l := by
  refine ⟨isChain_frame (fun y hy => (hsame y ?_).1) (fun y hy => (hsame y ?_).2) hc.chain,
    hc.nodup⟩
  · have : (a :: (l ++ [a])).dropLast = a :: l := by
      rw [← List.cons_append, List.dropLast_concat]
    rwa [this] at hy
  · simp only [List.tail_cons, List.mem_append, List.mem_singleton] at hy
    rcases hy with hy | rfl
    · exact List.mem_cons_of_mem _ hy
    · exact List.mem_cons_self ..

/-! ### Replacing a stretch of a cycle -/

theorem mem_of_getLast {a p : ν} {l₁ l₂ : List ν} (hp : p = (a :: l₁).getLast (by simp)) :
    p ∈ a :: (l₁ ++ l₂) := by
  have : p ∈ a :: l₁ := hp ▸ List.getLast_mem _
  rw [← List.cons_append]
  exact List.mem_append_left _ this

theorem mem_of_head {a n : ν} {l₁ l₂ : List ν} (hn : n = (l₂ ++ [a]).head (by simp)) :
    n ∈ a :: (l₁ ++ l₂) := by
  have : n ∈ l₂ ++ [a] := hn ▸ List.head_mem _
  simp only [List.mem_append, List.mem_singleton] at this
  rcases this with h | rfl
  · exact List.mem_cons_of_mem _ (List.mem_append_right _ h)
  · exact List.mem_cons_self ..

/-- Replace the stretch `m` between the neighbours `p` and `n` by `m'`: only the links from `p`
to `n` may have been rewritten. -/
theorem Circular.replace {h h' : Links ν} {a p n : ν} {l₁ l₂ m m' : List ν}
    (hc : Circular h a (l₁ ++ m ++ l₂))
    (hp : p = (a :: l₁).getLast (by simp)) (hn : n = (l₂ ++ [a]).head (by simp))
    (hnext : ∀ y ∈ a :: (l₁ ++ l₂), y ≠ p → h'.next y = h.next y)
    (hprev : ∀ y ∈ a :: (l₁ ++ l₂), y ≠ n → h'.prev y = h.prev y)
    (hmid : (p :: (m' ++ [n])).IsChain (Adjacent h'))
    (hnd : (a :: (l₁ ++ m' ++ l₂)).Nodup) : Circular h' a (l₁ ++ m' ++ l₂) := by
  obtain ⟨u, hu⟩ : ∃ u, a :: l₁ = u ++ [p] :=
    ⟨(a :: l₁).dropLast, by rw [hp]; exact (List.dropLast_append_getLast _).symm⟩
  obtain ⟨v, hv⟩ : ∃ v, l₂ ++ [a] = n :: v :=
    ⟨(l₂ ++ [a]).tail, by rw [hn]; exact (List.cons_head_tail _).symm⟩
  have hsub : (a :: (l₁ ++ l₂)).Nodup :=
    hnd.sublist ((((List.sublist_append_left l₁ m').append (List.Sublist.refl l₂))).cons_cons a)
  have hpl₂ : p ∉ l₂ := by
    have h1 : (u ++ p :: l₂).Nodup := by
      have : u ++ p :: l₂ = a :: (l₁ ++ l₂) := by rw [← List.cons_append, hu]; simp
      rw [this]; exact hsub
    exact (List.nodup_cons.mp (List.nodup_append.mp h1).2.1).1
  have hpu : p ∉ u := by
    have h1 : (u ++ [p]).Nodup := by
      rw [← hu]; exact hsub.sublist ((List.sublist_append_left l₁ l₂).cons_cons a)
    exact fun hm => (List.nodup_append.mp h1).2.2 p hm p (by simp) rfl
  have hrot : (l₁ ++ n :: v).Nodup := by
    rw [← hv, ← List.append_assoc]
    have h1 := List.nodup_cons.mp hsub
    exact List.Nodup.append h1.2 (List.nodup_singleton a) (by simpa using h1.1)
  have hnl₁ : n ∉ l₁ := fun hm => (List.nodup_append.mp hrot).2.2 n hm n (by simp) rfl
  have hnv : n ∉ v := (List.nodup_cons.mp (List.nodup_append.mp hrot).2.1).1
  have hcut : ∀ k, u ++ p :: (k ++ n :: v) = a :: (l₁ ++ k ++ l₂ ++ [a]) := by
    intro k
    have h1 : a :: (l₁ ++ k ++ l₂ ++ [a]) = (a :: l₁) ++ (k ++ (l₂ ++ [a])) := by simp
    rw [h1, hu, hv]
    simp
  -- the parts of the cycle outside the stretch keep their links
  have hold : (u ++ p :: (m ++ n :: v)).IsChain (Adjacent h) := by
    rw [hcut m]; exact hc.chain
  obtain ⟨hleft, hrest⟩ := List.isChain_split.mp hold
  have hright := (List.isChain_cons_split.mp hrest).2
  have hleft' : (u ++ [p]).IsChain (Adjacent h') := by
    refine isChain_frame (fun y hy => ?_) (fun y hy => ?_) hleft
    · rw [List.dropLast_concat] at hy
      refine hnext y ?_ (fun e => hpu (e ▸ hy))
      rw [← List.cons_append, hu]
      simp [hy]
    · have hyl : y ∈ l₁ := by rw [← hu] at hy; exact hy
      exact hprev y (by simp [hyl]) (fun e => hnl₁ (e ▸ hyl))
  have hright' : (n :: v).IsChain (Adjacent h') := by
    refine isChain_frame (fun y hy => ?_) (fun y hy => ?_) hright
    · have hyl : y ∈ l₂ := by rw [← hv, List.dropLast_concat] at hy; exact hy
      exact hnext y (by simp [hyl]) (fun e => hpl₂ (e ▸ hyl))
    · have hyv : y ∈ l₂ ++ [a] := by rw [hv]; exact List.mem_of_mem_tail hy
      refine hprev y ?_ (fun e => hnv (e ▸ hy))
      simp only [List.mem_append, List.mem_singleton] at hyv
      rcases hyv with hyv | rfl
      · simp [hyv]
      · simp
  refine ⟨?_, hnd⟩
  rw [← hcut m']
  exact List.isChain_split.mpr ⟨hleft', List.isChain_cons_split.mpr ⟨hmid, hright'⟩⟩

variable [DecidableEq ν]

theorem Circular.loop (h : Links ν) (a : ν) : Circular (h.loop a) a [] := by
  refine ⟨List.isChain_pair.mpr ⟨?_, ?_⟩, List.nodup_singleton a⟩
  · simp [Links.loop]
  · simp [Links.loop]

/-- Splicing `x` in between two neighbours of a cycle it is not in. -/
theorem Circular.splice {h : Links ν} {a x p n : ν} {l₁ l₂ : List ν}
    (hc : Circular h a (l₁ ++ l₂)) (hx : x ∉ a :: (l₁ ++ l₂))
    (hp : p = (a :: l₁).getLast (by simp)) (hn : n = (l₂ ++ [a]).head (by simp)) :
    Circular (h.splice p n x) a (l₁ ++ x :: l₂) := by
  have hxp : p ≠ x := fun e => hx (e ▸ mem_of_getLast hp)
  have hxn : n ≠ x := fun e => hx (e ▸ mem_of_head hn)
  have hnd : (a :: (l₁ ++ [x] ++ l₂)).Nodup := by
    have h1 : (a :: (l₁ ++ x :: l₂)).Perm (x :: a :: (l₁ ++ l₂)) :=
      (List.perm_middle.cons a).trans (List.Perm.swap x a _)
    rw [List.append_assoc]
    exact h1.nodup_iff.mpr (List.nodup_cons.mpr ⟨hx, hc.nodup⟩)
  have hc' : Circular h a (l₁ ++ [] ++ l₂) := by simpa using hc
  have h1 : Circular (h.splice p n x) a (l₁ ++ [x] ++ l₂) := by
    refine hc'.replace hp hn ?_ ?_ ?_ hnd
    · intro y hy hyp
      have hyx : y ≠ x := fun e => hx (e ▸ hy)
      simp [Links.splice, hyp, hyx]
    · intro y hy hyn
      have hyx : y ≠ x := fun e => hx (e ▸ hy)
      simp [Links.splice, hyn, hyx]
    · refine List.isChain_cons_cons.mpr ⟨⟨?_, ?_⟩, List.isChain_pair.mpr ⟨?_, ?_⟩⟩
      · simp [Links.splice, hxp]
      · simp [Links.splice]
      · simp [Links.splice]
      · simp [Links.splice, hxn]
  simpa using h1

/-- Unlinking an item of a cycle leaves the other items in their order, and a cycle of one. -/
theorem Circular.unlink {h : Links ν} {a x : ν} {l₁ l₂ : List ν}
    (hc : Circular h a (l₁ ++ x :: l₂)) :
    Circular (h.unlink (h.prev x) (h.next x) x) a (l₁ ++ l₂) ∧
      Circular (h.unlink (h.prev x) (h.next x) x) x [] := by
  have h1 : (a :: (l₁ ++ x :: l₂)).Perm (x :: a :: (l₁ ++ l₂)) :=
    (List.perm_middle.cons a).trans (List.Perm.swap x a _)
  obtain ⟨hx, hnd⟩ := List.nodup_cons.mp (h1.nodup_iff.mp hc.nodup)
  have hp := hc.prev_item
  have hn := hc.next_item
  have hxp : h.prev x ≠ x := fun e => hx (e ▸ mem_of_getLast hp)
  have hxn : h.next x ≠ x := fun e => hx (e ▸ mem_of_head hn)
  refine ⟨?_, List.isChain_pair.mpr ⟨?_, ?_⟩, List.nodup_singleton x⟩
  · have hc' : Circular h a (l₁ ++ [x] ++ l₂) := by simpa using hc
    have h2 : Circular (h.unlink (h.prev x) (h.next x) x) a (l₁ ++ [] ++ l₂) := by
      refine hc'.replace hp hn ?_ ?_ ?_ (by simpa using hnd)
      · intro y hy hyp
        have hyx : y ≠ x := fun e => hx (e ▸ hy)
        simp [Links.unlink, hyp, hyx]
      · intro y hy hyn
        have hyx : y ≠ x := fun e => hx (e ▸ hy)
        simp [Links.unlink, hyn, hyx]
      · refine List.isChain_pair.mpr ⟨?_, ?_⟩
        · simp [Links.unlink, hxp]
        · simp [Links.unlink, hxn]
    simpa using h2
  · simp [Links.unlink]
  · simp [Links.unlink]

end Circular

end Ohwes.Library

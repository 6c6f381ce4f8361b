import Mathlib.Data.Finset.Card
import Mathlib.Data.Fintype.Pigeonhole
import Mathlib.Logic.Function.Iterate

/-! # Chains of cells in a table of successors

`next` gives the successor of every cell, and `stop` says at which values a walk along it ends. A
chain is the list of cells that a walk passes through; it has no cell twice, and the walk from a
cell has one unless it comes back to a cell it has been at. -/

namespace Ohwes.Library
set_option autoImplicit false

section Chains
variable {α : Type} (next : α → α) (stop : α → Prop)

/-- From the first of the cells on, `next` leads through the others to a value where walks stop. The
first cell is passed whatever it is. -/
inductive Chain : α → List α → Prop
  | last {c : α} : stop (next c) → Chain c [c]
  | link {c : α} {l : List α} : ¬ stop (next c) → Chain (next c) l → Chain c (c :: l)

/-- The walk from `c` comes to a cell a second time before it stops. -/
def Returns (c : α) : Prop :=
  ∃ i j, i < j ∧ (∀ m, 1 ≤ m → m ≤ j → ¬ stop (next^[m] c)) ∧ next^[i] c = next^[j] c

/-- The walk from one cell comes to another, or begins there. -/
inductive Passes : α → α → Prop
  | here (c : α) : Passes c c
  | on {c x : α} : ¬ stop (next c) → Passes (next c) x → Passes c x

/-- The cells of a walk of at most `n` steps. -/
def chainWithin [DecidablePred stop] : Nat → α → Option (List α)
  | 0, _ => none
  | n + 1, c => if stop (next c) then some [c] else (chainWithin n (next c)).map (c :: ·)

variable {next stop} {c : α} {l l' : List α}

theorem Chain.eq_cons (h : Chain next stop c l) : ∃ t, l = c :: t := by
  cases h with
  | last _ => exact ⟨[], rfl⟩
  | link _ _ => exact ⟨_, rfl⟩

theorem Chain.head_mem (h : Chain next stop c l) : c ∈ l := by
  obtain ⟨t, rfl⟩ := h.eq_cons
  exact List.mem_cons_self

theorem Chain.length_pos (h : Chain next stop c l) : 0 < l.length := by
  obtain ⟨t, rfl⟩ := h.eq_cons
  exact Nat.succ_pos _

theorem Chain.unique (h : Chain next stop c l) (h' : Chain next stop c l') : l = l' := by
  induction h generalizing l' with
  | last hs =>
    cases h' with
    | last _ => rfl
    | link hn _ => exact absurd hs hn
  | link hn _ ih =>
    cases h' with
    | last hs => exact absurd hs hn
    | link _ ht => rw [ih ht]

theorem Chain.passes_iff (h : Chain next stop c l) {x : α} : Passes next stop c x ↔ x ∈ l := by
  induction h with
  | @last c hs =>
    rw [List.mem_singleton]
    constructor
    · rintro (_ | ⟨hn, _⟩)
      · rfl
      · exact absurd hs hn
    · rintro rfl
      exact .here x
  | @link c t hn ht ih =>
    rw [List.mem_cons, ← ih]
    constructor
    · rintro (_ | ⟨_, hx⟩)
      · exact Or.inl rfl
      · exact Or.inr hx
    · rintro (rfl | hx)
      · exact .here x
      · exact .on hn hx

/-- From any cell of a chain on, the rest of it is a chain. -/
theorem Chain.suffix (h : Chain next stop c l) {x : α} (hx : x ∈ l) :
    ∃ s, s <:+ l ∧ Chain next stop x s := by
  induction h with
  | @last c hs =>
    rw [List.mem_singleton] at hx
    subst hx
    exact ⟨_, List.suffix_refl _, .last hs⟩
  | @link c t hn ht ih =>
    rcases List.mem_cons.mp hx with rfl | hx
    · exact ⟨_, List.suffix_refl _, .link hn ht⟩
    · obtain ⟨s, hs, hc⟩ := ih hx
      exact ⟨s, hs.trans (List.suffix_cons _ _), hc⟩

theorem Chain.nodup (h : Chain next stop c l) : l.Nodup := by
  induction h with
  | last _ => exact List.nodup_singleton _
  | @link c t hn ht ih =>
    refine List.nodup_cons.mpr ⟨fun hmem => ?_, ih⟩
    -- the chain from `c` would be a proper part of itself
    obtain ⟨s, hs, hc⟩ := ht.suffix hmem
    have hlen := congrArg List.length (hc.unique (.link hn ht))
    have hle := hs.length_le
    rw [List.length_cons] at hlen
    omega

/-- A chain depends on the successors of its own cells alone. -/
theorem Chain.congr {next' : α → α} (h : Chain next stop c l) (heq : ∀ x ∈ l, next' x = next x) :
    Chain next' stop c l := by
  induction h with
  | @last c hs =>
    refine .last ?_
    rwa [heq c List.mem_cons_self]
  | @link c t hn ht ih =>
    have hc := heq c List.mem_cons_self
    refine .link ?_ ?_
    · rwa [hc]
    · rw [hc]
      exact ih fun x hx => heq x (List.mem_cons_of_mem _ hx)

/-- A chain is left by other successors too, if a walk stops at them where it has stopped. -/
theorem Chain.congr_stop {next' : α → α} (h : Chain next stop c l)
    (heq : ∀ x ∈ l, next' x = next x ∨ stop (next x) ∧ stop (next' x)) : Chain next' stop c l := by
  induction h with
  | @last c hs =>
    refine .last ?_
    rcases heq c List.mem_cons_self with hsame | ⟨-, hstop⟩
    · rwa [hsame]
    · exact hstop
  | @link c t hn ht ih =>
    have hsame := (heq c List.mem_cons_self).resolve_right fun h => hn h.1
    refine .link ?_ ?_
    · rwa [hsame]
    · rw [hsame]
      exact ih fun x hx => heq x (List.mem_cons_of_mem _ hx)

theorem chainWithin_some [DecidablePred stop] {n : Nat} :
    chainWithin next stop n c = some l ↔ Chain next stop c l ∧ l.length ≤ n := by
  induction n generalizing c l with
  | zero =>
    refine ⟨fun h => (nomatch h), fun ⟨h, hle⟩ => ?_⟩
    have := h.length_pos
    omega
  | succ n ih =>
    rw [chainWithin]
    by_cases hs : stop (next c)
    · rw [if_pos hs]
      constructor
      · intro h
        obtain rfl := Option.some.inj h
        exact ⟨.last hs, by simp⟩
      · rintro ⟨h, -⟩
        rw [h.unique (.last hs)]
    · rw [if_neg hs, Option.map_eq_some_iff]
      constructor
      · rintro ⟨t, ht, rfl⟩
        obtain ⟨hc, hle⟩ := ih.mp ht
        exact ⟨.link hs hc, by simpa using hle⟩
      · rintro ⟨h, hle⟩
        cases h with
        | last h => exact absurd h hs
        | @link _ t _ ht => exact ⟨t, ih.mpr ⟨ht, by simpa using hle⟩, rfl⟩

/-- The walk that stops first after `k` steps has a chain of `k` cells. -/
theorem chain_of_stop {k : Nat} (hk : 1 ≤ k) (hrun : ∀ m, 1 ≤ m → m < k → ¬ stop (next^[m] c))
    (hstop : stop (next^[k] c)) : ∃ l, Chain next stop c l ∧ l.length = k := by
  induction k generalizing c with
  | zero => omega
  | succ k ih =>
    rcases Nat.eq_zero_or_pos k with rfl | hpos
    · exact ⟨[c], .last hstop, rfl⟩
    · obtain ⟨l, hl, hlen⟩ := ih (c := next c) hpos
        (fun m h1 hm => by
          rw [← Function.iterate_succ_apply]
          exact hrun (m + 1) (by omega) (by omega))
        (by rwa [← Function.iterate_succ_apply])
      exact ⟨c :: l, .link (hrun 1 (le_refl 1) (by omega)) hl, by rw [List.length_cons, hlen]⟩

/-- The cells of a chain are those of the walk, and it stops behind the last of them. -/
theorem Chain.iterate (h : Chain next stop c l) :
    l = (List.range l.length).map (fun i => next^[i] c) ∧ stop (next^[l.length] c) := by
  induction h with
  | last hs => exact ⟨rfl, hs⟩
  | @link c t hn ht ih =>
    obtain ⟨hl, hs⟩ := ih
    refine ⟨?_, by rwa [List.length_cons, Function.iterate_succ_apply]⟩
    rw [List.length_cons, List.range_succ_eq_map, List.map_cons, List.map_map]
    exact congrArg (c :: ·) hl

/-- Where successors come from a finite set, a walk has a chain exactly if it never returns. -/
theorem exists_chain_iff [DecidableEq α] (cells : Finset α) (hnext : ∀ x, next x ∈ cells) :
    (∃ l, Chain next stop c l) ↔ ¬ Returns next stop c := by
  constructor
  · rintro ⟨l, hl⟩ ⟨i, j, hij, hrun, heq⟩
    obtain ⟨hcells, hstop⟩ := hl.iterate
    have hjl : j < l.length := by
      by_contra hge
      have hpos := hl.length_pos
      exact hrun l.length hpos (by omega) hstop
    have hnodup := hl.nodup
    rw [hcells] at hnodup
    have := List.inj_on_of_nodup_map hnodup (List.mem_range.mpr (by omega : i < l.length))
      (List.mem_range.mpr hjl) heq
    omega
  · intro hno
    by_contra hnone
    have hrun : ∀ m, 1 ≤ m → ¬ stop (next^[m] c) := by
      intro m
      induction m using Nat.strong_induction_on with
      | _ m ih =>
        intro hm hs
        obtain ⟨l, hl, -⟩ := chain_of_stop hm (fun k h1 hk => ih k hk h1) hs
        exact hnone ⟨l, hl⟩
    -- the steps from the first on are infinitely many cells of the finite set
    have hmaps : Set.MapsTo (fun m => next^[m + 1] c) (Finset.range (cells.card + 1)) cells := by
      intro m _
      simp only [Function.iterate_succ_apply']
      exact hnext _
    obtain ⟨i, -, j, -, hne, heq⟩ := Finset.exists_ne_map_eq_of_card_lt_of_maps_to (by simp) hmaps
    rcases Nat.lt_or_gt_of_ne hne with h | h
    · exact hno ⟨i + 1, j + 1, by omega, fun m h1 _ => hrun m h1, heq⟩
    · exact hno ⟨j + 1, i + 1, by omega, fun m h1 _ => hrun m h1, heq.symm⟩

end Chains

end Ohwes.Library

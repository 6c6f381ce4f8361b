import Mathlib.Data.Set.Basic
import Mathlib.Order.Nat
import Ohwes.Char.TerminalBounds

/-! # Tab stops

`tab` looks for a tab stop to the right of the cursor. It looks at a column before it compares the
column with the width of the screen, so without a stop to the right it also looks at the column
behind the last one. The result does not depend on what it finds there, but on a screen of 80 columns
that is the byte behind the tab stops; `tab_reads_iff` says when it does so. -/

namespace Ohwes
set_option autoImplicit false

/-- The indexes of `tabstops` the loop of `tab` looks at. -/
def tabReads (term : Terminal) : Nat → BitVec 12 → List Nat
  | 0, _ => []
  | fuel + 1, x =>
    if x.toNat < term.cols.toNat then
      (x + 1).toNat :: if tabstopAt term (x + 1).toNat ≠ 0 then [] else tabReads term fuel (x + 1)
    else []

/-- The columns of the screen to the right of `x` with a tab stop. -/
def stopsAfter (term : Terminal) (x : Nat) : Set Nat :=
  {k | x < k ∧ k < term.cols.toNat ∧ term.tabstops k ≠ 0}

/-- Where a tab in column `x` leads to: the first stop to the right, or the last column. -/
def TabTarget (term : Terminal) (x y : Nat) : Prop :=
  IsLeast (stopsAfter term x) y ∨ stopsAfter term x = ∅ ∧ y = term.cols.toNat - 1

/-! ## The loop -/

section Loop
variable {term : Terminal} {fuel : Nat} {x : BitVec 12}

theorem column_succ (h : x.toNat < 4095) : (x + 1).toNat = x.toNat + 1 := by
  rw [BitVec.toNat_add]
  show (x.toNat + 1) % 4096 = x.toNat + 1
  omega

variable (fuel) in
theorem tabLoop_set (hx : x.toNat < term.cols.toNat) (h : tabstopAt term (x + 1).toNat ≠ 0) :
    tabLoop term (fuel + 1) x = x + 1 ∧ tabReads term (fuel + 1) x = [(x + 1).toNat] := by
  unfold tabLoop tabReads
  rw [if_pos hx, if_pos hx, if_pos h, if_pos h]
  exact ⟨rfl, rfl⟩

variable (fuel) in
theorem tabLoop_clear (hx : x.toNat < term.cols.toNat) (h : tabstopAt term (x + 1).toNat = 0) :
    tabLoop term (fuel + 1) x = tabLoop term fuel (x + 1) ∧
      tabReads term (fuel + 1) x = (x + 1).toNat :: tabReads term fuel (x + 1) := by
  have hno : ¬ tabstopAt term (x + 1).toNat ≠ 0 := not_not.mpr h
  constructor
  · rw [tabLoop, if_pos hx, if_neg hno]
  · rw [tabReads, if_pos hx, if_neg hno]

theorem tabLoop_end (hx : ¬ x.toNat < term.cols.toNat) :
    tabLoop term fuel x = x ∧ tabReads term fuel x = [] := by
  cases fuel with
  | zero => exact ⟨rfl, rfl⟩
  | succ fuel =>
    unfold tabLoop tabReads
    rw [if_neg hx, if_neg hx]
    exact ⟨rfl, rfl⟩

variable (fuel) in
/-- The loop goes over the columns that have nothing in them. -/
theorem tabLoop_skip {d : Nat} (hd : x.toNat + d ≤ term.cols.toNat) (hcols : term.cols.toNat ≤ 4095)
    (hclear : ∀ k, x.toNat < k → k ≤ x.toNat + d → tabstopAt term k = 0) :
    ∃ y, y.toNat = x.toNat + d ∧ tabLoop term (fuel + d) x = tabLoop term fuel y ∧
      tabReads term (fuel + d) x = List.range' (x.toNat + 1) d ++ tabReads term fuel y := by
  induction d generalizing x with
  | zero => exact ⟨x, rfl, rfl, rfl⟩
  | succ d ih =>
    have hsucc : (x + 1).toNat = x.toNat + 1 := column_succ (by omega)
    have hclear1 : tabstopAt term (x + 1).toNat = 0 := by
      rw [hsucc]
      exact hclear _ (by omega) (by omega)
    obtain ⟨hloop, hreads⟩ := tabLoop_clear (fuel + d) (by omega) hclear1
    obtain ⟨y, hy, hloop', hreads'⟩ := ih (x := x + 1) (by omega)
      fun k hk hk' => hclear k (by omega) (by omega)
    refine ⟨y, by omega, hloop.trans hloop', ?_⟩
    rw [← Nat.add_assoc, hreads, hreads', hsucc]
    rfl

/-- The loop stops at the first of the columns to the right that has something in it. -/
theorem tabLoop_found {d : Nat} (hfuel : d < fuel) (hd : x.toNat + d + 1 < term.cols.toNat)
    (hcols : term.cols.toNat ≤ 4095) (hset : tabstopAt term (x.toNat + d + 1) ≠ 0)
    (hclear : ∀ k, x.toNat < k → k < x.toNat + d + 1 → tabstopAt term k = 0) :
    (tabLoop term fuel x).toNat = x.toNat + d + 1 ∧
      tabReads term fuel x = List.range' (x.toNat + 1) (d + 1) := by
  obtain ⟨fuel, rfl⟩ : ∃ f, fuel = f + 1 + d := ⟨fuel - d - 1, by omega⟩
  obtain ⟨y, hy, hskip, hreads⟩ := tabLoop_skip (fuel + 1) (x := x) (d := d) (by omega) hcols
    fun k hk hk' => hclear k hk (by omega)
  have hlt : y.toNat < term.cols.toNat := by omega
  have hsucc : (y + 1).toNat = x.toNat + d + 1 := by rw [column_succ (by omega), hy]
  rw [← hsucc] at hset
  obtain ⟨hstop, hlast⟩ := tabLoop_set fuel hlt hset
  rw [hskip, hreads, hstop, hlast, hsucc, List.range'_1_concat, Nat.add_right_comm x.toNat 1 d]
  exact ⟨rfl, rfl⟩

/-- Where there is nothing to the right, the loop looks at the column behind the last one as well. -/
theorem tabLoop_none {d : Nat} (hfuel : d < fuel) (hd : x.toNat + d + 1 = term.cols.toNat)
    (hcols : term.cols.toNat ≤ 4095)
    (hclear : ∀ k, x.toNat < k → k < term.cols.toNat → tabstopAt term k = 0) :
    (tabLoop term fuel x).toNat = term.cols.toNat ∧
      tabReads term fuel x = List.range' (x.toNat + 1) (d + 1) := by
  obtain ⟨fuel, rfl⟩ : ∃ f, fuel = f + 1 + d := ⟨fuel - d - 1, by omega⟩
  obtain ⟨y, hy, hskip, hreads⟩ := tabLoop_skip (fuel + 1) (x := x) (d := d) (by omega) hcols
    fun k hk hk' => hclear k hk (by omega)
  have hlt : y.toNat < term.cols.toNat := by omega
  have hsucc : (y + 1).toNat = x.toNat + d + 1 := by rw [column_succ (by omega), hy]
  have hend : ¬ (y + 1).toNat < term.cols.toNat := by omega
  have hbehind : (tabLoop term (fuel + 1) y).toNat = term.cols.toNat ∧
      tabReads term (fuel + 1) y = [(y + 1).toNat] := by
    by_cases hset : tabstopAt term (y + 1).toNat = 0
    · obtain ⟨hloop, hlast⟩ := tabLoop_clear fuel hlt hset
      obtain ⟨hstop, hnone⟩ : tabLoop term fuel (y + 1) = y + 1 ∧ tabReads term fuel (y + 1) = [] :=
        tabLoop_end hend
      rw [hloop, hlast, hstop, hnone]
      exact ⟨by omega, rfl⟩
    · obtain ⟨hstop, hlast⟩ := tabLoop_set fuel hlt hset
      rw [hstop, hlast]
      exact ⟨by omega, rfl⟩
  rw [hskip, hreads, hbehind.2, hsucc, List.range'_1_concat, Nat.add_right_comm x.toNat 1 d]
  exact ⟨hbehind.1, rfl⟩

end Loop

/-! ## `tab` -/

section Tab
variable {s : Vt}

theorem tabstopAt_screen {term : Terminal} {k : Nat} (h : k < MAX_TABSTOP) :
    tabstopAt term k = term.tabstops k := if_pos h

theorem tab_x (s : Vt) :
    (tab s).term.cursor.x =
      if (tabLoop s.term 4096 s.term.cursor.x).toNat ≥ s.term.cols.toNat then
        BitVec.ofInt 12 ((s.term.cols.toNat : Int) - 1)
      else tabLoop s.term 4096 s.term.cursor.x := rfl

/-- With a stop to the right the cursor moves to the first one. -/
theorem tab_found (hcols : s.term.cols.toNat = 80) {k : Nat}
    (hk : IsLeast (stopsAfter s.term s.term.cursor.x.toNat) k) :
    (tab s).term.cursor.x.toNat = k ∧
      tabReads s.term 4096 s.term.cursor.x =
        List.range' (s.term.cursor.x.toNat + 1) (k - s.term.cursor.x.toNat) := by
  obtain ⟨⟨hlt, hlast, hset⟩, hleast⟩ := hk
  obtain ⟨d, rfl⟩ : ∃ d, k = s.term.cursor.x.toNat + d + 1 :=
    ⟨k - s.term.cursor.x.toNat - 1, by omega⟩
  have hmax : MAX_TABSTOP = 80 := rfl
  have hat : tabstopAt s.term (s.term.cursor.x.toNat + d + 1) ≠ 0 := by
    rw [tabstopAt_screen (by omega)]
    exact hset
  have hclear : ∀ j, s.term.cursor.x.toNat < j → j < s.term.cursor.x.toNat + d + 1 →
      tabstopAt s.term j = 0 := by
    intro j hj hj'
    rw [tabstopAt_screen (by omega)]
    by_contra hne
    have hge := hleast ⟨hj, by omega, hne⟩
    omega
  obtain ⟨hloop, hreads⟩ := tabLoop_found (by omega : d < 4096) hlast (by omega) hat hclear
  have hcount : s.term.cursor.x.toNat + d + 1 - s.term.cursor.x.toNat = d + 1 := by omega
  rw [hcount]
  refine ⟨?_, hreads⟩
  rw [tab_x, if_neg (by omega), hloop]

/-- Without one it moves to the last column, after a look behind it. -/
theorem tab_none (hcols : s.term.cols.toNat = 80) (hx : s.term.cursor.x.toNat < 80)
    (hnone : stopsAfter s.term s.term.cursor.x.toNat = ∅) :
    (tab s).term.cursor.x.toNat = 79 ∧ 80 ∈ tabReads s.term 4096 s.term.cursor.x := by
  obtain ⟨d, hd⟩ : ∃ d, s.term.cursor.x.toNat + d + 1 = 80 :=
    ⟨79 - s.term.cursor.x.toNat, by omega⟩
  have hmax : MAX_TABSTOP = 80 := rfl
  have hclear : ∀ j, s.term.cursor.x.toNat < j → j < s.term.cols.toNat →
      tabstopAt s.term j = 0 := by
    intro j hj hj'
    rw [tabstopAt_screen (by omega)]
    by_contra hne
    have hmem : j ∈ stopsAfter s.term s.term.cursor.x.toNat := ⟨hj, hj', hne⟩
    rw [hnone] at hmem
    exact hmem
  obtain ⟨hloop, hreads⟩ := tabLoop_none (by omega : d < 4096) (by omega) (by omega) hclear
  constructor
  · rw [tab_x, if_pos (by omega), hcols]
    rfl
  · rw [hreads, List.mem_range'_1]
    omega

/-- Whatever the loop looks at, the cursor gets where it should. -/
theorem tab_target (hcols : s.term.cols.toNat = 80) (hx : s.term.cursor.x.toNat < 80) :
    TabTarget s.term s.term.cursor.x.toNat (tab s).term.cursor.x.toNat := by
  rcases (stopsAfter s.term s.term.cursor.x.toNat).eq_empty_or_nonempty with hnone | hsome
  · have hlast := (tab_none hcols hx hnone).1
    exact Or.inr ⟨hnone, by omega⟩
  · classical
    have hleast := Nat.isLeast_find hsome
    rw [TabTarget, (tab_found hcols hleast).1]
    exact Or.inl hleast

end Tab

/-- **Tab stops.** On 80 columns a tab leads to the first stop to the right of the cursor, or to the
last column; it stays within the tab stops exactly if there is a stop to the right. -/
theorem tab_reads_iff (s : Vt) (hcols : s.term.cols.toNat = 80)
    (hx : s.term.cursor.x.toNat < s.term.cols.toNat) :
    ((∃ y : BitVec 12, tab s = s.setX y ∧ TabTarget s.term s.term.cursor.x.toNat y.toNat) ∧
      ∀ i ∈ tabReads s.term 4096 s.term.cursor.x, i < MAX_TABSTOP) ↔
      (stopsAfter s.term s.term.cursor.x.toNat).Nonempty := by
  have hmax : MAX_TABSTOP = 80 := rfl
  constructor
  · rintro ⟨-, hreads⟩
    by_contra hempty
    rw [Set.not_nonempty_iff_eq_empty] at hempty
    have hbehind := hreads 80 (tab_none hcols (by omega) hempty).2
    omega
  · intro hsome
    classical
    have hleast := Nat.isLeast_find hsome
    refine ⟨⟨(tab s).term.cursor.x, rfl, tab_target hcols (by omega)⟩, fun i hi => ?_⟩
    have hlast := hleast.1.2.1
    rw [(tab_found hcols hleast).2, List.mem_range'_1] at hi
    omega

theorem tab_reads_first :
    (∃ y : BitVec 12, tab (defaultVt textVga (zeroTerminal 1)) =
        (defaultVt textVga (zeroTerminal 1)).setX y ∧
        TabTarget (defaultVt textVga (zeroTerminal 1)).term 0 y.toNat) ∧
      ∀ i ∈ tabReads (defaultVt textVga (zeroTerminal 1)).term 4096 0, i < MAX_TABSTOP :=
  (tab_reads_iff (defaultVt textVga (zeroTerminal 1)) rfl (by decide)).mpr
    ⟨7, by decide, by decide, by decide⟩

/-- A terminal nobody has written to, with the cursor moved to the last column. -/
def lastColumnVt : Vt := (defaultVt textVga (zeroTerminal 1)).setX 79

theorem tab_reads_behind :
    ¬ ((∃ y : BitVec 12, tab lastColumnVt = lastColumnVt.setX y ∧
        TabTarget lastColumnVt.term lastColumnVt.term.cursor.x.toNat y.toNat) ∧
      ∀ i ∈ tabReads lastColumnVt.term 4096 lastColumnVt.term.cursor.x, i < MAX_TABSTOP) := by
  rintro ⟨-, hreads⟩
  revert hreads
  decide +kernel

end Ohwes

import Mathlib.Order.Interval.Set.Disjoint
import Mathlib.Data.List.Perm.Basic

/-! # Lists of intervals

The items of a list stand for intervals: `lo x` is the first point of `x` and `hi x` the first point
after it. `Ascending` lists have every interval end before the next one starts. `place` is the walk
that looks for the place of a new interval in such a list and for one that is in its way at the same
time; what it finds is right unless the new interval reaches over the start of one in the list. -/

namespace Ohwes.Library
set_option autoImplicit false

section Intervals
variable {α ι : Type} [LinearOrder ι] (lo hi : α → ι)

/-- The two intervals have a point in common. -/
def Meets (x y : α) : Prop := (Set.Ico (lo x) (hi x) ∩ Set.Ico (lo y) (hi y)).Nonempty

theorem meets_iff {x y : α} : Meets lo hi x y ↔ max (lo x) (lo y) < min (hi x) (hi y) := by
  rw [Meets, Set.Ico_inter_Ico, Set.nonempty_Ico]

instance (x y : α) : Decidable (Meets lo hi x y) := decidable_of_iff _ (meets_iff lo hi).symm

/-- Every interval ends before the next one starts. -/
def Ascending (l : List α) : Prop := l.Pairwise fun x y => hi x ≤ lo y

/-- `x` starts before `y` and ends after the start of `y`. -/
def ReachesOver (x y : α) : Prop := lo x < lo y ∧ lo y < hi x

/-- The start of `x` is a point of `y`. -/
def StartsIn (x y : α) : Prop := lo y ≤ lo x ∧ lo x < hi y

/-- `x` ends before `y` starts. -/
def FitsBefore (x y : α) : Prop := lo x < lo y ∧ hi x ≤ lo y

instance (x y : α) : Decidable (ReachesOver lo hi x y) := inferInstanceAs (Decidable (_ ∧ _))

instance (x y : α) : Decidable (StartsIn lo hi x y) := inferInstanceAs (Decidable (_ ∧ _))

instance (x y : α) : Decidable (FitsBefore lo hi x y) := inferInstanceAs (Decidable (_ ∧ _))

/-- The list with `x` in front of the first interval it fits before, or at the end. There is no
place if the walk comes to an interval that `x` starts in. -/
def place (x : α) : List α → Option (List α)
  | [] => some [x]
  | y :: l =>
    if FitsBefore lo hi x y then some (x :: y :: l)
    else if StartsIn lo hi x y then none
    else (place x l).map (y :: ·)

/-- The walk comes to an interval that `x` starts in before one that `x` fits before. -/
def Blocked (x : α) (l : List α) : Prop :=
  ∃ l₁ y l₂, l = l₁ ++ y :: l₂ ∧ (∀ z ∈ l₁, ¬ FitsBefore lo hi x z) ∧ StartsIn lo hi x y

variable {lo hi} {x y : α} {l m : List α}

theorem StartsIn.meets (h : StartsIn lo hi x y) (hx : lo x < hi x) : Meets lo hi x y :=
  ⟨lo x, ⟨le_rfl, hx⟩, h⟩

theorem ReachesOver.meets (h : ReachesOver lo hi x y) (hy : lo y < hi y) : Meets lo hi x y :=
  ⟨lo y, ⟨h.1.le, h.2⟩, le_rfl, hy⟩

/-- Two intervals meet where one of them starts. -/
theorem Meets.cases (h : Meets lo hi x y) : StartsIn lo hi x y ∨ ReachesOver lo hi x y := by
  obtain ⟨i, hx, hy⟩ := h
  rcases le_or_gt (lo y) (lo x) with hle | hlt
  · exact Or.inl ⟨hle, lt_of_le_of_lt hx.1 hy.2⟩
  · exact Or.inr ⟨hlt, lt_of_le_of_lt hy.1 hx.2⟩

theorem not_meets_of_le (h : hi x ≤ lo y) : ¬ Meets lo hi x y := by
  rintro ⟨i, hx, hy⟩
  exact absurd (lt_of_lt_of_le hx.2 h) (not_lt.mpr hy.1)

theorem Meets.symm (h : Meets lo hi x y) : Meets lo hi y x := by
  obtain ⟨i, hx, hy⟩ := h
  exact ⟨i, hy, hx⟩

theorem Ascending.not_meets (h : Ascending lo hi l) : l.Pairwise fun x y => ¬ Meets lo hi x y :=
  h.imp fun hxy => not_meets_of_le hxy

theorem Ascending.sorted (h : Ascending lo hi l) (hne : ∀ y ∈ l, lo y < hi y) :
    l.Pairwise fun x y => lo x < lo y :=
  h.imp_of_mem fun hx _ hxy => lt_of_lt_of_le (hne _ hx) hxy

theorem ascending_of_sorted (hs : l.Pairwise fun x y => lo x ≤ lo y)
    (hd : l.Pairwise fun x y => ¬ Meets lo hi x y) (hne : ∀ y ∈ l, lo y < hi y) :
    Ascending lo hi l := by
  refine (hs.and hd).imp_of_mem fun {a b} _ hb hab => ?_
  by_contra hlt
  exact hab.2 ⟨lo b, ⟨hab.1, not_le.mp hlt⟩, le_rfl, hne b hb⟩

/-! ### The walk -/

theorem place_cons_of_fits (h : FitsBefore lo hi x y) :
    place lo hi x (y :: l) = some (x :: y :: l) := if_pos h

theorem place_cons_of_startsIn (h : StartsIn lo hi x y) : place lo hi x (y :: l) = none := by
  have hf : ¬ FitsBefore lo hi x y := fun hf => absurd hf.1 (not_lt.mpr h.1)
  rw [place, if_neg hf, if_pos h]

theorem place_cons_of_passed (hf : ¬ FitsBefore lo hi x y) (hs : ¬ StartsIn lo hi x y) :
    place lo hi x (y :: l) = (place lo hi x l).map (y :: ·) := by
  rw [place, if_neg hf, if_neg hs]

theorem place_eq_none_iff : place lo hi x l = none ↔ Blocked lo hi x l := by
  unfold Blocked
  induction l with
  | nil => simp [place]
  | cons z l ih =>
    by_cases hf : FitsBefore lo hi x z
    · rw [place_cons_of_fits hf]
      constructor
      · intro h
        cases h
      · rintro ⟨l₁, y, l₂, he, hl, hs⟩
        cases l₁ with
        | nil =>
          cases he
          exact absurd hf.1 (not_lt.mpr hs.1)
        | cons w l₁ =>
          cases he
          exact absurd hf (hl _ (List.mem_cons_self ..))
    by_cases hs : StartsIn lo hi x z
    · rw [place_cons_of_startsIn hs]
      exact ⟨fun _ => ⟨[], z, l, rfl, by simp, hs⟩, fun _ => rfl⟩
    · rw [place_cons_of_passed hf hs, Option.map_eq_none_iff, ih]
      constructor
      · rintro ⟨l₁, y, l₂, rfl, hl, hy⟩
        refine ⟨z :: l₁, y, l₂, rfl, ?_, hy⟩
        intro w hw
        obtain rfl | hw := List.mem_cons.mp hw
        · exact hf
        · exact hl w hw
      · rintro ⟨l₁, y, l₂, he, hl, hy⟩
        cases l₁ with
        | nil =>
          cases he
          exact absurd hy hs
        | cons w l₁ =>
          cases he
          exact ⟨l₁, y, l₂, rfl, fun v hv => hl v (List.mem_cons_of_mem _ hv), hy⟩

instance (x : α) (l : List α) : Decidable (Blocked lo hi x l) :=
  decidable_of_iff _ place_eq_none_iff

theorem place_perm (h : place lo hi x l = some m) : m.Perm (x :: l) := by
  induction l generalizing m with
  | nil =>
    cases h
    exact List.Perm.refl _
  | cons y l ih =>
    by_cases hf : FitsBefore lo hi x y
    · rw [place_cons_of_fits hf] at h
      cases h
      exact List.Perm.refl _
    by_cases hs : StartsIn lo hi x y
    · rw [place_cons_of_startsIn hs] at h
      cases h
    · rw [place_cons_of_passed hf hs, Option.map_eq_some_iff] at h
      obtain ⟨k, hk, rfl⟩ := h
      exact ((ih hk).cons y).trans (List.Perm.swap x y l)

/-- An interval that reaches over none of the list keeps the list ascending. -/
theorem place_ascending (hl : Ascending lo hi l) (hne : ∀ y ∈ l, lo y < hi y)
    (hover : ∀ y ∈ l, ¬ ReachesOver lo hi x y) (h : place lo hi x l = some m) :
    Ascending lo hi m := by
  induction l generalizing m with
  | nil =>
    cases h
    exact List.pairwise_singleton ..
  | cons y l ih =>
    obtain ⟨hy, hl'⟩ := List.pairwise_cons.mp hl
    have hyne := hne y (List.mem_cons_self ..)
    by_cases hf : FitsBefore lo hi x y
    · rw [place_cons_of_fits hf] at h
      cases h
      refine List.pairwise_cons.mpr ⟨fun z hz => ?_, hl⟩
      obtain rfl | hz := List.mem_cons.mp hz
      · exact hf.2
      · exact hf.2.trans (hyne.le.trans (hy z hz))
    by_cases hs : StartsIn lo hi x y
    · rw [place_cons_of_startsIn hs] at h
      cases h
    · rw [place_cons_of_passed hf hs, Option.map_eq_some_iff] at h
      obtain ⟨k, hk, rfl⟩ := h
      have hk' := ih hl' (fun z hz => hne z (List.mem_cons_of_mem _ hz))
        (fun z hz => hover z (List.mem_cons_of_mem _ hz)) hk
      refine List.pairwise_cons.mpr ⟨fun z hz => ?_, hk'⟩
      obtain rfl | hz := List.mem_cons.mp ((place_perm hk).mem_iff.mp hz)
      · have hov := hover y (List.mem_cons_self ..)
        rcases le_or_gt (lo y) (lo z) with hle | hlt
        · exact not_lt.mp fun hlt => hs ⟨hle, hlt⟩
        · exact absurd ⟨hlt, not_le.mp fun hle => hf ⟨hlt, hle⟩⟩ hov
      · exact hy z hz

/-- In an ascending list, no interval that `x` fits before stands in front of one `x` starts in. -/
theorem place_eq_none_of_startsIn (hl : Ascending lo hi l) (hne : ∀ y ∈ l, lo y < hi y)
    (hy : y ∈ l) (hs : StartsIn lo hi x y) : place lo hi x l = none := by
  obtain ⟨l₁, l₂, rfl⟩ := List.append_of_mem hy
  refine place_eq_none_iff.mpr ⟨l₁, y, l₂, rfl, fun z hz hf => ?_, hs⟩
  have hzy := (List.pairwise_append.mp hl).2.2 z hz y (List.mem_cons_self ..)
  have hzne := hne z (List.mem_append_left _ hz)
  exact absurd (hf.1.trans (hzne.trans_le hzy)) (not_lt.mpr hs.1)

theorem startsIn_of_place_eq_none (h : place lo hi x l = none) : ∃ y ∈ l, StartsIn lo hi x y := by
  obtain ⟨l₁, y, l₂, rfl, _, hs⟩ := place_eq_none_iff.mp h
  exact ⟨y, by simp, hs⟩

/-- **The walk decides.** In an ascending list it finds no place for `x` exactly when `x` meets an
interval of the list, if `x` starts in one of them or reaches over none. -/
theorem place_eq_none_iff_meets (hl : Ascending lo hi l) (hne : ∀ y ∈ l, lo y < hi y)
    (hx : lo x < hi x)
    (hok : (∃ y ∈ l, StartsIn lo hi x y) ∨ ∀ y ∈ l, ¬ ReachesOver lo hi x y) :
    place lo hi x l = none ↔ ∃ y ∈ l, Meets lo hi x y := by
  constructor
  · intro h
    obtain ⟨y, hy, hs⟩ := startsIn_of_place_eq_none h
    exact ⟨y, hy, hs.meets hx⟩
  · rintro ⟨y, hy, hm⟩
    obtain ⟨z, hz, hs⟩ | hover := hok
    · exact place_eq_none_of_startsIn hl hne hz hs
    · exact place_eq_none_of_startsIn hl hne hy (hm.cases.resolve_right (hover y hy))

end Intervals

end Ohwes.Library

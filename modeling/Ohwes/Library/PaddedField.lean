import Mathlib.Data.List.DropRight

/-! # Words in a field that is filled up with blanks

A field of fixed width holds a word and blanks behind it. Whoever reads it takes the blanks off at both
ends; a word comes back as it was exactly when it neither begins nor ends with a blank. -/

namespace Ohwes.Library
set_option autoImplicit false
variable {α : Type} [DecidableEq α] (blank : α)

/-- The word without the blanks around it. -/
def unpad (word : List α) : List α := (word.dropWhile (· == blank)).rdropWhile (· == blank)

theorem rdropWhile_append_replicate (word : List α) (n : Nat) :
    (word ++ List.replicate n blank).rdropWhile (· == blank) = word.rdropWhile (· == blank) := by
  induction n with
  | zero => simp
  | succ n ih =>
    rw [List.replicate_succ', ← List.append_assoc, List.rdropWhile_concat_pos _ _ _ (by simp), ih]

/-- The blanks of the field do not show in what is read. -/
theorem unpad_append_replicate (word : List α) (n : Nat) :
    unpad blank (word ++ List.replicate n blank) = unpad blank word := by
  rw [unpad, unpad, List.dropWhile_append]
  by_cases h : word.dropWhile (· == blank) = []
  · simp [h]
  · simp [h, rdropWhile_append_replicate]

variable {blank}

theorem unpad_cons_of_ne {c : α} (h : c ≠ blank) (word : List α) :
    unpad blank (c :: word) = c :: word.rdropWhile (· == blank) := by
  induction word using List.reverseRecOn with
  | nil => simp [unpad, h, List.rdropWhile_singleton]
  | append_singleton word d ih =>
    rw [unpad, List.dropWhile_cons_of_neg (by simpa using h)] at ih ⊢
    by_cases hd : d = blank
    · rw [← List.cons_append, List.rdropWhile_concat_pos _ _ _ (by simpa using hd),
        List.rdropWhile_concat_pos _ _ _ (by simpa using hd), ih]
    · rw [← List.cons_append, List.rdropWhile_concat_neg _ _ _ (by simpa using hd),
        List.rdropWhile_concat_neg _ _ _ (by simpa using hd), List.cons_append]

theorem unpad_part (word : List α) : unpad blank word <:+: word :=
  (List.rdropWhile_prefix _ _).isInfix.trans (List.dropWhile_suffix _).isInfix

theorem rdropWhile_eq_self_iff (word : List α) :
    word.rdropWhile (· == blank) = word ↔ word.getLast? ≠ some blank := by
  induction word using List.reverseRecOn with
  | nil => simp
  | append_singleton word d _ =>
    rw [List.rdropWhile_concat]
    by_cases hd : d = blank
    · have hlen := (List.rdropWhile_prefix (· == blank) word).length_le
      refine iff_of_false (fun h => ?_) (by simp [hd])
      have heq := congrArg List.length h
      rw [if_pos (by simpa using hd), List.length_append, List.length_singleton] at heq
      omega
    · rw [if_neg (by simpa using hd)]
      simp [hd]

theorem dropWhile_eq_self_iff (word : List α) :
    word.dropWhile (· == blank) = word ↔ word.head? ≠ some blank := by
  cases word with
  | nil => simp
  | cons c word =>
    by_cases hc : c = blank
    · have hlen := (List.dropWhile_suffix (l := word) (· == blank)).length_le
      refine iff_of_false (fun h => ?_) (by simp [hc])
      have heq := congrArg List.length h
      rw [List.dropWhile_cons_of_pos (by simpa using hc), List.length_cons] at heq
      omega
    · rw [List.dropWhile_cons_of_neg (by simpa using hc)]
      simp [hc]

theorem rdropWhile_cons (c : α) (word : List α) :
    (c :: word).rdropWhile (· == blank) =
      if word.rdropWhile (· == blank) = [] then [c].rdropWhile (· == blank)
      else c :: word.rdropWhile (· == blank) := by
  rw [List.rdropWhile, List.reverse_cons, List.dropWhile_append, List.rdropWhile]
  by_cases h : word.reverse.dropWhile (· == blank) = []
  · simp [h, List.rdropWhile]
  · simp [h]

/-- Which part of the field is read: it starts behind the blanks in front and ends before those at
the end. -/
theorem unpad_eq_drop (word : List α) :
    unpad blank word =
      (word.rdropWhile (· == blank)).drop (word.takeWhile (· == blank)).length := by
  induction word with
  | nil => rfl
  | cons c word ih =>
    by_cases hc : c = blank
    · have hskip : unpad blank (c :: word) = unpad blank word := by simp [unpad, hc]
      rw [hskip, ih, rdropWhile_cons, List.takeWhile_cons_of_pos (by simpa using hc),
        List.length_cons]
      by_cases hnil : word.rdropWhile (· == blank) = []
      · simp [hnil, hc, List.rdropWhile_singleton]
      · rw [if_neg hnil, List.drop_succ_cons]
    · rw [unpad_cons_of_ne hc, rdropWhile_cons, List.takeWhile_cons_of_neg (by simpa using hc),
        List.length_nil, List.drop_zero]
      by_cases hnil : word.rdropWhile (· == blank) = []
      · simp [hnil, hc, List.rdropWhile_singleton]
      · rw [if_neg hnil]

theorem unpad_eq_nil_iff (word : List α) : unpad blank word = [] ↔ ∀ c ∈ word, c = blank := by
  rw [unpad, List.rdropWhile_eq_nil_iff]
  constructor
  · intro h
    have hnil : word.dropWhile (· == blank) = [] := by
      by_contra hne
      have hhead := List.head_dropWhile_not (· == blank) hne
      rw [h _ (List.head_mem hne)] at hhead
      exact nomatch hhead
    simpa using List.dropWhile_eq_nil_iff.mp hnil
  · intro h c hc
    simpa using h c ((List.dropWhile_sublist _).subset hc)

theorem unpad_eq_self_iff (word : List α) :
    unpad blank word = word ↔ word.head? ≠ some blank ∧ word.getLast? ≠ some blank := by
  constructor
  · intro h
    have hdrop : word.dropWhile (· == blank) = word := by
      refine (List.dropWhile_suffix _).eq_of_length_le ?_
      calc word.length = (unpad blank word).length := by rw [h]
        _ ≤ (word.dropWhile (· == blank)).length := (List.rdropWhile_prefix _ _).length_le
    refine ⟨(dropWhile_eq_self_iff word).mp hdrop, (rdropWhile_eq_self_iff word).mp ?_⟩
    rw [unpad, hdrop] at h
    exact h
  · rintro ⟨hhead, hlast⟩
    rw [unpad, (dropWhile_eq_self_iff word).mpr hhead, (rdropWhile_eq_self_iff word).mpr hlast]

end Ohwes.Library

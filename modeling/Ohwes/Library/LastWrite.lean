import Mathlib.Tactic.Common
import Mathlib.Data.List.Basic

/-! # Sequences of writes to one place

Of a sequence of operations some name the place and give it a value. What the place holds
afterwards is the value of the last of them. -/

namespace Ohwes
set_option autoImplicit false

section LastWrite
variable {α β : Type} (names : α → Prop) [DecidablePred names] (value : α → β)

def lastWrite (ops : List α) (b : β) : β :=
  ops.foldl (fun b op => if names op then value op else b) b

@[simp] theorem lastWrite_nil (b : β) : lastWrite names value [] b = b := rfl

theorem lastWrite_cons (op : α) (ops : List α) (b : β) :
    lastWrite names value (op :: ops) b =
      lastWrite names value ops (if names op then value op else b) := rfl

theorem lastWrite_append (before after : List α) (b : β) :
    lastWrite names value (before ++ after) b =
      lastWrite names value after (lastWrite names value before b) := List.foldl_append

theorem lastWrite_of_unnamed {ops : List α} (h : ∀ op ∈ ops, ¬ names op) (b : β) :
    lastWrite names value ops b = b := by
  induction ops with
  | nil => rfl
  | cons op ops ih =>
    rw [lastWrite_cons, if_neg (h op (List.mem_cons_self ..))]
    exact ih fun o ho => h o (List.mem_cons_of_mem _ ho)

theorem lastWrite_of_last {before after : List α} {op : α} (hop : names op)
    (h : ∀ o ∈ after, ¬ names o) (b : β) :
    lastWrite names value (before ++ op :: after) b = value op := by
  rw [lastWrite_append, lastWrite_cons, if_pos hop, lastWrite_of_unnamed names value h]

/-- A sequence that names the place does so a last time. -/
theorem exists_last_named {ops : List α} (h : ∃ op ∈ ops, names op) :
    ∃ before op after, ops = before ++ op :: after ∧ names op ∧ ∀ o ∈ after, ¬ names o := by
  induction ops with
  | nil => simp at h
  | cons op ops ih =>
    by_cases hlater : ∃ o ∈ ops, names o
    · obtain ⟨before, o, after, rfl, ho, hafter⟩ := ih hlater
      exact ⟨op :: before, o, after, rfl, ho, hafter⟩
    · push Not at hlater
      obtain ⟨o, ho, hnames⟩ := h
      rcases List.mem_cons.1 ho with rfl | ho
      · exact ⟨[], o, ops, rfl, hnames, hlater⟩
      · exact absurd hnames (hlater o ho)

/-- Operations that name the place leave nothing of what it held. -/
theorem lastWrite_of_named {ops : List α} (h : ∃ op ∈ ops, names op) (b b' : β) :
    lastWrite names value ops b = lastWrite names value ops b' := by
  obtain ⟨before, op, after, rfl, hop, hafter⟩ := exists_last_named names h
  rw [lastWrite_of_last names value hop hafter, lastWrite_of_last names value hop hafter]

/-- What is left, read off the operations. -/
theorem eq_lastWrite_iff (ops : List α) (b x : β) :
    x = lastWrite names value ops b ↔
      ((∀ op ∈ ops, ¬ names op) → x = b) ∧
      ∀ before op after, ops = before ++ op :: after → names op → (∀ o ∈ after, ¬ names o) →
        x = value op := by
  constructor
  · rintro rfl
    refine ⟨fun h => lastWrite_of_unnamed names value h b, ?_⟩
    rintro before op after rfl hop hafter
    exact lastWrite_of_last names value hop hafter b
  · rintro ⟨hnone, hlast⟩
    by_cases h : ∃ op ∈ ops, names op
    · obtain ⟨before, op, after, rfl, hop, hafter⟩ := exists_last_named names h
      rw [lastWrite_of_last names value hop hafter]
      exact hlast before op after rfl hop hafter
    · push Not at h
      rw [lastWrite_of_unnamed names value h]
      exact hnone h

end LastWrite

end Ohwes

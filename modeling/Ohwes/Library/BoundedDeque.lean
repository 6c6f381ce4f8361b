import Mathlib.Data.List.Basic
import Ohwes.Library.Runs

/-! # Bounded double-ended queues and traces

A `BoundedDeque` is a list with room for `capacity` elements; an operation that does not fit is
refused and leaves the list alone. `trace` runs a machine whose steps answer, and
`trace_simulates` compares such a machine with one that always comes back: answers that agree at
each step agree over whole runs. -/

namespace Ohwes.Library
set_option autoImplicit false

/-- At most `capacity` elements, front first. -/
structure BoundedDeque (α : Type) (capacity : Nat) where
  items : List α
  length_le : items.length ≤ capacity

namespace BoundedDeque
variable {α : Type} {capacity : Nat}

def empty (α : Type) (capacity : Nat) : BoundedDeque α capacity := ⟨[], Nat.zero_le _⟩

def isFull (d : BoundedDeque α capacity) : Bool := d.items.length = capacity

theorem length_lt {d : BoundedDeque α capacity} (h : ¬ d.isFull = true) :
    d.items.length < capacity := by
  have hne : d.items.length ≠ capacity := by simpa [isFull] using h
  have hle := d.length_le
  omega

/-- Whether there was room, and the deque after. -/
def pushBack (d : BoundedDeque α capacity) (a : α) : Bool × BoundedDeque α capacity :=
  if h : d.isFull then (false, d)
  else (true, ⟨d.items ++ [a], by rw [List.length_append]; exact length_lt h⟩)

def pushFront (d : BoundedDeque α capacity) (a : α) : Bool × BoundedDeque α capacity :=
  if h : d.isFull then (false, d)
  else (true, ⟨a :: d.items, length_lt h⟩)

/-- The first element, if there is one, and the deque without it. -/
def popFront (d : BoundedDeque α capacity) : Option α × BoundedDeque α capacity :=
  (d.items.head?, ⟨d.items.tail, by have := d.length_le; rw [List.length_tail]; omega⟩)

def popBack (d : BoundedDeque α capacity) : Option α × BoundedDeque α capacity :=
  (d.items.getLast?, ⟨d.items.dropLast, by have := d.length_le; rw [List.length_dropLast]; omega⟩)

end BoundedDeque

section Traces
variable {σ τ α ο ε : Type}

/-- The answers of a run and the state it ends in. -/
def trace (step : σ → α → Except ε (ο × σ)) : σ → List α → Except ε (List ο × σ)
  | s, [] => .ok ([], s)
  | s, a :: ops =>
    (step s a).bind fun r => (trace step r.2 ops).bind fun rest => .ok (r.1 :: rest.1, rest.2)

/-- The answers of a run of a machine that always comes back. -/
def answers (step : τ → α → ο × τ) : τ → List α → List ο
  | _, [] => []
  | t, a :: ops => (step t a).1 :: answers step (step t a).2 ops

/-- A machine whose every step answers as the specification does, and leads to related states,
answers so throughout. -/
theorem trace_simulates {R : σ → τ → Prop} {step : σ → α → Except ε (ο × σ)}
    {spec : τ → α → ο × τ}
    (hstep : ∀ s t a, R s t → ∃ s', step s a = .ok ((spec t a).1, s') ∧ R s' (spec t a).2)
    {s : σ} {t : τ} (hR : R s t) (ops : List α) :
    ∃ s' t', trace step s ops = .ok (answers spec t ops, s') ∧ R s' t' := by
  induction ops generalizing s t with
  | nil => exact ⟨s, t, rfl, hR⟩
  | cons a ops ih =>
    obtain ⟨m, hm, hR'⟩ := hstep s t a hR
    obtain ⟨s', t', hs', ht'⟩ := ih hR'
    refine ⟨s', t', ?_, ht'⟩
    simp only [trace, answers, hm, hs', Except.bind]

end Traces

end Ohwes.Library

import Mathlib.Init

/-! # What a computation may come to

A computation with errors is specified by what holds of its result and what holds of its error. -/

namespace Ohwes.Library
set_option autoImplicit false

variable {ε α β : Type} {P P' : α → Prop} {R : β → Prop} {Q Q' : ε → Prop} {x : Except ε α}

/-- A result for which `P` holds, or an error for which `Q` holds. -/
inductive Ensures (P : α → Prop) (Q : ε → Prop) : Except ε α → Prop
  | ok {a : α} (h : P a) : Ensures P Q (.ok a)
  | error {e : ε} (h : Q e) : Ensures P Q (.error e)

theorem Ensures.bind {f : α → Except ε β} (hx : Ensures P Q x) (hf : ∀ a, P a → Ensures R Q (f a)) :
    Ensures R Q (x >>= f) := by
  cases hx with
  | ok h => exact hf _ h
  | error h => exact .error h

theorem Ensures.mono (hx : Ensures P Q x) (hP : ∀ a, P a → P' a) (hQ : ∀ e, Q e → Q' e) :
    Ensures P' Q' x := by
  cases hx with
  | ok h => exact .ok (hP _ h)
  | error h => exact .error (hQ _ h)

end Ohwes.Library

import Mathlib.Algebra.Order.Group.Nat

/-! # Asking a device again

A request to a device may fail, and `fails n` says whether the request number `n` does. Something
is asked for at most `limit` times; `attempts` is for several things one after the other. -/

namespace Ohwes.Library
set_option autoImplicit false

section Retry
variable (fails : Nat → Bool)

/-- The number of the request behind the first one that succeeds. -/
def attempt : Nat → Nat → Option Nat
  | 0, _ => none
  | limit + 1, n => if fails n then attempt limit (n + 1) else some (n + 1)

def attempts (limit : Nat) : Nat → Nat → Option Nat
  | 0, n => some n
  | count + 1, n => (attempt fails limit n).bind (attempts limit count)

variable {fails}

theorem attempt_eq_none {limit n : Nat} :
    attempt fails limit n = none ↔ ∀ i < limit, fails (n + i) = true := by
  induction limit generalizing n with
  | zero => exact ⟨fun _ i hi => absurd hi (Nat.not_lt_zero i), fun _ => rfl⟩
  | succ limit ih =>
    rw [attempt]
    by_cases h : fails n = true
    · rw [if_pos h, ih]
      constructor
      · intro hrest i hi
        cases i with
        | zero => exact h
        | succ i =>
          have hi := hrest i (Nat.lt_of_succ_lt_succ hi)
          rwa [Nat.add_assoc, Nat.add_comm 1] at hi
      · intro hall i hi
        have hi := hall (i + 1) (Nat.succ_lt_succ hi)
        rwa [Nat.add_comm i, ← Nat.add_assoc] at hi
    · rw [if_neg h]
      constructor
      · intro hsome
        cases hsome
      · exact fun hall => absurd (hall 0 (Nat.succ_pos limit)) h

theorem attempt_ge {limit n m : Nat} (h : attempt fails limit n = some m) : n < m := by
  induction limit generalizing n with
  | zero => exact nomatch h
  | succ limit ih =>
    rw [attempt] at h
    split at h
    · exact Nat.lt_of_succ_lt (ih h)
    · exact Option.some.inj h ▸ Nat.lt_succ_self n

/-- It comes to nothing only where so many requests in a row fail. -/
theorem attempts_eq_none {limit count n : Nat} (h : attempts fails limit count n = none) :
    ∃ m ≥ n, ∀ i < limit, fails (m + i) = true := by
  induction count generalizing n with
  | zero => exact nomatch h
  | succ count ih =>
    rw [attempts] at h
    cases ha : attempt fails limit n with
    | none => exact ⟨n, le_refl n, attempt_eq_none.mp ha⟩
    | some m =>
      rw [ha, Option.bind_some] at h
      obtain ⟨k, hk, hall⟩ := ih h
      exact ⟨k, (attempt_ge ha).le.trans hk, hall⟩

end Retry

end Ohwes.Library

import Mathlib.Algebra.Group.Int.Defs
import Mathlib.Algebra.Group.Nat.Defs
import Ohwes.Library.Runs

/-! # Common ground of the kernel's model

Pointers and `size_t` are 32-bit words, a C function is a Lean function on explicit state, and a
call that does not come back (a panic, a failed assertion, an access outside the object, a loop that
never ends) is the `error` case of `Except Halt`. Error numbers are those of `errno.h`; functions
return them negated, as the source does. -/

namespace Ohwes
set_option autoImplicit false

/-- Why a call does not come back. The kernel is built with `DEBUG`, so a failed `assert` panics. -/
inductive Halt where
  | panic (msg : String)
  | assertion
  /-- A null, uninitialised or out-of-bounds access: the behaviour of the source is undefined. -/
  | fault
  | diverges
  deriving DecidableEq, Repr

/-- A 32-bit address; `0` is `NULL`. -/
abbrev Ptr := BitVec 32

abbrev Byte := BitVec 8

/-- The value of a call: what it returns, or why it does not come back. -/
abbrev Call (α : Type) := Except Halt α

/-- `assert` of `assert.h`, in the `DEBUG` build. -/
def assert (cond : Bool) : Call Unit := if cond then .ok () else .error .assertion

@[simp] theorem assert_true : assert true = .ok () := rfl

@[simp] theorem assert_false : assert false = .error .assertion := rfl

theorem assert_bind_ok {α : Type} {c : Bool} {f : Unit → Call α} {r : α} :
    (assert c >>= f) = .ok r ↔ c = true ∧ f () = .ok r := by
  cases c
  · simp [bind, Except.bind]
  · simp [bind, Except.bind]

theorem bind_ok {α β : Type} {x : Call α} {f : α → Call β} {r : β} :
    (x >>= f) = .ok r ↔ ∃ a, x = .ok a ∧ f a = .ok r :=
  Library.except_bind_ok

@[simp] theorem ok_bind {α β : Type} (a : α) (f : α → Call β) :
    ((Except.ok a : Call α) >>= f) = f a := rfl

/-! ## Calls without undefined behaviour -/

section Clean
variable {α β : Type} {P Q : α → Prop} {R : β → Prop}

/-- The call fails no assertion and stays inside its objects; what it returns, if it does, meets
`P`. -/
def Clean (P : α → Prop) : Call α → Prop
  | .ok a => P a
  | .error h => h ≠ .assertion ∧ h ≠ .fault

@[simp] theorem clean_ok {a : α} : Clean P (.ok a) ↔ P a := Iff.rfl

@[simp] theorem clean_panic {msg : String} : Clean P (.error (.panic msg)) := by
  simp [Clean]

@[simp] theorem clean_diverges : Clean P (.error .diverges) := by simp [Clean]

theorem Clean.mono {x : Call α} (h : Clean P x) (hPQ : ∀ a, P a → Q a) : Clean Q x := by
  cases x with
  | ok a => exact hPQ a h
  | error e => exact h

theorem Clean.bind {x : Call α} {f : α → Call β} (hx : Clean P x)
    (hf : ∀ a, P a → Clean R (f a)) : Clean R (x >>= f) := by
  cases x with
  | ok a => exact hf a hx
  | error e => exact hx

theorem Clean.map {x : Call α} {f : α → β} (hx : Clean P x) (hf : ∀ a, P a → R (f a)) :
    Clean R (x.map f) := by
  cases x with
  | ok a => exact hf a hx
  | error e => exact hx

theorem Clean.of_ok {x : Call α} {a : α} (h : Clean P x) (hx : x = .ok a) : P a := by
  rw [hx] at h
  exact h

theorem Clean.ne {x : Call α} (h : Clean P x) : x ≠ .error .assertion ∧ x ≠ .error .fault := by
  cases x with
  | ok a => simp
  | error e => simpa [Clean] using h

end Clean

/-! ## `errno.h` -/

def ENOMEM : Int := 1
def ENFILE : Int := 2
def EBADF : Int := 3
def ENOSYS : Int := 4
def EMFILE : Int := 5
def ENODEV : Int := 7
def EPERM : Int := 8
def EFAULT : Int := 9
def EINVAL : Int := 10
def ENXIO : Int := 11
def ENOTTY : Int := 12
def EAGAIN : Int := 13
def ENOENT : Int := 14
def EBUSY : Int := 15
def EIO : Int := 17

end Ohwes

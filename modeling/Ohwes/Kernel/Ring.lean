import Ohwes.Library.CircularBuffer
import Ohwes.Kernel.Basic

/-! # `kernel/ring.c`: a double-ended character queue of fixed length

A `Ring` carries what every operation keeps: the head is inside the buffer, the count does not pass
the length, and the tail is `count` cells after the head. `Ring.chars` is the queue the ring stands
for; each operation is followed by what it does to that list. -/

namespace Ohwes
open Library
set_option autoImplicit false

/-- `struct ring` with its buffer. -/
structure Ring where
  ring : Nat → Byte
  length : Nat
  count : Nat
  head : Nat
  tail : Nat
  head_lt : 0 < length → head < length
  count_le : count ≤ length
  tail_eq : tail = (head + count) % length

namespace Ring

/-- The characters in the queue, front first. -/
def chars (q : Ring) : List Byte := window q.length q.ring q.head q.count

@[simp] theorem chars_length (q : Ring) : q.chars.length = q.count := window_length ..

theorem tail_lt (q : Ring) (h : 0 < q.length) : q.tail < q.length := by
  rw [q.tail_eq]
  exact Nat.mod_lt _ h

end Ring

/-- Stepping one cell forward with the test of the source is stepping modulo the length. -/
theorem wrap_succ {n p : Nat} (h : p < n) : (if p + 1 ≥ n then 0 else p + 1) = (p + 1) % n := by
  split
  · rw [show p + 1 = n by omega, Nat.mod_self]
  · rw [Nat.mod_eq_of_lt (by omega)]

/-- Stepping one cell back with the test of the source undoes a step forward. -/
theorem wrap_pred {n p : Nat} (h : p < n) :
    (if p = 0 then n else p) - 1 < n ∧ ((if p = 0 then n else p) - 1 + 1) % n = p := by
  split
  · next hp => exact ⟨by omega, by rw [show n - 1 + 1 = n by omega, Nat.mod_self, hp]⟩
  · next hp => exact ⟨by omega, by rw [show p - 1 + 1 = p by omega, Nat.mod_eq_of_lt h]⟩

def ringInit (buf : Nat → Byte) (length : Nat) : Ring where
  ring := buf
  length := length
  count := 0
  head := 0
  tail := 0
  head_lt h := h
  count_le := Nat.zero_le _
  tail_eq := by simp

def ringEmpty (q : Ring) : Bool := q.count = 0

def ringFull (q : Ring) : Bool := q.count = q.length

def ringLength (q : Ring) : Nat := q.length

def ringCount (q : Ring) : Nat := q.count

def ringGet (q : Ring) : Byte × Ring :=
  if h : ringEmpty q then (0, q)
  else
    (q.ring q.head,
      { q with
        head := if q.head + 1 ≥ q.length then 0 else q.head + 1
        count := q.count - 1
        head_lt := fun hl => by
          show (if q.head + 1 ≥ q.length then 0 else q.head + 1) < q.length
          split <;> omega
        count_le := by
          have := q.count_le
          show q.count - 1 ≤ q.length
          omega
        tail_eq := by
          have hc : q.count ≠ 0 := by simpa [ringEmpty] using h
          have hl := q.head_lt (by have := q.count_le; omega)
          show q.tail = _
          rw [wrap_succ hl, Nat.mod_add_mod, q.tail_eq]
          congr 1
          omega })

def ringPut (q : Ring) (c : Byte) : Bool × Ring :=
  if h : ringFull q then (false, q)
  else
    (true,
      { q with
        ring := Function.update q.ring q.tail c
        tail := if q.tail + 1 ≥ q.length then 0 else q.tail + 1
        count := q.count + 1
        count_le := by
          have hc : q.count ≠ q.length := by simpa [ringFull] using h
          have := q.count_le
          show q.count + 1 ≤ q.length
          omega
        tail_eq := by
          have hc : q.count ≠ q.length := by simpa [ringFull] using h
          have hl := q.tail_lt (by have := q.count_le; omega)
          show (if q.tail + 1 ≥ q.length then 0 else q.tail + 1) = (q.head + (q.count + 1)) % q.length
          rw [wrap_succ hl, q.tail_eq, Nat.mod_add_mod]
          rfl })

def ringErase (q : Ring) : Byte × Ring :=
  if h : ringEmpty q then (0, q)
  else
    let tail := (if q.tail = 0 then q.length else q.tail) - 1
    (q.ring tail,
      { q with
        tail := tail
        count := q.count - 1
        count_le := by
          have := q.count_le
          show q.count - 1 ≤ q.length
          omega
        tail_eq := by
          have hc : q.count ≠ 0 := by simpa [ringEmpty] using h
          have hn : 0 < q.length := by have := q.count_le; omega
          obtain ⟨hlt, hback⟩ := wrap_pred (q.tail_lt hn)
          have hmod : (tail + 1) % q.length = (q.head + (q.count - 1) + 1) % q.length := by
            rw [hback, q.tail_eq]
            congr 1
            omega
          have hcancel : tail ≡ q.head + (q.count - 1) [MOD q.length] :=
            Nat.ModEq.add_right_cancel' 1 hmod
          have hself : tail % q.length = tail := Nat.mod_eq_of_lt hlt
          exact hself.symm.trans hcancel })

def ringInsert (q : Ring) (c : Byte) : Bool × Ring :=
  if h : ringFull q then (false, q)
  else
    let head := (if q.head = 0 then q.length else q.head) - 1
    (true,
      { q with
        ring := Function.update q.ring head c
        head := head
        count := q.count + 1
        head_lt := fun hl => (wrap_pred (q.head_lt hl)).1
        count_le := by
          have hc : q.count ≠ q.length := by simpa [ringFull] using h
          have := q.count_le
          show q.count + 1 ≤ q.length
          omega
        tail_eq := by
          have hc : q.count ≠ q.length := by simpa [ringFull] using h
          have hl := q.head_lt (by have := q.count_le; omega)
          show q.tail = (head + (q.count + 1)) % q.length
          rw [q.tail_eq, show head + (q.count + 1) = head + 1 + q.count by omega,
            ← Nat.mod_add_mod (head + 1), (wrap_pred hl).2] })

def ringClear (q : Ring) : Ring :=
  { q with
    head := 0
    tail := 0
    count := 0
    head_lt := fun h => h
    count_le := Nat.zero_le _
    tail_eq := by simp }

/-! ## What the operations do to the queue -/

theorem ringEmpty_iff (q : Ring) : ringEmpty q = true ↔ q.count = 0 := by
  simp [ringEmpty]

theorem ringFull_iff (q : Ring) : ringFull q = true ↔ q.count = q.length := by
  simp [ringFull]

@[simp] theorem ringClear_count (q : Ring) : (ringClear q).count = 0 := rfl

@[simp] theorem ringClear_length (q : Ring) : (ringClear q).length = q.length := rfl

@[simp] theorem ringGet_length (q : Ring) : (ringGet q).2.length = q.length := by
  unfold ringGet
  split <;> rfl

@[simp] theorem ringGet_count (q : Ring) : (ringGet q).2.count = q.count - 1 := by
  unfold ringGet
  split
  · next h =>
    have := (ringEmpty_iff q).mp h
    show q.count = q.count - 1
    omega
  · rfl

@[simp] theorem ringPut_length (q : Ring) (c : Byte) : (ringPut q c).2.length = q.length := by
  unfold ringPut
  split <;> rfl

/-- A character the ring has no room for is dropped. -/
theorem ringPut_count (q : Ring) (c : Byte) :
    (ringPut q c).2.count = min (q.count + 1) q.length := by
  have := q.count_le
  unfold ringPut
  split
  · next h =>
    have := (ringFull_iff q).mp h
    show q.count = _
    omega
  · next h =>
    have : q.count ≠ q.length := fun e => h ((ringFull_iff q).mpr e)
    show q.count + 1 = _
    omega

@[simp] theorem ringErase_length (q : Ring) : (ringErase q).2.length = q.length := by
  unfold ringErase
  split <;> rfl

@[simp] theorem ringInsert_length (q : Ring) (c : Byte) : (ringInsert q c).2.length = q.length := by
  unfold ringInsert
  split <;> rfl

theorem ringClear_chars (q : Ring) : (ringClear q).chars = [] := rfl

theorem ringPut_chars (q : Ring) (c : Byte) :
    (ringPut q c).2.chars = if ringFull q then q.chars else q.chars ++ [c] := by
  unfold ringPut
  split
  · rfl
  · next h =>
    have : q.count ≠ q.length := fun e => h ((ringFull_iff q).mpr e)
    show window q.length (Function.update q.ring q.tail c) q.head (q.count + 1) = _
    rw [q.tail_eq]
    exact window_pushBack q.ring c (by have := q.count_le; omega)

theorem ringInsert_chars (q : Ring) (c : Byte) :
    (ringInsert q c).2.chars = if ringFull q then q.chars else c :: q.chars := by
  unfold ringInsert
  split
  · rfl
  · next h =>
    have hc : q.count ≠ q.length := fun e => h ((ringFull_iff q).mpr e)
    have hlt : q.count < q.length := by have := q.count_le; omega
    obtain ⟨hp, hback⟩ := wrap_pred (q.head_lt (by omega))
    exact window_pushFront q.ring c hlt hp hback

/-- What `ring_get` returns was the front of the queue. -/
theorem ringGet_chars (q : Ring) (h : ringEmpty q = false) :
    q.chars = (ringGet q).1 :: (ringGet q).2.chars := by
  have hc : q.count ≠ 0 := fun e => by simp [(ringEmpty_iff q).mpr e] at h
  have hl := q.head_lt (by have := q.count_le; omega)
  unfold ringGet
  simp only [h, Bool.false_eq_true, dite_false]
  show window q.length q.ring q.head q.count = q.ring q.head ::
    window q.length q.ring (if q.head + 1 ≥ q.length then 0 else q.head + 1) (q.count - 1)
  rw [wrap_succ hl]
  obtain ⟨k, hk⟩ := Nat.exists_eq_succ_of_ne_zero hc
  rw [hk, window_popFront, Nat.mod_eq_of_lt hl]
  rfl

/-- What `ring_erase` returns was the back of the queue. -/
theorem ringErase_chars (q : Ring) (h : ringEmpty q = false) :
    q.chars = (ringErase q).2.chars ++ [(ringErase q).1] := by
  have hc : q.count ≠ 0 := fun e => by simp [(ringEmpty_iff q).mpr e] at h
  have htail := (ringErase q).2.tail_eq
  unfold ringErase at htail ⊢
  simp only [h, Bool.false_eq_true, dite_false] at htail ⊢
  show window q.length q.ring q.head q.count
    = window q.length q.ring q.head (q.count - 1) ++ [q.ring _]
  rw [htail]
  obtain ⟨k, hk⟩ := Nat.exists_eq_succ_of_ne_zero hc
  rw [hk]
  exact window_popBack q.length q.ring q.head k

end Ohwes

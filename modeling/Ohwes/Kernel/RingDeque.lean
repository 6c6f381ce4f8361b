import Ohwes.Library.BoundedDeque
import Ohwes.Kernel.Ring

/-! # The ring buffer is a bounded deque

`ringStep` makes one call on a ring and answers with what the caller can see of it: the value
returned, the count, and whether the ring is empty or full. The call does not come back when it
would touch a cell outside the buffer. `dequeStep` is the same on a list of bounded length. -/

namespace Ohwes
open Library
set_option autoImplicit false

inductive RingOp where
  | clear
  | put (c : Byte)
  | get
  | insert (c : Byte)
  | erase
  deriving DecidableEq

/-- What a call returns. -/
inductive RingResult where
  | done
  | accepted (room : Bool)
  | char (c : Byte)
  deriving DecidableEq

/-- A call's result, and what the caller sees of the ring after it. -/
structure RingView where
  result : RingResult
  count : Nat
  empty : Bool
  full : Bool
  deriving DecidableEq

def ringCall (q : Ring) : RingOp → RingResult × Ring
  | .clear => (.done, ringClear q)
  | .put c => (.accepted (ringPut q c).1, (ringPut q c).2)
  | .get => (.char (ringGet q).1, (ringGet q).2)
  | .insert c => (.accepted (ringInsert q c).1, (ringInsert q c).2)
  | .erase => (.char (ringErase q).1, (ringErase q).2)

/-- The cell of the buffer a call reads or writes; a refused call touches none. -/
def ringCell (q : Ring) : RingOp → Option Nat
  | .clear => none
  | .put _ => if ringFull q then none else some q.tail
  | .get => if ringEmpty q then none else some q.head
  | .insert _ => if ringFull q then none else some ((if q.head = 0 then q.length else q.head) - 1)
  | .erase => if ringEmpty q then none else some ((if q.tail = 0 then q.length else q.tail) - 1)

def ringView (q : Ring) (r : RingResult) : RingView where
  result := r
  count := ringCount q
  empty := ringEmpty q
  full := ringFull q

def ringStep (q : Ring) (op : RingOp) : Call (RingView × Ring) :=
  if ∀ i ∈ ringCell q op, i < q.length then
    .ok (ringView (ringCall q op).2 (ringCall q op).1, (ringCall q op).2)
  else .error .fault

/-! ## The deque -/

def dequeView {n : Nat} (d : BoundedDeque Byte n) (r : RingResult) : RingView where
  result := r
  count := d.items.length
  empty := d.items.isEmpty
  full := d.isFull

/-- The operation on a deque; popping from an empty one answers NUL. -/
def dequeCall {n : Nat} (d : BoundedDeque Byte n) : RingOp → RingResult × BoundedDeque Byte n
  | .clear => (.done, BoundedDeque.empty Byte n)
  | .put c => (.accepted (d.pushBack c).1, (d.pushBack c).2)
  | .get => (.char (d.popFront.1.getD 0), d.popFront.2)
  | .insert c => (.accepted (d.pushFront c).1, (d.pushFront c).2)
  | .erase => (.char (d.popBack.1.getD 0), d.popBack.2)

def dequeStep {n : Nat} (d : BoundedDeque Byte n) (op : RingOp) : RingView × BoundedDeque Byte n :=
  (dequeView (dequeCall d op).2 (dequeCall d op).1, (dequeCall d op).2)

/-! ## One call -/

/-- The ring holds the deque's list in a buffer of its capacity. -/
structure Holds (n : Nat) (q : Ring) (d : BoundedDeque Byte n) : Prop where
  length : q.length = n
  chars : q.chars = d.items

namespace Holds
variable {n : Nat} {q : Ring} {d : BoundedDeque Byte n}

theorem count (h : Holds n q d) : q.count = d.items.length := by
  rw [← h.chars, Ring.chars_length]

theorem empty (h : Holds n q d) : ringEmpty q = d.items.isEmpty := by
  rw [ringEmpty, h.count]
  cases d.items with
  | nil => rfl
  | cons c items => rfl

theorem full (h : Holds n q d) : ringFull q = d.isFull := by
  rw [ringFull, BoundedDeque.isFull, h.count, h.length]

theorem view (h : Holds n q d) (r : RingResult) : ringView q r = dequeView d r := by
  simp only [ringView, dequeView, ringCount, h.count, h.empty, h.full]

theorem clear (h : Holds n q d) : Holds n (ringClear q) (BoundedDeque.empty Byte n) :=
  ⟨h.length, ringClear_chars q⟩

theorem put (h : Holds n q d) (c : Byte) :
    (ringPut q c).1 = (d.pushBack c).1 ∧ Holds n (ringPut q c).2 (d.pushBack c).2 := by
  have hlen : (ringPut q c).2.length = n := (ringPut_length q c).trans h.length
  have hchars := ringPut_chars q c
  rw [h.full, h.chars] at hchars
  cases hf : d.isFull with
  | true =>
    rw [hf, if_pos rfl] at hchars
    simp only [ringPut, BoundedDeque.pushBack, h.full, hf, dite_true, true_and]
    exact h
  | false =>
    rw [hf] at hchars
    refine ⟨?_, hlen, ?_⟩
    · simp [ringPut, BoundedDeque.pushBack, h.full, hf]
    · rw [hchars]
      simp [BoundedDeque.pushBack, hf]

theorem insert (h : Holds n q d) (c : Byte) :
    (ringInsert q c).1 = (d.pushFront c).1 ∧ Holds n (ringInsert q c).2 (d.pushFront c).2 := by
  have hlen : (ringInsert q c).2.length = n := (ringInsert_length q c).trans h.length
  have hchars := ringInsert_chars q c
  rw [h.full, h.chars] at hchars
  cases hf : d.isFull with
  | true =>
    simp only [ringInsert, BoundedDeque.pushFront, h.full, hf, dite_true, true_and]
    exact h
  | false =>
    rw [hf] at hchars
    refine ⟨?_, hlen, ?_⟩
    · simp [ringInsert, BoundedDeque.pushFront, h.full, hf]
    · rw [hchars]
      simp [BoundedDeque.pushFront, hf]

theorem get (h : Holds n q d) :
    (ringGet q).1 = d.popFront.1.getD 0 ∧ Holds n (ringGet q).2 d.popFront.2 := by
  have hlen : (ringGet q).2.length = n := (ringGet_length q).trans h.length
  cases he : ringEmpty q with
  | true =>
    have hnil : d.items = [] := List.isEmpty_iff.mp (h.empty.symm.trans he)
    simp only [ringGet, he, dite_true, BoundedDeque.popFront, hnil]
    exact ⟨rfl, h.length, h.chars.trans hnil⟩
  | false =>
    have hcons := ringGet_chars q he
    rw [h.chars] at hcons
    exact ⟨by simp [BoundedDeque.popFront, hcons], hlen, by simp [BoundedDeque.popFront, hcons]⟩

theorem erase (h : Holds n q d) :
    (ringErase q).1 = d.popBack.1.getD 0 ∧ Holds n (ringErase q).2 d.popBack.2 := by
  have hlen : (ringErase q).2.length = n := (ringErase_length q).trans h.length
  cases he : ringEmpty q with
  | true =>
    have hnil : d.items = [] := List.isEmpty_iff.mp (h.empty.symm.trans he)
    simp only [ringErase, he, dite_true, BoundedDeque.popBack, hnil]
    exact ⟨rfl, h.length, h.chars.trans hnil⟩
  | false =>
    have hsnoc := ringErase_chars q he
    rw [h.chars] at hsnoc
    exact ⟨by simp [BoundedDeque.popBack, hsnoc], hlen, by simp [BoundedDeque.popBack, hsnoc]⟩

theorem call (h : Holds n q d) (op : RingOp) :
    (ringCall q op).1 = (dequeCall d op).1 ∧ Holds n (ringCall q op).2 (dequeCall d op).2 := by
  cases op with
  | clear => exact ⟨rfl, h.clear⟩
  | put c => exact ⟨congrArg RingResult.accepted (h.put c).1, (h.put c).2⟩
  | get => exact ⟨congrArg RingResult.char h.get.1, h.get.2⟩
  | insert c => exact ⟨congrArg RingResult.accepted (h.insert c).1, (h.insert c).2⟩
  | erase => exact ⟨congrArg RingResult.char h.erase.1, h.erase.2⟩

end Holds

/-- A call that is not refused touches a cell of the buffer. -/
theorem ringCell_lt (q : Ring) (op : RingOp) : ∀ i ∈ ringCell q op, i < q.length := by
  have hle := q.count_le
  have hroom : ringFull q = false → 0 < q.length := fun h => by
    have : q.count ≠ q.length := fun e => by simp [(ringFull_iff q).mpr e] at h
    omega
  have hsome : ringEmpty q = false → 0 < q.length := fun h => by
    have : q.count ≠ 0 := fun e => by simp [(ringEmpty_iff q).mpr e] at h
    omega
  intro i hi
  cases op with
  | clear => cases hi
  | put c =>
    simp only [ringCell, Option.mem_ite_none_left, Option.mem_some] at hi
    rw [← hi.2]
    exact q.tail_lt (hroom (by simpa using hi.1))
  | get =>
    simp only [ringCell, Option.mem_ite_none_left, Option.mem_some] at hi
    rw [← hi.2]
    exact q.head_lt (hsome (by simpa using hi.1))
  | insert c =>
    simp only [ringCell, Option.mem_ite_none_left, Option.mem_some] at hi
    rw [← hi.2]
    exact (wrap_pred (q.head_lt (hroom (by simpa using hi.1)))).1
  | erase =>
    simp only [ringCell, Option.mem_ite_none_left, Option.mem_some] at hi
    rw [← hi.2]
    exact (wrap_pred (q.tail_lt (hsome (by simpa using hi.1)))).1

/-- A call leaves every cell but the one it touches alone. -/
theorem ringCall_frame (q : Ring) (op : RingOp) {i : Nat} (h : i ∉ ringCell q op) :
    (ringCall q op).2.ring i = q.ring i := by
  cases op with
  | clear => rfl
  | put c =>
    simp only [ringCell, Option.mem_ite_none_left, Option.mem_some, not_and] at h
    simp only [ringCall, ringPut]
    split
    · rfl
    · next hf => exact Function.update_of_ne (fun e => h hf e.symm) c q.ring
  | get =>
    simp only [ringCall, ringGet]
    split <;> rfl
  | insert c =>
    simp only [ringCell, Option.mem_ite_none_left, Option.mem_some, not_and] at h
    simp only [ringCall, ringInsert]
    split
    · rfl
    · next hf => exact Function.update_of_ne (fun e => h hf e.symm) c q.ring
  | erase =>
    simp only [ringCall, ringErase]
    split <;> rfl

/-- The ring holds the deque and has not written outside its buffer. -/
def HoldsIn (buf : Nat → Byte) (n : Nat) (q : Ring) (d : BoundedDeque Byte n) : Prop :=
  Holds n q d ∧ ∀ i, n ≤ i → q.ring i = buf i

theorem ringStep_holds {buf : Nat → Byte} {n : Nat} (q : Ring) (d : BoundedDeque Byte n)
    (op : RingOp) (h : HoldsIn buf n q d) :
    ∃ q', ringStep q op = .ok ((dequeStep d op).1, q') ∧ HoldsIn buf n q' (dequeStep d op).2 := by
  obtain ⟨hh, hout⟩ := h
  obtain ⟨hresult, hnext⟩ := hh.call op
  refine ⟨(ringCall q op).2, ?_, hnext, fun i hi => ?_⟩
  · rw [ringStep, if_pos (ringCell_lt q op), hnext.view, hresult]
    rfl
  · rw [← hout i hi]
    refine ringCall_frame q op fun hcell => ?_
    have hlt := ringCell_lt q op i hcell
    rw [hh.length] at hlt
    omega

/-! ## Every run -/

/-- **Refinement.** Whatever the buffer held and however long it is, a just initialised ring looks
like an empty deque, and every sequence of calls comes back with the deque's answers, without an
access outside the buffer. -/
theorem ring_refines_deque (buf : Nat → Byte) (length : Nat) (ops : List RingOp) :
    ringView (ringInit buf length) .done = dequeView (BoundedDeque.empty Byte length) .done ∧
      ∃ q, trace ringStep (ringInit buf length) ops =
          .ok (answers dequeStep (BoundedDeque.empty Byte length) ops, q) ∧
        q.length = length ∧ ∀ i, length ≤ i → q.ring i = buf i := by
  have hinit : Holds length (ringInit buf length) (BoundedDeque.empty Byte length) := ⟨rfl, rfl⟩
  refine ⟨hinit.view .done, ?_⟩
  obtain ⟨q, d, htrace, hq⟩ :=
    trace_simulates (R := HoldsIn buf length) ringStep_holds ⟨hinit, fun _ _ => rfl⟩ ops
  exact ⟨q, htrace, hq.1.length, hq.2⟩

end Ohwes

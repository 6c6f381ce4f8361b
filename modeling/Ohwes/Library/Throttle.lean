import Ohwes.Library.Runs
import Mathlib.Data.Nat.Notation

/-! # Stopping a sender in time

A receiver stores items until a reader takes them. It tells the sender to stop when an item leaves less
than `low` places, and the reader tells it to go on when there are that many again. The reader does so in
several steps, and items may come in between any two of them: it looks whether there is an item, takes
it, checks the room, tests the flag of the receiver, clears it, and tells the sender.

A sender that has been told to stop may still send `slack` items. The last place is not used. -/

namespace Ohwes.Library
set_option autoImplicit false

section Runs
variable {σ α ε : Type} {step : σ → α → Except ε σ} {Q : σ → α → Prop} {s t u : σ}

/-- The operations lead from one state to another, each of them where the condition holds. -/
structure RunsTo (step : σ → α → Except ε σ) (Q : σ → α → Prop) (s : σ) (ops : List α) (t : σ) : Prop where
  throughout : Throughout step Q s ops
  run : run step s ops = .ok t

theorem RunsTo.single {a : α} (hq : Q s a) (hstep : step s a = .ok t) : RunsTo step Q s [a] t where
  throughout := ⟨hq, fun _ _ => trivial⟩
  run := (run_cons_ok step).mpr ⟨t, hstep, rfl⟩

theorem RunsTo.cons {a : α} {ops : List α} (hq : Q s a) (hstep : step s a = .ok t)
    (h : RunsTo step Q t ops u) : RunsTo step Q s (a :: ops) u where
  throughout := by
    refine ⟨hq, fun m hm => ?_⟩
    rw [hstep] at hm
    cases hm
    exact h.throughout
  run := (run_cons_ok step).mpr ⟨t, hstep, h.run⟩

theorem RunsTo.append {ops more : List α} (h : RunsTo step Q s ops t) (h' : RunsTo step Q t more u) :
    RunsTo step Q s (ops ++ more) u := by
  induction ops generalizing s with
  | nil =>
    cases h.run
    exact h'
  | cons a ops ih =>
    obtain ⟨m, hm, hrun⟩ := (run_cons_ok step).mp h.run
    exact .cons h.throughout.1 hm (ih ⟨h.throughout.2 m hm, hrun⟩)

end Runs

inductive ReaderAt
  | looking | taking | checking | testing | clearing | telling
  deriving DecidableEq

structure Throttle where
  room : Nat
  /-- The receiver's flag. -/
  throttled : Bool
  /-- What the sender was told last. -/
  stopped : Bool
  /-- The items since it was told to stop. -/
  late : Nat
  reader : ReaderAt
  deriving DecidableEq

inductive ThrottleOp
  | put
  | read
  deriving DecidableEq

namespace Throttle

/-- One more item since the sender was told. -/
def count (t : Throttle) : Throttle := { t with late := t.late + 1 }

/-- Tell the sender to stop. -/
def tellStop (t : Throttle) : Throttle :=
  { t with throttled := true, stopped := true, late := if t.stopped then t.late else 0 }

section Machine
variable (size low : Nat)

def put (t : Throttle) : Throttle :=
  let t := { t with room := t.room - 1, late := t.late + 1 }
  if t.room < low ∧ t.throttled = false then t.tellStop else t

/-- A step of the reader. -/
def turn (t : Throttle) : Throttle :=
  match t.reader with
  | .looking => { t with reader := if t.room = size then .looking else .taking }
  | .taking => { t with room := t.room + 1, reader := .checking }
  | .checking => { t with reader := if low ≤ t.room then .testing else .looking }
  | .testing => { t with reader := if t.throttled then .clearing else .looking }
  | .clearing => { t with throttled := false, reader := .telling }
  | .telling => { t with stopped := false, reader := .looking }

def next (t : Throttle) : ThrottleOp → Throttle
  | .put => t.put low
  | .read => t.turn size low

def step (t : Throttle) (op : ThrottleOp) : Except Empty Throttle := .ok (t.next size low op)

/-- The sender keeps to what it was told. -/
def Polite (slack : Nat) (t : Throttle) (op : ThrottleOp) : Prop :=
  op = .put → t.stopped = true → t.late < slack

/-- No item comes in between the clearing of the flag and the message to the sender when it takes a place
below `low`. -/
def Quiet (t : Throttle) (op : ThrottleOp) : Prop := op = .put → t.reader = .telling → low < t.room

/-- There is a place for the item. -/
def Fits (t : Throttle) (op : ThrottleOp) : Prop := op = .put → 2 ≤ t.room

instance (slack : Nat) (t : Throttle) (op : ThrottleOp) : Decidable (Polite slack t op) :=
  inferInstanceAs (Decidable (_ → _ → _))

instance (t : Throttle) (op : ThrottleOp) : Decidable (Quiet low t op) :=
  inferInstanceAs (Decidable (_ → _ → _))

instance (t : Throttle) (op : ThrottleOp) : Decidable (Fits t op) :=
  inferInstanceAs (Decidable (_ → _))

end Machine

/-! ## Enough room -/

/-- What the reader's place says about the flag and the room. -/
def Paced (low slack : Nat) (t : Throttle) : Prop :=
  match t.reader with
  | .looking | .taking | .checking =>
    t.stopped = t.throttled ∧ (t.stopped = true → t.late ≤ slack ∧ low ≤ t.room + t.late + slack + 2) ∧
      (t.stopped = false → low ≤ t.room + slack + 1)
  | .testing =>
    t.stopped = t.throttled ∧ (t.stopped = true → t.late ≤ slack ∧ low ≤ t.room + t.late + 1) ∧
      (t.stopped = false → low ≤ t.room)
  | .clearing =>
    t.stopped = true ∧ t.throttled = true ∧ t.late ≤ slack ∧ low ≤ t.room + t.late + 1
  | .telling =>
    t.stopped = true ∧ t.throttled = false ∧ t.late ≤ slack ∧ low ≤ t.room + t.late + 1

section Bounds
variable {size low slack : Nat} {t : Throttle}

theorem Paced.fits (hslack : 2 * slack + 3 ≤ low) (h : t.Paced low slack)
    (hpolite : t.stopped = true → t.late < slack) (hquiet : t.reader = .telling → low < t.room) :
    2 ≤ t.room := by
  obtain ⟨room, throttled, stopped, late, reader⟩ := t
  cases reader with
  | looking | taking | checking | testing =>
    obtain ⟨-, hstop, hgo⟩ := h
    cases stopped with
    | true =>
      have hlate := hpolite rfl
      have hroom := (hstop rfl).2
      dsimp only at hlate hroom ⊢
      omega
    | false =>
      have hroom := hgo rfl
      dsimp only at hroom ⊢
      omega
  | clearing =>
    obtain ⟨hstop, -, -, hroom⟩ := h
    have hlate := hpolite hstop
    dsimp only at hlate hroom ⊢
    omega
  | telling =>
    have hroom := hquiet rfl
    dsimp only at hroom ⊢
    omega

theorem Paced.count (h : t.Paced low slack) (hpolite : t.stopped = true → t.late < slack) :
    t.count.Paced low slack := by
  obtain ⟨room, throttled, stopped, late, reader⟩ := t
  cases reader with
  | looking | taking | checking | testing =>
    obtain ⟨hflag, hstop, hgo⟩ := h
    refine ⟨hflag, fun hs => ?_, hgo⟩
    have hlate := hpolite hs
    have hroom := (hstop hs).2
    simp only [Throttle.count] at hlate hroom ⊢
    omega
  | clearing | telling =>
    obtain ⟨hs, hflag, hle, hroom⟩ := h
    have hlate := hpolite hs
    refine ⟨hs, hflag, ?_, ?_⟩
    · exact hlate
    · simp only [Throttle.count] at hroom ⊢
      omega

theorem Paced.put (hslack : 2 * slack + 3 ≤ low) (h : t.Paced low slack)
    (hpolite : t.stopped = true → t.late < slack) (hquiet : t.reader = .telling → low < t.room) :
    (t.put low).Paced low slack := by
  have hfits := h.fits hslack hpolite hquiet
  obtain ⟨room, throttled, stopped, late, reader⟩ := t
  rw [Throttle.put]
  cases reader with
  | looking | taking | checking | testing =>
    obtain ⟨hflag, hstop, hgo⟩ := h
    dsimp only at hflag hpolite hstop hgo hfits ⊢
    subst hflag
    split
    · next hlow =>
      obtain ⟨hlow, hgoing⟩ := hlow
      have hroom := hgo hgoing
      refine ⟨rfl, fun _ => ⟨?_, ?_⟩, fun hs => Bool.noConfusion hs⟩
      · simp only [tellStop, hgoing]
        exact Nat.zero_le _
      · simp only [tellStop, hgoing]
        simp
        omega
    · next hhigh =>
      refine ⟨rfl, fun hs => ?_, fun hs => ?_⟩
      · have hlate := hpolite hs
        have hroom := (hstop hs).2
        dsimp only at hroom ⊢
        omega
      · have hroom : ¬ room - 1 < low := fun hlt => hhigh ⟨hlt, hs⟩
        dsimp only
        omega
  | clearing =>
    obtain ⟨hs, hflag, hle, hroom⟩ := h
    have hlate := hpolite hs
    dsimp only at hs hflag hroom hlate hfits ⊢
    subst hs hflag
    rw [if_neg fun hand => Bool.noConfusion hand.2]
    exact ⟨rfl, rfl, hlate, by dsimp only; omega⟩
  | telling =>
    obtain ⟨hs, hflag, hle, hroom⟩ := h
    have hlate := hpolite hs
    have hlow := hquiet rfl
    dsimp only at hs hflag hroom hlate hlow ⊢
    rw [if_neg fun hand => absurd hand.1 (by omega)]
    exact ⟨hs, hflag, hlate, by dsimp only; omega⟩

theorem Paced.turn (h : t.Paced low slack) :
    (t.turn size low).Paced low slack := by
  obtain ⟨room, throttled, stopped, late, reader⟩ := t
  cases reader with
  | looking =>
    rw [Throttle.turn]
    dsimp only
    split
    · exact h
    · exact h
  | taking =>
    obtain ⟨hflag, hstop, hgo⟩ := h
    refine ⟨hflag, fun hs => ?_, fun hs => ?_⟩
    · have hroom := hstop hs
      dsimp only [Throttle.turn] at hroom ⊢
      omega
    · have hroom := hgo hs
      dsimp only [Throttle.turn] at hroom ⊢
      omega
  | checking =>
    obtain ⟨hflag, hstop, hgo⟩ := h
    rw [Throttle.turn]
    dsimp only
    split
    · next hlow =>
      exact ⟨hflag, fun hs => ⟨(hstop hs).1, by dsimp only; omega⟩, fun _ => hlow⟩
    · exact ⟨hflag, hstop, hgo⟩
  | testing =>
    obtain ⟨hflag, hstop, hgo⟩ := h
    rw [Throttle.turn]
    dsimp only at hflag hstop hgo ⊢
    split
    · next hset =>
      have hs := hflag.trans hset
      exact ⟨hs, hset, hstop hs⟩
    · next hclear =>
      have hs : stopped = false := hflag.trans (Bool.eq_false_iff.mpr hclear)
      refine ⟨hflag, fun hset => ?_, fun hs => ?_⟩
      · exact absurd (hflag.symm.trans hset) hclear
      · have hroom := hgo hs
        dsimp only
        omega
  | clearing =>
    obtain ⟨hs, hflag, hlate, hroom⟩ := h
    exact ⟨hs, rfl, hlate, hroom⟩
  | telling =>
    obtain ⟨hs, hflag, hlate, hroom⟩ := h
    refine ⟨hflag.symm, fun hset => Bool.noConfusion hset, fun _ => ?_⟩
    dsimp only [Throttle.turn] at hlate hroom ⊢
    omega

end Bounds

/-! ## Many items in a row -/

section Puts
variable {size low slack n : Nat} {t : Throttle}

/-- Items that do not change what the sender was told. -/
def Steady (low n : Nat) (t : Throttle) : Prop := t.throttled = true ∨ low + n ≤ t.room

theorem put_steady (h : t.Steady low (n + 1)) :
    t.put low = { t with room := t.room - 1, late := t.late + 1 } := by
  refine if_neg fun hand => ?_
  rcases h with hset | hroom
  · exact Bool.noConfusion (hset.symm.trans hand.2)
  · exact absurd hand.1 (by dsimp only; omega)

theorem Steady.next (h : t.Steady low (n + 1)) :
    ({ t with room := t.room - 1, late := t.late + 1 } : Throttle).Steady low n := by
  rcases h with hset | hroom
  · exact .inl hset
  · exact .inr (by dsimp only; omega)

theorem run_puts (h : t.Steady low n) : run (step size low) t (List.replicate n .put) =
    .ok { t with room := t.room - n, late := t.late + n } := by
  induction n generalizing t with
  | zero => rfl
  | succ n ih =>
    have hroom : t.room - 1 - n = t.room - (n + 1) := by omega
    have hlate : t.late + 1 + n = t.late + (n + 1) := by omega
    rw [List.replicate_succ, run_cons]
    refine (ih ?_).trans ?_
    · rw [next, put_steady h]
      exact h.next
    · rw [next, put_steady h]
      dsimp only
      rw [hroom, hlate]

/-- Each of them fits. -/
theorem puts_runsTo {Q : Throttle → ThrottleOp → Prop} (h : t.Steady low n) (hroom : n + 1 ≤ t.room)
    (hQ : ∀ i < n, Q { t with room := t.room - i, late := t.late + i } .put) :
    RunsTo (step size low) (fun t op => Q t op ∧ Fits t op) t (List.replicate n .put)
      { t with room := t.room - n, late := t.late + n } := by
  refine ⟨?_, run_puts h⟩
  induction n generalizing t with
  | zero => trivial
  | succ n ih =>
    rw [List.replicate_succ]
    refine ⟨⟨hQ 0 (Nat.succ_pos n), fun _ => by omega⟩, fun u hu => ?_⟩
    cases hu
    rw [next, put_steady h]
    refine ih h.next (by dsimp only; omega) fun i hi => ?_
    have hroom : t.room - 1 - i = t.room - (i + 1) := by omega
    have hlate : t.late + 1 + i = t.late + (i + 1) := by omega
    dsimp only
    rw [hroom, hlate]
    exact hQ (i + 1) (Nat.succ_lt_succ hi)

end Puts

end Throttle

end Ohwes.Library

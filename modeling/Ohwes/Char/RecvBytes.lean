import Ohwes.Char.Chunking

/-! # Which bytes of a batch are handled

`recvHandled` is the loop of `n_tty_recv` with a record of the bytes it is done with. Each of them is
handled once, in order; the call may end before the last byte, and at a carriage return that `IGNCR`
ignores it does not end at all. -/

namespace Ohwes
set_option autoImplicit false

section Handled
variable {D : Type} (drv : TtyDriver D)

def recvHandled : List Byte → Attached D → Call (List Byte × Attached D)
  | [], s => .ok ([], recvDone drv s)
  | c :: buf, s =>
    match recvPass drv c s with
    | .ended s => .ok ([c], s)
    | .again => .error .diverges
    | .next s => (recvHandled buf s).map fun x => (c :: x.1, x.2)

def nTtyRecvHandled (buf : Option (List Byte)) (s : Attached D) : Call (List Byte × Attached D) :=
  match buf, s.tty.ldiscData with
  | some buf, some _ => recvHandled drv buf s
  | _, _ => .ok ([], s)

variable {drv}

theorem map_map_snd {x : Call (List Byte × Attached D)} {y : Call (Attached D)} (c : Byte)
    (h : x.map (·.2) = y) : (x.map fun x => (c :: x.1, x.2)).map (·.2) = y := by
  rw [← h]
  cases x <;> rfl

/-- The record does not change what the loop does. -/
theorem recvHandled_state (buf : List Byte) (s : Attached D) :
    (recvHandled drv buf s).map (·.2) = recvLoop drv buf s := by
  induction buf generalizing s with
  | nil => rfl
  | cons c buf ih =>
    rw [recvHandled, recvLoop]
    cases recvPass drv c s with
    | ended s => rfl
    | again => rfl
    | next s => exact map_map_snd c (ih s)

theorem recvHandled_cons (c : Byte) (buf : List Byte) (s : Attached D) :
    recvHandled drv (c :: buf) s =
      if flowChar s.tty.termios c then .ok ([c], flowSwitch drv s c)
      else if ignoredChar s.tty.termios c then .error .diverges
      else if s.tty.termios.lFlag ECHO = true ∧ nTtyRecvRoom s.tty ≤ 1 then
        .ok ([c], writeChar drv s ASCII_BEL)
      else (recvHandled drv buf (takeChar drv s c)).map fun x => (c :: x.1, x.2) := by
  rw [recvHandled, recvPass_eq]
  split_ifs <;> rfl

variable (drv) in
/-- The loop, if it is over after that many passes. -/
def recvPasses : Nat → List Byte → Attached D → Option (Attached D)
  | _, [], s => some (recvDone drv s)
  | 0, _ :: _, _ => none
  | passes + 1, c :: buf, s =>
    match recvPass drv c s with
    | .ended s => some s
    | .again => recvPasses passes (c :: buf) s
    | .next s => recvPasses passes buf s

theorem recvPasses_stuck {c : Byte} {s : Attached D} (h : recvPass drv c s = .again)
    (passes : Nat) (buf : List Byte) : recvPasses drv passes (c :: buf) s = none := by
  induction passes with
  | zero => rfl
  | succ passes ih =>
    rw [recvPasses, h]
    exact ih

/-- `recvLoop` returns what the loop comes to in some number of passes, and diverges where no number
of passes is enough. -/
theorem recvLoop_passes (buf : List Byte) (s t : Attached D) :
    recvLoop drv buf s = .ok t ↔ ∃ passes, recvPasses drv passes buf s = some t := by
  induction buf generalizing s with
  | nil => simp [recvLoop, recvPasses]
  | cons c buf ih =>
    rw [recvLoop]
    cases hp : recvPass drv c s with
    | ended s' =>
      constructor
      · rintro ⟨rfl⟩
        exact ⟨1, by rw [recvPasses, hp]⟩
      · rintro ⟨n, hn⟩
        cases n with
        | zero => cases hn
        | succ n =>
          rw [recvPasses, hp] at hn
          exact congrArg Except.ok (Option.some.inj hn)
    | again => simp [recvPasses_stuck hp]
    | next s' =>
      dsimp only
      rw [ih s']
      constructor
      · rintro ⟨n, hn⟩
        refine ⟨n + 1, ?_⟩
        rw [recvPasses, hp]
        exact hn
      · rintro ⟨n, hn⟩
        cases n with
        | zero => cases hn
        | succ n =>
          rw [recvPasses, hp] at hn
          exact ⟨n, hn⟩

/-- The call is done with each byte once, in order, as far as it comes. -/
theorem recvHandled_prefix {buf handled : List Byte} {s t : Attached D}
    (h : recvHandled drv buf s = .ok (handled, t)) : handled <+: buf := by
  induction buf generalizing s handled with
  | nil =>
    cases h
    exact List.prefix_rfl
  | cons c buf ih =>
    have hone : [c] <+: c :: buf := ⟨buf, rfl⟩
    rw [recvHandled_cons] at h
    split_ifs at h
    · cases h
      exact hone
    · cases h
      exact hone
    · cases hrest : recvHandled drv buf (takeChar drv s c) with
      | error e =>
        rw [hrest] at h
        cases h
      | ok x =>
        rw [hrest] at h
        cases h
        exact List.cons_prefix_cons.mpr ⟨rfl, ih hrest⟩

/-! ## When all of them are handled -/

/-- The byte ends the call when `room` is left. -/
def LastByte (t : Termios) (room : Nat) (c : Byte) : Prop :=
  flowChar t c = true ∨ t.lFlag ECHO = true ∧ room ≤ 1

/-- No byte is a carriage return that `IGNCR` ignores, and one that ends the call is the last. -/
def AllHandled (t : Termios) (room : Nat) (buf : List Byte) : Prop :=
  ∀ i c, buf[i]? = some c →
    ignoredChar t c = false ∧ (LastByte t (room - i) c → i + 1 = buf.length)

theorem allHandled_cons {t : Termios} {room : Nat} {c : Byte} {buf : List Byte} :
    AllHandled t room (c :: buf) ↔
      (ignoredChar t c = false ∧ (LastByte t room c → buf = [])) ∧ AllHandled t (room - 1) buf := by
  constructor
  · intro h
    refine ⟨⟨(h 0 c rfl).1, fun hl => ?_⟩, fun i b hb => ?_⟩
    · have hlen := (h 0 c rfl).2 hl
      rw [List.length_cons] at hlen
      exact List.length_eq_zero_iff.mp (by omega)
    · obtain ⟨hign, hlast⟩ := h (i + 1) b (by simpa using hb)
      refine ⟨hign, fun hl => ?_⟩
      have hroom : room - 1 - i = room - (i + 1) := by omega
      rw [hroom] at hl
      have hlen := hlast hl
      rw [List.length_cons] at hlen
      omega
  · rintro ⟨⟨hign, hlast⟩, hrest⟩ i b hb
    cases i with
    | zero =>
      cases hb
      refine ⟨hign, fun hl => ?_⟩
      rw [hlast hl]
      rfl
    | succ i =>
      obtain ⟨hign', hlast'⟩ := hrest i b (by simpa using hb)
      refine ⟨hign', fun hl => ?_⟩
      have hroom : room - (i + 1) = room - 1 - i := by omega
      rw [hroom] at hl
      rw [List.length_cons, hlast' hl]

theorem ignoredChar_of_flowChar {t : Termios} {c : Byte} (h : flowChar t c = true) :
    ignoredChar t c = false := by
  have hc : c = START_CHAR ∨ c = STOP_CHAR := by
    unfold flowChar at h
    simp only [Bool.and_eq_true, Bool.or_eq_true, beq_iff_eq] at h
    exact h.2
  unfold ignoredChar
  rcases hc with rfl | rfl <;> rfl

/-- The loop returns with every byte handled exactly when the batch is of this kind. -/
theorem recvHandled_all_iff (buf : List Byte) {s : Attached D} {q : Ring}
    (h : s.tty.ldiscData = some q) :
    (∃ t, recvHandled drv buf s = .ok (buf, t)) ↔
      AllHandled s.tty.termios (nTtyRecvRoom s.tty) buf := by
  induction buf generalizing s q with
  | nil =>
    refine iff_of_true ⟨_, rfl⟩ ?_
    intro i c hc
    cases hc
  | cons c buf ih =>
    rw [allHandled_cons, recvHandled_cons]
    by_cases hflow : flowChar s.tty.termios c = true
    · have hlast : LastByte s.tty.termios (nTtyRecvRoom s.tty) c := Or.inl hflow
      rw [if_pos hflow]
      constructor
      · rintro ⟨t, ht⟩
        have hnil : buf = [] := by
          cases ht
          rfl
        subst hnil
        refine ⟨⟨ignoredChar_of_flowChar hflow, fun _ => rfl⟩, ?_⟩
        intro i b hb
        cases hb
      · rintro ⟨⟨-, hl⟩, -⟩
        rw [hl hlast]
        exact ⟨_, rfl⟩
    by_cases hign : ignoredChar s.tty.termios c = true
    · rw [if_neg hflow, if_pos hign]
      constructor
      · rintro ⟨t, ht⟩
        cases ht
      · rintro ⟨⟨hno, -⟩, -⟩
        rw [hign] at hno
        cases hno
    have hno : ignoredChar s.tty.termios c = false := by simpa using hign
    by_cases hbeep : s.tty.termios.lFlag ECHO = true ∧ nTtyRecvRoom s.tty ≤ 1
    · have hlast : LastByte s.tty.termios (nTtyRecvRoom s.tty) c := Or.inr hbeep
      rw [if_neg hflow, if_neg hign, if_pos hbeep]
      constructor
      · rintro ⟨t, ht⟩
        have hnil : buf = [] := by
          cases ht
          rfl
        subst hnil
        refine ⟨⟨hno, fun _ => rfl⟩, ?_⟩
        intro i b hb
        cases hb
      · rintro ⟨⟨-, hl⟩, -⟩
        rw [hl hlast]
        exact ⟨_, rfl⟩
    · have hlast : ¬ LastByte s.tty.termios (nTtyRecvRoom s.tty) c := by
        rintro (hf | hb)
        · exact hflow hf
        · exact hbeep hb
      have hrest := ih (takeChar_ring drv c h)
      rw [takeChar_termios, takeChar_room drv c h] at hrest
      rw [if_neg hflow, if_neg hign, if_neg hbeep, ← hrest]
      constructor
      · rintro ⟨t, ht⟩
        refine ⟨⟨hno, fun hl => absurd hl hlast⟩, t, ?_⟩
        cases hx : recvHandled drv buf (takeChar drv s c) with
        | error e =>
          rw [hx] at ht
          cases ht
        | ok x =>
          rw [hx] at ht
          simp only [Except.map, Except.ok.injEq, Prod.mk.injEq, List.cons.injEq, true_and] at ht
          obtain ⟨h₁, h₂⟩ := ht
          rw [← h₁, ← h₂]
      · rintro ⟨-, t, ht⟩
        rw [ht]
        exact ⟨t, rfl⟩

end Handled

section Claims
variable {D : Type} (drv : TtyDriver D)

/-- **Termination of `n_tty_recv`.** A call that returns has handled bytes from the front of the
batch, each once. It returns with all of them handled exactly when the line discipline is open and
no byte is an ignored carriage return or ends the call too early. -/
theorem recv_all_iff (s : Attached D) (buf : List Byte) :
    (nTtyRecvHandled drv (some buf) s).map (·.2) = nTtyRecv drv (some buf) s ∧
      (∀ handled t, nTtyRecvHandled drv (some buf) s = .ok (handled, t) → handled <+: buf) ∧
      ((∃ t, nTtyRecvHandled drv (some buf) s = .ok (buf, t)) ↔
        (buf = [] ∨ s.tty.ldiscData ≠ none) ∧
          AllHandled s.tty.termios (nTtyRecvRoom s.tty) buf) := by
  unfold nTtyRecvHandled nTtyRecv
  cases hq : s.tty.ldiscData with
  | none =>
    refine ⟨rfl, ?_, ?_⟩
    · intro handled t h
      cases h
      exact List.nil_prefix
    · constructor
      · rintro ⟨t, ht⟩
        cases ht
        refine ⟨Or.inl rfl, ?_⟩
        intro i c hc
        cases hc
      · rintro ⟨hb | hb, -⟩
        · subst hb
          exact ⟨_, rfl⟩
        · exact absurd rfl hb
  | some q =>
    refine ⟨recvHandled_state buf s, fun _ _ => recvHandled_prefix, ?_⟩
    rw [recvHandled_all_iff buf hq]
    simp

end Claims

/-- A driver that takes everything and does nothing. -/
def quietDriver : TtyDriver Unit where
  write _ buf _ := (buf.length, ())
  writeRoom _ _ := 1024
  flush := none
  throttle := none
  unthrottle := none
  stop := none
  start := none

/-- A carriage return under `IGNCR` is looked at for ever. -/
theorem ignored_return_hangs :
    nTtyRecv quietDriver (some [ASCII_CR])
      ⟨{ openedTty with termios := { defaultTermios with iflag := IGNCR } }, ()⟩ =
        .error .diverges := by
  rfl

end Ohwes

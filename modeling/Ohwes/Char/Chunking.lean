import Ohwes.Char.FlowControl

/-! # How the driver cuts its input into batches

`n_tty_recv` takes the characters of a batch one after the other until one of them ends the call.
`ending` and `taken` say which and how many, from the settings and the room alone; `recvLoop_eq`
connects them to the loop. `recording` is a driver that also remembers what it was given to write,
so that what was echoed can be compared. -/

namespace Ohwes
open Library
set_option autoImplicit false

/-! ## Where a batch ends -/

/-- How the loop of `n_tty_recv` comes to an end. -/
inductive Ending where
  | whole
  | stuck
  | switch (c : Byte)
  | beep
  deriving DecidableEq

/-- What ends a batch when `room` is left. -/
def ending (t : Termios) : Nat → List Byte → Ending
  | _, [] => .whole
  | room, c :: buf =>
    if flowChar t c then .switch c
    else if ignoredChar t c then .stuck
    else if t.lFlag ECHO = true ∧ room ≤ 1 then .beep
    else ending t (room - 1) buf

/-- How many characters are taken before that. -/
def taken (t : Termios) : Nat → List Byte → Nat
  | _, [] => 0
  | room, c :: buf =>
    if flowChar t c ∨ ignoredChar t c ∨ t.lFlag ECHO = true ∧ room ≤ 1 then 0
    else taken t (room - 1) buf + 1

theorem taken_le (t : Termios) (room : Nat) (buf : List Byte) : taken t room buf ≤ buf.length := by
  induction buf generalizing room with
  | nil => exact Nat.le_refl _
  | cons c buf ih =>
    rw [taken]
    split
    · exact Nat.zero_le _
    · exact Nat.succ_le_succ (ih _)

theorem taken_whole {t : Termios} {room : Nat} {buf : List Byte} (h : ending t room buf = .whole) :
    taken t room buf = buf.length := by
  induction buf generalizing room with
  | nil => rfl
  | cons c buf ih =>
    rw [ending] at h
    split_ifs at h with hf hi hb
    rw [taken, if_neg (by simp [hf, hi, hb]), ih h]
    rfl

/-- Nothing is echoed when characters are taken without room for them. -/
theorem echo_off_of_taken {t : Termios} (buf : List Byte) (h : taken t 0 buf ≠ 0) :
    t.lFlag ECHO = false := by
  cases buf with
  | nil => exact absurd rfl h
  | cons c buf =>
    rw [taken] at h
    split_ifs at h with hend
    · exact absurd rfl h
    have hecho : ¬ t.lFlag ECHO = true := fun he => hend (Or.inr (Or.inr ⟨he, Nat.zero_le _⟩))
    simpa using hecho

section Loop
variable {D : Type} (drv : TtyDriver D)

/-- Take characters, one after the other. -/
def takeAll (s : Attached D) (chars : List Byte) : Attached D := chars.foldl (takeChar drv) s

/-- What the call does about its end. -/
def finish (s : Attached D) : Ending → Call (Attached D)
  | .whole => .ok (recvDone drv s)
  | .stuck => .error .diverges
  | .switch c => .ok (flowSwitch drv s c)
  | .beep => .ok (writeChar drv s ASCII_BEL)

variable {drv}

variable (drv) in
/-- The loop of `n_tty_recv` takes what `taken` says and ends as `ending` says. -/
theorem recvLoop_eq (buf : List Byte) {s : Attached D} {q : Ring} (h : s.tty.ldiscData = some q) :
    recvLoop drv buf s =
      finish drv (takeAll drv s (buf.take (taken s.tty.termios (nTtyRecvRoom s.tty) buf)))
        (ending s.tty.termios (nTtyRecvRoom s.tty) buf) := by
  induction buf generalizing s q with
  | nil => rfl
  | cons c buf ih =>
    by_cases hflow : flowChar s.tty.termios c = true
    · simp [recvLoop_cons, ending, taken, hflow, finish, takeAll]
    by_cases hign : ignoredChar s.tty.termios c = true
    · simp [recvLoop_cons, ending, hflow, hign, finish]
    by_cases hbeep : s.tty.termios.lFlag ECHO = true ∧ nTtyRecvRoom s.tty ≤ 1
    · simp [recvLoop_cons, ending, taken, hflow, hign, hbeep, finish, takeAll]
    rw [recvLoop_cons, if_neg hflow, if_neg hign, if_neg hbeep,
      ih (takeChar_ring drv c h), takeChar_room drv c h, takeChar_termios, ending, if_neg hflow,
      if_neg hign, if_neg hbeep, taken, if_neg (by simp [hflow, hign, hbeep])]
    rfl

variable (drv) in
/-- One call on two parts: the second is looked at only if all of the first is taken. -/
theorem recvLoop_append {a : List Byte} (b : List Byte) {s : Attached D} {q : Ring}
    (h : s.tty.ldiscData = some q) :
    recvLoop drv (a ++ b) s =
      if ending s.tty.termios (nTtyRecvRoom s.tty) a = .whole then recvLoop drv b (takeAll drv s a)
      else recvLoop drv a s := by
  induction a generalizing s q with
  | nil => rfl
  | cons c a ih =>
    rw [List.cons_append, recvLoop_cons, recvLoop_cons, ending]
    by_cases hflow : flowChar s.tty.termios c = true
    · simp [hflow]
    by_cases hign : ignoredChar s.tty.termios c = true
    · simp [hflow, hign]
    by_cases hbeep : s.tty.termios.lFlag ECHO = true ∧ nTtyRecvRoom s.tty ≤ 1
    · simp [hflow, hign, hbeep]
    simp only [hflow, hign, hbeep, Bool.false_eq_true, if_false]
    rw [ih (takeChar_ring drv c h), takeChar_room drv c h, takeChar_termios]
    rfl

variable (drv) in
/-- Taking characters moves the ring and nothing else of the tty. -/
theorem takeAll_tty (chars : List Byte) {s : Attached D} {q : Ring}
    (h : s.tty.ldiscData = some q) :
    ∃ q', (takeAll drv s chars).tty = s.tty.setRing q' ∧ q'.length = q.length ∧
      q'.count = min (q.count + chars.length) q.length := by
  induction chars generalizing s q with
  | nil =>
    refine ⟨q, ?_, rfl, ?_⟩
    · show s.tty = { s.tty with ldiscData := some q }
      rw [← h]
    · have := q.count_le
      rw [List.length_nil]
      omega
  | cons c chars ih =>
    obtain ⟨q', hq', hlen, hcount⟩ := ih (takeChar_ring drv c h)
    refine ⟨q', ?_, ?_, ?_⟩
    · rw [show takeAll drv s (c :: chars) = takeAll drv (takeChar drv s c) chars from rfl, hq',
        takeChar_tty]
      unfold Tty.putChar
      rw [h]
      rfl
    · rw [hlen, ringPut_length]
    · rw [hcount, ringPut_length, ringPut_count, List.length_cons]
      omega

/-- Without room and without echo a character changes nothing. -/
theorem takeAll_full {s : Attached D} {q : Ring} (h : s.tty.ldiscData = some q)
    (hroom : nTtyRecvRoom s.tty = 0) (hecho : s.tty.termios.lFlag ECHO = false)
    (chars : List Byte) : takeAll drv s chars = s := by
  have hfull : ringFull q = true := by
    have hle := q.count_le
    have hr : nTtyRecvRoom s.tty = q.length - q.count := by
      unfold nTtyRecvRoom
      rw [h]
      rfl
    exact (ringFull_iff q).mpr (by omega)
  have hone : ∀ c, takeChar drv s c = s := by
    intro c
    have hput : s.tty.putChar (translate s.tty.termios c) = s.tty := by
      unfold Tty.putChar ringPut
      rw [h]
      simp only [hfull, dite_true]
      show { s.tty with ldiscData := some q } = s.tty
      rw [← h]
    unfold takeChar
    simp only [hecho, Bool.false_eq_true, if_false, hput]
  induction chars with
  | nil => rfl
  | cons c chars ih =>
    rw [show takeAll drv s (c :: chars) = takeAll drv (takeChar drv s c) chars from rfl, hone, ih]

end Loop

/-! ## What was echoed -/

/-- A driver that also remembers the characters it was given to write. -/
def recording {D : Type} (drv : TtyDriver D) : TtyDriver (D × List Byte) where
  write tty buf d := ((drv.write tty buf d.1).1, (drv.write tty buf d.1).2, d.2 ++ buf)
  writeRoom tty d := drv.writeRoom tty d.1
  flush := drv.flush.map fun f tty d => (f tty d.1, d.2)
  throttle := drv.throttle.map fun f tty d => (f tty d.1, d.2)
  unthrottle := drv.unthrottle.map fun f tty d => (f tty d.1, d.2)
  stop := drv.stop.map fun f tty d => (f tty d.1, d.2)
  start := drv.start.map fun f tty d => (f tty d.1, d.2)

section Recording
variable {D : Type} {drv : TtyDriver D}

/-- The characters a tty's driver was given to write. -/
def Attached.echoed (s : Attached (D × List Byte)) : List Byte := s.dev.2

@[simp] theorem callDev_echoed (op : Option (Tty → D → D)) (s : Attached (D × List Byte)) :
    (s.callDev (op.map fun f tty d => (f tty d.1, d.2))).echoed = s.echoed := by
  cases op <;> rfl

theorem throttleTty_echoed (s : Attached (D × List Byte)) :
    (throttleTty (recording drv) s).echoed = s.echoed := by
  unfold throttleTty
  split
  · rfl
  · exact callDev_echoed drv.throttle _

theorem flowSwitch_echoed (s : Attached (D × List Byte)) (c : Byte) :
    (flowSwitch (recording drv) s c).echoed = s.echoed := by
  unfold flowSwitch startTty stopTty
  split_ifs
  · rfl
  · exact callDev_echoed drv.start _
  · rfl
  · exact callDev_echoed drv.stop _

theorem recvDone_echoed (s : Attached (D × List Byte)) :
    (recvDone (recording drv) s).echoed = s.echoed := by
  unfold recvDone
  simp only []
  split
  · rw [throttleTty_echoed]
    exact callDev_echoed drv.flush s
  · exact callDev_echoed drv.flush s

/-- Echoing only adds to what was echoed. -/
theorem recvKeeps_log (log : List Byte) :
    RecvKeeps (recording drv) fun s => log <+: s.echoed where
  throttle s h := by rw [throttleTty_echoed]; exact h
  start s h := by
    unfold startTty
    split
    · exact h
    · exact (callDev_echoed drv.start _).symm ▸ h
  stop s h := by
    unfold stopTty
    split
    · exact h
    · exact (callDev_echoed drv.stop _).symm ▸ h
  write s c h := h.trans (List.prefix_append _ _)
  flush s h := (callDev_echoed drv.flush s).symm ▸ h
  put s c h := h

variable (drv) in
theorem takeAll_log (s : Attached (D × List Byte)) (chars : List Byte) :
    s.echoed <+: (takeAll (recording drv) s chars).echoed := by
  have hkeeps : ∀ (chars : List Byte) (t : Attached (D × List Byte)), s.echoed <+: t.echoed →
      s.echoed <+: (takeAll (recording drv) t chars).echoed := by
    intro chars
    induction chars with
    | nil => exact fun t h => h
    | cons c chars ih => exact fun t h => ih _ ((recvKeeps_log _).takeChar h c)
  exact hkeeps chars s List.prefix_rfl

end Recording

/-! ## Two states that answer alike -/

/-- What the write room of a driver depends on. Flushing and throttling do not change it. -/
structure RoomView {D : Type} (drv : TtyDriver D) (V : Type) where
  view : D → V
  room : ∀ (tty tty' : Tty) (d d' : D), tty'.device = tty.device → view d' = view d →
    drv.writeRoom tty' d' = drv.writeRoom tty d
  write : ∀ (tty tty' : Tty) (buf : List Byte) (d d' : D), tty'.device = tty.device →
    view d' = view d → view (drv.write tty' buf d').2 = view (drv.write tty buf d).2
  flush : ∀ f, drv.flush = some f → ∀ tty d, view (f tty d) = view d
  throttle : ∀ f, drv.throttle = some f → ∀ tty d, view (f tty d) = view d

/-- The second state is throttled as `x` says and otherwise looks like the first. -/
structure Alike {D V : Type} {drv : TtyDriver D} (k : RoomView drv V) (x : Bool)
    (s s' : Attached (D × List Byte)) : Prop where
  tty : s'.tty = { s.tty with throttled := x }
  view : k.view s'.dev.1 = k.view s.dev.1
  echoed : s'.echoed = s.echoed

namespace Alike
variable {D V : Type} {drv : TtyDriver D} {k : RoomView drv V} {x : Bool}
  {s s' : Attached (D × List Byte)}

theorem device (h : Alike k x s s') : s'.tty.device = s.tty.device := by rw [h.tty]

theorem termios (h : Alike k x s s') : s'.tty.termios = s.tty.termios := by rw [h.tty]

theorem ring (h : Alike k x s s') : s'.tty.ldiscData = s.tty.ldiscData := by rw [h.tty]

theorem writeRoom (h : Alike k x s s') :
    (recording drv).writeRoom s'.tty s'.dev = (recording drv).writeRoom s.tty s.dev :=
  k.room _ _ _ _ h.device h.view

theorem writeChar (h : Alike k x s s') (c : Byte) :
    Alike k x (writeChar (recording drv) s c) (writeChar (recording drv) s' c) where
  tty := h.tty
  view := k.write _ _ _ _ _ h.device h.view
  echoed := congrArg (· ++ [c]) h.echoed

theorem opost (h : Alike k x s s') (c : Byte) :
    Alike k x (opost (recording drv) s c).2 (opost (recording drv) s' c).2 := by
  unfold Ohwes.opost
  simp only [h.writeRoom, h.termios]
  split_ifs
  · exact h
  · exact h.writeChar _
  · exact h
  · exact (h.writeChar _).writeChar _
  · exact h.writeChar _
  · exact h.writeChar _

theorem echo (h : Alike k x s s') (c : Byte) :
    Alike k x (echo (recording drv) s c).2 (echo (recording drv) s' c).2 := by
  unfold Ohwes.echo
  simp only [h.writeRoom, h.termios]
  split_ifs
  · exact h
  · exact (h.writeChar _).writeChar _
  · exact h.opost c

theorem putChar (h : Alike k x s s') (c : Byte) :
    Alike k x { s with tty := s.tty.putChar c } { s' with tty := s'.tty.putChar c } where
  tty := by
    show s'.tty.putChar c = { s.tty.putChar c with throttled := x }
    rw [h.tty]
    unfold Tty.putChar
    cases s.tty.ldiscData <;> rfl
  view := h.view
  echoed := h.echoed

theorem takeChar (h : Alike k x s s') (c : Byte) :
    Alike k x (takeChar (recording drv) s c) (takeChar (recording drv) s' c) := by
  unfold Ohwes.takeChar
  simp only [h.termios]
  split_ifs
  · exact (h.echo _).putChar _
  · exact h.putChar _

theorem takeAll (h : Alike k x s s') (chars : List Byte) :
    Alike k x (takeAll (recording drv) s chars) (takeAll (recording drv) s' chars) := by
  induction chars generalizing s s' with
  | nil => exact h
  | cons c chars ih => exact ih (h.takeChar c)

end Alike

section Done
variable {D V : Type} {drv : TtyDriver D}

theorem recvDone_tty (s : Attached D) :
    (recvDone drv s).tty = { s.tty with
      throttled := s.tty.throttled || decide (nTtyRecvRoom s.tty < TTY_THROTTLE_THRESH) } := by
  unfold recvDone
  simp only [Attached.callDev_tty]
  split
  · next h =>
    rw [throttleTty_tty, Attached.callDev_tty]
    simp [h]
  · next h =>
    rw [Attached.callDev_tty]
    simp [h]

theorem callDev_view (k : RoomView drv V) {op : Option (Tty → D → D)}
    (h : ∀ f, op = some f → ∀ tty d, k.view (f tty d) = k.view d) (s : Attached (D × List Byte)) :
    k.view (s.callDev (op.map fun f tty d => (f tty d.1, d.2))).dev.1 = k.view s.dev.1 := by
  cases op with
  | none => rfl
  | some f => exact h f rfl _ _

/-- The end of a batch is the flush and the throttle; the driver's room stays what it was. -/
theorem recvDone_alike (k : RoomView drv V) (s : Attached (D × List Byte)) :
    Alike k (s.tty.throttled || decide (nTtyRecvRoom s.tty < TTY_THROTTLE_THRESH)) s
      (recvDone (recording drv) s) where
  tty := recvDone_tty s
  view := by
    unfold recvDone
    simp only []
    split
    · unfold throttleTty
      split
      · exact callDev_view k k.flush s
      · exact (callDev_view k k.throttle _).trans (callDev_view k k.flush s)
    · exact callDev_view k k.flush s
  echoed := recvDone_echoed s

theorem ending_switch {t : Termios} {room : Nat} {buf : List Byte} {c : Byte}
    (h : ending t room buf = .switch c) : c = START_CHAR ∨ c = STOP_CHAR := by
  induction buf generalizing room with
  | nil => cases h
  | cons d buf ih =>
    rw [ending] at h
    split_ifs at h with hflow
    · cases h
      unfold flowChar at hflow
      simp only [Bool.and_eq_true, Bool.or_eq_true, beq_iff_eq] at hflow
      exact hflow.2
    · exact ih h

theorem flowSwitch_tty {c : Byte} (h : c = START_CHAR ∨ c = STOP_CHAR) (s : Attached D) :
    (flowSwitch drv s c).tty = { s.tty with stopped := c == STOP_CHAR } := by
  unfold flowSwitch
  rcases h with rfl | rfl
  · rw [if_pos rfl]
    unfold startTty
    split
    · next hs =>
      have hs : s.tty.stopped = false := by simpa using hs
      show s.tty = { s.tty with stopped := false }
      rw [← hs]
    · rw [Attached.callDev_tty]
      rfl
  · rw [if_neg (by decide)]
    unfold stopTty
    split
    · next hs =>
      show s.tty = { s.tty with stopped := true }
      rw [← hs]
    · rw [Attached.callDev_tty]
      rfl

end Done

/-! ## The exact condition -/

/-- A batch of its own that does nothing (or never comes back), on a tty with this much room and
these flags: nothing goes into the ring, no beep, no change of a flag. -/
def Idle (t : Termios) (room : Nat) (stopped throttled : Bool) (b : List Byte) : Prop :=
  match ending t room b with
  | .stuck => True
  | .beep => False
  | .whole => (b = [] ∨ room = 0) ∧ (throttled = true ∨ TTY_THROTTLE_THRESH ≤ room)
  | .switch c => (taken t room b = 0 ∨ room = 0) ∧ stopped = (c == STOP_CHAR)

/-- Whether cutting a batch between `a` and `b` makes no difference. Where all of `a` is taken, the
call on `a` alone may throttle a tty that the call on both leaves as it is. Where something in `a`
ends the call, `b` is dropped in one call and looked at in two. -/
def CutHarmless (tty : Tty) (a b : List Byte) : Prop :=
  let t := tty.termios
  let room := nTtyRecvRoom tty - taken t (nTtyRecvRoom tty) a
  match ending t (nTtyRecvRoom tty) a with
  | .stuck => True
  | .whole => tty.throttled = true ∨ TTY_THROTTLE_THRESH ≤ room ∨
      ending t room b = .whole ∨ ending t room b = .stuck
  | .switch c => Idle t room (c == STOP_CHAR) tty.throttled b
  | .beep => Idle t room tty.stopped tty.throttled b

section Cut
variable {D V : Type} {drv : TtyDriver D}

/-- The tty and what was echoed are the same. -/
def SameOutcome (u v : Attached (D × List Byte)) : Prop := v.tty = u.tty ∧ v.echoed = u.echoed

/-- Two calls, where they come back, leave the tty as one call on both parts does. -/
def ChunkFree (drv : TtyDriver D) (s : Attached (D × List Byte)) (a b : List Byte) : Prop :=
  ∀ u t v, nTtyRecv (recording drv) (some (a ++ b)) s = .ok u →
    nTtyRecv (recording drv) (some a) s = .ok t →
    nTtyRecv (recording drv) (some b) t = .ok v → SameOutcome u v

theorem nTtyRecv_some {s : Attached D} {q : Ring} (h : s.tty.ldiscData = some q)
    (buf : List Byte) : nTtyRecv drv (some buf) s = recvLoop drv buf s := by
  unfold nTtyRecv
  rw [h]

variable (drv) in
/-- Characters that leave the ring as it was were none, or there was no room. -/
theorem taken_none {s : Attached D} {q : Ring} (h : s.tty.ldiscData = some q) (chars : List Byte)
    (hring : (takeAll drv s chars).tty.ldiscData = s.tty.ldiscData) :
    chars = [] ∨ nTtyRecvRoom s.tty = 0 := by
  obtain ⟨q', hq', _, hcount⟩ := takeAll_tty drv chars h
  have hsame : q' = q := by
    rw [hq', h] at hring
    exact Option.some.inj hring
  have hroom : nTtyRecvRoom s.tty = q.length - q.count := by
    unfold nTtyRecvRoom
    rw [h]
    rfl
  have hle := q.count_le
  subst hsame
  rcases chars with - | ⟨c, chars⟩
  · exact Or.inl rfl
  · rw [List.length_cons] at hcount
    exact Or.inr (by omega)

variable (drv) in
theorem takeAll_none {s : Attached D} {q : Ring} (h : s.tty.ldiscData = some q) (b : List Byte)
    (hnone : b.take (taken s.tty.termios (nTtyRecvRoom s.tty) b) = [] ∨ nTtyRecvRoom s.tty = 0) :
    takeAll drv s (b.take (taken s.tty.termios (nTtyRecvRoom s.tty) b)) = s := by
  by_cases hnil : b.take (taken s.tty.termios (nTtyRecvRoom s.tty) b) = []
  · rw [hnil]
    rfl
  · have hroom := hnone.resolve_left hnil
    refine takeAll_full h hroom (echo_off_of_taken b fun h0 => hnil ?_) _
    rw [hroom, h0, List.take_zero]

/-- A batch leaves everything as it was exactly when it is idle. -/
theorem idle_iff {t : Attached (D × List Byte)} {q : Ring} (h : t.tty.ldiscData = some q)
    (b : List Byte) :
    (∀ v, recvLoop (recording drv) b t = .ok v → SameOutcome t v) ↔
      Idle t.tty.termios (nTtyRecvRoom t.tty) t.tty.stopped t.tty.throttled b := by
  have hpre := takeAll_log drv t
    (b.take (taken t.tty.termios (nTtyRecvRoom t.tty) b))
  have hnone := takeAll_none (recording drv) h b
  have hring := taken_none (recording drv) h
    (b.take (taken t.tty.termios (nTtyRecvRoom t.tty) b))
  rw [recvLoop_eq (recording drv) b h]
  unfold Idle
  cases he : ending t.tty.termios (nTtyRecvRoom t.tty) b with
  | stuck => exact ⟨fun _ => trivial, fun _ v hv => nomatch hv⟩
  | beep =>
    refine ⟨fun hv => ?_, fun hf => hf.elim⟩
    have hlog : (takeAll (recording drv) t _).echoed ++ [ASCII_BEL] = t.echoed := (hv _ rfl).2
    have hlen := congrArg List.length hlog
    have hle := hpre.length_le
    rw [List.length_append, List.length_singleton] at hlen
    omega
  | whole =>
    rw [taken_whole he, List.take_length] at *
    constructor
    · intro hv
      have htty := (hv _ rfl).1
      rw [recvDone_tty] at htty
      have hkept : (takeAll (recording drv) t b).tty.ldiscData = t.tty.ldiscData :=
        (congrArg Tty.ldiscData htty :)
      have hthr := congrArg Tty.throttled htty
      have hall := hnone (hring hkept)
      refine ⟨hring hkept, ?_⟩
      rw [hall] at hthr
      simp only [Bool.or_eq_left_iff_imp, decide_eq_true_eq] at hthr
      by_cases hroom : nTtyRecvRoom t.tty < TTY_THROTTLE_THRESH
      · exact Or.inl (hthr hroom)
      · exact Or.inr (Nat.le_of_not_lt hroom)
    · rintro ⟨hempty, hthr⟩ v hv
      cases hv
      rw [hnone hempty]
      refine ⟨?_, recvDone_echoed t⟩
      have hflag : (t.tty.throttled || decide (nTtyRecvRoom t.tty < TTY_THROTTLE_THRESH)) =
          t.tty.throttled := by
        rcases hthr with hthr | hroom
        · rw [hthr, Bool.true_or]
        · simp [Nat.not_lt.mpr hroom]
      rw [recvDone_tty, hflag]
  | switch c =>
    have hc := ending_switch he
    constructor
    · intro hv
      have htty := (hv _ rfl).1
      rw [flowSwitch_tty hc] at htty
      have hkept : (takeAll (recording drv) t _).tty.ldiscData = t.tty.ldiscData :=
        (congrArg Tty.ldiscData htty :)
      have hstop := congrArg Tty.stopped htty
      refine ⟨(hring hkept).imp_left fun hnil => ?_, hstop.symm⟩
      have hle := taken_le t.tty.termios (nTtyRecvRoom t.tty) b
      have hlen := congrArg List.length hnil
      rw [List.length_take, List.length_nil] at hlen
      omega
    · rintro ⟨hempty, hstop⟩ v hv
      cases hv
      rw [hnone (hempty.imp_left fun h0 => by rw [h0, List.take_zero])]
      refine ⟨?_, flowSwitch_echoed t c⟩
      rw [flowSwitch_tty hc, ← hstop]

variable (drv) in
theorem room_takeAll (chars : List Byte) {s : Attached D} {q : Ring}
    (h : s.tty.ldiscData = some q) :
    nTtyRecvRoom (takeAll drv s chars).tty = nTtyRecvRoom s.tty - chars.length := by
  obtain ⟨q', hq', hlen, hcount⟩ := takeAll_tty drv chars h
  have hroom : nTtyRecvRoom s.tty = q.length - q.count := by
    unfold nTtyRecvRoom
    rw [h]
    rfl
  rw [hq', hroom]
  show q'.length - q'.count = _
  have := q.count_le
  omega

variable (drv) in
theorem takeAll_throttled (chars : List Byte) {s : Attached D} {q : Ring}
    (h : s.tty.ldiscData = some q) :
    (takeAll drv s chars).tty.throttled = s.tty.throttled := by
  obtain ⟨q', hq', _⟩ := takeAll_tty drv chars h
  rw [hq']
  rfl

theorem sameOutcome_of_throttled {u v : Attached (D × List Byte)} {x : Bool}
    (htty : v.tty = { u.tty with throttled := x }) (hlog : v.echoed = u.echoed) :
    SameOutcome u v ↔ x = u.tty.throttled := by
  unfold SameOutcome
  rw [htty]
  constructor
  · intro h
    exact (congrArg Tty.throttled h.1 :)
  · intro h
    rw [h]
    exact ⟨rfl, hlog⟩

/-- Two states that differ in the flag come to the same end if the end sets the flag in both, or if
they do not differ. -/
theorem finish_alike {k : RoomView drv V} {x : Bool} {s s' u v : Attached (D × List Byte)}
    {e : Ending} (h : Alike k x s s') (hu : finish (recording drv) s e = .ok u)
    (hv : finish (recording drv) s' e = .ok v) :
    SameOutcome u v ↔ x = s.tty.throttled ∨
      e = .whole ∧ nTtyRecvRoom s.tty < TTY_THROTTLE_THRESH := by
  have hroom : nTtyRecvRoom s'.tty = nTtyRecvRoom s.tty := nTtyRecvRoom_congr h.ring
  cases e with
  | stuck => cases hu
  | whole =>
    cases hu
    cases hv
    have hlog : (recvDone (recording drv) s').echoed = (recvDone (recording drv) s).echoed := by
      rw [recvDone_echoed, recvDone_echoed, h.echoed]
    have htty : (recvDone (recording drv) s').tty = { (recvDone (recording drv) s).tty with
        throttled := x || decide (nTtyRecvRoom s.tty < TTY_THROTTLE_THRESH) } := by
      rw [recvDone_tty, recvDone_tty, hroom, h.tty]
    rw [sameOutcome_of_throttled htty hlog, recvDone_tty]
    by_cases hlow : nTtyRecvRoom s.tty < TTY_THROTTLE_THRESH
    · simp [hlow]
    · simp [hlow]
  | switch c =>
    cases hu
    cases hv
    have hlog : (flowSwitch (recording drv) s' c).echoed = (flowSwitch (recording drv) s c).echoed := by
      rw [flowSwitch_echoed, flowSwitch_echoed, h.echoed]
    have htty : (flowSwitch (recording drv) s' c).tty =
        { (flowSwitch (recording drv) s c).tty with throttled := x } := by
      unfold flowSwitch startTty stopTty
      rw [h.tty]
      split_ifs <;> simp only [Attached.callDev_tty, h.tty]
    rw [sameOutcome_of_throttled htty hlog, (flowSwitch_frame _ s c).1]
    simp
  | beep =>
    cases hu
    cases hv
    have hlog : (writeChar (recording drv) s' ASCII_BEL).echoed =
        (writeChar (recording drv) s ASCII_BEL).echoed := congrArg (· ++ [ASCII_BEL]) h.echoed
    have htty : (writeChar (recording drv) s' ASCII_BEL).tty =
        { (writeChar (recording drv) s ASCII_BEL).tty with throttled := x } := h.tty
    rw [sameOutcome_of_throttled htty hlog]
    simp

/-- A first part that is taken whole: the two runs differ at most in the flag. -/
theorem whole_iff (k : RoomView drv V) {s : Attached (D × List Byte)} {q : Ring}
    (h : s.tty.ldiscData = some q) (b : List Byte) :
    (∀ u v, recvLoop (recording drv) b s = .ok u →
        recvLoop (recording drv) b (recvDone (recording drv) s) = .ok v → SameOutcome u v) ↔
      s.tty.throttled = true ∨ TTY_THROTTLE_THRESH ≤ nTtyRecvRoom s.tty ∨
        ending s.tty.termios (nTtyRecvRoom s.tty) b = .whole ∨
        ending s.tty.termios (nTtyRecvRoom s.tty) b = .stuck := by
  have halike := recvDone_alike k s
  have hroom' : nTtyRecvRoom (recvDone (recording drv) s).tty = nTtyRecvRoom s.tty :=
    nTtyRecvRoom_congr halike.ring
  rw [recvLoop_eq _ b h, recvLoop_eq _ b (halike.ring.trans h), hroom', halike.termios]
  generalize ending s.tty.termios (nTtyRecvRoom s.tty) b = e
  generalize b.take (taken s.tty.termios (nTtyRecvRoom s.tty) b) = pre
  have hall := halike.takeAll pre
  have hthr := takeAll_throttled (recording drv) pre h
  have hrm := room_takeAll (recording drv) pre h
  have hends : e = .stuck ∨ ∃ u v, finish (recording drv) (takeAll (recording drv) s pre) e = .ok u ∧
      finish (recording drv) (takeAll (recording drv) (recvDone (recording drv) s) pre) e = .ok v := by
    cases e with
    | stuck => exact Or.inl rfl
    | whole => exact Or.inr ⟨_, _, rfl, rfl⟩
    | switch c => exact Or.inr ⟨_, _, rfl, rfl⟩
    | beep => exact Or.inr ⟨_, _, rfl, rfl⟩
  rcases hends with rfl | ⟨u, v, hu, hv⟩
  · exact ⟨fun _ => Or.inr (Or.inr (Or.inr rfl)), fun _ u v hu => nomatch hu⟩
  have hsame := finish_alike hall hu hv
  rw [hthr, hrm] at hsame
  have hstuck : e ≠ .stuck := by
    rintro rfl
    cases hu
  constructor
  · intro hsplit
    rcases hsame.mp (hsplit u v hu hv) with hx | ⟨he, _⟩
    · by_cases hlow : nTtyRecvRoom s.tty < TTY_THROTTLE_THRESH
      · exact Or.inl (by simpa [hlow] using hx.symm)
      · exact Or.inr (Or.inl (Nat.le_of_not_lt hlow))
    · exact Or.inr (Or.inr (Or.inl he))
  · intro hcond u' v' hu' hv'
    cases hu.symm.trans hu'
    cases hv.symm.trans hv'
    apply hsame.mpr
    by_cases hlow : nTtyRecvRoom s.tty < TTY_THROTTLE_THRESH
    · rcases hcond with hthr | hge | he | he
      · exact Or.inl (by simp [hthr])
      · omega
      · exact Or.inr ⟨he, by omega⟩
      · exact absurd he hstuck
    · exact Or.inl (by simp [hlow])

/-- Where the call on `a` stops short with `t`, the call on both does too, and `b` has to be idle. -/
theorem short_iff {s t : Attached (D × List Byte)} {q : Ring} {a : List Byte} (b : List Byte)
    (h : s.tty.ldiscData = some q) (hring : ∃ q', t.tty.ldiscData = some q')
    (hshort : ending s.tty.termios (nTtyRecvRoom s.tty) a ≠ .whole)
    (ht : recvLoop (recording drv) a s = .ok t) :
    ChunkFree drv s a b ↔
      Idle t.tty.termios (nTtyRecvRoom t.tty) t.tty.stopped t.tty.throttled b := by
  obtain ⟨q', hq'⟩ := hring
  have hboth : recvLoop (recording drv) (a ++ b) s = .ok t := by
    rw [recvLoop_append _ b h, if_neg hshort, ht]
  rw [← idle_iff hq' b]
  unfold ChunkFree
  simp only [nTtyRecv_some h, hboth, ht]
  constructor
  · intro hcut v hv
    exact hcut t t v rfl rfl (by rw [nTtyRecv_some hq', hv])
  · intro hidle u t' v hu ht' hv
    cases hu
    cases ht'
    rw [nTtyRecv_some hq'] at hv
    exact hidle v hv

/-- The cut makes no difference exactly where `CutHarmless` says so, for a driver whose write room
has a view. -/
theorem chunkFree_iff (k : RoomView drv V) {s : Attached (D × List Byte)} {q : Ring}
    (h : s.tty.ldiscData = some q) (a b : List Byte) :
    ChunkFree drv s a b ↔ CutHarmless s.tty a b := by
  have hrecv := recvLoop_eq (recording drv) a h
  have hlen : (a.take (taken s.tty.termios (nTtyRecvRoom s.tty) a)).length =
      taken s.tty.termios (nTtyRecvRoom s.tty) a := by
    rw [List.length_take]
    exact Nat.min_eq_left (taken_le _ _ _)
  have hroom := room_takeAll (recording drv)
    (a.take (taken s.tty.termios (nTtyRecvRoom s.tty) a)) h
  obtain ⟨q', htty, _⟩ := takeAll_tty (recording drv)
    (a.take (taken s.tty.termios (nTtyRecvRoom s.tty) a)) h
  rw [hlen] at hroom
  unfold CutHarmless
  simp only [← hroom]
  cases he : ending s.tty.termios (nTtyRecvRoom s.tty) a with
  | stuck =>
    rw [he] at hrecv
    simp only []
    refine ⟨fun _ => trivial, fun _ u t v _ ht => ?_⟩
    rw [nTtyRecv_some h, hrecv] at ht
    cases ht
  | whole =>
    have hboth : recvLoop (recording drv) (a ++ b) s =
        recvLoop (recording drv) b (takeAll (recording drv) s a) := by
      rw [recvLoop_append _ b h, if_pos he]
    rw [he, taken_whole he, List.take_length] at hrecv
    rw [taken_whole he, List.take_length] at htty
    simp only [taken_whole he, List.take_length]
    have h1 : (takeAll (recording drv) s a).tty.ldiscData = some q' := by
      rw [htty]
      rfl
    have hdone : (recvDone (recording drv) (takeAll (recording drv) s a)).tty.ldiscData = some q' := by
      rw [recvDone_tty]
      exact h1
    have hiff := whole_iff k h1 b
    have hset : (takeAll (recording drv) s a).tty.termios = s.tty.termios := by
      rw [htty]
      rfl
    rw [takeAll_throttled _ a h, hset] at hiff
    rw [← hiff]
    unfold ChunkFree
    simp only [nTtyRecv_some h, hboth, hrecv]
    constructor
    · intro hcut u v hu hv
      exact hcut u _ v hu rfl (by rw [nTtyRecv_some hdone, hv])
    · intro hwhole u t v hu ht hv
      cases ht
      rw [nTtyRecv_some hdone] at hv
      exact hwhole u v hu hv
  | switch c =>
    rw [he] at hrecv
    have hc := ending_switch he
    simp only []
    rw [short_iff b h ⟨q', by rw [flowSwitch_tty hc, htty]; rfl⟩ (by rw [he]; simp) hrecv,
      flowSwitch_tty hc, htty]
    rfl
  | beep =>
    rw [he] at hrecv
    simp only []
    rw [short_iff b h ⟨q', by rw [writeChar_tty, htty]; rfl⟩ (by rw [he]; simp) hrecv,
      writeChar_tty, htty]
    rfl

end Cut

end Ohwes

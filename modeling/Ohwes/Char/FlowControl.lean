import Ohwes.Char.Ldisc

/-! # Receive flow control

A tty is throttled to keep its sender from overrunning the receive ring: `FlowOk` says that the flag
is set exactly while less than the threshold is left. Three operations move the ring's fill.

* `n_tty_read` looks at the room after every character it takes, and always keeps `FlowOk`.
* `n_tty_recv` looks at it once, after the last character. A call that ends before that (at an XON
  or XOFF character, or with a beep because there is no room for the echo) leaves the flag as it
  was, so it keeps `FlowOk` only if the room did not cross the threshold on the way.
* `n_tty_clear` empties the ring and leaves the flag as it was.

`receive_flow_control` turns this into the exact boundary over runs. -/

namespace Ohwes
open Library
set_option autoImplicit false

/-- A tty whose line discipline has been opened. -/
def LdiscOpen (tty : Tty) : Prop :=
  ∃ q, tty.ldiscData = some q ∧ q.length = TTY_BUFFER_SIZE

def FlowOk (tty : Tty) : Prop :=
  tty.throttled = true ↔ nTtyRecvRoom tty < TTY_THROTTLE_THRESH

instance (tty : Tty) : Decidable (FlowOk tty) := inferInstanceAs (Decidable (_ ↔ _))

/-! ## The condition on a batch -/

/-- A character that is neither flow control nor ignored. -/
def ordinary (t : Termios) (c : Byte) : Bool := !flowChar t c && !ignoredChar t c

/-- `n_tty_recv` returns at this character when `room` is left. -/
def EndsCall (t : Termios) (room : Nat) (c : Byte) : Prop :=
  flowChar t c = true ∨ ignoredChar t c = false ∧ t.lFlag ECHO = true ∧ room ≤ 1

/-- No character of the batch ends the call once the ordinary characters before it have left less
than the threshold. -/
def StopsInTime (t : Termios) (room : Nat) (buf : List Byte) : Prop :=
  ∀ i, i < buf.length → (∀ c ∈ buf.take i, ordinary t c = true) →
    EndsCall t (room - i) (buf.getD i 0) → i + TTY_THROTTLE_THRESH ≤ room

instance (t : Termios) (room : Nat) (c : Byte) : Decidable (EndsCall t room c) :=
  inferInstanceAs (Decidable (_ ∨ _))

theorem stopsInTime_nil (t : Termios) (room : Nat) : StopsInTime t room [] :=
  fun _ hi => absurd hi (Nat.not_lt_zero _)

/-- After a character that does not go into the ring, the rest of the batch does not matter. -/
theorem stopsInTime_cons_of_not_ordinary {t : Termios} {room : Nat} {c : Byte} {buf : List Byte}
    (h : ordinary t c = false) :
    StopsInTime t room (c :: buf) ↔ (EndsCall t room c → TTY_THROTTLE_THRESH ≤ room) := by
  constructor
  · intro hs he
    have h0 := hs 0 (by simp) (by simp) (by simpa using he)
    omega
  · intro hs i hi hpre he
    cases i with
    | zero =>
      have := hs (by simpa using he)
      omega
    | succ i =>
      have hc := hpre c (by simp)
      rw [h] at hc
      exact absurd hc Bool.false_ne_true

theorem stopsInTime_cons_of_ordinary {t : Termios} {room : Nat} {c : Byte} {buf : List Byte}
    (h : ordinary t c = true) (hn : ¬ EndsCall t room c) :
    StopsInTime t room (c :: buf) ↔ StopsInTime t (room - 1) buf := by
  constructor
  · intro hs i hi hpre he
    have hpre' : ∀ b ∈ (c :: buf).take (i + 1), ordinary t b = true := by
      intro b hb
      rw [List.take_succ_cons] at hb
      cases List.mem_cons.mp hb with
      | inl e => rw [e]; exact h
      | inr e => exact hpre b e
    have he' : EndsCall t (room - (i + 1)) ((c :: buf).getD (i + 1) 0) := by
      rw [show room - (i + 1) = room - 1 - i by omega]
      simpa using he
    have := hs (i + 1) (by simpa using hi) hpre' he'
    omega
  · intro hs i hi hpre he
    cases i with
    | zero => exact absurd (by simpa using he) hn
    | succ i =>
      have he' : EndsCall t (room - 1 - i) (buf.getD i 0) := by
        rw [show room - 1 - i = room - (i + 1) by omega]
        simpa using he
      have hpre' : ∀ b ∈ buf.take i, ordinary t b = true := fun b hb =>
        hpre b (by rw [List.take_succ_cons]; exact List.mem_cons_of_mem c hb)
      have := hs i (by simpa using hi) hpre' he'
      have : 0 < TTY_THROTTLE_THRESH := by decide
      omega

instance decidableStopsInTime (t : Termios) :
    (room : Nat) → (buf : List Byte) → Decidable (StopsInTime t room buf)
  | room, [] => .isTrue (stopsInTime_nil t room)
  | room, c :: buf =>
    if ho : ordinary t c = true then
      if he : EndsCall t room c then
        .isFalse fun h => by
          have hlen := h 0 (by simp) (by simp) he
          have hfew : 1 < TTY_THROTTLE_THRESH := by decide
          unfold ordinary at ho
          rcases he with hflow | hbeep
          · simp [hflow] at ho
          · omega
      else
        haveI := decidableStopsInTime t (room - 1) buf
        decidable_of_iff _ (stopsInTime_cons_of_ordinary ho he).symm
    else
      decidable_of_iff (EndsCall t room c → TTY_THROTTLE_THRESH ≤ room)
        (stopsInTime_cons_of_not_ordinary (by simpa using ho)).symm

/-! ## The room -/

theorem putChar_ring {tty : Tty} {q : Ring} (h : tty.ldiscData = some q) (c : Byte) :
    (tty.putChar c).ldiscData = some (ringPut q c).2 := by
  unfold Tty.putChar
  rw [h]
  rfl

theorem putChar_room {tty : Tty} {q : Ring} (h : tty.ldiscData = some q) (c : Byte) :
    nTtyRecvRoom (tty.putChar c) = nTtyRecvRoom tty - 1 := by
  have := q.count_le
  unfold Tty.putChar nTtyRecvRoom
  rw [h]
  show (ringPut q c).2.length - (ringPut q c).2.count = q.length - q.count - 1
  rw [ringPut_length, ringPut_count]
  omega

theorem putChar_open {tty : Tty} (h : LdiscOpen tty) (c : Byte) : LdiscOpen (tty.putChar c) := by
  obtain ⟨q, hq, hlen⟩ := h
  exact ⟨_, putChar_ring hq c, (ringPut_length q c).trans hlen⟩

theorem LdiscOpen.congr {tty tty' : Tty} (h : LdiscOpen tty)
    (he : tty'.ldiscData = tty.ldiscData) : LdiscOpen tty' := by
  unfold LdiscOpen
  rw [he]
  exact h

/-- A call that leaves the flag and the ring alone leaves the relation between them alone. -/
theorem FlowOk.congr {tty tty' : Tty} (hf : tty'.throttled = tty.throttled)
    (hr : tty'.ldiscData = tty.ldiscData) : FlowOk tty' ↔ FlowOk tty := by
  unfold FlowOk
  rw [hf, nTtyRecvRoom_congr hr]

/-! ## One call of each kind -/

section Calls
variable {D : Type} {drv : TtyDriver D}

section TakeChar
variable (drv) {s : Attached D} {q : Ring} (c : Byte)

theorem takeChar_termios : (takeChar drv s c).tty.termios = s.tty.termios := by
  rw [takeChar_tty, putChar_termios]

theorem takeChar_throttled : (takeChar drv s c).tty.throttled = s.tty.throttled := by
  rw [takeChar_tty, putChar_throttled]

theorem takeChar_ring (h : s.tty.ldiscData = some q) :
    (takeChar drv s c).tty.ldiscData = some (ringPut q (translate s.tty.termios c)).2 := by
  rw [takeChar_tty]
  exact putChar_ring h _

theorem takeChar_room (h : s.tty.ldiscData = some q) :
    nTtyRecvRoom (takeChar drv s c).tty = nTtyRecvRoom s.tty - 1 := by
  rw [takeChar_tty, putChar_room h]

theorem takeChar_open (h : LdiscOpen s.tty) : LdiscOpen (takeChar drv s c).tty := by
  rw [takeChar_tty]
  exact putChar_open h _

end TakeChar

/-- Where the last character has been taken, the flag is set when it has to be. -/
theorem recvDone_flowOk {s : Attached D}
    (h : s.tty.throttled = true → nTtyRecvRoom s.tty < TTY_THROTTLE_THRESH) :
    FlowOk (recvDone drv s).tty := by
  unfold recvDone FlowOk
  simp only [Attached.callDev_tty]
  split
  · next hr =>
    rw [throttleTty_tty, Attached.callDev_tty]
    exact ⟨fun _ => hr, fun _ => rfl⟩
  · next hr =>
    rw [Attached.callDev_tty]
    exact ⟨fun ht => h ht, fun hlt => absurd hlt hr⟩

/-- A batch on a throttled tty keeps `FlowOk`: the flag stays set and no room is gained. -/
theorem recvLoop_throttled {buf : List Byte} {s t : Attached D} (ho : LdiscOpen s.tty)
    (ht : s.tty.throttled = true) (hr : nTtyRecvRoom s.tty < TTY_THROTTLE_THRESH)
    (h : recvLoop drv buf s = .ok t) : FlowOk t.tty := by
  induction buf generalizing s with
  | nil =>
    cases h
    exact recvDone_flowOk fun _ => hr
  | cons c buf ih =>
    have hok : FlowOk s.tty := ⟨fun _ => hr, fun _ => ht⟩
    rw [recvLoop_cons] at h
    split_ifs at h
    · cases h
      have hframe := flowSwitch_frame drv s c
      exact (FlowOk.congr hframe.1 hframe.2).mpr hok
    · cases h
      exact hok
    · have hopen := takeChar_open drv c ho
      obtain ⟨q, hq, -⟩ := ho
      apply ih hopen _ _ h
      · rw [takeChar_throttled]
        exact ht
      · rw [takeChar_room drv c hq]
        omega

/-- A call that ends with flag and ring as they were, on a tty that is not throttled. -/
theorem early_return_iff {s t : Attached D} (ht : s.tty.throttled = false)
    (hf : t.tty.throttled = s.tty.throttled) (hr : t.tty.ldiscData = s.tty.ldiscData) :
    (∀ u, (Except.ok t : Call (Attached D)) = .ok u → FlowOk u.tty) ↔
      TTY_THROTTLE_THRESH ≤ nTtyRecvRoom s.tty := by
  have hiff : FlowOk t.tty ↔ TTY_THROTTLE_THRESH ≤ nTtyRecvRoom s.tty := by
    rw [FlowOk.congr hf hr]
    unfold FlowOk
    rw [ht]
    simp
  rw [← hiff]
  exact ⟨fun h => h t rfl, fun h u hu => Except.ok.inj hu ▸ h⟩

/-- On a tty that is not throttled a batch keeps `FlowOk` exactly when no character ends the call
too late. The induction is on the batch; each ordinary character takes one place. -/
theorem recvLoop_flowOk_iff {buf : List Byte} {s : Attached D} (ho : LdiscOpen s.tty)
    (ht : s.tty.throttled = false) :
    (∀ t, recvLoop drv buf s = .ok t → FlowOk t.tty) ↔
      StopsInTime s.tty.termios (nTtyRecvRoom s.tty) buf := by
  induction buf generalizing s with
  | nil =>
    refine ⟨fun _ => stopsInTime_nil _ _, fun _ t h => ?_⟩
    cases h
    exact recvDone_flowOk fun h => by rw [ht] at h; cases h
  | cons c buf ih =>
    rw [recvLoop_cons]
    split_ifs with hflow hign hbeep
    · have hframe := flowSwitch_frame drv s c
      rw [early_return_iff ht hframe.1 hframe.2,
        stopsInTime_cons_of_not_ordinary (by simp [ordinary, hflow])]
      exact ⟨fun h _ => h, fun h => h (Or.inl hflow)⟩
    · rw [stopsInTime_cons_of_not_ordinary (by simp [ordinary, hign])]
      refine ⟨fun _ he => ?_, fun _ t h => by cases h⟩
      cases he with
      | inl he => exact absurd he hflow
      | inr he => exact absurd (hign.symm.trans he.1) Bool.noConfusion
    · -- The beep: there is at most one place left, and the flag stays clear.
      have hign : ignoredChar s.tty.termios c = false := by simpa using hign
      have hfew : 1 < TTY_THROTTLE_THRESH := by decide
      rw [early_return_iff (t := writeChar drv s ASCII_BEL) ht rfl rfl]
      constructor
      · intro h
        omega
      · intro h
        have := h 0 (by simp) (by simp) (Or.inr ⟨by simpa using hign, hbeep.1, by simpa using hbeep.2⟩)
        omega
    · have hord : ordinary s.tty.termios c = true := by simp [ordinary, hflow, hign]
      have hn : ¬ EndsCall s.tty.termios (nTtyRecvRoom s.tty) c := fun he =>
        he.elim hflow fun he => hbeep he.2
      have hopen := takeChar_open drv c ho
      obtain ⟨q, hq, -⟩ := ho
      have hclear : (takeChar drv s c).tty.throttled = false := (takeChar_throttled drv c).trans ht
      rw [stopsInTime_cons_of_ordinary hord hn, ih hopen hclear,
        takeChar_room drv c hq, takeChar_termios]

/-- One call of `n_tty_recv`. -/
theorem nTtyRecv_flowOk_iff {buf : List Byte} {s : Attached D} (ho : LdiscOpen s.tty)
    (hf : FlowOk s.tty) :
    (∀ t, nTtyRecv drv (some buf) s = .ok t → FlowOk t.tty) ↔
      nTtyRecvRoom s.tty < TTY_THROTTLE_THRESH ∨
        StopsInTime s.tty.termios (nTtyRecvRoom s.tty) buf := by
  obtain ⟨q, hq, hlen⟩ := ho
  have hcall : nTtyRecv drv (some buf) s = recvLoop drv buf s := by
    unfold nTtyRecv
    rw [hq]
  rw [hcall]
  by_cases hr : nTtyRecvRoom s.tty < TTY_THROTTLE_THRESH
  · exact ⟨fun _ => Or.inl hr, fun _ t h => recvLoop_throttled ⟨q, hq, hlen⟩ (hf.mpr hr) hr h⟩
  · have ht : s.tty.throttled = false := by
      cases h : s.tty.throttled
      · rfl
      · exact absurd (hf.mp h) hr
    rw [recvLoop_flowOk_iff ⟨q, hq, hlen⟩ ht]
    exact ⟨Or.inr, fun h => h.resolve_left hr⟩

/-- Taking a character leaves one place more; the flag is then looked at again. -/
theorem readLoop_flowOk {oflag : BitVec 32} {count : Nat} {chars : List Byte} {s : Attached D}
    {r : ReadOutcome × Attached D} (ho : LdiscOpen s.tty) (hf : FlowOk s.tty)
    (h : readLoop drv oflag count chars s = .ok r) : FlowOk r.2.tty ∧ LdiscOpen r.2.tty := by
  induction count generalizing s chars with
  | zero =>
    cases h
    exact ⟨hf, ho⟩
  | succ count ih =>
    obtain ⟨q, hq, hlen⟩ := ho
    rw [readLoop] at h
    simp only [hq] at h
    split at h
    · have hr : r.2 = s := by
        split_ifs at h <;> cases h <;> rfl
      rw [hr]
      exact ⟨hf, q, hq, hlen⟩
    · next hc =>
      have hc : q.count ≠ 0 := hc
      have hle := q.count_le
      have hroom : nTtyRecvRoom s.tty = q.length - q.count := by
        unfold nTtyRecvRoom
        rw [hq]
        rfl
      have hroom' : nTtyRecvRoom (s.tty.setRing (ringGet q).2) = q.length - q.count + 1 := by
        show (ringGet q).2.length - (ringGet q).2.count = _
        rw [ringGet_length, ringGet_count]
        omega
      have hopen : LdiscOpen (s.tty.setRing (ringGet q).2) :=
        ⟨_, rfl, (ringGet_length q).trans hlen⟩
      have hthr : (s.tty.setRing (ringGet q).2).throttled = s.tty.throttled := rfl
      unfold FlowOk at hf
      split at h
      · next hge =>
        refine ih ?_ ?_ h
        · rw [unthrottleTty_tty]
          exact hopen
        · rw [unthrottleTty_tty]
          exact ⟨fun e => (nomatch e), fun e => absurd e (by
            show ¬ nTtyRecvRoom (s.tty.setRing (ringGet q).2) < _
            exact Nat.not_lt.mpr hge)⟩
      · next hlt =>
        refine ih hopen ?_ h
        have hlt : nTtyRecvRoom (s.tty.setRing (ringGet q).2) < TTY_THROTTLE_THRESH :=
          Nat.lt_of_not_le hlt
        have hset : s.tty.throttled = true := hf.mpr (by omega)
        exact ⟨fun _ => hlt, fun _ => hset⟩

/-- Clearing the ring makes all the room there is, and leaves the flag. -/
theorem nTtyClear_flowOk_iff {tty : Tty} (ho : LdiscOpen tty) :
    FlowOk (nTtyClear tty) ↔ tty.throttled = false := by
  obtain ⟨q, hq, hlen⟩ := ho
  have hclear : nTtyClear tty = tty.setRing (ringClear q) := by
    unfold nTtyClear
    rw [hq]
  have hroom : nTtyRecvRoom (tty.setRing (ringClear q)) = TTY_BUFFER_SIZE := hlen
  unfold FlowOk
  rw [hclear, hroom]
  show (tty.throttled = true ↔ TTY_BUFFER_SIZE < TTY_THROTTLE_THRESH) ↔ _
  have : ¬ TTY_BUFFER_SIZE < TTY_THROTTLE_THRESH := by decide
  simp [this]

end Calls

/-! ## Runs -/

/-- The calls on an open tty, and a change of its settings. -/
inductive LdiscOp where
  | recv (buf : Option (List Byte))
  | read (oflag : BitVec 32) (isNull : Bool) (count : Nat)
  | clear
  | setTermios (t : Termios)

section Runs
variable {D : Type} (drv : TtyDriver D)

/-- A read that spins on an empty ring is a step too: the interrupts that end its wait are further
steps, and what it still wants is one more read. -/
def ldiscStep (s : Attached D) : LdiscOp → Call (Attached D)
  | .recv buf => nTtyRecv drv buf s
  | .read oflag isNull count => do
    let x ← nTtyRead drv oflag isNull count s
    .ok x.2
  | .clear => .ok { s with tty := nTtyClear s.tty }
  | .setTermios t => .ok { s with tty := { s.tty with termios := t } }

/-- The condition on a call: a batch is not cut short below the threshold, and the ring is cleared
only when the tty is not throttled. -/
def FlowKept (s : Attached D) : LdiscOp → Prop
  | .recv (some buf) =>
    nTtyRecvRoom s.tty < TTY_THROTTLE_THRESH ∨
      StopsInTime s.tty.termios (nTtyRecvRoom s.tty) buf
  | .clear => s.tty.throttled = false
  | _ => True

instance (s : Attached D) : (op : LdiscOp) → Decidable (FlowKept s op)
  | .recv (some _) => inferInstanceAs (Decidable (_ ∨ _))
  | .recv none => .isTrue trivial
  | .read .. => .isTrue trivial
  | .clear => inferInstanceAs (Decidable (_ = _))
  | .setTermios _ => .isTrue trivial

variable {drv}

theorem recvKeeps_open : RecvKeeps drv fun s => LdiscOpen s.tty where
  throttle s h := h.congr (by rw [throttleTty_tty])
  start s h := h.congr (startTty_frame drv s).2
  stop s h := h.congr (stopTty_frame drv s).2
  write _ _ h := h
  flush s h := h.congr (by rw [Attached.callDev_tty])
  put s c h := putChar_open h c

theorem nTtyRead_flowOk {oflag : BitVec 32} {isNull : Bool} {count : Nat} {s : Attached D}
    {r : ReadOutcome × Attached D} (ho : LdiscOpen s.tty) (hf : FlowOk s.tty)
    (h : nTtyRead drv oflag isNull count s = .ok r) : FlowOk r.2.tty ∧ LdiscOpen r.2.tty := by
  unfold nTtyRead at h
  split_ifs at h
  · cases h
    exact ⟨hf, ho⟩
  · split at h
    · cases h
    · exact readLoop_flowOk ho hf h

theorem ldiscStep_open {s t : Attached D} {op : LdiscOp} (ho : LdiscOpen s.tty)
    (hf : FlowOk s.tty) (h : ldiscStep drv s op = .ok t) : LdiscOpen t.tty := by
  cases op with
  | recv buf => exact recvKeeps_open.nTtyRecv ho h
  | read oflag isNull count =>
    obtain ⟨r, hr, ht⟩ := bind_ok.mp h
    cases ht
    exact (nTtyRead_flowOk ho hf hr).2
  | clear =>
    cases h
    obtain ⟨q, hq, hlen⟩ := ho
    unfold nTtyClear
    rw [hq]
    exact ⟨_, rfl, hlen⟩
  | setTermios _ =>
    cases h
    exact ho

/-- A call keeps `FlowOk` exactly when it meets the condition. -/
theorem ldiscStep_flowOk_iff {s : Attached D} (op : LdiscOp) (ho : LdiscOpen s.tty)
    (hf : FlowOk s.tty) :
    (∀ t, ldiscStep drv s op = .ok t → FlowOk t.tty) ↔ FlowKept s op := by
  cases op with
  | recv buf =>
    cases buf with
    | none => exact ⟨fun _ => trivial, fun _ t h => by cases h; exact hf⟩
    | some buf => exact nTtyRecv_flowOk_iff ho hf
  | read oflag isNull count =>
    refine ⟨fun _ => trivial, fun _ t h => ?_⟩
    obtain ⟨r, hr, ht⟩ := bind_ok.mp h
    cases ht
    exact (nTtyRead_flowOk ho hf hr).1
  | clear =>
    show _ ↔ s.tty.throttled = false
    rw [← nTtyClear_flowOk_iff ho]
    exact ⟨fun h => h _ rfl, fun h t ht => by cases ht; exact h⟩
  | setTermios _ => exact ⟨fun _ => trivial, fun _ t h => by cases h; exact hf⟩

/-! ### What the sender has been told -/

/-- `told` is what a driver last told its sender: `true` for stop. -/
structure Tells (drv : TtyDriver D) (told : D → Bool) : Prop where
  throttle : ∃ f, drv.throttle = some f ∧ ∀ tty d, told (f tty d) = true
  unthrottle : ∃ f, drv.unthrottle = some f ∧ ∀ tty d, told (f tty d) = false
  write : ∀ tty buf d, told (drv.write tty buf d).2 = told d
  flush : ∀ f, drv.flush = some f → ∀ tty d, told (f tty d) = told d
  start : ∀ f, drv.start = some f → ∀ tty d, told (f tty d) = told d
  stop : ∀ f, drv.stop = some f → ∀ tty d, told (f tty d) = told d

/-- As `Tells`, where the sender is told on ttys only whose number and settings meet a condition. -/
structure TellsWhen (Q : Nat → Termios → Prop) (drv : TtyDriver D) (told : D → Bool) : Prop where
  throttle : ∃ f, drv.throttle = some f ∧ ∀ tty d, Q tty.device tty.termios → told (f tty d) = true
  unthrottle : ∃ f, drv.unthrottle = some f ∧ ∀ tty d, Q tty.device tty.termios → told (f tty d) = false
  write : ∀ tty buf d, told (drv.write tty buf d).2 = told d
  flush : ∀ f, drv.flush = some f → ∀ tty d, told (f tty d) = told d
  start : ∀ f, drv.start = some f → ∀ tty d, told (f tty d) = told d
  stop : ∀ f, drv.stop = some f → ∀ tty d, told (f tty d) = told d

theorem Tells.tellsWhen {told : D → Bool} (k : Tells drv told) :
    TellsWhen (fun _ _ => True) drv told where
  throttle := by
    obtain ⟨f, hf, htold⟩ := k.throttle
    exact ⟨f, hf, fun tty d _ => htold tty d⟩
  unthrottle := by
    obtain ⟨f, hf, htold⟩ := k.unthrottle
    exact ⟨f, hf, fun tty d _ => htold tty d⟩
  write := k.write
  flush := k.flush
  start := k.start
  stop := k.stop

theorem callDev_told {told : D → Bool} {op : Option (Tty → D → D)}
    (h : ∀ f, op = some f → ∀ tty d, told (f tty d) = told d) (s : Attached D) :
    told (s.callDev op).dev = told s.dev := by
  cases op with
  | none => rfl
  | some f => exact h f rfl _ _

/-- The number and the settings of the tty meet the condition. -/
def OnSettings (Q : Nat → Termios → Prop) (s : Attached D) : Prop := Q s.tty.device s.tty.termios

/-- The sender has been told what the flag says. -/
def ToldFlag (told : D → Bool) (s : Attached D) : Prop := told s.dev = s.tty.throttled

section Told
variable {Q : Nat → Termios → Prop} {told : D → Bool}

theorem putChar_onSettings {s : Attached D} (h : OnSettings Q s) (c : Byte) :
    OnSettings Q { s with tty := s.tty.putChar c } := by
  unfold OnSettings Tty.putChar
  split
  · exact h
  · exact h

theorem recvKeeps_onSettings : RecvKeeps drv (OnSettings Q) where
  throttle s h := by
    unfold OnSettings
    rw [throttleTty_tty]
    exact h
  start s h := by
    unfold startTty
    split
    · exact h
    · unfold OnSettings
      rw [Attached.callDev_tty]
      exact h
  stop s h := by
    unfold stopTty
    split
    · exact h
    · unfold OnSettings
      rw [Attached.callDev_tty]
      exact h
  write _ _ h := h
  flush s h := by
    unfold OnSettings
    rw [Attached.callDev_tty]
    exact h
  put s c h := putChar_onSettings h c

theorem throttleTty_told (k : TellsWhen Q drv told) {s : Attached D} (hq : OnSettings Q s)
    (h : ToldFlag told s) : ToldFlag told (throttleTty drv s) := by
  obtain ⟨f, hf, htold⟩ := k.throttle
  unfold throttleTty
  split
  · exact h
  · rw [hf]
    exact htold _ _ hq

theorem unthrottleTty_told (k : TellsWhen Q drv told) {s : Attached D} (hq : OnSettings Q s)
    (h : ToldFlag told s) : ToldFlag told (unthrottleTty drv s) := by
  obtain ⟨f, hf, htold⟩ := k.unthrottle
  unfold unthrottleTty
  split
  · exact h
  · rw [hf]
    exact htold _ _ hq

theorem unthrottleTty_onSettings {s : Attached D} (hq : OnSettings Q s) : OnSettings Q (unthrottleTty drv s) := by
  unfold OnSettings
  rw [unthrottleTty_tty]
  exact hq

theorem recvKeeps_told (k : TellsWhen Q drv told) :
    RecvKeeps drv fun s => OnSettings Q s ∧ ToldFlag told s where
  throttle s h := ⟨recvKeeps_onSettings.throttle s h.1, throttleTty_told k h.1 h.2⟩
  start s h := by
    refine ⟨recvKeeps_onSettings.start s h.1, ?_⟩
    unfold startTty
    split
    · exact h.2
    · unfold ToldFlag
      rw [callDev_told k.start, Attached.callDev_tty]
      exact h.2
  stop s h := by
    refine ⟨recvKeeps_onSettings.stop s h.1, ?_⟩
    unfold stopTty
    split
    · exact h.2
    · unfold ToldFlag
      rw [callDev_told k.stop, Attached.callDev_tty]
      exact h.2
  write s c h := ⟨h.1, (k.write s.tty [c] s.dev).trans h.2⟩
  flush s h := by
    refine ⟨recvKeeps_onSettings.flush s h.1, ?_⟩
    unfold ToldFlag
    rw [callDev_told k.flush, Attached.callDev_tty]
    exact h.2
  put s c h := ⟨putChar_onSettings h.1 c, h.2.trans (putChar_throttled s.tty c).symm⟩

theorem readLoop_told (k : TellsWhen Q drv told) {oflag : BitVec 32} {count : Nat}
    {chars : List Byte} {s : Attached D} {r : ReadOutcome × Attached D} (hs : OnSettings Q s ∧ ToldFlag told s)
    (h : readLoop drv oflag count chars s = .ok r) : OnSettings Q r.2 ∧ ToldFlag told r.2 := by
  induction count generalizing s chars with
  | zero =>
    cases h
    exact hs
  | succ count ih =>
    rw [readLoop] at h
    split at h
    · cases h
    · next q _ =>
      split at h
      · have hr : r.2 = s := by
          split_ifs at h <;> cases h <;> rfl
        rw [hr]
        exact hs
      · have htaken : OnSettings Q { s with tty := s.tty.setRing (ringGet q).2 } ∧
            ToldFlag told { s with tty := s.tty.setRing (ringGet q).2 } := hs
        refine ih ?_ h
        split
        · exact ⟨unthrottleTty_onSettings htaken.1, unthrottleTty_told k htaken.1 htaken.2⟩
        · exact htaken

/-- Settings that are set meet the condition. -/
def SetsMeeting (Q : Nat → Termios → Prop) (s : Attached D) : LdiscOp → Prop
  | .setTermios t => Q s.tty.device t
  | _ => True

theorem ldiscStep_told (k : TellsWhen Q drv told) {s t : Attached D} {op : LdiscOp}
    (hs : OnSettings Q s ∧ ToldFlag told s) (hset : SetsMeeting Q s op) (h : ldiscStep drv s op = .ok t) :
    OnSettings Q t ∧ ToldFlag told t := by
  cases op with
  | recv buf => exact (recvKeeps_told k).nTtyRecv hs h
  | read oflag isNull count =>
    obtain ⟨r, hr, ht⟩ := bind_ok.mp h
    cases ht
    unfold nTtyRead at hr
    split_ifs at hr
    · cases hr
      exact hs
    · split at hr
      · cases hr
      · exact readLoop_told k hs hr
  | clear =>
    cases h
    unfold OnSettings ToldFlag nTtyClear
    split
    · exact hs
    · exact hs
  | setTermios _ =>
    cases h
    exact ⟨hset, hs.2⟩

/-- In every run with settings that meet the condition the sender has been told what the flag says. -/
theorem told_flag_reached (k : TellsWhen Q drv told) {s t : Attached D} {ops : List LdiscOp}
    (hs : OnSettings Q s ∧ ToldFlag told s) (hset : Throughout (ldiscStep drv) (SetsMeeting Q) s ops)
    (h : Reaches (ldiscStep drv) s ops t) : OnSettings Q t ∧ ToldFlag told t :=
  invariant_reaches (fun _ _ _ hs hset h => ldiscStep_told k hs hset h) hs hset h

end Told

/-- **Receive flow control.** From an open tty, in every state a run passes through the tty is
throttled if and only if less than the threshold is left, exactly when every call of the run meets
`FlowKept`; and in every run at all, the sender has been told what the flag says. -/
theorem receive_flow_control (drv : TtyDriver D) {s : Attached D} (ho : LdiscOpen s.tty)
    (hf : FlowOk s.tty) (ops : List LdiscOp) :
    ((∀ t, Reaches (ldiscStep drv) s ops t → FlowOk t.tty) ↔
        Throughout (ldiscStep drv) FlowKept s ops) ∧
      ∀ told, Tells drv told → told s.dev = s.tty.throttled →
        ∀ t, Reaches (ldiscStep drv) s ops t → told t.dev = t.tty.throttled := by
  constructor
  · have hP : ∀ s : Attached D, LdiscOpen s.tty ∧ FlowOk s.tty → FlowOk s.tty := fun _ h => h.2
    refine throughout_iff_reached hP ?_ ?_ ⟨ho, hf⟩
    · intro s op t hs hq h
      exact ⟨ldiscStep_open hs.1 hs.2 h, (ldiscStep_flowOk_iff op hs.1 hs.2).mpr hq t h⟩
    · intro s op hs hq
      by_contra hn
      apply hq
      apply (ldiscStep_flowOk_iff op hs.1 hs.2).mp
      intro t h
      by_contra hbad
      exact hn ⟨t, h, hbad⟩
  · intro told k htold t hr
    have hstep : ∀ (s : Attached D) op t, ToldFlag told s → ldiscStep drv s op = .ok t →
        ToldFlag told t := by
      intro s op t hs h
      have hset : SetsMeeting (fun _ _ => True) s op := by
        cases op with
        | recv _ | read _ _ _ | clear | setTermios _ => trivial
      exact (ldiscStep_told k.tellsWhen ⟨trivial, hs⟩ hset h).2
    exact invariant_reached hstep htold hr

end Runs

theorem openedTty_open : LdiscOpen openedTty := ⟨_, rfl, rfl⟩

theorem openedTty_flowOk : FlowOk openedTty := by decide

/-- A driver that takes every character and remembers what it told the sender. -/
def tellingDriver : TtyDriver Bool where
  write _ buf d := (buf.length, d)
  writeRoom _ _ := TTY_BUFFER_SIZE
  flush := none
  throttle := some fun _ _ => true
  unthrottle := some fun _ _ => false
  stop := none
  start := none

/-- Nine batches of a hundred characters, enough to be throttled. -/
def burst : List LdiscOp :=
  List.replicate 9 (.recv (some (List.replicate 100 0x61)))

theorem tellingDriver_tells : Tells tellingDriver id where
  throttle := ⟨_, rfl, fun _ _ => rfl⟩
  unthrottle := ⟨_, rfl, fun _ _ => rfl⟩
  write _ _ _ := rfl
  flush _ h := nomatch h
  start _ h := nomatch h
  stop _ h := nomatch h

/-- A batch, a read of part of it, a clear with room left, other settings, a batch with XOFF. -/
def gentle : List LdiscOp :=
  [.recv (some (List.replicate 40 0x61)), .read O_NONBLOCK false 30, .clear,
    .setTermios { defaultTermios with lflag := 0 }, .recv (some [0x61, STOP_CHAR, 0x62])]

theorem receive_flow_control_gentle :
    ∃ w, run (ldiscStep tellingDriver) ⟨openedTty, false⟩ gentle = .ok w ∧
      FlowOk w.tty ∧ w.dev = w.tty.throttled := by
  have h : ∃ w, run (ldiscStep tellingDriver) ⟨openedTty, false⟩ gentle = .ok w ∧ True := by
    decide +kernel
  obtain ⟨w, hw, _⟩ := h
  have hkept : Throughout (ldiscStep tellingDriver) FlowKept ⟨openedTty, false⟩ gentle := by
    decide +kernel
  have hflow := receive_flow_control tellingDriver (s := ⟨openedTty, false⟩) openedTty_open
    openedTty_flowOk gentle
  exact ⟨w, hw, hflow.1.mpr hkept w (Reaches.of_run hw),
    hflow.2 id tellingDriver_tells rfl w (Reaches.of_run hw)⟩

/-- The burst, and a clear: the ring is empty and the tty is throttled. -/
theorem clear_leaves_throttled :
    ∃ t, run (ldiscStep tellingDriver) ⟨openedTty, false⟩ (burst ++ [.clear]) = .ok t ∧
      ¬ FlowOk t.tty ∧ t.tty.throttled = true ∧ nTtyRecvRoom t.tty = TTY_BUFFER_SIZE := by
  decide +kernel

end Ohwes

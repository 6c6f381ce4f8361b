import Ohwes.Char.SerialFifo
import Ohwes.Char.TtyDrivers

/-! # Output processing

`n_tty_write` hands the characters of a buffer to the driver one by one, each with its expansion, as
long as the driver has room. A CR and its LF are two writes behind one look at the room, so the second
needs a driver whose room is not taken away in between. -/

namespace Ohwes
set_option autoImplicit false

/-! ## `n_tty_write` -/

/-- How the loop of `n_tty_write` ends. A driver that takes nothing of what it is offered without
output processing is offered it again and again. -/
inductive WriteEnd where
  | stopped (done : Nat)
  | failed (ret : Int)
  | spinning
  deriving DecidableEq, Repr

section Write
variable {D : Type} (drv : TtyDriver D)

/-- What a pass of the loop comes to: it took so many characters of the buffer, there was no room for
the next one, the driver reported an error, or it says that it took more than it was offered. -/
inductive WritePass (D : Type) where
  | took (n : Nat) (s : Attached D)
  | noRoom (s : Attached D)
  | failed (ret : Int) (s : Attached D)
  | beyond

/-- A pass with `c` and then `buf` to write. -/
def writePass (c : Byte) (buf : List Byte) (s : Attached D) : WritePass D :=
  if s.tty.termios.oFlag OPOST then
    let x := opost drv s c
    if x.1 < 0 then .noRoom x.2 else .took 1 x.2
  else
    let x := drv.write s.tty (c :: buf) s.dev
    let s := { s with dev := x.2 }
    if x.1 < 0 then .failed x.1 s
    else if x.1.toNat > buf.length + 1 then .beyond
    else .took x.1.toNat s

/-- The loop, with `done` characters behind it; a pass without an end takes one at least. -/
def writeLoop : Nat → List Byte → Nat → Attached D → Call (WriteEnd × Attached D)
  | _, [], done, s => .ok (.stopped done, s)
  | 0, _ :: _, _, _ => .error .diverges
  | passes + 1, c :: buf, done, s =>
    match writePass drv c buf s with
    | .took 0 s => .ok (.spinning, s)
    | .took (n + 1) s => writeLoop passes (buf.drop n) (done + (n + 1)) s
    | .noRoom s => .ok (.stopped done, s)
    | .failed ret s => .ok (.failed ret, s)
    | .beyond => .error .fault

/-- `isNull` says that the caller's buffer is the null pointer; the result is `none` while the call
spins. -/
def nTtyWrite (isNull : Bool) (buf : List Byte) (s : Attached D) :
    Call (Option Int × Attached D) :=
  if isNull then .ok (some (-EINVAL), s)
  else do
    let (stop, s) ← writeLoop drv buf.length buf 0 s
    match stop with
    | .stopped done => .ok (some done, s.callDev drv.flush)
    | .failed ret => .ok (some ret, s.callDev drv.flush)
    | .spinning => .ok (none, s)

end Write

/-! ## Drivers -/

/-- What the driver of a tty has received: a write takes as much as there is room for. -/
structure AcceptingDriver {D : Type} (drv : TtyDriver D) (tty : Tty) where
  received : D → List Byte
  write : ∀ buf d, ∃ n, min buf.length (drv.writeRoom tty d) ≤ n ∧
    received (drv.write tty buf d).2 = received d ++ buf.take n
  flush : ∀ f, drv.flush = some f → ∀ d, received (f tty d) = received d

/-- With room for two characters, a carriage return leaves room for one. -/
def KeepsSecond {D : Type} (drv : TtyDriver D) (tty : Tty) : Prop :=
  ∀ d, 2 ≤ drv.writeRoom tty d → 1 ≤ drv.writeRoom tty (drv.write tty [ASCII_CR] d).2

/-- A terminal takes everything. -/
def acceptingTerminal (tty : Tty) : AcceptingDriver (recording terminalDriver) tty where
  received d := d.2
  write buf d := ⟨buf.length, min_le_left _ _, by rw [List.take_length]; rfl⟩
  flush _ h := nomatch h

theorem keepsSecond_terminal (tty : Tty) : KeepsSecond (recording terminalDriver) tty := by
  intro d _
  show 1 ≤ TERMINAL_WRITE_ROOM
  decide

/-- What a serial port has been given to send: what it has sent and what waits. -/
def portReceived (tty : Tty) (ports : Ports) : List Byte :=
  match ttyGetCom tty with
  | .error _ => []
  | .ok i => sentBytes (ports i) ++ (ports i).com.txRing.chars

theorem serialWriteRoom_moves (tty : Tty) (buf : List Byte) (p : Port) :
    serialWriteRoom p ≤ serialWriteRoom (serialWrite tty buf p).2 + buf.length := by
  have hchars := congrArg List.length (serialWrite_moves tty buf p).2
  rw [List.length_append, Ring.chars_length, Ring.chars_length, List.length_take] at hchars
  have hlen : ringLength (serialWrite tty buf p).2.com.txRing = ringLength p.com.txRing := by
    rw [serialWrite_txRing]
    exact putAll_length _ _
  rw [serialWriteRoom, serialWriteRoom, hlen, ringCount, ringCount]
  omega

def acceptingSerial (tty : Tty) : AcceptingDriver serialDriver tty where
  received := portReceived tty
  write := by
    intro buf ports
    rw [portReceived, portReceived]
    cases hi : ttyGetCom tty with
    | error e =>
      refine ⟨0, ?_, rfl⟩
      show min buf.length (onCom tty ports (fun _ => 0) fun p => (serialWriteRoom p, p)).1 ≤ 0
      rw [onCom, hi]
      exact min_le_right _ _
    | ok i =>
      obtain ⟨hsent, hchars⟩ := serialWrite_moves tty buf (ports i)
      have hdev : (serialDriver.write tty buf ports).2 i = (serialWrite tty buf (ports i)).2 := by
        show (onCom tty ports id (serialWrite tty buf)).2 i = _
        rw [onCom, hi]
        exact Ports.set_self ..
      refine ⟨(serialWrite tty buf (ports i)).1.toNat, ?_, ?_⟩
      · show min buf.length (onCom tty ports (fun _ => 0) fun p => (serialWriteRoom p, p)).1 ≤ _
        rw [onCom, hi]
        exact le_rfl
      · simp only
        rw [hdev, hsent, hchars, List.append_assoc]
  flush := by
    intro f hf ports
    have hf : f = comOp serialFlush := (Option.some.inj hf).symm
    subst hf
    rw [portReceived, portReceived]
    cases hi : ttyGetCom tty with
    | error e => rfl
    | ok i =>
      have hdev : comOp serialFlush tty ports i = kickTx tty (ports i) := by
        show (onCom tty ports (fun _ => ()) fun p => ((), serialFlush tty p)).2 i = _
        rw [onCom, hi]
        exact Ports.set_self ..
      have hkick := kickTx_silent tty (ports i)
      simp only
      rw [hdev, hkick.sent, hkick.ring]

theorem keepsSecond_serial (tty : Tty) : KeepsSecond serialDriver tty := by
  intro ports
  show 2 ≤ (onCom tty ports (fun _ => 0) fun p => (serialWriteRoom p, p)).1 →
    1 ≤ (onCom tty (onCom tty ports id (serialWrite tty [ASCII_CR])).2 (fun _ => 0)
      fun p => (serialWriteRoom p, p)).1
  rw [onCom, onCom, onCom]
  cases hi : ttyGetCom tty with
  | error e => exact fun h => absurd h (Nat.not_succ_le_zero 1)
  | ok i =>
    have hmoves := serialWriteRoom_moves tty [ASCII_CR] (ports i)
    rw [List.length_singleton] at hmoves
    simp only [Ports.set_self]
    omega

/-! ## Expansion -/

/-- What output processing makes of a character. -/
def expand (t : Termios) (c : Byte) : List Byte :=
  if c = ASCII_CR ∧ t.oFlag OCRNL then [ASCII_LF]
  else if c = ASCII_LF ∧ t.oFlag ONLCR then [ASCII_CR, ASCII_LF]
  else [c]

section Processing
variable {D : Type} {drv : TtyDriver D} {tty : Tty} (k : AcceptingDriver drv tty)
  (hkeeps : KeepsSecond drv tty) {s : Attached D}

theorem writeChar_received (hs : s.tty = tty) (hroom : 1 ≤ drv.writeRoom tty s.dev) (c : Byte) :
    k.received (writeChar drv s c).dev = k.received s.dev ++ [c] := by
  have hdev : (writeChar drv s c).dev = (drv.write tty [c] s.dev).2 := by
    rw [← hs]
    rfl
  rw [hdev]
  obtain ⟨n, hn, hwrite⟩ := k.write [c] s.dev
  have hn1 : 1 ≤ n := by
    rw [List.length_singleton] at hn
    omega
  rw [hwrite, List.take_of_length_le hn1]

include hkeeps

/-- A character is printed with its whole expansion, or not at all where that does not fit. -/
theorem opost_received (hs : s.tty = tty) (hpost : tty.termios.oFlag OPOST = true) (c : Byte) :
    if (expand tty.termios c).length ≤ drv.writeRoom tty s.dev then
      (opost drv s c).1 = 0 ∧
        k.received (opost drv s c).2.dev = k.received s.dev ++ expand tty.termios c
    else opost drv s c = (-1, s) := by
  have hsub : s.tty = tty := hs
  rw [opost, expand, hsub]
  simp only [hpost, if_true]
  by_cases hroom : drv.writeRoom tty s.dev < 1
  · rw [if_pos hroom]
    split_ifs with h₁ h₂ h₃ h₄ h₅ <;> simp_all
  · have hone : 1 ≤ drv.writeRoom tty s.dev := by omega
    rw [if_neg hroom]
    by_cases hcr : c = ASCII_CR ∧ tty.termios.oFlag OCRNL = true
    · rw [if_pos hcr, if_pos hcr, List.length_singleton, if_pos hone]
      exact ⟨rfl, writeChar_received k hs hone ASCII_LF⟩
    · rw [if_neg hcr, if_neg hcr]
      by_cases hlf : c = ASCII_LF ∧ tty.termios.oFlag ONLCR = true
      · rw [if_pos hlf, if_pos hlf]
        by_cases htwo : drv.writeRoom tty s.dev < 2
        · rw [if_pos htwo, if_neg (by simp; omega)]
        · have hfirst := writeChar_received k hs hone ASCII_CR
          have hdev : (writeChar drv s ASCII_CR).dev = (drv.write tty [ASCII_CR] s.dev).2 := by
            rw [← hs]
            rfl
          have hleft : 1 ≤ drv.writeRoom tty (writeChar drv s ASCII_CR).dev :=
            hdev ▸ hkeeps s.dev (by omega)
          have hsecond := writeChar_received k (s := writeChar drv s ASCII_CR) hs hleft ASCII_LF
          rw [if_neg htwo, if_pos (by simp; omega), hlf.1]
          refine ⟨rfl, ?_⟩
          simp only
          rw [hsecond, hfirst, List.append_assoc]
          rfl
      · rw [if_neg hlf, if_neg hlf, List.length_singleton, if_pos hone]
        exact ⟨rfl, writeChar_received k hs hone c⟩

/-- What the loop has done when it stops. -/
theorem writeLoop_received (hpost : tty.termios.oFlag OPOST = true) (buf : List Byte) (done : Nat)
    (hs : s.tty = tty) :
    ∃ n s₁, writeLoop drv buf.length buf done s = .ok (.stopped (done + n), s₁) ∧
      s₁.tty = tty ∧ n ≤ buf.length ∧
      k.received s₁.dev = k.received s.dev ++ (buf.take n).flatMap (expand tty.termios) ∧
      ∀ c, buf[n]? = some c → drv.writeRoom tty s₁.dev < (expand tty.termios c).length := by
  induction buf generalizing done s with
  | nil => exact ⟨0, s, rfl, hs, le_rfl, by simp, fun c hc => nomatch hc⟩
  | cons c buf ih =>
    have hflag : s.tty.termios.oFlag OPOST = true := by rw [hs]; exact hpost
    have hone := opost_received k hkeeps hs hpost c
    rw [List.length_cons, writeLoop, writePass, if_pos hflag]
    by_cases hfits : (expand tty.termios c).length ≤ drv.writeRoom tty s.dev
    · rw [if_pos hfits] at hone
      have htty : (opost drv s c).2.tty = tty := by rw [opost_tty, hs]
      obtain ⟨n, s₁, hloop, htty₁, hn, hrec, hnext⟩ := ih (done + 1) htty
      refine ⟨n + 1, s₁, ?_, htty₁, Nat.succ_le_succ hn, ?_, ?_⟩
      · have hcount : done + 1 + n = done + (n + 1) := by omega
        simp only [hone.1, lt_irrefl, if_false]
        rw [← hcount]
        exact hloop
      · rw [hrec, hone.2, List.take_succ_cons, List.flatMap_cons, List.append_assoc]
      · intro b hb
        exact hnext b (by simpa using hb)
    · rw [if_neg hfits] at hone
      refine ⟨0, s, ?_, hs, Nat.zero_le _, by simp, ?_⟩
      · rw [hone]
        rfl
      · intro b hb
        cases hb
        omega

end Processing

/-- **Output processing.** A write returns how many characters it has taken from the front of the
buffer. The driver has received their expansions, whole; and if a character is left, its own expansion
did not fit in the room there was, before the driver was flushed. -/
theorem nTtyWrite_processed {D : Type} {drv : TtyDriver D} {s : Attached D}
    (k : AcceptingDriver drv s.tty) (hkeeps : KeepsSecond drv s.tty)
    (hpost : s.tty.termios.oFlag OPOST = true) (buf : List Byte) :
    ∃ (n : Nat) (s₁ : Attached D), nTtyWrite drv false buf s = .ok (some (n : Int), s₁.callDev drv.flush) ∧
      n ≤ buf.length ∧
      k.received (s₁.callDev drv.flush).dev =
        k.received s.dev ++ (buf.take n).flatMap (expand s.tty.termios) ∧
      (n = buf.length ∨ ∃ c, buf[n]? = some c ∧
        drv.writeRoom s.tty s₁.dev < (expand s.tty.termios c).length) := by
  obtain ⟨n, s₁, hloop, htty, hn, hrec, hnext⟩ := writeLoop_received k hkeeps hpost buf 0 rfl
  have hflush : k.received (s₁.callDev drv.flush).dev = k.received s₁.dev := by
    cases hf : drv.flush with
    | none => rfl
    | some f =>
      show k.received (f s₁.tty s₁.dev) = _
      rw [htty]
      exact k.flush f hf s₁.dev
  refine ⟨n, s₁, ?_, hn, hflush.trans hrec, ?_⟩
  · rw [nTtyWrite, hloop]
    simp
  · rcases Nat.lt_or_ge n buf.length with hlt | hge
    · exact Or.inr ⟨buf[n], List.getElem?_eq_getElem hlt, hnext _ (List.getElem?_eq_getElem hlt)⟩
    · exact Or.inl (Nat.le_antisymm hn hge)

/-- Two lines written to a serial port. -/
theorem nTtyWrite_processed_lines :
    ∃ (n : Nat) (s₁ : SerialLine), nTtyWrite serialDriver false (text ['a', '\n', 'b', '\n']) openedLine =
        .ok (some (n : Int), Attached.callDev s₁ serialDriver.flush) ∧
      n ≤ 4 ∧
      portReceived openedTty (Attached.callDev s₁ serialDriver.flush).dev =
        portReceived openedTty openedLine.dev ++
          ((text ['a', '\n', 'b', '\n']).take n).flatMap (expand defaultTermios) ∧
      (n = 4 ∨ ∃ c, (text ['a', '\n', 'b', '\n'])[n]? = some c ∧
        serialDriver.writeRoom openedTty s₁.dev < (expand defaultTermios c).length) :=
  nTtyWrite_processed (acceptingSerial openedLine.tty) (keepsSecond_serial openedLine.tty) rfl
    (text ['a', '\n', 'b', '\n'])

/-- A driver that takes what it has room for, and then has none. -/
def fillingDriver : TtyDriver (Nat × List Byte) where
  write _ buf d := (min buf.length d.1, (0, d.2 ++ buf.take (min buf.length d.1)))
  writeRoom _ d := d.1
  flush := none
  throttle := none
  unthrottle := none
  stop := none
  start := none

def acceptingFilling (tty : Tty) : AcceptingDriver fillingDriver tty where
  received d := d.2
  write buf d := ⟨min buf.length d.1, le_rfl, rfl⟩
  flush _ h := nomatch h

/-- With room for two, a line feed is counted, and its CR is sent without it. -/
theorem nTtyWrite_splits :
    openedTty.termios.oFlag OPOST = true ∧ ∃ s₁,
      nTtyWrite fillingDriver false [ASCII_LF] { tty := openedTty, dev := (2, []) } = .ok (some 1, s₁) ∧
      (acceptingFilling openedTty).received s₁.dev = [ASCII_CR] ∧
      expand openedTty.termios ASCII_LF = [ASCII_CR, ASCII_LF] :=
  ⟨rfl, { tty := openedTty, dev := (0, [ASCII_CR]) }, by rfl, rfl, by decide⟩

end Ohwes

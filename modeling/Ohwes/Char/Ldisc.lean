import Ohwes.Char.Tty

/-! # `kernel/char/tty_ldisc.c`: the line discipline `n_tty`

The functions between the device and the reader: characters come in from the driver with
`nTtyRecv`, wait in the receive ring, and leave with `nTtyRead`. A buffer is the list of its
characters; `none` is the null pointer. -/

namespace Ohwes
set_option autoImplicit false

section Ldisc
variable {D : Type} (drv : TtyDriver D)

/-- Room left in the receive ring. -/
def nTtyRecvRoom (tty : Tty) : Nat :=
  match tty.ldiscData with
  | none => 0
  | some q => ringLength q - ringCount q

/-- Change the receive ring. -/
def Tty.setRing (tty : Tty) (q : Ring) : Tty := { tty with ldiscData := some q }

def nTtyOpen (buf : Nat → Byte) (tty : Tty) : Int × Tty :=
  match tty.ldisc with
  | none => (-EINVAL, tty)
  | some _ => (0, tty.setRing (ringInit buf TTY_BUFFER_SIZE))

def nTtyClear (tty : Tty) : Tty :=
  match tty.ldiscData with
  | none => tty
  | some q => tty.setRing (ringClear q)

/-! ## Flow control -/

def unthrottleTty (s : Attached D) : Attached D :=
  if !s.tty.throttled then s
  else ({ s with tty := { s.tty with throttled := false } } : Attached D).callDev drv.unthrottle

def throttleTty (s : Attached D) : Attached D :=
  if s.tty.throttled then s
  else ({ s with tty := { s.tty with throttled := true } } : Attached D).callDev drv.throttle

def startTty (s : Attached D) : Attached D :=
  if !s.tty.stopped then s
  else ({ s with tty := { s.tty with stopped := false } } : Attached D).callDev drv.start

def stopTty (s : Attached D) : Attached D :=
  if s.tty.stopped then s
  else ({ s with tty := { s.tty with stopped := true } } : Attached D).callDev drv.stop

/-! ## Output -/

def writeChar (s : Attached D) (c : Byte) : Attached D :=
  { s with dev := (drv.write s.tty [c] s.dev).2 }

def opost (s : Attached D) (c : Byte) : Int × Attached D :=
  let room := drv.writeRoom s.tty s.dev
  if room < 1 then (-1, s)
  else if s.tty.termios.oFlag OPOST then
    if c = ASCII_CR ∧ s.tty.termios.oFlag OCRNL then (0, writeChar drv s ASCII_LF)
    else if c = ASCII_LF ∧ s.tty.termios.oFlag ONLCR then
      if room < 2 then (-1, s)
      else (0, writeChar drv (writeChar drv s ASCII_CR) c)
    else (0, writeChar drv s c)
  else (0, writeChar drv s c)

def echo (s : Attached D) (c : Byte) : Int × Attached D :=
  if s.tty.termios.lFlag ECHOCTL && iscntrl c && c != ASCII_HT && c != ASCII_LF then
    if drv.writeRoom s.tty s.dev < 2 then (-1, s)
    else (0, writeChar drv (writeChar drv s 0x5E) (c ^^^ 0x40))
  else opost drv s c

/-! ## Input -/

/-- Translation of CR and NL. -/
def translate (t : Termios) (c : Byte) : Byte :=
  if c = ASCII_CR then (if t.iFlag ICRNL then ASCII_LF else c)
  else if c = ASCII_LF then (if t.iFlag INLCR then ASCII_CR else c)
  else c

/-- Add a character to the receive ring. -/
def Tty.putChar (tty : Tty) (c : Byte) : Tty :=
  match tty.ldiscData with
  | none => tty
  | some q => tty.setRing (ringPut q c).2

/-- The end of `n_tty_recv`: flush the echo, throttle if little room is left. -/
def recvDone (s : Attached D) : Attached D :=
  let s := s.callDev drv.flush
  if nTtyRecvRoom s.tty < TTY_THROTTLE_THRESH then throttleTty drv s else s

/-- What a pass of the loop of `n_tty_recv` comes to: the call is over, or the next pass looks at the
same byte again, or at the next one. -/
inductive RecvPass (D : Type) where
  | ended (s : Attached D)
  | again
  | next (s : Attached D)

/-- A pass with `c` at `ptr`. A carriage return that `IGNCR` ignores is not consumed. -/
def recvPass (c : Byte) (s : Attached D) : RecvPass D :=
  if s.tty.termios.iFlag IXON && c == START_CHAR then .ended (startTty drv s)
  else if s.tty.termios.iFlag IXON && c == STOP_CHAR then .ended (stopTty drv s)
  else if c == ASCII_CR && s.tty.termios.iFlag IGNCR then .again
  else
    let c := translate s.tty.termios c
    if s.tty.termios.lFlag ECHO then
      if nTtyRecvRoom s.tty ≤ 1 then .ended (writeChar drv s ASCII_BEL)
      else
        let s := (echo drv s c).2
        .next { s with tty := s.tty.putChar c }
    else .next { s with tty := s.tty.putChar c }

/-- The loop of `n_tty_recv`. A byte that is not consumed is looked at again and again. -/
def recvLoop : List Byte → Attached D → Call (Attached D)
  | [], s => .ok (recvDone drv s)
  | c :: buf, s =>
    match recvPass drv c s with
    | .ended s => .ok s
    | .again => .error .diverges
    | .next s => recvLoop buf s

def nTtyRecv (buf : Option (List Byte)) (s : Attached D) : Call (Attached D) :=
  match buf, s.tty.ldiscData with
  | some buf, some _ => recvLoop drv buf s
  | _, _ => .ok s

/-- How a read ends. A read that finds the ring empty and may block spins until an interrupt brings
a character; what it has read so far is kept. -/
inductive ReadOutcome where
  | returned (ret : Int) (chars : List Byte)
  | spinning (chars : List Byte)
  deriving DecidableEq, Repr

/-- The loop of `n_tty_read`, with `count` characters to go. `oflag` is `tty->file->f_oflag`. -/
def readLoop (oflag : BitVec 32) : Nat → List Byte → Attached D → Call (ReadOutcome × Attached D)
  | 0, chars, s => .ok (.returned chars.length chars, s)
  | count + 1, chars, s =>
    match s.tty.ldiscData with
    | none => .error .assertion
    | some q =>
      if ringCount q = 0 then
        if oflag &&& O_NONBLOCK != 0 then
          if chars.length = 0 then .ok (.returned (-EAGAIN) chars, s)
          else .ok (.returned chars.length chars, s)
        else .ok (.spinning chars, s)
      else
        let s := { s with tty := s.tty.setRing (ringGet q).2 }
        let s := if nTtyRecvRoom s.tty ≥ TTY_THROTTLE_THRESH then unthrottleTty drv s else s
        readLoop oflag count (chars ++ [(ringGet q).1]) s

/-- `isNull` says that the caller's buffer is the null pointer. -/
def nTtyRead (oflag : BitVec 32) (isNull : Bool) (count : Nat) (s : Attached D) :
    Call (ReadOutcome × Attached D) :=
  if isNull then .ok (.returned (-EINVAL) [], s)
  else
    match s.tty.ldiscData with
    | none => .error .assertion
    | some _ => readLoop drv oflag count [] s

end Ldisc

/-! ## What the operations leave alone -/

theorem nTtyRecvRoom_congr {tty tty' : Tty} (h : tty'.ldiscData = tty.ldiscData) :
    nTtyRecvRoom tty' = nTtyRecvRoom tty := by
  unfold nTtyRecvRoom
  rw [h]

@[simp] theorem putChar_throttled (tty : Tty) (c : Byte) :
    (tty.putChar c).throttled = tty.throttled := by
  unfold Tty.putChar
  split <;> rfl

@[simp] theorem putChar_termios (tty : Tty) (c : Byte) :
    (tty.putChar c).termios = tty.termios := by
  unfold Tty.putChar
  split <;> rfl

section Frames
variable {D : Type} (drv : TtyDriver D)

theorem startTty_frame (s : Attached D) :
    (startTty drv s).tty.throttled = s.tty.throttled ∧
      (startTty drv s).tty.ldiscData = s.tty.ldiscData := by
  unfold startTty
  split
  · exact ⟨rfl, rfl⟩
  · rw [Attached.callDev_tty]
    exact ⟨rfl, rfl⟩

theorem stopTty_frame (s : Attached D) :
    (stopTty drv s).tty.throttled = s.tty.throttled ∧
      (stopTty drv s).tty.ldiscData = s.tty.ldiscData := by
  unfold stopTty
  split
  · exact ⟨rfl, rfl⟩
  · rw [Attached.callDev_tty]
    exact ⟨rfl, rfl⟩

@[simp] theorem writeChar_tty (s : Attached D) (c : Byte) : (writeChar drv s c).tty = s.tty := rfl

@[simp] theorem opost_tty (s : Attached D) (c : Byte) : (opost drv s c).2.tty = s.tty := by
  unfold opost
  simp only []
  split_ifs <;> rfl

@[simp] theorem echo_tty (s : Attached D) (c : Byte) : (echo drv s c).2.tty = s.tty := by
  unfold echo
  split_ifs
  · rfl
  · rfl
  · exact opost_tty drv s c

theorem throttleTty_tty (s : Attached D) :
    (throttleTty drv s).tty = { s.tty with throttled := true } := by
  unfold throttleTty
  split
  · next h => rw [← h]
  · rw [Attached.callDev_tty]

theorem unthrottleTty_tty (s : Attached D) :
    (unthrottleTty drv s).tty = { s.tty with throttled := false } := by
  unfold unthrottleTty
  split
  · next h =>
    have h : s.tty.throttled = false := by simpa using h
    rw [← h]
  · rw [Attached.callDev_tty]

end Frames

def flowChar (t : Termios) (c : Byte) : Bool :=
  t.iFlag IXON && (c == START_CHAR || c == STOP_CHAR)

def ignoredChar (t : Termios) (c : Byte) : Bool := c == ASCII_CR && t.iFlag IGNCR

/-! ## One character -/

section Chars
variable {D : Type} (drv : TtyDriver D)

/-- What an XON or XOFF character does. -/
def flowSwitch (s : Attached D) (c : Byte) : Attached D :=
  if c = START_CHAR then startTty drv s else stopTty drv s

/-- What an ordinary character does when there is room for it: the echo, and the ring. -/
def takeChar (s : Attached D) (c : Byte) : Attached D :=
  let c := translate s.tty.termios c
  let s := if s.tty.termios.lFlag ECHO then (echo drv s c).2 else s
  { s with tty := s.tty.putChar c }

theorem takeChar_tty (s : Attached D) (c : Byte) :
    (takeChar drv s c).tty = s.tty.putChar (translate s.tty.termios c) := by
  unfold takeChar
  simp only []
  split
  · rw [echo_tty]
  · rfl

theorem flowSwitch_frame (s : Attached D) (c : Byte) :
    (flowSwitch drv s c).tty.throttled = s.tty.throttled ∧
      (flowSwitch drv s c).tty.ldiscData = s.tty.ldiscData := by
  unfold flowSwitch
  split
  · exact startTty_frame drv s
  · exact stopTty_frame drv s

/-- The four things that can happen to the next character. -/
theorem recvPass_eq (c : Byte) (s : Attached D) :
    recvPass drv c s =
      if flowChar s.tty.termios c then .ended (flowSwitch drv s c)
      else if ignoredChar s.tty.termios c then .again
      else if s.tty.termios.lFlag ECHO = true ∧ nTtyRecvRoom s.tty ≤ 1 then
        .ended (writeChar drv s ASCII_BEL)
      else .next (takeChar drv s c) := by
  unfold recvPass flowChar ignoredChar flowSwitch takeChar
  by_cases hx : s.tty.termios.iFlag IXON = true
  · by_cases hstart : c = START_CHAR
    · simp [hx, hstart]
    · by_cases hstop : c = STOP_CHAR
      · simp [hx, hstop, START_CHAR, STOP_CHAR]
      · by_cases he : s.tty.termios.lFlag ECHO = true
        · simp [hx, hstart, hstop, he]
        · simp [hx, hstart, hstop, he]
  · by_cases he : s.tty.termios.lFlag ECHO = true
    · simp [hx, he]
    · simp [hx, he]

theorem recvLoop_cons (c : Byte) (buf : List Byte) (s : Attached D) :
    recvLoop drv (c :: buf) s =
      if flowChar s.tty.termios c then .ok (flowSwitch drv s c)
      else if ignoredChar s.tty.termios c then .error .diverges
      else if s.tty.termios.lFlag ECHO = true ∧ nTtyRecvRoom s.tty ≤ 1 then
        .ok (writeChar drv s ASCII_BEL)
      else recvLoop drv buf (takeChar drv s c) := by
  rw [recvLoop, recvPass_eq]
  split_ifs <;> rfl

/-- What `n_tty_recv` keeps because each of the things it does keeps it. -/
structure RecvKeeps (I : Attached D → Prop) : Prop where
  throttle : ∀ s, I s → I (throttleTty drv s)
  start : ∀ s, I s → I (startTty drv s)
  stop : ∀ s, I s → I (stopTty drv s)
  write : ∀ s c, I s → I (writeChar drv s c)
  flush : ∀ s, I s → I (s.callDev drv.flush)
  put : ∀ s c, I s → I { s with tty := s.tty.putChar c }

namespace RecvKeeps
variable {drv : TtyDriver D} {I : Attached D → Prop}

theorem opost (k : RecvKeeps drv I) {s : Attached D} (h : I s) (c : Byte) :
    I (opost drv s c).2 := by
  unfold Ohwes.opost
  simp only []
  split_ifs
  · exact h
  · exact k.write _ _ h
  · exact h
  · exact k.write _ _ (k.write _ _ h)
  · exact k.write _ _ h
  · exact k.write _ _ h

theorem echo (k : RecvKeeps drv I) {s : Attached D} (h : I s) (c : Byte) :
    I (echo drv s c).2 := by
  unfold Ohwes.echo
  split_ifs
  · exact h
  · exact k.write _ _ (k.write _ _ h)
  · exact k.opost h c

theorem takeChar (k : RecvKeeps drv I) {s : Attached D} (h : I s) (c : Byte) :
    I (takeChar drv s c) := by
  unfold Ohwes.takeChar
  simp only []
  split
  · exact k.put _ _ (k.echo h _)
  · exact k.put _ _ h

theorem recvDone (k : RecvKeeps drv I) {s : Attached D} (h : I s) : I (recvDone drv s) := by
  unfold Ohwes.recvDone
  simp only []
  split
  · exact k.throttle _ (k.flush _ h)
  · exact k.flush _ h

theorem recvLoop (k : RecvKeeps drv I) {buf : List Byte} {s t : Attached D} (h : I s)
    (hc : recvLoop drv buf s = .ok t) : I t := by
  induction buf generalizing s with
  | nil =>
    cases hc
    exact k.recvDone h
  | cons c buf ih =>
    rw [recvLoop_cons] at hc
    split_ifs at hc
    · cases hc
      unfold flowSwitch
      split
      · exact k.start _ h
      · exact k.stop _ h
    · cases hc
      exact k.write _ _ h
    · exact ih (k.takeChar h c) hc

theorem nTtyRecv (k : RecvKeeps drv I) {buf : Option (List Byte)} {s t : Attached D} (h : I s)
    (hc : nTtyRecv drv buf s = .ok t) : I t := by
  unfold Ohwes.nTtyRecv at hc
  split at hc
  · exact k.recvLoop h hc
  · cases hc
    exact h

end RecvKeeps

end Chars

/-- The first serial port's tty, just opened. -/
def openedTty : Tty :=
  { Tty.zero TTYS_MIN (by decide) with
    isOpen := true
    ldisc := some N_TTY
    driver := some .serial
    termios := defaultTermios
    ldiscData := some (ringInit (fun _ => 0) TTY_BUFFER_SIZE) }

end Ohwes

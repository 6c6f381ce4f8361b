import Ohwes.Char.TtyDrivers

/-! # `kernel/char/tty.c`, `serial.c`: `ioctl` on a tty

The caller's memory is apart from what the kernel keeps, and a copy to or from it fails for the null
pointer only. Every command copies once. `copy_to_user` and `copy_from_user` return whether they did:
four commands make an error number of that, the two that read the state of a serial port return it as
it is. -/

namespace Ohwes
set_option autoImplicit false

/-! ## `ioctl.h` -/

/-- The fields of an `ioctl` number, from the highest down. -/
def ioctlNumber (dir : BitVec 2) (size : BitVec 14) (code seq : BitVec 8) : BitVec 32 :=
  dir ++ size ++ code ++ seq

def IOCTL_READ : BitVec 2 := 1
def IOCTL_WRITE : BitVec 2 := 2

/-- The device class `'T'`. -/
def IOC_TTY : BitVec 8 := 0x54

def TCGETS : BitVec 32 := ioctlNumber IOCTL_READ 20 IOC_TTY 1
def TCSETS : BitVec 32 := ioctlNumber IOCTL_WRITE 20 IOC_TTY 2
def TIOCMGET : BitVec 32 := ioctlNumber IOCTL_READ 4 IOC_TTY 3
def TIOCMSET : BitVec 32 := ioctlNumber IOCTL_WRITE 4 IOC_TTY 4
def TIOCGICOUNT : BitVec 32 := ioctlNumber IOCTL_WRITE 48 IOC_TTY 5
def TIOCSTI : BitVec 32 := ioctlNumber IOCTL_READ 1 IOC_TTY 6

/-- `validate_user_address`, which does not look at the number of bytes. -/
def validateUserAddress (addr : Ptr) : Bool := addr ≠ 0

/-- The memory with bytes written from an address on. -/
def writeBytes (m : Memory) (a : Ptr) : List Byte → Memory
  | [] => m
  | b :: bytes => writeBytes (Function.update m a b) (a + 1) bytes

/-- `none` where the function returns `false`. -/
def copyToUser (user : Memory) (dst : Ptr) (bytes : List Byte) : Option Memory :=
  if validateUserAddress dst then some (writeBytes user dst bytes) else none

/-- `none` where the function returns `false`. -/
def copyFromUser (user : Memory) (src : Ptr) (nbytes : Nat) : Option (List Byte) :=
  if validateUserAddress src then some (bytesAt user src nbytes) else none

/-! ## `tty.c` -/

/-- All ttys, their devices, and the memory of the caller. -/
structure TtySystem where
  ttys : Nat → Tty
  dev : Devices
  user : Memory

namespace TtySystem

def setTty (s : TtySystem) (i : Nat) (tty : Tty) : TtySystem :=
  { s with ttys := Function.update s.ttys i tty }

def setPort (s : TtySystem) (j : Fin NR_SERIAL) (p : Port) : TtySystem :=
  { s with dev := { s.dev with ports := s.dev.ports.set j p } }

end TtySystem

def termiosBytes (t : Termios) : List Byte :=
  [t.line, t.iflag, t.oflag, t.cflag, t.lflag].flatMap leBytes

def termiosOf (bytes : List Byte) : Termios where
  line := leWord bytes 0
  iflag := leWord bytes 4
  oflag := leWord bytes 8
  cflag := leWord bytes 12
  lflag := leWord bytes 16

def getTermios (s : TtySystem) (i : Nat) (arg : Ptr) : Int × TtySystem :=
  match copyToUser s.user arg (termiosBytes (s.ttys i).termios) with
  | none => (- EFAULT, s)
  | some user => (0, { s with user := user })

def setTermios (s : TtySystem) (i : Nat) (arg : Ptr) : Int × TtySystem :=
  match copyFromUser s.user arg 20 with
  | none => (- EFAULT, s)
  | some bytes => (0, s.setTty i { s.ttys i with termios := termiosOf bytes })

/-- A tty without a line discipline or a driver has nothing to call. -/
def tiocsti (s : TtySystem) (i : Nat) (arg : Ptr) : Call (Int × TtySystem) :=
  match copyFromUser s.user arg 1 with
  | none => .ok (- EFAULT, s)
  | some chars =>
    match (s.ttys i).ldisc, (s.ttys i).driver with
    | some _, some name => do
      let line ← nTtyRecv (ttyDriver name) (some chars) ⟨s.ttys i, s.dev⟩
      .ok (0, { s.setTty i line.tty with dev := line.dev })
    | _, _ => .error .fault

/-! ## `serial.c` -/

def UART_MCR_OUT1 : Byte := 0x04
def UART_MSR_RI : Byte := 0x40

def TIOCM_DTR : BitVec 32 := 0x01
def TIOCM_RTS : BitVec 32 := 0x02
def TIOCM_OUT1 : BitVec 32 := 0x04
def TIOCM_OUT2 : BitVec 32 := 0x08
def TIOCM_CTS : BitVec 32 := 0x10
def TIOCM_CD : BitVec 32 := 0x20
def TIOCM_RI : BitVec 32 := 0x40
def TIOCM_DSR : BitVec 32 := 0x80

/-- The modem lines a program sees, from the control and the status register. -/
def modemInfo (ctl sts : Byte) : BitVec 32 :=
  let line (r mask : Byte) (bit : BitVec 32) := if hasBit r mask then bit else 0
  line ctl UART_MCR_DTR TIOCM_DTR ||| line ctl UART_MCR_RTS TIOCM_RTS |||
    line ctl UART_MCR_OUT1 TIOCM_OUT1 ||| line ctl UART_MCR_OUT2 TIOCM_OUT2 |||
    line sts UART_MSR_CTS TIOCM_CTS ||| line sts UART_MSR_DCD TIOCM_CD |||
    line sts UART_MSR_RI TIOCM_RI ||| line sts UART_MSR_DSR TIOCM_DSR

/-- The control register with the lines a program has set. -/
def modemControl (mcr : Byte) (info : BitVec 32) : Byte :=
  let line (bit : BitVec 32) (mask : Byte) : Byte := if info &&& bit != 0 then mask else 0
  mcr &&& ~~~(UART_MCR_DTR ||| UART_MCR_RTS ||| UART_MCR_OUT1 ||| UART_MCR_OUT2) |||
    (line TIOCM_DTR UART_MCR_DTR ||| line TIOCM_RTS UART_MCR_RTS |||
      line TIOCM_OUT1 UART_MCR_OUT1 ||| line TIOCM_OUT2 UART_MCR_OUT2)

def statsBytes (st : SerialStats) : List Byte :=
  [st.overrun, st.parity, st.framing, st.timeout, st.brk, st.tx, st.rx, st.xchar, st.cts, st.dsr,
    st.ring, st.dcd].flatMap leBytes

/-- `return copy_to_user(...)`. -/
def returnCopied (s : TtySystem) (copied : Option Memory) : Int × TtySystem :=
  match copied with
  | none => (0, s)
  | some user => (1, { s with user := user })

/-- `check_modem_status` goes to the tty of the port. -/
def getModemInfo (uart : Uart) (s : TtySystem) (j : Fin NR_SERIAL) (arg : Ptr) :
    Call (Int × TtySystem) :=
  match (s.dev.ports j).com.tty with
  | none => .error .fault
  | some k =>
    let x := checkModemStatus uart (s.ttys k) (s.dev.ports j)
    let s := (s.setTty k x.1).setPort j x.2
    let info := modemInfo x.2.com.mcr x.2.com.msr
    .ok (returnCopied s (copyToUser s.user arg (leBytes info)))

def setModemInfo (s : TtySystem) (j : Fin NR_SERIAL) (arg : Ptr) : Int × TtySystem :=
  match copyFromUser s.user arg 4 with
  | none => (- EFAULT, s)
  | some bytes =>
    let p := s.dev.ports j
    let mcr := modemControl p.com.mcr (leWord bytes 0)
    (0, s.setPort j (comOut (setMcr p mcr) UART_MCR mcr))

def getModemStats (s : TtySystem) (j : Fin NR_SERIAL) (arg : Ptr) : Int × TtySystem :=
  returnCopied s (copyToUser s.user arg (statsBytes (s.dev.ports j).com.stats))

section Ioctl
variable (uart : Fin NR_SERIAL → Uart)

def serialIoctl (s : TtySystem) (i : Nat) (op : BitVec 32) (arg : Ptr) : Call (Int × TtySystem) :=
  match ttyGetCom (s.ttys i) with
  | .error e => .ok (e, s)
  | .ok j =>
    if op = TIOCMGET then getModemInfo (uart j) s j arg
    else if op = TIOCMSET then .ok (setModemInfo s j arg)
    else if op = TIOCGICOUNT then .ok (getModemStats s j arg)
    else .ok (- ENOTTY, s)

def terminalTtyIoctl (s : TtySystem) : Int × TtySystem := (- ENOTTY, s)

def nTtyIoctl (s : TtySystem) : Int × TtySystem := (- ENOTTY, s)

/-- `tty->driver.ioctl`, and `-ENOTTY` where there is none. -/
def driverIoctl (s : TtySystem) (i : Nat) (op : BitVec 32) (arg : Ptr) : Call (Int × TtySystem) :=
  match (s.ttys i).driver with
  | none => .ok (- ENOTTY, s)
  | some .terminal => .ok (terminalTtyIoctl s)
  | some .serial => serialIoctl uart s i op arg

/-- The file is given by the tty in its private data. -/
def ttyIoctl (s : TtySystem) (file : Option Nat) (op : BitVec 32) (arg : Ptr) :
    Call (Int × TtySystem) :=
  match file with
  | none => .ok (- EINVAL, s)
  | some i =>
    if op = TCGETS then .ok (getTermios s i arg)
    else if op = TCSETS then .ok (setTermios s i arg)
    else if op = TIOCSTI then tiocsti s i arg
    else do
      let (ret, s) ← driverIoctl uart s i op arg
      if ret ≠ - ENOTTY then .ok (ret, s)
      else
        match (s.ttys i).ldisc with
        | none => .error .fault
        | some _ => .ok (nTtyIoctl s)

end Ioctl

/-! ## What is copied -/

theorem termiosOf_termiosBytes (t : Termios) : termiosOf (termiosBytes t) = t := by
  cases t
  simp only [termiosOf, Termios.mk.injEq]
  exact ⟨leWord_leBytes _, leWord_leBytes _, leWord_leBytes _, leWord_leBytes _, leWord_leBytes _⟩

theorem termiosBytes_length (t : Termios) : (termiosBytes t).length = 20 := rfl

theorem writeBytes_of_le (m : Memory) {a b : Ptr} {bytes : List Byte}
    (h : bytes.length ≤ (b - a).toNat) : writeBytes m a bytes b = m b := by
  induction bytes generalizing m a with
  | nil => rfl
  | cons c bytes ih =>
    rw [List.length_cons] at h
    have hne : b ≠ a := by bv_omega
    have hnext : bytes.length ≤ (b - (a + 1)).toNat := by bv_omega
    rw [writeBytes, ih _ hnext, Function.update_of_ne hne]

theorem bytesAt_writeBytes (m : Memory) (a : Ptr) {bytes : List Byte} (h : bytes.length < 2 ^ 32) :
    bytesAt (writeBytes m a bytes) a bytes.length = bytes := by
  induction bytes generalizing m a with
  | nil => rfl
  | cons c bytes ih =>
    rw [List.length_cons] at h
    have hfar : bytes.length ≤ (a - (a + 1)).toNat := by bv_omega
    rw [List.length_cons, bytesAt, writeBytes, writeBytes_of_le _ hfar, Function.update_self,
      ih _ _ (by omega)]

/-- Setting what was just read changes nothing. -/
theorem setTermios_getTermios {s t : TtySystem} {i : Nat} {arg : Ptr}
    (h : getTermios s i arg = (0, t)) : setTermios t i arg = (0, t) := by
  unfold getTermios copyToUser at h
  cases hv : validateUserAddress arg with
  | false =>
    rw [hv] at h
    cases h
  | true =>
    rw [hv] at h
    obtain ⟨-, rfl⟩ := Prod.mk.inj h
    have hback : bytesAt (writeBytes s.user arg (termiosBytes (s.ttys i).termios)) arg 20 =
        termiosBytes (s.ttys i).termios :=
      bytesAt_writeBytes s.user arg (by rw [termiosBytes_length]; decide)
    unfold setTermios copyFromUser
    simp only [hv, if_true, hback, termiosOf_termiosBytes]
    rw [TtySystem.setTty, Function.update_eq_self]

/-! ## Open ttys -/

/-- A tty as `tty_open` leaves it: with its line discipline, the ring of that, and the driver for its
number. -/
structure OpenTty (ttys : Nat → Tty) (i : Nat) : Prop where
  pos : 1 ≤ i
  lt : i < NR_TTY
  device : (ttys i).device = mkdev TTY_MAJOR i
  ldisc : (ttys i).ldisc.isSome = true
  ring : (ttys i).ldiscData.isSome = true
  driver : (ttys i).driver = some (driverOf i)

theorem attachDriver_openTty {uart : Fin NR_SERIAL → Uart} {w w' : TtyWorld} {i : Nat} (h : IsTty w i)
    {tty : Tty} {d : DriverEntry} (hdev : tty.device = (w.ttys i).device)
    (hldisc : tty.ldisc.isSome = true) (hring : tty.ldiscData.isSome = true)
    (hname : d.name = driverOf i) (hc : attachDriver uart w i tty d = .ok (0, w')) :
    OpenTty w'.ttys i := by
  obtain ⟨m, -, hm, ⟨-, -, rfl⟩ | ⟨hr, -⟩⟩ := attachDriver_cases h hdev hname hc
  · have hself := TtyWorld.setTty_self m i { m.ttys i with
      isOpen := true, throttled := false, stopped := false, hwStopped := false }
    rw [hm] at hself
    exact
      { pos := h.pos
        lt := h.lt
        device := by rw [hm, hself]; exact hdev.trans h.device
        ldisc := by rw [hm, hself]; exact hldisc
        ring := by rw [hm, hself]; exact hring
        driver := by rw [hm, hself, ← hname] }
  · exact absurd hr (Int.lt_irrefl 0)

/-- A tty that has been opened is open. -/
theorem ttyOpenInternal_openTty {uart : Fin NR_SERIAL → Uart} {w w' : TtyWorld} {i : Nat}
    (h : IsTty w i) (hclosed : (w.ttys i).isOpen = false)
    (hc : ttyOpenInternal uart w i = .ok (0, w')) : OpenTty w'.ttys i := by
  obtain ⟨tty, d, hattach, hname, hdev, -, hldisc, hring⟩ := ttyOpenInternal_attach h hclosed hc
  exact attachDriver_openTty h hdev hldisc hring hname hattach

theorem OpenTty.com {ttys : Nat → Tty} {i : Nat} (h : OpenTty ttys i) (hi : ¬ i ≤ TTY_MAX) :
    ∃ j, ttyGetCom (ttys i) = .ok j := by
  have his : IsTty ⟨ttys, fun _ => none, fun _ => probedPort 1⟩ i := ⟨h.pos, h.lt, h.device⟩
  obtain ⟨j, hj, -⟩ := his.ttyGetCom_eq hi
  exact ⟨j, hj⟩

/-! ## The protocol -/

/-- The commands that copy to or from the caller. -/
def copyOps : DriverName → List (BitVec 32)
  | .terminal => [TCGETS, TCSETS, TIOCSTI]
  | .serial => [TCGETS, TCSETS, TIOCSTI, TIOCMGET, TIOCMSET, TIOCGICOUNT]

/-- The command returns 0 when its copy succeeds, and `-EFAULT` when it fails, with nothing changed. -/
structure CopyProtocol (uart : Fin NR_SERIAL → Uart) (s : TtySystem) (i : Nat) (op : BitVec 32)
    (arg : Ptr) : Prop where
  copied : validateUserAddress arg = true → ∃ t, ttyIoctl uart s (some i) op arg = .ok (0, t)
  failed : validateUserAddress arg = false →
    ∃ t, ttyIoctl uart s (some i) op arg = .ok (- EFAULT, t) ∧ t.ttys = s.ttys ∧ t.dev = s.dev

/-- The character to be put into the input is a carriage return that `IGNCR` ignores. -/
def IgnoredReturn (s : TtySystem) (i : Nat) (op : BitVec 32) (arg : Ptr) : Prop :=
  op = TIOCSTI ∧ arg ≠ 0 ∧ s.user arg = ASCII_CR ∧ (s.ttys i).termios.iFlag IGNCR = true

theorem nTtyRecv_one {D : Type} (drv : TtyDriver D) {a : Attached D}
    (hring : a.tty.ldiscData.isSome = true) (c : Byte) :
    (∃ t, nTtyRecv drv (some [c]) a = .ok t) ↔ ignoredChar a.tty.termios c = false := by
  obtain ⟨q, hq⟩ := Option.isSome_iff_exists.mp hring
  have hrecv : nTtyRecv drv (some [c]) a = recvLoop drv [c] a := by
    unfold nTtyRecv
    rw [hq]
  rw [hrecv, recvLoop_cons]
  by_cases hflow : flowChar a.tty.termios c = true
  · rw [if_pos hflow]
    have hnot : ignoredChar a.tty.termios c = false := by
      rw [flowChar, Bool.and_eq_true, Bool.or_eq_true, beq_iff_eq, beq_iff_eq] at hflow
      obtain rfl | rfl := hflow.2
      · rfl
      · rfl
    exact iff_of_true ⟨_, rfl⟩ hnot
  · rw [if_neg hflow]
    cases hign : ignoredChar a.tty.termios c with
    | true => exact iff_of_false (fun ⟨_, h⟩ => nomatch h) (by decide)
    | false =>
      rw [if_neg (by decide)]
      refine iff_of_true ?_ rfl
      split
      · exact ⟨_, rfl⟩
      · exact ⟨_, rfl⟩

theorem copyOps_mem {name : DriverName} {op : BitVec 32} (h : op ∈ copyOps name) :
    op = TCGETS ∨ op = TCSETS ∨ op = TIOCSTI ∨
      name = .serial ∧ (op = TIOCMGET ∨ op = TIOCMSET ∨ op = TIOCGICOUNT) := by
  cases name with
  | terminal => simpa [copyOps] using h
  | serial => simpa [copyOps] using h

section Commands
variable {uart : Fin NR_SERIAL → Uart} {s : TtySystem} {i : Nat} {j : Fin NR_SERIAL}
  {op : BitVec 32} {arg : Ptr}

/-- A command that ends with a value of its own follows the protocol if the value does. -/
theorem protocol_of_eq {x : Int × TtySystem} (hx : ttyIoctl uart s (some i) op arg = .ok x)
    (hcopied : validateUserAddress arg = true → x.1 = 0)
    (hfailed : validateUserAddress arg = false → x = (- EFAULT, s)) : CopyProtocol uart s i op arg where
  copied hv := by
    obtain ⟨ret, t⟩ := x
    obtain rfl : ret = 0 := hcopied hv
    exact ⟨t, hx⟩
  failed hv := by
    rw [hfailed hv] at hx
    exact ⟨s, hx, rfl, rfl⟩

theorem getTermios_protocol : CopyProtocol uart s i TCGETS arg := by
  have hx : ttyIoctl uart s (some i) TCGETS arg = .ok (getTermios s i arg) := rfl
  refine protocol_of_eq hx (fun hv => ?_) (fun hv => ?_)
  · rw [getTermios, copyToUser, if_pos hv]
  · rw [getTermios, copyToUser, hv]
    rfl

theorem setTermios_protocol : CopyProtocol uart s i TCSETS arg := by
  have hx : ttyIoctl uart s (some i) TCSETS arg = .ok (setTermios s i arg) := rfl
  refine protocol_of_eq hx (fun hv => ?_) (fun hv => ?_)
  · rw [setTermios, copyFromUser, if_pos hv]
  · rw [setTermios, copyFromUser, hv]
    rfl

theorem tiocsti_protocol_iff (h : OpenTty s.ttys i) :
    CopyProtocol uart s i TIOCSTI arg ↔
      ¬ (arg ≠ 0 ∧ s.user arg = ASCII_CR ∧ (s.ttys i).termios.iFlag IGNCR = true) := by
  have hx : ttyIoctl uart s (some i) TIOCSTI arg = tiocsti s i arg := rfl
  obtain ⟨line, hline⟩ := Option.isSome_iff_exists.mp h.ldisc
  cases hv : validateUserAddress arg with
  | false =>
    have harg : arg = 0 := by simpa [validateUserAddress] using hv
    have hfail : tiocsti s i arg = .ok (- EFAULT, s) := by
      rw [tiocsti, copyFromUser, hv]
      rfl
    rw [hfail] at hx
    refine iff_of_true (protocol_of_eq hx (fun hv' => ?_) (fun _ => rfl)) fun hbad => hbad.1 harg
    rw [hv] at hv'
    cases hv'
  | true =>
    have harg : arg ≠ 0 := by simpa [validateUserAddress] using hv
    have hrecv := nTtyRecv_one (ttyDriver (driverOf i)) (a := ⟨s.ttys i, s.dev⟩) h.ring (s.user arg)
    have hsti : tiocsti s i arg =
        (nTtyRecv (ttyDriver (driverOf i)) (some [s.user arg]) ⟨s.ttys i, s.dev⟩).map fun line =>
          (0, { s.setTty i line.tty with dev := line.dev }) := by
      rw [tiocsti, copyFromUser, if_pos hv, hline, h.driver]
      rfl
    rw [hsti] at hx
    have hcopy : CopyProtocol uart s i TIOCSTI arg ↔
        ∃ t, nTtyRecv (ttyDriver (driverOf i)) (some [s.user arg]) ⟨s.ttys i, s.dev⟩ = .ok t := by
      constructor
      · intro hp
        obtain ⟨t, ht⟩ := hp.copied hv
        rw [hx] at ht
        cases hn : nTtyRecv (ttyDriver (driverOf i)) (some [s.user arg]) ⟨s.ttys i, s.dev⟩ with
        | error e =>
          rw [hn] at ht
          cases ht
        | ok u => exact ⟨u, rfl⟩
      · rintro ⟨t, ht⟩
        rw [ht] at hx
        refine protocol_of_eq hx (fun _ => rfl) fun hv' => ?_
        rw [hv] at hv'
        cases hv'
    rw [hcopy, hrecv, ignoredChar, Bool.and_eq_false_imp, beq_iff_eq, ← Bool.not_eq_true]
    exact ⟨fun hok hbad => hok hbad.2.1 hbad.2.2, fun hok hcr hign => hok ⟨harg, hcr, hign⟩⟩

/-- What the driver returns is what the call returns, unless it does not know the command. -/
theorem ttyIoctl_driver (hget : op ≠ TCGETS) (hset : op ≠ TCSETS) (hsti : op ≠ TIOCSTI)
    {x : Int × TtySystem} (hx : driverIoctl uart s i op arg = .ok x) (hret : x.1 ≠ - ENOTTY) :
    ttyIoctl uart s (some i) op arg = .ok x := by
  rw [ttyIoctl]
  simp only [if_neg hget, if_neg hset, if_neg hsti, hx, ok_bind, if_pos hret]

theorem driverIoctl_serial (hd : (s.ttys i).driver = some .serial) (hj : ttyGetCom (s.ttys i) = .ok j) :
    driverIoctl uart s i op arg =
      if op = TIOCMGET then getModemInfo (uart j) s j arg
      else if op = TIOCMSET then .ok (setModemInfo s j arg)
      else if op = TIOCGICOUNT then .ok (getModemStats s j arg)
      else .ok (- ENOTTY, s) := by
  rw [driverIoctl, hd]
  simp only [serialIoctl, hj]

theorem setModemInfo_protocol (hd : (s.ttys i).driver = some .serial)
    (hj : ttyGetCom (s.ttys i) = .ok j) : CopyProtocol uart s i TIOCMSET arg := by
  have hdrv : driverIoctl uart s i TIOCMSET arg = .ok (setModemInfo s j arg) := driverIoctl_serial hd hj
  have hcopied : validateUserAddress arg = true → (setModemInfo s j arg).1 = 0 := by
    intro hv
    rw [setModemInfo, copyFromUser, if_pos hv]
  have hfailed : validateUserAddress arg = false → setModemInfo s j arg = (- EFAULT, s) := by
    intro hv
    rw [setModemInfo, copyFromUser, hv]
    rfl
  have hret : (setModemInfo s j arg).1 ≠ - ENOTTY := by
    cases hv : validateUserAddress arg with
    | false =>
      rw [hfailed hv]
      show - EFAULT ≠ - ENOTTY
      decide
    | true =>
      rw [hcopied hv]
      decide
  exact protocol_of_eq (ttyIoctl_driver (by decide) (by decide) (by decide) hdrv hret) hcopied hfailed

/-- A command that returns the answer of its copy never returns what the protocol says. -/
theorem not_protocol_of_returnCopied {t : TtySystem} {bytes : List Byte}
    (hget : op ≠ TCGETS) (hset : op ≠ TCSETS) (hsti : op ≠ TIOCSTI)
    (hx : driverIoctl uart s i op arg = .ok (returnCopied t (copyToUser t.user arg bytes))) :
    ¬ CopyProtocol uart s i op arg := by
  have hfst : (returnCopied t (copyToUser t.user arg bytes)).1 =
      if validateUserAddress arg then 1 else 0 := by
    rw [copyToUser]
    split <;> rfl
  have hret : (returnCopied t (copyToUser t.user arg bytes)).1 ≠ - ENOTTY := by
    rw [hfst]
    split <;> decide
  have hcall := ttyIoctl_driver hget hset hsti hx hret
  intro hp
  cases hv : validateUserAddress arg with
  | false =>
    obtain ⟨u, hu, -⟩ := hp.failed hv
    rw [hcall] at hu
    rw [congrArg Prod.fst (Except.ok.inj hu), hv] at hfst
    have hbad : - EFAULT = 0 := hfst
    exact absurd hbad (by decide)
  | true =>
    obtain ⟨u, hu⟩ := hp.copied hv
    rw [hcall] at hu
    rw [congrArg Prod.fst (Except.ok.inj hu), hv] at hfst
    have hbad : (0 : Int) = 1 := hfst
    exact absurd hbad (by decide)

theorem getModemStats_protocol (hd : (s.ttys i).driver = some .serial)
    (hj : ttyGetCom (s.ttys i) = .ok j) : ¬ CopyProtocol uart s i TIOCGICOUNT arg := by
  have hdrv : driverIoctl uart s i TIOCGICOUNT arg = .ok (getModemStats s j arg) :=
    driverIoctl_serial hd hj
  exact not_protocol_of_returnCopied (by decide) (by decide) (by decide) hdrv

theorem getModemInfo_protocol (hd : (s.ttys i).driver = some .serial)
    (hj : ttyGetCom (s.ttys i) = .ok j) : ¬ CopyProtocol uart s i TIOCMGET arg := by
  have hdrv : driverIoctl uart s i TIOCMGET arg = getModemInfo (uart j) s j arg :=
    driverIoctl_serial hd hj
  cases htty : (s.dev.ports j).com.tty with
  | some k =>
    rw [getModemInfo, htty] at hdrv
    exact not_protocol_of_returnCopied (by decide) (by decide) (by decide) hdrv
  | none =>
    rw [getModemInfo, htty] at hdrv
    have hcall : ttyIoctl uart s (some i) TIOCMGET arg = .error .fault := by
      have hne : TIOCMGET ≠ TCGETS ∧ TIOCMGET ≠ TCSETS ∧ TIOCMGET ≠ TIOCSTI := by decide
      rw [ttyIoctl]
      simp only [if_neg hne.1, if_neg hne.2.1, if_neg hne.2.2, hdrv]
      rfl
    intro hp
    cases hv : validateUserAddress arg with
    | false =>
      obtain ⟨u, hu, -⟩ := hp.failed hv
      rw [hcall] at hu
      cases hu
    | true =>
      obtain ⟨u, hu⟩ := hp.copied hv
      rw [hcall] at hu
      cases hu

end Commands

/-- **User copies.** On an open tty every command that copies follows the protocol, except the two
that read the state of a port, and the one that puts in a carriage return while `IGNCR` is set. -/
theorem ioctl_protocol_iff (uart : Fin NR_SERIAL → Uart) {s : TtySystem} {i : Nat}
    (h : OpenTty s.ttys i) {op : BitVec 32} (hop : op ∈ copyOps (driverOf i)) (arg : Ptr) :
    CopyProtocol uart s i op arg ↔
      op ≠ TIOCMGET ∧ op ≠ TIOCGICOUNT ∧ ¬ IgnoredReturn s i op arg := by
  have hother : op ≠ TIOCSTI → ¬ IgnoredReturn s i op arg := fun hne hbad => hne hbad.1
  obtain rfl | rfl | rfl | ⟨hserial, hop⟩ := copyOps_mem hop
  · exact iff_of_true getTermios_protocol ⟨by decide, by decide, hother (by decide)⟩
  · exact iff_of_true setTermios_protocol ⟨by decide, by decide, hother (by decide)⟩
  · rw [tiocsti_protocol_iff h]
    constructor
    · exact fun hok => ⟨by decide, by decide, fun hbad => hok hbad.2⟩
    · exact fun hok hbad => hok.2.2 ⟨rfl, hbad⟩
  · have hd : (s.ttys i).driver = some .serial := by rw [h.driver, hserial]
    have hi : ¬ i ≤ TTY_MAX := by
      intro hle
      rw [driverOf, if_pos hle] at hserial
      cases hserial
    obtain ⟨j, hj⟩ := h.com hi
    obtain rfl | rfl | rfl := hop
    · exact iff_of_false (getModemInfo_protocol hd hj) fun hok => hok.1 rfl
    · exact iff_of_true (setModemInfo_protocol hd hj) ⟨by decide, by decide, hother (by decide)⟩
    · exact iff_of_false (getModemStats_protocol hd hj) fun hok => hok.2.1 rfl

/-- The first terminal's tty and the first serial port's, both open. -/
def twoTtys : TtySystem where
  ttys i :=
    if i = TTY_MIN then
      { openedTty with
        device := mkdev TTY_MAJOR TTY_MIN, maj_eq := by decide, min_lt := by decide
        driver := some .terminal }
    else openedTty
  dev := quietLine.dev.1
  user _ := 0

/-- With a buffer for the counts the call copies them and returns 1. -/
theorem stats_return_one :
    (ttyIoctl (fun _ _ _ => 0) twoTtys (some TTYS_MIN) TIOCGICOUNT 0x1000).map Prod.fst = .ok 1 ∧
      ¬ CopyProtocol (fun _ _ _ => 0) twoTtys TTYS_MIN TIOCGICOUNT 0x1000 := by
  have hd : (twoTtys.ttys TTYS_MIN).driver = some .serial := by decide
  have hj : ttyGetCom (twoTtys.ttys TTYS_MIN) = .ok 0 := by decide
  exact ⟨by decide +kernel, getModemStats_protocol hd hj⟩

theorem ioctl_protocol_terminal : CopyProtocol (fun _ _ _ => 0) twoTtys TTY_MIN TCGETS 0x1000 := by
  have hopen : OpenTty twoTtys.ttys TTY_MIN :=
    { pos := by decide
      lt := by decide
      device := by decide
      ldisc := by decide
      ring := by decide
      driver := by decide }
  refine (ioctl_protocol_iff _ hopen (by decide) 0x1000).mpr ⟨by decide, by decide, ?_⟩
  exact fun hbad => absurd hbad.1 (by decide)

end Ohwes

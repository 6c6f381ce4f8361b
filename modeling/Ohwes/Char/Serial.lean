import Ohwes.Char.Ldisc

/-! # `kernel/char/serial.c`: the serial ports

The UART is an oracle: what a read of a register returns may depend on everything that went over the
port before, so `Uart` is a function of that history. A `Port` is `struct com` together with the
history, latest access first. The four ports are `Ports`; `onCom` is the step every tty operation
starts with, finding the port of its tty. Messages to the console are left out. -/

namespace Ohwes
set_option autoImplicit false

/-! ## Registers -/

def UART_RX : Nat := 0
def UART_TX : Nat := 0
def UART_DLL : Nat := 0
def UART_DLM : Nat := 1
def UART_IER : Nat := 1
def UART_IIR : Nat := 2
def UART_FCR : Nat := 2
def UART_LCR : Nat := 3
def UART_MCR : Nat := 4
def UART_LSR : Nat := 5
def UART_MSR : Nat := 6

def UART_IER_RDA : Byte := 0x01
def UART_IER_THRE : Byte := 0x02
def UART_IER_RLS : Byte := 0x04
def UART_IER_MS : Byte := 0x08
def UART_IIR_NO_INT : Byte := 0x01
def UART_IIR_TIMEOUT : Byte := 0x08
def UART_LCR_DLAB : Byte := 0x80
def UART_LSR_DR : Byte := 0x01
def UART_LSR_OE : Byte := 0x02
def UART_LSR_PE : Byte := 0x04
def UART_LSR_FE : Byte := 0x08
def UART_LSR_BI : Byte := 0x10
def UART_LSR_THRE : Byte := 0x20
def UART_MCR_DTR : Byte := 0x01
def UART_MCR_RTS : Byte := 0x02
def UART_MCR_OUT2 : Byte := 0x08
def UART_MSR_TERI : Byte := 0x04
def UART_MSR_CTS : Byte := 0x10
def UART_MSR_DSR : Byte := 0x20
def UART_MSR_DCD : Byte := 0x80
def UART_MSR_ANY_DELTA : Byte := 0x0F

/-- `enum priority`. -/
def ID_THRE : Byte := 1
def ID_RDA : Byte := 2

/-- A one-bit field of a register. -/
def hasBit (r mask : Byte) : Bool := r &&& mask != 0

/-- The field `id` of the interrupt identification register. -/
def iirId (iir : Byte) : Byte := (iir >>> 1) &&& 3

@[simp] theorem hasBit_set (r : Byte) {m : Byte} (h : m ≠ 0) : hasBit (r ||| m) m = true := by
  have habs : (r ||| m) &&& m = m := by
    ext i hi
    simp only [BitVec.getElem_and, BitVec.getElem_or]
    cases r[i] <;> cases m[i] <;> rfl
  unfold hasBit
  rw [habs]
  simpa using h

@[simp] theorem hasBit_clear (r m : Byte) : hasBit (r &&& ~~~m) m = false := by
  have hnone : r &&& ~~~m &&& m = 0 := by
    ext i hi
    simp
  unfold hasBit
  rw [hnone]
  rfl

/-! ## The state -/

structure SerialStats where
  overrun : BitVec 32
  parity : BitVec 32
  framing : BitVec 32
  timeout : BitVec 32
  brk : BitVec 32
  tx : BitVec 32
  rx : BitVec 32
  xchar : BitVec 32
  cts : BitVec 32
  dsr : BitVec 32
  ring : BitVec 32
  dcd : BitVec 32
  deriving DecidableEq, Repr

def SerialStats.zero : SerialStats := ⟨0, 0, 0, 0, 0, 0, 0, 0, 0, 0, 0, 0⟩

/-- `struct com`; a pointer to a tty is the tty's number. -/
structure Com where
  num : Nat
  tty : Option Nat
  valid : Bool
  isOpen : Bool
  reserved : Bool
  txRing : Ring
  xchar : Byte
  iir : Byte
  ier : Byte
  lcr : Byte
  lsr : Byte
  mcr : Byte
  msr : Byte
  baudDivisor : BitVec 16
  stats : SerialStats

/-- An access to a port: which register, and the byte that went over the bus. -/
inductive PortIo where
  | read (reg : Nat) (value : Byte)
  | write (reg : Nat) (value : Byte)
  deriving DecidableEq, Repr

abbrev Uart := List PortIo → Nat → Byte

structure Port where
  com : Com
  io : List PortIo

instance : NeZero NR_SERIAL := ⟨by decide⟩

/-- `g_com`. -/
abbrev Ports := Fin NR_SERIAL → Port

def comIn (uart : Uart) (p : Port) (reg : Nat) : Byte × Port :=
  let stats := { p.com.stats with rx := p.com.stats.rx + 1 }
  let com := if reg = UART_RX then { p.com with stats := stats } else p.com
  (uart p.io reg, { com := com, io := .read reg (uart p.io reg) :: p.io })

def comOut (p : Port) (reg : Nat) (data : Byte) : Port :=
  let stats := { p.com.stats with tx := p.com.stats.tx + 1 }
  let com := if reg = UART_TX then { p.com with stats := stats } else p.com
  { com := com, io := .write reg data :: p.io }

/-! ## Line and modem -/

def txEnable (p : Port) : Port :=
  if !hasBit p.com.ier UART_IER_THRE then
    let ier := p.com.ier ||| UART_IER_THRE
    comOut { p with com := { p.com with ier := ier } } UART_IER ier
  else p

def txDisable (p : Port) : Port :=
  if hasBit p.com.ier UART_IER_THRE then
    let ier := p.com.ier &&& ~~~UART_IER_THRE
    comOut { p with com := { p.com with ier := ier } } UART_IER ier
  else p

/-- One more in a counter if a register has a bit. -/
def tally (r mask : Byte) (n : BitVec 32) : BitVec 32 := if hasBit r mask then n + 1 else n

def checkLineStatus (uart : Uart) (p : Port) : Port :=
  let x := comIn uart p UART_LSR
  let lsr := x.1
  let st := x.2.com.stats
  let stats := { st with
    overrun := tally lsr UART_LSR_OE st.overrun
    parity := tally lsr UART_LSR_PE st.parity
    framing := tally lsr UART_LSR_FE st.framing
    brk := tally lsr UART_LSR_BI st.brk }
  { x.2 with com := { x.2.com with lsr := lsr, stats := stats } }

/-- The first half of `check_modem_status`: the status and the statistics. -/
def readModemStatus (uart : Uart) (p : Port) : Port :=
  let x := comIn uart p UART_MSR
  let msr := x.1
  let st := x.2.com.stats
  let stats :=
    if hasBit msr UART_MSR_ANY_DELTA then
      { st with
        cts := tally msr UART_MSR_CTS st.cts
        dsr := tally msr UART_MSR_DSR st.dsr
        ring := tally msr UART_MSR_TERI st.ring
        dcd := tally msr UART_MSR_DCD st.dcd }
    else st
  { x.2 with com := { x.2.com with msr := msr, stats := stats } }

/-- `tty` is the tty of the port. -/
def checkModemStatus (uart : Uart) (tty : Tty) (p : Port) : Tty × Port :=
  let p := readModemStatus uart p
  if tty.termios.cFlag CRTSCTS then
    if tty.hwStopped then
      if hasBit p.com.msr UART_MSR_CTS then ({ tty with hwStopped := false }, txDisable p)
      else (tty, p)
    else
      if !hasBit p.com.msr UART_MSR_CTS then ({ tty with hwStopped := true }, txEnable p)
      else (tty, p)
  else (tty, p)

def FIFO_DEPTH : Nat := 16
def XMIT_MAX : Nat := FIFO_DEPTH
def RECV_MAX : Nat := 128
def INTR_MAX : Nat := 16

/-- The loop of `send_chars`, with `count` characters to go. -/
def sendLoop : Nat → Port → Port
  | 0, p => p
  | count + 1, p =>
    let x := ringGet p.com.txRing
    let p := comOut { p with com := { p.com with txRing := x.2 } } UART_TX x.1
    if ringEmpty p.com.txRing then p else sendLoop count p

/-- The control character that goes before the queue. -/
def sendXchar (p : Port) : Port :=
  if p.com.xchar != 0 then
    let p := comOut p UART_TX p.com.xchar
    let stats := { p.com.stats with xchar := p.com.stats.xchar + 1 }
    { p with com := { p.com with xchar := 0, stats := stats } }
  else p

def sendChars (tty : Tty) (p : Port) : Port :=
  let p := sendXchar p
  if ringEmpty p.com.txRing || tty.stopped || tty.hwStopped then txDisable p
  else
    let p := sendLoop XMIT_MAX p
    if ringEmpty p.com.txRing then txDisable p else p

/-! ## The tty operations, on the port of the tty -/

/-- Enable the transmitter if there is something it may send. -/
def kickTx (tty : Tty) (p : Port) : Port :=
  if !ringEmpty p.com.txRing && !tty.stopped && !tty.hwStopped then txEnable p else p

def serialFlush (tty : Tty) (p : Port) : Port := kickTx tty p

def serialWriteRoom (p : Port) : Nat := ringLength p.com.txRing - ringCount p.com.txRing

/-- Fill the transmit buffer. -/
def fillTx (buf : List Byte) (p : Port) : Port :=
  { p with com := { p.com with txRing := buf.foldl (fun q c => (ringPut q c).2) p.com.txRing } }

def serialWrite (tty : Tty) (buf : List Byte) (p : Port) : Int × Port :=
  let count := min buf.length (serialWriteRoom p)
  (count, kickTx tty (fillTx (buf.take count) p))

def setMcr (p : Port) (mcr : Byte) : Port := { p with com := { p.com with mcr := mcr } }

/-- Queue a control character in front of everything else. -/
def sendFlowChar (p : Port) (c : Byte) : Port :=
  txEnable { p with com := { p.com with xchar := c } }

def serialUnthrottle (tty : Tty) (p : Port) : Port :=
  let p := if tty.termios.iFlag IXOFF then sendFlowChar p START_CHAR else p
  let p := if tty.termios.cFlag CRTSCTS then setMcr p (p.com.mcr ||| UART_MCR_RTS) else p
  comOut p UART_MCR p.com.mcr

def serialThrottle (tty : Tty) (p : Port) : Port :=
  let p := if tty.termios.iFlag IXOFF then sendFlowChar p STOP_CHAR else p
  let p := if tty.termios.cFlag CRTSCTS then setMcr p (p.com.mcr &&& ~~~UART_MCR_RTS) else p
  comOut p UART_MCR p.com.mcr

def serialStart (p : Port) : Port := if !ringEmpty p.com.txRing then txEnable p else p

def serialStop (p : Port) : Port := txDisable p

/-! ## Opening and closing -/

/-- `ERR_CHK`: a register that reads as all zeros or all ones. -/
def errChk (x : Nat) : Bool := x == 0 || x == 0xFF

def shadowRegs (uart : Uart) (p : Port) : Port :=
  let ier := comIn uart p UART_IER
  let iir := comIn uart ier.2 UART_IIR
  let lcr := comIn uart iir.2 UART_LCR
  let mcr := comIn uart lcr.2 UART_MCR
  let lsr := comIn uart mcr.2 UART_LSR
  let msr := comIn uart lsr.2 UART_MSR
  { msr.2 with com := { msr.2.com with
    ier := ier.1, iir := iir.1, lcr := lcr.1, mcr := mcr.1, lsr := lsr.1, msr := msr.1 } }

def setBaud (uart : Uart) (p : Port) (divisor : BitVec 16) : Bool × Port :=
  let lcr := comIn uart p UART_LCR
  let p := comOut lcr.2 UART_LCR (lcr.1 ||| UART_LCR_DLAB)
  let p := comOut p UART_DLL (divisor.truncate 8)
  let p := comOut p UART_DLM ((divisor >>> 8).truncate 8)
  let lo := comIn uart p UART_DLL
  let hi := comIn uart lo.2 UART_DLM
  let readback := lo.1.zeroExtend 16 ||| (hi.1.zeroExtend 16 <<< 8)
  let p := { hi.2 with com := { hi.2.com with baudDivisor := readback } }
  if errChk readback.toNat then (false, p)
  else (true, comOut p UART_LCR (lcr.1 &&& ~~~UART_LCR_DLAB))

/-- The fields of the line control register have two, one and three bits. -/
def setMode (uart : Uart) (p : Port) (wls parity stb : Byte) : Bool × Port :=
  let lcr := (wls &&& 3) ||| ((stb &&& 1) <<< 2) ||| ((parity &&& 7) <<< 3)
  let x := comIn uart (comOut p UART_LCR lcr) UART_LCR
  (!(errChk x.1.toNat || x.1 != lcr), x.2)

def setFifo (p : Port) (enabled : Bool) (depth : Byte) : Port :=
  comOut p UART_FCR (if enabled then 7 ||| (depth &&& 3) <<< 6 else 0)

def BAUD_9600 : BitVec 16 := 12
def WLS_8 : Byte := 3
def PARITY_NONE : Byte := 0
def STB_1 : Byte := 0
def RCVR_TRIG_14 : Byte := 3

/-- Program the modem control, drop what is pending, enable interrupts, and look at the result. -/
def startPort (uart : Uart) (p : Port) : Port :=
  let mcr := UART_MCR_DTR ||| UART_MCR_RTS ||| UART_MCR_OUT2
  let p := comOut (setMcr p mcr) UART_MCR mcr
  let p := (comIn uart p UART_RX).2
  let p := (comIn uart p UART_LSR).2
  let p := (comIn uart p UART_MSR).2
  let p := (comIn uart p UART_IIR).2
  let ier := UART_IER_RDA ||| UART_IER_RLS ||| UART_IER_MS
  let p := comOut { p with com := { p.com with ier := ier } } UART_IER ier
  shadowRegs uart { p with com := { p.com with stats := SerialStats.zero } }

/-- `minor` is the number of the tty that opens the port. -/
def serialOpen (uart : Uart) (minor : Nat) (p : Port) : Call (Int × Port) :=
  if p.com.reserved then .ok (-EBUSY, p)
  else if p.com.isOpen then do
    assert p.com.tty.isSome
    .ok (-EBUSY, p)
  else if !p.com.valid then .ok (- EIO, p)
  else
    let ring := ringInit p.com.txRing.ring TTY_BUFFER_SIZE
    let p := comOut { p with com := { p.com with txRing := ring, xchar := 0 } } UART_IER 0
    let baud := setBaud uart p BAUD_9600
    if !baud.1 then .ok (- EIO, baud.2)
    else
      let mode := setMode uart baud.2 WLS_8 PARITY_NONE STB_1
      if !mode.1 then .ok (- EIO, mode.2)
      else
        let p := startPort uart (setFifo mode.2 true RCVR_TRIG_14)
        if errChk p.com.ier.toNat || errChk p.com.mcr.toNat then .ok (- EIO, p)
        else .ok (0, { p with com := { p.com with tty := some minor, isOpen := true } })

def serialClose (tty : Tty) (p : Port) : Int × Port :=
  let p := serialFlush tty p
  (0, { p with com := { p.com with tty := none, isOpen := false } })

/-! ## The driver -/

/-- `get_com` panics for other numbers. -/
def getCom (num : Nat) (h : 1 ≤ num ∧ num ≤ NR_SERIAL) : Fin NR_SERIAL := ⟨num - 1, by omega⟩

theorem com_index_le {tty : Tty} {index : Nat} (h : index = devMin tty.device)
    (hr : ¬ (index < TTYS_MIN ∨ index > TTYS_MAX)) :
    1 ≤ index - TTYS_MIN + 1 ∧ index - TTYS_MIN + 1 ≤ NR_SERIAL := by
  have hlt := tty.min_lt
  unfold TTYS_MIN TTYS_MAX TTYS_MIN TTY_MAX NR_TTY NR_TERMINAL NR_SERIAL at *
  omega

def ttyGetCom (tty : Tty) : Except Int (Fin NR_SERIAL) :=
  if devMaj tty.device ≠ TTY_MAJOR then .error (-ENODEV)
  else if h : devMin tty.device < TTYS_MIN ∨ devMin tty.device > TTYS_MAX then .error (- ENXIO)
  else .ok (getCom (devMin tty.device - TTYS_MIN + 1) (com_index_le rfl h))

theorem ttyGetCom_congr {tty tty' : Tty} (h : tty'.device = tty.device) :
    ttyGetCom tty' = ttyGetCom tty := by
  unfold ttyGetCom
  simp only [h]

def Ports.set (ports : Ports) (i : Fin NR_SERIAL) (p : Port) : Ports := Function.update ports i p

@[simp] theorem Ports.set_self (ports : Ports) (i : Fin NR_SERIAL) (p : Port) :
    ports.set i p i = p := Function.update_self ..

theorem Ports.set_of_ne (ports : Ports) {i j : Fin NR_SERIAL} (h : i ≠ j) (p : Port) :
    ports.set j p i = ports i := Function.update_of_ne h ..

/-- Work on the port of a tty, or return what `tty_get_com` says is wrong. -/
def onCom {α : Type} (tty : Tty) (ports : Ports) (fail : Int → α) (f : Port → α × Port) :
    α × Ports :=
  match ttyGetCom tty with
  | .error e => (fail e, ports)
  | .ok i => ((f (ports i)).1, ports.set i (f (ports i)).2)

/-- The same for an operation without a result. -/
def comOp (f : Tty → Port → Port) (tty : Tty) (ports : Ports) : Ports :=
  (onCom tty ports (fun _ => ()) fun p => ((), f tty p)).2

def serialDriver : TtyDriver Ports where
  write tty buf ports := onCom tty ports id (serialWrite tty buf)
  writeRoom tty ports := (onCom tty ports (fun _ => 0) fun p => (serialWriteRoom p, p)).1
  flush := some (comOp serialFlush)
  throttle := some (comOp serialThrottle)
  unthrottle := some (comOp serialUnthrottle)
  stop := some (comOp fun _ p => serialStop p)
  start := some (comOp fun _ p => serialStart p)

/-! ## Interrupts -/

/-- A serial tty that is open, with the ports. -/
abbrev SerialLine := Attached Ports

def SerialLine.setPort (s : SerialLine) (i : Fin NR_SERIAL) (p : Port) : SerialLine :=
  { s with dev := s.dev.set i p }

@[simp] theorem setPort_tty (s : SerialLine) (i : Fin NR_SERIAL) (p : Port) :
    (SerialLine.setPort s i p).tty = s.tty := rfl

@[simp] theorem setPort_dev_self (s : SerialLine) (i : Fin NR_SERIAL) (p : Port) :
    (SerialLine.setPort s i p).dev i = p := Ports.set_self ..

section Interrupt
variable (uart : Uart) (i : Fin NR_SERIAL)

/-- `ldisc->recv`. -/
def ldiscRecv (s : SerialLine) (c : Byte) : Call SerialLine :=
  match s.tty.ldisc with
  | none => .error .fault
  | some _ => nTtyRecv serialDriver (some [c]) s

/-- The loop of `recv_chars`, with `count` characters to go. -/
def recvCharsLoop : Nat → SerialLine → Call SerialLine
  | 0, s => .ok s
  | count + 1, s => do
    let x := comIn uart (s.dev i) UART_RX
    let s ← ldiscRecv (SerialLine.setPort s i x.2) x.1
    let s := SerialLine.setPort s i (checkLineStatus uart (s.dev i))
    if hasBit (s.dev i).com.lsr UART_LSR_DR then recvCharsLoop count s else .ok s

def recvChars (s : SerialLine) : Call SerialLine :=
  let p := s.dev i
  let stats := { p.com.stats with
    timeout := tally p.com.iir UART_IIR_TIMEOUT p.com.stats.timeout }
  recvCharsLoop uart i RECV_MAX (SerialLine.setPort s i { p with com := { p.com with stats := stats } })

/-- The part of a pass that handles reception. -/
def serviceRx (s : SerialLine) : Call SerialLine :=
  let com := (s.dev i).com
  if iirId com.iir == ID_RDA || hasBit com.iir UART_IIR_TIMEOUT || hasBit com.lsr UART_LSR_DR then
    recvChars uart i s
  else .ok s

def modemStatus (s : SerialLine) : SerialLine :=
  let x := checkModemStatus uart s.tty (s.dev i)
  SerialLine.setPort { s with tty := x.1 } i x.2

def transmit (s : SerialLine) : SerialLine :=
  SerialLine.setPort s i (sendChars s.tty (s.dev i))

/-- The part of a pass that handles transmission. -/
def serviceTx (s : SerialLine) : SerialLine :=
  let com := (s.dev i).com
  if iirId com.iir == ID_THRE || hasBit com.lsr UART_LSR_THRE then transmit i s else s

/-- One pass of the loop of `com_interrupt`. -/
def servicePass (s : SerialLine) : Call SerialLine := do
  let s ← serviceRx uart i (SerialLine.setPort s i (checkLineStatus uart (s.dev i)))
  .ok (serviceTx i (modemStatus uart i s))

/-- Read the interrupt identification register. -/
def readIir (s : SerialLine) : SerialLine :=
  let x := comIn uart (s.dev i) UART_IIR
  SerialLine.setPort s i { x.2 with com := { x.2.com with iir := x.1 } }

/-- The loop of `com_interrupt`, after `npass` passes. The count is returned with the state. -/
def interruptLoop : Nat → Nat → SerialLine → Call (Nat × SerialLine)
  | 0, _, _ => .error .diverges
  | fuel + 1, npass, s => do
    let s ← servicePass uart i s
    let npass := npass + 1
    if npass ≤ INTR_MAX then .ok (npass, s)
    else
      let s := readIir uart i s
      if hasBit (s.dev i).com.iir UART_IIR_NO_INT then .ok (npass, s)
      else interruptLoop fuel npass s

/-- The shadows of the interrupt enable, line control and modem control registers. -/
def shadowControl (s : SerialLine) : SerialLine :=
  let ier := comIn uart (s.dev i) UART_IER
  let lcr := comIn uart ier.2 UART_LCR
  let mcr := comIn uart lcr.2 UART_MCR
  SerialLine.setPort s i
    { mcr.2 with com := { mcr.2.com with ier := ier.1, lcr := lcr.1, mcr := mcr.1 } }

/-- `s.tty` is the tty of port `i`. The result counts the passes made. -/
def comInterrupt (s : SerialLine) : Call (Nat × SerialLine) :=
  let s := readIir uart i s
  if hasBit (s.dev i).com.iir UART_IIR_NO_INT then .ok (0, s)
  else interruptLoop uart i (INTR_MAX + 1) 0 (shadowControl uart i s)

end Interrupt

/-! ## A port to look at -/

/-- A UART whose status registers do not change, and whose other registers read back what was
written to them last. -/
def steadyUart (iir lsr msr : Byte) : Uart := fun io reg =>
  if reg = UART_IIR then iir
  else if reg = UART_LSR then lsr
  else if reg = UART_MSR then msr
  else
    (io.findSome? fun
      | .write r v => if r = reg then some v else none
      | .read _ _ => none).getD 0

/-- A port as `init_serial` leaves it. -/
def probedPort (num : Nat) : Port where
  com :=
    { num := num, tty := none, valid := true, isOpen := false, reserved := false
      txRing := ringInit (fun _ => 0) TTY_BUFFER_SIZE, xchar := 0
      iir := 1, ier := 0, lcr := 0, lsr := 0, mcr := 0, msr := 0
      baudDivisor := 0, stats := SerialStats.zero }
  io := []

/-- The first port, opened by its tty. -/
def openedPort : Port :=
  match serialOpen (steadyUart 0x01 0x60 0x30) TTYS_MIN (probedPort 1) with
  | .ok x => x.2
  | .error _ => probedPort 1

def openedLine : SerialLine where
  tty := openedTty
  dev := fun i => if i = 0 then openedPort else probedPort (i.val + 1)

example : openedPort.com.isOpen = true ∧ openedPort.com.ier = 0x0D ∧ openedPort.com.mcr = 0x0B := by
  decide

end Ohwes

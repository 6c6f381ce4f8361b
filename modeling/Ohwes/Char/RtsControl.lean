import Ohwes.Char.FlowControl
import Ohwes.Char.Serial

/-! # What a serial port tells its sender

`serial_throttle` and `serial_unthrottle` go by the settings of the tty. With `CRTSCTS` they drop and raise
request-to-send, which goes out with the write of the modem control register; with `IXOFF` they put a control
character in front of the queue. With neither the sender hears nothing. -/

namespace Ohwes
open Library
set_option autoImplicit false

/-- The byte written to a register last; after a reset they hold zero. -/
def lastOut (reg : Nat) (io : List PortIo) : Byte :=
  (io.findSome? fun
    | .write r v => if r = reg then some v else none
    | .read _ _ => none).getD 0

/-- Request-to-send is off on the wire: the other side is to stop. -/
def rtsDown (i : Fin NR_SERIAL) (ports : Ports) : Bool :=
  !hasBit (lastOut UART_MCR (ports i).io) UART_MCR_RTS

/-- The tty with this number is the one of a port, and the settings have hardware flow control. -/
def RtsCts (i : Fin NR_SERIAL) (device : Nat) (t : Termios) : Prop :=
  devMin device = TTYS_MIN + i.val ∧ t.cFlag CRTSCTS = true

/-! ## The wire -/

theorem lastOut_comOut_self (p : Port) (reg : Nat) (v : Byte) : lastOut reg (comOut p reg v).io = v := by
  simp [lastOut, comOut]

theorem lastOut_comOut_of_ne {reg r : Nat} (h : r ≠ reg) (p : Port) (v : Byte) :
    lastOut reg (comOut p r v).io = lastOut reg p.io := by
  simp [lastOut, comOut, h]

theorem txEnable_mcr (p : Port) : lastOut UART_MCR (txEnable p).io = lastOut UART_MCR p.io := by
  unfold txEnable
  split
  · exact lastOut_comOut_of_ne (by decide) _ _
  · rfl

theorem txDisable_mcr (p : Port) : lastOut UART_MCR (txDisable p).io = lastOut UART_MCR p.io := by
  unfold txDisable
  split
  · exact lastOut_comOut_of_ne (by decide) _ _
  · rfl

theorem kickTx_mcr (tty : Tty) (p : Port) : lastOut UART_MCR (kickTx tty p).io = lastOut UART_MCR p.io := by
  unfold kickTx
  split
  · exact txEnable_mcr p
  · rfl

theorem serialStart_mcr (p : Port) : lastOut UART_MCR (serialStart p).io = lastOut UART_MCR p.io := by
  unfold serialStart
  split
  · exact txEnable_mcr p
  · rfl

section Messages
variable {tty : Tty}

theorem set_rts (mcr : Byte) : hasBit (mcr ||| UART_MCR_RTS) UART_MCR_RTS = true := by
  revert mcr
  decide

theorem clear_rts (mcr : Byte) : hasBit (mcr &&& ~~~UART_MCR_RTS) UART_MCR_RTS = false := by
  revert mcr
  decide

/-- With `CRTSCTS` `serial_throttle` drops request-to-send on the wire. -/
theorem serialThrottle_rts (h : tty.termios.cFlag CRTSCTS = true) (p : Port) :
    hasBit (lastOut UART_MCR (serialThrottle tty p).io) UART_MCR_RTS = false := by
  unfold serialThrottle
  simp only [if_pos h]
  rw [lastOut_comOut_self]
  exact clear_rts _

theorem serialUnthrottle_rts (h : tty.termios.cFlag CRTSCTS = true) (p : Port) :
    hasBit (lastOut UART_MCR (serialUnthrottle tty p).io) UART_MCR_RTS = true := by
  unfold serialUnthrottle
  simp only [if_pos h]
  rw [lastOut_comOut_self]
  exact set_rts _

/-- A control character goes in front of the queue, and the transmitter is asked to fetch it. -/
theorem sendFlowChar_queued (p : Port) (c : Byte) :
    (sendFlowChar p c).com.xchar = c ∧ hasBit (sendFlowChar p c).com.ier UART_IER_THRE = true := by
  have hset : ∀ ier : Byte, hasBit (ier ||| UART_IER_THRE) UART_IER_THRE = true := by decide
  unfold sendFlowChar txEnable
  split
  · exact ⟨rfl, hset _⟩
  · next h => exact ⟨rfl, by simpa using h⟩

/-- With `IXOFF` `serial_throttle` puts XOFF in front of the queue. -/
theorem serialThrottle_xoff (h : tty.termios.iFlag IXOFF = true) (p : Port) :
    (serialThrottle tty p).com.xchar = STOP_CHAR ∧
      hasBit (serialThrottle tty p).com.ier UART_IER_THRE = true := by
  have hqueued := sendFlowChar_queued p STOP_CHAR
  unfold serialThrottle
  simp only [if_pos h]
  split
  · exact hqueued
  · exact hqueued

theorem serialUnthrottle_xon (h : tty.termios.iFlag IXOFF = true) (p : Port) :
    (serialUnthrottle tty p).com.xchar = START_CHAR ∧
      hasBit (serialUnthrottle tty p).com.ier UART_IER_THRE = true := by
  have hqueued := sendFlowChar_queued p START_CHAR
  unfold serialUnthrottle
  simp only [if_pos h]
  split
  · exact hqueued
  · exact hqueued

end Messages

/-! ## The driver -/

theorem ttyGetCom_of_min {tty : Tty} {i : Fin NR_SERIAL} (h : devMin tty.device = TTYS_MIN + i.val) :
    ttyGetCom tty = .ok i := by
  have hi := i.isLt
  have hrange : ¬ (devMin tty.device < TTYS_MIN ∨ devMin tty.device > TTYS_MAX) := by
    rw [h]
    simp only [TTYS_MIN, TTYS_MAX, TTY_MAX, NR_TERMINAL, NR_SERIAL] at hi ⊢
    omega
  unfold ttyGetCom
  rw [if_neg (not_not_intro tty.maj_eq), dif_neg hrange, Except.ok.injEq, Fin.ext_iff]
  show devMin tty.device - TTYS_MIN + 1 - 1 = i.val
  omega

theorem comOp_own {i : Fin NR_SERIAL} {tty : Tty} (h : devMin tty.device = TTYS_MIN + i.val)
    (f : Tty → Port → Port) (ports : Ports) : (comOp f tty ports) i = f tty (ports i) := by
  unfold comOp onCom
  rw [ttyGetCom_of_min h]
  exact Ports.set_self ..

/-- An operation that leaves the modem control register alone on every port says nothing on any. -/
theorem onCom_rtsDown {α : Type} {f : Port → α × Port}
    (h : ∀ p, lastOut UART_MCR (f p).2.io = lastOut UART_MCR p.io) (i : Fin NR_SERIAL) (tty : Tty)
    (ports : Ports) (fail : Int → α) : rtsDown i (onCom tty ports fail f).2 = rtsDown i ports := by
  unfold onCom
  cases ttyGetCom tty with
  | error e => rfl
  | ok j =>
    unfold rtsDown
    by_cases hij : i = j
    · rw [← hij]
      dsimp only
      rw [Ports.set_self, h]
    · dsimp only
      rw [Ports.set_of_ne _ hij]

/-- With hardware flow control the serial driver tells the sender on the wire of request-to-send. -/
theorem serialDriver_tellsWhen (i : Fin NR_SERIAL) : TellsWhen (RtsCts i) serialDriver (rtsDown i) where
  throttle := by
    refine ⟨_, rfl, fun tty ports h => ?_⟩
    rw [rtsDown, comOp_own h.1, serialThrottle_rts h.2]
    rfl
  unthrottle := by
    refine ⟨_, rfl, fun tty ports h => ?_⟩
    rw [rtsDown, comOp_own h.1, serialUnthrottle_rts h.2]
    rfl
  write tty buf ports := onCom_rtsDown (fun p => kickTx_mcr tty _) i tty ports _
  flush f hf tty ports := by
    cases hf
    exact onCom_rtsDown (fun p => kickTx_mcr tty p) i tty ports _
  start f hf tty ports := by
    cases hf
    exact onCom_rtsDown serialStart_mcr i tty ports _
  stop f hf tty ports := by
    cases hf
    exact onCom_rtsDown txDisable_mcr i tty ports _

/-- In every run of a serial line whose settings keep `CRTSCTS`, request-to-send is off exactly while the
tty is throttled. -/
theorem rtsDown_iff_throttled {i : Fin NR_SERIAL} {s t : SerialLine} {ops : List LdiscOp}
    (hset : RtsCts i s.tty.device s.tty.termios) (hrts : rtsDown i s.dev = s.tty.throttled)
    (hkept : Throughout (ldiscStep serialDriver) (SetsMeeting (RtsCts i)) s ops)
    (h : Reaches (ldiscStep serialDriver) s ops t) : rtsDown i t.dev = t.tty.throttled :=
  (told_flag_reached (serialDriver_tellsWhen i) ⟨hset, hrts⟩ hkept h).2

end Ohwes

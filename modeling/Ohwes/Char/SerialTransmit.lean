import Ohwes.Char.Serial

/-! # The serial transmitter

Characters wait in the transmit ring until the UART asks for them, which it does only while the
transmitter interrupt is enabled. `TxOk` says that it is enabled whenever there is something to send
and nothing forbids it. The writer, the line discipline, the modem status and the transmit service
all change the enable bit. They keep `TxOk` with one exception: when CTS comes back,
`check_modem_status` lets the tty go on and disables the transmitter, the two enables being
exchanged. `transmitter_enabled_iff` is the exact boundary over runs. -/

namespace Ohwes
open Library
set_option autoImplicit false

def TxOk (tty : Tty) (p : Port) : Prop :=
  ringEmpty p.com.txRing = false → tty.stopped = false → tty.hwStopped = false →
    hasBit p.com.ier UART_IER_THRE = true

instance (tty : Tty) (p : Port) : Decidable (TxOk tty p) :=
  inferInstanceAs (Decidable (_ → _ → _ → _))

/-! ## The enable bit -/

@[simp] theorem comOut_ier (p : Port) (reg : Nat) (data : Byte) :
    (comOut p reg data).com.ier = p.com.ier := by
  unfold comOut
  simp only []
  split <;> rfl

@[simp] theorem comOut_txRing (p : Port) (reg : Nat) (data : Byte) :
    (comOut p reg data).com.txRing = p.com.txRing := by
  unfold comOut
  simp only []
  split <;> rfl

@[simp] theorem txEnable_thre (p : Port) :
    hasBit (txEnable p).com.ier UART_IER_THRE = true := by
  unfold txEnable
  split
  · rw [comOut_ier]
    exact hasBit_set _ (by decide)
  · next h => simpa using h

@[simp] theorem txEnable_txRing (p : Port) : (txEnable p).com.txRing = p.com.txRing := by
  unfold txEnable
  split
  · rw [comOut_txRing]
  · rfl

@[simp] theorem txDisable_thre (p : Port) :
    hasBit (txDisable p).com.ier UART_IER_THRE = false := by
  unfold txDisable
  split
  · rw [comOut_ier]
    exact hasBit_clear _ _
  · next h => simpa using h

@[simp] theorem txDisable_txRing (p : Port) : (txDisable p).com.txRing = p.com.txRing := by
  unfold txDisable
  split
  · rw [comOut_txRing]
  · rfl

@[simp] theorem kickTx_txRing (tty : Tty) (p : Port) : (kickTx tty p).com.txRing = p.com.txRing := by
  unfold kickTx
  split
  · rw [txEnable_txRing]
  · rfl

theorem TxOk.of_thre {tty : Tty} {p : Port} (h : hasBit p.com.ier UART_IER_THRE = true) :
    TxOk tty p := fun _ _ _ => h

/-- What leaves ring and enable bit alone keeps `TxOk`. -/
theorem TxOk.congr {tty : Tty} {p p' : Port} (hr : p'.com.txRing = p.com.txRing)
    (hi : p'.com.ier = p.com.ier) (h : TxOk tty p) : TxOk tty p' := by
  unfold TxOk
  rw [hr, hi]
  exact h

/-! ## The operations, one by one -/

theorem kickTx_ok (tty : Tty) (p : Port) : TxOk tty (kickTx tty p) := by
  unfold kickTx
  split
  · exact TxOk.of_thre (txEnable_thre p)
  · next h =>
    intro he hs hw
    simp [he, hs, hw] at h

theorem serialStart_ok (tty : Tty) (p : Port) : TxOk tty (serialStart p) := by
  unfold serialStart
  split
  · exact TxOk.of_thre (txEnable_thre p)
  · next h =>
    intro he _ _
    simp [he] at h

theorem sendFlowChar_ok (tty : Tty) (p : Port) (c : Byte) : TxOk tty (sendFlowChar p c) :=
  TxOk.of_thre (txEnable_thre _)

theorem TxOk.ite {c : Prop} [Decidable c] {tty : Tty} {p q : Port} (hp : TxOk tty p)
    (hq : TxOk tty q) : TxOk tty (if c then p else q) := by
  split
  · exact hp
  · exact hq

theorem setMcr_ok {tty : Tty} {p : Port} (h : TxOk tty p) (mcr : Byte) : TxOk tty (setMcr p mcr) :=
  TxOk.congr rfl rfl h

theorem serialThrottle_ok {tty : Tty} {p : Port} (h : TxOk tty p) :
    TxOk tty (serialThrottle tty p) := by
  have hx := TxOk.ite (c := tty.termios.iFlag IXOFF = true) (sendFlowChar_ok tty p STOP_CHAR) h
  exact TxOk.congr (comOut_txRing _ _ _) (comOut_ier _ _ _) (TxOk.ite (setMcr_ok hx _) hx)

theorem serialUnthrottle_ok {tty : Tty} {p : Port} (h : TxOk tty p) :
    TxOk tty (serialUnthrottle tty p) := by
  have hx := TxOk.ite (c := tty.termios.iFlag IXOFF = true) (sendFlowChar_ok tty p START_CHAR) h
  exact TxOk.congr (comOut_txRing _ _ _) (comOut_ier _ _ _) (TxOk.ite (setMcr_ok hx _) hx)

@[simp] theorem sendXchar_txRing (p : Port) : (sendXchar p).com.txRing = p.com.txRing := by
  unfold sendXchar
  split
  · exact comOut_txRing _ _ _
  · rfl

@[simp] theorem sendXchar_ier (p : Port) : (sendXchar p).com.ier = p.com.ier := by
  unfold sendXchar
  split
  · exact comOut_ier _ _ _
  · rfl

@[simp] theorem sendLoop_ier (count : Nat) (p : Port) :
    (sendLoop count p).com.ier = p.com.ier := by
  induction count generalizing p with
  | zero => rfl
  | succ count ih =>
    rw [sendLoop]
    simp only []
    split
    · rw [comOut_ier]
    · rw [ih, comOut_ier]

/-- The transmitter is disabled only when nothing is left to send, or nothing may be. -/
theorem sendChars_ok {tty : Tty} {p : Port} (h : TxOk tty p) : TxOk tty (sendChars tty p) := by
  unfold sendChars
  simp only [sendXchar_txRing]
  split_ifs with hidle hdone
  · intro he hs hw
    rw [txDisable_txRing, sendXchar_txRing] at he
    simp [he, hs, hw] at hidle
  · intro he _ _
    rw [txDisable_txRing, hdone] at he
    cases he
  · intro _ hs hw
    have hwaiting : ringEmpty p.com.txRing = false := by
      simpa [hs, hw] using hidle
    rw [sendLoop_ier, sendXchar_ier]
    exact h hwaiting hs hw

/-! ## The modem status -/

@[simp] theorem readModemStatus_txRing (uart : Uart) (p : Port) :
    (readModemStatus uart p).com.txRing = p.com.txRing := rfl

@[simp] theorem readModemStatus_ier (uart : Uart) (p : Port) :
    (readModemStatus uart p).com.ier = p.com.ier := rfl

@[simp] theorem readModemStatus_msr (uart : Uart) (p : Port) :
    (readModemStatus uart p).com.msr = uart p.io UART_MSR := rfl

/-- The status read lets a tty go on that was waiting for CTS with something to send. -/
def CtsReturns (uart : Uart) (tty : Tty) (p : Port) : Prop :=
  tty.termios.cFlag CRTSCTS = true ∧ tty.hwStopped = true ∧
    hasBit (uart p.io UART_MSR) UART_MSR_CTS = true ∧ ringEmpty p.com.txRing = false ∧
    tty.stopped = false

instance (uart : Uart) (tty : Tty) (p : Port) : Decidable (CtsReturns uart tty p) :=
  inferInstanceAs (Decidable (_ ∧ _))

theorem checkModemStatus_ok_iff (uart : Uart) {tty : Tty} {p : Port} (h : TxOk tty p) :
    TxOk (checkModemStatus uart tty p).1 (checkModemStatus uart tty p).2 ↔
      ¬ CtsReturns uart tty p := by
  have hread : TxOk tty (readModemStatus uart p) := TxOk.congr rfl rfl h
  unfold checkModemStatus
  simp only [readModemStatus_msr]
  by_cases hflow : tty.termios.cFlag CRTSCTS = true
  · by_cases hstop : tty.hwStopped = true
    · by_cases hcts : hasBit (uart p.io UART_MSR) UART_MSR_CTS = true
      · -- CTS is back: the tty goes on, and the transmitter is disabled.
        simp only [hflow, hstop, hcts, if_true]
        constructor
        · intro hok hret
          have hsend : ringEmpty (txDisable (readModemStatus uart p)).com.txRing = false := by
            rw [txDisable_txRing]
            exact hret.2.2.2.1
          have hthre := hok hsend hret.2.2.2.2 rfl
          rw [txDisable_thre] at hthre
          cases hthre
        · intro hret he hs _
          rw [txDisable_txRing] at he
          exact absurd ⟨hflow, hstop, hcts, he, hs⟩ hret
      · simp only [hflow, hstop, hcts, if_true]
        exact iff_of_true hread fun hret => hcts hret.2.2.1
    · have hret : ¬ CtsReturns uart tty p := fun hret => hstop hret.2.1
      by_cases hcts : hasBit (uart p.io UART_MSR) UART_MSR_CTS = true
      · simp only [hflow, hstop, hcts, if_true]
        exact iff_of_true hread hret
      · simp only [hflow, hstop, hcts, if_true]
        exact iff_of_true (fun _ _ hw => by cases hw) hret
  · simp only [hflow]
    exact iff_of_true hread fun hret => hflow hret.1

/-! ## Runs -/

inductive SerialOp where
  | write (buf : List Byte)
  | flush
  | throttle
  | unthrottle
  | start
  | stop
  | lineStatus
  | modemStatus
  | transmit
  | setTermios (t : Termios)

section Runs
variable (uart : Uart) (i : Fin NR_SERIAL)

def serialStep (s : SerialLine) : SerialOp → Call SerialLine
  | .write buf => .ok { s with dev := (serialDriver.write s.tty buf s.dev).2 }
  | .flush => .ok (s.callDev serialDriver.flush)
  | .throttle => .ok (s.callDev serialDriver.throttle)
  | .unthrottle => .ok (s.callDev serialDriver.unthrottle)
  | .start => .ok (startTty serialDriver s)
  | .stop => .ok (stopTty serialDriver s)
  | .lineStatus => .ok (SerialLine.setPort s i (checkLineStatus uart (s.dev i)))
  | .modemStatus => .ok (modemStatus uart i s)
  | .transmit => .ok (transmit i s)
  | .setTermios t => .ok { s with tty := { s.tty with termios := t } }

/-- The condition on a step: CTS does not come back while the tty waits for it with something to
send. -/
def CtsKept (s : SerialLine) : SerialOp → Prop
  | .modemStatus => ¬ CtsReturns uart s.tty (s.dev i)
  | _ => True

instance (s : SerialLine) : (op : SerialOp) → Decidable (CtsKept uart i s op)
  | .modemStatus => inferInstanceAs (Decidable (¬ _))
  | .write _ | .flush | .throttle | .unthrottle | .start | .stop | .lineStatus | .transmit
  | .setTermios _ =>
    .isTrue trivial

variable {uart} {i}

/-- The operations of the driver work on the port of the tty. -/
theorem comOp_dev {s : SerialLine} (hi : ttyGetCom s.tty = .ok i) (f : Tty → Port → Port) :
    (s.callDev (some (comOp f))).dev i = f s.tty (s.dev i) := by
  show (onCom s.tty s.dev (fun _ => ()) fun p => ((), f s.tty p)).2 i = _
  unfold onCom
  rw [hi]
  exact Ports.set_self ..

theorem serialWrite_dev {s : SerialLine} (hi : ttyGetCom s.tty = .ok i) (buf : List Byte) :
    (serialDriver.write s.tty buf s.dev).2 i = (serialWrite s.tty buf (s.dev i)).2 := by
  show (onCom s.tty s.dev id (serialWrite s.tty buf)).2 i = _
  unfold onCom
  rw [hi]
  exact Ports.set_self ..

/-- The tty keeps its port. -/
theorem serialStep_com {s t : SerialLine} {op : SerialOp} (h : serialStep uart i s op = .ok t) :
    ttyGetCom t.tty = ttyGetCom s.tty := by
  have hdev : t.tty.device = s.tty.device := by
    cases op with
    | modemStatus =>
      cases h
      show (checkModemStatus uart s.tty (s.dev i)).1.device = _
      unfold checkModemStatus
      simp only []
      split_ifs <;> rfl
    | start =>
      cases h
      unfold startTty
      split
      · rfl
      · rw [Attached.callDev_tty]
    | stop =>
      cases h
      unfold stopTty
      split
      · rfl
      · rw [Attached.callDev_tty]
    | write _ => cases h; rfl
    | flush => cases h; rw [Attached.callDev_tty]
    | throttle => cases h; rw [Attached.callDev_tty]
    | unthrottle => cases h; rw [Attached.callDev_tty]
    | lineStatus => cases h; rfl
    | transmit => cases h; rfl
    | setTermios _ => cases h; rfl
  exact ttyGetCom_congr hdev

/-- A step keeps `TxOk` exactly when it meets the condition. -/
theorem serialStep_ok_iff {s t : SerialLine} {op : SerialOp} (hi : ttyGetCom s.tty = .ok i)
    (hok : TxOk s.tty (s.dev i)) (h : serialStep uart i s op = .ok t) :
    TxOk t.tty (t.dev i) ↔ CtsKept uart i s op := by
  cases op with
  | modemStatus =>
    cases h
    show TxOk (checkModemStatus uart s.tty (s.dev i)).1 ((modemStatus uart i s).dev i) ↔ _
    unfold modemStatus
    rw [setPort_dev_self]
    exact checkModemStatus_ok_iff uart hok
  | write buf =>
    cases h
    refine iff_of_true ?_ trivial
    show TxOk s.tty ((serialDriver.write s.tty buf s.dev).2 i)
    rw [serialWrite_dev hi]
    exact kickTx_ok s.tty _
  | flush =>
    cases h
    refine iff_of_true ?_ trivial
    rw [Attached.callDev_tty]
    show TxOk s.tty ((s.callDev (some (comOp serialFlush))).dev i)
    rw [comOp_dev hi]
    exact kickTx_ok s.tty _
  | throttle =>
    cases h
    refine iff_of_true ?_ trivial
    rw [Attached.callDev_tty]
    show TxOk s.tty ((s.callDev (some (comOp serialThrottle))).dev i)
    rw [comOp_dev hi]
    exact serialThrottle_ok hok
  | unthrottle =>
    cases h
    refine iff_of_true ?_ trivial
    rw [Attached.callDev_tty]
    show TxOk s.tty ((s.callDev (some (comOp serialUnthrottle))).dev i)
    rw [comOp_dev hi]
    exact serialUnthrottle_ok hok
  | start =>
    cases h
    refine iff_of_true ?_ trivial
    unfold startTty
    split
    · exact hok
    · have hi' : ttyGetCom { s.tty with stopped := false } = .ok i :=
        (ttyGetCom_congr rfl).trans hi
      have hdev := comOp_dev (s := ⟨{ s.tty with stopped := false }, s.dev⟩) hi'
        fun _ p => serialStart p
      rw [Attached.callDev_tty]
      show TxOk { s.tty with stopped := false } _
      rw [show serialDriver.start = some (comOp fun _ p => serialStart p) from rfl, hdev]
      exact serialStart_ok _ _
  | stop =>
    cases h
    refine iff_of_true ?_ trivial
    unfold stopTty
    split
    · exact hok
    · rw [Attached.callDev_tty]
      intro _ hs _
      cases hs
  | lineStatus =>
    cases h
    refine iff_of_true ?_ trivial
    show TxOk s.tty ((SerialLine.setPort s i (checkLineStatus uart (s.dev i))).dev i)
    rw [setPort_dev_self]
    exact TxOk.congr rfl rfl hok
  | transmit =>
    cases h
    refine iff_of_true ?_ trivial
    show TxOk s.tty ((transmit i s).dev i)
    unfold transmit
    rw [setPort_dev_self]
    exact sendChars_ok hok
  | setTermios t =>
    cases h
    exact iff_of_true hok trivial

@[simp] theorem comIn_txRing (uart : Uart) (p : Port) (reg : Nat) :
    (comIn uart p reg).2.com.txRing = p.com.txRing := by
  unfold comIn
  simp only []
  split <;> rfl

@[simp] theorem setBaud_txRing (uart : Uart) (p : Port) (divisor : BitVec 16) :
    (setBaud uart p divisor).2.com.txRing = p.com.txRing := by
  unfold setBaud
  simp only []
  split <;> simp

@[simp] theorem setMode_txRing (uart : Uart) (p : Port) (wls parity stb : Byte) :
    (setMode uart p wls parity stb).2.com.txRing = p.com.txRing := by
  simp [setMode]

@[simp] theorem startPort_txRing (uart : Uart) (p : Port) :
    (startPort uart p).com.txRing = p.com.txRing := by
  simp [startPort, shadowRegs, setMcr]

/-- A port that has just been opened has nothing to send. -/
theorem serialOpen_ok {minor : Nat} {tty : Tty} {p q : Port}
    (h : serialOpen uart minor p = .ok (0, q)) : TxOk tty q := by
  have hring : ringEmpty q.com.txRing = true := by
    unfold serialOpen at h
    simp only [] at h
    split_ifs at h
    · cases h
    · obtain ⟨_, h⟩ := assert_bind_ok.mp h
      cases h
    · cases h
    · cases h
    · cases h
    · cases h
    · cases h
      simp [setFifo, ringInit, ringEmpty]
  intro he
  rw [hring] at he
  cases he

/-- **The transmitter does not stall.** From an open port in order, the port is in order in every
state a run passes through exactly when every step of the run meets `CtsKept`. -/
theorem transmitter_enabled_iff {s : SerialLine} (hi : ttyGetCom s.tty = .ok i)
    (hok : TxOk s.tty (s.dev i)) (ops : List SerialOp) :
    (∀ t, Reaches (serialStep uart i) s ops t → TxOk t.tty (t.dev i)) ↔
      Throughout (serialStep uart i) (CtsKept uart i) s ops := by
  have hP : ∀ s : SerialLine, ttyGetCom s.tty = .ok i ∧ TxOk s.tty (s.dev i) →
      TxOk s.tty (s.dev i) := fun _ h => h.2
  refine throughout_iff_reached hP ?_ ?_ ⟨hi, hok⟩
  · intro s op t hs hq h
    exact ⟨(serialStep_com h).trans hs.1, (serialStep_ok_iff hs.1 hs.2 h).mpr hq⟩
  · intro s op hs hq
    have hret : ∃ t, serialStep uart i s op = .ok t := by
      cases op <;> exact ⟨_, rfl⟩
    obtain ⟨t, h⟩ := hret
    exact ⟨t, h, fun hbad => hq ((serialStep_ok_iff hs.1 hs.2 h).mp hbad)⟩

end Runs

/-- A UART whose CTS line drops once, at the first status read after the port has been opened. -/
def blinkingCts : Uart := fun io reg =>
  if reg = UART_MSR then
    let reads := io.filter fun
      | .read r _ => r = UART_MSR
      | .write _ _ => false
    if reads.length = 2 then 0x00 else 0x10
  else steadyUart 0x01 0x60 0x30 io reg

def hardwareFlow : SerialOp := .setTermios { defaultTermios with cflag := CRTSCTS }

theorem openedLine_com : ttyGetCom openedLine.tty = .ok 0 := rfl

theorem openedLine_ok : TxOk openedLine.tty (openedLine.dev 0) := by decide

/-- Output that is stopped by the line discipline, throttled, started again and sent. -/
theorem transmitter_enabled_restart :
    ∃ w, run (serialStep blinkingCts 0) openedLine
      [hardwareFlow, .write [0x61], .stop, .throttle, .modemStatus, .start, .write [0x62]] = .ok w ∧
      TxOk w.tty (w.dev 0) := by
  have h : ∃ w, run (serialStep blinkingCts 0) openedLine
      [hardwareFlow, .write [0x61], .stop, .throttle, .modemStatus, .start, .write [0x62]] = .ok w ∧
      True := by decide +kernel
  obtain ⟨w, hw, _⟩ := h
  exact ⟨w, hw, (transmitter_enabled_iff openedLine_com openedLine_ok _).mpr (by decide +kernel) w
    (Reaches.of_run hw)⟩

/-- CTS drops, a character is written, CTS comes back: nothing will ever send the character. -/
theorem cts_return_stalls :
    ∃ t, run (serialStep blinkingCts 0) openedLine
      [hardwareFlow, .modemStatus, .write [0x61], .modemStatus] = .ok t ∧
      ¬ TxOk t.tty (t.dev 0) := by
  decide +kernel

end Ohwes

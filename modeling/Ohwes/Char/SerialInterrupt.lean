import Ohwes.Char.Serial

/-! # Servicing a serial interrupt

The interrupt line is edge triggered, so a service has to go on until an identification read says
that nothing is pending. `iirReads` are the identification reads in the history of a port. Nothing a
pass does reads the identification register (`servicePass_iirReads`): what the service has seen of
it are the reads of `com_interrupt` itself. -/

namespace Ohwes
set_option autoImplicit false

/-- The values of the identification register that have been read, latest first. -/
def iirReads (io : List PortIo) : List Byte :=
  io.filterMap fun
    | .read reg value => if reg = UART_IIR then some value else none
    | .write _ _ => none

/-! ## Accesses that do not read the identification register -/

theorem comIn_iirReads (uart : Uart) (p : Port) {reg : Nat} (h : reg ≠ UART_IIR) :
    iirReads (comIn uart p reg).2.io = iirReads p.io := by
  show iirReads (.read reg _ :: p.io) = _
  unfold iirReads
  rw [List.filterMap_cons_none]
  simp [h]

theorem comIn_iir_iirReads (uart : Uart) (p : Port) :
    iirReads (comIn uart p UART_IIR).2.io = uart p.io UART_IIR :: iirReads p.io := rfl

@[simp] theorem comOut_iirReads (p : Port) (reg : Nat) (data : Byte) :
    iirReads (comOut p reg data).io = iirReads p.io := rfl

@[simp] theorem txEnable_iirReads (p : Port) : iirReads (txEnable p).io = iirReads p.io := by
  unfold txEnable
  split <;> rfl

@[simp] theorem txDisable_iirReads (p : Port) : iirReads (txDisable p).io = iirReads p.io := by
  unfold txDisable
  split <;> rfl

@[simp] theorem checkLineStatus_iirReads (uart : Uart) (p : Port) :
    iirReads (checkLineStatus uart p).io = iirReads p.io :=
  comIn_iirReads uart p (by decide)

@[simp] theorem readModemStatus_iirReads (uart : Uart) (p : Port) :
    iirReads (readModemStatus uart p).io = iirReads p.io :=
  comIn_iirReads uart p (by decide)

@[simp] theorem checkModemStatus_iirReads (uart : Uart) (tty : Tty) (p : Port) :
    iirReads (checkModemStatus uart tty p).2.io = iirReads p.io := by
  unfold checkModemStatus
  simp only []
  split_ifs <;> simp

@[simp] theorem sendLoop_iirReads (count : Nat) (p : Port) :
    iirReads (sendLoop count p).io = iirReads p.io := by
  induction count generalizing p with
  | zero => rfl
  | succ count ih =>
    rw [sendLoop]
    simp only []
    split
    · rfl
    · rw [ih]
      rfl

@[simp] theorem sendXchar_iirReads (p : Port) : iirReads (sendXchar p).io = iirReads p.io := by
  unfold sendXchar
  split <;> rfl

@[simp] theorem sendChars_iirReads (tty : Tty) (p : Port) :
    iirReads (sendChars tty p).io = iirReads p.io := by
  unfold sendChars
  simp only []
  split_ifs <;> simp

@[simp] theorem kickTx_iirReads (tty : Tty) (p : Port) :
    iirReads (kickTx tty p).io = iirReads p.io := by
  unfold kickTx
  split
  · exact txEnable_iirReads p
  · rfl

@[simp] theorem serialWrite_iirReads (tty : Tty) (buf : List Byte) (p : Port) :
    iirReads (serialWrite tty buf p).2.io = iirReads p.io :=
  kickTx_iirReads tty (fillTx _ p)

@[simp] theorem sendFlowChar_iirReads (p : Port) (c : Byte) :
    iirReads (sendFlowChar p c).io = iirReads p.io :=
  txEnable_iirReads _

@[simp] theorem serialThrottle_iirReads (tty : Tty) (p : Port) :
    iirReads (serialThrottle tty p).io = iirReads p.io := by
  unfold serialThrottle
  simp only [comOut_iirReads]
  split_ifs <;> simp [setMcr]

@[simp] theorem serialUnthrottle_iirReads (tty : Tty) (p : Port) :
    iirReads (serialUnthrottle tty p).io = iirReads p.io := by
  unfold serialUnthrottle
  simp only [comOut_iirReads]
  split_ifs <;> simp [setMcr]

@[simp] theorem serialStart_iirReads (p : Port) :
    iirReads (serialStart p).io = iirReads p.io := by
  unfold serialStart
  split
  · exact txEnable_iirReads p
  · rfl

/-! ## The driver under the line discipline -/

section Line
variable {uart : Uart} {i : Fin NR_SERIAL}

/-- The identification reads of port `i` are these. -/
def IirReads (i : Fin NR_SERIAL) (reads : List Byte) (s : SerialLine) : Prop :=
  iirReads (s.dev i).io = reads

theorem onCom_iirReads {α : Type} {fail : Int → α} {f : Port → α × Port}
    (h : ∀ p, iirReads (f p).2.io = iirReads p.io) (tty : Tty) (ports : Ports) :
    iirReads ((onCom tty ports fail f).2 i).io = iirReads (ports i).io := by
  unfold onCom
  split
  · rfl
  · next j _ =>
    show iirReads (ports.set j (f (ports j)).2 i).io = _
    by_cases hij : i = j
    · subst hij
      rw [Ports.set_self]
      exact h _
    · rw [Ports.set_of_ne ports hij]

theorem callDev_iirReads {reads : List Byte} {f : Tty → Port → Port}
    (h : ∀ tty p, iirReads (f tty p).io = iirReads p.io) {s : SerialLine}
    (hs : IirReads i reads s) : IirReads i reads (s.callDev (some (comOp f))) :=
  (onCom_iirReads (fun p => h s.tty p) s.tty s.dev).trans hs

theorem setPort_iirReads {reads : List Byte} {s : SerialLine} {p : Port}
    (h : iirReads p.io = reads) : IirReads i reads (SerialLine.setPort s i p) := by
  unfold IirReads
  rw [setPort_dev_self]
  exact h

theorem recvKeeps_iirReads (reads : List Byte) :
    RecvKeeps serialDriver (IirReads i reads) where
  throttle s h := by
    unfold throttleTty
    split
    · exact h
    · exact callDev_iirReads serialThrottle_iirReads h
  start s h := by
    unfold startTty
    split
    · exact h
    · exact callDev_iirReads (fun _ => serialStart_iirReads) h
  stop s h := by
    unfold stopTty
    split
    · exact h
    · exact callDev_iirReads (fun _ => txDisable_iirReads) h
  write s c h := (onCom_iirReads (serialWrite_iirReads s.tty [c]) s.tty s.dev).trans h
  flush s h := callDev_iirReads kickTx_iirReads h
  put s c h := h

theorem ldiscRecv_iirReads {reads : List Byte} {s t : SerialLine} {c : Byte}
    (hs : IirReads i reads s) (h : ldiscRecv s c = .ok t) : IirReads i reads t := by
  unfold ldiscRecv at h
  split at h
  · cases h
  · exact (recvKeeps_iirReads reads).nTtyRecv hs h

theorem recvCharsLoop_iirReads {reads : List Byte} {count : Nat} {s t : SerialLine}
    (hs : IirReads i reads s) (h : recvCharsLoop uart i count s = .ok t) :
    IirReads i reads t := by
  induction count generalizing s with
  | zero =>
    cases h
    exact hs
  | succ count ih =>
    obtain ⟨m, hm, hrest⟩ := bind_ok.mp h
    have hread : IirReads i reads
        (SerialLine.setPort s i (comIn uart (s.dev i) UART_RX).2) :=
      setPort_iirReads ((comIn_iirReads uart _ (by decide)).trans hs)
    have hline : IirReads i reads (SerialLine.setPort m i (checkLineStatus uart (m.dev i))) :=
      setPort_iirReads ((checkLineStatus_iirReads uart _).trans (ldiscRecv_iirReads hread hm))
    simp only [] at hrest
    split at hrest
    · exact ih hline hrest
    · cases hrest
      exact hline

theorem serviceRx_iirReads {reads : List Byte} {s t : SerialLine} (hs : IirReads i reads s)
    (h : serviceRx uart i s = .ok t) : IirReads i reads t := by
  unfold serviceRx at h
  simp only [] at h
  split at h
  · unfold recvChars at h
    refine recvCharsLoop_iirReads ?_ h
    exact setPort_iirReads hs
  · cases h
    exact hs

theorem serviceTx_iirReads {reads : List Byte} {s : SerialLine} (hs : IirReads i reads s) :
    IirReads i reads (serviceTx i s) := by
  unfold serviceTx
  simp only []
  split
  · exact setPort_iirReads ((sendChars_iirReads _ _).trans hs)
  · exact hs

/-- A pass leaves the identification register alone. -/
theorem servicePass_iirReads {reads : List Byte} {s t : SerialLine} (hs : IirReads i reads s)
    (h : servicePass uart i s = .ok t) : IirReads i reads t := by
  obtain ⟨m, hm, ht⟩ := bind_ok.mp h
  have hline : IirReads i reads (SerialLine.setPort s i (checkLineStatus uart (s.dev i))) :=
    setPort_iirReads ((checkLineStatus_iirReads uart _).trans hs)
  have hmodem : IirReads i reads (modemStatus uart i m) :=
    setPort_iirReads ((checkModemStatus_iirReads uart _ _).trans (serviceRx_iirReads hline hm))
  cases ht
  exact serviceTx_iirReads hmodem

theorem shadowControl_iirReads {reads : List Byte} {s : SerialLine} (hs : IirReads i reads s) :
    IirReads i reads (shadowControl uart i s) := by
  apply setPort_iirReads
  show iirReads (comIn uart (comIn uart (comIn uart (s.dev i) UART_IER).2 UART_LCR).2
    UART_MCR).2.io = reads
  rw [comIn_iirReads _ _ (by decide), comIn_iirReads _ _ (by decide),
    comIn_iirReads _ _ (by decide)]
  exact hs

/-! ## The whole service -/

/-- The loop is left after its first pass, whatever is pending. -/
theorem interruptLoop_first {fuel n : Nat} {s t : SerialLine}
    (h : interruptLoop uart i (fuel + 1) 0 s = .ok (n, t)) :
    n = 1 ∧ servicePass uart i s = .ok t := by
  obtain ⟨m, hm, hrest⟩ := bind_ok.mp h
  have hpass : (0 + 1 : Nat) ≤ INTR_MAX := by decide
  rw [if_pos hpass] at hrest
  cases hrest
  exact ⟨rfl, hm⟩

/-- What a service does: one identification read, and a pass if something is pending. -/
theorem comInterrupt_cases {n : Nat} {s t : SerialLine}
    (h : comInterrupt uart i s = .ok (n, t)) :
    n ≤ 1 ∧ iirReads (t.dev i).io = uart (s.dev i).io UART_IIR :: iirReads (s.dev i).io := by
  have hread : IirReads i (uart (s.dev i).io UART_IIR :: iirReads (s.dev i).io)
      (readIir uart i s) := setPort_iirReads (comIn_iir_iirReads uart (s.dev i))
  unfold comInterrupt at h
  simp only [] at h
  split at h
  · cases h
    exact ⟨Nat.zero_le 1, hread⟩
  · obtain ⟨hn, hpass⟩ := interruptLoop_first h
    exact ⟨hn.le, servicePass_iirReads (shadowControl_iirReads hread) hpass⟩

/-- The service went on until it read that nothing is pending, or made its full number of passes. -/
def Serviced (i : Fin NR_SERIAL) (s t : SerialLine) (npass : Nat) : Prop :=
  INTR_MAX ≤ npass ∨
    ∃ seen, iirReads (t.dev i).io = seen ++ iirReads (s.dev i).io ∧
      ∃ v ∈ seen, hasBit v UART_IIR_NO_INT = true

/-- After a single identification read, the service counts as done by that read alone. -/
theorem serviced_of_one_read {s t : SerialLine} {n : Nat} {v : Byte}
    (h : iirReads (t.dev i).io = v :: iirReads (s.dev i).io) :
    Serviced i s t n ↔ INTR_MAX ≤ n ∨ hasBit v UART_IIR_NO_INT = true := by
  unfold Serviced
  apply or_congr_right
  constructor
  · intro hseen
    obtain ⟨seen, heq, w, hw, hbit⟩ := hseen
    have hone : seen = [v] := List.append_cancel_right (heq.symm.trans h)
    rw [hone, List.mem_singleton] at hw
    rw [← hw]
    exact hbit
  · intro hbit
    exact ⟨[v], h, v, List.mem_singleton_self v, hbit⟩

/-- **Interrupt service.** A service that comes back has serviced the port exactly when its first
identification read says that nothing is pending: there is never a second one. -/
theorem comInterrupt_serviced {n : Nat} {s t : SerialLine}
    (h : comInterrupt uart i s = .ok (n, t)) :
    Serviced i s t n ↔ hasBit (uart (s.dev i).io UART_IIR) UART_IIR_NO_INT = true := by
  obtain ⟨hn, hreads⟩ := comInterrupt_cases h
  have hfew : ¬ INTR_MAX ≤ n := by
    have : 1 < INTR_MAX := by decide
    omega
  rw [serviced_of_one_read hreads]
  exact or_iff_right hfew

end Line

/-- Nothing is pending at the first look. -/
theorem comInterrupt_serviced_idle :
    ∃ r, comInterrupt (steadyUart 0x01 0x60 0x30) 0 openedLine = .ok r ∧
      Serviced 0 openedLine r.2 r.1 := by
  have h : ∃ r, comInterrupt (steadyUart 0x01 0x60 0x30) 0 openedLine = .ok r ∧ True := by
    decide +kernel
  obtain ⟨r, hr, _⟩ := h
  exact ⟨r, hr, (comInterrupt_serviced hr).mpr (by decide +kernel)⟩

/-- The transmitter asks for service at every look: it is serviced once, and left pending. -/
theorem pending_left_after_one_pass :
    ∃ r, comInterrupt (steadyUart 0x02 0x60 0x30) 0 openedLine = .ok r ∧
      r.1 = 1 ∧ ¬ Serviced 0 openedLine r.2 r.1 := by
  have h : ∃ r, comInterrupt (steadyUart 0x02 0x60 0x30) 0 openedLine = .ok r ∧
      r.1 = 1 ∧ iirReads (r.2.dev 0).io = 0x02 :: iirReads (openedLine.dev 0).io := by
    decide +kernel
  obtain ⟨r, hr, hone, hreads⟩ := h
  refine ⟨r, hr, hone, ?_⟩
  rw [serviced_of_one_read hreads, hone]
  decide

end Ohwes

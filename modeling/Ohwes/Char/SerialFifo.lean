import Ohwes.Char.SerialTransmit

/-! # What the serial transmitter sends

The bytes that go to the data register are the characters that `serial_write` took, in order, with
the control characters of the flow control between them. `TxRun` follows a run with three records: the
characters taken, the characters sent and the number of bytes of the last step. A control character
is sent beside the characters that the count of `send_chars` covers, so that a service may give the
UART one byte more than its FIFO holds; `fifo_filled_iff` is the exact boundary. -/

namespace Ohwes
open Library
set_option autoImplicit false

/-! ## The data register -/

/-- What a port has written to its data register, in order. -/
def sentBytes (p : Port) : List Byte :=
  p.io.reverse.filterMap fun
    | .write r v => if r = UART_TX then some v else none
    | .read _ _ => none

theorem comOut_sent (p : Port) (reg : Nat) (data : Byte) :
    sentBytes (comOut p reg data) = sentBytes p ++ if reg = UART_TX then [data] else [] := by
  rw [sentBytes, comOut, sentBytes]
  simp only [List.reverse_cons, List.filterMap_append]
  split <;> simp_all

theorem comIn_sent (uart : Uart) (p : Port) (reg : Nat) :
    sentBytes (comIn uart p reg).2 = sentBytes p := by
  simp [sentBytes, comIn]

theorem txEnable_sent (p : Port) : sentBytes (txEnable p) = sentBytes p := by
  rw [txEnable]
  split
  · rw [comOut_sent]
    simp [UART_IER, UART_TX, sentBytes]
  · rfl

theorem txDisable_sent (p : Port) : sentBytes (txDisable p) = sentBytes p := by
  rw [txDisable]
  split
  · rw [comOut_sent]
    simp [UART_IER, UART_TX, sentBytes]
  · rfl

/-- The control character of `send_chars`. -/
def controlByte (p : Port) : List Byte := if p.com.xchar != 0 then [p.com.xchar] else []

theorem sendXchar_sent (p : Port) : sentBytes (sendXchar p) = sentBytes p ++ controlByte p := by
  rw [sendXchar, controlByte]
  split
  · exact (comOut_sent p UART_TX p.com.xchar)
  · exact (List.append_nil _).symm

/-- The loop of `send_chars` moves characters from the front of the ring to the data register. -/
theorem sendLoop_moves (count : Nat) (p : Port) (h : ringEmpty p.com.txRing = false) :
    sentBytes (sendLoop count p) = sentBytes p ++ p.com.txRing.chars.take count ∧
      (sendLoop count p).com.txRing.chars = p.com.txRing.chars.drop count := by
  induction count generalizing p with
  | zero => simp [sendLoop]
  | succ count ih =>
    have hfront := ringGet_chars p.com.txRing h
    rw [sendLoop]
    simp only
    generalize hp : comOut { p with com := { p.com with txRing := (ringGet p.com.txRing).2 } } UART_TX
      (ringGet p.com.txRing).1 = p'
    have hring : p'.com.txRing = (ringGet p.com.txRing).2 := by
      rw [← hp, comOut_txRing]
    have hsent : sentBytes p' = sentBytes p ++ [(ringGet p.com.txRing).1] := by
      rw [← hp, comOut_sent]
      rfl
    rw [hfront]
    split
    · next he =>
      have hnil : (ringGet p.com.txRing).2.chars = [] := by
        rw [hring, ringEmpty_iff] at he
        rw [← List.length_eq_zero_iff, Ring.chars_length, he]
      rw [hsent, hring, hnil]
      simp
    · next he =>
      obtain ⟨h₁, h₂⟩ := ih p' (by simpa using he)
      rw [h₁, h₂, hsent, hring]
      simp

/-- The characters a service sends. -/
def serviceChars (tty : Tty) (p : Port) : List Byte :=
  if tty.stopped || tty.hwStopped then [] else p.com.txRing.chars.take XMIT_MAX

theorem chars_of_empty {q : Ring} (h : ringEmpty q = true) : q.chars = [] := by
  rw [← List.length_eq_zero_iff, Ring.chars_length]
  exact (ringEmpty_iff q).mp h

/-- A service sends the control character and then characters from the front of the ring. -/
theorem sendChars_moves (tty : Tty) (p : Port) :
    sentBytes (sendChars tty p) = sentBytes p ++ (controlByte p ++ serviceChars tty p) ∧
      p.com.txRing.chars = serviceChars tty p ++ (sendChars tty p).com.txRing.chars := by
  have hsent := sendXchar_sent p
  have hring := sendXchar_txRing p
  rw [sendChars]
  simp only [hring]
  by_cases hidle : (ringEmpty p.com.txRing || tty.stopped || tty.hwStopped) = true
  · have hnone : serviceChars tty p = [] := by
      rw [serviceChars]
      by_cases he : ringEmpty p.com.txRing = true
      · rw [chars_of_empty he]
        simp
      · simp_all
    rw [if_pos hidle, txDisable_sent, hsent, hnone, txDisable_txRing, hring]
    simp
  · have hwaiting : ringEmpty p.com.txRing = false := by simp_all
    have hall : serviceChars tty p = p.com.txRing.chars.take XMIT_MAX := by
      rw [serviceChars]
      simp_all
    obtain ⟨hloop, hrest⟩ := sendLoop_moves XMIT_MAX (sendXchar p) (by rw [hring]; exact hwaiting)
    rw [hring] at hloop hrest
    have hq : sentBytes (if ringEmpty (sendLoop XMIT_MAX (sendXchar p)).com.txRing then
          txDisable (sendLoop XMIT_MAX (sendXchar p)) else sendLoop XMIT_MAX (sendXchar p)) =
        sentBytes (sendLoop XMIT_MAX (sendXchar p)) := by
      split
      · exact txDisable_sent _
      · rfl
    have hr : (if ringEmpty (sendLoop XMIT_MAX (sendXchar p)).com.txRing then
          txDisable (sendLoop XMIT_MAX (sendXchar p))
          else sendLoop XMIT_MAX (sendXchar p)).com.txRing =
        (sendLoop XMIT_MAX (sendXchar p)).com.txRing := by
      split
      · exact txDisable_txRing _
      · rfl
    rw [if_neg hidle, hq, hr, hloop, hrest, hsent, hall]
    simp

/-! ## The other operations -/

theorem kickTx_sent (tty : Tty) (p : Port) : sentBytes (kickTx tty p) = sentBytes p := by
  rw [kickTx]
  split
  · exact txEnable_sent p
  · rfl

/-- A step that sends nothing and leaves the ring alone. -/
structure Silent (p p' : Port) : Prop where
  sent : sentBytes p' = sentBytes p
  ring : p'.com.txRing = p.com.txRing

namespace Silent
variable {p p' p'' : Port}

theorem refl (p : Port) : Silent p p := ⟨rfl, rfl⟩

theorem trans (h : Silent p p') (h' : Silent p' p'') : Silent p p'' :=
  ⟨h'.sent.trans h.sent, h'.ring.trans h.ring⟩

theorem ite {c : Prop} [Decidable c] (h : Silent p p') (h' : Silent p p'') :
    Silent p (if c then p' else p'') := by
  split
  · exact h
  · exact h'

theorem comOut {reg : Nat} (hreg : reg ≠ UART_TX) (data : Byte) : Silent p (comOut p reg data) where
  sent := by rw [comOut_sent, if_neg hreg, List.append_nil]
  ring := comOut_txRing p reg data

end Silent

theorem txEnable_silent (p : Port) : Silent p (txEnable p) := ⟨txEnable_sent p, txEnable_txRing p⟩

theorem txDisable_silent (p : Port) : Silent p (txDisable p) :=
  ⟨txDisable_sent p, txDisable_txRing p⟩

theorem kickTx_silent (tty : Tty) (p : Port) : Silent p (kickTx tty p) :=
  ⟨kickTx_sent tty p, kickTx_txRing tty p⟩

theorem sendFlowChar_silent (p : Port) (c : Byte) : Silent p (sendFlowChar p c) := by
  have hset : Silent p { p with com := { p.com with xchar := c } } := ⟨rfl, rfl⟩
  exact hset.trans (txEnable_silent _)

theorem setMcr_silent (p : Port) (mcr : Byte) : Silent p (setMcr p mcr) := ⟨rfl, rfl⟩

theorem serialThrottle_silent (tty : Tty) (p : Port) : Silent p (serialThrottle tty p) := by
  have hflow : Silent p (if tty.termios.iFlag IXOFF then sendFlowChar p STOP_CHAR else p) :=
    Silent.ite (sendFlowChar_silent p _) (Silent.refl p)
  exact (hflow.trans (Silent.ite (setMcr_silent _ _) (Silent.refl _))).trans
    (Silent.comOut (by decide) _)

theorem serialUnthrottle_silent (tty : Tty) (p : Port) : Silent p (serialUnthrottle tty p) := by
  have hflow : Silent p (if tty.termios.iFlag IXOFF then sendFlowChar p START_CHAR else p) :=
    Silent.ite (sendFlowChar_silent p _) (Silent.refl p)
  exact (hflow.trans (Silent.ite (setMcr_silent _ _) (Silent.refl _))).trans
    (Silent.comOut (by decide) _)

theorem checkLineStatus_silent (uart : Uart) (p : Port) : Silent p (checkLineStatus uart p) :=
  ⟨comIn_sent uart p UART_LSR, comIn_txRing uart p UART_LSR⟩

theorem checkModemStatus_silent (uart : Uart) (tty : Tty) (p : Port) :
    Silent p (checkModemStatus uart tty p).2 := by
  have hread : Silent p (readModemStatus uart p) := ⟨comIn_sent uart p UART_MSR, rfl⟩
  rw [checkModemStatus]
  split_ifs
  · exact hread.trans (txDisable_silent _)
  · exact hread
  · exact hread.trans (txEnable_silent _)
  · exact hread
  · exact hread

theorem putAll_chars (buf : List Byte) (q : Ring) (h : buf.length ≤ q.length - q.count) :
    (buf.foldl (fun q c => (ringPut q c).2) q).chars = q.chars ++ buf := by
  induction buf generalizing q with
  | nil => simp
  | cons c buf ih =>
    rw [List.length_cons] at h
    have hroom : ¬ ringFull q = true := by
      intro hfull
      have := (ringFull_iff q).mp hfull
      omega
    have hcount := ringPut_count q c
    have hput := ringPut_chars q c
    rw [if_neg hroom] at hput
    rw [List.foldl_cons, ih _ (by rw [ringPut_length, hcount]; omega), hput, List.append_assoc,
      List.singleton_append]

theorem putAll_length (buf : List Byte) (q : Ring) :
    (buf.foldl (fun q c => (ringPut q c).2) q).length = q.length := by
  induction buf generalizing q with
  | nil => rfl
  | cons c buf ih => rw [List.foldl_cons, ih, ringPut_length]

/-- `serial_write` adds to the ring the characters it says it has taken. -/
theorem serialWrite_moves (tty : Tty) (buf : List Byte) (p : Port) :
    sentBytes (serialWrite tty buf p).2 = sentBytes p ∧
      (serialWrite tty buf p).2.com.txRing.chars =
        p.com.txRing.chars ++ buf.take (serialWrite tty buf p).1.toNat := by
  have hkick := kickTx_silent tty (fillTx (buf.take (min buf.length (serialWriteRoom p))) p)
  constructor
  · exact hkick.sent
  · have hroom : (buf.take (min buf.length (serialWriteRoom p))).length ≤
        p.com.txRing.length - p.com.txRing.count := by
      rw [List.length_take]
      exact (min_le_left _ _).trans (min_le_right _ _)
    calc (serialWrite tty buf p).2.com.txRing.chars
        = (fillTx (buf.take (min buf.length (serialWriteRoom p))) p).com.txRing.chars :=
          congrArg Ring.chars hkick.ring
      _ = p.com.txRing.chars ++ buf.take (min buf.length (serialWriteRoom p)) :=
          putAll_chars _ _ hroom

/-! ## Runs -/

/-- A run so far. `accepted` starts with what waited in the ring at first, and the control characters
are left out of `data`. -/
structure TxRun where
  line : SerialLine
  accepted : List Byte
  data : List Byte
  burst : Nat

section Runs
variable (uart : Uart) (i : Fin NR_SERIAL)

def TxRun.start (s : SerialLine) : TxRun where
  line := s
  accepted := (s.dev i).com.txRing.chars
  data := []
  burst := 0

/-- The characters `serial_write` says it has taken. -/
def acceptedBy (s : SerialLine) : SerialOp → List Byte
  | .write buf => buf.take (serialDriver.write s.tty buf s.dev).1.toNat
  | _ => []

/-- The control character a step sends, in front of the characters. -/
def controlOf (s : SerialLine) : SerialOp → List Byte
  | .transmit => controlByte (s.dev i)
  | _ => []

/-- What a step has written to the data register. -/
def sentIn (s t : SerialLine) : List Byte :=
  (sentBytes (t.dev i)).drop (sentBytes (s.dev i)).length

def txRunStep (r : TxRun) (op : SerialOp) : Call TxRun :=
  (serialStep uart i r.line op).map fun t =>
    { line := t
      accepted := r.accepted ++ acceptedBy r.line op
      data := r.data ++ (sentIn i r.line t).drop (controlOf i r.line op).length
      burst := (sentIn i r.line t).length }

/-- Everything taken has been sent or is waiting, in order, and the last step fits the FIFO. -/
def TxOrdered (r : TxRun) : Prop :=
  r.data ++ (r.line.dev i).com.txRing.chars = r.accepted ∧ r.burst ≤ FIFO_DEPTH

instance (r : TxRun) : Decidable (TxOrdered i r) := inferInstanceAs (Decidable (_ ∧ _))

/-- The condition on a step: a service with a control character to send does not find the FIFO's
worth of characters besides. -/
def FifoFits (s : SerialLine) : SerialOp → Prop
  | .transmit => (s.dev i).com.xchar = 0 ∨ s.tty.stopped = true ∨ s.tty.hwStopped = true ∨
      ringCount (s.dev i).com.txRing < FIFO_DEPTH
  | _ => True

instance (s : SerialLine) : (op : SerialOp) → Decidable (FifoFits i s op)
  | .transmit => inferInstanceAs (Decidable (_ ∨ _))
  | .write _ | .flush | .throttle | .unthrottle | .start | .stop | .lineStatus | .modemStatus
  | .setTermios _ => .isTrue trivial

variable {uart} {i}

/-- The operations other than a write and a service send nothing and leave the ring alone. -/
theorem serialStep_silent {s t : SerialLine} {op : SerialOp} (hi : ttyGetCom s.tty = .ok i)
    (h : serialStep uart i s op = .ok t) (hw : ∀ buf, op ≠ .write buf) (hx : op ≠ .transmit) :
    Silent (s.dev i) (t.dev i) := by
  cases op with
  | write buf => exact absurd rfl (hw buf)
  | transmit => exact absurd rfl hx
  | flush =>
    cases h
    show Silent _ ((s.callDev (some (comOp serialFlush))).dev i)
    rw [comOp_dev hi]
    exact kickTx_silent _ _
  | throttle =>
    cases h
    show Silent _ ((s.callDev (some (comOp serialThrottle))).dev i)
    rw [comOp_dev hi]
    exact serialThrottle_silent _ _
  | unthrottle =>
    cases h
    show Silent _ ((s.callDev (some (comOp serialUnthrottle))).dev i)
    rw [comOp_dev hi]
    exact serialUnthrottle_silent _ _
  | start =>
    cases h
    rw [startTty]
    split
    · exact Silent.refl _
    · have hi' : ttyGetCom { s.tty with stopped := false } = .ok i :=
        (ttyGetCom_congr rfl).trans hi
      have hdev := comOp_dev (s := ⟨{ s.tty with stopped := false }, s.dev⟩) hi'
        fun _ p => serialStart p
      show Silent _ ((Attached.callDev ⟨_, s.dev⟩ (some (comOp fun _ p => serialStart p))).dev i)
      rw [hdev]
      exact Silent.ite (txEnable_silent _) (Silent.refl _)
  | stop =>
    cases h
    rw [stopTty]
    split
    · exact Silent.refl _
    · have hi' : ttyGetCom { s.tty with stopped := true } = .ok i :=
        (ttyGetCom_congr rfl).trans hi
      have hdev := comOp_dev (s := ⟨{ s.tty with stopped := true }, s.dev⟩) hi'
        fun _ p => serialStop p
      show Silent _ ((Attached.callDev ⟨_, s.dev⟩ (some (comOp fun _ p => serialStop p))).dev i)
      rw [hdev]
      exact txDisable_silent _
  | lineStatus =>
    cases h
    rw [setPort_dev_self]
    exact checkLineStatus_silent _ _
  | modemStatus =>
    cases h
    rw [modemStatus, setPort_dev_self]
    exact checkModemStatus_silent _ _ _
  | setTermios t =>
    cases h
    exact Silent.refl _

theorem sentIn_of_append {s t : SerialLine} {chars : List Byte}
    (h : sentBytes (t.dev i) = sentBytes (s.dev i) ++ chars) : sentIn i s t = chars := by
  rw [sentIn, h, List.drop_left]

/-- A service stays within the FIFO exactly when it does not send a control character beside a FIFO's
worth of characters. -/
theorem service_fits_iff (s : SerialLine) :
    (controlByte (s.dev i) ++ serviceChars s.tty (s.dev i)).length ≤ FIFO_DEPTH ↔
      FifoFits i s .transmit := by
  have hdepth : XMIT_MAX = FIFO_DEPTH := rfl
  have hpos : 1 ≤ FIFO_DEPTH := by decide
  rw [FifoFits, controlByte, serviceChars, List.length_append, ringCount, hdepth]
  by_cases hs : (s.tty.stopped || s.tty.hwStopped) = true
  · rw [if_pos hs, List.length_nil, Nat.add_zero]
    rw [Bool.or_eq_true] at hs
    have hcontrol : (if (s.dev i).com.xchar != 0 then [(s.dev i).com.xchar] else []).length ≤ 1 := by
      split
      · exact le_rfl
      · exact Nat.zero_le 1
    exact iff_of_true (hcontrol.trans hpos) (by tauto)
  · rw [if_neg hs, List.length_take, Ring.chars_length]
    simp only [Bool.or_eq_true, not_or] at hs
    by_cases hx : (s.dev i).com.xchar = 0
    · have hzero : ((s.dev i).com.xchar != 0) = false := by simpa using hx
      rw [hzero]
      exact iff_of_true (by simp) (Or.inl hx)
    · have hone : ((s.dev i).com.xchar != 0) = true := by simpa using hx
      rw [if_pos hone, List.length_singleton]
      constructor
      · intro h
        refine Or.inr (Or.inr (Or.inr ?_))
        omega
      · rintro (h | h | h | h)
        · exact absurd h hx
        · exact absurd h hs.1
        · exact absurd h hs.2
        · omega

/-- What a step sends, what it takes, and what then waits in the ring. -/
theorem serialStep_moves {s t : SerialLine} {op : SerialOp} (hi : ttyGetCom s.tty = .ok i)
    (h : serialStep uart i s op = .ok t) :
    ∃ chars, sentIn i s t = controlOf i s op ++ chars ∧
      (s.dev i).com.txRing.chars ++ acceptedBy s op = chars ++ (t.dev i).com.txRing.chars ∧
      ((sentIn i s t).length ≤ FIFO_DEPTH ↔ FifoFits i s op) := by
  by_cases hx : op = .transmit
  · subst hx
    cases h
    obtain ⟨hsent, hring⟩ := sendChars_moves s.tty (s.dev i)
    have hdev : (transmit i s).dev i = sendChars s.tty (s.dev i) := setPort_dev_self _ _ _
    have hin : sentIn i s (transmit i s) =
        controlByte (s.dev i) ++ serviceChars s.tty (s.dev i) := by
      apply sentIn_of_append
      rw [hdev, hsent]
    refine ⟨serviceChars s.tty (s.dev i), hin, ?_, ?_⟩
    · have hnone : acceptedBy s .transmit = [] := rfl
      rw [hdev, hnone, List.append_nil]
      exact hring
    · rw [hin]
      exact service_fits_iff s
  by_cases hw : ∃ buf, op = .write buf
  · obtain ⟨buf, rfl⟩ := hw
    cases h
    obtain ⟨hsent, hring⟩ := serialWrite_moves s.tty buf (s.dev i)
    have hdev : ({ s with dev := (serialDriver.write s.tty buf s.dev).2 } : SerialLine).dev i =
        (serialWrite s.tty buf (s.dev i)).2 := serialWrite_dev hi buf
    have hret : (serialDriver.write s.tty buf s.dev).1 = (serialWrite s.tty buf (s.dev i)).1 := by
      show (onCom s.tty s.dev id (serialWrite s.tty buf)).1 = _
      rw [onCom, hi]
    have hin : sentIn i s { s with dev := (serialDriver.write s.tty buf s.dev).2 } = [] := by
      apply sentIn_of_append
      rw [hdev, hsent, List.append_nil]
    refine ⟨[], hin, ?_, ?_⟩
    · rw [hdev, acceptedBy, hret, hring, List.nil_append]
    · rw [hin]
      exact iff_of_true (Nat.zero_le _) trivial
  · have hquiet := serialStep_silent hi h (fun buf he => hw ⟨buf, he⟩) hx
    have hin : sentIn i s t = [] := by
      apply sentIn_of_append
      rw [hquiet.sent, List.append_nil]
    have hnone : acceptedBy s op = [] ∧ controlOf i s op = [] ∧ FifoFits i s op := by
      cases op with
      | write buf => exact absurd ⟨buf, rfl⟩ hw
      | transmit => exact absurd rfl hx
      | _ => exact ⟨rfl, rfl, trivial⟩
    refine ⟨[], ?_, ?_, ?_⟩
    · rw [hin, hnone.2.1]
      rfl
    · rw [hnone.1, List.append_nil, hquiet.ring]
      rfl
    · rw [hin]
      exact iff_of_true (Nat.zero_le _) hnone.2.2

/-- From a run in order, a step leads to one in order exactly when it meets the condition. -/
theorem txRunStep_ordered_iff {r u : TxRun} {op : SerialOp} (hi : ttyGetCom r.line.tty = .ok i)
    (hr : r.data ++ (r.line.dev i).com.txRing.chars = r.accepted)
    (h : txRunStep uart i r op = .ok u) :
    ttyGetCom u.line.tty = .ok i ∧ u.data ++ (u.line.dev i).com.txRing.chars = u.accepted ∧
      (u.burst ≤ FIFO_DEPTH ↔ FifoFits i r.line op) := by
  rw [txRunStep] at h
  cases hs : serialStep uart i r.line op with
  | error e =>
    rw [hs] at h
    cases h
  | ok t =>
    rw [hs] at h
    cases h
    obtain ⟨chars, hsent, hring, hfits⟩ := serialStep_moves hi hs
    refine ⟨(serialStep_com hs).trans hi, ?_, hfits⟩
    simp only
    rw [hsent, List.drop_left, List.append_assoc, ← hring, ← List.append_assoc, hr]

/-- **Order and bound of the transmitter.** In every state a run passes through, what was taken is
what was sent and what waits, in order, and the last step has sent no more than the FIFO holds,
exactly when every step of the run meets `FifoFits`. -/
theorem fifo_filled_iff {s : SerialLine} (hi : ttyGetCom s.tty = .ok i) (ops : List SerialOp) :
    (∀ r, Reaches (txRunStep uart i) (TxRun.start i s) ops r → TxOrdered i r) ↔
      Throughout (txRunStep uart i) (fun r op => FifoFits i r.line op) (TxRun.start i s) ops := by
  have hP : ∀ r : TxRun, ttyGetCom r.line.tty = .ok i ∧ TxOrdered i r → TxOrdered i r :=
    fun _ h => h.2
  refine throughout_iff_reached hP ?_ ?_ ⟨hi, rfl, Nat.zero_le _⟩
  · intro r op u hr hq h
    obtain ⟨hcom, hord, hfits⟩ := txRunStep_ordered_iff hr.1 hr.2.1 h
    exact ⟨hcom, hord, hfits.mpr hq⟩
  · intro r op hr hq
    have hret : ∃ t, serialStep uart i r.line op = .ok t := by
      cases op <;> exact ⟨_, rfl⟩
    obtain ⟨t, ht⟩ := hret
    refine ⟨_, by rw [txRunStep, ht]; rfl, ?_⟩
    intro hbad
    obtain ⟨-, -, hfits⟩ := txRunStep_ordered_iff hr.1 hr.2.1
      (show txRunStep uart i r op = .ok _ by rw [txRunStep, ht]; rfl)
    exact hq (hfits.mp hbad.2)

end Runs

def softwareFlow : SerialOp := .setTermios { defaultTermios with iflag := IXOFF }

/-- Characters, a request to the sender to pause, and two services. -/
theorem fifo_filled_paused :
    ∃ r, run (txRunStep blinkingCts 0) (TxRun.start 0 openedLine)
      [softwareFlow, .write [0x61, 0x62], .throttle, .transmit, .transmit] = .ok r ∧
      TxOrdered 0 r := by
  have h : ∃ r, run (txRunStep blinkingCts 0) (TxRun.start 0 openedLine)
      [softwareFlow, .write [0x61, 0x62], .throttle, .transmit, .transmit] = .ok r ∧ True := by
    decide +kernel
  obtain ⟨r, hr, -⟩ := h
  exact ⟨r, hr, (fifo_filled_iff openedLine_com _).mpr (by decide +kernel) r (Reaches.of_run hr)⟩

/-- Sixteen characters and an XOFF make seventeen bytes. -/
theorem seventeen_bytes_in_one_service :
    ∃ r, run (txRunStep blinkingCts 0) (TxRun.start 0 openedLine)
      [softwareFlow, .write (List.replicate 16 0x61), .throttle, .transmit] = .ok r ∧
      r.burst = 17 ∧ ¬ TxOrdered 0 r := by
  decide +kernel

end Ohwes

import Ohwes.Char.Chunking
import Ohwes.Char.SerialTransmit
import Ohwes.Char.TerminalBounds
import Ohwes.Char.TtyOpen

/-! # The drivers of this system, and what they echo

`terminal_driver` and `serial_driver` side by side on the devices of both. A terminal is not in the
middle of printing when its driver is called: a character that came then would be neither printed
nor consumed. Both have a write room that flushing and throttling leave alone, so the exact
condition for cutting a batch of received characters holds on every tty. -/

namespace Ohwes
open Library
set_option autoImplicit false

/-- A terminal that is not printing, with the accesses made to its frame buffer. -/
structure IdleTerminal where
  term : Terminal
  fb : List FbOp
  idle : term.printing = false

/-- The virtual terminals, the VGA registers they share, and the serial ports. -/
structure Devices where
  curr : Nat
  vga : Vga
  terms : Nat → IdleTerminal
  ports : Ports

/-- A terminal that is not printing consumes the character and is not printing after it. -/
theorem terminalPutchar_idle (curr : Nat) {s : Vt} (h : s.term.printing = false) (c : Byte) :
    (terminalPutchar curr s c).1 = 1 ∧ (terminalPutchar curr s c).2.term.printing = false := by
  unfold terminalPutchar
  rw [h]
  exact ⟨rfl, rfl⟩

def Devices.putchar (d : Devices) (n : Nat) (c : Byte) : Devices :=
  let t := d.terms n
  let s := terminalPutchar d.curr { term := t.term, vga := d.vga, fb := t.fb } c
  { d with
    vga := s.2.vga
    terms := Function.update d.terms n
      { term := s.2.term, fb := s.2.fb, idle := (terminalPutchar_idle d.curr t.idle c).2 } }

/-- `terminal_write`: one character after the other, as each call consumes one. -/
def terminalWrite (d : Devices) (n : Nat) (buf : List Byte) : Int × Devices :=
  (buf.length, buf.foldl (fun d c => d.putchar n c) d)

def TERMINAL_WRITE_ROOM : Nat := 4096

def terminalDriver : TtyDriver Devices where
  write tty buf d :=
    match ttyGetTerminal tty with
    | .error e => (e, d)
    | .ok n => terminalWrite d n buf
  writeRoom _ _ := TERMINAL_WRITE_ROOM
  flush := none
  throttle := none
  unthrottle := none
  stop := none
  start := none

/-- An operation on the ports. -/
def onPorts (f : Tty → Ports → Ports) (tty : Tty) (d : Devices) : Devices :=
  { d with ports := f tty d.ports }

/-- The driver a tty copied when it was opened. -/
def ttyDriver : DriverName → TtyDriver Devices
  | .terminal => terminalDriver
  | .serial =>
    { write := fun tty buf d =>
        ((serialDriver.write tty buf d.ports).1,
          { d with ports := (serialDriver.write tty buf d.ports).2 })
      writeRoom := fun tty d => serialDriver.writeRoom tty d.ports
      flush := serialDriver.flush.map onPorts
      throttle := serialDriver.throttle.map onPorts
      unthrottle := serialDriver.unthrottle.map onPorts
      stop := serialDriver.stop.map onPorts
      start := serialDriver.start.map onPorts }

/-! ## The write room -/

def terminalRoomView : RoomView (ttyDriver .terminal) Unit where
  view _ := ()
  room _ _ _ _ _ _ := rfl
  write _ _ _ _ _ _ _ := rfl
  flush _ h := nomatch h
  throttle _ h := nomatch h

theorem serialWrite_txRing (tty : Tty) (buf : List Byte) (p : Port) :
    (serialWrite tty buf p).2.com.txRing =
      (buf.take (min buf.length (ringLength p.com.txRing - ringCount p.com.txRing))).foldl
        (fun q c => (ringPut q c).2) p.com.txRing := by
  unfold serialWrite
  rw [kickTx_txRing]
  rfl

@[simp] theorem sendFlowChar_txRing (p : Port) (c : Byte) :
    (sendFlowChar p c).com.txRing = p.com.txRing := by
  unfold sendFlowChar
  rw [txEnable_txRing]

theorem serialThrottle_txRing (tty : Tty) (p : Port) :
    (serialThrottle tty p).com.txRing = p.com.txRing := by
  unfold serialThrottle
  rw [comOut_txRing]
  split_ifs
  · exact sendFlowChar_txRing p STOP_CHAR
  · rfl
  · exact sendFlowChar_txRing p STOP_CHAR
  · rfl

/-- The transmit rings of the ports. -/
def txRings (ports : Ports) (i : Fin NR_SERIAL) : Ring := (ports i).com.txRing

theorem comOp_txRings {f : Tty → Port → Port}
    (h : ∀ tty p, (f tty p).com.txRing = p.com.txRing) (tty : Tty) (ports : Ports) :
    txRings (comOp f tty ports) = txRings ports := by
  unfold comOp onCom
  cases ttyGetCom tty with
  | error e => rfl
  | ok i =>
    funext j
    by_cases hj : j = i
    · subst hj
      show ((ports.set j _) j).com.txRing = _
      rw [Ports.set_self]
      exact h tty (ports j)
    · show ((ports.set i _) j).com.txRing = _
      rw [Ports.set_of_ne _ hj]
      rfl

theorem serialWrite_txRings {tty tty' : Tty} (buf : List Byte) {ports ports' : Ports}
    (hdev : tty'.device = tty.device) (h : txRings ports' = txRings ports) :
    txRings (serialDriver.write tty' buf ports').2 = txRings (serialDriver.write tty buf ports).2 := by
  show txRings (onCom tty' ports' id (serialWrite tty' buf)).2 =
    txRings (onCom tty ports id (serialWrite tty buf)).2
  unfold onCom
  rw [ttyGetCom_congr hdev]
  cases ttyGetCom tty with
  | error e => exact h
  | ok i =>
    have hi : (ports' i).com.txRing = (ports i).com.txRing := congrFun h i
    funext j
    by_cases hj : j = i
    · subst hj
      show ((ports'.set j _) j).com.txRing = ((ports.set j _) j).com.txRing
      rw [Ports.set_self, Ports.set_self, serialWrite_txRing, serialWrite_txRing, hi]
    · show ((ports'.set i _) j).com.txRing = ((ports.set i _) j).com.txRing
      rw [Ports.set_of_ne _ hj, Ports.set_of_ne _ hj]
      exact congrFun h j

theorem serialWriteRoom_congr {tty tty' : Tty} {ports ports' : Ports}
    (hdev : tty'.device = tty.device) (h : txRings ports' = txRings ports) :
    serialDriver.writeRoom tty' ports' = serialDriver.writeRoom tty ports := by
  show (onCom tty' ports' (fun _ => 0) fun p => (serialWriteRoom p, p)).1 =
    (onCom tty ports (fun _ => 0) fun p => (serialWriteRoom p, p)).1
  unfold onCom
  rw [ttyGetCom_congr hdev]
  cases ttyGetCom tty with
  | error e => rfl
  | ok i =>
    have hi : (ports' i).com.txRing = (ports i).com.txRing := congrFun h i
    show serialWriteRoom (ports' i) = serialWriteRoom (ports i)
    unfold serialWriteRoom
    rw [hi]

def serialRoomView : RoomView (ttyDriver .serial) (Fin NR_SERIAL → Ring) where
  view d := txRings d.ports
  room _ _ _ _ hdev h := serialWriteRoom_congr hdev h
  write _ _ buf _ _ hdev h := serialWrite_txRings buf hdev h
  flush f hf tty d := by
    cases hf
    exact comOp_txRings (fun tty p => kickTx_txRing tty p) tty d.ports
  throttle f hf tty d := by
    cases hf
    exact comOp_txRings serialThrottle_txRing tty d.ports

/-! ## Cutting a batch -/

/-- **Batches.** On every tty, with either driver, receiving `a` and `b` in one call and in two calls
leaves the tty in the same state and echoes the same, exactly where `CutHarmless` says so. -/
theorem recv_cut_iff (name : DriverName) (s : Attached (Devices × List Byte)) (a b : List Byte) :
    ChunkFree (ttyDriver name) s a b ↔ s.tty.ldiscData = none ∨ CutHarmless s.tty a b := by
  cases hring : s.tty.ldiscData with
  | none =>
    refine ⟨fun _ => Or.inl rfl, fun _ u t v hu ht hv => ?_⟩
    unfold nTtyRecv at hu ht hv
    rw [hring] at hu ht
    cases hu
    cases ht
    rw [hring] at hv
    cases hv
    exact ⟨rfl, rfl⟩
  | some q =>
    have hcut : ChunkFree (ttyDriver name) s a b ↔ CutHarmless s.tty a b := by
      cases name with
      | terminal => exact chunkFree_iff terminalRoomView hring a b
      | serial => exact chunkFree_iff serialRoomView hring a b
    rw [hcut]
    simp

/-- The first serial port's tty just opened, and nothing echoed. -/
def quietLine : Attached (Devices × List Byte) where
  tty := openedTty
  dev := (
    { curr := 1, vga := textVga
      terms := fun n => { term := zeroTerminal n, fb := [], idle := rfl }
      ports := openedLine.dev }, [])

/-- XOFF and a letter: in one call the letter is lost, in two it is kept. -/
theorem flow_char_drops_rest : ¬ ChunkFree (ttyDriver .serial) quietLine [STOP_CHAR] [0x61] := by
  have hboth : ∃ u, nTtyRecv (recording (ttyDriver .serial)) (some ([STOP_CHAR] ++ [0x61])) quietLine
      = .ok u ∧ nTtyRecvRoom u.tty = 1024 := by decide +kernel
  have htwo : ∃ t, nTtyRecv (recording (ttyDriver .serial)) (some [STOP_CHAR]) quietLine = .ok t ∧
      ∃ v, nTtyRecv (recording (ttyDriver .serial)) (some [0x61]) t = .ok v ∧
        nTtyRecvRoom v.tty = 1023 := by decide +kernel
  obtain ⟨u, hu, huroom⟩ := hboth
  obtain ⟨t, ht, v, hv, hvroom⟩ := htwo
  intro h
  have hsame := (h u t v hu ht hv).1
  rw [hsame] at hvroom
  omega

end Ohwes

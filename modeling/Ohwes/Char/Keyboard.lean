import Ohwes.Char.KeyCodes
import Ohwes.Char.Ps2
import Ohwes.Kernel.Fs

/-! # `kernel/char/ps2kb.c`: the PS/2 keyboard

`kbInterrupt` handles one byte from the keyboard, in the three parts the source marks: from the scan
code to a key code (`kbDecode`), what a key code does by itself (`kbKey`, `kbPress`), and from the key
code to characters (`kbCharacter`). `KbWorld` is the driver's `struct kb` with what it acts on: the
controller, the characters handed to the terminal, the terminals switched to. Printed messages are
left out, and so is the key event, which nothing receives yet. -/

namespace Ohwes
set_option autoImplicit false

def IRQ_KEYBOARD : Nat := 1
def TYPEMATIC_BYTE : Byte := 0x22
def RETRY_COUNT : Nat := 3
def PS2KB_LED_SCRLK : BitVec 32 := 1
def PS2KB_LED_NUMLK : BitVec 32 := 2
def PS2KB_LED_CAPLK : BitVec 32 := 4

/-- `struct kb`; an `int` is a 32-bit word and the counters are natural numbers. -/
structure Kb where
  ident : Byte × Byte
  leds : BitVec 32
  typematic : Bool
  typematicByte : Byte
  scancodeSet : Byte
  e0 : Bool
  e1 : Bool
  ctrl : BitVec 32
  alt : BitVec 32
  shift : BitVec 32
  metaKey : BitVec 32
  numlk : BitVec 32
  capslk : BitVec 32
  scrlk : BitVec 32
  sysrq : BitVec 32
  altchar : Byte
  pollchar : Byte
  ackCount : Nat
  resendCount : Nat
  errorCount : Nat
  deriving DecidableEq, Repr

/-- The initial value of `_kb`. -/
def Kb.zero : Kb where
  ident := (0, 0)
  leds := 0
  typematic := false
  typematicByte := 0
  scancodeSet := 0
  e0 := false
  e1 := false
  ctrl := 0
  alt := 0
  shift := 0
  metaKey := 0
  numlk := 0
  capslk := 0
  scrlk := 0
  sysrq := 0
  altchar := 0
  pollchar := 0
  ackCount := 0
  resendCount := 0
  errorCount := 0

structure KbWorld where
  kb : Kb
  ps2 : Ps2
  /-- What the line discipline of the terminal has received, in order. -/
  received : List Byte
  /-- The terminals switched to, in order. -/
  terminals : List Nat
  /-- `g_test_crashkey` of the `DEBUG` build. -/
  crashkey : Nat
  deriving DecidableEq, Repr

/-- One interrupt: the byte at the port, and what the rest of the machine does meanwhile. -/
structure KbIrq where
  sc : Byte
  ps2 : Ps2
  /-- The terminal has a tty with a line discipline, and that has a receiver. -/
  hasLdisc : Bool
  hasRecv : Bool
  switchTerminal : Nat → Int

/-! ## The port -/

/-- `kb_rdport`: zero where the poll times out. -/
def kbRdport (w : KbWorld) : Byte × KbWorld :=
  match w.ps2.poll with
  | (none, d) => (0, { w with ps2 := d })
  | (some data, d) =>
    if data = 0xFF then
      (data, { w with ps2 := d, kb := { w.kb with errorCount := w.kb.errorCount + 1 } })
    else (data, { w with ps2 := d })

def kbWrport (w : KbWorld) : Call KbWorld :=
  if w.ps2.accepts then .ok { w with ps2 := w.ps2.sent }
  else .error (.panic "ps2kb: timed out waiting for write")

/-- The loop of `kb_sendcmd`, with the retries left. -/
def kbSendcmdLoop : Nat → KbWorld → Call (Bool × KbWorld)
  | 0, w => .ok (false, w)
  | retries + 1, w => do
    let w ← kbWrport w
    if (kbRdport w).1 = 0xFA then .ok (true, (kbRdport w).2)
    else if (kbRdport w).1 ≠ 0 then kbSendcmdLoop retries (kbRdport w).2
    else .ok (false, (kbRdport w).2)

/-- Whether the keyboard has acknowledged the command. -/
def kbSendcmd (w : KbWorld) : Call (Bool × KbWorld) := kbSendcmdLoop RETRY_COUNT w

/-- A byte of a command's data, and the answer to it. -/
def kbSenddata (w : KbWorld) : Call (Byte × KbWorld) := do
  let w ← kbWrport w
  .ok (kbRdport w)

/-- `kb_disable` and `kb_enable` switch the port of the keyboard off and on. -/
def kbDisable (w : KbWorld) : Call KbWorld := (ps2Cmd w.ps2).map fun d => { w with ps2 := d }

def kbEnable (w : KbWorld) : Call KbWorld := (ps2Cmd w.ps2).map fun d => { w with ps2 := d }

/-! ## Commands -/

def kbIdent (w : KbWorld) : Call (Bool × KbWorld) := do
  let (ack, w) ← kbSendcmd w
  if !ack then .ok (false, w)
  else
    let (b, w) := kbRdport w
    let (c, w) := kbRdport w
    .ok (true, { w with kb := { w.kb with ident := (b, c) } })

def kbSetleds (leds : BitVec 32) (w : KbWorld) : Call (Bool × KbWorld) := do
  let (ack, w) ← kbSendcmd w
  if !ack then .ok (false, w)
  else do
    let (_, w) ← kbSenddata { w with kb := { w.kb with leds := leds } }
    .ok (true, w)

def kbTypematic (typ : Byte) (w : KbWorld) : Call (Bool × KbWorld) := do
  assert (typ &&& 0x80 == 0)
  let (ack, w) ← kbSendcmd w
  if !ack then .ok (false, w)
  else do
    let (_, w) ← kbSenddata w
    .ok (true, { w with kb := { w.kb with typematic := true, typematicByte := typ } })

/-- The scan code command with its byte of data: the set wanted, or 0 to ask for the current one. -/
def kbScancodeCmd (w : KbWorld) : Call KbWorld := do
  let (_, w) ← kbSendcmd w
  let (_, w) ← kbSenddata w
  .ok w

def kbScset (set : Byte) (w : KbWorld) : Call (Bool × KbWorld) := do
  assert (0 < set && set ≤ 3)
  let (ack, w) ← kbSendcmd w
  if !ack then .ok (false, w)
  else do
    let (_, w) ← kbSenddata w
    let (oldset, w) := kbRdport w
    if oldset = 0 then do
      let w ← kbScancodeCmd w
      .ok (set == 1, { w with kb := { w.kb with scancodeSet := 1 } })
    else do
      let w ← kbScancodeCmd w
      let w ← kbScancodeCmd w
      let (data, w) := kbRdport w
      if data = set then .ok (true, { w with kb := { w.kb with scancodeSet := set } })
      else do
        let w ← kbScancodeCmd w
        .ok (false, { w with kb := { w.kb with scancodeSet := oldset } })

/-- The LEDs that the toggle keys ask for. -/
def Kb.toggleLeds (kb : Kb) : BitVec 32 :=
  (if kb.capslk ≠ 0 then PS2KB_LED_CAPLK else 0) |||
    (if kb.numlk ≠ 0 then PS2KB_LED_NUMLK else 0) |||
    (if kb.scrlk ≠ 0 then PS2KB_LED_SCRLK else 0)

def updateLeds (w : KbWorld) : Call KbWorld :=
  if w.kb.leds ≠ w.kb.toggleLeds then (kbSetleds w.kb.toggleLeds w).map Prod.snd else .ok w

/-! ## `init_kb` -/

/-- Where the keyboard cannot be set to scan code set 1, the controller translates to it. -/
def kbSet1 (w : KbWorld) : Call KbWorld := do
  let (ok, w) ← kbScset 1 w
  if ok then .ok w
  else do
    let d ← ps2Cmd w.ps2
    let d ← ps2Write d
    .ok { w with ps2 := d, kb := { w.kb with scancodeSet := 1 } }

def initKb (d : Ps2) : Call KbWorld := do
  let d ← initPs2 d
  let w ← kbDisable ⟨{ Kb.zero with numlk := 1 }, ps2Flush d, [], [], 0⟩
  let (_, w) ← kbSendcmd w
  let d ← ps2Cmd (ps2Flush w.ps2)
  let (_, d) ← ps2Read d
  let d ← ps2Cmd d
  let d ← ps2Write d
  let (_, w) ← kbIdent { w with ps2 := d }
  let (_, w) ← kbTypematic TYPEMATIC_BYTE w
  let w ← kbSet1 w
  let w ← kbEnable w
  let (_, w) ← kbSendcmd w
  updateLeds { w with ps2 := ps2Flush w.ps2 }

/-! ## Scan code to key code -/

/-- An element of one of the maps. -/
def readMap {α : Type} (map : List α) (i : Nat) : Call α :=
  match map[i]? with
  | some x => .ok x
  | none => .error .fault

/-- A set top bit marks a break code. -/
def isRelease (sc : Byte) : Bool := sc &&& 0x80 != 0

def scanKey (index : Nat) (kb : Kb) : Call Nat :=
  if kb.e0 then readMap scanmapE0 index else readMap scanmap index

/-- The prefix `0xE0` is for one byte. -/
def endE0 (kb : Kb) : Call Kb :=
  if kb.e0 then (assert !kb.e1).map fun _ => { kb with e0 := false } else .ok kb

/-- The key that ends an `0xE1` sequence is `KEY_PAUSE`. -/
def endE1 (key : Nat) (kb : Kb) : Call (Nat × Kb) :=
  if kb.e1 then
    (assert !kb.e0).map fun _ =>
      if key = KEY_NUMLK then (KEY_PAUSE, { kb with e1 := false }) else (key, kb)
  else .ok (key, kb)

/-- The key code of a scan code that is no prefix, and the keyboard with its prefixes taken in. -/
def kbDecode (sc : Byte) (kb : Kb) : Call (Nat × Kb) := do
  let key ← scanKey (sc &&& 0x7F).toNat kb
  let kb ← endE0 kb
  endE1 key kb

/-! ## Key codes -/

/-- The keypad's key codes without Num Lock. -/
def numlkOff (key : Nat) : Nat :=
  if key = KEY_KP0 then KEY_INSERT
  else if key = KEY_KP1 then KEY_END
  else if key = KEY_KP2 then KEY_DOWN
  else if key = KEY_KP3 then KEY_PGDOWN
  else if key = KEY_KP4 then KEY_LEFT
  else if key = KEY_KP6 then KEY_RIGHT
  else if key = KEY_KP7 then KEY_HOME
  else if key = KEY_KP8 then KEY_UP
  else if key = KEY_KP9 then KEY_PGUP
  else if key = KEY_KPDOT then KEY_DELETE
  else key

def toggleKey (key lock : Nat) (release : Bool) (state : BitVec 32) : BitVec 32 :=
  if !release && key == lock then state ^^^ 1 else state

def kbToggles (key : Nat) (release : Bool) (kb : Kb) : Kb :=
  { kb with
    capslk := toggleKey key KEY_CAPSLK release kb.capslk
    numlk := toggleKey key KEY_NUMLK release kb.numlk
    scrlk := toggleKey key KEY_SCRLK release kb.scrlk }

/-- Bit 0 stands for the left key of a modifier and bit 1 for the right one. -/
def handleModifier (key l r : Nat) (release : Bool) (state : BitVec 32) : BitVec 32 :=
  let mask : BitVec 32 := (if key = l then 1 else 0) ||| (if key = r then 2 else 0)
  if mask ≠ 0 ∧ release = false then state ||| mask
  else if mask ≠ 0 ∧ release = true then state &&& ~~~mask
  else state

/-- The right key of `sysrq` is given as 0. -/
def kbModifiers (key : Nat) (release : Bool) (kb : Kb) : Kb :=
  { kb with
    ctrl := handleModifier key KEY_LCTRL KEY_RCTRL release kb.ctrl
    shift := handleModifier key KEY_LSHIFT KEY_RSHIFT release kb.shift
    alt := handleModifier key KEY_LALT KEY_RALT release kb.alt
    metaKey := handleModifier key KEY_LWIN KEY_RWIN release kb.metaKey
    sysrq := handleModifier key KEY_SYSRQ 0 release kb.sysrq }

/-! ## Characters -/

def kbPutq (i : KbIrq) (c : Byte) (w : KbWorld) : Call KbWorld :=
  if !i.hasLdisc then .error (.panic "no TTY attached to keyboard!")
  else if !i.hasRecv then .error (.panic "keyboard has no input receiver!")
  else .ok { w with received := w.received ++ [c], kb := { w.kb with pollchar := c } }

def kbPuts (i : KbIrq) (str : CString) (w : KbWorld) : Call KbWorld :=
  str.foldlM (fun w c => kbPutq i c w) w

/-- The escape sequence of a key without a character. -/
def keySequence (key : Nat) : CString :=
  if key = KEY_UP then 0x1B :: text ['[', 'A']
  else if key = KEY_DOWN then 0x1B :: text ['[', 'B']
  else if key = KEY_RIGHT then 0x1B :: text ['[', 'C']
  else if key = KEY_LEFT then 0x1B :: text ['[', 'D']
  else if key = KEY_KP5 then 0x1B :: text ['[', 'G']
  else if key = KEY_PRTSC then 0x1B :: text ['[', 'P']
  else if key = KEY_HOME then 0x1B :: text ['[', '1', '~']
  else if key = KEY_INSERT then 0x1B :: text ['[', '2', '~']
  else if key = KEY_DELETE then 0x1B :: text ['[', '3', '~']
  else if key = KEY_END then 0x1B :: text ['[', '4', '~']
  else if key = KEY_PGUP then 0x1B :: text ['[', '5', '~']
  else if key = KEY_PGDOWN then 0x1B :: text ['[', '6', '~']
  else if key = KEY_F1 then 0x1B :: text ['[', '1', '1', '~']
  else if key = KEY_F2 then 0x1B :: text ['[', '1', '2', '~']
  else if key = KEY_F3 then 0x1B :: text ['[', '1', '3', '~']
  else if key = KEY_F4 then 0x1B :: text ['[', '1', '4', '~']
  else if key = KEY_F5 then 0x1B :: text ['[', '1', '5', '~']
  else if key = KEY_F6 then 0x1B :: text ['[', '1', '7', '~']
  else if key = KEY_F7 then 0x1B :: text ['[', '1', '8', '~']
  else if key = KEY_F8 then 0x1B :: text ['[', '1', '9', '~']
  else if key = KEY_F9 then 0x1B :: text ['[', '2', '0', '~']
  else if key = KEY_F10 then 0x1B :: text ['[', '2', '1', '~']
  else if key = KEY_F11 then 0x1B :: text ['[', '2', '3', '~']
  else if key = KEY_F12 then 0x1B :: text ['[', '2', '4', '~']
  else []

/-- The character a key stands for while a control key is down. -/
def controlChar (key : Nat) (c : Byte) : Byte :=
  let c : Byte :=
    if key = KEY_2 then 0x40
    else if key = KEY_6 then 0x5E
    else if key = KEY_LEFTBRACKET then 0x5B
    else if key = KEY_BACKSLASH then 0x5C
    else if key = KEY_RIGHTBRACKET then 0x5D
    else if key = KEY_MINUS then 0x5F
    else if key = KEY_SLASH then 0x3F
    else if key = KEY_BACKSPACE then 0x08
    else c
  let c := if KEY_A ≤ key ∧ key ≤ KEY_Z then toupper c else c
  if (0x40 ≤ c ∧ c ≤ 0x5F) ∨ c = 0x3F then c ^^^ 0x40 else c

def swapCase (c : Byte) : Byte :=
  if isupper c then tolower c else if islower c then toupper c else c

/-- Through the controller or a triple fault, the machine starts again: the call does not return. -/
def hardReset : Call KbWorld := .error .diverges

/-- Loading a null stack segment is a protection fault, which ends on the crash screen. -/
def sysrq (c : Byte) (w : KbWorld) : Call KbWorld :=
  if c = 0x63 then .error (.panic "general protection fault")
  else if c = 0x67 then .ok w
  else if c = 0x72 then hardReset
  else .ok w

def keyChar (key : Nat) (kb : Kb) : Call Byte :=
  if kb.shift ≠ 0 ∧ 0x20 ≤ key ∧ key ≤ 0x60 then readMap keymapShift (key &&& 0x7F)
  else readMap keymap (key &&& 0xFF)

/-- From a key pressed to its characters. -/
def kbCharacter (i : KbIrq) (key : Nat) (w : KbWorld) : Call KbWorld := do
  let c ← keyChar key w.kb
  if c = 0 then .ok w
  else if c = 0xE0 ∨ (key = KEY_KP5 ∧ w.kb.numlk = 0) then kbPuts i (keySequence key) w
  else
    let c := if w.kb.ctrl ≠ 0 then controlChar key c else c
    if w.kb.sysrq ≠ 0 then sysrq c w
    else
      let c := if w.kb.capslk ≠ 0 ∧ w.kb.alt = 0 then swapCase c else c
      if w.kb.alt ≠ 0 then kbPuts i [0x1B, c] w else kbPutq i c w

/-! ## The interrupt handler -/

/-- `CTRL`+`ALT`+a function key asks the test code for a crash. -/
def noteCrashkey (key : Nat) (w : KbWorld) : KbWorld :=
  if w.kb.ctrl ≠ 0 ∧ w.kb.alt ≠ 0 ∧ isFnkey key = true ∧ w.crashkey = 0 then
    { w with crashkey := fnkeyIndex key }
  else w

/-- The keystrokes that mean something by themselves, and then the characters. -/
def kbPress (i : KbIrq) (key : Nat) (w : KbWorld) : Call KbWorld :=
  if w.kb.ctrl ≠ 0 ∧ w.kb.alt ≠ 0 ∧ (key = KEY_DELETE ∨ key = KEY_KPDOT) then hardReset
  else
    let w := noteCrashkey key w
    if w.kb.ctrl = 0 ∧ w.kb.alt ≠ 0 ∧ isFnkey key = true ∧ 1 ≤ fnkeyIndex key ∧
        fnkeyIndex key ≤ NR_TERMINAL then
      if i.switchTerminal (fnkeyIndex key) ≠ 0 then
        .error (.panic "unable to switch to terminal %d!")
      else .ok { w with terminals := w.terminals ++ [fnkeyIndex key] }
    else if w.kb.alt ≠ 0 ∧ isNumpad key = true then
      let digit : Byte := BitVec.ofNat 8 (numpadIndex key)
      .ok { w with kb := { w.kb with altchar := w.kb.altchar * 10 + digit } }
    else kbCharacter i key w

/-- The release of `ALT` submits the character code entered under it. -/
def kbKeystroke (i : KbIrq) (key : Nat) (release : Bool) (w : KbWorld) : Call KbWorld :=
  if isAlt key && release && w.kb.altchar != 0 then
    (kbPutq i w.kb.altchar w).map fun w => { w with kb := { w.kb with altchar := 0 } }
  else if release then .ok w
  else kbPress i key w

def kbKey (i : KbIrq) (key : Nat) (release : Bool) (w : KbWorld) : Call KbWorld := do
  let key := if w.kb.numlk = 0 then numlkOff key else key
  let w ← updateLeds { w with kb := kbToggles key release w.kb }
  kbKeystroke i key release { w with kb := kbModifiers key release w.kb }

/-- A byte that is no answer and no error: a prefix or the byte of a key. -/
def kbScancode (i : KbIrq) (w : KbWorld) : Call KbWorld := do
  assert (w.kb.scancodeSet == 1)
  if i.sc = 0xE0 then .ok { w with kb := { w.kb with e0 := true } }
  else if i.sc = 0xE1 then .ok { w with kb := { w.kb with e1 := true } }
  else do
    let (key, kb) ← kbDecode i.sc w.kb
    kbKey i key (isRelease i.sc) { w with kb := kb }

def kbByte (i : KbIrq) (w : KbWorld) : Call KbWorld :=
  if i.sc = 0xFA then .ok { w with kb := { w.kb with ackCount := w.kb.ackCount + 1 } }
  else if i.sc = 0xFE then .ok { w with kb := { w.kb with resendCount := w.kb.resendCount + 1 } }
  else if i.sc = 0xFC ∨ i.sc = 0xFD ∨ i.sc = 0xFF ∨ i.sc = 0x00 then
    .ok { w with kb := { w.kb with errorCount := w.kb.errorCount + 1 } }
  else kbScancode i w

def kbInterrupt (irq : Nat) (i : KbIrq) (w : KbWorld) : Call KbWorld := do
  assert (irq == IRQ_KEYBOARD)
  let w ← kbDisable { w with ps2 := i.ps2 }
  let w ← kbByte i w
  kbEnable w

end Ohwes

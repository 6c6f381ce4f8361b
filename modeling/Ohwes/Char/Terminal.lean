import Ohwes.Char.Tty
import Ohwes.Libc.Ctype

/-! # `kernel/char/terminal.c`: the virtual terminal

A terminal draws into a frame buffer of its own; what it does there is a list of accesses relative to
`framebuf`, the latest first. `Vt` is a terminal with that list and the VGA registers, which a
terminal programs only while it is the current one. The cursor has 12-bit coordinates, and `int` is
32 bits wide with two's complement arithmetic. Left out are the beep, which is a sound, and the
fields that belong to other layers (`tty`, `framebuf`, `initialized`). -/

namespace Ohwes
set_option autoImplicit false

def MAX_CSIPARAM : Nat := 16
def MAX_TABSTOP : Nat := 80
def TABSTOP_WIDTH : Nat := 8
def MAX_PRINTBUF : Nat := 4096

/-! ## The state -/

inductive TerminalState where
  | norm
  | esc
  | csi
  deriving DecidableEq, Repr

def VGA_BLACK : Byte := 0
def VGA_BLUE : Byte := 1
def VGA_GREEN : Byte := 2
def VGA_CYAN : Byte := 3
def VGA_RED : Byte := 4
def VGA_MAGENTA : Byte := 5
def VGA_YELLOW : Byte := 6
def VGA_WHITE : Byte := 7

/-- `struct _char_attr`. -/
structure CharAttr where
  fg : Byte
  bg : Byte
  bright : Bool
  faint : Bool
  italic : Bool
  underline : Bool
  blink : Bool
  invert : Bool
  deriving DecidableEq, Repr

/-- `struct _cursor`. -/
structure Cursor where
  shape : BitVec 16
  x : BitVec 12
  y : BitVec 12
  hidden : Bool
  deriving DecidableEq, Repr

/-- `struct terminal_save_state`. -/
structure SaveState where
  blinkOn : Bool
  tabstops : Nat → Byte
  attr : CharAttr
  cursor : Cursor

structure Terminal where
  number : Nat
  state : TerminalState
  printing : Bool
  cols : BitVec 16
  rows : BitVec 16
  tabstops : Nat → Byte
  csiparam : Nat → BitVec 32
  paramidx : Nat
  blinkOn : Bool
  needWrap : Bool
  attr : CharAttr
  cursor : Cursor
  defaultAttr : CharAttr
  defaultCursor : Cursor
  saved : SaveState

/-- What the terminal reads from and programs into the VGA registers. -/
structure Vga where
  cols : Byte
  rows : Byte
  cursorPos : BitVec 16
  cursorShape : BitVec 16
  cursorOn : Bool
  blink : Bool
  deriving DecidableEq, Repr

/-- An access to the frame buffer: a character or an attribute of a cell is written, or `n` cells
move. -/
inductive FbOp where
  | setChar (pos : BitVec 16) (ch : Byte)
  | setAttr (pos : BitVec 16) (attr : Byte)
  | move (dst src n : Nat)
  deriving DecidableEq, Repr

structure Vt where
  term : Terminal
  vga : Vga
  fb : List FbOp

/-! ## Frame buffer -/

/-- `struct vga_attr`. -/
structure VgaAttr where
  colorFg : BitVec 3
  bright : Bool
  colorBg : BitVec 3
  blink : Bool

def VgaAttr.value (v : VgaAttr) : Byte :=
  BitVec.ofBool v.blink ++ v.colorBg ++ BitVec.ofBool v.bright ++ v.colorFg

/-- The attribute of a cell in the VGA's terms. The colours are two bit fields of four bits, whose
highest bits are brightness and blinking. -/
def vgaAttr (attr : CharAttr) : VgaAttr :=
  let v : VgaAttr :=
    { colorFg := attr.fg.truncate 3, bright := attr.fg.getLsbD 3
      colorBg := attr.bg.truncate 3, blink := attr.bg.getLsbD 3 }
  let v := if attr.bright then { v with bright := true } else v
  let v := if attr.faint then { v with colorFg := VGA_BLACK.truncate 3, bright := true } else v
  let v := if attr.underline then { v with colorFg := VGA_CYAN.truncate 3, bright := attr.bright }
    else v
  let v := if attr.italic then { v with colorFg := VGA_GREEN.truncate 3, bright := attr.bright }
    else v
  let v := if attr.blink then { v with blink := true } else v
  if attr.invert then { v with colorBg := v.colorFg, colorFg := v.colorBg } else v

def setFbChar (s : Vt) (pos : BitVec 16) (c : Byte) : Vt := { s with fb := .setChar pos c :: s.fb }

def setFbAttr (s : Vt) (pos : BitVec 16) (attr : CharAttr) : Vt :=
  { s with fb := .setAttr pos (vgaAttr attr).value :: s.fb }

def SPACE : Byte := 0x20

/-- The loop that blanks `count` cells from `start` on. -/
def blankCells (s : Vt) (start : Nat) : Nat → Vt
  | 0 => s
  | count + 1 =>
    let pos := BitVec.ofNat 16 start
    blankCells (setFbAttr (setFbChar s pos SPACE) pos s.term.attr) (start + 1) count

def xy2pos (term : Terminal) (x y : BitVec 12) : BitVec 16 :=
  BitVec.ofNat 16 (y.toNat * term.cols.toNat + x.toNat)

/-! ## Setters -/

namespace Vt

def setState (s : Vt) (state : TerminalState) : Vt := { s with term := { s.term with state } }

def setPrinting (s : Vt) (printing : Bool) : Vt := { s with term := { s.term with printing } }

def setNeedWrap (s : Vt) (needWrap : Bool) : Vt := { s with term := { s.term with needWrap } }

def setCursor (s : Vt) (cursor : Cursor) : Vt := { s with term := { s.term with cursor } }

def setX (s : Vt) (x : BitVec 12) : Vt := s.setCursor { s.term.cursor with x }

def setY (s : Vt) (y : BitVec 12) : Vt := s.setCursor { s.term.cursor with y }

def setAttr (s : Vt) (attr : CharAttr) : Vt := { s with term := { s.term with attr } }

/-- The index is a column, and the screen has 80 in the mode that stage 2 sets; on a wider one the source
would store behind the array, which is not modelled. -/
def setTabstop (s : Vt) (i : Nat) (b : Byte) : Vt :=
  { s with term := { s.term with tabstops := Function.update s.term.tabstops i b } }

def setParam (s : Vt) (i : Nat) (v : BitVec 32) : Vt :=
  { s with term := { s.term with csiparam := Function.update s.term.csiparam i v } }

def setParamidx (s : Vt) (paramidx : Nat) : Vt := { s with term := { s.term with paramidx } }

def setBlinkOn (s : Vt) (blinkOn : Bool) : Vt := { s with term := { s.term with blinkOn } }

def setHidden (s : Vt) (hidden : Bool) : Vt := s.setCursor { s.term.cursor with hidden }

end Vt

/-! ## VGA features -/

def enableBlink (s : Vt) : Vt := { s with vga := { s.vga with blink := s.term.blinkOn } }

def enableCursor (s : Vt) : Vt :=
  { s with vga := { s.vga with cursorOn := !s.term.cursor.hidden } }

def setCursorPos (s : Vt) : Vt :=
  { s with vga := { s.vga with
    cursorPos := xy2pos s.term s.term.cursor.x s.term.cursor.y } }

/-- The scan lines have five bits. -/
def setCursorShape (s : Vt) : Vt :=
  { s with vga := { s.vga with cursorShape := s.term.cursor.shape &&& 0x1F1F } }

def updateVgaState (s : Vt) : Vt := setCursorPos (setCursorShape (enableCursor (enableBlink s)))

/-- Program the VGA if the terminal is the current one. -/
def ifCurrent (curr : Nat) (f : Vt → Vt) (s : Vt) : Vt := if s.term.number = curr then f s else s

/-! ## Cursor movement -/

/-- Move a coordinate back by `n`, no further than to 0. -/
def retreat (v : BitVec 12) (n : BitVec 32) : BitVec 12 :=
  if 0 < (v.zeroExtend 32 - n).toInt then (v.zeroExtend 32 - n).truncate 12 else 0

/-- Move a coordinate on by `n`, no further than to the last one below `bound`. -/
def advance (v : BitVec 12) (n : BitVec 32) (bound : BitVec 16) : BitVec 12 :=
  if (v.zeroExtend 32 + n).toInt < (bound.toNat : Int) - 1 then (v.zeroExtend 32 + n).truncate 12
  else BitVec.ofInt 12 ((bound.toNat : Int) - 1)

def cursorUp (s : Vt) (n : BitVec 32) : Vt := s.setY (retreat s.term.cursor.y n)

def cursorDown (s : Vt) (n : BitVec 32) : Vt := s.setY (advance s.term.cursor.y n s.term.rows)

def cursorLeft (s : Vt) (n : BitVec 32) : Vt := s.setX (retreat s.term.cursor.x n)

def cursorRight (s : Vt) (n : BitVec 32) : Vt := s.setX (advance s.term.cursor.x n s.term.cols)

/-- `n < 0` is reverse scroll. -/
def scroll (s : Vt) (n : Int) : Vt :=
  let reverse := n < 0
  let n := min n.natAbs s.term.rows.toNat
  if n = 0 then s
  else
    let nBlank := n * s.term.cols.toNat
    let nCells := s.term.rows.toNat * s.term.cols.toNat - nBlank
    let src := if reverse then 0 else nBlank
    let dst := if reverse then nBlank else 0
    blankCells { s with fb := .move dst src nCells :: s.fb } (if reverse then 0 else nCells) nBlank

def backspace (s : Vt) : Vt := (cursorLeft s 1).setNeedWrap false

def carriageReturn (s : Vt) : Vt := (s.setX 0).setNeedWrap false

def lineFeed (s : Vt) : Vt :=
  let s := s.setY (s.term.cursor.y + 1)
  let s :=
    if s.term.cursor.y.toNat ≥ s.term.rows.toNat then
      let s := scroll s 1
      s.setY (s.term.cursor.y - 1)
    else s
  s.setNeedWrap false

/-- The row is unsigned: after the decrement it is never below 0, and the branch that scrolls back
is never taken. -/
def reverseLinefeed (s : Vt) : Vt :=
  let s := s.setY (s.term.cursor.y - 1)
  let s :=
    if (s.term.cursor.y.toNat : Int) < 0 then
      let s := scroll s (-1)
      s.setY (s.term.cursor.y + 1)
    else s
  s.setNeedWrap false

/-- `tabstops[i]`. On a screen of 80 columns `tab` looks at index 80, which is the first byte of
`csiparam`. -/
def tabstopAt (term : Terminal) (i : Nat) : Byte :=
  if i < MAX_TABSTOP then term.tabstops i else (term.csiparam 0).truncate 8

/-- The loop of `tab`, with at most `fuel` columns to go. -/
def tabLoop (term : Terminal) : Nat → BitVec 12 → BitVec 12
  | 0, x => x
  | fuel + 1, x =>
    if x.toNat < term.cols.toNat then
      if tabstopAt term (x + 1).toNat ≠ 0 then x + 1 else tabLoop term fuel (x + 1)
    else x

/-- No row has more than 4096 columns, so the loop is over after as many steps. -/
def tab (s : Vt) : Vt :=
  let x := tabLoop s.term 4096 s.term.cursor.x
  s.setX (if x.toNat ≥ s.term.cols.toNat then BitVec.ofInt 12 ((s.term.cols.toNat : Int) - 1) else x)

/-! ## Erasing -/

def ERASE_DOWN : BitVec 32 := 0
def ERASE_UP : BitVec 32 := 1
def ERASE_ALL : BitVec 32 := 2

def erase (s : Vt) (mode : BitVec 32) : Vt :=
  let pos := (xy2pos s.term s.term.cursor.x s.term.cursor.y).toNat
  let area := s.term.rows.toNat * s.term.cols.toNat
  if mode = ERASE_DOWN then blankCells s pos (area - pos)
  else if mode = ERASE_UP then blankCells s 0 (pos + 1)
  else blankCells s 0 area

def eraseLine (s : Vt) (mode : BitVec 32) : Vt :=
  let pos := (xy2pos s.term s.term.cursor.x s.term.cursor.y).toNat
  let line := (xy2pos s.term 0 s.term.cursor.y).toNat
  let cols := s.term.cols.toNat
  if mode = ERASE_DOWN then blankCells s pos (cols - pos % cols)
  else if mode = ERASE_UP then blankCells s line (pos % cols + 1)
  else blankCells s line cols

/-! ## Saving, restoring and resetting -/

def terminalSave (term : Terminal) : SaveState :=
  { blinkOn := term.blinkOn, tabstops := term.tabstops, attr := term.attr, cursor := term.cursor }

def saveTerminal (s : Vt) : Vt := { s with term := { s.term with saved := terminalSave s.term } }

def terminalRestore (curr : Nat) (s : Vt) (save : SaveState) : Vt :=
  ifCurrent curr updateVgaState { s with term := { s.term with
    tabstops := save.tabstops, blinkOn := save.blinkOn, attr := save.attr, cursor := save.cursor } }

def restoreTerminal (curr : Nat) (s : Vt) : Vt := terminalRestore curr s s.term.saved

def saveCursor (s : Vt) : Vt :=
  { s with term := { s.term with saved := { s.term.saved with cursor := s.term.cursor } } }

def restoreCursor (curr : Nat) (s : Vt) : Vt :=
  ifCurrent curr updateVgaState (s.setCursor s.term.saved.cursor)

def defaultAttr : CharAttr :=
  { fg := VGA_WHITE, bg := VGA_BLACK, bright := false, faint := false, italic := false
    underline := false, blink := false, invert := false }

def terminalDefaults (vga : Vga) (term : Terminal) : Terminal :=
  let cursor : Cursor := { shape := vga.cursorShape, x := 0, y := 0, hidden := false }
  let term := { term with
    state := .norm
    cols := vga.cols.zeroExtend 16
    rows := vga.rows.zeroExtend 16
    tabstops := fun i => if (i + 1) % TABSTOP_WIDTH = 0 then 1 else 0
    csiparam := fun _ => -1
    paramidx := 0
    blinkOn := false
    needWrap := false
    attr := defaultAttr
    cursor := cursor
    defaultAttr := defaultAttr
    defaultCursor := cursor }
  { term with saved := terminalSave term }

def resetTerminal (curr : Nat) (s : Vt) : Vt :=
  ifCurrent curr updateVgaState (erase { s with term := terminalDefaults s.vga s.term } ERASE_ALL)

/-! ## Escape sequences -/

def CSI_COLORS : List Byte :=
  [VGA_BLACK, VGA_RED, VGA_GREEN, VGA_YELLOW, VGA_BLUE, VGA_MAGENTA, VGA_CYAN, VGA_WHITE]

/-- The colours of `csi_m`; `p` is a (signed) character. -/
def csiColor (defaults attr : CharAttr) (p : Int) : CharAttr :=
  if 30 ≤ p ∧ p ≤ 37 then { attr with fg := CSI_COLORS.getD (p - 30).toNat 0 }
  else if 40 ≤ p ∧ p ≤ 47 then { attr with bg := CSI_COLORS.getD (p - 40).toNat 0 }
  else if p = 39 then { attr with fg := defaults.fg }
  else if p = 49 then { attr with bg := defaults.bg }
  else if 90 ≤ p ∧ p ≤ 97 then
    { attr with fg := CSI_COLORS.getD (p - 90).toNat 0, bright := true }
  else if 100 ≤ p ∧ p ≤ 107 then
    { attr with bg := CSI_COLORS.getD (p - 100).toNat 0, bright := !attr.blink }
  else attr

def csiM (s : Vt) (p : Byte) : Vt :=
  let attr := s.term.attr
  s.setAttr <| match p.toInt with
    | 0 => s.term.defaultAttr
    | 1 => { attr with bright := true }
    | 2 => { attr with faint := true }
    | 3 => { attr with italic := true }
    | 4 => { attr with underline := true }
    | 5 => { attr with blink := true }
    | 7 => { attr with invert := true }
    | 22 => { attr with bright := false, faint := false }
    | 23 => { attr with italic := false }
    | 24 => { attr with underline := false }
    | 25 => { attr with blink := false }
    | 27 => { attr with invert := false }
    | p => csiColor s.term.defaultAttr attr p

def paramMinimum (i : Nat) (value : BitVec 32) (s : Vt) : Vt :=
  if (s.term.csiparam i).toInt < value.toInt then s.setParam i value else s

def paramMaximum (i : Nat) (value : BitVec 32) (s : Vt) : Vt :=
  if value.toInt < (s.term.csiparam i).toInt then s.setParam i value else s

/-- The loop over the parameters of `CSI m`, from parameter `i` on. -/
def csiMLoop (i : Nat) : Nat → Vt → Vt
  | 0, s => s
  | count + 1, s =>
    let s := paramMinimum i 0 s
    csiMLoop (i + 1) count (csiM s ((s.term.csiparam i).truncate 8))

/-- `CSI n` with a function that takes the first parameter, at least `value`. -/
def withParam (value : BitVec 32) (f : Vt → BitVec 32 → Vt) (s : Vt) : Vt :=
  let s := paramMinimum 0 value s
  f s (s.term.csiparam 0)

def cursorColumn (s : Vt) : Vt :=
  let s := paramMaximum 0 (s.term.cols.zeroExtend 32) (paramMinimum 0 1 s)
  s.setX ((s.term.csiparam 0 - 1).truncate 12)

def cursorPosition (s : Vt) : Vt :=
  let s := paramMinimum 1 1 (paramMinimum 0 1 s)
  let s := paramMaximum 0 (s.term.rows.zeroExtend 32) s
  let s := paramMaximum 1 (s.term.cols.zeroExtend 32) s
  (s.setY ((s.term.csiparam 0 - 1).truncate 12)).setX ((s.term.csiparam 1 - 1).truncate 12)

/-- The end of an escape or control sequence. -/
def seqDone (s : Vt) : Vt := (s.setNeedWrap false).setState .norm

/-- A digit of a parameter. -/
def paramDigit (s : Vt) (c : Byte) : Vt :=
  let i := s.term.paramidx
  let v := if s.term.csiparam i = -1 then 0 else s.term.csiparam i
  s.setParam i (v * 10 + (c.zeroExtend 32 - 48))

section Putchar
variable (curr : Nat)

def csi (s : Vt) (c : Byte) : Vt :=
  match toChar c with
  | 'A' => seqDone (withParam 1 cursorUp s)
  | 'B' => seqDone (withParam 1 cursorDown s)
  | 'C' => seqDone (withParam 1 cursorRight s)
  | 'D' => seqDone (withParam 1 cursorLeft s)
  | 'E' => seqDone (withParam 1 (fun s n => cursorDown (s.setX 0) n) s)
  | 'F' => seqDone (withParam 1 (fun s n => cursorUp (s.setX 0) n) s)
  | 'G' => seqDone (cursorColumn s)
  | 'H' => seqDone (cursorPosition s)
  | 'J' => seqDone (withParam 0 erase s)
  | 'K' => seqDone (withParam 0 eraseLine s)
  | 'S' => seqDone (withParam 1 (fun s n => scroll s n.toInt) s)
  | 'T' => seqDone (withParam 1 (fun s n => scroll s (-n.toInt)) s)
  | 'm' => seqDone (csiMLoop 0 (s.term.paramidx + 1) s)
  | 's' => seqDone (saveCursor s)
  | 'u' => seqDone (restoreCursor curr s)
  | ';' =>
    let s := s.setParamidx (s.term.paramidx + 1)
    if s.term.paramidx ≥ MAX_CSIPARAM then seqDone s else s
  | _ => if isdigit c then paramDigit s c else seqDone s

def esc (s : Vt) (c : Byte) : Vt :=
  match toChar c with
  | 'D' => seqDone (lineFeed s)
  | 'E' => seqDone (lineFeed (carriageReturn s))
  | 'H' => seqDone (s.setTabstop s.term.cursor.x.toNat 1)
  | 'M' => seqDone (reverseLinefeed s)
  | '[' => { s with term := { s.term with csiparam := fun _ => -1, paramidx := 0, state := .csi } }
  | '3' => seqDone (ifCurrent curr enableBlink (s.setBlinkOn false))
  | '4' => seqDone (ifCurrent curr enableBlink (s.setBlinkOn true))
  | '5' => seqDone (ifCurrent curr enableCursor (s.setHidden true))
  | '6' => seqDone (ifCurrent curr enableCursor (s.setHidden false))
  | '7' => seqDone (saveTerminal s)
  | '8' => seqDone (restoreTerminal curr s)
  | 'c' => seqDone (resetTerminal curr s)
  | 'h' => seqDone (s.setTabstop s.term.cursor.x.toNat 0)
  | _ => seqDone s

/-! ## `terminal_putchar` -/

/-- Faint overrides bright when a cell is written. -/
def fixAttr (s : Vt) : Vt :=
  if s.term.attr.bright && s.term.attr.faint then s.setAttr { s.term.attr with bright := false }
  else s

/-- Write a character at the cursor and move on; the last column is left only with the next
character. The position of the cursor on the display is not updated there. -/
def printChar (s : Vt) (c : Byte) : Vt :=
  let s := if s.term.needWrap then lineFeed (carriageReturn s) else s
  let pos := xy2pos s.term s.term.cursor.x s.term.cursor.y
  let s := s.setX (s.term.cursor.x + 1)
  if s.term.cursor.x.toNat ≥ s.term.cols.toNat then
    let s := (s.setX (s.term.cursor.x - 1)).setNeedWrap true
    let s := fixAttr (setFbChar s pos c)
    setFbAttr s pos s.term.attr
  else
    let s := fixAttr (setFbChar s pos c)
    ifCurrent curr setCursorPos (setFbAttr s pos s.term.attr)

/-- A control character, or a character that belongs to no sequence. -/
def putNormal (s : Vt) (c : Byte) : Vt :=
  if c = ASCII_BEL then ifCurrent curr setCursorPos s
  else if c = ASCII_BS then ifCurrent curr setCursorPos (backspace s)
  else if c = ASCII_HT then ifCurrent curr setCursorPos (tab s)
  else if c = ASCII_LF ∨ c = ASCII_VT ∨ c = ASCII_FF then ifCurrent curr setCursorPos (lineFeed s)
  else if c = ASCII_CR then ifCurrent curr setCursorPos (carriageReturn s)
  else if c = ASCII_CAN then s.setState .norm
  else if c = ASCII_ESC then s.setState .esc
  else if iscntrl c then s
  else printChar curr s c

/-- Control characters are handled in every state. -/
def putchar (s : Vt) (c : Byte) : Vt :=
  if iscntrl c then putNormal curr s c
  else match s.term.state with
  | .esc => ifCurrent curr setCursorPos (esc curr s c)
  | .csi => ifCurrent curr setCursorPos (csi curr s c)
  | .norm => putNormal curr s c

/-- A call while another one is under way drops the character. -/
def terminalPutchar (s : Vt) (c : Byte) : Nat × Vt :=
  if s.term.printing then (0, s)
  else (1, (putchar curr (s.setPrinting true) c).setPrinting false)

end Putchar

end Ohwes

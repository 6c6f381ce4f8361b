import Ohwes.Char.Terminal
import Ohwes.Char.TtyOpen
import Ohwes.I386.PagedMemory

/-! # `kernel/char/terminal.c`: frame buffers and switching

The terminals with their frame buffers. Behind the VGA's pages every terminal has pages of its own;
those of the terminal on display are mapped onto the VGA's. A terminal is named by its number, and `0`
names the current one. Left out are the registration of the driver and of the console and what they
print, which is written to a terminal like anything else. -/

namespace Ohwes
set_option autoImplicit false

def FB_SIZE_PAGES : Nat := 2
def FB_SIZE : Nat := FB_SIZE_PAGES <<< PAGE_SHIFT
def DEFAULT_VT : Nat := 1

/-- `struct vga_fb_info`. -/
structure VgaFbInfo where
  framebuf : Ptr
  sizePages : Nat

def VGA_MEMORY_128K : BitVec 2 := 0

/-- `vga_get_fb_info`, by the field of the VGA's register that selects the memory map. -/
def vgaGetFbInfo (fbSelect : BitVec 2) : VgaFbInfo :=
  match fbSelect.toNat with
  | 0 => { framebuf := 0xA0000, sizePages := 32 }
  | 1 => { framebuf := 0xA0000, sizePages := 16 }
  | 2 => { framebuf := 0xB0000, sizePages := 8 }
  | _ => { framebuf := 0xB8000, sizePages := 8 }

/-- `terms n`, `framebuf n` and `initialized n` are those of terminal `n`. -/
structure VtWorld where
  paged : PagedMemory
  fbSelect : BitVec 2
  vga : Vga
  terms : Nat → Terminal
  framebuf : Nat → Ptr
  initialized : Nat → Bool
  currterm : Nat
  tty : TtyWorld

namespace VtWorld
variable (w : VtWorld)

def setTerm (t : Nat) (term : Terminal) : VtWorld :=
  { w with terms := Function.update w.terms t term }

def setFramebuf (t : Nat) (fb : Ptr) : VtWorld :=
  { w with framebuf := Function.update w.framebuf t fb }

/-- A terminal that has not drawn anything yet. -/
def vt (t : Nat) : Vt := { term := w.terms t, vga := w.vga, fb := [] }

end VtWorld

/-! ## Terminals by number -/

def currentTerminal (w : VtWorld) : Call Nat :=
  if w.currterm = 0 ∨ w.currterm > NR_TERMINAL then .error (.panic "g_currterm is somehow %d!")
  else .ok w.currterm

def terminalNumber (w : VtWorld) (msg : String) (num : Int) : Call Nat :=
  if num < 0 ∨ num > NR_TERMINAL then .error (.panic msg)
  else if num = 0 then currentTerminal w
  else .ok num.toNat

def getTerminal (w : VtWorld) (num : Int) : Call Nat := do
  let num ← terminalNumber w "attempt to get nonexistant terminal %d!" num
  assert (!w.initialized num || (w.terms num).number == num)
  .ok num

def getVgaFb (w : VtWorld) : Ptr := kernelAddr (vgaGetFbInfo w.fbSelect).framebuf

def getTerminalFb (w : VtWorld) (num : Int) : Call Ptr := do
  let num ← terminalNumber w "attempt to get nonexistant terminal %d frame buffer!" num
  .ok (getVgaFb w + BitVec.ofNat 32 ((num * FB_SIZE_PAGES) <<< PAGE_SHIFT))

/-! ## Drawing -/

section Draw
variable (tbl : PageTable)

/-- An access to the frame buffer at `fb`. A cell is a character and an attribute. -/
def drawOp (fb : Ptr) (p : PagedMemory) : FbOp → Call PagedMemory
  | .setChar pos ch => p.store tbl (fb + BitVec.ofNat 32 (2 * pos.toNat)) ch
  | .setAttr pos attr => p.store tbl (fb + BitVec.ofNat 32 (2 * pos.toNat + 1)) attr
  | .move dst src n =>
    p.memmove tbl (fb + BitVec.ofNat 32 (2 * dst)) (fb + BitVec.ofNat 32 (2 * src)) (2 * n)

def drawAll (fb : Ptr) : List FbOp → PagedMemory → Call PagedMemory
  | [], p => .ok p
  | op :: ops, p => do
    let p ← drawOp tbl fb p op
    drawAll fb ops p

/-- What a function does to terminal `t`, with the accesses carried out. -/
def onTerminal (f : Vt → Vt) (t : Nat) (w : VtWorld) : Call VtWorld := do
  let s := f (w.vt t)
  let p ← drawAll tbl (w.framebuf t) s.fb.reverse w.paged
  .ok { w.setTerm t s.term with paged := p, vga := s.vga }

def putcharOn (t : Nat) (c : Byte) (w : VtWorld) : Call VtWorld :=
  onTerminal tbl (fun s => (terminalPutchar w.currterm s c).2) t w

/-- The loop of `terminal_print`. A character that is dropped is tried again. -/
def printChars (t : Nat) : List Byte → VtWorld → Call VtWorld
  | [], w => .ok w
  | c :: cs, w =>
    if (w.terms t).printing then .error .diverges
    else do
      let w ← putcharOn tbl t c w
      printChars t cs w

/-- Of a longer string only the first part is printed. -/
def terminalPrint (t : Nat) (str : CString) (w : VtWorld) : Call VtWorld :=
  printChars tbl t (str.take MAX_PRINTBUF) w

/-! ## Switching -/

variable (uart : Fin NR_SERIAL → Uart)

/-- The tty of a terminal is opened before the switch. -/
def openTerminalTty (num : Nat) (w : VtWorld) : Call VtWorld :=
  match getTty (mkdev TTY_MAJOR num) with
  | .error _ => .error (.panic "tty%d not found")
  | .ok i =>
    match ttyOpenInternal uart w.tty i with
    | .error h => .error h
    | .ok (ret, tty) =>
      if ret ≠ 0 then .error (.panic "could not switch terminals -- unable to open tty%d")
      else .ok { w with tty := tty }

/-- The part of the switch that works on the page table, with the identity mapping enabled: the old
frame buffer gets its own pages back and what is on display, and the new one goes on display. -/
def swapScreens (vga currFb nextFb : Ptr) (p : PagedMemory) : Call PagedMemory := do
  let p := { p with pgdir := Function.update p.pgdir 0 (mkpde tbl.addr PAGE_RW) }
  let p ← PagedMemory.mapPages tbl currFb currFb FB_SIZE_PAGES p
  let p ← PagedMemory.memcpy tbl FB_SIZE currFb vga p
  let p ← PagedMemory.memcpy tbl FB_SIZE vga nextFb p
  let p ← PagedMemory.mapPages tbl nextFb vga FB_SIZE_PAGES p
  .ok { p with pgdir := Function.update p.pgdir 0 0 }

def switchTerminal (num : Int) (w : VtWorld) : Call (Int × VtWorld) :=
  if num ≤ 0 ∨ num > NR_TERMINAL then .ok (-EINVAL, w)
  else do
    let curr ← getTerminal w 0
    let next ← getTerminal w num
    let w ← openTerminalTty uart num.toNat w
    let currFb ← getTerminalFb w (w.terms curr).number
    let nextFb ← getTerminalFb w (w.terms next).number
    let w := (w.setFramebuf curr currFb).setFramebuf next nextFb
    let p ← swapScreens tbl (vgaGetFbInfo w.fbSelect).framebuf (w.framebuf curr) (w.framebuf next)
      w.paged
    .ok (0, { w with
      paged := p
      vga := (updateVgaState (w.vt next)).vga
      currterm := (w.terms next).number })

/-! ## Initialization -/

def initializeTerminal (num t : Nat) (w : VtWorld) : Call VtWorld :=
  if w.initialized t then .ok w
  else do
    let fb ← getTerminalFb w num
    let term := { terminalDefaults w.vga (w.terms t) with number := num }
    .ok { (w.setTerm t term).setFramebuf t fb with
      initialized := Function.update w.initialized t true }

/-- The loop over the terminals. One is initialized already if the console was registered early. -/
def initTerminals : List Nat → VtWorld → Call VtWorld
  | [], w => .ok w
  | i :: is, w => do
    let t ← getTerminal w i
    if w.initialized t then initTerminals is w
    else do
      let w ← initializeTerminal i t w
      let w ← onTerminal tbl (fun s => erase s ERASE_ALL) t w
      initTerminals is w

def pos2xy (term : Terminal) (pos : BitVec 16) : Call Terminal :=
  if term.cols = 0 then .error .fault
  else .ok { term with cursor := { term.cursor with
    x := (pos % term.cols).truncate 12, y := (pos / term.cols).truncate 12 } }

/-- Terminal 1 is where the boot messages are: on display. -/
def restoreBoot (w : VtWorld) : Call VtWorld := do
  let t ← getTerminal w 1
  let term ← pos2xy (w.terms t) w.vga.cursorPos
  .ok ((w.setFramebuf t (getVgaFb w)).setTerm t term)

/-- The first switch. -/
def switchDefault (w : VtWorld) : Call VtWorld := do
  let x ← switchTerminal tbl uart DEFAULT_VT w
  if x.1 ≠ 0 then .error (.panic "unable to switch to terminal %d!") else .ok x.2

def initTerminal (w : VtWorld) : Call VtWorld :=
  let w := { w with fbSelect := VGA_MEMORY_128K }
  if (vgaGetFbInfo w.fbSelect).sizePages - FB_SIZE_PAGES < NR_TERMINAL * FB_SIZE_PAGES then
    .error (.panic "not enough video memory available")
  else do
    let w ← initTerminals tbl (List.range' 1 NR_TERMINAL) w
    let w ← restoreBoot w
    let w ← switchDefault tbl uart w
    let t ← getTerminal w DEFAULT_VT
    let w ← onTerminal tbl saveTerminal t w
    terminalPrint tbl t (ASCII_ESC :: 0x34 :: ASCII_ESC :: [0x36]) w

/-! ## Runs -/

/-- A terminal is switched to, or a character is written to one. -/
inductive VtOp where
  | switchTo (num : Int)
  | putchar (num : Int) (c : Byte)

def vtStep (w : VtWorld) : VtOp → Call VtWorld
  | .switchTo num => do
    let x ← switchTerminal tbl uart num w
    .ok x.2
  | .putchar num c => do
    let t ← getTerminal w num
    putcharOn tbl t c w

end Draw

end Ohwes

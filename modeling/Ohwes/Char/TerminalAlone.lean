import Ohwes.Char.Terminal

/-! # What a terminal draws depends on what is written to it

A terminal reads the dimensions of the screen from the VGA, and the shape of the cursor, which it keeps
and hands back. Two terminals that agree in all else (`DrawsAlike`) draw alike, on display or not. -/

namespace Ohwes
set_option autoImplicit false

def Cursor.plain (c : Cursor) : Cursor := { c with shape := 0 }

/-- A terminal without the shapes of its cursors. -/
def Terminal.plain (t : Terminal) : Terminal :=
  { t with
    cursor := t.cursor.plain
    defaultCursor := t.defaultCursor.plain
    saved := { t.saved with cursor := t.saved.cursor.plain } }

/-- Of the VGA only the dimensions are left. -/
def Vga.plain (v : Vga) : Vga :=
  { v with cursorPos := 0, cursorShape := 0, cursorOn := false, blink := false }

def Vt.plain (s : Vt) : Vt := { term := s.term.plain, vga := s.vga.plain, fb := s.fb }

namespace Vt
variable (s : Vt)

@[simp] theorem plain_state : s.plain.term.state = s.term.state := rfl
@[simp] theorem plain_printing : s.plain.term.printing = s.term.printing := rfl
@[simp] theorem plain_cols : s.plain.term.cols = s.term.cols := rfl
@[simp] theorem plain_rows : s.plain.term.rows = s.term.rows := rfl
@[simp] theorem plain_csiparam : s.plain.term.csiparam = s.term.csiparam := rfl
@[simp] theorem plain_paramidx : s.plain.term.paramidx = s.term.paramidx := rfl
@[simp] theorem plain_needWrap : s.plain.term.needWrap = s.term.needWrap := rfl
@[simp] theorem plain_attr : s.plain.term.attr = s.term.attr := rfl
@[simp] theorem plain_defaultAttr : s.plain.term.defaultAttr = s.term.defaultAttr := rfl
@[simp] theorem plain_x : s.plain.term.cursor.x = s.term.cursor.x := rfl
@[simp] theorem plain_y : s.plain.term.cursor.y = s.term.cursor.y := rfl
@[simp] theorem plain_fb : s.plain.fb = s.fb := rfl
@[simp] theorem plain_plain : s.plain.plain = s.plain := rfl

theorem plain_ite (c : Prop) [Decidable c] (a b : Vt) :
    (if c then a else b).plain = if c then a.plain else b.plain := apply_ite Vt.plain c a b

@[simp] theorem plain_setState (v : TerminalState) : (s.setState v).plain = s.plain.setState v := rfl
@[simp] theorem plain_setPrinting (v : Bool) : (s.setPrinting v).plain = s.plain.setPrinting v := rfl
@[simp] theorem plain_setNeedWrap (v : Bool) : (s.setNeedWrap v).plain = s.plain.setNeedWrap v := rfl
@[simp] theorem plain_setX (v : BitVec 12) : (s.setX v).plain = s.plain.setX v := rfl
@[simp] theorem plain_setY (v : BitVec 12) : (s.setY v).plain = s.plain.setY v := rfl
@[simp] theorem plain_setAttr (v : CharAttr) : (s.setAttr v).plain = s.plain.setAttr v := rfl
@[simp] theorem plain_setTabstop (i : Nat) (v : Byte) :
    (s.setTabstop i v).plain = s.plain.setTabstop i v := rfl
@[simp] theorem plain_setParam (i : Nat) (v : BitVec 32) :
    (s.setParam i v).plain = s.plain.setParam i v := rfl
@[simp] theorem plain_setParamidx (v : Nat) : (s.setParamidx v).plain = s.plain.setParamidx v := rfl
@[simp] theorem plain_setBlinkOn (v : Bool) : (s.setBlinkOn v).plain = s.plain.setBlinkOn v := rfl
@[simp] theorem plain_setHidden (v : Bool) : (s.setHidden v).plain = s.plain.setHidden v := rfl

end Vt

/-! ## Functions that leave the VGA alone -/

section Plain
variable (s : Vt)

theorem plain_blankCells (start count : Nat) :
    (blankCells s start count).plain = blankCells s.plain start count := by
  induction count generalizing s start with
  | zero => rfl
  | succ count ih =>
    rw [blankCells, blankCells, ih]
    rfl

theorem plain_cursorUp (n : BitVec 32) : (cursorUp s n).plain = cursorUp s.plain n := rfl
theorem plain_cursorDown (n : BitVec 32) : (cursorDown s n).plain = cursorDown s.plain n := rfl
theorem plain_cursorLeft (n : BitVec 32) : (cursorLeft s n).plain = cursorLeft s.plain n := rfl
theorem plain_cursorRight (n : BitVec 32) : (cursorRight s n).plain = cursorRight s.plain n := rfl

theorem plain_scroll (n : Int) : (scroll s n).plain = scroll s.plain n := by
  simp only [scroll, Vt.plain_ite, plain_blankCells]
  rfl

theorem plain_backspace : (backspace s).plain = backspace s.plain := rfl

theorem plain_carriageReturn : (carriageReturn s).plain = carriageReturn s.plain := rfl

theorem tabLoop_plain (term : Terminal) (fuel : Nat) (x : BitVec 12) :
    tabLoop term.plain fuel x = tabLoop term fuel x := by
  induction fuel generalizing x with
  | zero => rfl
  | succ fuel ih =>
    rw [tabLoop, tabLoop, ih]
    rfl

theorem plain_tab : (tab s).plain = tab s.plain := by
  have hx : tabLoop s.plain.term 4096 s.plain.term.cursor.x = tabLoop s.term 4096 s.term.cursor.x :=
    tabLoop_plain s.term 4096 s.term.cursor.x
  rw [tab, tab, hx]
  rfl

theorem plain_erase (mode : BitVec 32) : (erase s mode).plain = erase s.plain mode := by
  simp only [erase, Vt.plain_ite, plain_blankCells]
  rfl

theorem plain_eraseLine (mode : BitVec 32) : (eraseLine s mode).plain = eraseLine s.plain mode := by
  simp only [eraseLine, Vt.plain_ite, plain_blankCells]
  rfl

theorem plain_saveTerminal : (saveTerminal s).plain = saveTerminal s.plain := rfl

theorem plain_saveCursor : (saveCursor s).plain = saveCursor s.plain := rfl

theorem plain_csiM (p : Byte) : (csiM s p).plain = csiM s.plain p := rfl

theorem plain_paramMinimum (i : Nat) (v : BitVec 32) :
    (paramMinimum i v s).plain = paramMinimum i v s.plain := by
  rw [paramMinimum, paramMinimum, Vt.plain_ite]
  rfl

theorem plain_paramMaximum (i : Nat) (v : BitVec 32) :
    (paramMaximum i v s).plain = paramMaximum i v s.plain := by
  rw [paramMaximum, paramMaximum, Vt.plain_ite]
  rfl

theorem plain_seqDone : (seqDone s).plain = seqDone s.plain := rfl

theorem plain_paramDigit (c : Byte) : (paramDigit s c).plain = paramDigit s.plain c := rfl

theorem plain_fixAttr : (fixAttr s).plain = fixAttr s.plain := by
  rw [fixAttr, fixAttr, Vt.plain_ite]
  rfl

theorem plain_enableBlink : (enableBlink s).plain = s.plain := rfl

theorem plain_enableCursor : (enableCursor s).plain = s.plain := rfl

theorem plain_setCursorPos : (setCursorPos s).plain = s.plain := rfl

theorem plain_updateVgaState : (updateVgaState s).plain = s.plain := rfl

end Plain

/-! ## Terminals that agree -/

structure DrawsAlike (s s' : Vt) : Prop where
  plain : s.plain = s'.plain

namespace DrawsAlike
variable {s s' : Vt} (h : DrawsAlike s s')

theorem map {f : Vt → Vt} (hf : ∀ s, (f s).plain = f s.plain) (h : DrawsAlike s s') :
    DrawsAlike (f s) (f s') :=
  ⟨by rw [hf, hf, h.plain]⟩

include h

theorem fb : s.fb = s'.fb := (congrArg Vt.fb h.plain :)
theorem state : s.term.state = s'.term.state := congrArg (·.term.state) h.plain
theorem printing : s.term.printing = s'.term.printing := congrArg (·.term.printing) h.plain
theorem cols : s.term.cols = s'.term.cols := congrArg (·.term.cols) h.plain
theorem rows : s.term.rows = s'.term.rows := congrArg (·.term.rows) h.plain
theorem csiparam : s.term.csiparam = s'.term.csiparam := congrArg (·.term.csiparam) h.plain
theorem paramidx : s.term.paramidx = s'.term.paramidx := congrArg (·.term.paramidx) h.plain
theorem needWrap : s.term.needWrap = s'.term.needWrap := congrArg (·.term.needWrap) h.plain
theorem attr : s.term.attr = s'.term.attr := congrArg (·.term.attr) h.plain
theorem x : s.term.cursor.x = s'.term.cursor.x := congrArg (·.term.cursor.x) h.plain
theorem y : s.term.cursor.y = s'.term.cursor.y := congrArg (·.term.cursor.y) h.plain

theorem setX (v : BitVec 12) : DrawsAlike (s.setX v) (s'.setX v) := h.map (Vt.plain_setX · v)
theorem setY (v : BitVec 12) : DrawsAlike (s.setY v) (s'.setY v) := h.map (Vt.plain_setY · v)
theorem setState (v : TerminalState) : DrawsAlike (s.setState v) (s'.setState v) :=
  h.map (Vt.plain_setState · v)
theorem setPrinting (v : Bool) : DrawsAlike (s.setPrinting v) (s'.setPrinting v) :=
  h.map (Vt.plain_setPrinting · v)
theorem setNeedWrap (v : Bool) : DrawsAlike (s.setNeedWrap v) (s'.setNeedWrap v) :=
  h.map (Vt.plain_setNeedWrap · v)
theorem setParamidx (v : Nat) : DrawsAlike (s.setParamidx v) (s'.setParamidx v) :=
  h.map (Vt.plain_setParamidx · v)

theorem seqDone : DrawsAlike (seqDone s) (seqDone s') := h.map plain_seqDone

theorem lineFeed : DrawsAlike (lineFeed s) (lineFeed s') := by
  have h1 := h.setY (s.term.cursor.y + 1)
  rw [Ohwes.lineFeed, Ohwes.lineFeed, ← h.y]
  refine setNeedWrap ?_ false
  dsimp only
  rw [← h1.y, ← h1.rows]
  split
  · have h2 : DrawsAlike (scroll (s.setY (s.term.cursor.y + 1)) 1)
        (scroll (s'.setY (s.term.cursor.y + 1)) 1) := h1.map (plain_scroll · 1)
    rw [h2.y]
    exact h2.setY _
  · exact h1

theorem reverseLinefeed : DrawsAlike (reverseLinefeed s) (reverseLinefeed s') := by
  have h1 := h.setY (s.term.cursor.y - 1)
  rw [Ohwes.reverseLinefeed, Ohwes.reverseLinefeed, ← h.y]
  refine setNeedWrap ?_ false
  dsimp only
  rw [← h1.y]
  split
  · have h2 : DrawsAlike (scroll (s.setY (s.term.cursor.y - 1)) (-1))
        (scroll (s'.setY (s.term.cursor.y - 1)) (-1)) := h1.map (plain_scroll · (-1))
    rw [h2.y]
    exact h2.setY _
  · exact h1

theorem paramMinimum (i : Nat) (v : BitVec 32) : DrawsAlike (paramMinimum i v s) (paramMinimum i v s') :=
  h.map (plain_paramMinimum · i v)

theorem paramMaximum (i : Nat) (v : BitVec 32) : DrawsAlike (paramMaximum i v s) (paramMaximum i v s') :=
  h.map (plain_paramMaximum · i v)

theorem csiMLoop (i count : Nat) : DrawsAlike (csiMLoop i count s) (csiMLoop i count s') := by
  induction count generalizing i s s' with
  | zero => exact h
  | succ count ih =>
    have hmin := h.paramMinimum i 0
    rw [Ohwes.csiMLoop, Ohwes.csiMLoop, hmin.csiparam]
    exact ih (hmin.map (plain_csiM · _)) (i + 1)

theorem withParam (v : BitVec 32) {f : Vt → BitVec 32 → Vt}
    (hf : ∀ s n, (f s n).plain = f s.plain n) : DrawsAlike (withParam v f s) (withParam v f s') := by
  have hmin := h.paramMinimum 0 v
  rw [Ohwes.withParam, Ohwes.withParam, hmin.csiparam]
  exact hmin.map (hf · _)

theorem cursorColumn : DrawsAlike (cursorColumn s) (cursorColumn s') := by
  have hmax := (h.paramMinimum 0 1).paramMaximum 0 (s.term.cols.zeroExtend 32)
  rw [Ohwes.cursorColumn, Ohwes.cursorColumn, ← h.cols, hmax.csiparam]
  exact hmax.setX _

theorem cursorPosition : DrawsAlike (cursorPosition s) (cursorPosition s') := by
  have h1 := (h.paramMinimum 0 1).paramMinimum 1 1
  rw [Ohwes.cursorPosition, Ohwes.cursorPosition]
  generalize Ohwes.paramMinimum 1 1 (Ohwes.paramMinimum 0 1 s) = t at *
  generalize Ohwes.paramMinimum 1 1 (Ohwes.paramMinimum 0 1 s') = t' at *
  have h2 := h1.paramMaximum 0 (t.term.rows.zeroExtend 32)
  rw [← h1.rows]
  generalize Ohwes.paramMaximum 0 (t.term.rows.zeroExtend 32) t = u at *
  generalize Ohwes.paramMaximum 0 (t.term.rows.zeroExtend 32) t' = u' at *
  have h3 := h2.paramMaximum 1 (u.term.cols.zeroExtend 32)
  rw [← h2.cols, h3.csiparam]
  exact (h3.setY _).setX _

/-! On display or not: -/

theorem ifCurrent {g : Vt → Vt} (hg : ∀ s, (g s).plain = s.plain) (curr curr' : Nat) :
    DrawsAlike (ifCurrent curr g s) (ifCurrent curr' g s') := by
  have hplain : ∀ curr s, (Ohwes.ifCurrent curr g s).plain = s.plain := by
    intro curr s
    rw [Ohwes.ifCurrent, Vt.plain_ite, hg, ite_self]
  exact ⟨by rw [hplain, hplain, h.plain]⟩

theorem updated (curr curr' : Nat) :
    DrawsAlike (Ohwes.ifCurrent curr updateVgaState s) (Ohwes.ifCurrent curr' updateVgaState s') :=
  h.ifCurrent plain_updateVgaState curr curr'

theorem placed (curr curr' : Nat) :
    DrawsAlike (Ohwes.ifCurrent curr setCursorPos s) (Ohwes.ifCurrent curr' setCursorPos s') :=
  h.ifCurrent plain_setCursorPos curr curr'

theorem resetTerminal (curr curr' : Nat) :
    DrawsAlike (resetTerminal curr s) (resetTerminal curr' s') := by
  have hdefaults : DrawsAlike { s with term := terminalDefaults s.vga s.term }
      { s' with term := terminalDefaults s'.vga s'.term } :=
    h.map (f := fun s => { s with term := terminalDefaults s.vga s.term }) fun _ => rfl
  exact (hdefaults.map (plain_erase · ERASE_ALL)).updated curr curr'

theorem restoreTerminal (curr curr' : Nat) :
    DrawsAlike (restoreTerminal curr s) (restoreTerminal curr' s') := by
  refine updated ?_ curr curr'
  exact h.map (f := fun s => { s with term := { s.term with
    tabstops := s.term.saved.tabstops, blinkOn := s.term.saved.blinkOn, attr := s.term.saved.attr,
    cursor := s.term.saved.cursor } }) fun _ => rfl

theorem restoreCursor (curr curr' : Nat) :
    DrawsAlike (restoreCursor curr s) (restoreCursor curr' s') := by
  refine updated ?_ curr curr'
  exact h.map (f := fun s => s.setCursor s.term.saved.cursor) fun _ => rfl

theorem csi (curr curr' : Nat) (c : Byte) : DrawsAlike (csi curr s c) (csi curr' s' c) := by
  unfold Ohwes.csi
  split
  · exact (h.withParam 1 plain_cursorUp).seqDone
  · exact (h.withParam 1 plain_cursorDown).seqDone
  · exact (h.withParam 1 plain_cursorRight).seqDone
  · exact (h.withParam 1 plain_cursorLeft).seqDone
  · exact (h.withParam 1 fun s n => plain_cursorDown (s.setX 0) n).seqDone
  · exact (h.withParam 1 fun s n => plain_cursorUp (s.setX 0) n).seqDone
  · exact h.cursorColumn.seqDone
  · exact h.cursorPosition.seqDone
  · exact (h.withParam 0 plain_erase).seqDone
  · exact (h.withParam 0 plain_eraseLine).seqDone
  · exact (h.withParam 1 fun s n => plain_scroll s n.toInt).seqDone
  · exact (h.withParam 1 fun s n => plain_scroll s (-n.toInt)).seqDone
  · rw [h.paramidx]
    exact (h.csiMLoop 0 _).seqDone
  · exact (h.map plain_saveCursor).seqDone
  · exact (h.restoreCursor curr curr').seqDone
  · have hidx := h.setParamidx (s.term.paramidx + 1)
    rw [← h.paramidx]
    dsimp only
    rw [← hidx.paramidx]
    split
    · exact hidx.seqDone
    · exact hidx
  · split
    · exact h.map (plain_paramDigit · c)
    · exact h.seqDone

theorem esc (curr curr' : Nat) (c : Byte) : DrawsAlike (esc curr s c) (esc curr' s' c) := by
  unfold Ohwes.esc
  split
  · exact h.lineFeed.seqDone
  · exact (h.map plain_carriageReturn).lineFeed.seqDone
  · rw [h.x]
    exact (h.map (Vt.plain_setTabstop · _ 1)).seqDone
  · exact h.reverseLinefeed.seqDone
  · exact ⟨congrArg (fun s : Vt => { s with term := { s.term with
      csiparam := fun _ => -1, paramidx := 0, state := .csi } }) h.plain⟩
  · exact ((h.map (Vt.plain_setBlinkOn · false)).ifCurrent plain_enableBlink curr curr').seqDone
  · exact ((h.map (Vt.plain_setBlinkOn · true)).ifCurrent plain_enableBlink curr curr').seqDone
  · exact ((h.map (Vt.plain_setHidden · true)).ifCurrent plain_enableCursor curr curr').seqDone
  · exact ((h.map (Vt.plain_setHidden · false)).ifCurrent plain_enableCursor curr curr').seqDone
  · exact (h.map plain_saveTerminal).seqDone
  · exact (h.restoreTerminal curr curr').seqDone
  · exact (h.resetTerminal curr curr').seqDone
  · rw [h.x]
    exact (h.map (Vt.plain_setTabstop · _ 0)).seqDone
  · exact h.seqDone

/-- A cell is written. -/
theorem writeCell (pos : BitVec 16) (c : Byte) :
    DrawsAlike (setFbAttr (fixAttr (setFbChar s pos c)) pos (fixAttr (setFbChar s pos c)).term.attr)
      (setFbAttr (fixAttr (setFbChar s' pos c)) pos (fixAttr (setFbChar s' pos c)).term.attr) := by
  have hfix : DrawsAlike (fixAttr (setFbChar s pos c)) (fixAttr (setFbChar s' pos c)) :=
    h.map (f := fun s => fixAttr (setFbChar s pos c)) fun s => plain_fixAttr (setFbChar s pos c)
  rw [hfix.attr]
  exact ⟨congrArg (fun s : Vt => setFbAttr s pos _) hfix.plain⟩

theorem printChar (curr curr' : Nat) (c : Byte) :
    DrawsAlike (printChar curr s c) (printChar curr' s' c) := by
  have hwrap : DrawsAlike (if s.term.needWrap then Ohwes.lineFeed (carriageReturn s) else s)
      (if s'.term.needWrap then Ohwes.lineFeed (carriageReturn s') else s') := by
    rw [h.needWrap]
    split
    · exact (h.map plain_carriageReturn).lineFeed
    · exact h
  unfold Ohwes.printChar
  generalize (if s.term.needWrap then Ohwes.lineFeed (carriageReturn s) else s) = t at *
  generalize (if s'.term.needWrap then Ohwes.lineFeed (carriageReturn s') else s') = t' at *
  have hpos : xy2pos t.term t.term.cursor.x t.term.cursor.y =
      xy2pos t'.term t'.term.cursor.x t'.term.cursor.y := by
    rw [xy2pos, xy2pos, hwrap.x, hwrap.y, hwrap.cols]
  have hnext := hwrap.setX (t.term.cursor.x + 1)
  dsimp only
  rw [hpos, ← hwrap.x, ← hnext.x, ← hnext.cols]
  split
  · exact ((hnext.setX _).setNeedWrap true).writeCell _ c
  · exact (hnext.writeCell _ c).placed curr curr'

theorem putNormal (curr curr' : Nat) (c : Byte) :
    DrawsAlike (putNormal curr s c) (putNormal curr' s' c) := by
  unfold Ohwes.putNormal
  split_ifs
  · exact h.placed curr curr'
  · exact (h.map plain_backspace).placed curr curr'
  · exact (h.map plain_tab).placed curr curr'
  · exact h.lineFeed.placed curr curr'
  · exact (h.map plain_carriageReturn).placed curr curr'
  · exact h.setState .norm
  · exact h.setState .esc
  · exact h
  · exact h.printChar curr curr' c

theorem putchar (curr curr' : Nat) (c : Byte) : DrawsAlike (putchar curr s c) (putchar curr' s' c) := by
  unfold Ohwes.putchar
  rw [← h.state]
  split
  · exact h.putNormal curr curr' c
  · split
    · exact (h.esc curr curr' c).placed curr curr'
    · exact (h.csi curr curr' c).placed curr curr'
    · exact h.putNormal curr curr' c

/-- What a terminal does with a character, it does whatever the VGA shows. -/
theorem terminalPutchar (curr curr' : Nat) (c : Byte) :
    DrawsAlike (terminalPutchar curr s c).2 (terminalPutchar curr' s' c).2 := by
  unfold Ohwes.terminalPutchar
  rw [← h.printing]
  split
  · exact h
  · exact ((h.setPrinting true).putchar curr curr' c).setPrinting false

end DrawsAlike

/-! ## What a terminal is given

It changes neither the dimensions of the screen nor its number. -/

def Vt.given (s : Vt) : Vga × Nat := (s.vga.plain, s.term.number)

section Given
variable (s : Vt)

@[simp] theorem given_blankCells (start count : Nat) : (blankCells s start count).given = s.given := by
  induction count generalizing s start with
  | zero => rfl
  | succ count ih =>
    rw [blankCells, ih]
    rfl

@[simp] theorem given_scroll (n : Int) : (scroll s n).given = s.given := by
  simp only [scroll]
  split
  · rfl
  · rw [given_blankCells]
    rfl

theorem given_setX (v : BitVec 12) : (s.setX v).given = s.given := rfl

theorem given_setY (v : BitVec 12) : (s.setY v).given = s.given := rfl

theorem given_setNeedWrap (v : Bool) : (s.setNeedWrap v).given = s.given := rfl

@[simp] theorem given_lineFeed : (lineFeed s).given = s.given := by
  simp only [lineFeed, given_setNeedWrap, apply_ite Vt.given, given_setY, given_scroll, ite_self]

@[simp] theorem given_reverseLinefeed : (reverseLinefeed s).given = s.given := by
  simp only [reverseLinefeed, given_setNeedWrap, apply_ite Vt.given, given_setY, given_scroll, ite_self]

@[simp] theorem given_erase (mode : BitVec 32) : (erase s mode).given = s.given := by
  simp only [erase]
  split_ifs
  · exact given_blankCells ..
  · exact given_blankCells ..
  · exact given_blankCells ..

@[simp] theorem given_eraseLine (mode : BitVec 32) : (eraseLine s mode).given = s.given := by
  simp only [eraseLine]
  split_ifs
  · exact given_blankCells ..
  · exact given_blankCells ..
  · exact given_blankCells ..

@[simp] theorem given_paramMinimum (i : Nat) (v : BitVec 32) : (paramMinimum i v s).given = s.given := by
  rw [paramMinimum]
  split
  · rfl
  · rfl

@[simp] theorem given_paramMaximum (i : Nat) (v : BitVec 32) : (paramMaximum i v s).given = s.given := by
  rw [paramMaximum]
  split
  · rfl
  · rfl

@[simp] theorem given_csiMLoop (i count : Nat) : (csiMLoop i count s).given = s.given := by
  induction count generalizing i s with
  | zero => rfl
  | succ count ih =>
    rw [csiMLoop, ih]
    exact given_paramMinimum ..

theorem given_withParam (v : BitVec 32) {f : Vt → BitVec 32 → Vt} (hf : ∀ s n, (f s n).given = s.given) :
    (withParam v f s).given = s.given := by
  rw [withParam, hf, given_paramMinimum]

theorem given_ifCurrent {g : Vt → Vt} (hg : ∀ s, (g s).plain = s.plain) (curr : Nat) :
    (ifCurrent curr g s).given = s.given := by
  rw [ifCurrent]
  split
  · exact congrArg (fun s : Vt => (s.vga, s.term.number)) (hg s)
  · rfl

theorem given_seqDone : (seqDone s).given = s.given := rfl

theorem given_cursorColumn : (cursorColumn s).given = s.given := by
  simp only [cursorColumn, given_setX, given_paramMaximum, given_paramMinimum]

theorem given_cursorPosition : (cursorPosition s).given = s.given := by
  simp only [cursorPosition, given_setX, given_setY, given_paramMaximum, given_paramMinimum]

theorem given_csi (curr : Nat) (c : Byte) : (csi curr s c).given = s.given := by
  unfold csi
  split
  · rw [given_seqDone, given_withParam s 1 (f := cursorUp) fun _ _ => rfl]
  · rw [given_seqDone, given_withParam s 1 (f := cursorDown) fun _ _ => rfl]
  · rw [given_seqDone, given_withParam s 1 (f := cursorRight) fun _ _ => rfl]
  · rw [given_seqDone, given_withParam s 1 (f := cursorLeft) fun _ _ => rfl]
  · rw [given_seqDone, given_withParam s 1 (f := fun s n => cursorDown (s.setX 0) n) fun _ _ => rfl]
  · rw [given_seqDone, given_withParam s 1 (f := fun s n => cursorUp (s.setX 0) n) fun _ _ => rfl]
  · rw [given_seqDone, given_cursorColumn]
  · rw [given_seqDone, given_cursorPosition]
  · rw [given_seqDone, given_withParam s 0 given_erase]
  · rw [given_seqDone, given_withParam s 0 given_eraseLine]
  · rw [given_seqDone, given_withParam s 1 fun s n => given_scroll s n.toInt]
  · rw [given_seqDone, given_withParam s 1 fun s n => given_scroll s (-n.toInt)]
  · rw [given_seqDone, given_csiMLoop]
  · rfl
  · rw [given_seqDone]
    exact given_ifCurrent _ plain_updateVgaState curr
  · dsimp only
    split <;> rfl
  · split <;> rfl

theorem given_resetTerminal (curr : Nat) : (resetTerminal curr s).given = s.given :=
  (given_ifCurrent _ plain_updateVgaState curr).trans (given_erase _ ERASE_ALL)

theorem given_esc (curr : Nat) (c : Byte) : (esc curr s c).given = s.given := by
  unfold esc
  split
  · rw [given_seqDone, given_lineFeed]
  · rw [given_seqDone, given_lineFeed]
    rfl
  · rfl
  · rw [given_seqDone, given_reverseLinefeed]
  · rfl
  · rw [given_seqDone, given_ifCurrent _ plain_enableBlink]
    rfl
  · rw [given_seqDone, given_ifCurrent _ plain_enableBlink]
    rfl
  · rw [given_seqDone, given_ifCurrent _ plain_enableCursor]
    rfl
  · rw [given_seqDone, given_ifCurrent _ plain_enableCursor]
    rfl
  · rfl
  · rw [given_seqDone]
    exact given_ifCurrent _ plain_updateVgaState curr
  · rw [given_seqDone, given_resetTerminal]
  · rfl
  · rfl

theorem given_fixAttr : (fixAttr s).given = s.given := by
  rw [fixAttr]
  split <;> rfl

theorem given_printChar (curr : Nat) (c : Byte) : (printChar curr s c).given = s.given := by
  have hwrap : (if s.term.needWrap then lineFeed (carriageReturn s) else s).given = s.given := by
    split
    · exact given_lineFeed (carriageReturn s)
    · rfl
  rw [← hwrap, printChar]
  generalize (if s.term.needWrap then lineFeed (carriageReturn s) else s) = t
  dsimp only
  split
  · exact given_fixAttr _
  · exact (given_ifCurrent _ plain_setCursorPos curr).trans (given_fixAttr _)

theorem given_putNormal (curr : Nat) (c : Byte) : (putNormal curr s c).given = s.given := by
  unfold putNormal
  split_ifs
  · exact given_ifCurrent s plain_setCursorPos curr
  · exact given_ifCurrent (backspace s) plain_setCursorPos curr
  · exact given_ifCurrent (tab s) plain_setCursorPos curr
  · exact (given_ifCurrent _ plain_setCursorPos curr).trans (given_lineFeed s)
  · exact given_ifCurrent (carriageReturn s) plain_setCursorPos curr
  · rfl
  · rfl
  · rfl
  · exact given_printChar s curr c

theorem given_putchar (curr : Nat) (c : Byte) : (putchar curr s c).given = s.given := by
  unfold putchar
  split
  · exact given_putNormal s curr c
  · split
    · exact (given_ifCurrent _ plain_setCursorPos curr).trans (given_esc s curr c)
    · exact (given_ifCurrent _ plain_setCursorPos curr).trans (given_csi s curr c)
    · exact given_putNormal s curr c

theorem given_terminalPutchar (curr : Nat) (c : Byte) :
    (terminalPutchar curr s c).2.given = s.given := by
  unfold terminalPutchar
  split
  · rfl
  · exact given_putchar (s.setPrinting true) curr c

end Given

end Ohwes

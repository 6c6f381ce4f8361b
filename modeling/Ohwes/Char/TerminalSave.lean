import Ohwes.Char.TerminalBounds

/-! # Saving and restoring a terminal

`ESC 7` copies the attributes, the cursor, the tab stops and the blink mode, and `ESC 8` brings them
back. The copy is written by three sequences only, `ESC 7` itself, `ESC c` and `CSI s`; whatever else
comes in between leaves it alone, on a screen that is not wider than the array of tab stops. -/

namespace Ohwes
set_option autoImplicit false
open Library

/-- The character carries out a save or a reset. -/
def Saves (s : Vt) (c : Byte) : Prop :=
  s.term.printing = false ∧
    (s.term.state = .esc ∧ (toChar c = '7' ∨ toChar c = 'c') ∨ s.term.state = .csi ∧ toChar c = 's')

instance decidableSaves (s : Vt) (c : Byte) : Decidable (Saves s c) :=
  inferInstanceAs (Decidable (_ ∧ _))

/-- Attributes, cursor, tab stops and blink mode of `t` are those of `s`. -/
structure SameSettings (s t : Vt) : Prop where
  attr : t.term.attr = s.term.attr
  cursor : t.term.cursor = s.term.cursor
  tabstops : t.term.tabstops = s.term.tabstops
  blinkOn : t.term.blinkOn = s.term.blinkOn

/-! ## What leaves the copy alone -/

section Keeps
variable (s : Vt)

theorem programs_saved {f : Vt → Vt} (h : ProgramsVga f) (curr : Nat) :
    (ifCurrent curr f s).term.saved = s.term.saved :=
  congrArg Terminal.saved (h.ifCurrent curr s).1

@[simp] theorem seqDone_saved : (seqDone s).term.saved = s.term.saved := rfl

@[simp] theorem setX_saved (x : BitVec 12) : (s.setX x).term.saved = s.term.saved := rfl

@[simp] theorem setY_saved (y : BitVec 12) : (s.setY y).term.saved = s.term.saved := rfl

@[simp] theorem setNeedWrap_saved (b : Bool) : (s.setNeedWrap b).term.saved = s.term.saved := rfl

@[simp] theorem scroll_saved (n : Int) : (scroll s n).term.saved = s.term.saved :=
  congrArg Terminal.saved (scroll_term s n)

@[simp] theorem carriageReturn_saved : (carriageReturn s).term.saved = s.term.saved := rfl

@[simp] theorem lineFeed_saved : (lineFeed s).term.saved = s.term.saved := by
  unfold lineFeed
  dsimp only
  split
  · rw [setNeedWrap_saved, setY_saved, scroll_saved, setY_saved]
  · rfl

@[simp] theorem reverseLinefeed_saved : (reverseLinefeed s).term.saved = s.term.saved := by
  unfold reverseLinefeed
  dsimp only
  split
  · rw [setNeedWrap_saved, setY_saved, scroll_saved, setY_saved]
  · rfl

@[simp] theorem paramMinimum_saved (i : Nat) (v : BitVec 32) :
    (paramMinimum i v s).term.saved = s.term.saved := by
  unfold paramMinimum
  split
  · rfl
  · rfl

@[simp] theorem paramMaximum_saved (i : Nat) (v : BitVec 32) :
    (paramMaximum i v s).term.saved = s.term.saved := by
  unfold paramMaximum
  split
  · rfl
  · rfl

theorem withParam_saved (v : BitVec 32) {f : Vt → BitVec 32 → Vt}
    (hf : ∀ s n, (f s n).term.saved = s.term.saved) :
    (withParam v f s).term.saved = s.term.saved := by
  unfold withParam
  rw [hf, paramMinimum_saved]

theorem cursorColumn_saved : (cursorColumn s).term.saved = s.term.saved := by
  unfold cursorColumn
  rw [setX_saved, paramMaximum_saved, paramMinimum_saved]

theorem cursorPosition_saved : (cursorPosition s).term.saved = s.term.saved := by
  unfold cursorPosition
  rw [setX_saved, setY_saved, paramMaximum_saved, paramMaximum_saved, paramMinimum_saved,
    paramMinimum_saved]

theorem csiMLoop_saved (i count : Nat) : (csiMLoop i count s).term.saved = s.term.saved := by
  induction count generalizing i s with
  | zero => rfl
  | succ count ih =>
    have hset : ∀ (s : Vt) (p : Byte), (csiM s p).term.saved = s.term.saved := fun _ _ => rfl
    rw [csiMLoop, ih, hset, paramMinimum_saved]

theorem fixAttr_saved : (fixAttr s).term.saved = s.term.saved := by
  unfold fixAttr
  split
  · rfl
  · rfl

end Keeps

section Sequences
variable (curr : Nat) {s : Vt} {c : Byte}

theorem csi_saved (h : toChar c ≠ 's') : (csi curr s c).term.saved = s.term.saved := by
  unfold csi
  split
  case h_14 hs => exact absurd hs h
  case h_16 =>
    dsimp only
    split
    · rfl
    · rfl
  case h_17 =>
    split
    · rfl
    · rfl
  all_goals rw [seqDone_saved]
  · exact withParam_saved s 1 fun _ _ => rfl
  · exact withParam_saved s 1 fun _ _ => rfl
  · exact withParam_saved s 1 fun _ _ => rfl
  · exact withParam_saved s 1 fun _ _ => rfl
  · exact withParam_saved s 1 fun _ _ => rfl
  · exact withParam_saved s 1 fun _ _ => rfl
  · exact cursorColumn_saved s
  · exact cursorPosition_saved s
  · exact withParam_saved s 0 fun s n => congrArg Terminal.saved (erase_frame s n).1
  · exact withParam_saved s 0 fun s n => congrArg Terminal.saved (eraseLine_frame s n).1
  · exact withParam_saved s 1 fun s n => scroll_saved s n.toInt
  · exact withParam_saved s 1 fun s n => scroll_saved s (-n.toInt)
  · exact csiMLoop_saved s 0 _
  · exact programs_saved _ programs_updateVgaState curr

theorem esc_saved (h7 : toChar c ≠ '7') (hc : toChar c ≠ 'c') :
    (esc curr s c).term.saved = s.term.saved := by
  unfold esc
  split
  case h_10 hs => exact absurd hs h7
  case h_12 hs => exact absurd hs hc
  case h_5 => rfl
  all_goals rw [seqDone_saved]
  · exact lineFeed_saved s
  · exact lineFeed_saved (carriageReturn s)
  · rfl
  · exact reverseLinefeed_saved s
  · exact programs_saved _ programs_enableBlink curr
  · exact programs_saved _ programs_enableBlink curr
  · exact programs_saved _ programs_enableCursor curr
  · exact programs_saved _ programs_enableCursor curr
  · exact programs_saved _ programs_updateVgaState curr
  · rfl

theorem printChar_saved (s : Vt) (c : Byte) : (printChar curr s c).term.saved = s.term.saved := by
  have hwrap : (if s.term.needWrap then lineFeed (carriageReturn s) else s).term.saved =
      s.term.saved := by
    split
    · rw [lineFeed_saved, carriageReturn_saved]
    · rfl
  unfold printChar
  dsimp only
  generalize (if s.term.needWrap then lineFeed (carriageReturn s) else s) = m at hwrap
  split
  · show (fixAttr _).term.saved = _
    rw [fixAttr_saved]
    exact hwrap
  · rw [programs_saved _ programs_setCursorPos]
    show (fixAttr _).term.saved = _
    rw [fixAttr_saved]
    exact hwrap

theorem putNormal_saved (s : Vt) (c : Byte) : (putNormal curr s c).term.saved = s.term.saved := by
  unfold putNormal
  split_ifs
  · exact programs_saved _ programs_setCursorPos curr
  · exact programs_saved _ programs_setCursorPos curr
  · exact programs_saved _ programs_setCursorPos curr
  · rw [programs_saved _ programs_setCursorPos, lineFeed_saved]
  · exact programs_saved _ programs_setCursorPos curr
  · rfl
  · rfl
  · rfl
  · exact printChar_saved curr s c

/-- Any character but the three leaves the saved copy alone. -/
theorem terminalPutchar_saved (h : ¬ Saves s c) :
    (terminalPutchar curr s c).2.term.saved = s.term.saved := by
  unfold terminalPutchar
  by_cases hp : s.term.printing = true
  · rw [if_pos hp]
  · rw [if_neg hp]
    show (putchar curr (s.setPrinting true) c).term.saved = (s.setPrinting true).term.saved
    have hidle : s.term.printing = false := by simpa using hp
    unfold putchar
    split
    · exact putNormal_saved curr _ c
    · have hstate : (s.setPrinting true).term.state = s.term.state := rfl
      cases hs : s.term.state with
      | esc =>
        rw [hstate, hs]
        dsimp only
        rw [programs_saved _ programs_setCursorPos]
        exact esc_saved curr (fun h7 => h ⟨hidle, Or.inl ⟨hs, Or.inl h7⟩⟩)
          fun hc => h ⟨hidle, Or.inl ⟨hs, Or.inr hc⟩⟩
      | csi =>
        rw [hstate, hs]
        dsimp only
        rw [programs_saved _ programs_setCursorPos]
        exact csi_saved curr fun hc => h ⟨hidle, Or.inr ⟨hs, hc⟩⟩
      | norm =>
        rw [hstate, hs]
        exact putNormal_saved curr _ c

end Sequences

/-! ## From `ESC 7` to `ESC 8` -/

section Restore
variable (curr : Nat) {s : Vt}

/-- A string without saves and resets leaves the saved copy alone. -/
theorem putchars_saved {bytes : List Byte}
    (h : Throughout (putcharStep curr) (fun s c => ¬ Saves s c) s bytes) :
    (putchars curr s bytes).term.saved = s.term.saved := by
  have hstep : ∀ t c u, t.term.saved = s.term.saved → ¬ Saves t c → putcharStep curr t c = .ok u →
      u.term.saved = s.term.saved := by
    intro t c u ht hc hu
    cases hu
    rw [terminalPutchar_saved curr hc, ht]
  exact invariant_run hstep rfl h (run_putchars curr s bytes)

/-- `ESC 7` copies the settings and leaves them as they are. -/
theorem putchars_save (h : s.term.printing = false) :
    (putchars curr s (ctrl ASCII_ESC ['7'])).term.saved = terminalSave s.term ∧
      (putchars curr s (ctrl ASCII_ESC ['7'])).term.printing = false := by
  have hseq : ctrl ASCII_ESC ['7'] = [ASCII_ESC, 0x37] := by decide
  rw [hseq, putchars_escape curr h (by decide)]
  refine ⟨?_, rfl⟩
  show (ifCurrent curr setCursorPos (seqDone (saveTerminal _))).term.saved = _
  rw [programs_saved _ programs_setCursorPos, seqDone_saved]
  rfl

/-- `ESC 8` brings the saved settings back. -/
theorem putchars_restore (h : s.term.printing = false) {t : Vt}
    (hs : s.term.saved = terminalSave t.term) :
    SameSettings t (putchars curr s (ctrl ASCII_ESC ['8'])) := by
  have hseq : ctrl ASCII_ESC ['8'] = [ASCII_ESC, 0x38] := by decide
  rw [hseq, putchars_escape curr h (by decide)]
  have hset := fun u => (programs_setCursorPos.ifCurrent curr u).1
  have hupdate := fun u => (programs_updateVgaState.ifCurrent curr u).1
  have hterm : ∀ u : Vt, ((ifCurrent curr setCursorPos (seqDone
      (ifCurrent curr updateVgaState u))).setPrinting false).term =
        { u.term with needWrap := false, state := .norm, printing := false } := by
    intro u
    show { (ifCurrent curr setCursorPos (seqDone (ifCurrent curr updateVgaState u))).term with
      printing := false } = _
    rw [hset]
    show { (ifCurrent curr updateVgaState u).term with
      needWrap := false, state := .norm, printing := false } = _
    rw [hupdate]
  show SameSettings t ((ifCurrent curr setCursorPos (seqDone
    (ifCurrent curr updateVgaState _))).setPrinting false)
  constructor
  · rw [hterm]
    exact congrArg SaveState.attr hs
  · rw [hterm]
    exact congrArg SaveState.cursor hs
  · rw [hterm]
    exact congrArg SaveState.tabstops hs
  · rw [hterm]
    exact congrArg SaveState.blinkOn hs

/-- **Save and restore.** What `ESC 8` leaves are the settings at `ESC 7`, if no save and no reset has
been carried out in between. -/
theorem terminal_restored (s : Vt) (bytes : List Byte)
    (h : Throughout (putcharStep curr) (fun s c => ¬ Saves s c)
      (putchars curr s (ctrl ASCII_ESC ['7'])) bytes) :
    SameSettings s
      (putchars curr s (ctrl ASCII_ESC ['7'] ++ bytes ++ ctrl ASCII_ESC ['8'])) := by
  cases hp : s.term.printing with
  | true =>
    rw [putchars_printing curr hp]
    exact ⟨rfl, rfl, rfl, rfl⟩
  | false =>
    obtain ⟨hsaved, hidle⟩ := putchars_save curr hp
    have hkept := putchars_saved curr h
    rw [putchars_append, putchars_append]
    refine putchars_restore curr (putchars_idle curr hidle bytes) ?_
    rw [hkept, hsaved]

end Restore

/-- Text, colours, a tab stop, a hidden cursor and a sequence that is not finished. -/
def unsettlingBytes : List Byte :=
  text ['h', 'i'] ++ ctrl ASCII_ESC ['[', '3', '1', 'm'] ++ ctrl ASCII_ESC ['H'] ++
    ctrl ASCII_ESC ['5'] ++ ctrl ASCII_ESC ['4'] ++ [ASCII_LF] ++ ctrl ASCII_ESC ['[', '7', ';']

theorem terminal_restored_unsettled :
    SameSettings (defaultVt textVga (zeroTerminal 1))
      (putchars 1 (defaultVt textVga (zeroTerminal 1))
        (ctrl ASCII_ESC ['7'] ++ unsettlingBytes ++ ctrl ASCII_ESC ['8'])) :=
  terminal_restored 1 (defaultVt textVga (zeroTerminal 1)) unsettlingBytes (by decide +kernel)

end Ohwes

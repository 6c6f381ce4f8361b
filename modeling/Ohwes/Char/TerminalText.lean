import Mathlib.Tactic.Ring
import Ohwes.Char.TerminalCells
import Ohwes.Char.TerminalParams

/-! # Text with colour changes

A text of printable characters is written once with sequences that select a graphic rendition in
between and once without. A sequence clears the wrap that is pending in the last column, and one of
more than sixteen parameters is given up and its rest written as text. `colours_keep_text_iff` says that
these are the only two ways in which colour changes move text. -/

namespace Ohwes
set_option autoImplicit false
open Library

inductive TextItem where
  | char (c : Byte) (printable : iscntrl c = false)
  | sgr (p : Param) (ps : List Param)

def TextItem.text : TextItem → List Byte
  | .char c _ => [c]
  | .sgr p ps => csiText p ps 0x6D

def TextItem.chars : TextItem → List Byte
  | .char c _ => [c]
  | .sgr _ _ => []

def colouredText (items : List TextItem) : List Byte := items.flatMap TextItem.text

def plainText (items : List TextItem) : List Byte := items.flatMap TextItem.chars

/-- An access without its attribute. -/
def FbOp.uncoloured : FbOp → FbOp
  | .setAttr pos _ => .setAttr pos 0
  | op => op

/-- Every character has landed in the same cell, and the next one will. -/
structure SameText (s t : Vt) : Prop where
  cursor : s.term.cursor = t.term.cursor
  needWrap : s.term.needWrap = t.term.needWrap
  fb : s.fb.map FbOp.uncoloured = t.fb.map FbOp.uncoloured

/-- The column of the cursor; a wrap that is pending is one column further. -/
def pendingColumn (s : Vt) : Nat :=
  if s.term.needWrap then s.term.cols.toNat else s.term.cursor.x.toNat

/-- After `count` characters the last column has been written. -/
def FillsRow (s : Vt) (count : Nat) : Prop :=
  0 < pendingColumn s + count ∧ s.term.cols.toNat ∣ pendingColumn s + count

instance decidableFillsRow (s : Vt) (count : Nat) : Decidable (FillsRow s count) :=
  inferInstanceAs (Decidable (_ ∧ _))

/-! ## One character -/

/-- Write a cell. -/
def putCell (s : Vt) (pos : BitVec 16) (c : Byte) : Vt :=
  setFbAttr (fixAttr (setFbChar s pos c)) pos (fixAttr (setFbChar s pos c)).term.attr

theorem printChar_eq (curr : Nat) (s : Vt) (c : Byte) :
    printChar curr s c =
      if (wrapped s).term.cols.toNat ≤ ((wrapped s).term.cursor.x + 1).toNat then
        putCell (((wrapped s).setX ((wrapped s).term.cursor.x + 1 - 1)).setNeedWrap true)
          (xy2pos (wrapped s).term (wrapped s).term.cursor.x (wrapped s).term.cursor.y) c
      else ifCurrent curr setCursorPos (putCell ((wrapped s).setX ((wrapped s).term.cursor.x + 1))
        (xy2pos (wrapped s).term (wrapped s).term.cursor.x (wrapped s).term.cursor.y) c) := rfl

theorem putCell_term (s : Vt) (pos : BitVec 16) (c : Byte) :
    ∃ attr, (putCell s pos c).term = { s.term with attr } := by
  unfold putCell fixAttr
  split
  · exact ⟨_, rfl⟩
  · exact ⟨s.term.attr, rfl⟩

theorem putCell_fb (s : Vt) (pos : BitVec 16) (c : Byte) :
    ∃ attr, (putCell s pos c).fb = .setAttr pos attr :: .setChar pos c :: s.fb := by
  unfold putCell fixAttr
  split
  · exact ⟨_, rfl⟩
  · exact ⟨_, rfl⟩

theorem putNormal_char (curr : Nat) (s : Vt) {c : Byte} (hc : iscntrl c = false) :
    putNormal curr s c = printChar curr s c := by
  have hne : ∀ d : Byte, iscntrl d = true → c ≠ d := by
    rintro d hd rfl
    rw [hc] at hd
    cases hd
  unfold putNormal
  rw [if_neg (hne _ rfl), if_neg (hne _ rfl), if_neg (hne _ rfl),
    if_neg (not_or.mpr ⟨hne _ rfl, not_or.mpr ⟨hne _ rfl, hne _ rfl⟩⟩), if_neg (hne _ rfl),
    if_neg (hne _ rfl), if_neg (hne _ rfl), hc, if_neg Bool.false_ne_true]

theorem terminalPutchar_char (curr : Nat) {s : Vt} (hstate : s.term.state = .norm)
    (hprinting : s.term.printing = false) {c : Byte} (hc : iscntrl c = false) :
    (terminalPutchar curr s c).2 = (printChar curr (s.setPrinting true) c).setPrinting false := by
  have hs : (s.setPrinting true).term.state = .norm := hstate
  unfold terminalPutchar
  rw [hprinting]
  show (putchar curr (s.setPrinting true) c).setPrinting false = _
  unfold putchar
  rw [hc, hs, ← putNormal_char curr _ hc]
  rfl

theorem lineFeed_eq (s : Vt) :
    lineFeed s = if s.term.rows.toNat ≤ (s.term.cursor.y + 1).toNat then
      ((scroll s 1).setY (s.term.cursor.y + 1 - 1)).setNeedWrap false
    else (s.setY (s.term.cursor.y + 1)).setNeedWrap false := by
  unfold lineFeed
  dsimp only
  rw [scroll_setY]
  by_cases h : s.term.rows.toNat ≤ (s.term.cursor.y + 1).toNat
  · rw [if_pos h]
    exact congrArg (Vt.setNeedWrap · false) (if_pos h)
  · rw [if_neg h]
    exact congrArg (Vt.setNeedWrap · false) (if_neg h)

/-- A line feed scrolls or goes to the next row. -/
theorem lineFeed_term (s : Vt) :
    ∃ y, (lineFeed s).term =
      { s.term with cursor := { s.term.cursor with y }, needWrap := false } := by
  rw [lineFeed_eq]
  split
  · refine ⟨s.term.cursor.y + 1 - 1, ?_⟩
    unfold Vt.setNeedWrap Vt.setY Vt.setCursor
    dsimp only
    rw [scroll_term]
  · exact ⟨_, rfl⟩

theorem wrapped_term (s : Vt) :
    ∃ y, (wrapped s).term = { s.term with
      needWrap := false
      cursor := { s.term.cursor with x := if s.term.needWrap then 0 else s.term.cursor.x, y } } := by
  unfold wrapped
  cases hw : s.term.needWrap with
  | true =>
    obtain ⟨y, hy⟩ := lineFeed_term (carriageReturn s)
    refine ⟨y, ?_⟩
    rw [if_pos rfl, hy]
    rfl
  | false =>
    refine ⟨s.term.cursor.y, ?_⟩
    rw [if_neg Bool.false_ne_true, if_neg Bool.false_ne_true, ← hw]

/-- What is in the frame buffer after a scroll by one row. -/
theorem scroll_one_fb (s : Vt) (hrows : 0 < s.term.rows.toNat) :
    ∃ start, (scroll s 1).fb =
      (blankOps s.term.attr start s.term.cols.toNat).reverse ++
        .move 0 s.term.cols.toNat start :: s.fb := by
  have hmin : min (1 : Int).natAbs s.term.rows.toNat = 1 := Nat.min_eq_left hrows
  unfold scroll
  dsimp only
  rw [hmin, if_neg Nat.one_ne_zero, Nat.one_mul, blankCells_fb]
  exact ⟨_, rfl⟩

/-! ## Terminals that differ in their colours -/

/-- A terminal without its colours and without what the parser has read. -/
def Vt.uncoloured (s : Vt) : Vt :=
  { term := { s.term with attr := defaultAttr, csiparam := fun _ => 0, paramidx := 0 }
    vga := { s.vga with cursorPos := 0 }
    fb := s.fb.map FbOp.uncoloured }

structure Recoloured (s t : Vt) : Prop where
  uncoloured : s.uncoloured = t.uncoloured

namespace Recoloured
variable {s t u : Vt}

theorem refl (s : Vt) : Recoloured s s := ⟨rfl⟩

theorem symm (h : Recoloured s t) : Recoloured t s := ⟨h.uncoloured.symm⟩

theorem trans (h : Recoloured s t) (h' : Recoloured t u) : Recoloured s u :=
  ⟨h.uncoloured.trans h'.uncoloured⟩

theorem setAttr (s : Vt) (attr : CharAttr) : Recoloured (s.setAttr attr) s := ⟨rfl⟩

theorem setParam (s : Vt) (i : Nat) (v : BitVec 32) : Recoloured (s.setParam i v) s := ⟨rfl⟩

theorem placed (curr : Nat) (s : Vt) : Recoloured (ifCurrent curr setCursorPos s) s := by
  unfold ifCurrent
  split
  · exact ⟨rfl⟩
  · exact refl s

theorem fixAttr (s : Vt) : Recoloured (fixAttr s) s := by
  unfold Ohwes.fixAttr
  split
  · exact setAttr s _
  · exact refl s

theorem csiMLoop (i count : Nat) (s : Vt) : Recoloured (csiMLoop i count s) s := by
  induction count generalizing i s with
  | zero => exact refl s
  | succ count ih =>
    have hmin : Recoloured (paramMinimum i 0 s) s := by
      unfold paramMinimum
      split
      · exact setParam s i 0
      · exact refl s
    exact (ih (i + 1) _).trans ((setAttr (paramMinimum i 0 s) _).trans hmin)

section Fields
variable (h : Recoloured s t)
include h

theorem fb : s.fb.map FbOp.uncoloured = t.fb.map FbOp.uncoloured := congrArg Vt.fb h.uncoloured

theorem state : s.term.state = t.term.state := congrArg (·.term.state) h.uncoloured

theorem printing : s.term.printing = t.term.printing := congrArg (·.term.printing) h.uncoloured

theorem cols : s.term.cols = t.term.cols := congrArg (·.term.cols) h.uncoloured

theorem rows : s.term.rows = t.term.rows := congrArg (·.term.rows) h.uncoloured

theorem needWrap : s.term.needWrap = t.term.needWrap := congrArg (·.term.needWrap) h.uncoloured

theorem cursor : s.term.cursor = t.term.cursor := congrArg (·.term.cursor) h.uncoloured

theorem sameText : SameText s t := ⟨h.cursor, h.needWrap, h.fb⟩

theorem setState (v : TerminalState) : Recoloured (s.setState v) (t.setState v) :=
  ⟨congrArg (Vt.setState · v) h.uncoloured⟩

theorem setPrinting (v : Bool) : Recoloured (s.setPrinting v) (t.setPrinting v) :=
  ⟨congrArg (Vt.setPrinting · v) h.uncoloured⟩

theorem setNeedWrap (v : Bool) : Recoloured (s.setNeedWrap v) (t.setNeedWrap v) :=
  ⟨congrArg (Vt.setNeedWrap · v) h.uncoloured⟩

theorem setX (v : BitVec 12) : Recoloured (s.setX v) (t.setX v) :=
  ⟨congrArg (Vt.setX · v) h.uncoloured⟩

theorem setY (v : BitVec 12) : Recoloured (s.setY v) (t.setY v) :=
  ⟨congrArg (Vt.setY · v) h.uncoloured⟩

theorem access {op op' : FbOp} (hop : op.uncoloured = op'.uncoloured) :
    Recoloured { s with fb := op :: s.fb } { t with fb := op' :: t.fb } := by
  refine ⟨?_⟩
  show ({ s.uncoloured with fb := op.uncoloured :: s.uncoloured.fb } : Vt) =
    { t.uncoloured with fb := op'.uncoloured :: t.uncoloured.fb }
  rw [hop, h.uncoloured]

theorem setFbChar (pos : BitVec 16) (c : Byte) :
    Recoloured (setFbChar s pos c) (setFbChar t pos c) := h.access rfl

theorem setFbAttr (pos : BitVec 16) (attr attr' : CharAttr) :
    Recoloured (setFbAttr s pos attr) (setFbAttr t pos attr') := h.access rfl

theorem blankCells (start count : Nat) :
    Recoloured (blankCells s start count) (blankCells t start count) := by
  induction count generalizing s t start with
  | zero => exact h
  | succ count ih => exact ih ((h.setFbChar _ SPACE).setFbAttr _ _ _) (start + 1)

theorem scroll (n : Int) : Recoloured (scroll s n) (scroll t n) := by
  unfold Ohwes.scroll
  dsimp only
  rw [h.rows, h.cols]
  split
  · exact h
  · exact (h.access rfl).blankCells _ _

theorem carriageReturn : Recoloured (carriageReturn s) (carriageReturn t) :=
  (h.setX 0).setNeedWrap false

theorem lineFeed : Recoloured (lineFeed s) (lineFeed t) := by
  have hy : s.term.cursor.y = t.term.cursor.y := congrArg Cursor.y h.cursor
  have h1 := h.setY (s.term.cursor.y + 1)
  unfold Ohwes.lineFeed
  dsimp only
  rw [← hy, ← (congrArg Cursor.y h1.cursor), ← h1.rows]
  refine setNeedWrap ?_ false
  split
  · have h2 := h1.scroll 1
    rw [← (congrArg Cursor.y h2.cursor)]
    exact h2.setY _
  · exact h1

theorem wrapped : Recoloured (wrapped s) (wrapped t) := by
  unfold Ohwes.wrapped
  rw [h.needWrap]
  split
  · exact h.carriageReturn.lineFeed
  · exact h

theorem putCell (pos : BitVec 16) (c : Byte) : Recoloured (putCell s pos c) (putCell t pos c) := by
  have hchar := h.setFbChar pos c
  have hfix := (fixAttr (Ohwes.setFbChar s pos c)).trans
    (hchar.trans (fixAttr (Ohwes.setFbChar t pos c)).symm)
  exact hfix.setFbAttr pos _ _

theorem printChar (curr : Nat) (c : Byte) :
    Recoloured (printChar curr s c) (printChar curr t c) := by
  have hw := h.wrapped
  rw [printChar_eq, printChar_eq]
  generalize Ohwes.wrapped s = m at hw
  generalize Ohwes.wrapped t = n at hw
  unfold Ohwes.xy2pos
  rw [hw.cursor, hw.cols]
  split
  · exact ((hw.setX _).setNeedWrap true).putCell _ c
  · exact (placed curr _).trans (((hw.setX _).putCell _ c).trans (placed curr _).symm)

end Fields

end Recoloured

/-! ## A character of a text -/

/-- The terminal takes text on a screen of `C` columns and `R` rows. -/
structure Typing (C R : Nat) (s : Vt) : Prop where
  state : s.term.state = .norm
  printing : s.term.printing = false
  cols : s.term.cols.toNat = C
  rows : s.term.rows.toNat = R
  x_lt : s.term.cursor.x.toNat < C
  wrap : s.term.needWrap = true → s.term.cursor.x.toNat = C - 1

section Characters
variable {C R curr : Nat} {s t : Vt} {c : Byte}

theorem Typing.recoloured (h : Typing C R t) (hst : Recoloured s t) : Typing C R s where
  state := hst.state.trans h.state
  printing := hst.printing.trans h.printing
  cols := hst.cols ▸ h.cols
  rows := hst.rows ▸ h.rows
  x_lt := hst.cursor ▸ h.x_lt
  wrap := by
    rw [hst.needWrap, hst.cursor]
    exact h.wrap

theorem Typing.rows_pos (h : Typing C R s) (hR : 0 < R) :
    0 < (s.setPrinting true).term.rows.toNat := by
  show 0 < s.term.rows.toNat
  rw [h.rows]
  exact hR

theorem Recoloured.typed (h : Recoloured s t) (hs : Typing C R s) (hc : iscntrl c = false) :
    Recoloured (terminalPutchar curr s c).2 (terminalPutchar curr t c).2 := by
  have ht : Typing C R t := hs.recoloured h.symm
  rw [terminalPutchar_char curr hs.state hs.printing hc,
    terminalPutchar_char curr ht.state ht.printing hc]
  exact ((h.setPrinting true).printChar curr c).setPrinting false

/-- The column of the next character. -/
def landingColumn (s : Vt) : Nat := if s.term.needWrap then 0 else s.term.cursor.x.toNat

theorem Typing.landing_lt (h : Typing C R s) : landingColumn s < C := by
  have hlt := h.x_lt
  unfold landingColumn
  split
  · exact Nat.zero_lt_of_lt hlt
  · exact hlt

/-- A pending wrap is one column past the last one. -/
theorem Typing.pending_mod (h : Typing C R s) : pendingColumn s % C = landingColumn s := by
  unfold pendingColumn landingColumn
  rw [h.cols]
  split
  · exact Nat.mod_self C
  · exact Nat.mod_eq_of_lt h.x_lt

theorem typed_term (curr : Nat) (h : Typing C R s) (hC : C < 4096) (hc : iscntrl c = false) :
    ∃ x y attr, (terminalPutchar curr s c).2.term = { s.term with
        attr
        needWrap := decide (C ≤ landingColumn s + 1)
        cursor := { s.term.cursor with x, y } } ∧
      BitVec.toNat x = min (landingColumn s + 1) (C - 1) := by
  obtain ⟨y, hm⟩ := wrapped_term (s.setPrinting true)
  have hlt := h.landing_lt
  have hx : (wrapped (s.setPrinting true)).term.cursor.x.toNat = landingColumn s := by
    rw [hm]
    exact apply_ite BitVec.toNat _ _ _
  have hcols : (wrapped (s.setPrinting true)).term.cols.toNat = C := by
    rw [hm]
    exact h.cols
  have hm' : ∀ x needWrap attr, ({ (wrapped (s.setPrinting true)).term with
      printing := false, needWrap, attr
      cursor := { (wrapped (s.setPrinting true)).term.cursor with x } } : Terminal) = { s.term with
        attr, needWrap, cursor := { s.term.cursor with x, y } } := by
    intro x needWrap attr
    rw [hm, ← h.printing]
    rfl
  have hclear : (wrapped (s.setPrinting true)).term.needWrap = false := by rw [hm]
  rw [terminalPutchar_char curr h.state h.printing hc, printChar_eq]
  generalize landingColumn s = x0 at *
  generalize wrapped (s.setPrinting true) = m at *
  have hsucc : (m.term.cursor.x + 1).toNat = x0 + 1 := by
    rw [BitVec.toNat_add, hx]
    show (x0 + 1) % 4096 = x0 + 1
    omega
  rw [hcols, hsucc]
  by_cases hfull : C ≤ x0 + 1
  · obtain ⟨attr, hput⟩ := putCell_term ((m.setX (m.term.cursor.x + 1 - 1)).setNeedWrap true)
      (xy2pos m.term m.term.cursor.x m.term.cursor.y) c
    refine ⟨m.term.cursor.x + 1 - 1, y, attr, ?_, ?_⟩
    · rw [if_pos hfull, decide_eq_true hfull, ← hm']
      unfold Vt.setPrinting
      rw [hput]
      rfl
    · have hback : m.term.cursor.x + 1 - 1 = m.term.cursor.x := by bv_omega
      rw [hback, hx]
      omega
  · obtain ⟨attr, hput⟩ := putCell_term (m.setX (m.term.cursor.x + 1))
      (xy2pos m.term m.term.cursor.x m.term.cursor.y) c
    refine ⟨m.term.cursor.x + 1, y, attr, ?_, ?_⟩
    · rw [if_neg hfull, decide_eq_false hfull, ← hm', ← hclear]
      unfold Vt.setPrinting
      rw [(programs_setCursorPos.ifCurrent curr _).1, hput]
      rfl
    · rw [hsucc]
      omega

theorem Typing.typed (h : Typing C R s) (hC : C < 4096) (hc : iscntrl c = false) :
    Typing C R (terminalPutchar curr s c).2 := by
  obtain ⟨x, y, attr, hterm, hx⟩ := typed_term curr h hC hc
  have hlt := h.landing_lt
  refine ⟨?_, ?_, ?_, ?_, ?_, ?_⟩
  · rw [hterm]
    exact h.state
  · rw [hterm]
    exact h.printing
  · rw [hterm]
    exact h.cols
  · rw [hterm]
    exact h.rows
  · rw [hterm]
    show x.toNat < C
    omega
  · rw [hterm]
    intro hwrap
    have hfull := of_decide_eq_true hwrap
    show x.toNat = C - 1
    omega

theorem typed_column (h : Typing C R s) (hC : C < 4096) (hc : iscntrl c = false) :
    pendingColumn (terminalPutchar curr s c).2 = pendingColumn s % C + 1 := by
  obtain ⟨x, y, attr, hterm, hx⟩ := typed_term curr h hC hc
  have hlt := h.landing_lt
  unfold pendingColumn
  rw [hterm]
  show (if decide (C ≤ landingColumn s + 1) = true then s.term.cols.toNat else x.toNat) =
    pendingColumn s % C + 1
  rw [h.cols, h.pending_mod, hx]
  by_cases hfull : C ≤ landingColumn s + 1
  · rw [decide_eq_true hfull, if_pos rfl]
    omega
  · rw [decide_eq_false hfull, if_neg Bool.false_ne_true]
    omega

/-- After some characters a wrap is pending exactly if they fill a row. -/
theorem needWrap_iff (curr : Nat) (h : Typing C R s) (hC : C < 4096) {cs : List Byte}
    (hcs : ∀ c ∈ cs, iscntrl c = false) :
    (putchars curr s cs).term.needWrap = true ↔ FillsRow s cs.length := by
  induction cs generalizing s with
  | nil =>
    have hlt := h.x_lt
    show s.term.needWrap = true ↔ 0 < pendingColumn s ∧ s.term.cols.toNat ∣ pendingColumn s
    unfold pendingColumn
    rw [h.cols]
    cases hw : s.term.needWrap with
    | true => simp [Nat.zero_lt_of_lt hlt]
    | false =>
      simp only [Bool.false_eq_true, if_false, false_iff, not_and]
      exact fun hpos hdvd => absurd (Nat.le_of_dvd hpos hdvd) (by omega)
  | cons c cs ih =>
    obtain ⟨hc, hcs⟩ := List.forall_mem_cons.mp hcs
    have ht : Typing C R (terminalPutchar curr s c).2 := h.typed hC hc
    have hsplit : pendingColumn s + (cs.length + 1) =
        C * (pendingColumn s / C) + (pendingColumn s % C + 1 + cs.length) := by
      have hdiv := Nat.div_add_mod (pendingColumn s) C
      generalize C * (pendingColumn s / C) = q at *
      generalize pendingColumn s % C = r at *
      omega
    rw [putchars_cons, ih ht hcs]
    unfold FillsRow
    rw [typed_column h hC hc, ht.cols, h.cols, List.length_cons, hsplit,
      Nat.dvd_add_right (Nat.dvd_mul_right ..)]
    refine and_congr_left' ⟨fun _ => ?_, fun _ => ?_⟩
    · omega
    · omega

/-! What is in the frame buffer afterwards: -/

theorem typed_fb (curr : Nat) (h : Typing C R s) (hc : iscntrl c = false) :
    ∃ attr, (terminalPutchar curr s c).2.fb =
      .setAttr (xy2pos (wrapped (s.setPrinting true)).term
        (wrapped (s.setPrinting true)).term.cursor.x (wrapped (s.setPrinting true)).term.cursor.y) attr ::
      .setChar (xy2pos (wrapped (s.setPrinting true)).term
        (wrapped (s.setPrinting true)).term.cursor.x (wrapped (s.setPrinting true)).term.cursor.y) c ::
      (wrapped (s.setPrinting true)).fb := by
  rw [terminalPutchar_char curr h.state h.printing hc, printChar_eq]
  generalize wrapped (s.setPrinting true) = m
  generalize xy2pos m.term m.term.cursor.x m.term.cursor.y = pos
  unfold Vt.setPrinting
  split
  · exact putCell_fb ((m.setX _).setNeedWrap true) pos c
  · dsimp only
    rw [(programs_setCursorPos.ifCurrent curr _).2.1]
    exact putCell_fb (m.setX _) pos c

/-- A wrap goes to the next row or moves all rows up. -/
theorem wrapped_fb (hrows : 0 < s.term.rows.toNat) :
    ((wrapped s).fb = s.fb ∧
        (s.term.needWrap = true → (wrapped s).term.cursor.y = s.term.cursor.y + 1)) ∨
      ∃ attr start, (wrapped s).fb = (blankOps attr start s.term.cols.toNat).reverse ++
        .move 0 s.term.cols.toNat start :: s.fb := by
  unfold wrapped
  cases hw : s.term.needWrap with
  | false => exact Or.inl ⟨rfl, fun h => (nomatch h)⟩
  | true =>
    rw [if_pos rfl, lineFeed_eq]
    split
    · obtain ⟨start, hfb⟩ := scroll_one_fb (carriageReturn s) hrows
      generalize scroll (carriageReturn s) 1 = m at hfb ⊢
      exact Or.inr ⟨_, start, hfb⟩
    · exact Or.inl ⟨rfl, fun _ => rfl⟩

theorem typed_suffix (h : Typing C R s) (hR : 0 < R) (hc : iscntrl c = false) :
    s.fb <:+ (terminalPutchar curr s c).2.fb := by
  obtain ⟨attr, hfb⟩ := typed_fb curr h hc
  have hrows := h.rows_pos hR
  rw [hfb]
  refine List.IsSuffix.trans ?_ ((List.suffix_cons _ _).trans (List.suffix_cons _ _))
  obtain ⟨hsame, -⟩ | ⟨attr, start, hscroll⟩ := wrapped_fb hrows
  · rw [hsame]
    exact List.suffix_refl _
  · rw [hscroll]
    exact (List.suffix_cons _ _).trans (List.suffix_append _ _)

end Characters

/-! ## Ink

Every character leaves as much behind: the cells that a scroll blanks are those it moves away. -/

def FbOp.ink (C : Nat) : FbOp → Int
  | .setChar _ _ => 1
  | .setAttr _ _ => 0
  | .move _ _ _ => -C

def totalInk (C : Nat) (ops : List FbOp) : Int := (ops.map (FbOp.ink C)).sum

section Ink
variable {C R curr : Nat} {s t : Vt} {c : Byte}

theorem totalInk_cons (C : Nat) (op : FbOp) (ops : List FbOp) :
    totalInk C (op :: ops) = op.ink C + totalInk C ops := List.sum_cons

theorem totalInk_append (C : Nat) (ops ops' : List FbOp) :
    totalInk C (ops ++ ops') = totalInk C ops + totalInk C ops' := by
  simp [totalInk]

theorem totalInk_reverse (C : Nat) (ops : List FbOp) : totalInk C ops.reverse = totalInk C ops := by
  simp [totalInk]

theorem totalInk_uncoloured (C : Nat) (ops : List FbOp) :
    totalInk C (ops.map FbOp.uncoloured) = totalInk C ops := by
  have hink : FbOp.ink C ∘ FbOp.uncoloured = FbOp.ink C := by
    funext op
    cases op <;> rfl
  rw [totalInk, List.map_map, hink, totalInk]

theorem totalInk_blankOps (C : Nat) (attr : CharAttr) (start count : Nat) :
    totalInk C (blankOps attr start count) = count := by
  induction count generalizing start with
  | zero => rfl
  | succ count ih =>
    rw [blankOps_succ, totalInk_cons, totalInk_cons, ih]
    simp [FbOp.ink]
    ring

theorem typed_ink (h : Typing C R s) (hR : 0 < R) (hc : iscntrl c = false) :
    totalInk C (terminalPutchar curr s c).2.fb = totalInk C s.fb + 1 := by
  obtain ⟨attr, hfb⟩ := typed_fb curr h hc
  have hrows := h.rows_pos hR
  have hcols : (s.setPrinting true).term.cols.toNat = C := h.cols
  have hwrap : totalInk C (wrapped (s.setPrinting true)).fb = totalInk C s.fb := by
    obtain ⟨hsame, -⟩ | ⟨attr, start, hscroll⟩ := wrapped_fb hrows
    · rw [hsame]
      rfl
    · rw [hscroll, hcols, totalInk_append, totalInk_reverse, totalInk_blankOps, totalInk_cons]
      show (C : Int) + (-C + totalInk C s.fb) = _
      ring
  rw [hfb, totalInk_cons, totalInk_cons, hwrap]
  show (0 : Int) + (1 + totalInk C s.fb) = _
  ring

/-- Text leaves as much ink as it has characters. -/
theorem typing_text (h : Typing C R s) (hC : C < 4096) (hR : 0 < R) {cs : List Byte}
    (hcs : ∀ c ∈ cs, iscntrl c = false) :
    Typing C R (putchars curr s cs) ∧
      totalInk C (putchars curr s cs).fb = totalInk C s.fb + cs.length := by
  induction cs generalizing s with
  | nil => exact ⟨h, (Int.add_zero _).symm⟩
  | cons c cs ih =>
    obtain ⟨hc, hcs⟩ := List.forall_mem_cons.mp hcs
    obtain ⟨htyping, hink⟩ := ih (@Typing.typed C R curr s c h hC hc) hcs
    refine ⟨htyping, ?_⟩
    rw [putchars_cons, hink, typed_ink h hR hc, List.length_cons]
    push_cast
    ring

end Ink

/-! ## A sequence in a text -/

section Sequence
variable {C R curr : Nat} {s t : Vt}

/-- The end of a sequence that has only changed colours. -/
theorem reading_done (h : Typing C R s) {vs : List (BitVec 32)} {v : BitVec 32} {c : Byte}
    (hc : iscntrl c = false) {u : Vt}
    (hcsi : csi curr ((reading curr s vs v).setPrinting true) c = seqDone u)
    (hu : Recoloured u ((reading curr s vs v).setPrinting true)) :
    Recoloured (terminalPutchar curr (reading curr s vs v) c).2 (s.setNeedWrap false) := by
  have hreading := Recoloured.placed curr { s with term := { s.term with
    state := .csi, printing := false, csiparam := paramArray (vs ++ [v]), paramidx := vs.length } }
  have hdone := (((hu.trans (hreading.setPrinting true)).setNeedWrap false).setState .norm).setPrinting
    false
  rw [reading_putchar hc, hcsi]
  refine ((Recoloured.placed curr _).setPrinting false).trans (hdone.trans ⟨?_⟩)
  simp [Vt.uncoloured, Vt.setPrinting, Vt.setState, Vt.setNeedWrap, h.state, h.printing]

theorem sgr_short (h : Typing C R s) (p : Param) {ps : List Param}
    (hlen : ps.length < MAX_CSIPARAM) :
    Recoloured (putchars curr s (csiText p ps 0x6D)) (s.setNeedWrap false) := by
  obtain ⟨front, last, -, hread⟩ := @putchars_params curr s h.printing p ps hlen
  have hdone : Recoloured (terminalPutchar curr (reading curr s front last) 0x6D).2
      (s.setNeedWrap false) := reading_done h rfl rfl (Recoloured.csiMLoop 0 _ _)
  rw [csiText, putchars_append, hread]
  exact hdone

theorem literalText_printable {p : Param} {c : Byte} (hc : c ∈ literalText p) :
    iscntrl c = false := by
  have hdigit : ∀ d : Fin 10, iscntrl (BitVec.ofNat 8 (0x30 + d.val)) = false := by decide
  obtain ⟨d, -, rfl⟩ := List.mem_map.mp hc
  exact hdigit d

theorem paramsText_printable {p : Param} {ps : List Param} {c : Byte} (hc : c ∈ paramsText p ps) :
    iscntrl c = false := by
  obtain hp | hps := List.mem_append.mp hc
  · exact literalText_printable hp
  · obtain ⟨q, -, hq⟩ := List.mem_flatMap.mp hps
    obtain rfl | hq := List.mem_cons.mp hq
    · rfl
    · exact literalText_printable hq

/-- The semicolon after the sixteenth parameter ends the sequence; what follows is text. -/
theorem sgr_long (h : Typing C R s) (p : Param) {ps : List Param}
    (hlen : MAX_CSIPARAM ≤ ps.length) :
    ∃ u rest, Recoloured u (s.setNeedWrap false) ∧
      putchars curr s (csiText p ps 0x6D) = putchars curr u rest ∧
      0 < rest.length ∧ ∀ c ∈ rest, iscntrl c = false := by
  obtain ⟨first, q, more, rfl, hfirst⟩ : ∃ first q more, ps = first ++ q :: more ∧
      first.length + 1 = MAX_CSIPARAM := by
    have hmax : MAX_CSIPARAM = 16 := rfl
    have hdrop : ps.drop 15 = ps.get ⟨15, by omega⟩ :: ps.drop 16 :=
      List.drop_eq_getElem_cons (by omega)
    refine ⟨ps.take 15, ps.get ⟨15, by omega⟩, ps.drop 16, ?_, ?_⟩
    · rw [← hdrop, List.take_append_drop]
    · rw [List.length_take]
      omega
  obtain ⟨front, last, hall, hread⟩ := @putchars_params curr s h.printing p first (by omega)
  have hcount : front.length + 1 = MAX_CSIPARAM := by
    have hall' := congrArg List.length hall
    rw [List.length_append, List.length_singleton, List.length_map, List.length_cons] at hall'
    omega
  have hidx : ((reading curr s front last).setPrinting true).term.paramidx = front.length :=
    congrArg Terminal.paramidx (reading_busy_term curr s front last)
  have hcsi : csi curr ((reading curr s front last).setPrinting true) SEMICOLON =
      seqDone (((reading curr s front last).setPrinting true).setParamidx (front.length + 1)) := by
    have hsemi : toChar SEMICOLON = ';' := rfl
    unfold csi
    rw [hsemi]
    dsimp only
    rw [hidx]
    exact if_pos hcount.ge
  refine ⟨_, paramsText q more ++ [0x6D], reading_done h (by decide) hcsi ⟨rfl⟩, ?_, ?_, ?_⟩
  · have htext : csiText p (first ++ q :: more) 0x6D = (ctrl ASCII_ESC ['['] ++ paramsText p first) ++
        SEMICOLON :: (paramsText q more ++ [0x6D]) := by
      simp [csiText, paramsText]
    rw [htext, putchars_append, hread, putchars_cons]
  · rw [List.length_append]
    exact Nat.succ_pos _
  · intro c hc
    obtain hc | hc := List.mem_append.mp hc
    · exact paramsText_printable hc
    · obtain rfl := List.mem_singleton.mp hc
      rfl

end Sequence

/-! ## Texts -/

/-- The terminal takes all the parameters of the sequence. -/
def TextItem.Short : TextItem → Prop
  | .char _ _ => True
  | .sgr _ ps => ps.length < MAX_CSIPARAM

section Texts
variable {C R curr : Nat} {s t : Vt}

theorem Typing.clear (h : Typing C R s) : Typing C R (s.setNeedWrap false) :=
  ⟨h.state, h.printing, h.cols, h.rows, h.x_lt, fun hw => (nomatch hw)⟩

theorem plainText_printable {items : List TextItem} {c : Byte} (hc : c ∈ plainText items) :
    iscntrl c = false := by
  obtain ⟨item, -, hitem⟩ := List.mem_flatMap.mp hc
  cases item with
  | char d hd =>
    obtain rfl := List.mem_singleton.mp hitem
    exact hd
  | sgr p ps => cases hitem

/-- A sequence leaves no ink if the terminal takes all its parameters. -/
theorem item_ink (h : Typing C R s) (hC : C < 4096) (hR : 0 < R) (item : TextItem) :
    Typing C R (putchars curr s item.text) ∧
      totalInk C s.fb + item.chars.length ≤ totalInk C (putchars curr s item.text).fb ∧
        (totalInk C (putchars curr s item.text).fb = totalInk C s.fb + item.chars.length →
          item.Short) := by
  cases item with
  | char c hc =>
    obtain ⟨htyping, hink⟩ := @typing_text C R curr s h hC hR [c] fun d hd =>
      List.mem_singleton.mp hd ▸ hc
    exact ⟨htyping, hink.ge, fun _ => trivial⟩
  | sgr p ps =>
    have hfb : ∀ {u : Vt}, Recoloured u (s.setNeedWrap false) → totalInk C u.fb = totalInk C s.fb := by
      intro u hu
      rw [← totalInk_uncoloured, hu.fb, totalInk_uncoloured]
      rfl
    by_cases hlen : ps.length < MAX_CSIPARAM
    · have hshort := @sgr_short C R curr s h p ps hlen
      exact ⟨h.clear.recoloured hshort, ((hfb hshort).trans (Int.add_zero _).symm).ge, fun _ => hlen⟩
    · obtain ⟨u, rest, hu, hrun, hpos, hrest⟩ := @sgr_long C R curr s h p ps (Nat.le_of_not_lt hlen)
      obtain ⟨htyping, hink⟩ := @typing_text C R curr u (h.clear.recoloured hu) hC hR rest hrest
      rw [hfb hu] at hink
      show Typing C R (putchars curr s (csiText p ps 0x6D)) ∧
        totalInk C s.fb + ((0 : Nat) : Int) ≤ totalInk C (putchars curr s (csiText p ps 0x6D)).fb ∧
          (totalInk C (putchars curr s (csiText p ps 0x6D)).fb = totalInk C s.fb + ((0 : Nat) : Int) →
            ps.length < MAX_CSIPARAM)
      rw [hrun]
      exact ⟨htyping, by omega, fun heq => by omega⟩

theorem coloured_ink (h : Typing C R s) (hC : C < 4096) (hR : 0 < R) (items : List TextItem) :
    totalInk C s.fb + (plainText items).length ≤
        totalInk C (putchars curr s (colouredText items)).fb ∧
      (totalInk C (putchars curr s (colouredText items)).fb =
        totalInk C s.fb + (plainText items).length → ∀ item ∈ items, item.Short) := by
  induction items generalizing s with
  | nil => exact ⟨(Int.add_zero _).le, fun _ item hitem => (nomatch hitem)⟩
  | cons item items ih =>
    obtain ⟨htyping, hle, hshort⟩ := @item_ink C R curr s h hC hR item
    obtain ⟨hle', hshort'⟩ := ih htyping
    have hlen : ((plainText (item :: items)).length : Int) =
        item.chars.length + (plainText items).length := by
      rw [plainText, List.flatMap_cons, List.length_append]
      exact Int.natCast_add _ _
    rw [colouredText, List.flatMap_cons, putchars_append, hlen]
    refine ⟨?_, fun heq => ?_⟩
    · exact le_trans (by omega) hle'
    · have hsame : totalInk C (putchars curr (putchars curr s item.text) (colouredText items)).fb =
          totalInk C s.fb + (item.chars.length + (plainText items).length) := heq
      rintro other hother
      obtain rfl | hother := List.mem_cons.mp hother
      · exact hshort (by omega)
      · exact hshort' (by omega) other hother

/-- Sequences that the terminal takes change only colours as long as no wrap is pending. -/
theorem coloured_recoloured (hst : Recoloured s t) (h : Typing C R t) (hC : C < 4096)
    {items : List TextItem} (hshort : ∀ item ∈ items, item.Short)
    (hwrap : ∀ before p ps after, items = before ++ .sgr p ps :: after →
      (putchars curr t (plainText before)).term.needWrap = false) :
    Recoloured (putchars curr s (colouredText items)) (putchars curr t (plainText items)) := by
  induction items generalizing s t with
  | nil => exact hst
  | cons item items ih =>
    obtain ⟨hfirst, hmore⟩ := List.forall_mem_cons.mp hshort
    have hnext : ∀ before p ps after, items = before ++ .sgr p ps :: after →
        (putchars curr (putchars curr t item.chars) (plainText before)).term.needWrap = false := by
      rintro before p ps after rfl
      have hitem := hwrap (item :: before) p ps after rfl
      rwa [plainText, List.flatMap_cons, putchars_append] at hitem
    cases item with
    | char c hc => exact ih (hst.typed (h.recoloured hst) hc) (h.typed hC hc) hmore hnext
    | sgr p ps =>
      have hclear : t.term.needWrap = false := hwrap [] p ps items rfl
      have hsame : t.setNeedWrap false = t := by
        rw [← hclear]
        rfl
      have hseq := (@sgr_short C R curr s (h.recoloured hst) p ps
        hfirst).trans (hst.setNeedWrap false)
      rw [hsame] at hseq
      rw [colouredText, List.flatMap_cons, putchars_append]
      exact ih hseq h hmore hnext

/-! A sequence where a wrap is pending: -/

theorem suffix_head {α : Type} {a b : α} {base l : List α} (ha : a :: base <:+ l)
    (hb : b :: base <:+ l) : a = b := by
  have hsame := (List.suffix_of_suffix_length_le ha hb (Nat.le_refl _)).eq_of_length rfl
  exact (List.cons.inj hsame).1

theorem coloured_suffix (h : Typing C R s) (hC : C < 4096) (hR : 0 < R) {items : List TextItem}
    (hshort : ∀ item ∈ items, item.Short) :
    s.fb.map FbOp.uncoloured <:+
      (putchars curr s (colouredText items)).fb.map FbOp.uncoloured := by
  induction items generalizing s with
  | nil => exact List.suffix_refl _
  | cons item items ih =>
    obtain ⟨hfirst, hmore⟩ := List.forall_mem_cons.mp hshort
    cases item with
    | char c hc =>
      exact ((typed_suffix h hR hc).map FbOp.uncoloured).trans (ih (h.typed hC hc) hmore)
    | sgr p ps =>
      have hseq := @sgr_short C R curr s h p ps hfirst
      have hfb : (putchars curr s (csiText p ps 0x6D)).fb.map FbOp.uncoloured =
        s.fb.map FbOp.uncoloured := hseq.fb
      rw [colouredText, List.flatMap_cons, putchars_append, ← hfb]
      exact ih (h.clear.recoloured hseq) hmore

theorem plain_suffix (h : Typing C R s) (hC : C < 4096) (hR : 0 < R) {cs : List Byte}
    (hcs : ∀ c ∈ cs, iscntrl c = false) : s.fb <:+ (putchars curr s cs).fb := by
  induction cs generalizing s with
  | nil => exact List.suffix_refl _
  | cons c cs ih =>
    obtain ⟨hc, hcs⟩ := List.forall_mem_cons.mp hcs
    exact (typed_suffix h hR hc).trans (ih (h.typed hC hc) hcs)

/-- The last cell of a row is not the first one of the next row. -/
theorem next_row_ne {C : Nat} (hpos : 0 < C) (y : BitVec 12) :
    BitVec.ofNat 16 (y.toNat * C + (C - 1)) ≠ BitVec.ofNat 16 ((y + 1).toNat * C + 0) := by
  intro h
  have hnat := congrArg BitVec.toNat h
  rw [BitVec.toNat_ofNat, BitVec.toNat_ofNat, BitVec.toNat_add] at hnat
  have hlt := y.isLt
  by_cases hy : y.toNat = 4095
  · rw [hy] at hnat
    have hzero : (4095 + (1 : BitVec 12).toNat) % 2 ^ 12 = 0 := rfl
    rw [hzero] at hnat
    omega
  · have hsucc : (y.toNat + (1 : BitVec 12).toNat) % 2 ^ 12 = y.toNat + 1 := by
      show (y.toNat + 1) % 4096 = y.toNat + 1
      omega
    rw [hsucc, Nat.succ_mul] at hnat
    generalize y.toNat * C = k at hnat
    omega

/-- A character where a wrap is pending, and the same character where it is no longer. -/
theorem lands_elsewhere (curr : Nat) (hst : Recoloured s (t.setNeedWrap false)) (h : Typing C R t) (hR : 0 < R)
    (hwrap : t.term.needWrap = true) {c : Byte} (hc : iscntrl c = false) :
    ∃ op op', op ≠ op' ∧
      op :: s.fb.map FbOp.uncoloured <:+ (terminalPutchar curr s c).2.fb.map FbOp.uncoloured ∧
      op' :: t.fb.map FbOp.uncoloured <:+ (terminalPutchar curr t c).2.fb.map FbOp.uncoloured := by
  have hs : Typing C R s := h.clear.recoloured hst
  have hclear : s.term.needWrap = false := hst.needWrap
  have hcursor : s.term.cursor = t.term.cursor := hst.cursor
  obtain ⟨attr, hsfb⟩ := typed_fb curr hs hc
  obtain ⟨attr', htfb⟩ := typed_fb curr h hc
  have hhere : wrapped (s.setPrinting true) = s.setPrinting true := if_neg (by
    show ¬ s.term.needWrap = true
    rw [hclear]
    exact Bool.false_ne_true)
  have hpos : xy2pos (s.setPrinting true).term (s.setPrinting true).term.cursor.x
      (s.setPrinting true).term.cursor.y =
        BitVec.ofNat 16 (t.term.cursor.y.toNat * C + (C - 1)) := by
    show BitVec.ofNat 16 (s.term.cursor.y.toNat * s.term.cols.toNat + s.term.cursor.x.toNat) = _
    rw [hcursor, hs.cols, h.wrap hwrap]
  have hrows := h.rows_pos hR
  rw [hhere, hpos] at hsfb
  have hsuffix : FbOp.setChar (BitVec.ofNat 16 (t.term.cursor.y.toNat * C + (C - 1))) c :: s.fb <:+
      (terminalPutchar curr s c).2.fb := by
    rw [hsfb]
    exact List.suffix_cons _ _
  obtain ⟨hsame, hrow⟩ | ⟨attr'', start, hscroll⟩ := wrapped_fb hrows
  · obtain ⟨y, hterm⟩ := wrapped_term (t.setPrinting true)
    have hnext : xy2pos (wrapped (t.setPrinting true)).term (wrapped (t.setPrinting true)).term.cursor.x
        (wrapped (t.setPrinting true)).term.cursor.y =
          BitVec.ofNat 16 ((t.term.cursor.y + 1).toNat * C + 0) := by
      have hx : (wrapped (t.setPrinting true)).term.cursor.x = 0 := by
        rw [hterm]
        exact if_pos hwrap
      have hcols : (wrapped (t.setPrinting true)).term.cols.toNat = C := by
        rw [hterm]
        exact h.cols
      unfold xy2pos
      rw [hx, hrow hwrap, hcols]
      rfl
    rw [hnext, hsame] at htfb
    have hthere : FbOp.setChar (BitVec.ofNat 16 ((t.term.cursor.y + 1).toNat * C + 0)) c :: t.fb <:+
        (terminalPutchar curr t c).2.fb := by
      rw [htfb]
      exact List.suffix_cons _ _
    refine ⟨_, _, ?_, hsuffix.map FbOp.uncoloured, hthere.map FbOp.uncoloured⟩
    intro heq
    exact next_row_ne (Nat.zero_lt_of_lt h.x_lt) t.term.cursor.y (FbOp.setChar.inj heq).1
  · refine ⟨.setChar (BitVec.ofNat 16 (t.term.cursor.y.toNat * C + (C - 1))) c,
      .move 0 (t.setPrinting true).term.cols.toNat start, (nomatch ·),
      hsuffix.map FbOp.uncoloured, ?_⟩
    have hmove : FbOp.move 0 (t.setPrinting true).term.cols.toNat start :: t.fb <:+
        (terminalPutchar curr t c).2.fb := by
      rw [htfb, hscroll]
      exact (List.suffix_append _ _).trans ((List.suffix_cons _ _).trans (List.suffix_cons _ _))
    exact hmove.map FbOp.uncoloured

/-- Once a sequence has cleared a wrap, the texts never come together again. -/
theorem parted (hst : Recoloured s (t.setNeedWrap false)) (h : Typing C R t) (hC : C < 4096)
    (hR : 0 < R) (hwrap : t.term.needWrap = true) {items : List TextItem}
    (hshort : ∀ item ∈ items, item.Short) :
    ¬ SameText (putchars curr s (colouredText items)) (putchars curr t (plainText items)) := by
  induction items generalizing s with
  | nil =>
    intro hsame
    have hclear : s.term.needWrap = false := hst.needWrap
    have hneed : s.term.needWrap = t.term.needWrap := hsame.needWrap
    rw [hclear, hwrap] at hneed
    cases hneed
  | cons item items ih =>
    have hs : Typing C R s := h.clear.recoloured hst
    obtain ⟨hfirst, hmore⟩ := List.forall_mem_cons.mp hshort
    cases item with
    | char c hc =>
      intro hsame
      obtain ⟨op, op', hne, hop, hop'⟩ := lands_elsewhere curr hst h hR hwrap hc
      have hcoloured := hop.trans (@coloured_suffix C R curr _ (hs.typed hC hc) hC hR items hmore)
      have hrest : (terminalPutchar curr t c).2.fb <:+
          (putchars curr (terminalPutchar curr t c).2 (plainText items)).fb :=
        plain_suffix (h.typed hC hc) hC hR fun d => plainText_printable
      have hplain := hop'.trans (hrest.map FbOp.uncoloured)
      have hbase : s.fb.map FbOp.uncoloured = t.fb.map FbOp.uncoloured := hst.fb
      have hfb : (putchars curr (terminalPutchar curr s c).2 (colouredText items)).fb.map
          FbOp.uncoloured = (putchars curr (terminalPutchar curr t c).2 (plainText items)).fb.map
            FbOp.uncoloured := hsame.fb
      rw [hfb, hbase] at hcoloured
      exact hne (suffix_head hcoloured hplain)
    | sgr p ps =>
      have hseq := (@sgr_short C R curr s hs p ps hfirst).trans
        (hst.setNeedWrap false)
      rw [colouredText, List.flatMap_cons, putchars_append]
      exact ih hseq hmore

theorem no_wrap_of_sameText (hst : Recoloured s t) (h : Typing C R t) (hC : C < 4096) (hR : 0 < R)
    {items : List TextItem} (hshort : ∀ item ∈ items, item.Short)
    (hsame : SameText (putchars curr s (colouredText items)) (putchars curr t (plainText items)))
    {before : List TextItem} {p : Param} {ps : List Param} {after : List TextItem}
    (hitems : items = before ++ .sgr p ps :: after) :
    (putchars curr t (plainText before)).term.needWrap = false := by
  induction items generalizing s t before with
  | nil => simp at hitems
  | cons item items ih =>
    obtain ⟨hfirst, hmore⟩ := List.forall_mem_cons.mp hshort
    cases item with
    | char c hc =>
      cases before with
      | nil => cases (List.cons.inj hitems).1
      | cons first before =>
        obtain ⟨rfl, hrest⟩ := List.cons.inj hitems
        exact ih (hst.typed (h.recoloured hst) hc) (h.typed hC hc) hmore hsame hrest
    | sgr q qs =>
      have hseq := (@sgr_short C R curr s (h.recoloured hst) q qs
        hfirst).trans (hst.setNeedWrap false)
      rw [colouredText, List.flatMap_cons, putchars_append] at hsame
      have hclear : t.term.needWrap = false := by
        rw [← Bool.not_eq_true]
        exact fun hwrap => parted hseq h hC hR hwrap hmore hsame
      have hclean : t.setNeedWrap false = t := by
        rw [← hclear]
        rfl
      rw [hclean] at hseq
      cases before with
      | nil => exact hclear
      | cons first before =>
        obtain ⟨rfl, hrest⟩ := List.cons.inj hitems
        have hlater := ih hseq h hmore hsame hrest
        exact hlater

end Texts

/-- **Colour changes do not move text** if and only if every sequence has at most sixteen parameters
and none follows a character in the last column. -/
theorem colours_keep_text_iff (curr : Nat) (s : Vt) (items : List TextItem) (hin : InBounds s)
    (hcols : s.term.cols.toNat < 4096) (hstate : s.term.state = .norm)
    (hprinting : s.term.printing = false) :
    SameText (putchars curr s (colouredText items)) (putchars curr s (plainText items)) ↔
      ∀ before p ps after, items = before ++ .sgr p ps :: after →
        ps.length < MAX_CSIPARAM ∧ ¬ FillsRow s (plainText before).length := by
  have h : Typing s.term.cols.toNat s.term.rows.toNat s :=
    ⟨hstate, hprinting, rfl, rfl, hin.x_lt, hin.wrap⟩
  have hR : 0 < s.term.rows.toNat := Nat.zero_lt_of_lt hin.y_lt
  have hwrap : ∀ before, (putchars curr s (plainText before)).term.needWrap = false ↔
      ¬ FillsRow s (plainText before).length := fun before => by
    rw [← needWrap_iff curr h hcols fun c => plainText_printable, Bool.not_eq_true]
  constructor
  · intro hsame
    obtain ⟨-, hshort⟩ := @coloured_ink _ _ curr s h hcols hR items
    have hplain := (@typing_text _ _ curr s h hcols hR (plainText items) fun c =>
      plainText_printable).2
    have hink := congrArg (totalInk s.term.cols.toNat) hsame.fb
    rw [totalInk_uncoloured, totalInk_uncoloured] at hink
    have hall := hshort (hink.trans hplain)
    rintro before p ps after rfl
    refine ⟨hall (.sgr p ps) (List.mem_append_right _ (List.mem_cons_self ..)), ?_⟩
    exact (hwrap before).mp (no_wrap_of_sameText (.refl s) h hcols hR hall hsame rfl)
  · intro hitems
    refine (coloured_recoloured (.refl s) h hcols ?_ fun before p ps after heq =>
      (hwrap before).mpr (hitems before p ps after heq).2).sameText
    intro item hitem
    obtain ⟨before, after, rfl⟩ := List.append_of_mem hitem
    cases item with
    | char c hc => trivial
    | sgr p ps => exact (hitems before p ps after rfl).1

theorem colours_keep_text_red :
    SameText (putchars 1 (defaultVt textVga (zeroTerminal 1))
        (colouredText [.char 0x41 rfl, .sgr [3, 1] [], .char 0x42 rfl]))
      (putchars 1 (defaultVt textVga (zeroTerminal 1))
        (plainText [.char 0x41 rfl, .sgr [3, 1] [], .char 0x42 rfl])) := by
  refine (colours_keep_text_iff 1 (defaultVt textVga (zeroTerminal 1))
    [.char 0x41 rfl, .sgr [3, 1] [], .char 0x42 rfl]
    ⟨by decide, by decide, by decide, fun h => (nomatch h), by decide, fun _ h => (nomatch h)⟩
    (by decide) rfl rfl).mpr fun before p ps after h => ?_
  obtain ⟨hbefore, hps⟩ : (plainText before).length = 1 ∧ ps = [] := by
    rcases before with _ | ⟨a, _ | ⟨b, _ | ⟨c, before⟩⟩⟩
    · simp at h
    · simp only [List.cons_append, List.nil_append, List.cons.injEq, TextItem.sgr.injEq] at h
      obtain ⟨rfl, ⟨rfl, rfl⟩, rfl⟩ := h
      exact ⟨rfl, rfl⟩
    · simp at h
    · simp at h
  subst hps
  rw [hbefore]
  exact ⟨by decide, by decide⟩

/-- The sequence after the character in the last column: the next one is written over it. -/
theorem colours_move_text :
    ¬ SameText
      (putchars 1 ((defaultVt textVga (zeroTerminal 1)).setX 79)
        (colouredText [.char 0x41 rfl, .sgr [] [], .char 0x42 rfl]))
      (putchars 1 ((defaultVt textVga (zeroTerminal 1)).setX 79)
        (plainText [.char 0x41 rfl, .sgr [] [], .char 0x42 rfl])) := by
  intro h
  have hcursor := h.cursor
  revert hcursor
  decide +kernel

end Ohwes

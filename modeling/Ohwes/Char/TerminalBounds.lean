import Ohwes.Char.Terminal

/-! # The bounds of a terminal

`InBounds` is what a terminal has to keep: the cursor on the screen, a pending wrap only in the last
column, the parameter index inside its array while a control sequence is read, the tab stop that may
be set next inside its array, and no access to the frame buffer outside the screen. Every function keeps
it but one. `reverse_linefeed` takes the row, an unsigned 12-bit field, from 0 to 4095;
`terminal_in_bounds_iff` says that nothing else goes wrong. -/

namespace Ohwes
set_option autoImplicit false
open Library

/-- The access stays inside a frame buffer of `area` cells. -/
def FbOp.Within (area : Nat) : FbOp → Prop
  | .setChar pos _ => pos.toNat < area
  | .setAttr pos _ => pos.toNat < area
  | .move dst src n => dst + n ≤ area ∧ src + n ≤ area

structure InBounds (s : Vt) : Prop where
  x_lt : s.term.cursor.x.toNat < s.term.cols.toNat
  y_lt : s.term.cursor.y.toNat < s.term.rows.toNat
  wrap : s.term.needWrap = true → s.term.cursor.x.toNat = s.term.cols.toNat - 1
  param : s.term.state = .csi → s.term.paramidx < MAX_CSIPARAM
  tabstop : s.term.cursor.x.toNat < MAX_TABSTOP
  fb : ∀ op ∈ s.fb, op.Within (s.term.rows.toNat * s.term.cols.toNat)

/-! ## Coordinates -/

theorem retreat_lt {v : BitVec 12} {n : BitVec 32} {k : Nat} (hv : v.toNat < k)
    (hn : 1 ≤ n.toInt) : (retreat v n).toNat < k := by
  have hlt := v.isLt
  have hnlt := n.isLt
  rw [BitVec.toInt_eq_toNat_cond] at hn
  unfold retreat
  split
  · next h =>
    rw [BitVec.toInt_eq_toNat_cond, BitVec.toNat_sub] at h
    rw [BitVec.truncate_eq_setWidth, BitVec.toNat_setWidth, BitVec.toNat_sub]
    rw [BitVec.zeroExtend_eq_setWidth, BitVec.toNat_setWidth] at *
    omega
  · show 0 < k
    omega

theorem advance_lt {v : BitVec 12} {n : BitVec 32} {bound : BitVec 16}
    (hv : v.toNat < bound.toNat) (hb : bound.toNat ≤ 4096) (hn : 1 ≤ n.toInt) :
    (advance v n bound).toNat < bound.toNat := by
  have hlt := v.isLt
  have hnlt := n.isLt
  rw [BitVec.toInt_eq_toNat_cond] at hn
  unfold advance
  split
  · next h =>
    rw [BitVec.toInt_eq_toNat_cond, BitVec.toNat_add] at h
    rw [BitVec.truncate_eq_setWidth, BitVec.toNat_setWidth, BitVec.toNat_add]
    rw [BitVec.zeroExtend_eq_setWidth, BitVec.toNat_setWidth] at *
    omega
  · rw [BitVec.toNat_ofInt]
    omega

/-! ## The invariant -/

/-- Cursor, saved cursor and frame buffer accesses are inside a screen of `C` columns and `R` rows,
and a reset finds the same screen. -/
structure OnScreen (C R : Nat) (s : Vt) : Prop where
  cols : s.term.cols.toNat = C
  rows : s.term.rows.toNat = R
  vgaCols : s.vga.cols.toNat = C
  vgaRows : s.vga.rows.toNat = R
  x_lt : s.term.cursor.x.toNat < C
  y_lt : s.term.cursor.y.toNat < R
  savedX_lt : s.term.saved.cursor.x.toNat < C
  savedY_lt : s.term.saved.cursor.y.toNat < R
  fb : ∀ op ∈ s.fb, op.Within (R * C)

/-- The fields `OnScreen` is about are the same. -/
structure SamePlace (s t : Vt) : Prop where
  cols : t.term.cols = s.term.cols
  rows : t.term.rows = s.term.rows
  vgaCols : t.vga.cols = s.vga.cols
  vgaRows : t.vga.rows = s.vga.rows
  cursor : t.term.cursor = s.term.cursor
  saved : t.term.saved = s.term.saved
  fb : t.fb = s.fb

/-- `OnScreen`, a pending wrap only in the last column, and the parameter index in its array. -/
structure ScreenOk (C R : Nat) (s : Vt) : Prop where
  placed : OnScreen C R s
  wrap : s.term.needWrap = true → s.term.cursor.x.toNat = C - 1
  param : s.term.state = .csi → s.term.paramidx < MAX_CSIPARAM

/-- Between two characters. -/
structure TerminalOk (C R : Nat) (s : Vt) : Prop extends ScreenOk C R s where
  printing : s.term.printing = false

section Invariant
variable {C R : Nat} {s t : Vt}

theorem ScreenOk.inBounds (h : ScreenOk C R s) (hcols : C ≤ MAX_TABSTOP) : InBounds s where
  x_lt := by
    rw [h.placed.cols]
    exact h.placed.x_lt
  y_lt := by
    rw [h.placed.rows]
    exact h.placed.y_lt
  wrap := by
    rw [h.placed.cols]
    exact h.wrap
  param := h.param
  tabstop := Nat.lt_of_lt_of_le h.placed.x_lt hcols
  fb := by
    rw [h.placed.cols, h.placed.rows]
    exact h.placed.fb

namespace OnScreen

theorem congr (h : OnScreen C R s) (hst : SamePlace s t) : OnScreen C R t := by
  obtain ⟨hc, hr, hvc, hvr, hcur, hsaved, hfb⟩ := hst
  constructor
  · rw [hc, h.cols]
  · rw [hr, h.rows]
  · rw [hvc, h.vgaCols]
  · rw [hvr, h.vgaRows]
  · rw [hcur]
    exact h.x_lt
  · rw [hcur]
    exact h.y_lt
  · rw [hsaved]
    exact h.savedX_lt
  · rw [hsaved]
    exact h.savedY_lt
  · rw [hfb]
    exact h.fb

theorem setCursor (h : OnScreen C R s) {cursor : Cursor} (hx : cursor.x.toNat < C)
    (hy : cursor.y.toNat < R) : OnScreen C R (s.setCursor cursor) :=
  ⟨h.cols, h.rows, h.vgaCols, h.vgaRows, hx, hy, h.savedX_lt, h.savedY_lt, h.fb⟩

theorem setX (h : OnScreen C R s) {x : BitVec 12} (hx : x.toNat < C) : OnScreen C R (s.setX x) :=
  h.setCursor hx h.y_lt

theorem setY (h : OnScreen C R s) {y : BitVec 12} (hy : y.toNat < R) : OnScreen C R (s.setY y) :=
  h.setCursor h.x_lt hy

theorem access (h : OnScreen C R s) (op : FbOp) (hop : op.Within (R * C)) :
    OnScreen C R { s with fb := op :: s.fb } := by
  refine ⟨h.cols, h.rows, h.vgaCols, h.vgaRows, h.x_lt, h.y_lt, h.savedX_lt, h.savedY_lt, ?_⟩
  intro o ho
  obtain rfl | ho := List.mem_cons.mp ho
  · exact hop
  · exact h.fb o ho

/-- The cell of a position is the row times the columns, and the column. -/
theorem xy2pos_eq (h : OnScreen C R s) (harea : R * C ≤ 4096) {x y : BitVec 12} (hx : x.toNat < C)
    (hy : y.toNat < R) :
    (xy2pos s.term x y).toNat = y.toNat * C + x.toNat ∧ y.toNat * C + x.toNat < R * C := by
  have hlt : y.toNat * C + x.toNat < R * C := by
    have hrow : (y.toNat + 1) * C ≤ R * C := Nat.mul_le_mul_right C hy
    rw [Nat.succ_mul] at hrow
    omega
  refine ⟨?_, hlt⟩
  rw [xy2pos, h.cols, BitVec.toNat_ofNat]
  omega

/-- The cells of the cursor's row are on the screen. -/
theorem row_le (h : OnScreen C R s) : s.term.cursor.y.toNat * C + C ≤ R * C := by
  have hrow : (s.term.cursor.y.toNat + 1) * C ≤ R * C := Nat.mul_le_mul_right C h.y_lt
  rwa [Nat.succ_mul] at hrow

end OnScreen

theorem blankCells_setY (s : Vt) (y : BitVec 12) (start count : Nat) :
    blankCells (s.setY y) start count = (blankCells s start count).setY y := by
  induction count generalizing s start with
  | zero => rfl
  | succ count ih => exact ih (setFbAttr (setFbChar s _ SPACE) _ s.term.attr) (start + 1)

/-- Scrolling does not look at the row of the cursor. -/
theorem scroll_setY (s : Vt) (y : BitVec 12) (n : Int) :
    scroll (s.setY y) n = (scroll s n).setY y := by
  have hrows : (s.setY y).term.rows = s.term.rows := rfl
  unfold scroll
  dsimp only
  rw [hrows]
  by_cases hn : min n.natAbs s.term.rows.toNat = 0
  · rw [if_pos hn, if_pos hn]
  · rw [if_neg hn, if_neg hn, ← blankCells_setY]
    rfl

theorem blankCells_frame (s : Vt) (start count : Nat) :
    (blankCells s start count).term = s.term ∧ (blankCells s start count).vga = s.vga := by
  induction count generalizing s start with
  | zero => exact ⟨rfl, rfl⟩
  | succ count ih => exact ih _ (start + 1)

theorem scroll_term (s : Vt) (n : Int) : (scroll s n).term = s.term := by
  unfold scroll
  dsimp only
  split
  · rfl
  · exact (blankCells_frame _ _ _).1

theorem erase_frame (s : Vt) (mode : BitVec 32) :
    (erase s mode).term = s.term ∧ (erase s mode).vga = s.vga := by
  unfold erase
  dsimp only
  split_ifs
  · exact blankCells_frame s _ _
  · exact blankCells_frame s _ _
  · exact blankCells_frame s _ _

theorem eraseLine_frame (s : Vt) (mode : BitVec 32) :
    (eraseLine s mode).term = s.term ∧ (eraseLine s mode).vga = s.vga := by
  unfold eraseLine
  dsimp only
  split_ifs
  · exact blankCells_frame s _ _
  · exact blankCells_frame s _ _
  · exact blankCells_frame s _ _

namespace OnScreen

theorem setFb (h : OnScreen C R s) {pos : BitVec 16} (hpos : pos.toNat < R * C) (c : Byte)
    (attr : CharAttr) : OnScreen C R (setFbAttr (setFbChar s pos c) pos attr) := by
  have hchar : OnScreen C R (setFbChar s pos c) := h.access (.setChar pos c) hpos
  exact hchar.access (.setAttr pos (vgaAttr attr).value) hpos

theorem blankCells (h : OnScreen C R s) {start count : Nat}
    (hend : start + count ≤ R * C) : OnScreen C R (blankCells s start count) := by
  induction count generalizing s start with
  | zero => exact h
  | succ count ih =>
    refine ih (h.setFb ?_ SPACE s.term.attr) (by omega)
    rw [BitVec.toNat_ofNat]
    omega

theorem scroll (h : OnScreen C R s) (n : Int) : OnScreen C R (scroll s n) := by
  unfold Ohwes.scroll
  dsimp only
  rw [h.rows, h.cols]
  split
  · exact h
  · have hn : min n.natAbs R * C ≤ R * C := Nat.mul_le_mul_right C (Nat.min_le_right ..)
    refine OnScreen.blankCells (h.access _ ?_) ?_
    · show _ + _ ≤ R * C ∧ _ + _ ≤ R * C
      split <;> omega
    · split <;> omega

theorem erase (h : OnScreen C R s) (harea : R * C ≤ 4096) (mode : BitVec 32) :
    OnScreen C R (erase s mode) := by
  obtain ⟨hpos, hlt⟩ := h.xy2pos_eq harea h.x_lt h.y_lt
  unfold Ohwes.erase
  dsimp only
  rw [h.rows, h.cols, hpos]
  split
  · exact h.blankCells (by omega)
  split
  · exact h.blankCells (by omega)
  · exact h.blankCells (by omega)

theorem eraseLine (h : OnScreen C R s) (harea : R * C ≤ 4096) (mode : BitVec 32) :
    OnScreen C R (eraseLine s mode) := by
  have hx := h.x_lt
  have hrow := h.row_le
  have hz : (0 : BitVec 12).toNat = 0 := rfl
  have h0 : (0 : BitVec 12).toNat < C := by omega
  obtain ⟨hpos, hlt⟩ := h.xy2pos_eq harea hx h.y_lt
  obtain ⟨hline, _⟩ := h.xy2pos_eq harea h0 h.y_lt
  have hmod : (s.term.cursor.y.toNat * C + s.term.cursor.x.toNat) % C = s.term.cursor.x.toNat := by
    rw [Nat.mul_comm, Nat.mul_add_mod, Nat.mod_eq_of_lt hx]
  unfold Ohwes.eraseLine
  dsimp only
  rw [h.cols, hpos, hline, hmod, hz]
  split
  · exact h.blankCells (by omega)
  split
  · exact h.blankCells (by omega)
  · exact h.blankCells (by omega)

theorem carriageReturn (h : OnScreen C R s) : OnScreen C R (carriageReturn s) := by
  have hx := h.x_lt
  have h0 : (0 : BitVec 12).toNat < C := Nat.lt_of_le_of_lt (Nat.zero_le _) hx
  exact (h.setX h0).congr ⟨rfl, rfl, rfl, rfl, rfl, rfl, rfl⟩

/-- On the last row the screen scrolls and the cursor stays. -/
theorem lineFeed (h : OnScreen C R s) : OnScreen C R (lineFeed s) := by
  have hy := h.y_lt
  have hlt := s.term.cursor.y.isLt
  have hsucc : (s.term.cursor.y + 1).toNat = (s.term.cursor.y.toNat + 1) % 4096 := by
    rw [BitVec.toNat_add]
    rfl
  have hback : s.term.cursor.y + 1 - 1 = s.term.cursor.y := by bv_omega
  unfold Ohwes.lineFeed
  dsimp only
  rw [scroll_setY]
  have hscroll := h.scroll 1
  split
  · -- nothing below looks inside the scrolled screen
    generalize Ohwes.scroll s 1 = t at hscroll ⊢
    have hyy : (t.setY (s.term.cursor.y + 1)).term.cursor.y - 1 = s.term.cursor.y := hback
    rw [hyy]
    exact (hscroll.setY hy).congr ⟨rfl, rfl, rfl, rfl, rfl, rfl, rfl⟩
  · next hnot =>
    have hrow : (s.term.cursor.y + 1).toNat < R := by
      have hle : ¬ s.term.rows.toNat ≤ (s.term.cursor.y + 1).toNat := hnot
      rw [h.rows] at hle
      omega
    exact (h.setY hrow).congr ⟨rfl, rfl, rfl, rfl, rfl, rfl, rfl⟩

/-- Above the first row there is no row. -/
theorem reverseLinefeed (h : OnScreen C R s) (h0 : s.term.cursor.y ≠ 0) :
    OnScreen C R (reverseLinefeed s) := by
  have hy := h.y_lt
  have hrow : (s.term.cursor.y - 1).toNat < R := by
    have hpred : (s.term.cursor.y - 1).toNat < s.term.cursor.y.toNat := by bv_omega
    omega
  unfold Ohwes.reverseLinefeed
  dsimp only
  rw [if_neg (by omega)]
  exact (h.setY hrow).congr ⟨rfl, rfl, rfl, rfl, rfl, rfl, rfl⟩

theorem backspace (h : OnScreen C R s) : OnScreen C R (backspace s) :=
  (h.setX (retreat_lt h.x_lt (by decide))).congr ⟨rfl, rfl, rfl, rfl, rfl, rfl, rfl⟩

theorem tab (h : OnScreen C R s) : OnScreen C R (tab s) := by
  have hx := h.x_lt
  have hc := s.vga.cols.isLt
  have hvc := h.vgaCols
  unfold Ohwes.tab
  refine h.setX ?_
  rw [h.cols]
  split
  · rw [BitVec.toNat_ofInt]
    omega
  · omega

theorem cursorUp (h : OnScreen C R s) {n : BitVec 32} (hn : 1 ≤ n.toInt) :
    OnScreen C R (cursorUp s n) := h.setY (retreat_lt h.y_lt hn)

theorem cursorLeft (h : OnScreen C R s) {n : BitVec 32} (hn : 1 ≤ n.toInt) :
    OnScreen C R (cursorLeft s n) := h.setX (retreat_lt h.x_lt hn)

theorem cursorDown (h : OnScreen C R s) {n : BitVec 32} (hn : 1 ≤ n.toInt) :
    OnScreen C R (cursorDown s n) := by
  have hr := s.vga.rows.isLt
  have hvr := h.vgaRows
  refine h.setY ?_
  have hadv : (advance s.term.cursor.y n s.term.rows).toNat < s.term.rows.toNat :=
    advance_lt (by rw [h.rows]; exact h.y_lt) (by rw [h.rows]; omega) hn
  rwa [h.rows] at hadv

theorem cursorRight (h : OnScreen C R s) {n : BitVec 32} (hn : 1 ≤ n.toInt) :
    OnScreen C R (cursorRight s n) := by
  have hc := s.vga.cols.isLt
  have hvc := h.vgaCols
  refine h.setX ?_
  have hadv : (advance s.term.cursor.x n s.term.cols).toNat < s.term.cols.toNat :=
    advance_lt (by rw [h.cols]; exact h.x_lt) (by rw [h.cols]; omega) hn
  rwa [h.cols] at hadv

theorem paramMinimum (h : OnScreen C R s) (i : Nat) (v : BitVec 32) :
    OnScreen C R (paramMinimum i v s) := by
  unfold Ohwes.paramMinimum
  split
  · exact h.congr ⟨rfl, rfl, rfl, rfl, rfl, rfl, rfl⟩
  · exact h

theorem paramMaximum (h : OnScreen C R s) (i : Nat) (v : BitVec 32) :
    OnScreen C R (paramMaximum i v s) := by
  unfold Ohwes.paramMaximum
  split
  · exact h.congr ⟨rfl, rfl, rfl, rfl, rfl, rfl, rfl⟩
  · exact h

end OnScreen

/-! ## Parameters -/

theorem paramMinimum_ge (i : Nat) (v : BitVec 32) (s : Vt) :
    v.toInt ≤ ((paramMinimum i v s).term.csiparam i).toInt := by
  unfold paramMinimum
  split
  · show v.toInt ≤ (Function.update s.term.csiparam i v i).toInt
    rw [Function.update_self]
  · omega

theorem paramMinimum_of_ne {i j : Nat} (hj : j ≠ i) (v : BitVec 32) (s : Vt) :
    (paramMinimum i v s).term.csiparam j = s.term.csiparam j := by
  unfold paramMinimum
  split
  · exact Function.update_of_ne hj v s.term.csiparam
  · rfl

theorem paramMaximum_le (i : Nat) (v : BitVec 32) (s : Vt) :
    ((paramMaximum i v s).term.csiparam i).toInt ≤ v.toInt := by
  unfold paramMaximum
  split
  · show (Function.update s.term.csiparam i v i).toInt ≤ v.toInt
    rw [Function.update_self]
  · omega

theorem paramMaximum_ge {i : Nat} {v : BitVec 32} {k : Int} (hv : k ≤ v.toInt)
    (hs : k ≤ (s.term.csiparam i).toInt) :
    k ≤ ((paramMaximum i v s).term.csiparam i).toInt := by
  unfold paramMaximum
  split
  · show k ≤ (Function.update s.term.csiparam i v i).toInt
    rwa [Function.update_self]
  · exact hs

theorem paramMaximum_of_ne {i j : Nat} (hj : j ≠ i) (v : BitVec 32) (s : Vt) :
    (paramMaximum i v s).term.csiparam j = s.term.csiparam j := by
  unfold paramMaximum
  split
  · exact Function.update_of_ne hj v s.term.csiparam
  · rfl

/-- A parameter from 1 to `k` is the coordinate after one below `k`. -/
theorem param_pred_lt {p : BitVec 32} {k : Nat} (hlo : 1 ≤ p.toInt) (hhi : p.toInt ≤ k)
    (hk : k ≤ 4096) : ((p - 1).truncate 12).toNat < k := by
  have hlt := p.isLt
  rw [BitVec.toInt_eq_toNat_cond] at hlo hhi
  rw [BitVec.truncate_eq_setWidth, BitVec.toNat_setWidth]
  have hpred : (p - 1).toNat = p.toNat - 1 := by
    rw [BitVec.toNat_sub]
    show (4294967296 - 1 + p.toNat) % 4294967296 = p.toNat - 1
    split at hlo <;> omega
  rw [hpred]
  split at hlo <;> omega

theorem zeroExtend_toInt (v : BitVec 16) : (v.zeroExtend 32).toInt = v.toNat := by
  have hlt := v.isLt
  rw [BitVec.zeroExtend_eq_setWidth, BitVec.toInt_eq_toNat_cond, BitVec.toNat_setWidth]
  rw [Nat.mod_eq_of_lt (by omega)]
  exact if_pos (by omega)

namespace OnScreen

theorem withParam (h : OnScreen C R s) {v : BitVec 32} {f : Vt → BitVec 32 → Vt}
    (hf : ∀ t n, OnScreen C R t → v.toInt ≤ n.toInt → OnScreen C R (f t n)) :
    OnScreen C R (withParam v f s) :=
  hf _ _ (h.paramMinimum 0 v) (paramMinimum_ge 0 v s)

theorem cursorColumn (h : OnScreen C R s) : OnScreen C R (cursorColumn s) := by
  have hx := h.x_lt
  have hc := s.vga.cols.isLt
  have hvc := h.vgaCols
  have hmin := paramMinimum_ge 0 1 s
  have hle := paramMaximum_le 0 (s.term.cols.zeroExtend 32) (Ohwes.paramMinimum 0 1 s)
  have hcols : (s.term.cols.zeroExtend 32).toInt = C := by rw [zeroExtend_toInt, h.cols]
  have hge : 1 ≤ ((Ohwes.paramMaximum 0 (s.term.cols.zeroExtend 32)
      (Ohwes.paramMinimum 0 1 s)).term.csiparam 0).toInt :=
    paramMaximum_ge (by rw [hcols]; omega) hmin
  rw [hcols] at hle
  exact ((h.paramMinimum 0 1).paramMaximum 0 _).setX (param_pred_lt hge hle (by omega))

/-- Row and column are cut to the screen one after the other. -/
theorem cursorPosition (h : OnScreen C R s) : OnScreen C R (cursorPosition s) := by
  have hx := h.x_lt
  have hy := h.y_lt
  have hc := s.vga.cols.isLt
  have hvc := h.vgaCols
  have hr := s.vga.rows.isLt
  have hvr := h.vgaRows
  unfold Ohwes.cursorPosition
  dsimp only
  generalize hm : Ohwes.paramMinimum 1 1 (Ohwes.paramMinimum 0 1 s) = m
  have hpm : OnScreen C R m := by
    rw [← hm]
    exact (h.paramMinimum 0 1).paramMinimum 1 1
  have hm0 : 1 ≤ (m.term.csiparam 0).toInt := by
    rw [← hm, paramMinimum_of_ne (by decide)]
    exact paramMinimum_ge 0 1 s
  have hm1 : 1 ≤ (m.term.csiparam 1).toInt := by
    rw [← hm]
    exact paramMinimum_ge 1 1 _
  have hrows : (m.term.rows.zeroExtend 32).toInt = R := by rw [zeroExtend_toInt, hpm.rows]
  generalize hk : Ohwes.paramMaximum 0 (m.term.rows.zeroExtend 32) m = k
  have hpk : OnScreen C R k := by
    rw [← hk]
    exact hpm.paramMaximum 0 _
  have hk0 : 1 ≤ (k.term.csiparam 0).toInt ∧ (k.term.csiparam 0).toInt ≤ R := by
    rw [← hk]
    refine ⟨paramMaximum_ge (by rw [hrows]; omega) hm0, ?_⟩
    rw [← hrows]
    exact paramMaximum_le 0 _ m
  have hk1 : 1 ≤ (k.term.csiparam 1).toInt := by
    rw [← hk, paramMaximum_of_ne (by decide)]
    exact hm1
  have hcols : (k.term.cols.zeroExtend 32).toInt = C := by rw [zeroExtend_toInt, hpk.cols]
  generalize hl : Ohwes.paramMaximum 1 (k.term.cols.zeroExtend 32) k = l
  have hpl : OnScreen C R l := by
    rw [← hl]
    exact hpk.paramMaximum 1 _
  have hl0 : l.term.csiparam 0 = k.term.csiparam 0 := by
    rw [← hl]
    exact paramMaximum_of_ne (by decide) _ k
  have hl1 : 1 ≤ (l.term.csiparam 1).toInt ∧ (l.term.csiparam 1).toInt ≤ C := by
    rw [← hl]
    refine ⟨paramMaximum_ge (by rw [hcols]; omega) hk1, ?_⟩
    rw [← hcols]
    exact paramMaximum_le 1 _ k
  refine (hpl.setY ?_).setX (param_pred_lt hl1.1 hl1.2 (by omega))
  rw [hl0]
  exact param_pred_lt hk0.1 hk0.2 (by omega)

theorem csiMLoop (h : OnScreen C R s) (i count : Nat) : OnScreen C R (csiMLoop i count s) := by
  induction count generalizing s i with
  | zero => exact h
  | succ count ih =>
    have hnext : OnScreen C R (csiM (Ohwes.paramMinimum i 0 s)
        (((Ohwes.paramMinimum i 0 s).term.csiparam i).truncate 8)) :=
      (h.paramMinimum i 0).congr ⟨rfl, rfl, rfl, rfl, rfl, rfl, rfl⟩
    exact ih hnext (i + 1)

end OnScreen

/-! ## The VGA registers -/

/-- The function only programs the registers of the cursor and the blinking. -/
def ProgramsVga (f : Vt → Vt) : Prop :=
  ∀ s, (f s).term = s.term ∧ (f s).fb = s.fb ∧ (f s).vga.cols = s.vga.cols ∧
    (f s).vga.rows = s.vga.rows

theorem programs_enableBlink : ProgramsVga enableBlink := fun _ => ⟨rfl, rfl, rfl, rfl⟩

theorem programs_enableCursor : ProgramsVga enableCursor := fun _ => ⟨rfl, rfl, rfl, rfl⟩

theorem programs_setCursorPos : ProgramsVga setCursorPos := fun _ => ⟨rfl, rfl, rfl, rfl⟩

theorem programs_updateVgaState : ProgramsVga updateVgaState := fun _ => ⟨rfl, rfl, rfl, rfl⟩

theorem ProgramsVga.ifCurrent {f : Vt → Vt} (hf : ProgramsVga f) (curr : Nat) :
    ProgramsVga (ifCurrent curr f) := by
  intro s
  unfold Ohwes.ifCurrent
  split
  · exact hf s
  · exact ⟨rfl, rfl, rfl, rfl⟩

theorem OnScreen.programs {f : Vt → Vt} (h : OnScreen C R s) (hf : ProgramsVga f) :
    OnScreen C R (f s) := by
  obtain ⟨hterm, hfb, hcols, hrows⟩ := hf s
  exact h.congr ⟨by rw [hterm], by rw [hterm], hcols, hrows, by rw [hterm], by rw [hterm], hfb⟩

theorem ScreenOk.programs {f : Vt → Vt} (h : ScreenOk C R s) (hf : ProgramsVga f) :
    ScreenOk C R (f s) := by
  have hterm := (hf s).1
  refine ⟨h.placed.programs hf, ?_, ?_⟩
  · rw [hterm]
    exact h.wrap
  · rw [hterm]
    exact h.param

/-! ## Saving, restoring and resetting -/

namespace OnScreen

theorem saveTerminal (h : OnScreen C R s) : OnScreen C R (saveTerminal s) :=
  ⟨h.cols, h.rows, h.vgaCols, h.vgaRows, h.x_lt, h.y_lt, h.x_lt, h.y_lt, h.fb⟩

theorem saveCursor (h : OnScreen C R s) : OnScreen C R (saveCursor s) :=
  ⟨h.cols, h.rows, h.vgaCols, h.vgaRows, h.x_lt, h.y_lt, h.x_lt, h.y_lt, h.fb⟩

theorem restoreTerminal (h : OnScreen C R s) (curr : Nat) : OnScreen C R (restoreTerminal curr s) := by
  have hset := h.setCursor h.savedX_lt h.savedY_lt
  refine OnScreen.programs (f := ifCurrent curr updateVgaState) ?_
    (programs_updateVgaState.ifCurrent curr)
  exact hset.congr ⟨rfl, rfl, rfl, rfl, rfl, rfl, rfl⟩

theorem restoreCursor (h : OnScreen C R s) (curr : Nat) : OnScreen C R (restoreCursor curr s) :=
  (h.setCursor h.savedX_lt h.savedY_lt).programs (programs_updateVgaState.ifCurrent curr)

end OnScreen

/-- A terminal with the defaults of a screen with room for the cursor. -/
theorem placed_defaults (vga : Vga) (fb : List FbOp) (t : Terminal) (hC : 0 < vga.cols.toNat)
    (hR : 0 < vga.rows.toNat) (hfb : ∀ op ∈ fb, op.Within (vga.rows.toNat * vga.cols.toNat)) :
    OnScreen vga.cols.toNat vga.rows.toNat { term := terminalDefaults vga t, vga := vga, fb := fb } := by
  have hc := vga.cols.isLt
  have hr := vga.rows.isLt
  refine ⟨?_, ?_, rfl, rfl, hC, hR, hC, hR, hfb⟩
  · show (vga.cols.zeroExtend 16).toNat = _
    rw [BitVec.zeroExtend_eq_setWidth, BitVec.toNat_setWidth]
    omega
  · show (vga.rows.zeroExtend 16).toNat = _
    rw [BitVec.zeroExtend_eq_setWidth, BitVec.toNat_setWidth]
    omega

theorem OnScreen.resetTerminal (h : OnScreen C R s) (harea : R * C ≤ 4096) (curr : Nat) :
    OnScreen C R (resetTerminal curr s) := by
  have hx := h.x_lt
  have hy := h.y_lt
  have hvc := h.vgaCols
  have hvr := h.vgaRows
  refine OnScreen.programs (f := ifCurrent curr updateVgaState) (OnScreen.erase ?_ harea _)
    (programs_updateVgaState.ifCurrent curr)
  have hd := placed_defaults s.vga s.fb s.term (by omega) (by omega)
    (by rw [hvc, hvr]; exact h.fb)
  rwa [hvc, hvr] at hd

/-! ## Sequences -/

theorem OnScreen.seqDone (h : OnScreen C R s) : ScreenOk C R (seqDone s) where
  placed := h.congr ⟨rfl, rfl, rfl, rfl, rfl, rfl, rfl⟩
  wrap hw := nomatch hw
  param hp := nomatch hp

theorem ScreenOk.csi (h : ScreenOk C R s) (harea : R * C ≤ 4096) (hstate : s.term.state = .csi)
    (curr : Nat) (c : Byte) : ScreenOk C R (csi curr s c) := by
  have hp := h.placed
  have hx := hp.x_lt
  have h0 : (0 : BitVec 12).toNat < C := Nat.lt_of_le_of_lt (Nat.zero_le _) hx
  unfold Ohwes.csi
  split
  · exact OnScreen.seqDone (hp.withParam fun _ _ ht hn => ht.cursorUp hn)
  · exact OnScreen.seqDone (hp.withParam fun _ _ ht hn => ht.cursorDown hn)
  · exact OnScreen.seqDone (hp.withParam fun _ _ ht hn => ht.cursorRight hn)
  · exact OnScreen.seqDone (hp.withParam fun _ _ ht hn => ht.cursorLeft hn)
  · exact OnScreen.seqDone (hp.withParam fun _ _ ht hn => (ht.setX h0).cursorDown hn)
  · exact OnScreen.seqDone (hp.withParam fun _ _ ht hn => (ht.setX h0).cursorUp hn)
  · exact hp.cursorColumn.seqDone
  · exact hp.cursorPosition.seqDone
  · exact OnScreen.seqDone (hp.withParam fun _ n ht _ => ht.erase harea n)
  · exact OnScreen.seqDone (hp.withParam fun _ n ht _ => ht.eraseLine harea n)
  · exact OnScreen.seqDone (hp.withParam fun _ n ht _ => ht.scroll n.toInt)
  · exact OnScreen.seqDone (hp.withParam fun _ n ht _ => ht.scroll (-n.toInt))
  · exact (hp.csiMLoop 0 _).seqDone
  · exact hp.saveCursor.seqDone
  · exact (hp.restoreCursor curr).seqDone
  · -- A parameter separator: one parameter too many ends the sequence.
    have hnext : OnScreen C R (s.setParamidx (s.term.paramidx + 1)) :=
      hp.congr ⟨rfl, rfl, rfl, rfl, rfl, rfl, rfl⟩
    dsimp only
    split
    · exact hnext.seqDone
    · next hlt => exact ⟨hnext, h.wrap, fun _ => Nat.lt_of_not_le hlt⟩
  · split
    · exact ⟨hp.congr ⟨rfl, rfl, rfl, rfl, rfl, rfl, rfl⟩, h.wrap, fun _ => h.param hstate⟩
    · exact hp.seqDone

theorem OnScreen.setTabstop (h : OnScreen C R s) (i : Nat) (b : Byte) :
    OnScreen C R (s.setTabstop i b) := h.congr ⟨rfl, rfl, rfl, rfl, rfl, rfl, rfl⟩

theorem OnScreen.setBlinkOn (h : OnScreen C R s) (b : Bool) : OnScreen C R (s.setBlinkOn b) :=
  h.congr ⟨rfl, rfl, rfl, rfl, rfl, rfl, rfl⟩

theorem OnScreen.setHidden (h : OnScreen C R s) (b : Bool) : OnScreen C R (s.setHidden b) :=
  ⟨h.cols, h.rows, h.vgaCols, h.vgaRows, h.x_lt, h.y_lt, h.savedX_lt, h.savedY_lt, h.fb⟩

theorem ScreenOk.esc (h : ScreenOk C R s) (harea : R * C ≤ 4096) (curr : Nat) {c : Byte}
    (htop : toChar c = 'M' → s.term.cursor.y ≠ 0) : ScreenOk C R (esc curr s c) := by
  have hp := h.placed
  have hblink := programs_enableBlink.ifCurrent curr
  have hcursor := programs_enableCursor.ifCurrent curr
  unfold Ohwes.esc
  split
  · exact hp.lineFeed.seqDone
  · exact hp.carriageReturn.lineFeed.seqDone
  · exact (hp.setTabstop _ 1).seqDone
  · next hc => exact (hp.reverseLinefeed (htop hc)).seqDone
  · exact ⟨hp.congr ⟨rfl, rfl, rfl, rfl, rfl, rfl, rfl⟩, h.wrap, fun _ => (by decide : 0 < 16)⟩
  · exact ((hp.setBlinkOn false).programs hblink).seqDone
  · exact ((hp.setBlinkOn true).programs hblink).seqDone
  · exact ((hp.setHidden true).programs hcursor).seqDone
  · exact ((hp.setHidden false).programs hcursor).seqDone
  · exact hp.saveTerminal.seqDone
  · exact (hp.restoreTerminal curr).seqDone
  · exact (hp.resetTerminal harea curr).seqDone
  · exact (hp.setTabstop _ 0).seqDone
  · exact hp.seqDone

/-! ## Characters -/

theorem lineFeed_needWrap (s : Vt) : (lineFeed s).term.needWrap = false := by
  unfold lineFeed
  rfl

/-- A line feed leaves the column and the state alone. -/
theorem lineFeed_frame (s : Vt) : (lineFeed s).term.cursor.x = s.term.cursor.x ∧
    (lineFeed s).term.state = s.term.state ∧ (lineFeed s).term.paramidx = s.term.paramidx := by
  unfold lineFeed
  dsimp only
  rw [scroll_setY]
  have hterm := scroll_term s 1
  generalize scroll s 1 = t at hterm
  split
  · show t.term.cursor.x = _ ∧ t.term.state = _ ∧ t.term.paramidx = _
    rw [hterm]
    exact ⟨rfl, rfl, rfl⟩
  · exact ⟨rfl, rfl, rfl⟩

theorem ScreenOk.lineFeed (h : ScreenOk C R s) : ScreenOk C R (lineFeed s) := by
  obtain ⟨_, hstate, hparam⟩ := lineFeed_frame s
  refine ⟨h.placed.lineFeed, fun hw => ?_, ?_⟩
  · rw [lineFeed_needWrap] at hw
    cases hw
  · rw [hstate, hparam]
    exact h.param

theorem ScreenOk.carriageReturn (h : ScreenOk C R s) : ScreenOk C R (carriageReturn s) :=
  ⟨h.placed.carriageReturn, fun hw => (nomatch hw), h.param⟩

/-- A tab goes to the last column at most; a wrap that is pending stays so there. -/
theorem ScreenOk.tab (h : ScreenOk C R s) : ScreenOk C R (tab s) := by
  refine ⟨h.placed.tab, fun hw => ?_, h.param⟩
  have hx := h.wrap hw
  have hlt := h.placed.x_lt
  have hc := s.vga.cols.isLt
  have hvc := h.placed.vgaCols
  have hcols := h.placed.cols
  have hsucc : (s.term.cursor.x + 1).toNat = C := by
    rw [BitVec.toNat_add]
    show (s.term.cursor.x.toNat + 1) % 4096 = C
    omega
  have hloop : (tabLoop s.term 4096 s.term.cursor.x).toNat = C := by
    unfold tabLoop
    rw [if_pos (by omega)]
    split
    · exact hsucc
    · unfold tabLoop
      rw [if_neg (by omega)]
      exact hsucc
  show (if (tabLoop s.term 4096 s.term.cursor.x).toNat ≥ s.term.cols.toNat then
    BitVec.ofInt 12 ((s.term.cols.toNat : Int) - 1) else _).toNat = C - 1
  rw [if_pos (by omega), BitVec.toNat_ofInt]
  omega

theorem OnScreen.fixAttr (h : OnScreen C R s) : OnScreen C R (fixAttr s) := by
  unfold Ohwes.fixAttr
  split
  · exact h.congr ⟨rfl, rfl, rfl, rfl, rfl, rfl, rfl⟩
  · exact h

theorem fixAttr_frame (s : Vt) : (fixAttr s).term.cursor = s.term.cursor ∧
    (fixAttr s).term.needWrap = s.term.needWrap ∧ (fixAttr s).term.state = s.term.state ∧
      (fixAttr s).term.paramidx = s.term.paramidx := by
  unfold fixAttr
  split
  · exact ⟨rfl, rfl, rfl, rfl⟩
  · exact ⟨rfl, rfl, rfl, rfl⟩

/-- Writing a cell of the screen. -/
theorem ScreenOk.writeCell (h : ScreenOk C R s) {pos : BitVec 16} (hpos : pos.toNat < R * C)
    (c : Byte) : ScreenOk C R (setFbAttr (fixAttr (setFbChar s pos c)) pos
      (fixAttr (setFbChar s pos c)).term.attr) := by
  have hchar : OnScreen C R (setFbChar s pos c) := h.placed.access (.setChar pos c) hpos
  obtain ⟨hcur, hwrap, hstate, hparam⟩ := fixAttr_frame (setFbChar s pos c)
  refine ⟨hchar.fixAttr.access (.setAttr pos _) hpos, ?_, ?_⟩
  · show (fixAttr (setFbChar s pos c)).term.needWrap = true →
      (fixAttr (setFbChar s pos c)).term.cursor.x.toNat = C - 1
    rw [hcur, hwrap]
    exact h.wrap
  · show (fixAttr (setFbChar s pos c)).term.state = .csi →
      (fixAttr (setFbChar s pos c)).term.paramidx < MAX_CSIPARAM
    rw [hstate, hparam]
    exact h.param

/-- The wrap that is pending comes first. -/
def wrapped (s : Vt) : Vt := if s.term.needWrap then lineFeed (carriageReturn s) else s

theorem ScreenOk.wrapped (h : ScreenOk C R s) :
    ScreenOk C R (wrapped s) ∧ (wrapped s).term.needWrap = false := by
  unfold Ohwes.wrapped
  by_cases hw : s.term.needWrap = true
  · rw [if_pos hw]
    exact ⟨h.carriageReturn.lineFeed, lineFeed_needWrap _⟩
  · rw [if_neg hw]
    exact ⟨h, by simpa using hw⟩

theorem ScreenOk.printChar (h : ScreenOk C R s) (harea : R * C ≤ 4096) (curr : Nat) (c : Byte) :
    ScreenOk C R (printChar curr s c) := by
  obtain ⟨hm, hnowrap⟩ := h.wrapped
  have hw : Ohwes.printChar curr s c = Ohwes.printChar curr (Ohwes.wrapped s) c := by
    unfold Ohwes.printChar
    rw [hnowrap]
    rfl
  rw [hw]
  generalize Ohwes.wrapped s = m at hm hnowrap
  have hx := hm.placed.x_lt
  have hc := m.vga.cols.isLt
  have hvc := hm.placed.vgaCols
  obtain ⟨hpos, hlt⟩ := hm.placed.xy2pos_eq harea hx hm.placed.y_lt
  rw [← hpos] at hlt
  have hsucc : (m.term.cursor.x + 1).toNat = m.term.cursor.x.toNat + 1 := by
    rw [BitVec.toNat_add]
    show (m.term.cursor.x.toNat + 1) % 4096 = _
    omega
  have hcols : (m.setX (m.term.cursor.x + 1)).term.cols.toNat = C := hm.placed.cols
  unfold Ohwes.printChar
  simp only [hnowrap, Bool.false_eq_true, if_false, hcols]
  split
  · next hge =>
    -- The cursor stays in the last column.
    have hback : (m.setX (m.term.cursor.x + 1)).term.cursor.x - 1 = m.term.cursor.x := by
      show m.term.cursor.x + 1 - 1 = _
      bv_omega
    have hlast : m.term.cursor.x.toNat + 1 ≥ C := by
      rw [← hsucc]
      exact hge
    rw [hback]
    have hput : ScreenOk C R
        (((m.setX (m.term.cursor.x + 1)).setX m.term.cursor.x).setNeedWrap true) := by
      refine ⟨(hm.placed.setX hx).congr ⟨rfl, rfl, rfl, rfl, rfl, rfl, rfl⟩, fun _ => ?_, hm.param⟩
      show m.term.cursor.x.toNat = C - 1
      omega
    exact hput.writeCell hlt c
  · next hnot =>
    have hnext : (m.term.cursor.x + 1).toNat < C := Nat.lt_of_not_le hnot
    refine ScreenOk.programs ?_ (programs_setCursorPos.ifCurrent curr)
    have hput : ScreenOk C R (m.setX (m.term.cursor.x + 1)) := by
      refine ⟨hm.placed.setX hnext, fun hw => ?_, hm.param⟩
      have hfalse : m.term.needWrap = true := hw
      rw [hnowrap] at hfalse
      cases hfalse
    exact hput.writeCell hlt c

theorem ScreenOk.putNormal (h : ScreenOk C R s) (harea : R * C ≤ 4096) (curr : Nat) (c : Byte) :
    ScreenOk C R (putNormal curr s c) := by
  have hset := programs_setCursorPos.ifCurrent curr
  unfold Ohwes.putNormal
  split_ifs
  · exact h.programs hset
  · refine ScreenOk.programs ?_ hset
    exact ⟨h.placed.backspace, fun hw => (nomatch hw), h.param⟩
  · exact h.tab.programs hset
  · exact h.lineFeed.programs hset
  · exact h.carriageReturn.programs hset
  · exact ⟨h.placed.congr ⟨rfl, rfl, rfl, rfl, rfl, rfl, rfl⟩, h.wrap, fun hp => nomatch hp⟩
  · exact ⟨h.placed.congr ⟨rfl, rfl, rfl, rfl, rfl, rfl, rfl⟩, h.wrap, fun hp => nomatch hp⟩
  · exact h
  · exact h.printChar harea curr c

/-- A reverse line feed on the first row: the character that breaks the bounds. -/
def ReversesAtTop (s : Vt) (c : Byte) : Prop :=
  s.term.state = .esc ∧ toChar c = 'M' ∧ s.term.cursor.y = 0

instance decidableReversesAtTop (s : Vt) (c : Byte) : Decidable (ReversesAtTop s c) :=
  inferInstanceAs (Decidable (_ ∧ _ ∧ _))

theorem ScreenOk.putchar (h : ScreenOk C R s) (harea : R * C ≤ 4096) (curr : Nat) {c : Byte}
    (hc : ¬ ReversesAtTop s c) : ScreenOk C R (putchar curr s c) := by
  have hset := programs_setCursorPos.ifCurrent curr
  unfold Ohwes.putchar
  split
  · exact h.putNormal harea curr c
  cases hstate : s.term.state with
  | esc =>
    refine ScreenOk.programs (h.esc harea curr fun hM h0 => ?_) hset
    exact hc ⟨hstate, hM, h0⟩
  | csi => exact (h.csi harea hstate curr c).programs hset
  | norm => exact h.putNormal harea curr c

/-! ## Runs -/

/-- Write one character. -/
def putcharStep (curr : Nat) (s : Vt) (c : Byte) : Call Vt := .ok (terminalPutchar curr s c).2

/-- Write a string of characters. -/
def putchars (curr : Nat) (s : Vt) (bytes : List Byte) : Vt :=
  bytes.foldl (fun s c => (terminalPutchar curr s c).2) s

theorem putchars_append (curr : Nat) (s : Vt) (a b : List Byte) :
    putchars curr s (a ++ b) = putchars curr (putchars curr s a) b := List.foldl_append ..

theorem putchars_cons (curr : Nat) (s : Vt) (c : Byte) (bytes : List Byte) :
    putchars curr s (c :: bytes) = putchars curr (terminalPutchar curr s c).2 bytes := rfl

theorem run_putchars (curr : Nat) (s : Vt) (bytes : List Byte) :
    run (putcharStep curr) s bytes = .ok (putchars curr s bytes) := by
  induction bytes generalizing s with
  | nil => rfl
  | cons c bytes ih => exact ih (terminalPutchar curr s c).2

/-- A terminal that is printing takes no character. -/
theorem putchars_printing (curr : Nat) (h : s.term.printing = true) (bytes : List Byte) :
    putchars curr s bytes = s := by
  induction bytes with
  | nil => rfl
  | cons c bytes ih =>
    have hdrop : (terminalPutchar curr s c).2 = s := by
      unfold terminalPutchar
      rw [if_pos h]
    rw [putchars_cons, hdrop, ih]

theorem putchars_idle (curr : Nat) (h : s.term.printing = false) (bytes : List Byte) :
    (putchars curr s bytes).term.printing = false := by
  induction bytes generalizing s with
  | nil => exact h
  | cons c bytes ih =>
    have hdone : (terminalPutchar curr s c).2.term.printing = false := by
      unfold terminalPutchar
      rw [h]
      rfl
    exact ih hdone

/-- In any state of the parser `ESC` and a character carry out the sequence. -/
theorem putchars_escape (curr : Nat) (h : s.term.printing = false) {c : Byte} (hc : iscntrl c = false) :
    putchars curr s [ASCII_ESC, c] =
      (ifCurrent curr setCursorPos (esc curr ((s.setPrinting true).setState .esc) c)).setPrinting
        false := by
  have hesc : (terminalPutchar curr s ASCII_ESC).2 =
      ((s.setPrinting true).setState .esc).setPrinting false := by
    unfold terminalPutchar
    rw [h]
    rfl
  have hnext : (terminalPutchar curr (((s.setPrinting true).setState .esc).setPrinting false) c).2 =
      (putchar curr ((s.setPrinting true).setState .esc) c).setPrinting false := rfl
  rw [putchars_cons, hesc, putchars_cons, hnext]
  unfold putchar
  rw [hc]
  rfl

theorem TerminalOk.step (h : TerminalOk C R s) (harea : R * C ≤ 4096) (curr : Nat) {c : Byte}
    (hc : ¬ ReversesAtTop s c) : TerminalOk C R (terminalPutchar curr s c).2 := by
  unfold terminalPutchar
  rw [h.printing, if_neg (by decide)]
  have hstart : ScreenOk C R (s.setPrinting true) :=
    ⟨h.placed.congr ⟨rfl, rfl, rfl, rfl, rfl, rfl, rfl⟩, h.wrap, h.param⟩
  have hput : ScreenOk C R (Ohwes.putchar curr (s.setPrinting true) c) :=
    hstart.putchar harea curr hc
  exact ⟨⟨hput.placed.congr ⟨rfl, rfl, rfl, rfl, rfl, rfl, rfl⟩, hput.wrap, hput.param⟩, rfl⟩

/-- The row wraps around to 4095, below every screen. -/
theorem esc_reverse_row {c : Byte} (curr : Nat) (hM : toChar c = 'M')
    (h0 : s.term.cursor.y = 0) : (esc curr s c).term.cursor.y.toNat = 4095 ∧
      (esc curr s c).term.rows = s.term.rows := by
  unfold esc
  rw [hM]
  dsimp only
  unfold reverseLinefeed
  dsimp only
  rw [if_neg (by omega)]
  refine ⟨?_, rfl⟩
  show (s.term.cursor.y - 1).toNat = 4095
  rw [h0]
  rfl

theorem TerminalOk.step_out (h : TerminalOk C R s) (curr : Nat) {c : Byte}
    (hc : ReversesAtTop s c) : ¬ InBounds (terminalPutchar curr s c).2 := by
  obtain ⟨hstate, hM, h0⟩ := hc
  have hctl : ∀ c : Byte, toChar c = 'M' → iscntrl c = false := by decide +kernel
  have hr := s.vga.rows.isLt
  have hrows := h.placed.rows
  have hvr := h.placed.vgaRows
  have hs : (s.setPrinting true).term.state = .esc := hstate
  obtain ⟨hrow, hsame⟩ := esc_reverse_row (s := s.setPrinting true) curr hM h0
  have hset := (programs_setCursorPos.ifCurrent curr) (esc curr (s.setPrinting true) c)
  intro hin
  have hy := hin.y_lt
  unfold terminalPutchar putchar at hy
  rw [h.printing, if_neg (by decide), hctl c hM, if_neg (by decide), hs] at hy
  have hlt : (ifCurrent curr setCursorPos (esc curr (s.setPrinting true) c)).term.cursor.y.toNat <
      (ifCurrent curr setCursorPos (esc curr (s.setPrinting true) c)).term.rows.toNat := hy
  rw [hset.1, hrow, hsame] at hlt
  have hrow' : (s.setPrinting true).term.rows.toNat = R := hrows
  omega

end Invariant

/-- A terminal in its default state. -/
def defaultVt (vga : Vga) (t : Terminal) : Vt := { term := terminalDefaults vga t, vga, fb := [] }

/-- **Bounds.** For a terminal that starts in its default state, every state a run of characters
passes through is in bounds if and only if the screen has a row and a column and no character of the
run is a reverse line feed on the first row. -/
theorem terminal_in_bounds_iff (curr : Nat) (vga : Vga) (t : Terminal) (bytes : List Byte)
    (hprinting : t.printing = false) (hcols : vga.cols.toNat ≤ 80)
    (harea : vga.rows.toNat * vga.cols.toNat ≤ 4096) :
    (∀ s, Reaches (putcharStep curr) (defaultVt vga t) bytes s → InBounds s) ↔
      (0 < vga.cols.toNat ∧ 0 < vga.rows.toNat) ∧
        Throughout (putcharStep curr) (fun s c => ¬ ReversesAtTop s c) (defaultVt vga t) bytes := by
  have hiff : 0 < vga.cols.toNat → 0 < vga.rows.toNat →
      ((∀ s, Reaches (putcharStep curr) (defaultVt vga t) bytes s → InBounds s) ↔
        Throughout (putcharStep curr) (fun s c => ¬ ReversesAtTop s c) (defaultVt vga t) bytes) := by
    intro hC hR
    have hplaced : OnScreen vga.cols.toNat vga.rows.toNat (defaultVt vga t) :=
      placed_defaults vga [] t hC hR fun _ hop => absurd hop List.not_mem_nil
    have hstart : TerminalOk vga.cols.toNat vga.rows.toNat (defaultVt vga t) :=
      ⟨⟨hplaced, fun hw => (nomatch hw), fun hp => (nomatch hp)⟩, hprinting⟩
    refine throughout_iff_reached (fun _ h => h.inBounds hcols) ?_ ?_ hstart
    · intro s c u hs hc hstep
      cases hstep
      exact hs.step harea curr hc
    · intro s c hs hc
      exact ⟨_, rfl, hs.step_out curr (not_not.mp hc)⟩
  constructor
  · intro h
    have hin := h _ (Reaches.start _ _)
    have hC : 0 < vga.cols.toNat := by
      have hx := hin.x_lt
      change _ < (vga.cols.zeroExtend 16).toNat at hx
      rw [BitVec.zeroExtend_eq_setWidth, BitVec.toNat_setWidth] at hx
      omega
    have hR : 0 < vga.rows.toNat := by
      have hy := hin.y_lt
      change _ < (vga.rows.zeroExtend 16).toNat at hy
      rw [BitVec.zeroExtend_eq_setWidth, BitVec.toNat_setWidth] at hy
      omega
    exact ⟨⟨hC, hR⟩, (hiff hC hR).mp h⟩
  · rintro ⟨⟨hC, hR⟩, h⟩
    exact (hiff hC hR).mpr h

/-- The screen of 80 by 25 cells that the firmware sets up. -/
def textVga : Vga :=
  { cols := 80, rows := 25, cursorPos := 0, cursorShape := 0x0E0D, cursorOn := true, blink := false }

/-- A terminal before anything has touched it. -/
def zeroTerminal (number : Nat) : Terminal where
  number := number
  state := .norm
  printing := false
  cols := 0
  rows := 0
  tabstops := fun _ => 0
  csiparam := fun _ => 0
  paramidx := 0
  blinkOn := false
  needWrap := false
  attr := { defaultAttr with fg := 0 }
  cursor := { shape := 0, x := 0, y := 0, hidden := false }
  defaultAttr := { defaultAttr with fg := 0 }
  defaultCursor := { shape := 0, x := 0, y := 0, hidden := false }
  saved :=
    { blinkOn := false, tabstops := fun _ => 0, attr := { defaultAttr with fg := 0 }
      cursor := { shape := 0, x := 0, y := 0, hidden := false } }

def ctrl (c : Byte) (chars : List Char) : List Byte := c :: text chars

/-- Text, the last column with a tab and a wrap, the last row, and a way back up. -/
def cursorBytes : List Byte :=
  text ['h', 'i'] ++ ctrl ASCII_ESC ['[', '9', '9', ';', '8', '0', 'H', 'x'] ++ [ASCII_HT, 0x79] ++
    ctrl ASCII_ESC ['M'] ++ ctrl ASCII_ESC ['[', '1', 'K'] ++
      ctrl ASCII_ESC ['[', '2', '1', '4', '7', '4', '8', '3', '6', '4', '7', 'B']

theorem terminal_in_bounds_text :
    (0 < textVga.cols.toNat ∧ 0 < textVga.rows.toNat) ∧
      ∀ s, Reaches (putcharStep 1) (defaultVt textVga (zeroTerminal 1)) cursorBytes s → InBounds s :=
  ⟨by decide, (terminal_in_bounds_iff 1 textVga (zeroTerminal 1) cursorBytes rfl (by decide)
    (by decide)).mpr ⟨by decide, by decide +kernel⟩⟩

/-- The first character after boot: a reverse line feed. -/
theorem reverse_linefeed_leaves_screen :
    ∃ s, Reaches (putcharStep 1) (defaultVt textVga (zeroTerminal 1)) (ctrl ASCII_ESC ['M']) s ∧
      s.term.cursor.y.toNat = 4095 ∧ ¬ InBounds s := by
  have h : ∃ s, run (putcharStep 1) (defaultVt textVga (zeroTerminal 1)) (ctrl ASCII_ESC ['M']) =
      .ok s ∧ s.term.cursor.y.toNat = 4095 ∧ s.term.rows.toNat = 25 := by decide +kernel
  obtain ⟨s, hrun, hy, hrows⟩ := h
  refine ⟨s, Reaches.of_run hrun, hy, fun hin => ?_⟩
  have hlt := hin.y_lt
  omega

end Ohwes

import Ohwes.Char.TerminalIsolation
import Ohwes.Libc.Memmove

/-! # The cells of the screen

A cell is a character and an attribute, two bytes of the frame buffer. What an access does to the
bytes (`FbOp.perform`, with the loops of `memmove`) it does to whole cells (`FbOp.onCells`), and so
scrolling and erasing are described by the cells: `scroll_cells` and `erase_cells`. -/

namespace Ohwes
set_option autoImplicit false
open Library

abbrev Cell := Byte × Byte

/-- Carry out an access on the frame buffer at `base`. -/
def FbOp.perform (base : Nat) (m : Nat → Byte) : FbOp → Nat → Byte
  | .setChar pos ch => Function.update m (base + 2 * pos.toNat) ch
  | .setAttr pos attr => Function.update m (base + (2 * pos.toNat + 1)) attr
  | .move dst src n => Flat.memmove m (base + 2 * dst) (base + 2 * src) (2 * n)

def performAll (base : Nat) (m : Nat → Byte) (ops : List FbOp) : Nat → Byte :=
  ops.foldl (FbOp.perform base) m

/-- Cell `p` of the frame buffer at `base`. -/
def cellAt (base : Nat) (m : Nat → Byte) (p : Nat) : Cell :=
  (m (base + 2 * p), m (base + (2 * p + 1)))

/-- The accesses a function makes, the first one first. -/
def accesses (f : Vt → Vt) (s : Vt) : List FbOp := (f { s with fb := [] }).fb.reverse

/-- A blank. -/
def blankCell (attr : CharAttr) : Cell := (SPACE, (vgaAttr attr).value)

/-! ## Accesses by cells -/

/-- What an access does to the cells. -/
def FbOp.onCells (cells : Nat → Cell) : FbOp → Nat → Cell
  | .setChar pos ch => Function.update cells pos.toNat (ch, (cells pos.toNat).2)
  | .setAttr pos attr => Function.update cells pos.toNat ((cells pos.toNat).1, attr)
  | .move dst src n => fun p => if dst ≤ p ∧ p < dst + n then cells (src + (p - dst)) else cells p

/-- An access is the same as in the model of the screens. -/
theorem FbOp.perform_eq_drawn (base : Nat) (m : Nat → Byte) (op : FbOp) :
    op.perform base m = op.drawn base m := by
  cases op with
  | setChar pos ch => exact (overlay_singleton m _ ch).symm
  | setAttr pos attr => exact (overlay_singleton m _ attr).symm
  | move dst src n => exact Flat.memmove_eq_overlay m _ _ _

theorem cellAt_move (base : Nat) (m : Nat → Byte) (dst src n p : Nat) :
    cellAt base (FbOp.perform base m (.move dst src n)) p =
      FbOp.onCells (cellAt base m) (.move dst src n) p := by
  unfold cellAt FbOp.perform FbOp.onCells
  dsimp only
  rw [Flat.memmove_eq_overlay, overlay_slice_apply, overlay_slice_apply]
  by_cases h : dst ≤ p ∧ p < dst + n
  · have hlow : base + 2 * src + (base + 2 * p - (base + 2 * dst)) = base + 2 * (src + (p - dst)) := by
      omega
    have hhigh : base + 2 * src + (base + (2 * p + 1) - (base + 2 * dst)) =
        base + (2 * (src + (p - dst)) + 1) := by omega
    rw [if_pos h, if_pos (by omega), if_pos (by omega), hlow, hhigh]
  · rw [if_neg h, if_neg (by omega), if_neg (by omega)]

theorem cellAt_perform (base : Nat) (m : Nat → Byte) (op : FbOp) :
    cellAt base (op.perform base m) = op.onCells (cellAt base m) := by
  funext p
  cases op with
  | setChar pos ch =>
    unfold FbOp.onCells FbOp.perform cellAt
    by_cases hp : p = pos.toNat
    · subst hp
      simp
    · have hother : base + (2 * p + 1) ≠ base + 2 * pos.toNat := by omega
      simp [hp, Function.update_of_ne hother]
  | setAttr pos attr =>
    unfold FbOp.onCells FbOp.perform cellAt
    by_cases hp : p = pos.toNat
    · subst hp
      simp
    · have hother : base + 2 * p ≠ base + (2 * pos.toNat + 1) := by omega
      simp [hp, Function.update_of_ne hother]
  | move dst src n => exact cellAt_move base m dst src n p

theorem cellAt_performAll (base : Nat) (m : Nat → Byte) (ops : List FbOp) :
    cellAt base (performAll base m ops) = ops.foldl FbOp.onCells (cellAt base m) := by
  induction ops generalizing m with
  | nil => rfl
  | cons op ops ih =>
    rw [List.foldl_cons, ← cellAt_perform]
    exact ih (op.perform base m)

/-! ## Blanking -/

/-- The accesses that blank `count` cells from `start` on. -/
def blankOps (attr : CharAttr) (start count : Nat) : List FbOp :=
  (List.range' start count).flatMap fun p =>
    [.setChar (BitVec.ofNat 16 p) SPACE, .setAttr (BitVec.ofNat 16 p) (vgaAttr attr).value]

theorem blankOps_succ (attr : CharAttr) (start count : Nat) :
    blankOps attr start (count + 1) = .setChar (BitVec.ofNat 16 start) SPACE ::
      .setAttr (BitVec.ofNat 16 start) (vgaAttr attr).value :: blankOps attr (start + 1) count := by
  simp [blankOps, List.range'_succ]

theorem blankCells_fb (s : Vt) (start count : Nat) :
    (blankCells s start count).fb = (blankOps s.term.attr start count).reverse ++ s.fb := by
  induction count generalizing s start with
  | zero => rfl
  | succ count ih =>
    rw [blankCells, ih, blankOps_succ]
    simp [setFbAttr, setFbChar]

/-- The positions have 16 bits. -/
theorem onCells_blankOps (cells : Nat → Cell) (attr : CharAttr) {start count : Nat}
    (h : start + count ≤ 65536) :
    (blankOps attr start count).foldl FbOp.onCells cells =
      fun p => if start ≤ p ∧ p < start + count then blankCell attr else cells p := by
  induction count generalizing cells start with
  | zero =>
    funext p
    rw [if_neg (by omega)]
    rfl
  | succ count ih =>
    have hpos : (BitVec.ofNat 16 start).toNat = start := by
      rw [BitVec.toNat_ofNat]
      omega
    have hcell : FbOp.onCells (FbOp.onCells cells (.setChar (BitVec.ofNat 16 start) SPACE))
        (.setAttr (BitVec.ofNat 16 start) (vgaAttr attr).value) =
          Function.update cells start (blankCell attr) := by
      simp [FbOp.onCells, hpos, blankCell]
    rw [blankOps_succ, List.foldl_cons, List.foldl_cons, hcell, ih _ (by omega)]
    funext p
    by_cases hp : p = start
    · subst hp
      rw [if_neg (by omega), if_pos (by omega), Function.update_self]
    · rw [Function.update_of_ne hp]
      by_cases hin : start + 1 ≤ p ∧ p < start + 1 + count
      · rw [if_pos hin, if_pos (by omega)]
      · rw [if_neg hin, if_neg (by omega)]

theorem blankOps_within (attr : CharAttr) {start count area : Nat} (h : start + count ≤ area) :
    ∀ op ∈ blankOps attr start count, op.Within area := by
  intro op hop
  obtain ⟨p, hp, hmem⟩ := List.mem_flatMap.mp hop
  rw [List.mem_range'_1] at hp
  have hpos : (BitVec.ofNat 16 p).toNat ≤ p := by
    rw [BitVec.toNat_ofNat]
    exact Nat.mod_le p _
  have hlt : (BitVec.ofNat 16 p).toNat < area := by omega
  rcases List.mem_cons.mp hmem with rfl | hmem
  · exact hlt
  · rw [List.mem_singleton] at hmem
    subst hmem
    exact hlt

/-- Accesses inside the frame buffer leave the memory around it alone. -/
theorem performAll_outside {base area : Nat} {ops : List FbOp} (h : ∀ op ∈ ops, op.Within area)
    (m : Nat → Byte) {a : Nat} (ha : a < base ∨ base + 2 * area ≤ a) :
    performAll base m ops a = m a := by
  induction ops generalizing m with
  | nil => rfl
  | cons op ops ih =>
    have hop : op.perform base m a = m a := by
      have hin := h op (List.mem_cons_self ..)
      cases op with
      | setChar pos ch =>
        have hpos : pos.toNat < area := hin
        have hne : a ≠ base + 2 * pos.toNat := by omega
        exact Function.update_of_ne hne ch m
      | setAttr pos attr =>
        have hpos : pos.toNat < area := hin
        have hne : a ≠ base + (2 * pos.toNat + 1) := by omega
        exact Function.update_of_ne hne attr m
      | move dst src n =>
        have hmove : dst + n ≤ area ∧ src + n ≤ area := hin
        unfold FbOp.perform
        dsimp only
        rw [Flat.memmove_eq_overlay, overlay_slice_apply, if_neg (by omega)]
    exact (ih (fun o ho => h o (List.mem_cons_of_mem op ho)) (op.perform base m)).trans hop

/-! ## Scrolling -/

/-- A cell lies before row `k` if its row does. -/
theorem cell_lt_iff {r c k C : Nat} (hc : c < C) : r * C + c < k * C ↔ r < k := by
  constructor
  · intro h
    by_contra hge
    have hle : k * C ≤ r * C := Nat.mul_le_mul_right C (by omega)
    omega
  · intro h
    have hle : (r + 1) * C ≤ k * C := Nat.mul_le_mul_right C h
    rw [Nat.succ_mul] at hle
    omega

/-- The accesses of `scroll`. -/
theorem accesses_scroll (s : Vt) (n : Int) :
    accesses (scroll · n) s =
      let k := min n.natAbs s.term.rows.toNat
      let blank := k * s.term.cols.toNat
      let kept := s.term.rows.toNat * s.term.cols.toNat - blank
      if k = 0 then []
      else if n < 0 then .move blank 0 kept :: blankOps s.term.attr 0 blank
      else .move 0 blank kept :: blankOps s.term.attr kept blank := by
  unfold accesses scroll
  dsimp only
  by_cases hk : min n.natAbs s.term.rows.toNat = 0
  · rw [if_pos hk, if_pos hk]
    rfl
  · rw [if_neg hk, if_neg hk]
    by_cases hn : n < 0
    · simp [hn, blankCells_fb]
    · simp [hn, blankCells_fb]

/-- What a screen looks like after `scroll`. -/
def scrolledCell (R C : Nat) (attr : CharAttr) (n : Int) (cells : Nat → Cell) (r c : Nat) : Cell :=
  if 0 ≤ (r : Int) + n ∧ (r : Int) + n < R then cells (((r : Int) + n).toNat * C + c)
  else blankCell attr

theorem onCells_scroll (s : Vt) (n : Int) (cells : Nat → Cell)
    (harea : s.term.rows.toNat * s.term.cols.toNat ≤ 4096) {r c : Nat} (hr : r < s.term.rows.toNat)
    (hc : c < s.term.cols.toNat) :
    (accesses (scroll · n) s).foldl FbOp.onCells cells (r * s.term.cols.toNat + c) =
      scrolledCell s.term.rows.toNat s.term.cols.toNat s.term.attr n cells r c := by
  rw [accesses_scroll]
  generalize s.term.rows.toNat = R at *
  generalize s.term.cols.toNat = C at *
  generalize hk : min n.natAbs R = k
  dsimp only
  have hkR : k * C ≤ R * C := Nat.mul_le_mul_right C (by omega)
  have hsub : R * C - k * C = (R - k) * C := (Nat.sub_mul R k C).symm
  have hin : r * C + c < R * C := (cell_lt_iff hc).mpr hr
  unfold scrolledCell
  by_cases h0 : k = 0
  · have hn : n = 0 := by omega
    subst hn
    rw [if_pos h0, if_pos (by omega)]
    simp
  · rw [if_neg h0]
    by_cases hn : n < 0
    · rw [if_pos hn, List.foldl_cons, onCells_blankOps _ _ (by omega)]
      dsimp only
      by_cases hrk : r < k
      · have hlt : r * C + c < k * C := (cell_lt_iff hc).mpr hrk
        rw [if_pos (by omega), if_neg (by omega)]
      · have hge : ¬ r * C + c < k * C := fun hlt => hrk ((cell_lt_iff hc).mp hlt)
        have hrow : ((r : Int) + n).toNat = r - k := by omega
        have hfrom : 0 + (r * C + c - k * C) = (r - k) * C + c := by
          rw [Nat.sub_mul]
          have hle : k * C ≤ r * C := Nat.mul_le_mul_right C (by omega)
          omega
        rw [if_neg (by omega), if_pos (by omega), hrow, ← hfrom]
        unfold FbOp.onCells
        exact if_pos (by omega)
    · rw [if_neg hn, List.foldl_cons, onCells_blankOps _ _ (by omega), hsub]
      dsimp only
      have hlt : r * C + c < (R - k) * C ↔ r < R - k := cell_lt_iff hc
      by_cases hrk : r < R - k
      · have hp := hlt.mpr hrk
        have hrow : ((r : Int) + n).toNat = r + k := by omega
        have hfrom : k * C + (r * C + c - 0) = (r + k) * C + c := by
          rw [Nat.add_mul]
          omega
        rw [if_neg (by omega), if_pos (by omega), hrow, ← hfrom]
        unfold FbOp.onCells
        exact if_pos (by omega)
      · have hp : ¬ r * C + c < (R - k) * C := fun h => hrk (hlt.mp h)
        rw [if_pos (by omega), if_neg (by omega)]

theorem scroll_within (s : Vt) (n : Int) :
    ∀ op ∈ accesses (scroll · n) s, op.Within (s.term.rows.toNat * s.term.cols.toNat) := by
  rw [accesses_scroll]
  generalize s.term.rows.toNat = R
  generalize s.term.cols.toNat = C
  generalize hk : min n.natAbs R = k
  dsimp only
  have hkR : k * C ≤ R * C := Nat.mul_le_mul_right C (by omega)
  intro op hop
  by_cases h0 : k = 0
  · rw [if_pos h0] at hop
    cases hop
  · rw [if_neg h0] at hop
    by_cases hn : n < 0
    · rw [if_pos hn] at hop
      obtain rfl | hop := List.mem_cons.mp hop
      · exact ⟨by omega, by omega⟩
      · exact blankOps_within s.term.attr (by omega) op hop
    · rw [if_neg hn] at hop
      obtain rfl | hop := List.mem_cons.mp hop
      · exact ⟨by omega, by omega⟩
      · exact blankOps_within s.term.attr (by omega) op hop

/-- Row `r` becomes what row `r + n` was, or blank where the screen has no such row; nothing outside
of the screen is read or written. -/
structure MovesRows (s : Vt) (n : Int) : Prop where
  cells : ∀ base m r c, r < s.term.rows.toNat → c < s.term.cols.toNat →
    cellAt base (performAll base m (accesses (scroll · n) s)) (r * s.term.cols.toNat + c) =
      scrolledCell s.term.rows.toNat s.term.cols.toNat s.term.attr n (cellAt base m) r c
  within : ∀ op ∈ accesses (scroll · n) s, op.Within (s.term.rows.toNat * s.term.cols.toNat)
  outside : ∀ base m a, a < base ∨ base + 2 * (s.term.rows.toNat * s.term.cols.toNat) ≤ a →
    performAll base m (accesses (scroll · n) s) a = m a
  term : (scroll s n).term = s.term

/-- **Scrolling.** -/
theorem scroll_cells (s : Vt) (n : Int)
    (harea : s.term.rows.toNat * s.term.cols.toNat ≤ 4096) : MovesRows s n where
  cells base m r c hr hc := by
    rw [cellAt_performAll]
    exact onCells_scroll s n (cellAt base m) harea hr hc
  within := scroll_within s n
  outside _ m _ ha := performAll_outside (scroll_within s n) m ha
  term := scroll_term s n

theorem scroll_cells_down : MovesRows (defaultVt textVga (zeroTerminal 1)) (-1) :=
  scroll_cells (defaultVt textVga (zeroTerminal 1)) (-1) (by decide)

/-! ## Erasing -/

/-- The cells from the cursor to the end of the screen, from its start to the cursor, or all. -/
def EraseRange (mode : BitVec 32) (x y r c : Nat) : Prop :=
  if mode = ERASE_DOWN then y < r ∨ r = y ∧ x ≤ c
  else if mode = ERASE_UP then r < y ∨ r = y ∧ c ≤ x
  else True

/-- The same of the line of the cursor. -/
def EraseLineRange (mode : BitVec 32) (x y r c : Nat) : Prop :=
  r = y ∧ if mode = ERASE_DOWN then x ≤ c else if mode = ERASE_UP then c ≤ x else True

/-- The function turns the cells of a range into blanks and leaves everything else as it is. -/
structure BlanksExactly (f : Vt → Vt) (s : Vt) (range : Nat → Nat → Prop) : Prop where
  blanked : ∀ base m r c, r < s.term.rows.toNat → c < s.term.cols.toNat → range r c →
    cellAt base (performAll base m (accesses f s)) (r * s.term.cols.toNat + c) =
      blankCell s.term.attr
  kept : ∀ base m r c, r < s.term.rows.toNat → c < s.term.cols.toNat → ¬ range r c →
    cellAt base (performAll base m (accesses f s)) (r * s.term.cols.toNat + c) =
      cellAt base m (r * s.term.cols.toNat + c)
  outside : ∀ base m a, a < base ∨ base + 2 * (s.term.rows.toNat * s.term.cols.toNat) ≤ a →
    performAll base m (accesses f s) a = m a
  term : (f s).term = s.term

section Erase
variable {s : Vt} {f : Vt → Vt} {range : Nat → Nat → Prop}

/-- A function that blanks the cells of a range given by their positions. -/
theorem BlanksExactly.of_blankOps {start count : Nat}
    (hops : accesses f s = blankOps s.term.attr start count) (hterm : (f s).term = s.term)
    (harea : s.term.rows.toNat * s.term.cols.toNat ≤ 65536)
    (hend : start + count ≤ s.term.rows.toNat * s.term.cols.toNat)
    (hrange : ∀ r c, r < s.term.rows.toNat → c < s.term.cols.toNat →
      (range r c ↔ start ≤ r * s.term.cols.toNat + c ∧ r * s.term.cols.toNat + c < start + count)) :
    BlanksExactly f s range where
  blanked base m r c hr hc hin := by
    rw [cellAt_performAll, hops, onCells_blankOps _ _ (by omega)]
    exact if_pos ((hrange r c hr hc).mp hin)
  kept base m r c hr hc hout := by
    rw [cellAt_performAll, hops, onCells_blankOps _ _ (by omega)]
    exact if_neg fun hin => hout ((hrange r c hr hc).mpr hin)
  outside base m a ha := by
    rw [hops]
    exact performAll_outside (blankOps_within s.term.attr hend) m ha
  term := hterm

theorem xy2pos_toNat {x y : BitVec 12} (hx : x.toNat < s.term.cols.toNat)
    (hy : y.toNat < s.term.rows.toNat) (harea : s.term.rows.toNat * s.term.cols.toNat ≤ 65536) :
    (xy2pos s.term x y).toNat = y.toNat * s.term.cols.toNat + x.toNat := by
  have hlt := (cell_lt_iff (k := s.term.rows.toNat) hx).mpr hy
  rw [xy2pos, BitVec.toNat_ofNat]
  omega

/-- Cells are in the order of their rows and columns. -/
theorem cell_le_iff {x y r c C : Nat} (hx : x < C) (hc : c < C) :
    y * C + x ≤ r * C + c ↔ y < r ∨ r = y ∧ x ≤ c := by
  rcases Nat.lt_trichotomy y r with h | h | h
  · have hlt := (cell_lt_iff (k := r) hx).mpr h
    omega
  · subst h
    omega
  · have hlt := (cell_lt_iff (k := y) hc).mpr h
    omega

theorem accesses_erase (mode : BitVec 32) (hx : s.term.cursor.x.toNat < s.term.cols.toNat)
    (hy : s.term.cursor.y.toNat < s.term.rows.toNat)
    (harea : s.term.rows.toNat * s.term.cols.toNat ≤ 65536) :
    accesses (erase · mode) s =
      let pos := s.term.cursor.y.toNat * s.term.cols.toNat + s.term.cursor.x.toNat
      let area := s.term.rows.toNat * s.term.cols.toNat
      if mode = ERASE_DOWN then blankOps s.term.attr pos (area - pos)
      else if mode = ERASE_UP then blankOps s.term.attr 0 (pos + 1)
      else blankOps s.term.attr 0 area := by
  rw [← xy2pos_toNat hx hy harea]
  unfold accesses erase
  dsimp only
  split_ifs
  · rw [blankCells_fb]
    simp
  · rw [blankCells_fb]
    simp
  · rw [blankCells_fb]
    simp

theorem accesses_eraseLine (mode : BitVec 32) (hx : s.term.cursor.x.toNat < s.term.cols.toNat)
    (hy : s.term.cursor.y.toNat < s.term.rows.toNat)
    (harea : s.term.rows.toNat * s.term.cols.toNat ≤ 65536) :
    accesses (eraseLine · mode) s =
      let line := s.term.cursor.y.toNat * s.term.cols.toNat
      let x := s.term.cursor.x.toNat
      if mode = ERASE_DOWN then blankOps s.term.attr (line + x) (s.term.cols.toNat - x)
      else if mode = ERASE_UP then blankOps s.term.attr line (x + 1)
      else blankOps s.term.attr line s.term.cols.toNat := by
  have hmod : (s.term.cursor.y.toNat * s.term.cols.toNat + s.term.cursor.x.toNat) %
      s.term.cols.toNat = s.term.cursor.x.toNat := by
    rw [Nat.mul_comm, Nat.mul_add_mod, Nat.mod_eq_of_lt hx]
  have hpos := xy2pos_toNat hx hy harea
  have hfirst : (0 : BitVec 12).toNat < s.term.cols.toNat := Nat.lt_of_le_of_lt (Nat.zero_le _) hx
  have hline : (xy2pos s.term 0 s.term.cursor.y).toNat =
      s.term.cursor.y.toNat * s.term.cols.toNat := xy2pos_toNat hfirst hy harea
  unfold accesses eraseLine
  dsimp only
  rw [hpos, hline, hmod]
  split_ifs
  · rw [blankCells_fb]
    simp
  · rw [blankCells_fb]
    simp
  · rw [blankCells_fb]
    simp

theorem erase_blanks (mode : BitVec 32) (hx : s.term.cursor.x.toNat < s.term.cols.toNat)
    (hy : s.term.cursor.y.toNat < s.term.rows.toNat)
    (harea : s.term.rows.toNat * s.term.cols.toNat ≤ 65536) :
    BlanksExactly (erase · mode) s
      (EraseRange mode s.term.cursor.x.toNat s.term.cursor.y.toNat) := by
  have hops := accesses_erase mode hx hy harea
  have hpos := (cell_lt_iff hx).mpr hy
  have hterm := (erase_frame s mode).1
  unfold EraseRange
  dsimp only at hops
  by_cases hdown : mode = ERASE_DOWN
  · simp only [if_pos hdown] at hops ⊢
    refine .of_blankOps hops hterm harea (by omega) fun r c hr hc => ?_
    rw [← cell_le_iff hx hc]
    have hlt := (cell_lt_iff hc).mpr hr
    omega
  · by_cases hup : mode = ERASE_UP
    · simp only [if_neg hdown, if_pos hup] at hops ⊢
      refine .of_blankOps hops hterm harea (by omega) fun r c hr hc => ?_
      rw [eq_comm (a := r), ← cell_le_iff hc hx]
      omega
    · simp only [if_neg hdown, if_neg hup] at hops ⊢
      refine .of_blankOps hops hterm harea (by omega) fun r c hr hc => ?_
      have hlt := (cell_lt_iff hc).mpr hr
      exact iff_of_true trivial (by omega)

theorem eraseLine_blanks (mode : BitVec 32) (hx : s.term.cursor.x.toNat < s.term.cols.toNat)
    (hy : s.term.cursor.y.toNat < s.term.rows.toNat)
    (harea : s.term.rows.toNat * s.term.cols.toNat ≤ 65536) :
    BlanksExactly (eraseLine · mode) s
      (EraseLineRange mode s.term.cursor.x.toNat s.term.cursor.y.toNat) := by
  have hops := accesses_eraseLine mode hx hy harea
  have hrow : s.term.cursor.y.toNat * s.term.cols.toNat + s.term.cols.toNat ≤
      s.term.rows.toNat * s.term.cols.toNat := by
    rw [← Nat.succ_mul]
    exact Nat.mul_le_mul_right _ hy
  have hterm := (eraseLine_frame s mode).1
  -- A cell is in the line of the cursor if its position is between the line's first and last.
  have hcell : ∀ r c, c < s.term.cols.toNat → (r = s.term.cursor.y.toNat ↔
      s.term.cursor.y.toNat * s.term.cols.toNat ≤ r * s.term.cols.toNat + c ∧
        r * s.term.cols.toNat + c <
          s.term.cursor.y.toNat * s.term.cols.toNat + s.term.cols.toNat) := by
    intro r c hc
    have hlow := cell_lt_iff (r := r) (k := s.term.cursor.y.toNat) hc
    have hhigh := cell_lt_iff (r := r) (k := s.term.cursor.y.toNat + 1) hc
    rw [Nat.succ_mul] at hhigh
    omega
  have hin : ∀ r c, c < s.term.cols.toNat → r = s.term.cursor.y.toNat →
      r * s.term.cols.toNat + c = s.term.cursor.y.toNat * s.term.cols.toNat + c :=
    fun r c _ h => by rw [h]
  unfold EraseLineRange
  dsimp only at hops
  by_cases hdown : mode = ERASE_DOWN
  · simp only [if_pos hdown] at hops ⊢
    refine .of_blankOps hops hterm harea (by omega) fun r c hr hc => ?_
    have hr' := hcell r c hc
    have hp := hin r c hc
    omega
  · by_cases hup : mode = ERASE_UP
    · simp only [if_neg hdown, if_pos hup] at hops ⊢
      refine .of_blankOps hops hterm harea (by omega) fun r c hr hc => ?_
      have hr' := hcell r c hc
      have hp := hin r c hc
      omega
    · simp only [if_neg hdown, if_neg hup] at hops ⊢
      refine .of_blankOps hops hterm harea hrow fun r c hr hc => ?_
      rw [and_true]
      exact hcell r c hc

/-- **Erasing.** The dimensions of a screen are bytes, so its cells are fewer than 65536. -/
theorem erase_cells (s : Vt) (mode : BitVec 32)
    (hx : s.term.cursor.x.toNat < s.term.cols.toNat)
    (hy : s.term.cursor.y.toNat < s.term.rows.toNat)
    (harea : s.term.rows.toNat * s.term.cols.toNat ≤ 65536) :
    BlanksExactly (erase · mode) s
        (EraseRange mode s.term.cursor.x.toNat s.term.cursor.y.toNat) ∧
      BlanksExactly (eraseLine · mode) s
        (EraseLineRange mode s.term.cursor.x.toNat s.term.cursor.y.toNat) :=
  ⟨erase_blanks mode hx hy harea, eraseLine_blanks mode hx hy harea⟩

/-- A terminal with the cursor in the third column of the fourth row. -/
def midScreen : Vt :=
  let s := defaultVt textVga (zeroTerminal 1)
  { s with term := { s.term with cursor := { s.term.cursor with x := 2, y := 3 } } }

theorem erase_cells_up :
    BlanksExactly (erase · ERASE_UP) midScreen (EraseRange ERASE_UP 2 3) ∧
      BlanksExactly (eraseLine · ERASE_UP) midScreen (EraseLineRange ERASE_UP 2 3) :=
  erase_cells midScreen ERASE_UP (by decide) (by decide) (by decide)

end Erase

end Ohwes

import Mathlib.Tactic.FinCases
import Ohwes.Char.TerminalParams

/-! # Moving the cursor

The sequences that move the cursor read their parameters into an `int` without a limit and add them to
a coordinate. `ArithmeticFits` says of one character that what it computes does not overflow; a
sequence for which that holds throughout moves the cursor as with exact numbers, cut to the screen
(`cursor_motion_iff`). -/

namespace Ohwes
set_option autoImplicit false
open Library

inductive Motion where
  | cuu
  | cud
  | cuf
  | cub
  | cnl
  | cpl
  | cha
  | cup
  deriving DecidableEq, Repr

/-- The final character of the sequence. -/
def Motion.final : Motion → Byte
  | .cuu => 0x41
  | .cud => 0x42
  | .cuf => 0x43
  | .cub => 0x44
  | .cnl => 0x45
  | .cpl => 0x46
  | .cha => 0x47
  | .cup => 0x48

/-- Where the cursor goes from column `x` and row `y` on a screen of `C` columns and `R` rows; `n` and
`m` are the parameters. -/
def Motion.target (C R x y n m : Nat) : Motion → Nat × Nat
  | .cuu => (x, y - n)
  | .cud => (x, min (y + n) (R - 1))
  | .cuf => (min (x + n) (C - 1), y)
  | .cub => (x - n, y)
  | .cnl => (0, min (y + n) (R - 1))
  | .cpl => (0, y - n)
  | .cha => (min n C - 1, y)
  | .cup => (min m C - 1, min n R - 1)

/-- An absent parameter and 0 stand for 1. -/
def paramOrOne (p : Param) : Nat := max 1 (literalValue p)

/-! ## Overflow -/

/-- The value is an `int`. -/
def InInt (z : Int) : Prop := -2147483648 ≤ z ∧ z ≤ 2147483647

/-- Neither the product nor the sum overflows when digit `d` is added to a parameter. -/
def PushFits (v : BitVec 32) (d : Int) : Prop :=
  InInt ((if v = -1 then 0 else v).toInt * 10) ∧
    InInt (((if v = -1 then 0 else v) * 10).toInt + d)

/-- What a character makes of the parameters and the cursor does not overflow. -/
def ArithmeticFits (s : Vt) (c : Byte) : Prop :=
  s.term.state = .csi → iscntrl c = false →
    let n := max 1 (s.term.csiparam 0).toInt
    let m := max 1 (s.term.csiparam 1).toInt
    let x : Int := s.term.cursor.x.toNat
    let y : Int := s.term.cursor.y.toNat
    match toChar c with
    | 'A' => InInt (y - n)
    | 'B' => InInt (y + n)
    | 'C' => InInt (x + n)
    | 'D' => InInt (x - n)
    | 'E' => InInt (y + n)
    | 'F' => InInt (y - n)
    | 'G' => InInt (min n s.term.cols.toNat - 1)
    | 'H' => InInt (min n s.term.rows.toNat - 1) ∧ InInt (min m s.term.cols.toNat - 1)
    | _ => isdigit c = true → PushFits (s.term.csiparam s.term.paramidx) (c.toNat - 48)

section Steps
variable {curr : Nat} {Q : Vt → Byte → Prop} {s : Vt}

theorem throughout_putchars_cons {c : Byte} {bytes : List Byte} :
    Throughout (putcharStep curr) Q s (c :: bytes) ↔
      Q s c ∧ Throughout (putcharStep curr) Q (terminalPutchar curr s c).2 bytes := by
  constructor
  · rintro ⟨hq, h⟩
    exact ⟨hq, h _ rfl⟩
  · rintro ⟨hq, h⟩
    refine ⟨hq, fun t ht => ?_⟩
    cases ht
    exact h

theorem throughout_putchars_append {a b : List Byte} :
    Throughout (putcharStep curr) Q s (a ++ b) ↔
      Throughout (putcharStep curr) Q s a ∧ Throughout (putcharStep curr) Q (putchars curr s a) b := by
  induction a generalizing s with
  | nil => exact (iff_of_eq (true_and _)).symm
  | cons c a ih =>
    rw [List.cons_append, throughout_putchars_cons, throughout_putchars_cons, ih, putchars_cons,
      and_assoc]

end Steps

/-! ## Reading without overflow -/

/-- No digit of the parameter overflows what has been read before it. -/
def ReadFits (v : BitVec 32) : Param → Prop
  | [] => True
  | d :: p => PushFits v d.val ∧ ReadFits (pushDigit v d) p

theorem toInt_ofNat_int {n : Nat} (h : n ≤ INT_MAX) : (BitVec.ofNat 32 n).toInt = n := by
  have hmax : INT_MAX = 2147483647 := rfl
  rw [BitVec.toInt_eq_toNat_cond, BitVec.toNat_ofNat]
  omega

theorem pushFits_iff {v : BitVec 32} {n : Nat} (hv : (if v = -1 then 0 else v) = BitVec.ofNat 32 n)
    (hn : n ≤ INT_MAX) (d : Fin 10) : PushFits v d.val ↔ n * 10 + d.val ≤ INT_MAX := by
  have hmax : INT_MAX = 2147483647 := rfl
  unfold PushFits InInt
  rw [hv, toInt_ofNat_int hn]
  by_cases h10 : n * 10 ≤ INT_MAX
  · have hmul : (BitVec.ofNat 32 n * 10).toInt = (n * 10 : Nat) := by
      rw [← toInt_ofNat_int h10, BitVec.ofNat_mul]
      rfl
    rw [hmul]
    omega
  · omega

/-- A parameter can be read without overflow if its value is an `int`. -/
theorem readFits_iff {p : Param} {v : BitVec 32} {n : Nat}
    (hv : (if v = -1 then 0 else v) = BitVec.ofNat 32 n) (hn : n ≤ INT_MAX) :
    ReadFits v p ↔ readDigits 10 n (p.map Fin.val) ≤ INT_MAX := by
  induction p generalizing v n with
  | nil => exact iff_of_true trivial hn
  | cons d p ih =>
    rw [List.map_cons, readDigits_cons, ReadFits, pushFits_iff hv hn, pushDigit_eq hv]
    by_cases hd : n * 10 + d.val ≤ INT_MAX
    · rw [ih (not_missing hd) hd]
      exact and_iff_right hd
    · have hle : n * 10 + d.val ≤ readDigits 10 (n * 10 + d.val) (p.map Fin.val) :=
        le_readDigits (by decide) _ _
      exact iff_of_false (fun h => hd h.1) fun h => hd (hle.trans h)

section Reading
variable {curr : Nat} {s : Vt} {vs : List (BitVec 32)} {v : BitVec 32}

theorem fits_digit (d : Fin 10) :
    ArithmeticFits (reading curr s vs v) (BitVec.ofNat 8 (0x30 + d.val)) ↔ PushFits v d.val := by
  have hterm := reading_term curr s vs v
  unfold ArithmeticFits
  rw [hterm]
  dsimp only
  rw [paramArray_last]
  fin_cases d <;> exact ⟨fun h => h rfl rfl rfl, fun h _ _ _ => h⟩

theorem fits_separator : ArithmeticFits (reading curr s vs v) SEMICOLON :=
  fun _ _ hdigit => nomatch hdigit

/-- Reading the digits of a parameter. -/
theorem throughout_literal (p : Param) :
    Throughout (putcharStep curr) ArithmeticFits (reading curr s vs v) (literalText p) ↔
      ReadFits v p := by
  induction p generalizing v with
  | nil => exact Iff.rfl
  | cons d p ih =>
    show Throughout _ _ _ (BitVec.ofNat 8 (0x30 + d.val) :: literalText p) ↔ _
    rw [throughout_putchars_cons, fits_digit, reading_digit, ih]
    exact Iff.rfl

theorem throughout_more (ps : List Param) (h : vs.length + ps.length < MAX_CSIPARAM) :
    Throughout (putcharStep curr) ArithmeticFits (reading curr s vs v)
        (ps.flatMap fun q => SEMICOLON :: literalText q) ↔
      ∀ q ∈ ps, ReadFits (-1) q := by
  induction ps generalizing vs v with
  | nil => simp [Throughout]
  | cons q ps ih =>
    rw [List.length_cons] at h
    have hlen : (vs ++ [v]).length + ps.length < MAX_CSIPARAM := by
      rw [List.length_append, List.length_singleton]
      omega
    rw [List.flatMap_cons, List.cons_append, throughout_putchars_cons, reading_separator (by omega),
      throughout_putchars_append, throughout_literal, reading_literal, ih hlen, List.forall_mem_cons]
    exact and_iff_right fits_separator

/-- The characters that begin a sequence compute nothing. -/
theorem throughout_start (h : s.term.printing = false) :
    Throughout (putcharStep curr) ArithmeticFits s (ctrl ASCII_ESC ['[']) := by
  have hseq : ctrl ASCII_ESC ['['] = [ASCII_ESC, 0x5B] := by decide
  have hesc : (terminalPutchar curr s ASCII_ESC).2 =
      ((s.setPrinting true).setState .esc).setPrinting false := by
    unfold terminalPutchar
    rw [h]
    rfl
  rw [hseq, throughout_putchars_cons, throughout_putchars_cons, hesc]
  exact ⟨fun _ hctl => (nomatch hctl), fun hstate => (nomatch hstate), trivial⟩

end Reading

/-! ## The final character -/

/-- A coordinate and the parameter, added, are an `int`. -/
def Motion.Fits (x y n : Nat) : Motion → Prop
  | .cud | .cnl => y + n ≤ INT_MAX
  | .cuf => x + n ≤ INT_MAX
  | _ => True

theorem max_readParam {p : Param} (h : literalValue p ≤ INT_MAX) :
    max 1 (readParam p).toInt = paramOrOne p := by
  unfold paramOrOne
  by_cases hp : p = []
  · subst hp
    rfl
  · rw [readParam_eq hp h, toInt_ofNat_int h]
    omega

/-- The first two parameters as `csiparam` holds them. -/
theorem paramArray_params (p : Param) (ps : List Param) :
    paramArray ((p :: ps).map readParam) 0 = readParam p ∧
      paramArray ((p :: ps).map readParam) 1 = readParam (ps.headD []) := by
  cases ps with
  | nil => exact ⟨rfl, rfl⟩
  | cons q ps => exact ⟨rfl, rfl⟩

section Final
variable {curr : Nat} {s : Vt} {p : Param} {ps : List Param} {front : List (BitVec 32)}
  {last : BitVec 32}

theorem fits_final (hall : front ++ [last] = (p :: ps).map readParam)
    (hp : literalValue p ≤ INT_MAX) (hq : literalValue (ps.headD []) ≤ INT_MAX) (mo : Motion) :
    ArithmeticFits (reading curr s front last) mo.final ↔
      mo.Fits s.term.cursor.x.toNat s.term.cursor.y.toNat (paramOrOne p) := by
  have hterm := reading_term curr s front last
  have hmax : INT_MAX = 2147483647 := rfl
  obtain ⟨h0, h1⟩ := paramArray_params p ps
  have hxlt := s.term.cursor.x.isLt
  have hylt := s.term.cursor.y.isLt
  have hcols := s.term.cols.isLt
  have hrows := s.term.rows.isLt
  have hn := max_readParam hp
  have hm := max_readParam hq
  have hn1 : 1 ≤ paramOrOne p := Nat.le_max_left 1 _
  have hm1 : 1 ≤ paramOrOne (ps.headD []) := Nat.le_max_left 1 _
  have hnle : paramOrOne p ≤ INT_MAX := Nat.max_le.mpr ⟨by decide, hp⟩
  have hmle : paramOrOne (ps.headD []) ≤ INT_MAX := Nat.max_le.mpr ⟨by decide, hq⟩
  unfold ArithmeticFits
  rw [hterm]
  dsimp only
  rw [hall, h0, h1, hn, hm]
  generalize s.term.cursor.x.toNat = x at *
  generalize s.term.cursor.y.toNat = y at *
  generalize paramOrOne p = n at *
  generalize paramOrOne (ps.headD []) = m at *
  cases mo with
  | cuu | cpl =>
    have hfits : InInt ((y : Int) - n) := by
      unfold InInt
      omega
    exact ⟨fun _ => trivial, fun _ _ _ => hfits⟩
  | cub =>
    have hfits : InInt ((x : Int) - n) := by
      unfold InInt
      omega
    exact ⟨fun _ => trivial, fun _ _ _ => hfits⟩
  | cud | cnl =>
    have hfits : InInt ((y : Int) + n) ↔ y + n ≤ INT_MAX := by
      unfold InInt
      omega
    exact ⟨fun h => hfits.mp (h rfl rfl), fun h _ _ => hfits.mpr h⟩
  | cuf =>
    have hfits : InInt ((x : Int) + n) ↔ x + n ≤ INT_MAX := by
      unfold InInt
      omega
    exact ⟨fun h => hfits.mp (h rfl rfl), fun h _ _ => hfits.mpr h⟩
  | cha =>
    have hfits : InInt (min (n : Int) s.term.cols.toNat - 1) := by
      unfold InInt
      omega
    exact ⟨fun _ => trivial, fun _ _ _ => hfits⟩
  | cup =>
    have hrow : InInt (min (n : Int) s.term.rows.toNat - 1) := by
      unfold InInt
      omega
    have hcol : InInt (min (m : Int) s.term.cols.toNat - 1) := by
      unfold InInt
      omega
    exact ⟨fun _ => trivial, fun _ _ _ => ⟨hrow, hcol⟩⟩

/-- **Overflow.** Nothing overflows in a sequence exactly if every parameter is an `int` and the
coordinate with the parameter added to it is one as well. -/
theorem motion_fits_iff (hprinting : s.term.printing = false) (hlen : ps.length < MAX_CSIPARAM)
    (mo : Motion) :
    Throughout (putcharStep curr) ArithmeticFits s (csiText p ps mo.final) ↔
      (∀ q ∈ p :: ps, literalValue q ≤ INT_MAX) ∧
        mo.Fits s.term.cursor.x.toNat s.term.cursor.y.toNat (paramOrOne p) := by
  obtain ⟨front, last, hall, hread⟩ := @putchars_params curr s hprinting p ps hlen
  have hmore : ([] : List (BitVec 32)).length + ps.length < MAX_CSIPARAM := by
    rw [List.length_nil, Nat.zero_add]
    exact hlen
  have hfit : ∀ q : Param, ReadFits (-1) q ↔ literalValue q ≤ INT_MAX :=
    fun q => readFits_iff rfl (Nat.zero_le _)
  have hlast : Throughout (putcharStep curr) ArithmeticFits (reading curr s front last) [mo.final] ↔
      ArithmeticFits (reading curr s front last) mo.final := by
    rw [throughout_putchars_cons]
    exact and_iff_left trivial
  rw [csiText, throughout_putchars_append, hread, hlast, throughout_putchars_append,
    reading_start hprinting, paramsText, throughout_putchars_append, throughout_literal,
    reading_literal, throughout_more ps hmore, hfit]
  simp only [hfit]
  rw [and_iff_right (throughout_start hprinting),
    ← List.forall_mem_cons (p := fun q => literalValue q ≤ INT_MAX)]
  refine and_congr_right fun hvalues => ?_
  refine fits_final hall (hvalues p (List.mem_cons_self ..)) ?_ mo
  cases ps with
  | nil => exact Nat.zero_le _
  | cons q ps => exact hvalues q (List.mem_cons_of_mem p (List.mem_cons_self ..))

end Final

/-! ## Where the cursor goes -/

theorem retreat_toNat {v : BitVec 12} {n : BitVec 32} (hn : n.toNat ≤ INT_MAX) :
    (retreat v n).toNat = v.toNat - n.toNat := by
  have hmax : INT_MAX = 2147483647 := rfl
  have hv := v.isLt
  have hv32 : (v.zeroExtend 32).toNat = v.toNat := by
    rw [BitVec.zeroExtend_eq_setWidth, BitVec.toNat_setWidth]
    omega
  have hint : (v.zeroExtend 32 - n).toInt = (v.toNat : Int) - n.toNat := by
    rw [BitVec.toInt_eq_toNat_cond, BitVec.toNat_sub, hv32]
    omega
  unfold retreat
  rw [hint]
  split
  · rw [BitVec.truncate_eq_setWidth, BitVec.toNat_setWidth, BitVec.toNat_sub, hv32]
    omega
  · show 0 = _
    omega

theorem advance_toNat {v : BitVec 12} {n : BitVec 32} {bound : BitVec 16}
    (hv : v.toNat < bound.toNat) (hb : bound.toNat ≤ 4096) (hfit : v.toNat + n.toNat ≤ INT_MAX) :
    (advance v n bound).toNat = min (v.toNat + n.toNat) (bound.toNat - 1) := by
  have hmax : INT_MAX = 2147483647 := rfl
  have hv32 : (v.zeroExtend 32).toNat = v.toNat := by
    rw [BitVec.zeroExtend_eq_setWidth, BitVec.toNat_setWidth]
    omega
  have hint : (v.zeroExtend 32 + n).toInt = (v.toNat : Int) + n.toNat := by
    rw [BitVec.toInt_eq_toNat_cond, BitVec.toNat_add, hv32]
    omega
  unfold advance
  rw [hint]
  split
  · rw [BitVec.truncate_eq_setWidth, BitVec.toNat_setWidth, BitVec.toNat_add, hv32]
    omega
  · rw [BitVec.toNat_ofInt]
    omega

section Move
variable {t : Vt} {i : Nat} {p q : Param}

theorem paramMinimum_toNat (h : t.term.csiparam i = readParam p) (hp : literalValue p ≤ INT_MAX) :
    ((paramMinimum i 1 t).term.csiparam i).toNat = paramOrOne p := by
  have hmax := max_readParam hp
  have hone : (1 : BitVec 32).toInt = 1 := rfl
  unfold paramMinimum
  rw [h, hone]
  by_cases hlt : (readParam p).toInt < 1
  · rw [if_pos hlt]
    show (Function.update t.term.csiparam i 1 i).toNat = _
    rw [Function.update_self]
    show 1 = _
    omega
  · rw [if_neg hlt, h]
    rw [BitVec.toInt_eq_toNat_cond] at hmax hlt
    have hbits := (readParam p).isLt
    split at hlt <;> omega

theorem paramMaximum_toNat {v : BitVec 16} (h : (t.term.csiparam i).toNat ≤ INT_MAX) :
    ((paramMaximum i (v.zeroExtend 32) t).term.csiparam i).toNat =
      min (t.term.csiparam i).toNat v.toNat := by
  have hmax : INT_MAX = 2147483647 := rfl
  have hv := v.isLt
  have hint : (t.term.csiparam i).toInt = (t.term.csiparam i).toNat := by
    rw [BitVec.toInt_eq_toNat_cond]
    omega
  unfold paramMaximum
  rw [zeroExtend_toInt, hint]
  split
  · show (Function.update t.term.csiparam i (v.zeroExtend 32) i).toNat = _
    rw [Function.update_self, BitVec.zeroExtend_eq_setWidth, BitVec.toNat_setWidth]
    omega
  · omega

theorem coordinate_toNat {v : BitVec 32} {n bound : Nat} (h : v.toNat = min n bound) (hn : 1 ≤ n)
    (hb : 1 ≤ bound) (hb' : bound ≤ 4096) : ((v - 1).truncate 12).toNat = min n bound - 1 := by
  have hone : (1 : BitVec 32).toNat = 1 := rfl
  rw [BitVec.truncate_eq_setWidth, BitVec.toNat_setWidth, BitVec.toNat_sub, h, hone]
  omega

theorem paramMinimum_place (i : Nat) (v : BitVec 32) (s : Vt) : SamePlace s (paramMinimum i v s) := by
  unfold paramMinimum
  split
  · exact ⟨rfl, rfl, rfl, rfl, rfl, rfl, rfl⟩
  · exact ⟨rfl, rfl, rfl, rfl, rfl, rfl, rfl⟩

theorem paramMaximum_place (i : Nat) (v : BitVec 32) (s : Vt) : SamePlace s (paramMaximum i v s) := by
  unfold paramMaximum
  split
  · exact ⟨rfl, rfl, rfl, rfl, rfl, rfl, rfl⟩
  · exact ⟨rfl, rfl, rfl, rfl, rfl, rfl, rfl⟩

theorem cursorColumn_toNat (h0 : t.term.csiparam 0 = readParam p) (hp : literalValue p ≤ INT_MAX)
    (hcols : t.term.cols.toNat ≤ 4096) (hcols' : 0 < t.term.cols.toNat) :
    (cursorColumn t).term.cursor.x.toNat = min (paramOrOne p) t.term.cols.toNat - 1 ∧
      (cursorColumn t).term.cursor.y = t.term.cursor.y := by
  have hn := paramMinimum_toNat h0 hp
  have hnle : paramOrOne p ≤ INT_MAX := Nat.max_le.mpr ⟨by decide, hp⟩
  have hmin := paramMinimum_place 0 1 t
  unfold cursorColumn
  dsimp only
  generalize paramMinimum 0 1 t = m at hn hmin ⊢
  have hmax := paramMaximum_place 0 (t.term.cols.zeroExtend 32) m
  have hval : ((paramMaximum 0 (t.term.cols.zeroExtend 32) m).term.csiparam 0).toNat =
      min (paramOrOne p) t.term.cols.toNat := by
    rw [paramMaximum_toNat (hn.trans_le hnle), hn]
  generalize paramMaximum 0 (t.term.cols.zeroExtend 32) m = k at hval hmax ⊢
  refine ⟨coordinate_toNat hval (Nat.le_max_left 1 _) hcols' hcols, ?_⟩
  show k.term.cursor.y = _
  rw [hmax.cursor, hmin.cursor]

theorem cursorPosition_toNat (h0 : t.term.csiparam 0 = readParam p)
    (h1 : t.term.csiparam 1 = readParam q) (hp : literalValue p ≤ INT_MAX)
    (hq : literalValue q ≤ INT_MAX) (hcols : t.term.cols.toNat ≤ 4096)
    (hrows : t.term.rows.toNat ≤ 4096) (hcols' : 0 < t.term.cols.toNat)
    (hrows' : 0 < t.term.rows.toNat) :
    (cursorPosition t).term.cursor.x.toNat = min (paramOrOne q) t.term.cols.toNat - 1 ∧
      (cursorPosition t).term.cursor.y.toNat = min (paramOrOne p) t.term.rows.toNat - 1 := by
  have hnle : paramOrOne p ≤ INT_MAX := Nat.max_le.mpr ⟨by decide, hp⟩
  have hmle : paramOrOne q ≤ INT_MAX := Nat.max_le.mpr ⟨by decide, hq⟩
  have hmin0 := paramMinimum_place 0 1 t
  have hn := paramMinimum_toNat h0 hp
  have h1' : (paramMinimum 0 1 t).term.csiparam 1 = readParam q := by
    rw [paramMinimum_of_ne (by decide), h1]
  have hmin1 := paramMinimum_place 1 1 (paramMinimum 0 1 t)
  have hm := paramMinimum_toNat h1' hq
  have hn' : ((paramMinimum 1 1 (paramMinimum 0 1 t)).term.csiparam 0).toNat = paramOrOne p := by
    rw [paramMinimum_of_ne (by decide), hn]
  unfold cursorPosition
  dsimp only
  generalize paramMinimum 1 1 (paramMinimum 0 1 t) = u at hn' hm hmin1 ⊢
  have hur : u.term.rows = t.term.rows := hmin1.rows.trans hmin0.rows
  have huc : u.term.cols = t.term.cols := hmin1.cols.trans hmin0.cols
  rw [hur]
  -- The row is cut to the screen first, then the column.
  have hmax0 := paramMaximum_place 0 (t.term.rows.zeroExtend 32) u
  have hrow : ((paramMaximum 0 (t.term.rows.zeroExtend 32) u).term.csiparam 0).toNat =
      min (paramOrOne p) t.term.rows.toNat := by
    rw [paramMaximum_toNat (hn'.trans_le hnle), hn']
  have hm' : ((paramMaximum 0 (t.term.rows.zeroExtend 32) u).term.csiparam 1).toNat =
      paramOrOne q := by
    rw [paramMaximum_of_ne (by decide), hm]
  generalize paramMaximum 0 (t.term.rows.zeroExtend 32) u = k at hrow hm' hmax0 ⊢
  have hkc : k.term.cols = t.term.cols := hmax0.cols.trans huc
  rw [hkc]
  have hcol : ((paramMaximum 1 (t.term.cols.zeroExtend 32) k).term.csiparam 1).toNat =
      min (paramOrOne q) t.term.cols.toNat := by
    rw [paramMaximum_toNat (hm'.trans_le hmle), hm']
  have hrow' : ((paramMaximum 1 (t.term.cols.zeroExtend 32) k).term.csiparam 0).toNat =
      min (paramOrOne p) t.term.rows.toNat := by
    rw [paramMaximum_of_ne (by decide), hrow]
  exact ⟨coordinate_toNat hcol (Nat.le_max_left 1 _) hcols' hcols,
    coordinate_toNat hrow' (Nat.le_max_left 1 _) hrows' hrows⟩

/-- The cursor after the final character, with the parameters at hand. -/
theorem csi_motion (curr : Nat) (mo : Motion) (h0 : t.term.csiparam 0 = readParam p)
    (h1 : t.term.csiparam 1 = readParam q) (hp : literalValue p ≤ INT_MAX)
    (hq : literalValue q ≤ INT_MAX) (hcols : t.term.cols.toNat ≤ 4096)
    (hrows : t.term.rows.toNat ≤ 4096) (hx : t.term.cursor.x.toNat < t.term.cols.toNat)
    (hy : t.term.cursor.y.toNat < t.term.rows.toNat)
    (hfits : mo.Fits t.term.cursor.x.toNat t.term.cursor.y.toNat (paramOrOne p)) :
    ((csi curr t mo.final).term.cursor.x.toNat, (csi curr t mo.final).term.cursor.y.toNat) =
      mo.target t.term.cols.toNat t.term.rows.toNat t.term.cursor.x.toNat t.term.cursor.y.toNat
        (paramOrOne p) (paramOrOne q) := by
  have hn := paramMinimum_toNat h0 hp
  have hnle : paramOrOne p ≤ INT_MAX := Nat.max_le.mpr ⟨by decide, hp⟩
  have hmle : paramOrOne q ≤ INT_MAX := Nat.max_le.mpr ⟨by decide, hq⟩
  have hn1 : 1 ≤ paramOrOne p := Nat.le_max_left 1 _
  have hm1 : 1 ≤ paramOrOne q := Nat.le_max_left 1 _
  have hplace := paramMinimum_place 0 1 t
  have hnext := paramMinimum_of_ne (by decide : 1 ≠ 0) 1 t
  cases mo with
  | cuu =>
    show ((paramMinimum 0 1 t).term.cursor.x.toNat, (retreat (paramMinimum 0 1 t).term.cursor.y
      ((paramMinimum 0 1 t).term.csiparam 0)).toNat) = _
    rw [retreat_toNat (by omega), hn, hplace.cursor]
    rfl
  | cud =>
    show ((paramMinimum 0 1 t).term.cursor.x.toNat, (advance (paramMinimum 0 1 t).term.cursor.y
      ((paramMinimum 0 1 t).term.csiparam 0) (paramMinimum 0 1 t).term.rows).toNat) = _
    have hfits' : t.term.cursor.y.toNat + paramOrOne p ≤ INT_MAX := hfits
    rw [hplace.cursor, hplace.rows, advance_toNat hy hrows (by rw [hn]; exact hfits'), hn]
    rfl
  | cuf =>
    show ((advance (paramMinimum 0 1 t).term.cursor.x ((paramMinimum 0 1 t).term.csiparam 0)
      (paramMinimum 0 1 t).term.cols).toNat, (paramMinimum 0 1 t).term.cursor.y.toNat) = _
    have hfits' : t.term.cursor.x.toNat + paramOrOne p ≤ INT_MAX := hfits
    rw [hplace.cursor, hplace.cols, advance_toNat hx hcols (by rw [hn]; exact hfits'), hn]
    rfl
  | cub =>
    show ((retreat (paramMinimum 0 1 t).term.cursor.x ((paramMinimum 0 1 t).term.csiparam 0)).toNat,
      (paramMinimum 0 1 t).term.cursor.y.toNat) = _
    rw [retreat_toNat (by omega), hn, hplace.cursor]
    rfl
  | cnl =>
    show (0, (advance (paramMinimum 0 1 t).term.cursor.y
      ((paramMinimum 0 1 t).term.csiparam 0) (paramMinimum 0 1 t).term.rows).toNat) = _
    have hfits' : t.term.cursor.y.toNat + paramOrOne p ≤ INT_MAX := hfits
    rw [hplace.cursor, hplace.rows, advance_toNat hy hrows (by rw [hn]; exact hfits'), hn]
    rfl
  | cpl =>
    show (0, (retreat (paramMinimum 0 1 t).term.cursor.y
      ((paramMinimum 0 1 t).term.csiparam 0)).toNat) = _
    rw [retreat_toNat (by omega), hn, hplace.cursor]
    rfl
  | cha =>
    obtain ⟨hcol, hrow⟩ := cursorColumn_toNat h0 hp hcols (by omega)
    show ((cursorColumn t).term.cursor.x.toNat, (cursorColumn t).term.cursor.y.toNat) = _
    rw [hcol, hrow]
    rfl
  | cup =>
    obtain ⟨hcol, hrow⟩ := cursorPosition_toNat h0 h1 hp hq hcols hrows (by omega) (by omega)
    show ((cursorPosition t).term.cursor.x.toNat, (cursorPosition t).term.cursor.y.toNat) = _
    rw [hcol, hrow]
    rfl

end Move

/-- The sequence moves the cursor as with exact numbers, and nothing it computes overflows. -/
structure MovesExactly (curr : Nat) (s : Vt) (mo : Motion) (p : Param) (ps : List Param) : Prop where
  cursor : ((putchars curr s (csiText p ps mo.final)).term.cursor.x.toNat,
      (putchars curr s (csiText p ps mo.final)).term.cursor.y.toNat) =
    mo.target s.term.cols.toNat s.term.rows.toNat s.term.cursor.x.toNat s.term.cursor.y.toNat
      (paramOrOne p) (paramOrOne (ps.headD []))
  fits : Throughout (putcharStep curr) ArithmeticFits s (csiText p ps mo.final)

/-- **Cursor motion.** A screen has at most 255 columns and rows. -/
theorem cursor_motion_iff (curr : Nat) (s : Vt) (mo : Motion) (p : Param) (ps : List Param)
    (hin : InBounds s) (hcols : s.term.cols.toNat ≤ 4096) (hrows : s.term.rows.toNat ≤ 4096)
    (hprinting : s.term.printing = false) (hlen : ps.length < MAX_CSIPARAM) :
    MovesExactly curr s mo p ps ↔
      (∀ q ∈ p :: ps, literalValue q ≤ INT_MAX) ∧
        mo.Fits s.term.cursor.x.toNat s.term.cursor.y.toNat (paramOrOne p) := by
  constructor
  · rintro ⟨-, hfits⟩
    exact (motion_fits_iff hprinting hlen mo).mp hfits
  · rintro ⟨hvalues, hfits⟩
    refine ⟨?_, (motion_fits_iff hprinting hlen mo).mpr ⟨hvalues, hfits⟩⟩
    obtain ⟨front, last, hall, hread⟩ := @putchars_params curr s hprinting p ps hlen
    obtain ⟨h0, h1⟩ := paramArray_params p ps
    have hp := hvalues p (List.mem_cons_self ..)
    have hq : literalValue (ps.headD []) ≤ INT_MAX := by
      cases ps with
      | nil => exact Nat.zero_le _
      | cons q ps => exact hvalues q (List.mem_cons_of_mem p (List.mem_cons_self ..))
    have hctl : iscntrl mo.final = false := by cases mo <;> rfl
    have hterm : ((reading curr s front last).setPrinting true).term = { s.term with
        state := .csi, printing := true, csiparam := paramArray ((p :: ps).map readParam)
        paramidx := front.length } := by
      rw [reading_busy_term, hall]
    have hend : (putchars curr s (csiText p ps mo.final)).term.cursor =
        (csi curr ((reading curr s front last).setPrinting true) mo.final).term.cursor := by
      rw [putchars_csiText hctl hread]
      show (ifCurrent curr setCursorPos _).term.cursor = _
      rw [(programs_setCursorPos.ifCurrent curr _).1]
    have hmove := csi_motion (t := (reading curr s front last).setPrinting true) (p := p)
      (q := ps.headD []) curr mo (by rw [hterm]; exact h0) (by rw [hterm]; exact h1) hp hq
      (by rw [hterm]; exact hcols) (by rw [hterm]; exact hrows) (by rw [hterm]; exact hin.x_lt)
      (by rw [hterm]; exact hin.y_lt) (by rw [hterm]; exact hfits)
    rw [hend, hmove, hterm]

theorem cursor_motion_home :
    MovesExactly 1 (defaultVt textVga (zeroTerminal 1)) .cup [5] [[1, 0, 0]] :=
  (cursor_motion_iff 1 (defaultVt textVga (zeroTerminal 1)) .cup [5] [[1, 0, 0]]
    ⟨by decide, by decide, by decide, fun h => (nomatch h), by decide, fun _ h => (nomatch h)⟩
    (by decide) (by decide) rfl (by decide)).mpr ⟨by decide, trivial⟩

/-- The largest `int` rows down from the second row is the first row. -/
theorem cursor_motion_wraps :
    ¬ MovesExactly 1 ((defaultVt textVga (zeroTerminal 1)).setY 1) .cud
      [2, 1, 4, 7, 4, 8, 3, 6, 4, 7] [] := by
  intro h
  have hcursor := h.cursor
  revert hcursor
  decide +kernel

end Ohwes

import Mathlib.Tactic.FinCases
import Ohwes.Char.TerminalBounds
import Ohwes.Library.Numerals

/-! # The parameters of a control sequence

What follows `CSI` is read one character at a time: a digit is added to the parameter being read, a
semicolon begins the next one, and the final character carries the sequence out. `Reading` describes
the terminal in between, and `putchars_csi` what it is handed when the final character comes. -/

namespace Ohwes
set_option autoImplicit false
open Library

/-- A parameter is its digits; a missing one has none. -/
abbrev Param := List (Fin 10)

/-- One more digit of a parameter, in the arithmetic of `int`. -/
def pushDigit (v : BitVec 32) (d : Fin 10) : BitVec 32 :=
  (if v = -1 then 0 else v) * 10 + ((BitVec.ofNat 8 (0x30 + d.val)).zeroExtend 32 - 48)

/-- What is read of the digits: `-1` if there are none. -/
def readParam (p : Param) : BitVec 32 := p.foldl pushDigit (-1)

def SEMICOLON : Byte := 0x3B

/-- The characters after `CSI`, the first parameter apart from the others. -/
def paramsText (p : Param) (ps : List Param) : List Byte :=
  literalText p ++ ps.flatMap fun q => SEMICOLON :: literalText q

/-- A control sequence. -/
def csiText (p : Param) (ps : List Param) (final : Byte) : List Byte :=
  ctrl ASCII_ESC ['['] ++ paramsText p ps ++ [final]

/-- The parameters as `csiparam` holds them. -/
def paramArray (vs : List (BitVec 32)) (i : Nat) : BitVec 32 := vs[i]?.getD (-1)

/-! ## Values -/

theorem digit_zeroExtend : ∀ d : Fin 10,
    (BitVec.ofNat 8 (0x30 + d.val)).zeroExtend 32 - 48 = BitVec.ofNat 32 d.val := by
  decide

/-- A digit is added as it should be, in the arithmetic of 32 bits. -/
theorem pushDigit_eq {v : BitVec 32} {n : Nat} (hv : (if v = -1 then 0 else v) = BitVec.ofNat 32 n)
    (d : Fin 10) : pushDigit v d = BitVec.ofNat 32 (n * 10 + d.val) := by
  rw [pushDigit, hv, digit_zeroExtend, BitVec.ofNat_add, BitVec.ofNat_mul]
  rfl

/-- An `int` that is not negative is not a missing parameter. -/
theorem not_missing {n : Nat} (h : n ≤ INT_MAX) :
    (if BitVec.ofNat 32 n = -1 then 0 else BitVec.ofNat 32 n) = BitVec.ofNat 32 n := by
  rw [if_neg]
  intro hneg
  have hnat := congrArg BitVec.toNat hneg
  rw [BitVec.toNat_ofNat] at hnat
  have hmax : INT_MAX = 2147483647 := rfl
  have hminus : (-1 : BitVec 32).toNat = 4294967295 := rfl
  omega

/-- While nothing overflows a parameter is read as it is written. -/
theorem foldl_pushDigit {p : Param} {v : BitVec 32} {n : Nat}
    (hv : (if v = -1 then 0 else v) = BitVec.ofNat 32 n) (hp : p ≠ [])
    (hfit : readDigits 10 n (p.map Fin.val) ≤ INT_MAX) :
    p.foldl pushDigit v = BitVec.ofNat 32 (readDigits 10 n (p.map Fin.val)) := by
  induction p generalizing v n with
  | nil => exact absurd rfl hp
  | cons d p ih =>
    rw [List.map_cons, readDigits_cons] at hfit ⊢
    rw [List.foldl_cons, pushDigit_eq hv d]
    have hle : n * 10 + d.val ≤ readDigits 10 (n * 10 + d.val) (p.map Fin.val) :=
      le_readDigits (by decide) _ _
    cases p with
    | nil => rfl
    | cons e p => exact ih (not_missing (hle.trans hfit)) (List.cons_ne_nil e p) hfit

theorem readParam_eq {p : Param} (hp : p ≠ []) (hfit : literalValue p ≤ INT_MAX) :
    readParam p = BitVec.ofNat 32 (literalValue p) := foldl_pushDigit rfl hp hfit

theorem paramArray_push (vs : List (BitVec 32)) (v w : BitVec 32) :
    Function.update (paramArray (vs ++ [v])) vs.length w = paramArray (vs ++ [w]) := by
  funext i
  unfold paramArray
  rcases Nat.lt_trichotomy i vs.length with h | h | h
  · rw [Function.update_of_ne (by omega), List.getElem?_append_left h, List.getElem?_append_left h]
  · subst h
    simp
  · have hv : (vs ++ [v])[i]? = none := List.getElem?_eq_none (by simp; omega)
    have hw : (vs ++ [w])[i]? = none := List.getElem?_eq_none (by simp; omega)
    rw [Function.update_of_ne (by omega), hv, hw]

theorem paramArray_last (vs : List (BitVec 32)) (v : BitVec 32) :
    paramArray (vs ++ [v]) vs.length = v := by
  simp [paramArray]

/-- A parameter of which nothing has been read is as good as one that is missing. -/
theorem paramArray_next (vs : List (BitVec 32)) : paramArray (vs ++ [-1]) = paramArray vs := by
  funext i
  unfold paramArray
  rcases Nat.lt_trichotomy i vs.length with h | h | h
  · rw [List.getElem?_append_left h]
  · subst h
    simp
  · have hv : (vs ++ [-1])[i]? = none := List.getElem?_eq_none (by simp; omega)
    rw [hv, List.getElem?_eq_none (by omega)]

/-! ## Reading -/

/-- The terminal `s` while it reads a control sequence: the parameters `vs` have been read, and what
has been read of the next one is `v`. -/
def reading (curr : Nat) (s : Vt) (vs : List (BitVec 32)) (v : BitVec 32) : Vt :=
  ifCurrent curr setCursorPos { s with term := { s.term with
    state := .csi, printing := false, csiparam := paramArray (vs ++ [v]), paramidx := vs.length } }

section Read
variable {curr : Nat} {s t : Vt} {vs : List (BitVec 32)} {v : BitVec 32}

/-- A character of a control sequence. -/
theorem putchar_csi (hprinting : t.term.printing = false) (hstate : t.term.state = .csi) {c : Byte}
    (hc : iscntrl c = false) :
    (terminalPutchar curr t c).2 =
      (ifCurrent curr setCursorPos (csi curr (t.setPrinting true) c)).setPrinting false := by
  unfold terminalPutchar
  rw [hprinting]
  have hs : (t.setPrinting true).term.state = .csi := hstate
  show (putchar curr (t.setPrinting true) c).setPrinting false = _
  unfold putchar
  rw [hc, hs]
  rfl

theorem reading_term (curr : Nat) (s : Vt) (vs : List (BitVec 32)) (v : BitVec 32) :
    (reading curr s vs v).term = { s.term with
      state := .csi, printing := false, csiparam := paramArray (vs ++ [v]), paramidx := vs.length } :=
  (programs_setCursorPos.ifCurrent curr _).1

theorem reading_putchar {c : Byte} (hc : iscntrl c = false) :
    (terminalPutchar curr (reading curr s vs v) c).2 =
      (ifCurrent curr setCursorPos (csi curr ((reading curr s vs v).setPrinting true) c)).setPrinting
        false := by
  have hterm := reading_term curr s vs v
  exact putchar_csi (by rw [hterm]) (by rw [hterm]) hc

/-- The terminal while it handles a character of the sequence. -/
theorem reading_busy_term (curr : Nat) (s : Vt) (vs : List (BitVec 32)) (v : BitVec 32) :
    ((reading curr s vs v).setPrinting true).term = { s.term with
      state := .csi, printing := true, csiparam := paramArray (vs ++ [v]), paramidx := vs.length } := by
  show { (reading curr s vs v).term with printing := true } = _
  rw [reading_term]

theorem csi_digit (d : Fin 10) :
    csi curr t (BitVec.ofNat 8 (0x30 + d.val)) = paramDigit t (BitVec.ofNat 8 (0x30 + d.val)) := by
  fin_cases d <;> rfl

theorem reading_digit (d : Fin 10) :
    (terminalPutchar curr (reading curr s vs v) (BitVec.ofNat 8 (0x30 + d.val))).2 =
      reading curr s vs (pushDigit v d) := by
  have hctl : iscntrl (BitVec.ofNat 8 (0x30 + d.val)) = false := by
    revert d
    decide
  have hidx : ((reading curr s vs v).setPrinting true).term.paramidx = vs.length :=
    congrArg Terminal.paramidx (reading_busy_term curr s vs v)
  have hparam : ((reading curr s vs v).setPrinting true).term.csiparam = paramArray (vs ++ [v]) :=
    congrArg Terminal.csiparam (reading_busy_term curr s vs v)
  have hdigit : paramDigit ((reading curr s vs v).setPrinting true) (BitVec.ofNat 8 (0x30 + d.val)) =
      ((reading curr s vs v).setPrinting true).setParam vs.length (pushDigit v d) := by
    unfold paramDigit
    dsimp only
    rw [hidx, hparam, paramArray_last]
    rfl
  rw [reading_putchar hctl, csi_digit, hdigit]
  unfold Vt.setParam
  rw [hparam, paramArray_push]
  unfold reading ifCurrent
  by_cases hcurr : s.term.number = curr
  · simp [hcurr, Vt.setPrinting, setCursorPos, xy2pos]
  · simp [hcurr, Vt.setPrinting]

theorem reading_separator (h : vs.length + 1 < MAX_CSIPARAM) :
    (terminalPutchar curr (reading curr s vs v) SEMICOLON).2 = reading curr s (vs ++ [v]) (-1) := by
  have hidx : ((reading curr s vs v).setPrinting true).term.paramidx = vs.length :=
    congrArg Terminal.paramidx (reading_busy_term curr s vs v)
  have hnext : csi curr ((reading curr s vs v).setPrinting true) SEMICOLON =
      ((reading curr s vs v).setPrinting true).setParamidx (vs.length + 1) := by
    have hsemi : toChar SEMICOLON = ';' := rfl
    unfold csi
    rw [hsemi]
    dsimp only
    rw [hidx]
    exact if_neg (Nat.not_le.mpr h)
  have hlen : (vs ++ [v]).length = vs.length + 1 := List.length_append
  rw [reading_putchar (by decide), hnext]
  unfold reading
  rw [paramArray_next, hlen]
  unfold ifCurrent
  by_cases hcurr : s.term.number = curr
  · simp [hcurr, Vt.setPrinting, Vt.setParamidx, setCursorPos, xy2pos]
  · simp [hcurr, Vt.setPrinting, Vt.setParamidx]

theorem reading_literal (p : Param) :
    putchars curr (reading curr s vs v) (literalText p) =
      reading curr s vs (p.foldl pushDigit v) := by
  induction p generalizing v with
  | nil => rfl
  | cons d p ih =>
    show putchars curr (terminalPutchar curr (reading curr s vs v) _).2 (literalText p) = _
    rw [reading_digit, ih]
    rfl

/-- The parameters after the one that is being read. -/
theorem reading_more (ps : List Param) (h : vs.length + ps.length < MAX_CSIPARAM) :
    ∃ front last, front ++ [last] = vs ++ v :: ps.map readParam ∧
      putchars curr (reading curr s vs v) (ps.flatMap fun q => SEMICOLON :: literalText q) =
        reading curr s front last := by
  induction ps generalizing vs v with
  | nil => exact ⟨vs, v, rfl, rfl⟩
  | cons q ps ih =>
    rw [List.length_cons] at h
    have hlen : (vs ++ [v]).length + ps.length < MAX_CSIPARAM := by
      rw [List.length_append, List.length_singleton]
      omega
    obtain ⟨front, last, hall, hread⟩ := @ih (vs ++ [v]) (readParam q) hlen
    refine ⟨front, last, ?_, ?_⟩
    · rw [hall, List.append_assoc]
      rfl
    · rw [List.flatMap_cons, putchars_append, putchars_cons, reading_separator (by omega),
        reading_literal, ← hread]
      rfl

theorem reading_start (h : s.term.printing = false) :
    putchars curr s (ctrl ASCII_ESC ['[']) = reading curr s [] (-1) := by
  have hseq : ctrl ASCII_ESC ['['] = [ASCII_ESC, 0x5B] := by decide
  have harray : paramArray [-1] = fun _ => -1 := by
    funext i
    cases i <;> rfl
  have hesc : esc curr ((s.setPrinting true).setState .esc) 0x5B =
      { s with term := { s.term with
        state := .csi, printing := true, csiparam := fun _ => -1, paramidx := 0 } } := rfl
  rw [hseq, putchars_escape curr h (by decide), hesc]
  unfold reading
  rw [List.nil_append, harray]
  unfold ifCurrent
  by_cases hcurr : s.term.number = curr
  · simp [hcurr, Vt.setPrinting, setCursorPos, xy2pos]
  · simp [hcurr, Vt.setPrinting]

/-- **Reading the parameters.** Up to sixteen parameters are in `csiparam` when the final character
comes, and nothing else has changed. -/
theorem putchars_params (h : s.term.printing = false) (p : Param) {ps : List Param}
    (hlen : ps.length < MAX_CSIPARAM) :
    ∃ front last, front ++ [last] = (p :: ps).map readParam ∧
      putchars curr s (ctrl ASCII_ESC ['['] ++ paramsText p ps) = reading curr s front last := by
  have hmore : ([] : List (BitVec 32)).length + ps.length < MAX_CSIPARAM := by
    rw [List.length_nil, Nat.zero_add]
    exact hlen
  obtain ⟨front, last, hall, hread⟩ := @reading_more curr s [] (readParam p) ps hmore
  refine ⟨front, last, hall, ?_⟩
  rw [paramsText, putchars_append, putchars_append, reading_start h, reading_literal, ← hread]
  rfl

/-- The final character carries the sequence out. -/
theorem putchars_csiText {p : Param} {ps : List Param} {final : Byte} (hfinal : iscntrl final = false)
    (hread : putchars curr s (ctrl ASCII_ESC ['['] ++ paramsText p ps) = reading curr s vs v) :
    putchars curr s (csiText p ps final) =
      (ifCurrent curr setCursorPos (csi curr ((reading curr s vs v).setPrinting true) final)).setPrinting
        false := by
  rw [csiText, putchars_append, hread]
  exact reading_putchar hfinal

end Read

end Ohwes

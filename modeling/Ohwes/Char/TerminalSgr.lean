import Mathlib.Tactic.IntervalCases
import Ohwes.Char.TerminalParams

/-! # Select graphic rendition

`CSI m` applies its parameters one after the other. A parameter is an `int`, but `csi_m` takes a
`char`: of a value from 256 on only the low byte gets there, and a value the terminal does not support
may turn into one that it does. `sgr_meaning_iff` says for which parameters that makes no difference. -/

namespace Ohwes
set_option autoImplicit false
open Library

/-- The effect of a parameter of `CSI m` as it is documented, for any value. -/
def sgrEffect (defaults attr : CharAttr) (value : Nat) : CharAttr :=
  match value with
  | 0 => defaults
  | 1 => { attr with bright := true }
  | 2 => { attr with faint := true }
  | 3 => { attr with italic := true }
  | 4 => { attr with underline := true }
  | 5 => { attr with blink := true }
  | 7 => { attr with invert := true }
  | 22 => { attr with bright := false, faint := false }
  | 23 => { attr with italic := false }
  | 24 => { attr with underline := false }
  | 25 => { attr with blink := false }
  | 27 => { attr with invert := false }
  | 39 => { attr with fg := defaults.fg }
  | 49 => { attr with bg := defaults.bg }
  | n =>
    if 30 ≤ n ∧ n ≤ 37 then { attr with fg := CSI_COLORS.getD (n - 30) 0 }
    else if 40 ≤ n ∧ n ≤ 47 then { attr with bg := CSI_COLORS.getD (n - 40) 0 }
    else if 90 ≤ n ∧ n ≤ 97 then { attr with fg := CSI_COLORS.getD (n - 90) 0, bright := true }
    else if 100 ≤ n ∧ n ≤ 107 then
      { attr with bg := CSI_COLORS.getD (n - 100) 0, bright := !attr.blink }
    else attr

theorem sgrEffect_unsupported (defaults attr : CharAttr) {value : Nat} (h : 107 < value) :
    sgrEffect defaults attr value = attr := by
  unfold sgrEffect
  split
  case h_15 =>
    rw [if_neg (by omega), if_neg (by omega), if_neg (by omega), if_neg (by omega)]
  all_goals omega

theorem csiColor_unsupported (defaults attr : CharAttr) {p : Int} (h : p < 0 ∨ 107 < p) :
    csiColor defaults attr p = attr := by
  unfold csiColor
  rw [if_neg (by omega), if_neg (by omega), if_neg (by omega), if_neg (by omega),
    if_neg (by omega), if_neg (by omega)]

theorem csiM_attr (s : Vt) (p : Byte) :
    (csiM s p).term.attr = sgrEffect s.term.defaultAttr s.term.attr p.toNat := by
  by_cases h : p.toNat ≤ 107
  · obtain ⟨n, hn⟩ : ∃ n, p.toNat = n := ⟨_, rfl⟩
    have hp : p = BitVec.ofNat 8 n := by rw [← hn]; simp
    rw [hn] at h ⊢
    subst hp
    clear hn
    interval_cases n <;> rfl
  · rw [sgrEffect_unsupported _ _ (by omega)]
    have hlt := p.isLt
    have hz : p.toInt < 0 ∨ 107 < p.toInt := by
      rw [BitVec.toInt_eq_toNat_cond]
      split <;> omega
    unfold csiM Vt.setAttr
    dsimp only
    split
    case h_13 => exact csiColor_unsupported _ _ hz
    all_goals omega

/-- The effects of several parameters, from left to right. -/
def sgrEffects (defaults attr : CharAttr) (values : List Nat) : CharAttr :=
  values.foldl (sgrEffect defaults) attr

/-! ## The loop over the parameters -/

/-- A parameter at least 0, as `csi_m` takes it. -/
def sgrArg (v : BitVec 32) : Byte := (if v.toInt < 0 then 0 else v).truncate 8

theorem paramMinimum_attr (i : Nat) (v : BitVec 32) (s : Vt) :
    (paramMinimum i v s).term.attr = s.term.attr ∧
      (paramMinimum i v s).term.defaultAttr = s.term.defaultAttr := by
  unfold paramMinimum
  split
  · exact ⟨rfl, rfl⟩
  · exact ⟨rfl, rfl⟩

theorem paramMinimum_arg (i : Nat) (s : Vt) :
    ((paramMinimum i 0 s).term.csiparam i).truncate 8 = sgrArg (s.term.csiparam i) := by
  unfold paramMinimum sgrArg
  by_cases h : (s.term.csiparam i).toInt < 0
  · rw [if_pos (show _ < (0 : BitVec 32).toInt from h), if_pos h]
    show (Function.update s.term.csiparam i 0 i).truncate 8 = _
    rw [Function.update_self]
  · rw [if_neg (show ¬ _ < (0 : BitVec 32).toInt from h), if_neg h]

/-- The loop applies the parameters it finds from `i` on. -/
theorem csiMLoop_attr (vs : List (BitVec 32)) {i : Nat} {s : Vt}
    (h : ∀ k, k < vs.length → s.term.csiparam (i + k) = paramArray vs k) :
    (csiMLoop i vs.length s).term.attr =
      vs.foldl (fun a v => sgrEffect s.term.defaultAttr a (sgrArg v).toNat) s.term.attr := by
  induction vs generalizing i s with
  | nil => rfl
  | cons v vs ih =>
    have hv : s.term.csiparam i = v := h 0 (Nat.succ_pos _)
    have harg := paramMinimum_arg i s
    obtain ⟨hattr, hdefault⟩ := paramMinimum_attr i 0 s
    have hset := csiM_attr (paramMinimum i 0 s) (sgrArg v)
    have hnext : ∀ k, k < vs.length →
        (csiM (paramMinimum i 0 s) (sgrArg v)).term.csiparam (i + 1 + k) = paramArray vs k := by
      intro k hk
      have hk' := h (k + 1) (Nat.succ_lt_succ hk)
      have hidx : i + (k + 1) = i + 1 + k := by omega
      rw [hidx] at hk'
      exact (paramMinimum_of_ne (by omega) 0 s).trans hk'
    rw [hv] at harg
    show (csiMLoop (i + 1) vs.length (csiM (paramMinimum i 0 s)
      (((paramMinimum i 0 s).term.csiparam i).truncate 8))).term.attr = _
    rw [harg, ih hnext, hset, hattr, List.foldl_cons, hdefault]
    show vs.foldl (fun a v => sgrEffect (paramMinimum i 0 s).term.defaultAttr a (sgrArg v).toNat) _ = _
    rw [hdefault]

/-- What `csi_m` is handed of a parameter is its low byte. -/
theorem sgrArg_readParam {p : Param} (h : literalValue p ≤ INT_MAX) :
    (sgrArg (readParam p)).toNat = literalValue p % 256 := by
  by_cases hp : p = []
  · subst hp
    rfl
  · have hmax : INT_MAX = 2147483647 := rfl
    have hnat : (BitVec.ofNat 32 (literalValue p)).toNat = literalValue p := by
      rw [BitVec.toNat_ofNat]
      omega
    have hint : ¬ (BitVec.ofNat 32 (literalValue p)).toInt < 0 := by
      rw [BitVec.toInt_eq_toNat_cond, hnat]
      omega
    rw [readParam_eq hp h]
    unfold sgrArg
    rw [if_neg hint, BitVec.truncate_eq_setWidth, BitVec.toNat_setWidth, hnat]

/-! ## The sequence -/

section Sequence
variable {curr : Nat} {s : Vt}

/-- What a complete sequence does to the attributes: of each parameter the effect of its low byte. -/
theorem putchars_sgr (hprinting : s.term.printing = false) {p : Param} {ps : List Param}
    (hlen : ps.length < MAX_CSIPARAM) (hint : ∀ q ∈ p :: ps, literalValue q ≤ INT_MAX) :
    (putchars curr s (csiText p ps 0x6D)).term.attr =
      sgrEffects s.term.defaultAttr s.term.attr ((p :: ps).map fun q => literalValue q % 256) := by
  obtain ⟨front, last, hall, hread⟩ := @putchars_params curr s hprinting p ps hlen
  have hterm := reading_busy_term curr s front last
  have hm : (csi curr ((reading curr s front last).setPrinting true) 0x6D).term.attr =
      (csiMLoop 0 (front ++ [last]).length
        ((reading curr s front last).setPrinting true)).term.attr := by
    have hcount : (front ++ [last]).length =
        ((reading curr s front last).setPrinting true).term.paramidx + 1 := by
      rw [hterm, List.length_append, List.length_singleton]
    rw [hcount]
    rfl
  have hloop := csiMLoop_attr (front ++ [last]) (i := 0)
    (s := (reading curr s front last).setPrinting true) fun k _ => by rw [hterm, Nat.zero_add]
  have hargs : ((p :: ps).map readParam).map (fun v => (sgrArg v).toNat) =
      (p :: ps).map fun q => literalValue q % 256 := by
    rw [List.map_map]
    exact List.map_congr_left fun q hq => sgrArg_readParam (hint q hq)
  rw [putchars_csiText (by decide) hread]
  show (ifCurrent curr setCursorPos _).term.attr = _
  rw [(programs_setCursorPos.ifCurrent curr _).1, hm, hloop, hterm, sgrEffects, ← hargs, ← hall,
    List.foldl_map]

end Sequence

/-- Two ways to fold agree on every first part of a list if they take every step alike. -/
theorem foldl_prefix_iff {α β : Type} {f g : α → β → α} {a : α} {l : List β} :
    (∀ pre, pre <+: l → pre.foldl g a = pre.foldl f a) ↔
      ∀ before q after, l = before ++ q :: after →
        g (before.foldl f a) q = f (before.foldl f a) q := by
  constructor
  · rintro h before q after rfl
    have hbefore := h before (List.prefix_append before (q :: after))
    have hq := h (before ++ [q]) ⟨after, by rw [List.append_assoc, List.singleton_append]⟩
    rw [List.foldl_append, List.foldl_append, hbefore] at hq
    exact hq
  · intro h pre hpre
    induction pre using List.reverseRecOn with
    | nil => rfl
    | append_singleton before q ih =>
      obtain ⟨after, rfl⟩ := hpre
      have hbefore := ih ⟨q :: after, by rw [List.append_assoc, List.singleton_append]⟩
      have hq := h before q after (by rw [List.append_assoc, List.singleton_append])
      rw [List.foldl_append, List.foldl_append, hbefore]
      exact hq

/-- The low byte of a value has the effect of the value if it changes nothing or there is no more. -/
theorem sgrEffect_mod_iff (defaults attr : CharAttr) (value : Nat) :
    sgrEffect defaults attr (value % 256) = sgrEffect defaults attr value ↔
      (256 ≤ value → sgrEffect defaults attr (value % 256) = attr) := by
  by_cases h : 256 ≤ value
  · rw [sgrEffect_unsupported defaults attr (by omega : 107 < value)]
    exact ⟨fun he _ => he, fun he => he h⟩
  · rw [Nat.mod_eq_of_lt (by omega)]
    exact iff_of_true rfl fun hge => absurd hge h

/-- The sequence and every first part of it have the documented effect. -/
def MeansSgr (curr : Nat) (s : Vt) (p : Param) (ps : List Param) : Prop :=
  ∀ pre, pre <+: ps → (putchars curr s (csiText p pre 0x6D)).term.attr =
    sgrEffects s.term.defaultAttr s.term.attr ((p :: pre).map literalValue)

/-- **Graphic rendition.** A sequence and every first part of it have the documented effect exactly if
no parameter from 256 on has a low byte with an effect of its own at its place. -/
theorem sgr_meaning_iff (curr : Nat) (s : Vt) (p : Param) (ps : List Param)
    (hprinting : s.term.printing = false) (hlen : ps.length < MAX_CSIPARAM)
    (hint : ∀ q ∈ p :: ps, literalValue q ≤ INT_MAX) :
    MeansSgr curr s p ps ↔
      ∀ before q after, p :: ps = before ++ q :: after → 256 ≤ literalValue q →
        sgrEffect s.term.defaultAttr
            (sgrEffects s.term.defaultAttr s.term.attr (before.map literalValue))
            (literalValue q % 256) =
          sgrEffects s.term.defaultAttr s.term.attr (before.map literalValue) := by
  have hsgr : ∀ pre, pre <+: ps → (putchars curr s (csiText p pre 0x6D)).term.attr =
      sgrEffects s.term.defaultAttr s.term.attr ((p :: pre).map fun q => literalValue q % 256) := by
    intro pre hpre
    refine putchars_sgr hprinting (Nat.lt_of_le_of_lt hpre.length_le hlen) fun q hq => hint q ?_
    obtain rfl | hq := List.mem_cons.mp hq
    · exact List.mem_cons_self ..
    · exact List.mem_cons_of_mem p (hpre.subset hq)
  unfold MeansSgr
  generalize s.term.defaultAttr = d at *
  generalize s.term.attr = a at *
  have hfull : ∀ l : List Param, sgrEffects d a (l.map literalValue) =
      l.foldl (fun x q => sgrEffect d x (literalValue q)) a := fun l => List.foldl_map
  have hlow : ∀ l : List Param, sgrEffects d a (l.map fun q => literalValue q % 256) =
      l.foldl (fun x q => sgrEffect d x (literalValue q % 256)) a := fun l => List.foldl_map
  have hprefix := @foldl_prefix_iff _ _ (fun x q => sgrEffect d x (literalValue q))
    (fun x q => sgrEffect d x (literalValue q % 256)) a (p :: ps)
  simp only [sgrEffect_mod_iff, ← hfull, ← hlow] at hprefix
  rw [← hprefix]
  constructor
  · intro h pre hpre
    obtain rfl | ⟨more, rfl, hmore⟩ := List.prefix_cons_iff.mp hpre
    · rfl
    · rw [← hsgr more hmore]
      exact h more hmore
  · intro h pre hpre
    rw [hsgr pre hpre]
    exact h (p :: pre) (List.cons_prefix_cons.mpr ⟨rfl, hpre⟩)

/-- Bright red on blue, with a value without a meaning. -/
theorem sgr_meaning_bright :
    MeansSgr 1 (defaultVt textVga (zeroTerminal 1)) [1] [[3, 1], [4, 4], [1, 2, 3]] := by
  have hsmall : ∀ q ∈ ([[1], [3, 1], [4, 4], [1, 2, 3]] : List Param), ¬ 256 ≤ literalValue q := by
    decide
  refine (sgr_meaning_iff 1 (defaultVt textVga (zeroTerminal 1)) [1] [[3, 1], [4, 4], [1, 2, 3]] rfl
    (by decide) (by decide)).mpr fun before q after h hge => ?_
  have hq : q ∈ ([[1], [3, 1], [4, 4], [1, 2, 3]] : List Param) := by
    rw [h]
    simp
  exact absurd hge (hsmall q hq)

/-- 257 does what 1 should do. -/
theorem sgr_meaning_aliased :
    ¬ MeansSgr 1 (defaultVt textVga (zeroTerminal 1)) [2, 5, 7] [] := by
  intro h
  have hattr := h [] (List.prefix_refl [])
  revert hattr
  decide +kernel

end Ohwes

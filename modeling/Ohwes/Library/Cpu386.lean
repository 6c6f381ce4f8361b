import Mathlib.Data.BitVec
import Mathlib.Logic.Function.Basic

/-! # A 32-bit x86 processor in protected mode

The registers, a byte memory, the instructions that system entry paths are written in, and what an
interrupt and `iret` do. Segments are flat. Of the status flags only those that a jump reads are kept
up to date, `CF`, `ZF` and `SF`. Virtual-8086 mode and returns between nested tasks are left out: `deliver`
and `iret` have no result there. Loading a selector succeeds: it is one that was loaded before. -/

namespace Ohwes.Library
set_option autoImplicit false

/-! ## Memory -/

abbrev Memory386 := BitVec 32 → BitVec 8

def readWord (m : Memory386) (a : BitVec 32) : BitVec 32 := m (a + 3) ++ m (a + 2) ++ m (a + 1) ++ m a

def writeWord (m : Memory386) (a v : BitVec 32) : Memory386 := fun x =>
  if (x - a).toNat < 4 then v.extractLsb' (8 * (x - a).toNat) 8 else m x

theorem word_bytes (v : BitVec 32) :
    (v.extractLsb' 24 8 ++ v.extractLsb' 16 8 ++ v.extractLsb' 8 8 ++ v.extractLsb' 0 8 : BitVec 32) =
      v := by
  have h1 : (v.extractLsb' 24 8 ++ v.extractLsb' 16 8 : BitVec 16) = v.extractLsb' 16 16 :=
    BitVec.extractLsb'_append_extractLsb'_eq_extractLsb' rfl
  have h2 : (v.extractLsb' 16 16 ++ v.extractLsb' 8 8 : BitVec 24) = v.extractLsb' 8 24 :=
    BitVec.extractLsb'_append_extractLsb'_eq_extractLsb' rfl
  rw [h1, h2]
  exact BitVec.extractLsb'_append_extractLsb'

theorem readWord_writeWord (m : Memory386) (a v : BitVec 32) : readWord (writeWord m a v) a = v := by
  have hsub (k : BitVec 32) : a + k - a = k := by
    rw [BitVec.add_comm, BitVec.add_sub_cancel]
  simp only [readWord, writeWord, hsub, BitVec.sub_self]
  exact word_bytes v

theorem writeWord_apart (m : Memory386) {a x : BitVec 32} (v : BitVec 32) (h : 4 ≤ (x - a).toNat) :
    writeWord m a v x = m x := by
  rw [writeWord, if_neg (by omega)]

theorem readWord_writeWord_apart (m : Memory386) {a b : BitVec 32} (v : BitVec 32)
    (hba : 4 ≤ (b - a).toNat) (hab : 4 ≤ (a - b).toNat) :
    readWord (writeWord m a v) b = readWord m b := by
  have hbyte : ∀ k : BitVec 32, k.toNat < 4 → 4 ≤ (b + k - a).toNat := by
    intro k hk
    bv_omega
  rw [readWord, readWord, writeWord_apart m v (hbyte 3 (by decide)),
    writeWord_apart m v (hbyte 2 (by decide)), writeWord_apart m v (hbyte 1 (by decide)),
    writeWord_apart m v hba]

/-! ## Registers -/

inductive Gpr
  | eax | ebx | ecx | edx | esi | edi | ebp | esp
  deriving DecidableEq

inductive Seg
  | cs | ds | es | fs | gs | ss
  deriving DecidableEq

structure Cpu386 where
  gpr : Gpr → BitVec 32
  seg : Seg → BitVec 16
  eip : BitVec 32
  eflags : BitVec 32
  mem : Memory386

def CF : Nat := 0
def ZF : Nat := 6
def SF : Nat := 7
def TF : Nat := 8
def IF : Nat := 9
def NT : Nat := 14
def RF : Nat := 16
def VM : Nat := 17

def setFlag (eflags : BitVec 32) (bit : Nat) (on : Bool) : BitVec 32 :=
  if on then eflags ||| BitVec.twoPow 32 bit else eflags &&& ~~~ BitVec.twoPow 32 bit

def flag (eflags : BitVec 32) (bit : Nat) : Bool := eflags.getLsbD bit

theorem flag_setFlag (eflags : BitVec 32) (bit : Nat) (on : Bool) {i : Nat} (hi : i < 32) :
    flag (setFlag eflags bit on) i = if i = bit then on else flag eflags i := by
  by_cases h : i = bit
  · cases on <;> simp [flag, setFlag, h, h ▸ hi]
  · cases on with
    | true => simp [flag, setFlag, BitVec.getLsbD_twoPow, h, Ne.symm h]
    | false => simp [flag, setFlag, h, hi]

namespace Cpu386
variable (c : Cpu386)

def setGpr (r : Gpr) (v : BitVec 32) : Cpu386 := { c with gpr := Function.update c.gpr r v }

def setSeg (r : Seg) (v : BitVec 16) : Cpu386 := { c with seg := Function.update c.seg r v }

def flagged (r : BitVec 32) (carry : Bool) : Cpu386 :=
  { c with eflags := setFlag (setFlag (setFlag c.eflags CF carry) ZF (r == 0)) SF r.msb }

def push (v : BitVec 32) : Cpu386 :=
  { c.setGpr .esp (c.gpr .esp - 4) with mem := writeWord c.mem (c.gpr .esp - 4) v }

theorem setGpr_same (r : Gpr) (v : BitVec 32) : (c.setGpr r v).gpr r = v := by
  simp [setGpr]

theorem setGpr_other {r i : Gpr} (h : i ≠ r) (v : BitVec 32) : (c.setGpr r v).gpr i = c.gpr i := by
  simp [setGpr, h]

theorem setGpr_gpr (r : Gpr) : c.setGpr r (c.gpr r) = c := by
  rw [setGpr, Function.update_eq_self]

end Cpu386

/-! ## Instructions -/

inductive Op386
  | cli
  | sti
  | mov (src dst : Gpr)
  | movImm (imm : BitVec 32) (dst : Gpr)
  | load (disp : BitVec 32) (base dst : Gpr)
  | store (src : Gpr) (disp : BitVec 32) (base : Gpr)
  | storeSeg (src : Seg) (dst : Gpr)
  | loadSeg (src : Gpr) (dst : Seg)
  | xor (src dst : Gpr)
  | and (imm : BitVec 32) (dst : Gpr)
  | add (imm : BitVec 32) (dst : Gpr)
  | sub (imm : BitVec 32) (dst : Gpr)
  | test (src dst : Gpr)
  | cmp (imm : BitVec 32) (dst : Gpr)
  | push (imm : BitVec 32)

def Op386.exec (c : Cpu386) : Op386 → Cpu386
  | .cli => { c with eflags := setFlag c.eflags IF false }
  | .sti => { c with eflags := setFlag c.eflags IF true }
  | .mov src dst => c.setGpr dst (c.gpr src)
  | .movImm imm dst => c.setGpr dst imm
  | .load disp base dst => c.setGpr dst (readWord c.mem (c.gpr base + disp))
  | .store src disp base => { c with mem := writeWord c.mem (c.gpr base + disp) (c.gpr src) }
  | .storeSeg src dst => c.setGpr dst ((c.gpr dst).extractLsb' 16 16 ++ c.seg src)
  | .loadSeg src dst => c.setSeg dst ((c.gpr src).truncate 16)
  | .xor src dst => (c.setGpr dst (c.gpr src ^^^ c.gpr dst)).flagged (c.gpr src ^^^ c.gpr dst) false
  | .and imm dst => (c.setGpr dst (c.gpr dst &&& imm)).flagged (c.gpr dst &&& imm) false
  | .add imm dst =>
    (c.setGpr dst (c.gpr dst + imm)).flagged (c.gpr dst + imm) ((c.gpr dst + imm).ult imm)
  | .sub imm dst =>
    (c.setGpr dst (c.gpr dst - imm)).flagged (c.gpr dst - imm) ((c.gpr dst).ult imm)
  | .test src dst => c.flagged (c.gpr src &&& c.gpr dst) false
  | .cmp imm dst => c.flagged (c.gpr dst - imm) ((c.gpr dst).ult imm)
  | .push imm => c.push imm

def execAll (ops : List Op386) (c : Cpu386) : Cpu386 := ops.foldl Op386.exec c

theorem flagged_nested (c : Cpu386) (r : BitVec 32) (carry : Bool) :
    flag (c.flagged r carry).eflags NT = flag c.eflags NT := by
  simp [Cpu386.flagged, flag_setFlag, CF, ZF, SF, NT]

/-- Only `iret` and an interrupt touch the flag of nested tasks. -/
theorem exec_nested (c : Cpu386) (o : Op386) : flag (o.exec c).eflags NT = flag c.eflags NT := by
  cases o with
  | cli => exact (flag_setFlag c.eflags IF false (by decide)).trans (if_neg (by decide))
  | sti => exact (flag_setFlag c.eflags IF true (by decide)).trans (if_neg (by decide))
  | xor src dst => exact flagged_nested ..
  | and imm dst => exact flagged_nested ..
  | add imm dst => exact flagged_nested ..
  | sub imm dst => exact flagged_nested ..
  | test src dst => exact flagged_nested ..
  | cmp imm dst => exact flagged_nested ..
  | _ => rfl

theorem execAll_nested (ops : List Op386) (c : Cpu386) :
    flag (execAll ops c).eflags NT = flag c.eflags NT := by
  induction ops generalizing c with
  | nil => rfl
  | cons o ops ih => exact (ih (o.exec c)).trans (exec_nested c o)

/-- A comparison sets the flags of an unsigned `≤`. -/
theorem cmp_below_or_equal (imm : BitVec 32) (dst : Gpr) (c : Cpu386) :
    (flag ((Op386.cmp imm dst).exec c).eflags CF || flag ((Op386.cmp imm dst).exec c).eflags ZF) =
      decide (c.gpr dst ≤ imm) := by
  have hcf : flag ((Op386.cmp imm dst).exec c).eflags CF = (c.gpr dst).ult imm := by
    simp [Op386.exec, Cpu386.flagged, flag_setFlag, CF, ZF, SF]
  have hzf : flag ((Op386.cmp imm dst).exec c).eflags ZF = (c.gpr dst - imm == 0) := by
    simp [Op386.exec, Cpu386.flagged, flag_setFlag, ZF, SF]
  rw [hcf, hzf, Bool.eq_iff_iff, Bool.or_eq_true, decide_eq_true_iff, beq_iff_eq, BitVec.ult_iff_lt]
  constructor
  · rintro (hlt | heq)
    · exact BitVec.le_of_lt hlt
    · bv_omega
  · intro hle
    bv_omega

/-- The privilege level of a selector. -/
def rpl (s : BitVec 16) : BitVec 16 := s &&& 3

/-- An interrupt through a gate to code of privilege level 0, with the stack for a change of level. -/
structure Gate386 where
  selector : BitVec 16
  offset : BitVec 32
  disables : Bool
  esp0 : BitVec 32
  ss0 : BitVec 16

/-- What the processor does on an interrupt. It pushes selectors as words, of which the upper halves are
not defined. -/
def Cpu386.deliver (c : Cpu386) (gate : Gate386) (csHigh ssHigh : BitVec 16)
    (errorCode : Option (BitVec 32)) : Option Cpu386 :=
  if flag c.eflags VM then none
  else
    let start :=
      if rpl (c.seg .cs) = 0 then c
      else (((c.setSeg .ss gate.ss0).setGpr .esp gate.esp0).push (ssHigh ++ c.seg .ss)).push (c.gpr .esp)
    let pushed := ((start.push c.eflags).push (csHigh ++ c.seg .cs)).push c.eip
    let flags := setFlag (setFlag (setFlag c.eflags TF false) NT false) RF false
    some { (errorCode.elim pushed pushed.push).setSeg .cs gate.selector with
      eip := gate.offset
      eflags := if gate.disables then setFlag flags IF false else flags }

def Cpu386.iret (c : Cpu386) : Option Cpu386 :=
  let esp := c.gpr .esp
  let cs := (readWord c.mem (esp + 4)).truncate 16
  let eflags := readWord c.mem (esp + 8)
  let back := { c.setSeg .cs cs with eip := readWord c.mem esp, eflags }
  if flag c.eflags NT || flag eflags VM then none
  else if rpl cs = rpl (c.seg .cs) then some (back.setGpr .esp (esp + 12))
  else if rpl cs < rpl (c.seg .cs) then none
  else
    some ((back.setGpr .esp (readWord c.mem (esp + 12))).setSeg .ss
      ((readWord c.mem (esp + 16)).truncate 16))

section Iret
variable {c : Cpu386} {cs : BitVec 16} {eflags : BitVec 32} (hnt : flag c.eflags NT = false)
  (hcs : (readWord c.mem (c.gpr .esp + 4)).truncate 16 = cs)
  (hfl : readWord c.mem (c.gpr .esp + 8) = eflags) (hvm : flag eflags VM = false)
include hnt hcs hfl hvm

/-- A return to the same privilege level. -/
theorem iret_same (hl : rpl cs = rpl (c.seg .cs)) :
    c.iret = some {
      gpr := Function.update c.gpr .esp (c.gpr .esp + 12)
      seg := Function.update c.seg .cs cs
      eip := readWord c.mem (c.gpr .esp)
      eflags := eflags
      mem := c.mem } := by
  rw [Cpu386.iret]
  dsimp only
  rw [hcs, hfl, hnt, hvm, if_neg (by simp), if_pos hl]
  rfl

/-- A return to the stack of an outer level. -/
theorem iret_outer (hl : rpl cs ≠ rpl (c.seg .cs)) (hlt : ¬ rpl cs < rpl (c.seg .cs)) :
    c.iret = some {
      gpr := Function.update c.gpr .esp (readWord c.mem (c.gpr .esp + 12))
      seg := Function.update (Function.update c.seg .cs cs) .ss
        ((readWord c.mem (c.gpr .esp + 16)).truncate 16)
      eip := readWord c.mem (c.gpr .esp)
      eflags := eflags
      mem := c.mem } := by
  rw [Cpu386.iret]
  dsimp only
  rw [hcs, hfl, hnt, hvm, if_neg (by simp), if_neg hl, if_neg hlt]
  rfl

end Iret

/-! ## Programs -/

/-- A line of a listing with labels `lbl`. The words of the table behind the address of an indirect jump
are part of the listing: those that are known, for as long as they are. -/
inductive Line386 (lbl : Type)
  | op (o : Op386)
  | jz (l : lbl)
  | js (l : lbl)
  | jbe (l : lbl)
  | jmp (l : lbl)
  | jmpTable (words : List lbl) (index : Gpr)
  | iret

/-- Where a run leaves the listing: at a label that has no lines, or with `iret`. -/
inductive Exit386 (lbl : Type)
  | label (l : lbl)
  | returned

section Run
variable {lbl : Type} (code : lbl → Option (List (Line386 lbl)))

/-- The lines from some place on are run, `limit` of them at most. -/
def runLines : Nat → List (Line386 lbl) → Cpu386 → Option (Exit386 lbl × Cpu386)
  | 0, _, _ => none
  | _ + 1, [], _ => none
  | limit + 1, .op o :: lines, c => runLines limit lines (o.exec c)
  | limit + 1, .jz l :: lines, c => if flag c.eflags ZF then jump limit l c else runLines limit lines c
  | limit + 1, .js l :: lines, c => if flag c.eflags SF then jump limit l c else runLines limit lines c
  | limit + 1, .jbe l :: lines, c =>
    if flag c.eflags CF || flag c.eflags ZF then jump limit l c else runLines limit lines c
  | limit + 1, .jmp l :: _, c => jump limit l c
  | limit + 1, .jmpTable words index :: _, c =>
    -- the address is four times the index, modulo `2 ^ 32`
    match words[(4 * c.gpr index).toNat / 4]? with
    | none => none
    | some l => jump limit l c
  | _ + 1, .iret :: _, c => c.iret.map fun c => (.returned, c)
where
  jump (limit : Nat) (l : lbl) (c : Cpu386) : Option (Exit386 lbl × Cpu386) :=
    match code l with
    | none => some (.label l, c)
    | some lines => runLines limit lines c

/-- Some number of lines leads from one place to the other. -/
def Leads (lines : List (Line386 lbl)) (c : Cpu386) (lines' : List (Line386 lbl)) (c' : Cpu386) : Prop :=
  ∃ k, ∀ n, runLines code (n + k) lines c = runLines code n lines' c'

/-- Some number of lines leads to an exit. -/
def Exits (lines : List (Line386 lbl)) (c : Cpu386) (e : Exit386 lbl) (c' : Cpu386) : Prop :=
  ∃ k, ∀ n, runLines code (n + k) lines c = some (e, c')

variable {code} {lines lines' lines'' : List (Line386 lbl)} {c c' c'' : Cpu386} {l : lbl}

theorem Leads.trans (h : Leads code lines c lines' c') (h' : Leads code lines' c' lines'' c'') :
    Leads code lines c lines'' c'' := by
  obtain ⟨k, hk⟩ := h
  obtain ⟨j, hj⟩ := h'
  refine ⟨j + k, fun n => ?_⟩
  rw [← Nat.add_assoc, hk, hj]

theorem Leads.exits {e : Exit386 lbl} (h : Leads code lines c lines' c')
    (h' : Exits code lines' c' e c'') : Exits code lines c e c'' := by
  obtain ⟨k, hk⟩ := h
  obtain ⟨j, hj⟩ := h'
  refine ⟨j + k, fun n => ?_⟩
  rw [← Nat.add_assoc, hk, hj]

theorem leads_ops (ops : List Op386) (rest : List (Line386 lbl)) (c : Cpu386) :
    Leads code (ops.map .op ++ rest) c rest (execAll ops c) := by
  induction ops generalizing c with
  | nil => exact ⟨0, fun n => rfl⟩
  | cons o ops ih =>
    obtain ⟨k, hk⟩ := ih (o.exec c)
    refine ⟨k + 1, fun n => ?_⟩
    rw [← Nat.add_assoc, List.map_cons, List.cons_append, runLines]
    exact hk n

theorem leads_jmp (rest : List (Line386 lbl)) (c : Cpu386) (h : code l = some lines) :
    Leads code (.jmp l :: rest) c lines c := by
  refine ⟨1, fun n => ?_⟩
  rw [runLines, runLines.jump, h]

theorem leads_jz (rest : List (Line386 lbl)) (hz : flag c.eflags ZF = true)
    (h : code l = some lines) : Leads code (.jz l :: rest) c lines c := by
  refine ⟨1, fun n => ?_⟩
  rw [runLines, if_pos hz, runLines.jump, h]

theorem leads_jz_past (l : lbl) (rest : List (Line386 lbl)) (hz : flag c.eflags ZF = false) :
    Leads code (.jz l :: rest) c rest c := by
  refine ⟨1, fun n => ?_⟩
  rw [runLines, if_neg (by simp [hz])]

theorem leads_js (rest : List (Line386 lbl)) (hs : flag c.eflags SF = true)
    (h : code l = some lines) : Leads code (.js l :: rest) c lines c := by
  refine ⟨1, fun n => ?_⟩
  rw [runLines, if_pos hs, runLines.jump, h]

theorem leads_js_past (l : lbl) (rest : List (Line386 lbl)) (hs : flag c.eflags SF = false) :
    Leads code (.js l :: rest) c rest c := by
  refine ⟨1, fun n => ?_⟩
  rw [runLines, if_neg (by simp [hs])]

theorem leads_jbe (rest : List (Line386 lbl)) (hb : (flag c.eflags CF || flag c.eflags ZF) = true)
    (h : code l = some lines) : Leads code (.jbe l :: rest) c lines c := by
  refine ⟨1, fun n => ?_⟩
  rw [runLines, if_pos hb, runLines.jump, h]

theorem leads_jbe_past (l : lbl) (rest : List (Line386 lbl))
    (hb : (flag c.eflags CF || flag c.eflags ZF) = false) : Leads code (.jbe l :: rest) c rest c := by
  refine ⟨1, fun n => ?_⟩
  rw [runLines, if_neg (by simp [hb])]

theorem exits_jmp (rest : List (Line386 lbl)) (c : Cpu386) (h : code l = none) :
    Exits code (.jmp l :: rest) c (.label l) c := by
  refine ⟨1, fun n => ?_⟩
  rw [runLines, runLines.jump, h]

theorem exits_jmpTable {words : List lbl} {index : Gpr} (rest : List (Line386 lbl))
    (hl : words[(4 * c.gpr index).toNat / 4]? = some l) (h : code l = none) :
    Exits code (.jmpTable words index :: rest) c (.label l) c := by
  refine ⟨1, fun n => ?_⟩
  rw [runLines, hl]
  simp only [runLines.jump, h]

theorem exits_iret (rest : List (Line386 lbl)) (h : c.iret = some c') :
    Exits code (.iret :: rest) c .returned c' := by
  refine ⟨1, fun n => ?_⟩
  rw [runLines, h]
  rfl

/-- The exit does not depend on the number of lines allowed. -/
theorem Exits.unique {e e' : Exit386 lbl} (h : Exits code lines c e c') (h' : Exits code lines c e' c'') :
    e = e' ∧ c' = c'' := by
  obtain ⟨k, hk⟩ := h
  obtain ⟨j, hj⟩ := h'
  have hboth : some (e, c') = some (e', c'') := by rw [← hk j, ← hj k, Nat.add_comm]
  cases hboth
  exact ⟨rfl, rfl⟩

end Run

/-! ## Words at distances from a base -/

theorem base_sub (b i j : BitVec 32) : b + i - j = b + (i - j) := by bv_omega

/-- The words at the distances have no byte in common. -/
def WordsApart (i j : BitVec 32) : Prop := 4 ≤ (j - i).toNat ∧ 4 ≤ (i - j).toNat

instance (i j : BitVec 32) : Decidable (WordsApart i j) := instDecidableAnd

def storeWords (m : Memory386) (b : BitVec 32) (ws : List (BitVec 32 × BitVec 32)) : Memory386 :=
  ws.foldl (fun m w => writeWord m (b + w.1) w.2) m

section Base
variable {m : Memory386} {b i j : BitVec 32}

theorem readWord_base (v : BitVec 32) (h : 4 ≤ (j - i).toNat) (h' : 4 ≤ (i - j).toNat) :
    readWord (writeWord m (b + i) v) (b + j) = readWord m (b + j) := by
  refine readWord_writeWord_apart m v ?_ ?_
  · rwa [show b + j - (b + i) = j - i by bv_omega]
  · rwa [show b + i - (b + j) = i - j by bv_omega]

theorem readWord_behind_base (v : BitVec 32) (h : 4 ≤ j.toNat) (h' : 4 ≤ (-j).toNat) :
    readWord (writeWord m b v) (b + j) = readWord m (b + j) := by
  refine readWord_writeWord_apart m v ?_ ?_
  · rwa [show b + j - b = j by bv_omega]
  · rwa [show b - (b + j) = -j by bv_omega]

theorem readWord_storeWords_apart {ws : List (BitVec 32 × BitVec 32)}
    (h : ∀ w ∈ ws, WordsApart w.1 j) : readWord (storeWords m b ws) (b + j) = readWord m (b + j) := by
  induction ws generalizing m with
  | nil => rfl
  | cons w ws ih =>
    refine (ih fun w hw => h w (List.mem_cons_of_mem _ hw)).trans ?_
    obtain ⟨hij, hji⟩ := h w (List.mem_cons_self ..)
    exact readWord_base w.2 hij hji

theorem readWord_storeWords_behind {ws : List (BitVec 32 × BitVec 32)}
    (h : (j :: ws.map (·.1)).Pairwise WordsApart) :
    readWord (storeWords m b ws) (b + j) = readWord m (b + j) :=
  readWord_storeWords_apart fun w hw =>
    ((List.pairwise_cons.mp h).1 w.1 (List.mem_map_of_mem hw)).symm

theorem readWord_storeWords {ws : List (BitVec 32 × BitVec 32)} {v : BitVec 32}
    (hws : (ws.map (·.1)).Pairwise WordsApart) (h : (j, v) ∈ ws) :
    readWord (storeWords m b ws) (b + j) = v := by
  induction ws generalizing m with
  | nil => cases h
  | cons w ws ih =>
    obtain ⟨hw, hws⟩ := List.pairwise_cons.mp hws
    obtain rfl | h := List.mem_cons.mp h
    · have hapart : ∀ w' ∈ ws, WordsApart w'.1 j := fun w' hw' =>
        (hw w'.1 (List.mem_map_of_mem hw')).symm
      exact (readWord_storeWords_apart hapart).trans (readWord_writeWord m (b + j) v)
    · exact ih hws h

end Base

end Ohwes.Library

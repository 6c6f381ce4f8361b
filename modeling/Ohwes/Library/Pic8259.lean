import Mathlib.Data.BitVec
import Mathlib.Data.List.FinRange
import Mathlib.Data.List.Find

/-! # A pair of 8259A interrupt controllers

Inputs are edge-triggered, with fixed priorities and fully nested. A controller is set up by a first
command word and the data words it announces. Of the other commands there is the specific end of
interrupt. The slave is at input two of the master, and its output is the request there. -/

namespace Ohwes.Library
set_option autoImplicit false

/-- The words behind the first command word: vectors, cascade and mode. -/
inductive IcwKind
  | icw2
  | icw3
  | icw4
  deriving DecidableEq

structure Pic8259 where
  /-- The words still to come. -/
  todo : List IcwKind
  vectors : BitVec 8
  cascade : BitVec 8
  mode : BitVec 8
  /-- The inputs that are masked, -/
  imr : BitVec 8
  /-- that are requested, -/
  irr : BitVec 8
  /-- and that are in service. -/
  isr : BitVec 8
  deriving DecidableEq

/-- The mode in which an acknowledged request is not in service. -/
def AUTO_EOI : Nat := 1

/-- The input of the master that the slave is at. -/
def CASCADE_INPUT : Fin 8 := 2

namespace Pic8259
variable (p : Pic8259)

/-! ## The ports -/

/-- The words that a first command word announces. -/
def announced (icw1 : BitVec 8) : List IcwKind :=
  [.icw2] ++ (if icw1.getLsbD 1 then [] else [.icw3]) ++ if icw1.getLsbD 0 then [.icw4] else []

def writeCommand (data : BitVec 8) : Pic8259 :=
  if data.getLsbD 4 then
    { p with todo := announced data, mode := 0, imr := 0, irr := 0, isr := 0 }
  else if data.extractLsb' 3 5 = 12 then
    { p with isr := p.isr &&& ~~~ BitVec.twoPow 8 (data.extractLsb' 0 3).toNat }
  else p

def writeData (data : BitVec 8) : Pic8259 :=
  match p.todo with
  | [] => { p with imr := data }
  | .icw2 :: todo => { p with todo := todo, vectors := data }
  | .icw3 :: todo => { p with todo := todo, cascade := data }
  | .icw4 :: todo => { p with todo := todo, mode := data }

/-- Once it is set up, a data word is a mask. -/
theorem writeData_mask {p : Pic8259} (h : p.todo = []) (mask : BitVec 8) :
    p.writeData mask = { p with imr := mask } := by
  cases p
  cases h
  rfl

/-! ## Requests -/

def request (lines : BitVec 8) : Pic8259 := { p with irr := p.irr ||| lines }

def withdraw (lines : BitVec 8) : Pic8259 := { p with irr := p.irr &&& ~~~ lines }

/-- The input is requested and not masked. -/
def wants (i : Fin 8) : Bool := p.irr.getLsbD i && !p.imr.getLsbD i

/-- The request that the controller interrupts for: the first one, unless it or one before it is in
service. -/
def pending : Option (Fin 8) :=
  ((List.finRange 8).find? fun i : Fin 8 => p.isr.getLsbD i || p.wants i).filter
    fun i : Fin 8 => !p.isr.getLsbD i

def acknowledge (i : Fin 8) : Pic8259 :=
  { p with
    irr := p.irr &&& ~~~ BitVec.twoPow 8 i
    isr := if p.mode.getLsbD AUTO_EOI then p.isr else p.isr ||| BitVec.twoPow 8 i }

def vector (i : Fin 8) : BitVec 8 := (p.vectors &&& 0xF8) ||| BitVec.ofNat 8 i

variable {p} {i : Fin 8}

theorem pending_some (h : p.pending = some i) :
    p.wants i = true ∧ ∀ j ≤ i, p.isr.getLsbD j = false := by
  rw [pending, Option.filter_eq_some_iff] at h
  obtain ⟨hfind, hfree⟩ := h
  rw [Bool.not_eq_true'] at hfree
  obtain ⟨hi, before, after, hsplit, hbefore⟩ := List.find?_eq_some_iff_append.mp hfind
  rw [hfree, Bool.false_or] at hi
  refine ⟨hi, fun j hj => ?_⟩
  rcases lt_or_eq_of_le hj with hlt | rfl
  · have hmem : j ∈ before := by
      have hsorted : (List.finRange 8).Pairwise (· < ·) := List.pairwise_lt_finRange 8
      have hj : j ∈ List.finRange 8 := List.mem_finRange j
      rw [hsplit] at hsorted hj
      rcases List.mem_append.mp hj with hj | hj
      · exact hj
      · have hcons := (List.pairwise_append.mp hsorted).2.1
        rcases List.mem_cons.mp hj with rfl | hj
        · exact absurd hlt (lt_irrefl _)
        · exact absurd ((List.pairwise_cons.mp hcons).1 j hj) (lt_asymm hlt)
    have hnot := hbefore j hmem
    rw [Bool.not_eq_true', Bool.or_eq_false_iff] at hnot
    exact hnot.1
  · exact hfree

/-- Without anything in service the controller interrupts for the first request that is not masked. -/
theorem pending_idle (h : p.isr = 0) : p.pending = (List.finRange 8).find? p.wants := by
  have hnone : ∀ j : Fin 8, p.isr.getLsbD j = false := by
    intro j
    simp [h]
  rw [pending]
  simp only [hnone, Bool.false_or, Bool.not_false]
  cases List.find? (fun i => p.wants i) (List.finRange 8) with
  | none => rfl
  | some i => rfl

section Bits
variable {w : Nat} {x : BitVec w} {n : Nat} (h : x.getLsbD n = false)
include h

theorem and_not_twoPow : x &&& ~~~ BitVec.twoPow w n = x := by
  refine BitVec.eq_of_getLsbD_eq fun k hk => ?_
  rw [BitVec.getLsbD_and, BitVec.getLsbD_not, BitVec.getLsbD_twoPow]
  by_cases hnk : n = k
  · subst hnk
    rw [h, Bool.false_and]
  · simp [hk, hnk]

theorem or_and_not_twoPow : (x ||| BitVec.twoPow w n) &&& ~~~ BitVec.twoPow w n = x := by
  refine BitVec.eq_of_getLsbD_eq fun k hk => ?_
  rw [BitVec.getLsbD_and, BitVec.getLsbD_or, BitVec.getLsbD_not, BitVec.getLsbD_twoPow]
  by_cases hnk : n = k
  · subst hnk
    simp only [h, hk, decide_true, Bool.and_self, Bool.or_true, Bool.not_true, Bool.and_false]
  · simp [hk, hnk]

end Bits

theorem withdraw_zero (p : Pic8259) : p.withdraw 0 = p := by
  have hones : ~~~(0 : BitVec 8) = BitVec.allOnes 8 := by decide
  rw [withdraw, hones, BitVec.and_allOnes]

/-- What is taken back is not wanted any more. -/
theorem wants_withdraw (p : Pic8259) (i k : Fin 8) :
    (p.withdraw (BitVec.twoPow 8 i)).wants k = (p.wants k && decide (k ≠ i)) := by
  have hbit : (~~~ BitVec.twoPow 8 i).getLsbD k = decide (k ≠ i) := by
    revert i k
    decide
  rw [wants, withdraw, BitVec.getLsbD_and, hbit, wants, Bool.and_right_comm]

/-- The end of interrupt for an input. -/
structure EndsInterrupt (data : BitVec 8) (i : Fin 8) : Prop where
  not_icw1 : data.getLsbD 4 = false
  specific : data.extractLsb' 3 5 = 12
  level : (data.extractLsb' 0 3).toNat = i

section End
variable {data : BitVec 8} (h : EndsInterrupt data i)
include h

theorem writeCommand_end : p.writeCommand data = { p with isr := p.isr &&& ~~~ BitVec.twoPow 8 i } := by
  rw [writeCommand, h.not_icw1, if_neg Bool.false_ne_true, if_pos h.specific, h.level]

/-- For what is not in service it does nothing. -/
theorem writeCommand_idle (hi : p.isr.getLsbD i = false) : p.writeCommand data = p := by
  rw [writeCommand_end h, and_not_twoPow hi]

/-- It undoes the acknowledgement, but for the request. -/
theorem acknowledge_end (hmode : p.mode.getLsbD AUTO_EOI = false) (hi : p.isr.getLsbD i = false) :
    (p.acknowledge i).writeCommand data = p.withdraw (BitVec.twoPow 8 i) := by
  rw [writeCommand_end h, acknowledge, hmode, if_neg Bool.false_ne_true, withdraw]
  dsimp only
  rw [or_and_not_twoPow hi]

end End

end Pic8259

/-! ## The pair -/

structure PicPair where
  master : Pic8259
  slave : Pic8259
  deriving DecidableEq

namespace PicPair
variable (p : PicPair)

/-- The master with the slave's output at its input. -/
def inputs : Pic8259 :=
  if p.slave.pending.isSome then p.master.request (BitVec.twoPow 8 CASCADE_INPUT) else p.master

/-- No device is at the slave's input. -/
def request (lines : BitVec 16) : PicPair :=
  ⟨p.master.request (lines.extractLsb' 0 8 &&& ~~~ BitVec.twoPow 8 CASCADE_INPUT),
    p.slave.request (lines.extractLsb' 8 8)⟩

def withdraw (lines : BitVec 16) : PicPair :=
  ⟨p.master.withdraw (lines.extractLsb' 0 8), p.slave.withdraw (lines.extractLsb' 8 8)⟩

/-- Both know where the slave is. -/
def Cascaded : Prop :=
  p.master.cascade = BitVec.twoPow 8 CASCADE_INPUT ∧ p.slave.cascade = BitVec.ofNat 8 CASCADE_INPUT

instance : Decidable p.Cascaded := inferInstanceAs (Decidable (_ ∧ _))

/-- The processor's acknowledgement: the vector it gets. A request that is gone by then is answered with
the last vector and is not in service; the slave is asked behind the master, and `gone` is what is
withdrawn there in between. -/
def acknowledge (gone : BitVec 8) : BitVec 8 × PicPair :=
  match p.inputs.pending with
  | none => (p.master.vector 7, p)
  | some i =>
    if i = CASCADE_INPUT ∧ p.Cascaded then
      let slave := p.slave.withdraw gone
      match slave.pending with
      | none => (slave.vector 7, ⟨p.master.acknowledge i, slave⟩)
      | some j => (slave.vector j, ⟨p.master.acknowledge i, slave.acknowledge j⟩)
    else (p.master.vector i, ⟨p.master.acknowledge i, p.slave⟩)

/-- What an acknowledgement comes to. -/
inductive Taken (gone : BitVec 8) : BitVec 8 → PicPair → Prop
  | nothing (h : p.inputs.pending = none) : Taken gone (p.master.vector 7) p
  | master (i : Fin 8) (h : p.inputs.pending = some i) (hi : i ≠ CASCADE_INPUT) :
      Taken gone (p.master.vector i) ⟨p.master.acknowledge i, p.slave⟩
  | slaveNothing (h : p.inputs.pending = some CASCADE_INPUT)
      (hnone : (p.slave.withdraw gone).pending = none) :
      Taken gone (p.slave.vector 7) ⟨p.master.acknowledge CASCADE_INPUT, p.slave.withdraw gone⟩
  | slave (j : Fin 8) (h : p.inputs.pending = some CASCADE_INPUT)
      (hj : (p.slave.withdraw gone).pending = some j) :
      Taken gone (p.slave.vector j)
        ⟨p.master.acknowledge CASCADE_INPUT, (p.slave.withdraw gone).acknowledge j⟩

theorem acknowledge_taken (h : p.Cascaded) (gone : BitVec 8) :
    p.Taken gone (p.acknowledge gone).1 (p.acknowledge gone).2 := by
  rw [acknowledge]
  cases hi : p.inputs.pending with
  | none => exact .nothing hi
  | some i =>
    by_cases hcascade : i = CASCADE_INPUT
    · subst hcascade
      dsimp only
      rw [if_pos ⟨rfl, h⟩]
      cases hj : (p.slave.withdraw gone).pending with
      | none => exact .slaveNothing hi hj
      | some j => exact .slave j hi hj
    · dsimp only
      rw [if_neg fun hand => hcascade hand.1]
      exact .master i hi hcascade

/-! ### Priorities -/

def masterLine (i : Fin 8) : Fin 16 := i.castLE (by omega)

def slaveLine (j : Fin 8) : Fin 16 := j.natAdd 8

/-- The lines that devices are at, the most urgent one first. -/
def urgency : List (Fin 16) :=
  [0, 1].map masterLine ++ ((List.finRange 8).map slaveLine ++ [3, 4, 5, 6, 7].map masterLine)

/-- The line is requested and masked nowhere on its way. -/
def ready (line : Fin 16) : Bool :=
  if h : line.val < 8 then p.master.wants ⟨line, h⟩
  else p.slave.wants ⟨line - 8, by omega⟩ && !p.master.imr.getLsbD CASCADE_INPUT

theorem ready_masterLine (i : Fin 8) : p.ready (masterLine i) = p.master.wants i :=
  dif_pos i.isLt

theorem ready_slaveLine (j : Fin 8) :
    p.ready (slaveLine j) = (p.slave.wants j && !p.master.imr.getLsbD CASCADE_INPUT) := by
  have hline : (slaveLine j).val = 8 + j := rfl
  rw [ready, dif_neg (by omega)]
  congr 2
  exact Fin.ext (by simp only [hline]; omega)

/-- Nothing is in service, and no device is at the slave's input. -/
structure Idle : Prop where
  master_isr : p.master.isr = 0
  slave_isr : p.slave.isr = 0
  cascade_free : p.master.irr.getLsbD CASCADE_INPUT = false

instance : Decidable p.Idle :=
  decidable_of_iff (_ ∧ _ ∧ _) ⟨fun ⟨h, k, l⟩ => ⟨h, k, l⟩, fun ⟨h, k, l⟩ => ⟨h, k, l⟩⟩

theorem inputs_imr : p.inputs.imr = p.master.imr := by
  rw [inputs]
  split
  · rfl
  · rfl

theorem inputs_isr : p.inputs.isr = p.master.isr := by
  rw [inputs]
  split
  · rfl
  · rfl

/-- The slave is seen at its input only. -/
theorem inputs_wants {i : Fin 8} (hi : i ≠ CASCADE_INPUT) : p.inputs.wants i = p.master.wants i := by
  have hbit : (BitVec.twoPow 8 CASCADE_INPUT).getLsbD i = false := by
    rw [BitVec.getLsbD_twoPow, decide_eq_false fun h : CASCADE_INPUT.val = i.val => hi (Fin.ext h.symm),
      Bool.and_false]
  rw [inputs]
  split
  · rw [Pic8259.wants, Pic8259.wants, Pic8259.request, BitVec.getLsbD_or, hbit, Bool.or_false]
  · rfl

variable {p}

theorem inputs_wants_cascade (h : p.Idle) : p.inputs.wants CASCADE_INPUT =
    (p.slave.pending.isSome && !p.master.imr.getLsbD CASCADE_INPUT) := by
  rw [inputs, Pic8259.wants]
  split
  · next hj =>
    have hbit : (BitVec.twoPow 8 CASCADE_INPUT).getLsbD CASCADE_INPUT = true := by decide
    rw [Pic8259.request, BitVec.getLsbD_or, hbit, Bool.or_true, hj]
  · next hj => rw [h.cascade_free, Bool.false_and, Bool.eq_false_iff.mpr hj, Bool.false_and]

/-- What the pair interrupts for is the most urgent of the lines that are ready. -/
theorem find_ready (h : p.Idle) : urgency.find? p.ready =
    p.inputs.pending.bind fun i =>
      if i = CASCADE_INPUT then p.slave.pending.map slaveLine else some (masterLine i) := by
  have hmaster (is : List (Fin 8)) (his : CASCADE_INPUT ∉ is) :
      (is.map masterLine).find? p.ready = (is.find? p.inputs.wants).map masterLine := by
    rw [List.find?_map]
    congr 1
    refine List.find?_congr fun i hi => ?_
    rw [Function.comp_apply, ready_masterLine, inputs_wants]
    rintro rfl
    exact his hi
  have hslave : ((List.finRange 8).map slaveLine).find? p.ready =
      if p.inputs.wants CASCADE_INPUT then p.slave.pending.map slaveLine else none := by
    rw [List.find?_map, inputs_wants_cascade h, Pic8259.pending_idle h.slave_isr]
    have hready : p.ready ∘ slaveLine =
        fun j => p.slave.wants j && !p.master.imr.getLsbD CASCADE_INPUT :=
      funext p.ready_slaveLine
    rw [hready]
    cases p.master.imr.getLsbD CASCADE_INPUT with
    | true => simp
    | false =>
      simp only [Bool.not_false, Bool.and_true]
      cases (List.finRange 8).find? p.slave.wants with
      | none => rfl
      | some j => rfl
  have hsplit : List.finRange 8 = [0, 1] ++ ([CASCADE_INPUT] ++ [3, 4, 5, 6, 7]) := by decide
  have hne {is : List (Fin 8)} {i : Fin 8} (his : CASCADE_INPUT ∉ is)
      (hfind : is.find? p.inputs.wants = some i) : i ≠ CASCADE_INPUT := by
    rintro rfl
    exact his (List.mem_of_find?_eq_some hfind)
  rw [Pic8259.pending_idle (p.inputs_isr.trans h.master_isr), hsplit, urgency, List.find?_append,
    List.find?_append, List.find?_append, List.find?_append, hmaster _ (by decide), hslave,
    hmaster _ (by decide), List.find?_singleton]
  cases hfirst : List.find? p.inputs.wants [0, 1] with
  | some i =>
    simp only [Option.map_some, Option.some_or, Option.bind_some]
    rw [if_neg (hne (by decide) hfirst)]
  | none =>
    simp only [Option.map_none, Option.none_or]
    cases hcascade : p.inputs.wants CASCADE_INPUT with
    | true =>
      obtain ⟨j, hj⟩ := Option.isSome_iff_exists.mp
        (Bool.and_eq_true_iff.mp ((inputs_wants_cascade h).symm.trans hcascade)).1
      simp [hj]
    | false =>
      simp only [Bool.false_eq_true, if_false, Option.none_or]
      cases hrest : List.find? p.inputs.wants [3, 4, 5, 6, 7] with
      | none => rfl
      | some i =>
        simp only [Option.map_some, Option.bind_some]
        rw [if_neg (hne (by decide) hrest)]

theorem urgency_nodup : urgency.Nodup := by decide

theorem line_cases (line : Fin 16) : (∃ i, line = masterLine i) ∨ ∃ j, line = slaveLine j := by
  revert line
  decide

/-- Taking back a request of the master makes no other line ready, and none unready. -/
theorem ready_withdraw_master (p : PicPair) (i : Fin 8) (line : Fin 16) :
    ready ⟨p.master.withdraw (BitVec.twoPow 8 i), p.slave⟩ line =
      (p.ready line && decide (line ≠ masterLine i)) := by
  obtain ⟨k, rfl⟩ | ⟨k, rfl⟩ := line_cases line
  · have hne : decide (masterLine k ≠ masterLine i) = decide (k ≠ i) := by
      revert k i
      decide
    rw [ready_masterLine, ready_masterLine, Pic8259.wants_withdraw, hne]
  · have hne : decide (slaveLine k ≠ masterLine i) = true := by
      revert k i
      decide
    rw [ready_slaveLine, ready_slaveLine, hne, Bool.and_true]
    rfl

theorem ready_withdraw_slave (p : PicPair) (j : Fin 8) (line : Fin 16) :
    ready ⟨p.master, p.slave.withdraw (BitVec.twoPow 8 j)⟩ line =
      (p.ready line && decide (line ≠ slaveLine j)) := by
  obtain ⟨k, rfl⟩ | ⟨k, rfl⟩ := line_cases line
  · have hne : decide (masterLine k ≠ slaveLine j) = true := by
      revert k j
      decide
    rw [ready_masterLine, ready_masterLine, hne, Bool.and_true]
  · have hne : decide (slaveLine k ≠ slaveLine j) = decide (k ≠ j) := by
      revert k j
      decide
    rw [ready_slaveLine, ready_slaveLine, Pic8259.wants_withdraw, hne, Bool.and_right_comm]

end PicPair

/-- The first element of a filtered list, and the others. -/
theorem filter_of_find? {α : Type} [DecidableEq α] {f : α → Bool} {l : List α} {a : α} (hl : l.Nodup)
    (h : l.find? f = some a) : l.filter f = a :: l.filter fun x => f x && decide (x ≠ a) := by
  rw [← List.head?_filter] at h
  obtain ⟨tail, htail⟩ := List.head?_eq_some_iff.mp h
  have hnot : a ∉ tail := (List.nodup_cons.mp (htail ▸ hl.filter f)).1
  have hrest : l.filter (fun x => f x && decide (x ≠ a)) = (l.filter f).filter (· ≠ a) := by
    rw [List.filter_filter]
    exact List.filter_congr fun x _ => Bool.and_comm _ _
  rw [hrest, htail, List.filter_cons_of_neg (by simp)]
  congr 1
  refine (List.filter_eq_self.mpr fun x hx => decide_eq_true ?_).symm
  rintro rfl
  exact hnot hx

end Ohwes.Library

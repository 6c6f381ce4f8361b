import Ohwes.I386.Pic

/-! # Interrupts, from the request to the handlers

Devices raise their lines and take them back, the controllers interrupt the processor, and `handleIrq`
reads the masks, acknowledges and calls the handlers. Interrupts are off until it comes back, so a
handler that changes a mask or the table of handlers does so before the next one. -/

namespace Ohwes
open Library
set_option autoImplicit false

structure IrqSystem where
  pics : PicPair
  irqs : IrqState

/-- `init_idt` puts the thunk of a line behind its vector. -/
def irqThunk (vector : Byte) : Option (BitVec 32) :=
  if h : (vector - IRQ_BASE_VECTOR).toNat < NR_IRQS then some (irqVector ⟨_, h⟩) else none

def outbAll (p : PicPair) (writes : List (BitVec 16 × Byte)) : PicPair :=
  writes.foldl (fun p w => picOutb p w.1 w.2) p

/-- An interrupt of the processor. The requests `early` are gone when it acknowledges, and `late` when the
slave is asked. -/
def deliver (early : BitVec 16) (late : Byte) (s : IrqSystem) : Call (List IrqEvent × IrqSystem) :=
  let taken := (s.pics.withdraw early).acknowledge late
  match irqThunk taken.1 with
  | none => .error .fault
  | some vec => (handleIrq (picGetmask taken.2) vec s.irqs).map fun r =>
      (r.1, ⟨outbAll taken.2 (picWrites r.1), r.2⟩)

inductive SystemOp
  | request (lines : BitVec 16)
  | withdraw (lines : BitVec 16)
  | interrupt (early : BitVec 16) (late : Byte)
  | mask (irqNum : Byte)
  | unmask (irqNum : Byte)
  | setmask (mask : BitVec 16)
  | register (irq : Int) (func : Ptr)
  | unregister (irq : Int) (func : Ptr)

def systemStep (s : IrqSystem) : SystemOp → Call IrqSystem
  | .request lines => .ok { s with pics := s.pics.request lines }
  | .withdraw lines => .ok { s with pics := s.pics.withdraw lines }
  | .interrupt early late =>
    if s.pics.inputs.pending.isSome then (deliver early late s).map (·.2) else .ok s
  | .mask irqNum => (picMask s.pics irqNum).map fun pics => { s with pics := pics }
  | .unmask irqNum => (picUnmask s.pics irqNum).map fun pics => { s with pics := pics }
  | .setmask mask => (picSetmask s.pics mask).map fun pics => { s with pics := pics }
  | .register irq func => (irqRegister irq func s.irqs).map fun irqs => { s with irqs := irqs }
  | .unregister irq func => (irqUnregister irq func s.irqs).map fun irqs => { s with irqs := irqs }

/-! ## What holds of the controllers between two operations -/

/-- Nothing is in service, but for the slave's input of the master. -/
structure Settled (p : PicPair) : Prop extends Configured p where
  slave_isr : p.slave.isr = 0
  cascade_free : p.master.irr.getLsbD CASCADE_INPUT = false
  master_isr : p.master.isr = 0 ∨ p.master.isr = BitVec.twoPow 8 CASCADE_INPUT

theorem freshPics_sound : Settled freshPics := ⟨freshPics_configured, rfl, rfl, .inl rfl⟩

theorem freshPics_masked : freshPics.master.imr.getLsbD CASCADE_INPUT = true := by decide

section Between
variable {p : PicPair} (h : Settled p)
include h

theorem Settled.cascaded : p.Cascaded := by
  rw [PicPair.Cascaded, h.master_cascade, h.slave_cascade]
  decide

/-- An input that is not the slave's is not in service. -/
theorem Settled.not_served {i : Fin 8} (hi : i ≠ CASCADE_INPUT) : p.master.isr.getLsbD i = false := by
  rcases h.master_isr with hisr | hisr
  · simp [hisr]
  · rw [hisr, BitVec.getLsbD_twoPow, decide_eq_false fun he : CASCADE_INPUT.val = i.val => hi (Fin.ext he.symm),
      Bool.and_false]

theorem Settled.request (lines : BitVec 16) : Settled (p.request lines) := by
  refine ⟨⟨h.1.1, h.1.2, h.1.3, h.1.4, h.1.5, h.1.6, h.1.7, h.1.8⟩, h.slave_isr, ?_, h.master_isr⟩
  change (p.master.irr ||| (lines.extractLsb' 0 8 &&& ~~~ BitVec.twoPow 8 CASCADE_INPUT)).getLsbD _ = _
  have hbit : (~~~ BitVec.twoPow 8 CASCADE_INPUT).getLsbD CASCADE_INPUT = false := by decide
  rw [BitVec.getLsbD_or, h.cascade_free, BitVec.getLsbD_and, hbit, Bool.and_false]
  rfl

theorem Settled.withdraw (lines : BitVec 16) : Settled (p.withdraw lines) := by
  refine ⟨⟨h.1.1, h.1.2, h.1.3, h.1.4, h.1.5, h.1.6, h.1.7, h.1.8⟩, h.slave_isr, ?_, h.master_isr⟩
  change (p.master.irr &&& ~~~ lines.extractLsb' 0 8).getLsbD _ = _
  rw [BitVec.getLsbD_and, h.cascade_free, Bool.false_and]

theorem Settled.withMask (pic : PicNum) (mask : Byte) : Settled (withMask p pic mask) := by
  refine ⟨h.toConfigured.withMask pic mask, ?_, ?_, ?_⟩
  all_goals cases pic
  · exact h.slave_isr
  · exact h.slave_isr
  · exact h.cascade_free
  · exact h.cascade_free
  · exact h.master_isr
  · exact h.master_isr

end Between

/-- The mask that is read, line by line. -/
theorem picGetmask_masterLine (p : PicPair) (i : Fin 8) :
    (picGetmask p).getLsbD (PicPair.masterLine i).val = p.master.imr.getLsbD i := by
  change (p.slave.imr ++ p.master.imr).getLsbD i.val = _
  rw [BitVec.getLsbD_append, if_pos i.isLt]

theorem picGetmask_slaveLine (p : PicPair) (j : Fin 8) :
    (picGetmask p).getLsbD (PicPair.slaveLine j).val = p.slave.imr.getLsbD j := by
  change (p.slave.imr ++ p.master.imr).getLsbD (8 + j.val) = _
  rw [BitVec.getLsbD_append, if_neg (by omega), Nat.add_sub_cancel_left]

/-! ## One interrupt -/

/-- What an interrupt comes to once it is acknowledged, by line: `stranded` is the spurious interrupt of
the slave for which `handle_irq` writes no command at all. -/
inductive Served (q : PicPair) (late : Byte) : Fin NR_IRQS → PicPair → Prop
  | nothing (h : q.inputs.pending = none) : Served q late (PicPair.masterLine 7) q
  | master (i : Fin 8) (h : q.inputs.pending = some i) (hi : i ≠ CASCADE_INPUT) :
      Served q late (PicPair.masterLine i) ⟨q.master.withdraw (BitVec.twoPow 8 i), q.slave⟩
  | slaveNothing (h : q.inputs.pending = some CASCADE_INPUT)
      (hnone : (q.slave.withdraw late).pending = none) (hmask : q.slave.imr.getLsbD 7 = false) :
      Served q late (PicPair.slaveLine 7) ⟨q.master, q.slave.withdraw late⟩
  | stranded (h : q.inputs.pending = some CASCADE_INPUT)
      (hnone : (q.slave.withdraw late).pending = none) (hmask : q.slave.imr.getLsbD 7 = true) :
      Served q late (PicPair.slaveLine 7)
        ⟨{ q.master with isr := BitVec.twoPow 8 CASCADE_INPUT }, q.slave.withdraw late⟩
  | slave (j : Fin 8) (h : q.inputs.pending = some CASCADE_INPUT)
      (hj : (q.slave.withdraw late).pending = some j) :
      Served q late (PicPair.slaveLine j)
        ⟨q.master, (q.slave.withdraw late).withdraw (BitVec.twoPow 8 j)⟩

theorem irqThunk_master (i : Fin 8) : irqThunk ((ICW2_M &&& 0xF8) ||| BitVec.ofNat 8 i) =
    some (irqVector (PicPair.masterLine i)) := by
  revert i
  decide

theorem irqThunk_slave (j : Fin 8) : irqThunk ((ICW2_S &&& 0xF8) ||| BitVec.ofNat 8 j) =
    some (irqVector (PicPair.slaveLine j)) := by
  revert j
  decide

theorem ends_eoi (i : Fin 8) : Pic8259.EndsInterrupt (OCW2_EOI ||| BitVec.ofNat 8 i) i := by
  constructor
  all_goals
    revert i
    decide

theorem picEoi_master (i : Fin 8) : picEoi (BitVec.ofNat 8 (PicPair.masterLine i).val) =
    [(PIC_MASTER_CMD_PORT, OCW2_EOI ||| BitVec.ofNat 8 i)] := by
  revert i
  decide

theorem picEoi_slave (j : Fin 8) : picEoi (BitVec.ofNat 8 (PicPair.slaveLine j).val) =
    [(PIC_SLAVE_CMD_PORT, OCW2_EOI ||| BitVec.ofNat 8 j),
      (PIC_MASTER_CMD_PORT, OCW2_EOI ||| BitVec.ofNat 8 CASCADE_INPUT)] := by
  revert j
  decide

theorem outbAll_master (p : PicPair) (i : Fin 8) :
    outbAll p (picEoi (BitVec.ofNat 8 (PicPair.masterLine i).val)) =
      ⟨p.master.writeCommand (OCW2_EOI ||| BitVec.ofNat 8 i), p.slave⟩ := by
  rw [picEoi_master]
  rfl

theorem outbAll_slave (p : PicPair) (j : Fin 8) :
    outbAll p (picEoi (BitVec.ofNat 8 (PicPair.slaveLine j).val)) =
      ⟨p.master.writeCommand (OCW2_EOI ||| BitVec.ofNat 8 CASCADE_INPUT),
        p.slave.writeCommand (OCW2_EOI ||| BitVec.ofNat 8 j)⟩ := by
  rw [picEoi_slave]
  rfl

/-- The handlers that an interrupt on a line calls. -/
def lineCalls (s : IrqSystem) (line : Fin NR_IRQS) : List (Ptr × BitVec 32) :=
  if (picGetmask s.pics).getLsbD line.val then []
  else (s.irqs.isrMap line).handlers.map fun isr => (isr, BitVec.ofNat 32 line.val)

section Deliver
variable {s : IrqSystem} {early : BitVec 16} {late : Byte} {q : PicPair}

/-- What is behind the acknowledgement. -/
theorem deliver_taken {vector : Byte} {pics : PicPair} {line : Fin NR_IRQS}
    (hq : s.pics.withdraw early = q) (htaken : q.acknowledge late = (vector, pics))
    (hthunk : irqThunk vector = some (irqVector line)) (hmask : picGetmask pics = picGetmask q) :
    ∃ events t, deliver early late s = .ok (events, t) ∧
      t.pics = (if Spurious (picGetmask q) line then pics
        else outbAll pics (picEoi (BitVec.ofNat 8 line.val))) ∧
      t.irqs.isrMap = s.irqs.isrMap ∧ isrCalls events = lineCalls s line := by
  obtain ⟨events, irqs, hhandle, hcalls, hwrites⟩ :=
    handleIrq_delivers (picGetmask pics) line s.irqs
  refine ⟨events, ⟨outbAll pics (picWrites events), irqs⟩, ?_, ?_, handleIrq_isrMap hhandle, ?_⟩
  · rw [deliver, hq, htaken]
    dsimp only
    rw [hthunk]
    dsimp only
    rw [hhandle]
    rfl
  · dsimp only
    rw [hwrites, hmask]
    split
    · rfl
    · rfl
  · subst hq
    rw [hcalls, hmask]
    rfl

theorem not_spurious {mask : BitVec 16} {line : Fin NR_IRQS} (h : mask.getLsbD line.val = false) :
    ¬ Spurious mask line := by
  rintro ⟨hmask, -⟩
  rw [h] at hmask
  exact Bool.false_ne_true hmask

section Cascade
variable (h : Settled q)
include h

theorem Settled.normal_eoi : q.master.mode.getLsbD AUTO_EOI = false := by
  rw [h.master_mode]
  rfl

variable (hi : q.inputs.pending = some CASCADE_INPUT)
include hi

omit h in
/-- The slave is asked only when its input is not in service. -/
theorem cascade_not_served : q.master.isr.getLsbD CASCADE_INPUT = false := by
  rw [← q.inputs_isr]
  exact (Pic8259.pending_some hi).2 CASCADE_INPUT le_rfl

theorem acknowledge_cascade : q.master.acknowledge CASCADE_INPUT =
    { q.master with isr := BitVec.twoPow 8 CASCADE_INPUT } := by
  have hisr : q.master.isr = 0 := by
    refine h.master_isr.resolve_right fun hisr => ?_
    have hbit := cascade_not_served hi
    rw [hisr] at hbit
    exact absurd hbit (by decide)
  rw [Pic8259.acknowledge, h.normal_eoi, if_neg Bool.false_ne_true,
    Pic8259.and_not_twoPow h.cascade_free, hisr]
  rfl

theorem acknowledge_cascade_end : (q.master.acknowledge CASCADE_INPUT).writeCommand
    (OCW2_EOI ||| BitVec.ofNat 8 CASCADE_INPUT) = q.master := by
  rw [Pic8259.acknowledge_end (ends_eoi _) h.normal_eoi (cascade_not_served hi), Pic8259.withdraw,
    Pic8259.and_not_twoPow h.cascade_free]

end Cascade

/-- The commands of `handle_irq` undo an acknowledgement, unless it writes none. -/
theorem served_of_taken (h : Settled q) {vector : Byte} {pics : PicPair}
    (htaken : q.Taken late vector pics) :
    ∃ line : Fin NR_IRQS, irqThunk vector = some (irqVector line) ∧ picGetmask pics = picGetmask q ∧
      Served q late line (if Spurious (picGetmask q) line then pics
        else outbAll pics (picEoi (BitVec.ofNat 8 line.val))) := by
  have hmaster (i : Fin 8) : irqThunk (q.master.vector i) = some (irqVector (PicPair.masterLine i)) := by
    rw [Pic8259.vector, h.master_vectors, irqThunk_master]
  have hslave (j : Fin 8) : irqThunk (q.slave.vector j) = some (irqVector (PicPair.slaveLine j)) := by
    rw [Pic8259.vector, h.slave_vectors, irqThunk_slave]
  have hmode' : q.slave.mode.getLsbD AUTO_EOI = false := by
    rw [h.slave_mode]
    rfl
  have hidle (j : Fin 8) : (q.slave.withdraw late).isr.getLsbD j = false := by
    rw [Pic8259.withdraw, h.slave_isr]
    exact BitVec.getLsbD_zero
  cases htaken with
  | nothing hnone =>
    refine ⟨_, hmaster 7, rfl, ?_⟩
    rw [outbAll_master, Pic8259.writeCommand_idle (ends_eoi 7) (h.not_served (by decide)), ite_self]
    exact .nothing hnone
  | master i hi hcascade =>
    refine ⟨_, hmaster i, rfl, ?_⟩
    have hwants := (Pic8259.pending_some hi).1
    rw [PicPair.inputs_wants q hcascade, Pic8259.wants, Bool.and_eq_true_iff, Bool.not_eq_true'] at hwants
    rw [if_neg (not_spurious ((picGetmask_masterLine q i).trans hwants.2)), outbAll_master,
      Pic8259.acknowledge_end (ends_eoi i) h.normal_eoi (h.not_served hcascade)]
    exact .master i hi hcascade
  | slaveNothing hi hnone =>
    refine ⟨_, hslave 7, rfl, ?_⟩
    cases hmask : q.slave.imr.getLsbD 7 with
    | true =>
      rw [if_pos ⟨(picGetmask_slaveLine q 7).trans hmask, Or.inr rfl⟩, acknowledge_cascade h hi]
      exact .stranded hi hnone hmask
    | false =>
      rw [if_neg (not_spurious ((picGetmask_slaveLine q 7).trans hmask)), outbAll_slave,
        acknowledge_cascade_end h hi, Pic8259.writeCommand_idle (ends_eoi 7) (hidle 7)]
      exact .slaveNothing hi hnone hmask
  | slave j hi hj =>
    refine ⟨_, hslave j, rfl, ?_⟩
    have hwants := (Pic8259.pending_some hj).1
    rw [Pic8259.wants, Bool.and_eq_true_iff, Bool.not_eq_true'] at hwants
    have hend : ((q.slave.withdraw late).acknowledge j).writeCommand (OCW2_EOI ||| BitVec.ofNat 8 j) =
        (q.slave.withdraw late).withdraw (BitVec.twoPow 8 j) :=
      Pic8259.acknowledge_end (ends_eoi j) hmode' (hidle j)
    rw [if_neg (not_spurious ((picGetmask_slaveLine q j).trans hwants.2)), outbAll_slave,
      acknowledge_cascade_end h hi]
    dsimp only
    rw [hend]
    exact .slave j hi hj

/-- An interrupt always comes back. -/
theorem deliver_served (h : Settled s.pics) (early : BitVec 16) (late : Byte) :
    ∃ line events t, deliver early late s = .ok (events, t) ∧
      Served (s.pics.withdraw early) late line t.pics ∧
      t.irqs.isrMap = s.irqs.isrMap ∧ isrCalls events = lineCalls s line := by
  have hsound := h.withdraw early
  obtain ⟨line, hthunk, hmask, hserved⟩ :=
    served_of_taken hsound (PicPair.acknowledge_taken _ hsound.cascaded late)
  obtain ⟨events, t, hdeliver, hpics, hisr, hcalls⟩ := deliver_taken rfl rfl hthunk hmask
  exact ⟨line, events, t, hdeliver, hpics ▸ hserved, hisr, hcalls⟩

end Deliver

/-! ## A step -/

section Served
variable {q p : PicPair} {late : Byte} {line : Fin NR_IRQS} (hserved : Served q late line p)
include hserved

theorem Served.imr : p.master.imr = q.master.imr := by
  cases hserved
  all_goals rfl

theorem Served.sound (h : Settled q) : Settled p := by
  have hconf := h.toConfigured
  cases hserved with
  | nothing => exact h
  | master i =>
    refine ⟨⟨hconf.1, hconf.2, hconf.3, hconf.4, hconf.5, hconf.6, hconf.7, hconf.8⟩, h.slave_isr, ?_,
      h.master_isr⟩
    change (q.master.irr &&& _).getLsbD _ = _
    rw [BitVec.getLsbD_and, h.cascade_free, Bool.false_and]
  | stranded =>
    exact ⟨⟨hconf.1, hconf.2, hconf.3, hconf.4, hconf.5, hconf.6, hconf.7, hconf.8⟩, h.slave_isr,
      h.cascade_free, .inr rfl⟩
  | slaveNothing | slave =>
    exact ⟨⟨hconf.1, hconf.2, hconf.3, hconf.4, hconf.5, hconf.6, hconf.7, hconf.8⟩, h.slave_isr,
      h.cascade_free, h.master_isr⟩

/-- With the slave's input masked it is one of the master's lines. -/
theorem Served.closed (hclosed : q.master.imr.getLsbD CASCADE_INPUT = true) :
    (∃ i : Fin 8, i ≠ CASCADE_INPUT ∧ line = PicPair.masterLine i) ∧ p.master.isr = q.master.isr := by
  have hpending : q.inputs.pending ≠ some CASCADE_INPUT := by
    intro hi
    have hwants := (Pic8259.pending_some hi).1
    rw [Pic8259.wants, q.inputs_imr, hclosed, Bool.not_true, Bool.and_false] at hwants
    exact Bool.false_ne_true hwants
  cases hserved with
  | nothing => exact ⟨⟨7, by decide, rfl⟩, rfl⟩
  | master i hi hcascade => exact ⟨⟨i, hcascade, rfl⟩, rfl⟩
  | slaveNothing hi | stranded hi | slave _ hi => exact absurd hi hpending

/-- With the slave's input in service it is one of the lines before that, or nothing. -/
theorem Served.blocked (hblocked : q.master.isr = BitVec.twoPow 8 CASCADE_INPUT) :
    line.val ∈ [0, 1, 7] ∧ p.master.isr = q.master.isr := by
  have hbit : q.inputs.isr.getLsbD CASCADE_INPUT = true := by
    rw [q.inputs_isr, hblocked]
    decide
  have hpending {i : Fin 8} (hi : q.inputs.pending = some i) : i < CASCADE_INPUT := by
    by_contra hle
    have hfree := (Pic8259.pending_some hi).2 CASCADE_INPUT (not_lt.mp hle)
    rw [hbit] at hfree
    exact Bool.false_ne_true hfree.symm
  cases hserved with
  | nothing => exact ⟨by decide, rfl⟩
  | master i hi =>
    have hlines : ∀ i : Fin 8, i < CASCADE_INPUT → (PicPair.masterLine i).val ∈ [0, 1, 7] := by decide
    exact ⟨hlines i (hpending hi), rfl⟩
  | slaveNothing hi | stranded hi | slave _ hi => exact absurd (hpending hi) (lt_irrefl _)

/-- What is in service changes with a stranded interrupt only. -/
theorem Served.master_isr : p.master.isr = q.master.isr ∨
    q.inputs.pending = some CASCADE_INPUT ∧ (q.slave.withdraw late).pending = none ∧
      q.slave.imr.getLsbD 7 = true := by
  cases hserved with
  | nothing | master | slaveNothing | slave => exact .inl rfl
  | stranded hi hnone hmask => exact .inr ⟨hi, hnone, hmask⟩

theorem Served.strands (hi : q.inputs.pending = some CASCADE_INPUT)
    (hnone : (q.slave.withdraw late).pending = none) (hmask : q.slave.imr.getLsbD 7 = true) :
    p.master.isr = BitVec.twoPow 8 CASCADE_INPUT := by
  cases hserved with
  | nothing h =>
    rw [h] at hi
    cases hi
  | master i h hcascade =>
    rw [h] at hi
    exact absurd (Option.some.inj hi) hcascade
  | slaveNothing _ _ hopen =>
    rw [hmask] at hopen
    cases hopen
  | stranded => rfl
  | slave j _ hj =>
    rw [hnone] at hj
    cases hj

end Served

/-- The processor is interrupted for the slave, which has nothing to say when it is asked, while the
slave's last line is masked. -/
def Strands (s : IrqSystem) : SystemOp → Prop
  | .interrupt early late =>
    s.pics.inputs.pending.isSome = true ∧
    (s.pics.withdraw early).inputs.pending = some CASCADE_INPUT ∧
    ((s.pics.withdraw early).slave.withdraw late).pending = none ∧
    s.pics.slave.imr.getLsbD 7 = true
  | _ => False

instance (s : IrqSystem) : DecidablePred (Strands s)
  | .interrupt _ _ => inferInstanceAs (Decidable (_ ∧ _ ∧ _ ∧ _))
  | .request _ | .withdraw _ | .mask _ | .unmask _ | .setmask _ | .register _ _ | .unregister _ _ =>
    inferInstanceAs (Decidable False)

/-- The operation does not unmask the slave's input. -/
def KeepsSlaveMasked : SystemOp → Prop
  | .unmask irqNum => irqNum ≠ IRQ_SLAVE
  | .setmask mask => mask.getLsbD CASCADE_INPUT = true
  | _ => True

instance : DecidablePred KeepsSlaveMasked
  | .request _ | .withdraw _ | .interrupt _ _ | .mask _ | .register _ _ | .unregister _ _ =>
    inferInstanceAs (Decidable True)
  | .unmask irqNum => inferInstanceAs (Decidable (irqNum ≠ IRQ_SLAVE))
  | .setmask mask => inferInstanceAs (Decidable (mask.getLsbD CASCADE_INPUT = true))

/-- The operations that no interrupt comes from. -/
structure Quiet (s t : IrqSystem) (op : SystemOp) : Prop where
  sound : Settled t.pics
  master_isr : t.pics.master.isr = s.pics.master.isr
  closed : KeepsSlaveMasked op → s.pics.master.imr.getLsbD CASCADE_INPUT = true →
    t.pics.master.imr.getLsbD CASCADE_INPUT = true

section Steps
variable {s t : IrqSystem} {op : SystemOp}

theorem Quiet.of_pics (h : Settled s.pics) (heq : t.pics = s.pics) : Quiet s t op :=
  ⟨heq ▸ h, by rw [heq], fun _ => by rw [heq]; exact id⟩

/-- The table of the handlers is not at the controllers. -/
theorem pics_of_table {called : Call IrqState}
    (hstep : called.map (fun irqs => ({ s with irqs := irqs } : IrqSystem)) = .ok t) :
    t.pics = s.pics := by
  cases called with
  | error => cases hstep
  | ok irqs =>
    cases hstep
    rfl

/-- A mask is changed in one controller, and on the master the slave's bit is kept. -/
theorem Quiet.withMask (h : Settled s.pics) {pic : PicNum} {mask : Byte}
    (hkeeps : pic = .master → KeepsSlaveMasked op → s.pics.master.imr.getLsbD CASCADE_INPUT = true →
      mask.getLsbD CASCADE_INPUT = true) :
    Quiet s { s with pics := withMask s.pics pic mask } op := by
  refine ⟨h.withMask pic mask, ?_, ?_⟩
  · cases pic
    · rfl
    · rfl
  · cases pic with
    | master => exact hkeeps rfl
    | slave => exact fun _ => id

theorem shift_input {irqNum : Byte} (hline : irqNum < 8) (hne : irqNum ≠ IRQ_SLAVE) :
    ((1 : Byte) <<< (irqNum &&& 0x7).toNat).getLsbD CASCADE_INPUT = false := by
  revert irqNum
  decide

/-- An operation that comes back is an interrupt that was served or leaves alone what is in service. -/
theorem systemStep_ok (h : Settled s.pics) (hstep : systemStep s op = .ok t) :
    (∃ early late line, op = .interrupt early late ∧ s.pics.inputs.pending.isSome = true ∧
      Served (s.pics.withdraw early) late line t.pics) ∨ Quiet s t op := by
  cases op with
  | request lines =>
    cases hstep
    refine .inr ⟨h.request lines, rfl, fun _ => id⟩
  | withdraw lines =>
    cases hstep
    refine .inr ⟨h.withdraw lines, rfl, fun _ => id⟩
  | interrupt early late =>
    rw [systemStep] at hstep
    split at hstep
    · next hpending =>
      obtain ⟨line, events, u, hdeliver, hserved, -⟩ := deliver_served h early late
      rw [hdeliver] at hstep
      cases hstep
      exact .inl ⟨early, late, line, rfl, hpending, hserved⟩
    · cases hstep
      exact .inr (.of_pics h rfl)
  | mask irqNum =>
    rw [systemStep, picMask, picUpdate_eq h.toConfigured] at hstep
    cases hstep
    refine .inr (.withMask h fun hpic _ hbit => ?_)
    rw [hpic, BitVec.getLsbD_or]
    exact Bool.or_eq_true_iff.mpr (.inl hbit)
  | unmask irqNum =>
    rw [systemStep, picUnmask, picUpdate_eq h.toConfigured] at hstep
    cases hstep
    refine .inr (.withMask h fun hpic hkeeps hbit => ?_)
    have hline : irqNum < 8 := by
      by_contra hge
      rw [picNum, if_pos (BitVec.not_lt.mp hge)] at hpic
      cases hpic
    rw [hpic, BitVec.getLsbD_and, BitVec.getLsbD_not, shift_input hline hkeeps]
    exact Bool.and_eq_true_iff.mpr ⟨hbit, rfl⟩
  | setmask mask =>
    rw [systemStep, picSetmask_eq h.toConfigured] at hstep
    cases hstep
    have hsound := (h.withMask .master (mask.extractLsb' 0 8)).withMask .slave (mask.extractLsb' 8 8)
    refine .inr ⟨hsound, rfl, fun hkeeps _ => ?_⟩
    change (mask.extractLsb' 0 8).getLsbD CASCADE_INPUT = true
    rw [BitVec.getLsbD_extractLsb']
    exact Bool.and_eq_true_iff.mpr ⟨rfl, hkeeps⟩
  | register irq func => exact .inr (.of_pics h (pics_of_table hstep))
  | unregister irq func => exact .inr (.of_pics h (pics_of_table hstep))

end Steps

/-! ## Runs -/

theorem systemStep_sound {s t : IrqSystem} {op : SystemOp} (h : Settled s.pics)
    (hstep : systemStep s op = .ok t) : Settled t.pics := by
  obtain ⟨early, late, line, -, -, hserved⟩ | hquiet := systemStep_ok h hstep
  · exact hserved.sound (h.withdraw early)
  · exact hquiet.sound

/-- The slave's input is masked, and nothing is in service. -/
structure Closed (s : IrqSystem) : Prop where
  sound : Settled s.pics
  master_isr : s.pics.master.isr = 0
  masked : s.pics.master.imr.getLsbD CASCADE_INPUT = true

theorem Closed.step {s t : IrqSystem} {op : SystemOp} (h : Closed s) (hkeeps : KeepsSlaveMasked op)
    (hstep : systemStep s op = .ok t) : Closed t := by
  refine ⟨systemStep_sound h.sound hstep, ?_, ?_⟩
  all_goals obtain ⟨early, late, line, -, -, hserved⟩ | hquiet := systemStep_ok h.sound hstep
  · exact (hserved.closed h.masked).2.trans h.master_isr
  · exact hquiet.master_isr.trans h.master_isr
  · rw [hserved.imr]
    exact h.masked
  · exact hquiet.closed hkeeps h.masked

/-- `init_pic` masks the slave's input with the rest. Until something unmasks it, no interrupt calls a
handler of the slave's lines, even if the line is unmasked and requested, and every other line that is
requested and unmasked interrupts the processor. -/
theorem slave_silent {bios pics : PicPair} (hinit : initPic bios = .ok pics) {irqs : IrqState}
    {ops : List SystemOp} (hops : ∀ op ∈ ops, KeepsSlaveMasked op) {s : IrqSystem}
    (hrun : run systemStep ⟨pics, irqs⟩ ops = .ok s) (early : BitVec 16) (late : Byte) :
    (∃ events t, deliver early late s = .ok (events, t) ∧
      ∀ call ∈ isrCalls events, call.2 < 8 ∧ call.2 ≠ 2) ∧
    (s.pics.inputs.pending.isSome = true ↔
      ∃ i, i ≠ CASCADE_INPUT ∧ s.pics.master.wants i = true) := by
  rw [initPic_eq] at hinit
  cases hinit
  have hthroughout : Throughout systemStep (fun _ op => KeepsSlaveMasked op) ⟨freshPics, irqs⟩ ops :=
    (throughout_iff_mem (L := KeepsSlaveMasked) (Q := fun _ _ => True)
      (fun _ _ hop (_ : True) => iff_of_true hop trivial) (fun _ _ _ _ _ _ _ => trivial) hops
      trivial).mpr (throughout_of_forall fun _ _ => trivial)
  have h : Closed s := invariant_run (fun _ _ _ h hkeeps hstep => h.step hkeeps hstep)
    ⟨freshPics_sound, rfl, freshPics_masked⟩ hthroughout hrun
  constructor
  · obtain ⟨line, events, t, hdeliver, hserved, -, hcalls⟩ :=
      deliver_served h.sound early late
    obtain ⟨i, hi, rfl⟩ := (hserved.closed h.masked).1
    have hlines : ∀ i : Fin 8, i ≠ CASCADE_INPUT → BitVec.ofNat 32 (PicPair.masterLine i).val < 8 ∧
        BitVec.ofNat 32 (PicPair.masterLine i).val ≠ 2 := by decide
    refine ⟨events, t, hdeliver, fun call hcall => ?_⟩
    rw [hcalls] at hcall
    unfold lineCalls at hcall
    split at hcall
    · cases hcall
    · obtain ⟨isr, -, rfl⟩ := List.mem_map.mp hcall
      exact hlines i hi
  · rw [Pic8259.pending_idle (s.pics.inputs_isr.trans h.master_isr), List.find?_isSome]
    constructor
    · rintro ⟨i, -, hi⟩
      have hcascade : i ≠ CASCADE_INPUT := by
        rintro rfl
        rw [Pic8259.wants, s.pics.inputs_imr, h.masked, Bool.not_true, Bool.and_false] at hi
        exact Bool.false_ne_true hi
      exact ⟨i, hcascade, (s.pics.inputs_wants hcascade).symm.trans hi⟩
    · rintro ⟨i, hcascade, hi⟩
      exact ⟨i, List.mem_finRange i, (s.pics.inputs_wants hcascade).trans hi⟩

/-- The timer and the clock, with handlers, unmasked and both requested. -/
def timerAndClock : List SystemOp :=
  [.register 0 0x1000, .register 8 0x2000, .unmask 0, .unmask 8, .request 0x0101]

theorem clock_silent : ∃ s, run systemStep ⟨freshPics, bootIrq⟩ timerAndClock = .ok s ∧
    s.pics.slave.wants 0 = true ∧ s.pics.inputs.pending.isSome = true ∧
    ∃ events t, deliver 0 0 s = .ok (events, t) ∧ ∀ call ∈ isrCalls events, call.2 < 8 ∧ call.2 ≠ 2 := by
  obtain ⟨s, hs⟩ : ∃ s, run systemStep ⟨freshPics, bootIrq⟩ timerAndClock = .ok s := ⟨_, rfl⟩
  obtain ⟨hcalls, hpending⟩ := slave_silent (initPic_eq freshPics) (by decide) hs 0 0
  refine ⟨s, hs, ?_, hpending.mpr ⟨0, by decide, ?_⟩, hcalls⟩
  · cases hs
    decide
  · cases hs
    decide

theorem Settled.idle {p : PicPair} (h : Settled p) (hisr : p.master.isr = 0) : p.Idle :=
  ⟨hisr, h.slave_isr, h.cascade_free⟩

theorem Settled.blocked {p : PicPair} (h : Settled p) (hbusy : ¬ p.Idle) :
    p.master.isr = BitVec.twoPow 8 CASCADE_INPUT :=
  h.master_isr.resolve_left fun hisr => hbusy (h.idle hisr)

/-- Nothing stays in service but after a stranded interrupt. -/
theorem idle_step {s t : IrqSystem} {op : SystemOp} (h : Settled s.pics) (hidle : s.pics.Idle)
    (hop : ¬ Strands s op) (hstep : systemStep s op = .ok t) : t.pics.Idle := by
  refine (systemStep_sound h hstep).idle ?_
  obtain ⟨early, late, line, rfl, hpending, hserved⟩ | hquiet := systemStep_ok h hstep
  · rcases hserved.master_isr with hisr | ⟨hi, hnone, hmask⟩
    · exact hisr.trans hidle.master_isr
    · exact absurd ⟨hpending, hi, hnone, hmask⟩ hop
  · exact hquiet.master_isr.trans hidle.master_isr

theorem stranded_step {s : IrqSystem} {op : SystemOp} (h : Settled s.pics) (hop : Strands s op) :
    ∃ t, systemStep s op = .ok t ∧ ¬ t.pics.Idle := by
  cases op with
  | interrupt early late =>
    obtain ⟨hpending, hi, hnone, hmask⟩ := hop
    obtain ⟨line, events, t, hdeliver, hserved, -⟩ := deliver_served h early late
    refine ⟨t, ?_, fun hidle => ?_⟩
    · rw [systemStep, if_pos hpending, hdeliver]
      rfl
    · have hisr := hserved.strands hi hnone hmask
      rw [hidle.master_isr] at hisr
      exact absurd hisr (by decide)
  | request | withdraw | mask | unmask | setmask | register | unregister => exact hop.elim

/-- The slave's input stays in service. -/
theorem blocked_step {s t : IrqSystem} {op : SystemOp}
    (h : Settled s.pics ∧ s.pics.master.isr = BitVec.twoPow 8 CASCADE_INPUT)
    (hstep : systemStep s op = .ok t) :
    Settled t.pics ∧ t.pics.master.isr = BitVec.twoPow 8 CASCADE_INPUT := by
  refine ⟨systemStep_sound h.1 hstep, ?_⟩
  obtain ⟨early, late, line, -, -, hserved⟩ | hquiet := systemStep_ok h.1 hstep
  · exact (hserved.blocked h.2).2.trans h.2
  · exact hquiet.master_isr.trans h.2

/-- Interrupts are acknowledged in full between any two operations exactly if no spurious interrupt of the
slave is taken while its last line is masked. The first one takes the master's other lines away for
good: only handlers of the lines zero and one are called, and those of line seven for nothing. -/
theorem stranded_for_good {bios pics : PicPair} (hinit : initPic bios = .ok pics) {irqs : IrqState}
    (ops : List SystemOp) :
    ((∀ t, Reaches systemStep ⟨pics, irqs⟩ ops t → t.pics.Idle) ↔
      Throughout systemStep (fun s op => ¬ Strands s op) ⟨pics, irqs⟩ ops) ∧
    ∀ t, Reaches systemStep ⟨pics, irqs⟩ ops t → ¬ t.pics.Idle →
      ∀ later u, run systemStep t later = .ok u → ∀ early late,
        ∃ events v, deliver early late u = .ok (events, v) ∧
          ∀ call ∈ isrCalls events, call.2 ∈ [0, 1, 7] := by
  rw [initPic_eq] at hinit
  cases hinit
  have hfresh : Settled (IrqSystem.mk freshPics irqs).pics := freshPics_sound
  constructor
  · have hstart : Settled (IrqSystem.mk freshPics irqs).pics ∧ (IrqSystem.mk freshPics irqs).pics.Idle :=
      ⟨hfresh, hfresh.idle rfl⟩
    exact throughout_iff_reached (P := fun s : IrqSystem => s.pics.Idle)
      (fun s (h : Settled s.pics ∧ s.pics.Idle) => h.2)
      (fun s op t h hop hstep => ⟨systemStep_sound h.1 hstep, idle_step h.1 h.2 hop hstep⟩)
      (fun s op h hop => stranded_step h.1 (not_not.mp hop)) hstart
  · intro t hreached hbusy later u hrun early late
    have ht : Settled t.pics := invariant_reached (fun s op t h hstep => systemStep_sound h hstep)
      hfresh hreached
    have hu := invariant_run (fun s op t h (_ : True) hstep => blocked_step h hstep)
      ⟨ht, ht.blocked hbusy⟩ (throughout_of_forall fun _ _ => trivial) hrun
    obtain ⟨line, events, v, hdeliver, hserved, -, hcalls⟩ := deliver_served hu.1 early late
    have hline := (hserved.blocked hu.2).1
    refine ⟨events, v, hdeliver, fun call hcall => ?_⟩
    rw [hcalls] at hcall
    unfold lineCalls at hcall
    split at hcall
    · cases hcall
    · obtain ⟨isr, -, rfl⟩ := List.mem_map.mp hcall
      have hnumbers : ∀ line : Fin NR_IRQS, line.val ∈ [0, 1, 7] →
          BitVec.ofNat 32 line.val ∈ [0, 1, 7] := by decide
      exact hnumbers line hline

/-- The clock is requested, and gone when the slave is asked. -/
def goneClock : List SystemOp := [.unmask IRQ_SLAVE, .unmask 8, .request 0x0100, .interrupt 0 0x01]

theorem goneClock_strands : ∃ t, Reaches systemStep ⟨freshPics, bootIrq⟩ goneClock t ∧ ¬ t.pics.Idle ∧
    ∃ events v, deliver 0 0 t = .ok (events, v) ∧ ∀ call ∈ isrCalls events, call.2 ∈ [0, 1, 7] := by
  obtain ⟨t, ht⟩ : ∃ t, run systemStep ⟨freshPics, bootIrq⟩ goneClock = .ok t := ⟨_, rfl⟩
  have hbusy : ¬ t.pics.Idle := by
    cases ht
    decide
  have hforever := (stranded_for_good (initPic_eq freshPics) goneClock).2 t (.of_run ht) hbusy
  exact ⟨t, .of_run ht, hbusy, hforever [] t rfl 0 0⟩

/-! ## The order of the handlers -/

/-- The processor is interrupted `n` times, if there is a reason to, and no request is taken back. -/
def serve : Nat → IrqSystem → Call (List IrqEvent × IrqSystem)
  | 0, s => .ok ([], s)
  | n + 1, s =>
    if s.pics.inputs.pending.isSome then do
      let first ← deliver 0 0 s
      let others ← serve n first.2
      .ok (first.1 ++ others.1, others.2)
    else .ok ([], s)

theorem withdraw_zero (p : PicPair) : p.withdraw 0 = p :=
  congrArg₂ PicPair.mk p.master.withdraw_zero p.slave.withdraw_zero

/-- The lines that are ready, in the order in which they are served. -/
def readyLines (p : PicPair) : List (Fin NR_IRQS) := PicPair.urgency.filter p.ready

theorem getmask_of_ready {p : PicPair} {line : Fin 16} (h : p.ready line = true) :
    (picGetmask p).getLsbD line = false := by
  obtain ⟨i, rfl⟩ | ⟨j, rfl⟩ := PicPair.line_cases line
  · rw [PicPair.ready_masterLine, Pic8259.wants, Bool.and_eq_true_iff, Bool.not_eq_true'] at h
    exact (picGetmask_masterLine p i).trans h.2
  · rw [PicPair.ready_slaveLine, Bool.and_eq_true_iff, Pic8259.wants, Bool.and_eq_true_iff,
      Bool.not_eq_true'] at h
    exact (picGetmask_slaveLine p j).trans h.1.2

theorem readyLines_cons {q p : PicPair} {line : Fin 16}
    (hfind : PicPair.urgency.find? q.ready = some line)
    (hready : ∀ l, p.ready l = (q.ready l && decide (l ≠ line))) :
    readyLines q = line :: readyLines p := by
  have hrest := List.filter_congr (l := PicPair.urgency) fun l _ => (hready l).symm
  exact (filter_of_find? PicPair.urgency_nodup hfind).trans (congrArg (List.cons line) hrest)

section Order
variable {q p : PicPair} (h : q.Idle)
include h

/-- The line that is served is the first one that is ready. -/
theorem Served.readyLines {line : Fin NR_IRQS} (hserved : Served q 0 line p)
    (hpending : q.inputs.pending.isSome = true) :
    readyLines q = line :: readyLines p ∧ p.master.isr = 0 ∧
      (picGetmask q).getLsbD line.val = false := by
  have hfind := PicPair.find_ready h
  have hslave (hi : q.inputs.pending = some CASCADE_INPUT) : (q.slave.withdraw 0).pending ≠ none := by
    have hwants := (Pic8259.pending_some hi).1
    rw [PicPair.inputs_wants_cascade h, Bool.and_eq_true_iff] at hwants
    rw [Pic8259.withdraw_zero]
    exact Option.isSome_iff_ne_none.mp hwants.1
  cases hserved with
  | nothing hnone =>
    rw [hnone] at hpending
    cases hpending
  | master i hi hcascade =>
    rw [hi, Option.bind_some, if_neg hcascade] at hfind
    exact ⟨readyLines_cons hfind (q.ready_withdraw_master i), h.master_isr,
      getmask_of_ready (List.find?_some hfind)⟩
  | slaveNothing hi hnone | stranded hi hnone => exact absurd hnone (hslave hi)
  | slave j hi hj =>
    rw [Pic8259.withdraw_zero] at hj
    rw [hi, Option.bind_some, if_pos rfl, hj] at hfind
    rw [Pic8259.withdraw_zero]
    exact ⟨readyLines_cons hfind (q.ready_withdraw_slave j), h.master_isr,
      getmask_of_ready (List.find?_some hfind)⟩

theorem readyLines_nil (hpending : q.inputs.pending.isSome = false) : Ohwes.readyLines q = [] := by
  have hfind := PicPair.find_ready h
  rw [Option.isSome_eq_false_iff, Option.isNone_iff_eq_none] at hpending
  rw [hpending, Option.bind_none, List.find?_eq_none] at hfind
  exact List.filter_eq_nil_iff.mpr hfind

end Order

/-- The handlers of a line, with what they are passed. -/
def handlerCalls (irqs : IrqState) (line : Fin NR_IRQS) : List (Ptr × BitVec 32) :=
  (irqs.isrMap line).handlers.map fun isr => (isr, BitVec.ofNat 32 line.val)

theorem serve_calls (n : Nat) {s : IrqSystem} (h : Settled s.pics) (hidle : s.pics.Idle) :
    ∃ events t, serve n s = .ok (events, t) ∧
      isrCalls events = ((readyLines s.pics).take n).flatMap (handlerCalls s.irqs) ∧
      readyLines t.pics = (readyLines s.pics).drop n ∧ t.irqs.isrMap = s.irqs.isrMap := by
  induction n generalizing s with
  | zero => exact ⟨[], s, rfl, rfl, rfl, rfl⟩
  | succ n ih =>
    cases hpending : s.pics.inputs.pending.isSome with
    | false =>
      refine ⟨[], s, ?_, ?_, ?_, rfl⟩
      · rw [serve, hpending]
        rfl
      · rw [readyLines_nil hidle hpending]
        rfl
      · rw [readyLines_nil hidle hpending]
        rfl
    | true =>
      obtain ⟨line, first, u, hdeliver, hserved, htable, hcalls⟩ := deliver_served h 0 0
      have hsound := hserved.sound (h.withdraw 0)
      rw [withdraw_zero] at hserved
      obtain ⟨hlines, hisr, hopen⟩ := hserved.readyLines hidle hpending
      obtain ⟨others, t, hserve, hothers, hleft, hsame⟩ := ih hsound (hsound.idle hisr)
      have hline : isrCalls first = handlerCalls s.irqs line := by
        rw [hcalls]
        exact if_neg (Bool.eq_false_iff.mp hopen)
      have hhandlers : handlerCalls u.irqs = handlerCalls s.irqs := by
        funext l
        rw [handlerCalls, handlerCalls, htable]
      refine ⟨first ++ others, t, ?_, ?_, ?_, hsame.trans htable⟩
      · rw [serve, hpending, if_pos rfl, hdeliver]
        change (serve n u).bind _ = _
        rw [hserve]
        rfl
      · rw [isrCalls_append, hline, hothers, hlines, List.take_succ_cons, List.flatMap_cons, hhandlers]
      · rw [hleft, hlines, List.drop_succ_cons]

/-- After any history without a stranded interrupt the handlers of the lines that are requested and
unmasked are called line by line, the most urgent line first and each line once. -/
theorem served_in_order {bios pics : PicPair} (hinit : initPic bios = .ok pics) {irqs : IrqState}
    {ops : List SystemOp} (hops : Throughout systemStep (fun s op => ¬ Strands s op) ⟨pics, irqs⟩ ops)
    {s : IrqSystem} (hrun : run systemStep ⟨pics, irqs⟩ ops = .ok s) (n : Nat) :
    ∃ events t, serve n s = .ok (events, t) ∧
      isrCalls events = ((readyLines s.pics).take n).flatMap (handlerCalls s.irqs) ∧
      readyLines t.pics = (readyLines s.pics).drop n ∧ t.irqs.isrMap = s.irqs.isrMap := by
  rw [initPic_eq] at hinit
  cases hinit
  have hstart : Settled (IrqSystem.mk freshPics irqs).pics ∧ (IrqSystem.mk freshPics irqs).pics.Idle :=
    ⟨freshPics_sound, freshPics_sound.idle rfl⟩
  have hs := invariant_run (fun (s : IrqSystem) op t (h : Settled s.pics ∧ s.pics.Idle) hop hstep =>
    ⟨systemStep_sound h.1 hstep, idle_step h.1 h.2 hop hstep⟩) hstart hops hrun
  exact serve_calls n hs.1 hs.2

/-- Lines of both controllers, all requested at once. -/
def threeLines : List SystemOp :=
  [.register 4 0x3000, .register 8 0x2000, .register 0 0x1000, .unmask IRQ_SLAVE, .unmask 0, .unmask 4,
    .unmask 8, .request 0x0111]

theorem threeLines_in_order : ∃ s, run systemStep ⟨freshPics, bootIrq⟩ threeLines = .ok s ∧
    ∃ events t, serve 3 s = .ok (events, t) ∧
      isrCalls events = [(0x1000, 0), (0x2000, 8), (0x3000, 4)] ∧ readyLines t.pics = [] := by
  obtain ⟨s, hs⟩ : ∃ s, run systemStep ⟨freshPics, bootIrq⟩ threeLines = .ok s := ⟨_, rfl⟩
  have hclean : Throughout systemStep (fun s op => ¬ Strands s op) ⟨freshPics, bootIrq⟩ threeLines :=
    by decide
  obtain ⟨events, t, hserve, hcalls, hleft, -⟩ := served_in_order (initPic_eq freshPics) hclean hs 3
  refine ⟨s, hs, events, t, hserve, ?_, ?_⟩
  · rw [hcalls]
    cases hs
    decide
  · rw [hleft]
    cases hs
    decide

end Ohwes

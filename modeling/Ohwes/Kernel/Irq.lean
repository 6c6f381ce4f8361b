import Ohwes.Library.Runs
import Ohwes.Libc.String

/-! # `kernel/irq.c`: device interrupts

A line has eight slots for handlers. A handler is registered in the first free slot and taken out of
the first one that holds it. `handleIrq` answers with what it does, in order: the commands it writes
to the interrupt controllers, the handlers it calls and the alerts it prints. -/

namespace Ohwes
open Library
set_option autoImplicit false

def NR_IRQS : Nat := 16
def MAX_ISR : Nat := 8
def SPURIOUS_THRESH : Nat := 10

/-! ## `i386/pic.h` -/

def PIC_MASTER_CMD_PORT : BitVec 16 := 0x20
def PIC_SLAVE_CMD_PORT : BitVec 16 := 0xA0
def OCW2_EOI : Byte := 0x60
def IRQ_SLAVE : Byte := 2

/-- The commands of `pic_eoi`: a line of the slave is acknowledged there, and the slave at the
master. -/
def picEoi (irqNum : Byte) : List (BitVec 16 × Byte) :=
  if irqNum ≥ 8 then
    [(PIC_SLAVE_CMD_PORT, OCW2_EOI ||| (irqNum &&& 0x7)), (PIC_MASTER_CMD_PORT, OCW2_EOI ||| IRQ_SLAVE)]
  else [(PIC_MASTER_CMD_PORT, OCW2_EOI ||| (irqNum &&& 0x7))]

/-! ## The table -/

/-- Put `new` in the place of the first `old`. -/
def replaceFirst (old new : Ptr) : List Ptr → Option (List Ptr)
  | [] => none
  | isr :: slots =>
    if isr = old then some (new :: slots) else (replaceFirst old new slots).map (isr :: ·)

theorem replaceFirst_length {old new : Ptr} {slots slots' : List Ptr}
    (h : replaceFirst old new slots = some slots') : slots'.length = slots.length := by
  induction slots generalizing slots' with
  | nil => cases h
  | cons isr slots ih =>
    rw [replaceFirst] at h
    split at h
    · cases h
      rfl
    · obtain ⟨rest, hrest, rfl⟩ := Option.map_eq_some_iff.mp h
      rw [List.length_cons, ih hrest, List.length_cons]

theorem replaceFirst_count {old new : Ptr} {slots slots' : List Ptr} (isr : Ptr)
    (h : replaceFirst old new slots = some slots') :
    slots'.count isr + [old].count isr = slots.count isr + [new].count isr := by
  induction slots generalizing slots' with
  | nil => cases h
  | cons first slots ih =>
    rw [replaceFirst] at h
    split at h
    · next he =>
      cases h
      simp only [he, List.count_cons, List.count_nil]
      omega
    · obtain ⟨rest, hrest, rfl⟩ := Option.map_eq_some_iff.mp h
      have hcount := ih hrest
      simp only [List.count_cons, List.count_nil] at hcount ⊢
      omega

/-- A row of `_isr_map`. -/
structure IsrSlots where
  isrs : List Ptr
  length_eq : isrs.length = MAX_ISR

def IsrSlots.replace (slots : IsrSlots) (old new : Ptr) : Option IsrSlots :=
  (replaceFirst old new slots.isrs).pmap
    (fun isrs h => ⟨isrs, h⟩) fun _ h => (replaceFirst_length h).trans slots.length_eq

def IsrSlots.free : IsrSlots := ⟨List.replicate MAX_ISR 0, List.length_replicate⟩

/-- `_isr_map` and `_irqstats`. -/
structure IrqState where
  isrMap : Fin NR_IRQS → IsrSlots
  spurPic0 : BitVec 32
  spurPic1 : BitVec 32

def bootIrq : IrqState where
  isrMap _ := IsrSlots.free
  spurPic0 := 0
  spurPic1 := 0

/-- Put `new` in the place of the first `old` on a line, or panic. -/
def irqReplace (irq : Int) (old new : Ptr) (msg : String) (s : IrqState) : Call IrqState :=
  if h : 0 ≤ irq ∧ irq.toNat < NR_IRQS then
    match (s.isrMap ⟨irq.toNat, h.2⟩).replace old new with
    | none => .error (.panic msg)
    | some slots => .ok { s with isrMap := Function.update s.isrMap ⟨irq.toNat, h.2⟩ slots }
  else .error .assertion

def irqRegister (irq : Int) (func : Ptr) (s : IrqState) : Call IrqState :=
  irqReplace irq 0 func "maximum number of handlers already registered for IRQ %d" s

def irqUnregister (irq : Int) (func : Ptr) (s : IrqState) : Call IrqState :=
  irqReplace irq func 0 "handler at 0x%08tX not registered for IRQ %d" s

/-! ## Dispatch -/

inductive IrqEvent where
  | outb (port : BitVec 16) (data : Byte)
  | isr (func : Ptr) (irq : BitVec 32)
  | alert (msg : String) (arg : BitVec 32)
  deriving DecidableEq, Repr

/-- `_IRQ_MASKED`. -/
def irqMasked (mask : BitVec 16) (irq : BitVec 32) : Bool :=
  mask.zeroExtend 32 &&& ((1 : BitVec 32) <<< irq) != 0

/-- The alerts of a spurious interrupt; `count` includes it. -/
def spuriousAlerts (irq count : BitVec 32) : List IrqEvent :=
  .alert "spurious IRQ%d\n" irq ::
    if count.toInt > 1 ∧ (count.toInt - 1) % SPURIOUS_THRESH = 0 then
      [.alert "more than %d spurious IRQs! what's going on??\n" (count - 1)]
    else []

/-- The loop over the slots. -/
def callIsrs (irq : BitVec 32) (isrs : List Ptr) : List IrqEvent :=
  isrs.filterMap fun isr => if isr ≠ 0 then some (.isr isr irq) else none

/-- `mask` is what the controllers answer for their masks. -/
def handleIrq (mask : BitVec 16) (vec : BitVec 32) (s : IrqState) : Call (List IrqEvent × IrqState) :=
  let irq := ~~~vec
  let masked := irqMasked mask irq
  if irq = 7 ∧ masked then
    let count := s.spurPic0 + 1
    .ok (spuriousAlerts irq count, { s with spurPic0 := count })
  else if irq = 15 ∧ masked then
    let count := s.spurPic1 + 1
    .ok (spuriousAlerts irq count, { s with spurPic1 := count })
  else
    let eoi := (picEoi (irq.setWidth 8)).map fun x => IrqEvent.outb x.1 x.2
    if masked then .ok (eoi ++ [.alert "unhandled irq%d\n" irq], s)
    else if h : irq.toNat < NR_IRQS then
      let calls := callIsrs irq (s.isrMap ⟨irq.toNat, h⟩).isrs
      let unhandled := if calls = [] then [.alert "unhandled irq%d\n" irq] else []
      .ok (eoi ++ (calls ++ unhandled), s)
    else .error .fault

/-! ## Runs -/

inductive IrqOp where
  | register (irq : Int) (func : Ptr)
  | unregister (irq : Int) (func : Ptr)
  | deliver (mask : BitVec 16) (irq : Fin NR_IRQS)
  deriving DecidableEq

/-- The vector the thunk of a line pushes. -/
def irqVector (irq : Fin NR_IRQS) : BitVec 32 := ~~~(BitVec.ofNat 32 irq.val)

def irqStep (s : IrqState) : IrqOp → Call IrqState
  | .register irq func => irqRegister irq func s
  | .unregister irq func => irqUnregister irq func s
  | .deliver mask irq => (handleIrq mask (irqVector irq) s).map (·.2)

/-! ## The table over a run -/

theorem replace_count {slots slots' : IsrSlots} {old new : Ptr} (isr : Ptr)
    (h : slots.replace old new = some slots') :
    slots'.isrs.count isr + [old].count isr = slots.isrs.count isr + [new].count isr := by
  obtain ⟨isrs, hisrs, hreplaced, rfl⟩ := Option.pmap_eq_some_iff.mp h
  exact replaceFirst_count isr hreplaced

/-- A call of `irqReplace` that comes back changes one line. -/
theorem irqReplace_ok {irq : Int} {old new : Ptr} {msg : String} {s t : IrqState}
    (h : irqReplace irq old new msg s = .ok t) :
    ∃ (line : Fin NR_IRQS) (slots : IsrSlots), irq = line ∧
      (s.isrMap line).replace old new = some slots ∧
      t.isrMap = Function.update s.isrMap line slots := by
  unfold irqReplace at h
  split at h
  · next hvalid =>
    split at h
    · cases h
    · next slots hslots =>
      cases h
      exact ⟨⟨irq.toNat, hvalid.2⟩, slots, (Int.toNat_of_nonneg hvalid.1).symm, hslots, rfl⟩
  · cases h

theorem irqReplace_count {irq : Int} {old new : Ptr} {msg : String} {s t : IrqState}
    (h : irqReplace irq old new msg s = .ok t) (line : Fin NR_IRQS) (isr : Ptr) :
    (t.isrMap line).isrs.count isr + (if irq = line then [old].count isr else 0) =
      (s.isrMap line).isrs.count isr + (if irq = line then [new].count isr else 0) := by
  obtain ⟨changed, slots, rfl, hslots, ht⟩ := irqReplace_ok h
  have hsame : ((changed : Nat) : Int) = (line : Nat) ↔ line = changed := by
    rw [Int.ofNat_inj, Fin.val_inj, eq_comm]
  by_cases hline : line = changed
  · subst hline
    rw [if_pos rfl, if_pos rfl, ht, Function.update_self]
    exact replace_count isr hslots
  · rw [if_neg (hsame.not.mpr hline), if_neg (hsame.not.mpr hline), ht,
      Function.update_of_ne hline]

/-- A delivery changes the counts of spurious interrupts only. -/
theorem handleIrq_isrMap {mask : BitVec 16} {vec : BitVec 32} {s : IrqState}
    {r : List IrqEvent × IrqState} (h : handleIrq mask vec s = .ok r) :
    r.2.isrMap = s.isrMap := by
  unfold handleIrq at h
  dsimp only at h
  split_ifs at h
  all_goals
    cases h
    rfl

/-- How often the operations register a handler for a line. -/
def registrations (ops : List IrqOp) (line : Fin NR_IRQS) (isr : Ptr) : Nat :=
  ops.count (.register line isr)

def unregistrations (ops : List IrqOp) (line : Fin NR_IRQS) (isr : Ptr) : Nat :=
  ops.count (.unregister line isr)

theorem irqStep_count {s t : IrqState} {op : IrqOp} (h : irqStep s op = .ok t)
    (line : Fin NR_IRQS) {isr : Ptr} (hisr : isr ≠ 0) :
    (t.isrMap line).isrs.count isr + unregistrations [op] line isr =
      (s.isrMap line).isrs.count isr + registrations [op] line isr := by
  have hnull : [(0 : Ptr)].count isr = 0 := List.count_eq_zero.mpr (by simpa using hisr)
  cases op with
  | register irq func =>
    have hcount := irqReplace_count h line isr
    rw [hnull] at hcount
    simp only [unregistrations, registrations, List.count_cons, List.count_nil, beq_iff_eq,
      reduceCtorEq, if_false, IrqOp.register.injEq, ite_and] at hcount ⊢
    simpa using hcount
  | unregister irq func =>
    have hcount := irqReplace_count h line isr
    rw [hnull] at hcount
    simp only [unregistrations, registrations, List.count_cons, List.count_nil, beq_iff_eq,
      reduceCtorEq, if_false, IrqOp.unregister.injEq, ite_and] at hcount ⊢
    simpa using hcount
  | deliver mask irq =>
    cases hr : handleIrq mask (irqVector irq) s with
    | error e =>
      rw [irqStep, hr] at h
      cases h
    | ok r =>
      rw [irqStep, hr] at h
      cases h
      rw [handleIrq_isrMap hr]
      rfl

/-- A slot of the line holds a handler for every registration that was not taken back. -/
theorem run_count {s t : IrqState} {ops : List IrqOp} (h : run irqStep s ops = .ok t)
    (line : Fin NR_IRQS) {isr : Ptr} (hisr : isr ≠ 0) :
    (t.isrMap line).isrs.count isr + unregistrations ops line isr =
      (s.isrMap line).isrs.count isr + registrations ops line isr := by
  induction ops generalizing s with
  | nil =>
    cases h
    rfl
  | cons op ops ih =>
    obtain ⟨m, hm, hrest⟩ := (run_cons_ok irqStep).mp h
    have hstep := irqStep_count hm line hisr
    have hrun := ih hrest
    simp only [unregistrations, registrations, List.count_cons, List.count_nil] at hstep hrun ⊢
    omega

theorem bootIrq_count (line : Fin NR_IRQS) {isr : Ptr} (hisr : isr ≠ 0) :
    (bootIrq.isrMap line).isrs.count isr = 0 :=
  List.count_eq_zero.mpr fun hmem => hisr (List.eq_of_mem_replicate hmem)

/-! ## One delivery -/

/-- The handlers called, each with the number it is passed. -/
def isrCalls (events : List IrqEvent) : List (Ptr × BitVec 32) :=
  events.filterMap fun
    | .isr func irq => some (func, irq)
    | _ => none

/-- What is written to the interrupt controllers. -/
def picWrites (events : List IrqEvent) : List (BitVec 16 × Byte) :=
  events.filterMap fun
    | .outb port data => some (port, data)
    | _ => none

/-- The handlers in the slots, in the order of the slots. -/
def IsrSlots.handlers (slots : IsrSlots) : List Ptr := slots.isrs.filter (· ≠ 0)

theorem irqVector_not (irq : Fin NR_IRQS) : ~~~irqVector irq = BitVec.ofNat 32 irq.val :=
  BitVec.not_not

theorem irqMasked_ofNat (mask : BitVec 16) (irq : Fin NR_IRQS) :
    irqMasked mask (BitVec.ofNat 32 irq.val) = mask.getLsbD irq.val := by
  have hirq : irq.val < 16 := irq.isLt
  have hbit : (1 : BitVec 32) <<< BitVec.ofNat 32 irq.val = BitVec.twoPow 32 irq.val := by
    rw [BitVec.shiftLeft_eq', BitVec.toNat_ofNat, Nat.mod_eq_of_lt (by omega)]
    rfl
  have hone : BitVec.twoPow 32 irq.val ≠ 0 := fun hzero => by
    have hvalue := congrArg BitVec.toNat hzero
    rw [BitVec.toNat_twoPow, Nat.mod_eq_of_lt (Nat.pow_lt_pow_right (by omega) (by omega))] at hvalue
    exact absurd hvalue (by simp)
  rw [irqMasked, hbit, BitVec.and_twoPow, BitVec.getLsbD_setWidth,
    decide_eq_true (show irq.val < 32 by omega), Bool.true_and]
  cases mask.getLsbD irq.val with
  | false => rfl
  | true => exact bne_iff_ne.mpr hone

theorem callIsrs_eq (irq : BitVec 32) (slots : IsrSlots) :
    callIsrs irq slots.isrs = slots.handlers.map fun isr => .isr isr irq := by
  rw [callIsrs, IsrSlots.handlers]
  induction slots.isrs with
  | nil => rfl
  | cons isr isrs ih =>
    rw [List.filterMap_cons, List.filter_cons]
    by_cases hisr : isr = 0
    · rw [if_neg (not_not_intro hisr), if_neg (by simp [hisr])]
      exact ih
    · rw [if_pos hisr, if_pos (decide_eq_true hisr)]
      exact congrArg (IrqEvent.isr isr irq :: ·) ih

/-- A spurious interrupt: masked, on the last line of a controller. -/
def Spurious (mask : BitVec 16) (irq : Fin NR_IRQS) : Prop :=
  mask.getLsbD irq.val ∧ (irq.val = 7 ∨ irq.val = 15)

instance (mask : BitVec 16) (irq : Fin NR_IRQS) : Decidable (Spurious mask irq) :=
  inferInstanceAs (Decidable (_ ∧ _))

theorem isrCalls_append (es fs : List IrqEvent) :
    isrCalls (es ++ fs) = isrCalls es ++ isrCalls fs := List.filterMap_append

theorem picWrites_append (es fs : List IrqEvent) :
    picWrites (es ++ fs) = picWrites es ++ picWrites fs := List.filterMap_append

theorem isrCalls_calls (irq : BitVec 32) (isrs : List Ptr) :
    isrCalls (isrs.map fun isr => .isr isr irq) = isrs.map fun isr => (isr, irq) := by
  induction isrs with
  | nil => rfl
  | cons isr isrs ih => exact congrArg ((isr, irq) :: ·) ih

theorem picWrites_calls (irq : BitVec 32) (isrs : List Ptr) :
    picWrites (isrs.map fun isr => .isr isr irq) = [] := by
  induction isrs with
  | nil => rfl
  | cons isr isrs ih => exact ih

theorem isrCalls_eoi (writes : List (BitVec 16 × Byte)) :
    isrCalls (writes.map fun x => .outb x.1 x.2) = [] := by
  induction writes with
  | nil => rfl
  | cons w writes ih => exact ih

theorem picWrites_eoi (writes : List (BitVec 16 × Byte)) :
    picWrites (writes.map fun x => .outb x.1 x.2) = writes := by
  induction writes with
  | nil => rfl
  | cons w writes ih => exact congrArg (w :: ·) ih

theorem isrCalls_spurious (irq count : BitVec 32) : isrCalls (spuriousAlerts irq count) = [] := by
  unfold spuriousAlerts
  split
  · rfl
  · rfl

theorem picWrites_spurious (irq count : BitVec 32) : picWrites (spuriousAlerts irq count) = [] := by
  unfold spuriousAlerts
  split
  · rfl
  · rfl

/-- A delivery calls the handlers of an unmasked line and acknowledges what is not spurious. -/
theorem handleIrq_delivers (mask : BitVec 16) (irq : Fin NR_IRQS) (s : IrqState) :
    ∃ events t, handleIrq mask (irqVector irq) s = .ok (events, t) ∧
      isrCalls events = (if mask.getLsbD irq.val then []
        else (s.isrMap irq).handlers.map fun isr => (isr, BitVec.ofNat 32 irq.val)) ∧
      picWrites events = if Spurious mask irq then [] else picEoi (BitVec.ofNat 8 irq.val) := by
  have hirq : irq.val < 16 := irq.isLt
  have hnum (n : Nat) (hn : n < 16) : BitVec.ofNat 32 irq.val = BitVec.ofNat 32 n ↔ irq.val = n := by
    constructor
    · intro h
      have := congrArg BitVec.toNat h
      simp only [BitVec.toNat_ofNat] at this
      omega
    · exact fun h => congrArg _ h
  have hline : (BitVec.ofNat 32 irq.val).toNat = irq.val := by
    rw [BitVec.toNat_ofNat]
    omega
  have hwidth : (BitVec.ofNat 32 irq.val).setWidth 8 = BitVec.ofNat 8 irq.val :=
    BitVec.setWidth_ofNat_of_le (by omega) _
  rw [handleIrq]
  dsimp only
  rw [irqVector_not, irqMasked_ofNat, hwidth]
  by_cases h7 : irq.val = 7 ∧ mask.getLsbD irq.val
  · rw [if_pos ⟨(hnum 7 (by omega)).mpr h7.1, h7.2⟩]
    refine ⟨_, _, rfl, ?_, ?_⟩
    · rw [isrCalls_spurious, if_pos h7.2]
    · rw [picWrites_spurious, if_pos ⟨h7.2, Or.inl h7.1⟩]
  rw [if_neg fun h => h7 ⟨(hnum 7 (by omega)).mp h.1, h.2⟩]
  by_cases h15 : irq.val = 15 ∧ mask.getLsbD irq.val
  · rw [if_pos ⟨(hnum 15 (by omega)).mpr h15.1, h15.2⟩]
    refine ⟨_, _, rfl, ?_, ?_⟩
    · rw [isrCalls_spurious, if_pos h15.2]
    · rw [picWrites_spurious, if_pos ⟨h15.2, Or.inr h15.1⟩]
  rw [if_neg fun h => h15 ⟨(hnum 15 (by omega)).mp h.1, h.2⟩]
  have hgenuine : ¬ Spurious mask irq := by
    rintro ⟨hmask, h | h⟩
    · exact h7 ⟨h, hmask⟩
    · exact h15 ⟨h, hmask⟩
  rw [if_neg hgenuine]
  by_cases hmask : mask.getLsbD irq.val = true
  · rw [if_pos hmask, if_pos hmask]
    refine ⟨_, _, rfl, ?_, ?_⟩
    · rw [isrCalls_append, isrCalls_eoi]
      rfl
    · rw [picWrites_append, picWrites_eoi]
      exact List.append_nil _
  · rw [if_neg hmask, if_neg hmask, dif_pos (by rw [hline]; exact hirq)]
    refine ⟨_, _, rfl, ?_, ?_⟩
    · simp only [hline, callIsrs_eq, isrCalls_append, isrCalls_eoi, isrCalls_calls]
      rw [List.nil_append]
      split
      · exact List.append_nil _
      · exact List.append_nil _
    · simp only [hline, callIsrs_eq, picWrites_append, picWrites_eoi, picWrites_calls]
      split
      · exact List.append_nil _
      · exact List.append_nil _

/-- After any history that does not panic a slot of a line holds a handler for every registration
that was not taken back, and a delivery calls what the slots of its line hold, in their order, unless
the line is masked; it is acknowledged once unless it is spurious. -/
theorem irq_dispatch {ops : List IrqOp} {s : IrqState} (h : run irqStep bootIrq ops = .ok s)
    (mask : BitVec 16) (irq : Fin NR_IRQS) :
    (∀ (line : Fin NR_IRQS) (isr : Ptr), isr ≠ 0 →
      (s.isrMap line).handlers.count isr + unregistrations ops line isr =
        registrations ops line isr) ∧
    ∃ events t, handleIrq mask (irqVector irq) s = .ok (events, t) ∧
      isrCalls events = (if mask.getLsbD irq.val then []
        else (s.isrMap irq).handlers.map fun isr => (isr, BitVec.ofNat 32 irq.val)) ∧
      picWrites events = if Spurious mask irq then [] else picEoi (BitVec.ofNat 8 irq.val) := by
  refine ⟨fun line isr hisr => ?_, handleIrq_delivers mask irq s⟩
  have hcount := run_count h line hisr
  rw [bootIrq_count line hisr, Nat.zero_add] at hcount
  rw [← hcount, IsrSlots.handlers, List.count_filter (by simpa using hisr)]

/-- A handler registered twice and taken back once, with a free slot in front of it. -/
def reusedLine : List IrqOp :=
  [.register 3 0x1000, .register 3 0x2000, .register 3 0x1000, .register 4 0x3000,
    .unregister 3 0x1000]

theorem irq_dispatch_reused :
    ∃ s, run irqStep bootIrq reusedLine = .ok s ∧
      ∃ events t, handleIrq 0x8000 (irqVector ⟨3, by decide⟩) s = .ok (events, t) ∧
        isrCalls events = [(0x2000, 3), (0x1000, 3)] ∧ picWrites events = picEoi 3 := by
  obtain ⟨s, hs⟩ : ∃ s, run irqStep bootIrq reusedLine = .ok s := ⟨_, rfl⟩
  obtain ⟨events, t, he, hcalls, hwrites⟩ := (irq_dispatch hs 0x8000 ⟨3, by decide⟩).2
  refine ⟨s, hs, events, t, he, ?_, ?_⟩
  · rw [hcalls]
    cases hs
    decide
  · rw [hwrites]
    decide

end Ohwes

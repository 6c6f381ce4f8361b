import Mathlib.Data.List.FinRange
import Ohwes.I386.Entry
import Ohwes.I386.Pic
import Ohwes.I386.X86

/-! # `kernel/cpu.c`: the tables of the processor

The linker and `ksetup` leave a descriptor table with the segments of the kernel and of the user.
`setupCpu` adds the interrupt table and the tasks. What is in the interrupt table before is what memory
happens to hold. -/

namespace Ohwes
open Library
set_option autoImplicit false

def KERNEL_LDT : BitVec 16 := 0x08
def USER_DS : BitVec 16 := 0x2B
def KERNEL_TSS : BitVec 16 := 0x30
def EMERG_TSS : BitVec 16 := 0x38
def KERNEL_PL : BitVec 32 := 0
def USER_PL : BitVec 32 := 3
def NR_EXCEPTIONS : Nat := 32
def BREAKPOINT : Nat := 3
def DOUBLE_FAULT : Nat := 8
def EXCEPTION_BASE_VECTOR : Nat := 0
def NR_IDT_VECTORS : Nat := 256
def TSS_ESP0 : BitVec 32 := 0x04
def TSS_SS0 : BitVec 32 := 0x08
def TSS_CR3 : BitVec 32 := 0x1C
def TSS_EIP : BitVec 32 := 0x20
def TSS_ESP : BitVec 32 := 0x38
def TSS_EBP : BitVec 32 := 0x3C
def TSS_ES : BitVec 32 := 0x48
def TSS_CS : BitVec 32 := 0x4C
def TSS_SS : BitVec 32 := 0x50
def TSS_DS : BitVec 32 := 0x54

/-- Addresses that the linker gives: of `_except_00h` and the others, of `_irq_00h` and the others, and so on.
`tssTable` is `_tss_table`. -/
structure KernelLabels where
  exceptThunk : Fin 32 → BitVec 32
  irqThunk : Fin NR_IRQS → BitVec 32
  syscallThunk : BitVec 32
  pageDir : BitVec 32
  kstack : BitVec 32
  estack : BitVec 32
  tssTable : BitVec 32
  ldt : BitVec 32

namespace KernelLabels
variable (L : KernelLabels)

/-- `_exception_thunks`, the table of `entry.S`. -/
def exceptionThunks (i : Fin NR_EXCEPTIONS) : BitVec 32 :=
  L.exceptThunk (Ohwes.exceptionThunks.get (i.cast (by decide)))

/-- `_irq_thunks`, which has every thunk in its own place. -/
def irqThunks (i : Fin NR_IRQS) : BitVec 32 := L.irqThunk i

end KernelLabels

/-- The thunk in the slot of an exception: its own, but for two that have that of another. -/
def thunkIn (i : Fin NR_EXCEPTIONS) : Fin 32 :=
  if i.val = 0x1B then ⟨0x19, by decide⟩ else if i.val = 0x1D then ⟨0x1C, by decide⟩ else i

theorem KernelLabels.exceptionThunks_eq (L : KernelLabels) (i : Fin NR_EXCEPTIONS) :
    L.exceptionThunks i = L.exceptThunk (thunkIn i) := by
  have hget : ∀ i : Fin NR_EXCEPTIONS, Ohwes.exceptionThunks.get (i.cast (by decide)) = thunkIn i := by
    decide
  rw [exceptionThunks, hget]

/-! ## The global table -/

/-- `__gdt` of `kernel.ld`. -/
def linkedGdt : Nat → Desc386
  | 2 => 0x00CF9A000000FFFF
  | 3 => 0x00CF92000000FFFF
  | 4 => 0x00CFFA000000FFFF
  | 5 => 0x00CFF2000000FFFF
  | _ => 0

/-- The processor marks the segments that `ksetup` loads. -/
def loadedGdt : Nat → Desc386
  | 2 => Desc386.setAccessed (linkedGdt 2)
  | 3 => Desc386.setAccessed (linkedGdt 3)
  | i => linkedGdt i

/-- What `validate_gdt` asserts of a segment. -/
def validSegment (types : List (BitVec 4)) (dpl : BitVec 2) (d : Desc386) : Bool :=
  types.contains (Desc386.type d) && Desc386.dpl d == dpl && field d 54 1 == 1 && Desc386.memory d &&
    Desc386.granular d && Desc386.present d

def validateGdt (gdt : Nat → Desc386) : Call Unit := do
  assert (validSegment [DESCTYPE_CODE_XR, DESCTYPE_CODE_XRA] 0 (gdt (selectorIndex KERNEL_CS)))
  assert (validSegment [DESCTYPE_DATA_RW, DESCTYPE_DATA_RWA] 0 (gdt (selectorIndex KERNEL_DS)))
  assert (validSegment [DESCTYPE_CODE_XR] 3 (gdt (selectorIndex USER_CS)))
  assert (validSegment [DESCTYPE_DATA_RW] 3 (gdt (selectorIndex USER_DS)))

/-! ## The tasks -/

def writeHalf (m : Memory386) (a : BitVec 32) (v : BitVec 16) : Memory386 := fun x =>
  if (x - a).toNat < 2 then v.extractLsb' (8 * (x - a).toNat) 8 else m x

def setupEmergTss (L : KernelLabels) (m : Memory386) : Memory386 :=
  let tss := L.tssTable
  let m := writeWord m (tss + TSS_CR3) L.pageDir
  let m := writeWord m (tss + TSS_ESP) L.estack
  let m := writeWord m (tss + TSS_EBP) L.estack
  let m := writeWord m (tss + TSS_EIP) (L.exceptionThunks ⟨DOUBLE_FAULT, by decide⟩)
  let m := writeHalf m (tss + TSS_CS) KERNEL_CS
  let m := writeHalf m (tss + TSS_SS) KERNEL_DS
  let m := writeHalf m (tss + TSS_DS) KERNEL_DS
  writeHalf m (tss + TSS_ES) KERNEL_DS

def kernlTss (L : KernelLabels) : BitVec 32 := L.tssTable + TSS_SIZE

def setupKernlTss (L : KernelLabels) (m : Memory386) : Memory386 :=
  writeHalf (writeWord m (kernlTss L + TSS_ESP0) L.kstack) (kernlTss L + TSS_SS0) KERNEL_DS

/-! ## The interrupt table -/

def exceptionGate (L : KernelLabels) (i : Fin NR_EXCEPTIONS) : Desc386 :=
  if i.val = DOUBLE_FAULT then makeTaskGate (EMERG_TSS.setWidth 32) KERNEL_PL
  else makeTrapGate (KERNEL_CS.setWidth 32) (if i.val = BREAKPOINT then USER_PL else KERNEL_PL)
    (L.exceptionThunks i)

def irqGate (L : KernelLabels) (i : Fin NR_IRQS) : Desc386 :=
  makeIntrGate (KERNEL_CS.setWidth 32) KERNEL_PL (L.irqThunks i)

/-- A loop that fills entries of a table. -/
def fill {n : Nat} (base : Nat) (gates : Fin n → Desc386) (idt : Nat → Desc386) : Nat → Desc386 :=
  (List.finRange n).foldl (fun idt i => Function.update idt (base + i.val) (gates i)) idt

def setupIdt (L : KernelLabels) (idt : Nat → Desc386) : Nat → Desc386 :=
  let idt := fill EXCEPTION_BASE_VECTOR (exceptionGate L) idt
  let idt := fill IRQ_BASE_VECTOR.toNat (irqGate L) idt
  Function.update idt SYSCALL_VECTOR.toNat (makeTrapGate (KERNEL_CS.setWidth 32) USER_PL L.syscallThunk)

/-- A fault of the processor here has no handler yet. -/
def onFault {α : Type} (x : Except Fault386 α) : Call α := x.mapError fun _ => .fault

/-- The tables up to the descriptor of the kernel's task. -/
def describeTask (L : KernelLabels) (idt : Nat → Desc386) (m : Memory386) : Tables386 where
  idt := ⟨8 * NR_IDT_VECTORS - 1, setupIdt L idt⟩
  gdt := ⟨8 * 8 - 1,
    Function.update loadedGdt (selectorIndex KERNEL_TSS) (makeTssDesc KERNEL_PL (kernlTss L))⟩
  tr := 0
  mem := setupKernlTss L (setupEmergTss L m)

def describeLdt (L : KernelLabels) (t : Tables386) : Tables386 :=
  { t with gdt := { t.gdt with
    desc := Function.update t.gdt.desc (selectorIndex KERNEL_LDT) (makeLdtDesc KERNEL_PL L.ldt 7) } }

def setupCpu (L : KernelLabels) (idt : Nat → Desc386) (m : Memory386) : Call Tables386 := do
  validateGdt loadedGdt
  let t ← onFault ((describeTask L idt m).loadTask KERNEL_TSS)
  let t := describeLdt L t
  onFault (t.loadLocal KERNEL_LDT)
  .ok t

/-! ## What is in the interrupt table -/

section Fill
variable {n base : Nat} {gates : Fin n → Desc386}

theorem fill_foldl_apart {is : List (Fin n)} {v : Nat} (hv : ∀ i ∈ is, base + i.val ≠ v)
    (idt : Nat → Desc386) :
    is.foldl (fun idt i => Function.update idt (base + i.val) (gates i)) idt v = idt v := by
  induction is generalizing idt with
  | nil => rfl
  | cons i is ih =>
    rw [List.foldl_cons, ih fun j hj => hv j (List.mem_cons_of_mem i hj)]
    exact Function.update_of_ne (hv i List.mem_cons_self).symm ..

theorem fill_foldl_mem {is : List (Fin n)} {i : Fin n} (hi : i ∈ is) (hnodup : is.Nodup)
    (idt : Nat → Desc386) :
    is.foldl (fun idt i => Function.update idt (base + i.val) (gates i)) idt (base + i.val) =
      gates i := by
  induction is generalizing idt with
  | nil => cases hi
  | cons j is ih =>
    obtain ⟨hj, hrest⟩ := List.nodup_cons.mp hnodup
    rw [List.foldl_cons]
    rcases List.mem_cons.mp hi with rfl | hi
    · have hapart : ∀ k ∈ is, base + k.val ≠ base + i.val := by
        intro k hk he
        have hki : k = i := Fin.ext (Nat.add_left_cancel he)
        exact hj (hki ▸ hk)
      rw [fill_foldl_apart hapart]
      exact Function.update_self ..
    · exact ih hi hrest _

theorem fill_apart {v : Nat} (hv : v < base ∨ base + n ≤ v) (idt : Nat → Desc386) :
    fill base gates idt v = idt v :=
  fill_foldl_apart (fun i _ => by omega) idt

theorem fill_at (i : Fin n) (idt : Nat → Desc386) : fill base gates idt (base + i.val) = gates i :=
  fill_foldl_mem (List.mem_finRange i) (List.nodup_finRange n) idt

end Fill

section Idt
variable (L : KernelLabels) (idt : Nat → Desc386)

theorem setupIdt_exception (i : Fin NR_EXCEPTIONS) : setupIdt L idt i.val = exceptionGate L i := by
  have hi : i.val < 32 := i.isLt
  have hlow : fill EXCEPTION_BASE_VECTOR (exceptionGate L) idt i.val = exceptionGate L i := by
    have hat : fill EXCEPTION_BASE_VECTOR (exceptionGate L) idt (EXCEPTION_BASE_VECTOR + i.val) =
        exceptionGate L i := fill_at i idt
    rwa [EXCEPTION_BASE_VECTOR, Nat.zero_add] at hat
  rw [setupIdt, Function.update_of_ne (by simp; omega),
    fill_apart (.inl (by simp [IRQ_BASE_VECTOR]; omega)), hlow]

theorem setupIdt_irq (i : Fin NR_IRQS) : setupIdt L idt (IRQ_BASE_VECTOR.toNat + i.val) = irqGate L i := by
  have hi : i.val < 16 := i.isLt
  rw [setupIdt, Function.update_of_ne (by simp [IRQ_BASE_VECTOR]; omega), fill_at]

theorem setupIdt_syscall : setupIdt L idt SYSCALL_VECTOR.toNat =
    makeTrapGate (KERNEL_CS.setWidth 32) USER_PL L.syscallThunk := by
  rw [setupIdt, Function.update_self]

end Idt

/-! ## The stack of the kernel's task -/

theorem readWord_writeHalf (m : Memory386) (a : BitVec 32) (v : BitVec 16) :
    (readWord (writeHalf m a v) a).truncate 16 = v := by
  have hlow : writeHalf m a v a = v.extractLsb' 0 8 := by
    rw [writeHalf, BitVec.sub_self]
    rfl
  have hhigh : writeHalf m a v (a + 1) = v.extractLsb' 8 8 := by
    rw [writeHalf, BitVec.add_comm, BitVec.add_sub_cancel]
    rfl
  refine BitVec.eq_of_getLsbD_eq fun i hi => ?_
  rw [readWord, BitVec.truncate_eq_setWidth, BitVec.getLsbD_setWidth, decide_eq_true hi, Bool.true_and,
    BitVec.getLsbD_append, hlow, BitVec.getLsbD_append, hhigh]
  by_cases h8 : i < 8
  · rw [if_pos h8, BitVec.getLsbD_extractLsb', decide_eq_true h8, Bool.true_and, Nat.zero_add]
  · rw [if_neg h8, if_pos (by omega), BitVec.getLsbD_extractLsb', decide_eq_true (by omega),
      Bool.true_and, Nat.add_sub_cancel' (by omega)]

theorem writeHalf_apart (m : Memory386) {a x : BitVec 32} (v : BitVec 16) (h : 2 ≤ (x - a).toNat) :
    writeHalf m a v x = m x := by
  rw [writeHalf, if_neg (by omega)]

section Ready
variable (L : KernelLabels) (idt : Nat → Desc386) (m : Memory386)

theorem setupKernlTss_esp0 : readWord (setupKernlTss L m) (kernlTss L + TSS_ESP0) = L.kstack := by
  have hapart (k : BitVec 32) (hk : k.toNat < 4) :
      setupKernlTss L m (kernlTss L + TSS_ESP0 + k) =
        writeWord m (kernlTss L + TSS_ESP0) L.kstack (kernlTss L + TSS_ESP0 + k) := by
    refine writeHalf_apart _ _ ?_
    rw [TSS_ESP0, TSS_SS0]
    bv_omega
  have hzero := hapart 0 (by decide)
  rw [BitVec.ofNat_eq_ofNat, BitVec.add_zero] at hzero
  rw [readWord, hapart 3 (by decide), hapart 2 (by decide), hapart 1 (by decide), hzero]
  exact readWord_writeWord ..

theorem setupKernlTss_ss0 :
    (readWord (setupKernlTss L m) (kernlTss L + TSS_SS0)).truncate 16 = KERNEL_DS :=
  readWord_writeHalf ..

/-- The tables that `setup_cpu` leaves. -/
structure TablesReady (t : Tables386) : Prop where
  idt_limit : t.idt.limit = 2047
  idt_desc : t.idt.desc = setupIdt L idt
  gdt_limit : t.gdt.limit = 63
  kernel_cs : t.gdt.desc 2 = loadedGdt 2
  kernel_ds : t.gdt.desc 3 = loadedGdt 3
  emerg_tss : t.gdt.desc 7 = 0
  task : t.tr = makeTssDesc KERNEL_PL (kernlTss L)
  memory : t.mem = setupKernlTss L (setupEmergTss L m)

theorem validateGdt_loaded : validateGdt loadedGdt = .ok () := by decide

/-- The processor has marked the task as running. -/
def runningTask : Tables386 :=
  { describeTask L idt m with
    tr := makeTssDesc KERNEL_PL (kernlTss L)
    gdt := ⟨63, Function.update (describeTask L idt m).gdt.desc 6
      (Desc386.setBusy (makeTssDesc KERNEL_PL (kernlTss L)))⟩ }

theorem loadTask_described : (describeTask L idt m).loadTask KERNEL_TSS = .ok (runningTask L idt m) := by
  obtain ⟨havailable, hpresent, -⟩ := makeTssDesc_task KERNEL_PL (kernlTss L)
  have hselect : (describeTask L idt m).gdt.select KERNEL_TSS =
      some (makeTssDesc KERNEL_PL (kernlTss L)) := rfl
  rw [Tables386.loadTask, if_neg (by decide), hselect]
  dsimp only
  rw [havailable, hpresent]
  rfl

theorem loadLocal_described : (describeLdt L (runningTask L idt m)).loadLocal KERNEL_LDT = .ok () := by
  obtain ⟨hsystem, htype, hpresent⟩ := makeLdtDesc_local KERNEL_PL L.ldt 7
  have hselect : (describeLdt L (runningTask L idt m)).gdt.select KERNEL_LDT =
      some (makeLdtDesc KERNEL_PL L.ldt 7) := rfl
  rw [Tables386.loadLocal, if_neg (by decide), hselect]
  dsimp only
  rw [hsystem, htype, hpresent]
  rfl

theorem setupCpu_ready : ∃ t, setupCpu L idt m = .ok t ∧ TablesReady L idt m t := by
  refine ⟨describeLdt L (runningTask L idt m), ?_, ⟨rfl, rfl, rfl, rfl, rfl, rfl, rfl, rfl⟩⟩
  rw [setupCpu, validateGdt_loaded, loadTask_described]
  change (onFault (Tables386.loadLocal _ _)).bind _ = _
  rw [loadLocal_described]
  rfl

end Ready

end Ohwes

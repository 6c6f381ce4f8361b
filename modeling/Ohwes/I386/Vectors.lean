import Ohwes.I386.Cpu

/-! # Where interrupts lead

The tables of `setup_cpu`, read the way the processor reads them. Every vector that the kernel has a
function for leads there, on the kernel's stack, but for the double fault: the task that it switches to has
no descriptor. Two of the reserved exceptions have the function of another one. -/

namespace Ohwes
open Library
set_option autoImplicit false

/-! ## The vectors of the kernel -/

/-- A function of the kernel behind a vector: the level that `int` may name it from, and whether
interrupts are off in it. -/
structure KernelGate where
  dpl : BitVec 2
  entry : BitVec 32
  disables : Bool

def kernelGate (L : KernelLabels) (vector : BitVec 8) : Option KernelGate :=
  if h : vector.toNat < NR_EXCEPTIONS then
    if vector.toNat = DOUBLE_FAULT then none
    else some ⟨if vector.toNat = BREAKPOINT then 3 else 0, L.exceptThunk (thunkIn ⟨vector.toNat, h⟩), false⟩
  else if h : (vector - IRQ_BASE_VECTOR).toNat < NR_IRQS then
    some ⟨0, L.irqThunk ⟨(vector - IRQ_BASE_VECTOR).toNat, h⟩, true⟩
  else if vector.toNat = SYSCALL_VECTOR.toNat then some ⟨3, L.syscallThunk, false⟩
  else none

/-- The linker puts no function at address zero. -/
structure Linked (L : KernelLabels) : Prop where
  exceptions : ∀ i, L.exceptThunk i ≠ 0
  irqs : ∀ i, L.irqThunk i ≠ 0
  syscall : L.syscallThunk ≠ 0

/-- The labels of a small kernel. -/
def smallKernel : KernelLabels where
  exceptThunk i := 0xC0101000 + BitVec.ofNat 32 (16 * i.val)
  irqThunk i := 0xC0102000 + BitVec.ofNat 32 (16 * i.val)
  syscallThunk := 0xC0103000
  pageDir := 0x00110000
  kstack := 0xC0114000
  estack := 0xC0116000
  tssTable := 0xC0108000
  ldt := 0xC0108100

theorem smallKernel_linked : Linked smallKernel where
  exceptions := by decide
  irqs := by decide
  syscall := by decide

def KernelGate.target (g : KernelGate) (L : KernelLabels) : Entry386 :=
  .handler (idtGate g.entry L.kstack g.disables)

section Ready
variable {L : KernelLabels} {idt : Nat → Desc386} {m : Memory386} {t : Tables386}
  (h : TablesReady L idt m t)
include h

/-! ## The way into the kernel -/

theorem select_kernel_cs : t.gdt.select KERNEL_CS = some (loadedGdt 2) := by
  have hin : 8 * selectorIndex KERNEL_CS + 7 ≤ t.gdt.limit := by
    rw [h.gdt_limit]
    decide
  rw [DescTable386.select, if_neg (by decide), DescTable386.get, if_pos hin]
  exact congrArg some h.kernel_cs

theorem select_kernel_ds : t.gdt.select KERNEL_DS = some (loadedGdt 3) := by
  have hin : 8 * selectorIndex KERNEL_DS + 7 ≤ t.gdt.limit := by
    rw [h.gdt_limit]
    decide
  rw [DescTable386.select, if_neg (by decide), DescTable386.get, if_pos hin]
  exact congrArg some h.kernel_ds

theorem select_emerg_tss : t.gdt.select EMERG_TSS = some 0 := by
  have hin : 8 * selectorIndex EMERG_TSS + 7 ≤ t.gdt.limit := by
    rw [h.gdt_limit]
    decide
  rw [DescTable386.select, if_neg (by decide), DescTable386.get, if_pos hin]
  exact congrArg some h.emerg_tss

/-- The stack in the task of the kernel. -/
theorem task_stack : readWord t.mem (Desc386.base t.tr + 4) = L.kstack ∧
    (readWord t.mem (Desc386.base t.tr + 8)).truncate 16 = KERNEL_DS := by
  obtain ⟨-, -, hbase, -⟩ := makeTssDesc_task KERNEL_PL (kernlTss L)
  rw [h.memory, h.task, hbase]
  exact ⟨setupKernlTss_esp0 .., setupKernlTss_ss0 ..⟩

theorem innerStack_ready (src : Source386) : innerStack t src = .ok (L.kstack, KERNEL_DS) := by
  obtain ⟨-, -, -, hsize⟩ := makeTssDesc_task KERNEL_PL (kernlTss L)
  obtain ⟨hesp, hss⟩ := task_stack h
  rw [innerStack, hss, hesp, h.task, hsize, if_neg (by decide), if_neg (by decide), select_kernel_ds h]
  rfl

/-- The kernel's code is at level zero, so every other level gets its stack. -/
theorem enterCode_ready (cpl : BitVec 2) (src : Source386) (type : BitVec 4)
    (dpl handler : BitVec 32) (disables : Bool) :
    enterCode t cpl src (makeGate type (KERNEL_CS.setWidth 32) dpl handler) disables =
      .ok (.handler (idtGate handler L.kstack disables)) := by
  obtain ⟨-, -, hselector, -, hlow, hhigh, -⟩ := makeGate_fields type (KERNEL_CS.setWidth 32) dpl handler
  obtain ⟨hesp, hss⟩ := task_stack h
  have hcs : Desc386.selector (makeGate type (KERNEL_CS.setWidth 32) dpl handler) = KERNEL_CS := hselector
  have hoffset : Desc386.offset (makeGate type (KERNEL_CS.setWidth 32) dpl handler) = handler := by
    rw [Desc386.offset, hlow, hhigh]
    exact offset_parts handler
  have hlevel : ¬ (Desc386.code (loadedGdt 2) = false ∨ cpl < Desc386.dpl (loadedGdt 2)) := by
    have hcode : Desc386.code (loadedGdt 2) = true := by decide
    have hdpl : Desc386.dpl (loadedGdt 2) = 0 := by decide
    rw [hcode, hdpl]
    rintro (hfalse | hlt)
    · cases hfalse
    · exact BitVec.not_lt_zero hlt
  rw [enterCode, hcs, hoffset, hesp, hss, if_neg (by decide), select_kernel_cs h]
  dsimp only
  rw [if_neg hlevel, if_neg (by decide), innerStack_ready h]
  split
  · rfl
  · rfl

/-- What a gate of a function of the kernel does. -/
theorem enter_gate (cpl : BitVec 2) (src : Source386) {vector : BitVec 8} {type : BitVec 4}
    {dpl handler : BitVec 32}
    (hgate : t.idt.get vector.toNat = some (makeGate type (KERNEL_CS.setWidth 32) dpl handler))
    (htype : type = DESCTYPE_INTR32 ∨ type = DESCTYPE_TRAP32) (hnull : handler ≠ 0) :
    enter t cpl src vector =
      if src = .software ∧ dpl.setWidth 2 < cpl then .error (.protection (vectorCode src vector))
      else .ok (.handler (idtGate handler L.kstack (type == DESCTYPE_INTR32))) := by
  obtain ⟨hfield, hsystem, -, hdpl, -, -, hpresent⟩ :=
    makeGate_fields type (KERNEL_CS.setWidth 32) dpl handler
  rw [if_pos hnull] at hpresent
  rw [enter, hgate]
  dsimp only
  rw [Desc386.memory, Desc386.type, Desc386.dpl, Desc386.present, hfield, hsystem, hdpl, hpresent]
  have hkind : ¬ (((0 : BitVec 1) == 1) = true ∨ ¬ (type = 5 ∨ type = 14 ∨ type = 15)) ∧ type ≠ 5 := by
    rcases htype with rfl | rfl
    · decide
    · decide
  rw [if_neg hkind.1, if_neg (by decide : ¬ ((1 : BitVec 1) == 1) = false), if_neg hkind.2,
    enterCode_ready h]
  rfl

/-- The gates are in the table. -/
theorem get_kernelGate {vector : BitVec 8} {g : KernelGate} (hg : kernelGate L vector = some g) :
    ∃ type dpl, t.idt.get vector.toNat =
        some (makeGate type (KERNEL_CS.setWidth 32) dpl g.entry) ∧
      (type = DESCTYPE_INTR32 ∨ type = DESCTYPE_TRAP32) ∧ (type == DESCTYPE_INTR32) = g.disables ∧
      dpl.setWidth 2 = g.dpl := by
  have hget : t.idt.get vector.toNat = some (setupIdt L idt vector.toNat) := by
    have hlt := vector.isLt
    rw [DescTable386.get, h.idt_limit, if_pos (by omega), h.idt_desc]
  rw [hget]
  unfold kernelGate at hg
  split at hg
  · next hlow =>
    split at hg
    · cases hg
    · next hdouble =>
      cases hg
      refine ⟨DESCTYPE_TRAP32, if vector.toNat = BREAKPOINT then USER_PL else KERNEL_PL, ?_, .inr rfl,
        rfl, ?_⟩
      · rw [setupIdt_exception L idt ⟨vector.toNat, hlow⟩, exceptionGate, if_neg hdouble,
          L.exceptionThunks_eq]
        rfl
      · split
        · rfl
        · rfl
  · split at hg
    · next hlow hirq =>
      cases hg
      have hvector : IRQ_BASE_VECTOR.toNat + (vector - IRQ_BASE_VECTOR).toNat = vector.toNat := by
        rw [IRQ_BASE_VECTOR, NR_EXCEPTIONS] at *
        bv_omega
      refine ⟨DESCTYPE_INTR32, KERNEL_PL, ?_, .inl rfl, rfl, rfl⟩
      rw [← hvector, setupIdt_irq L idt ⟨(vector - IRQ_BASE_VECTOR).toNat, hirq⟩]
      rfl
    · split at hg
      · next hsyscall =>
        cases hg
        refine ⟨DESCTYPE_TRAP32, USER_PL, ?_, .inr rfl, rfl, rfl⟩
        rw [hsyscall, setupIdt_syscall]
        rfl
      · cases hg

theorem enter_kernelGate (hL : Linked L) (cpl : BitVec 2) (src : Source386) {vector : BitVec 8}
    {g : KernelGate} (hg : kernelGate L vector = some g) :
    enter t cpl src vector =
      if src = .software ∧ g.dpl < cpl then .error (.protection (vectorCode src vector))
      else .ok (g.target L) := by
  have hnull : g.entry ≠ 0 := by
    unfold kernelGate at hg
    split_ifs at hg
    · cases hg
      exact hL.exceptions _
    · cases hg
      exact hL.exceptions _
    · cases hg
      exact hL.irqs _
    · cases hg
      exact hL.syscall
  obtain ⟨type, dpl, hget, htype, hdisables, hdpl⟩ := get_kernelGate h hg
  rw [enter_gate h cpl src hget htype hnull, hdpl, hdisables]
  rfl

/-- The task that the double fault switches to has no descriptor. -/
theorem enter_double_fault (cpl : BitVec 2) :
    enter t cpl .external DOUBLE_FAULT_VECTOR = .error (.protection (EMERG_TSS ||| 1)) := by
  have hget : t.idt.get DOUBLE_FAULT_VECTOR.toNat =
      some (makeTaskGate (EMERG_TSS.setWidth 32) KERNEL_PL) := by
    rw [DescTable386.get, h.idt_limit, if_pos (by decide), h.idt_desc]
    exact congrArg some ((setupIdt_exception L idt ⟨8, by decide⟩).trans (if_pos rfl))
  have hselector : Desc386.selector (makeTaskGate (EMERG_TSS.setWidth 32) KERNEL_PL) = EMERG_TSS := by
    decide
  rw [enter, hget]
  dsimp only
  rw [if_neg (by decide), if_neg fun hand => Source386.noConfusion hand.1, if_neg (by decide),
    if_pos (by decide), enterTask, hselector, select_emerg_tss h]
  rfl

end Ready

/-! ## The system -/

section System
variable {L : KernelLabels} {idt : Nat → Desc386} {m : Memory386} {t : Tables386}

theorem setupCpu_tables (hsetup : setupCpu L idt m = .ok t) : TablesReady L idt m t := by
  obtain ⟨u, hu, hready⟩ := setupCpu_ready L idt m
  rw [hu] at hsetup
  cases hsetup
  exact hready

/-- Whatever memory held before, every vector that the kernel has a function for leads to that function
(1Bh to that of 19h and 1Dh to that of 1Ch) on the kernel's stack, from any level, by an exception or a
device. A program gets there with `int` from the levels that its gate allows, and from the others it gets
a protection fault for the vector. -/
theorem vectors_enter (hsetup : setupCpu L idt m = .ok t) (hL : Linked L) (cpl : BitVec 2)
    {vector : BitVec 8} {g : KernelGate} (hg : kernelGate L vector = some g) :
    interrupt386 t cpl .external vector = .entered vector none (g.target L) ∧
    interrupt386 t cpl .software vector =
      if g.dpl < cpl then
        .entered 13 (some (vectorCode .software vector))
          (.handler (idtGate (L.exceptThunk 13) L.kstack false))
      else .entered vector none (g.target L) := by
  have hready := setupCpu_tables hsetup
  have hfault : enter t cpl .external 13 =
      .ok (.handler (idtGate (L.exceptThunk 13) L.kstack false)) :=
    (enter_kernelGate hready hL cpl .external (rfl : kernelGate L 13 = some _)).trans (if_neg (by simp))
  constructor
  · rw [interrupt386, enter_kernelGate hready hL cpl .external hg, if_neg (by simp)]
  · rw [interrupt386, enter_kernelGate hready hL cpl .software hg]
    by_cases hlevel : g.dpl < cpl
    · rw [if_pos ⟨rfl, hlevel⟩, if_pos hlevel]
      dsimp only
      rw [if_neg (by simp), if_neg (by simp), Fault386.vector, hfault]
      rfl
    · rw [if_neg fun hand => hlevel hand.2, if_neg hlevel]

/-- The keyboard's interrupt, and a program that asks for its vector. -/
theorem vectors_enter_keyboard : ∃ t, setupCpu smallKernel (fun _ => 0) (fun _ => 0) = .ok t ∧
    interrupt386 t 3 .external 0x21 = .entered 0x21 none (.handler (idtGate 0xC0102010 0xC0114000 true)) ∧
    interrupt386 t 3 .software 0x21 =
      .entered 13 (some 266) (.handler (idtGate 0xC01010D0 0xC0114000 false)) := by
  obtain ⟨t, hsetup, -⟩ := setupCpu_ready smallKernel (fun _ => 0) (fun _ => 0)
  obtain ⟨hexternal, hsoftware⟩ := vectors_enter hsetup smallKernel_linked 3
    (rfl : kernelGate smallKernel 0x21 = some ⟨0, 0xC0102010, true⟩)
  exact ⟨t, hsetup, hexternal, hsoftware⟩

/-- A double fault, and every fault that becomes one, resets the machine. -/
theorem double_fault_shuts_down (hsetup : setupCpu L idt m = .ok t) (cpl : BitVec 2) :
    interrupt386 t cpl .external DOUBLE_FAULT_VECTOR = .shutdown ∧ doubleFault t cpl = .shutdown := by
  have henter := enter_double_fault (setupCpu_tables hsetup) cpl
  constructor
  · rw [interrupt386, henter]
    rfl
  · rw [doubleFault, henter]

theorem double_fault_shuts_down_user : ∃ t, setupCpu smallKernel (fun _ => 0) (fun _ => 0) = .ok t ∧
    interrupt386 t 3 .external DOUBLE_FAULT_VECTOR = .shutdown ∧ doubleFault t 3 = .shutdown := by
  obtain ⟨t, hsetup, -⟩ := setupCpu_ready smallKernel (fun _ => 0) (fun _ => 0)
  exact ⟨t, hsetup, double_fault_shuts_down hsetup 3⟩

end System

/-! ## Ports -/

section Task
variable (L : KernelLabels) (m : Memory386)

/-- A byte of the task of the kernel. -/
def taskByte (k : Nat) : BitVec 8 :=
  if 4 ≤ k ∧ k < 8 then L.kstack.extractLsb' (8 * (k - 4)) 8
  else if 8 ≤ k ∧ k < 10 then KERNEL_DS.extractLsb' (8 * (k - 8)) 8
  else 0

/-- The task of the double fault is in front of it. -/
theorem setupEmergTss_apart {k : BitVec 32} (hk : k.toNat < 108) :
    setupEmergTss L m (kernlTss L + k) = m (kernlTss L + k) := by
  have hsub (off : BitVec 32) (hoff : off.toNat ≤ 0x54) :
      4 ≤ (kernlTss L + k - (L.tssTable + off)).toNat := by
    rw [kernlTss, TSS_SIZE]
    bv_omega
  rw [setupEmergTss]
  rw [writeHalf_apart _ _ (le_trans (by decide) (hsub TSS_ES (by decide))),
    writeHalf_apart _ _ (le_trans (by decide) (hsub TSS_DS (by decide))),
    writeHalf_apart _ _ (le_trans (by decide) (hsub TSS_SS (by decide))),
    writeHalf_apart _ _ (le_trans (by decide) (hsub TSS_CS (by decide))),
    writeWord_apart _ _ (hsub TSS_EIP (by decide)), writeWord_apart _ _ (hsub TSS_EBP (by decide)),
    writeWord_apart _ _ (hsub TSS_ESP (by decide)), writeWord_apart _ _ (hsub TSS_CR3 (by decide))]

/-- The memory of the task is zero but for the stack. -/
theorem setupKernlTss_byte (hbss : ∀ k : BitVec 32, k.toNat < 108 → m (kernlTss L + k) = 0)
    {k : BitVec 32} (hk : k.toNat < 108) :
    setupKernlTss L (setupEmergTss L m) (kernlTss L + k) = taskByte L k.toNat := by
  have hesp : (kernlTss L + k - (kernlTss L + TSS_ESP0)).toNat =
      if 4 ≤ k.toNat then k.toNat - 4 else k.toNat + 2 ^ 32 - 4 := by
    rw [TSS_ESP0]
    split
    · bv_omega
    · bv_omega
  have hss : (kernlTss L + k - (kernlTss L + TSS_SS0)).toNat =
      if 8 ≤ k.toNat then k.toNat - 8 else k.toNat + 2 ^ 32 - 8 := by
    rw [TSS_SS0]
    split
    · bv_omega
    · bv_omega
  rw [setupKernlTss, writeHalf, hss, writeWord, hesp, setupEmergTss_apart L m hk, hbss k hk, taskByte]
  by_cases h8 : 8 ≤ k.toNat
  · rw [if_pos h8, if_neg (by omega : ¬ (4 ≤ k.toNat ∧ k.toNat < 8)), if_pos (by omega : 4 ≤ k.toNat),
      if_neg (by omega : ¬ k.toNat - 4 < 4)]
    by_cases h10 : k.toNat < 10
    · rw [if_pos (by omega), if_pos ⟨h8, h10⟩]
    · rw [if_neg (by omega), if_neg (by omega)]
  · rw [if_neg h8, if_neg (by omega)]
    by_cases h4 : 4 ≤ k.toNat
    · rw [if_pos h4, if_pos (by omega), if_pos (by omega)]
    · rw [if_neg h4, if_neg (by omega), if_neg (by omega), if_neg (by omega)]

theorem taskByte_bit (port : Nat) : (taskByte L (port / 8)).getLsbD (port % 8) = false ↔
    port ∉ [67, 68] ∧ ¬ (32 ≤ port ∧ L.kstack.getLsbD (port - 32) = true) := by
  have hmod : port % 8 < 8 := Nat.mod_lt _ (by decide)
  rw [taskByte]
  split
  · next hstack =>
    have hport : 8 * (port / 8 - 4) + port % 8 = port - 32 := by omega
    have hnot : port ∉ [67, 68] := by
      simp only [List.mem_cons, List.not_mem_nil, or_false]
      omega
    rw [BitVec.getLsbD_extractLsb', decide_eq_true hmod, Bool.true_and, hport, ← Bool.not_eq_true]
    exact ⟨fun hbit => ⟨hnot, fun hand => hbit hand.2⟩, fun hand hbit => hand.2 ⟨by omega, hbit⟩⟩
  · next hstack =>
    have hfree : ¬ (32 ≤ port ∧ L.kstack.getLsbD (port - 32) = true) := by
      rintro ⟨hlow, hbit⟩
      rw [BitVec.getLsbD_of_ge _ _ (by omega)] at hbit
      cases hbit
    rw [and_iff_left hfree]
    split
    · next hseg =>
      have hbits : ∀ p < 80, 64 ≤ p → ((KERNEL_DS.extractLsb' (8 * (p / 8 - 8)) 8).getLsbD (p % 8) =
          false ↔ p ∉ [67, 68]) := by decide
      exact hbits port (by omega) (by omega)
    · refine iff_of_true BitVec.getLsbD_zero ?_
      simp only [List.mem_cons, List.not_mem_nil, or_false]
      omega

end Task

/-- The task has no place for the base of its map of ports, so the map is the task itself. Once the
memory of the task is cleared, a program can use exactly the ports below 856 whose bits in the kernel's
stack pointer and data segment are clear. -/
theorem user_ports_iff {L : KernelLabels} {idt : Nat → Desc386} {m : Memory386} {t : Tables386}
    (hsetup : setupCpu L idt m = .ok t)
    (hbss : ∀ k : BitVec 32, k.toNat < 108 → m (kernlTss L + k) = 0) (port : BitVec 16) :
    portPermitted t port ↔ port.toNat < 856 ∧ port.toNat ∉ [67, 68] ∧
      ¬ (32 ≤ port.toNat ∧ L.kstack.getLsbD (port.toNat - 32) = true) := by
  have hready := setupCpu_tables hsetup
  obtain ⟨-, -, hbase, hsize⟩ := makeTssDesc_task KERNEL_PL (kernlTss L)
  have hbyte {k : BitVec 32} (hk : k.toNat < 108) : t.mem (kernlTss L + k) = taskByte L k.toNat := by
    rw [hready.memory]
    exact setupKernlTss_byte L m hbss hk
  have hmap : readWord t.mem (kernlTss L + IO_MAP_BASE) = 0 := by
    have hat (k : BitVec 32) (hk : k.toNat < 4) : t.mem (kernlTss L + IO_MAP_BASE + k) = 0 := by
      have hin : (IO_MAP_BASE + k).toNat = 102 + k.toNat := by
        rw [IO_MAP_BASE]
        bv_omega
      rw [BitVec.add_assoc, hbyte (by omega), hin, taskByte, if_neg (by omega), if_neg (by omega)]
    have hzero := hat 0 (by decide)
    rw [BitVec.ofNat_eq_ofNat, BitVec.add_zero] at hzero
    rw [readWord, hat 3 (by decide), hat 2 (by decide), hat 1 (by decide), hzero]
    rfl
  rw [portPermitted, hready.task, hbase, hsize, hmap]
  have hport := port.isLt
  have hzero : (BitVec.truncate 16 (0 : BitVec 32)).toNat = 0 := rfl
  rw [hzero, Nat.zero_add]
  constructor
  · rintro ⟨hlimit, hbit⟩
    have hoff : (BitVec.ofNat 32 (port.toNat / 8)).toNat = port.toNat / 8 := by
      rw [BitVec.toNat_ofNat]
      omega
    rw [hbyte (by omega), hoff] at hbit
    exact ⟨by omega, (taskByte_bit L _).mp hbit⟩
  · rintro ⟨hlimit, hbits⟩
    have hoff : (BitVec.ofNat 32 (port.toNat / 8)).toNat = port.toNat / 8 := by
      rw [BitVec.toNat_ofNat]
      omega
    refine ⟨by omega, ?_⟩
    rw [hbyte (by omega), hoff]
    exact (taskByte_bit L _).mpr hbits

/-- A program can mask interrupts, and it cannot set the mode of the timer. -/
theorem user_ports_small : ∃ t, setupCpu smallKernel (fun _ => 0) (fun _ => 0) = .ok t ∧
    portPermitted t 0x21 ∧ ¬ portPermitted t 0x43 := by
  obtain ⟨t, hsetup, -⟩ := setupCpu_ready smallKernel (fun _ => 0) (fun _ => 0)
  have hports := user_ports_iff hsetup fun _ _ => rfl
  exact ⟨t, hsetup, (hports 0x21).mpr (by decide), fun hport => absurd ((hports 0x43).mp hport) (by decide)⟩

end Ohwes

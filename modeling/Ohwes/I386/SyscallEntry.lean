import Ohwes.I386.InterruptReturn

/-! # System calls are dispatched by their number

The frame of the common interrupt handler doubles as the parameters of the system call. The check of
the number lets one too many through, the number of entries itself (`syscall_dispatched_iff`). -/

namespace Ohwes
open Library
set_option autoImplicit false

/-! ## The call -/

/-- The function of a system call of `c` is called: the registers of `c` are its parameters. -/
structure SyscallCalled (addr : EntryLabel → BitVec 32) (c u : Cpu386) : Prop where
  ret : readWord u.mem (u.gpr .esp) = addr .sysLeave
  param0 : readWord u.mem (u.gpr .esp + 4) = c.gpr .ebx
  param1 : readWord u.mem (u.gpr .esp + 8) = c.gpr .ecx
  param2 : readWord u.mem (u.gpr .esp + 12) = c.gpr .edx
  param3 : readWord u.mem (u.gpr .esp + 16) = c.gpr .esi
  param4 : readWord u.mem (u.gpr .esp + 20) = c.gpr .edi

/-- The C function comes back as the calling convention has it, and its parameters are as they were.
What lies above them on the stack is its caller's. -/
structure SyscallReturns (u v : Cpu386) : Prop where
  esp : v.gpr .esp = u.gpr .esp + 4
  eip : v.eip = readWord u.mem (u.gpr .esp)
  cs : v.seg .cs = u.seg .cs
  ss : v.seg .ss = u.seg .ss
  nested : flag v.eflags NT = false
  params : ∀ k : BitVec 32, k < 20 → v.mem (u.gpr .esp + 4 + k) = u.mem (u.gpr .esp + 4 + k)
  above : ∀ k : BitVec 32, 20 ≤ k → k < SIZEOF_IREGS →
    v.mem (u.gpr .esp + 4 + k) = u.mem (u.gpr .esp + 4 + k)

/-- What a trap of `c` into the system calls leads to, from its delivery `c0` on. -/
structure SyscallDispatched (addr : EntryLabel → BitVec 32) (c c0 : Cpu386) : Prop where
  served : ∀ s, syscallTable[(c.gpr .eax).toNat]? = some s →
    ∃ u, Exits (entryCode addr) (idtThunk none SYSCALL_VECTOR) c0 (.label (.handler s)) u ∧
      SyscallCalled addr c u ∧
      ∀ v, SyscallReturns u v → v.eip = addr .sysLeave ∧
        ∃ d, Exits (entryCode addr) sysLeave v .returned d ∧ Resumed d (c.setGpr .eax (v.gpr .eax))
  refused : syscallTable.length ≤ (c.gpr .eax).toNat →
    ∃ d, Exits (entryCode addr) (idtThunk none SYSCALL_VECTOR) c0 .returned d ∧
      Resumed d (c.setGpr .eax (BitVec.ofInt 32 (-ENOSYS)))
  inside : ∀ l u, Exits (entryCode addr) (idtThunk none SYSCALL_VECTOR) c0 (.label l) u →
    ∃ s, syscallTable[(c.gpr .eax).toNat]? = some s ∧ l = .handler s

/-! ## The number -/

/-- The trap of `c` has come as far as the check of its number. -/
structure NumberChecked (c y : Cpu386) (b : BitVec 32) : Prop where
  esp : y.gpr .esp = b
  eax : y.gpr .eax = c.gpr .eax
  below : (flag y.eflags CF || flag y.eflags ZF) = decide (c.gpr .eax ≤ NR_SYSCALLS)
  nested : flag y.eflags NT = false
  frame : Frame y.mem b c
  level : rpl (y.seg .cs) = 0
  kernel : rpl (c.seg .cs) = 0 → c.gpr .esp = b + 92 ∧ y.seg .ss = c.seg .ss
  real : flag c.eflags VM = false

/-- `syscall_trampoline` from the check on. -/
def afterCheck : List EntryLine :=
  [.jbe .sysEnter,
    .op (.movImm (BitVec.ofInt 32 (-ENOSYS)) .eax),
    .jmp .returnFromSyscall]

section Check
variable (addr : EntryLabel → BitVec 32) {s c t c0 : Cpu386} {b : BitVec 32}

theorem handleInterrupt_traps (h : Saved s c t b) (hvec : readWord s.mem (b + 72) = SYSCALL_VECTOR) :
    ∃ x, Leads (entryCode addr) handleInterrupt t syscallTrampoline x ∧ x.gpr .esp = b ∧
      x.gpr .ecx = b ∧ x.seg = t.seg ∧ x.mem = t.mem ∧ flag x.eflags NT = false := by
  obtain ⟨hesp, hecx, heax, hseg, hmem, hsf⟩ := fetchVector_spec h
  have hfetch : Leads (entryCode addr) handleInterrupt t _ _ :=
    leads_ops [.mov .esp .ecx, .load IREGS_VEC .esp .eax, .test .eax .eax] _ t
  have hnt := execAll_nested [.mov .esp .ecx, .load IREGS_VEC .esp .eax, .test .eax .eax] t
  generalize execAll [.mov .esp .ecx, .load IREGS_VEC .esp .eax, .test .eax .eax] t = w at *
  rw [hvec] at heax hsf
  have hpast : flag w.eflags SF = false := hsf.trans (by decide)
  have hzf : flag (execAll [.cmp SYSCALL_VECTOR .eax] w).eflags ZF = true := by
    simp [execAll, Op386.exec, Cpu386.flagged, flag_setFlag, heax, ZF, SF]
  refine ⟨execAll [.cmp SYSCALL_VECTOR .eax] w, hfetch.trans ((leads_js_past _ _ hpast).trans
    ((leads_ops [.cmp _ _] _ w).trans (leads_jz _ hzf rfl))), hesp, hecx, hseg, hmem, ?_⟩
  rw [execAll_nested, hnt, h.nested]

theorem fetchSyscall_spec {x : Cpu386} (h : x.gpr .ecx = b) :
    let y := execAll fetchSyscall x
    y.gpr .esp = x.gpr .esp ∧ y.gpr .eax = readWord x.mem (b + IREGS_EAX) ∧ y.seg = x.seg ∧
      y.mem = x.mem ∧ (flag y.eflags CF || flag y.eflags ZF) =
        decide (readWord x.mem (b + IREGS_EAX) ≤ NR_SYSCALLS) := by
  have hcheck := cmp_below_or_equal NR_SYSCALLS .eax ((Op386.load IREGS_EAX .ecx .eax).exec x)
  have hload : ((Op386.load IREGS_EAX .ecx .eax).exec x).gpr .eax = readWord x.mem (b + IREGS_EAX) := by
    rw [← h]
    exact x.setGpr_same ..
  rw [hload] at hcheck
  have hesp : ((Op386.load IREGS_EAX .ecx .eax).exec x).gpr .esp = x.gpr .esp :=
    x.setGpr_other (by decide) _
  exact ⟨hesp, hload, rfl, rfl, hcheck⟩

theorem syscall_number_checked {entry kstack : BitVec 32} {interrupt : Bool} {csHigh ssHigh : BitVec 16}
    (h : c.deliver (idtGate entry kstack interrupt) csHigh ssHigh none = some c0) :
    ∃ b y, Leads (entryCode addr) (idtThunk none SYSCALL_VECTOR) c0 afterCheck y ∧
      NumberChecked c y b := by
  obtain ⟨b, s, hthunk, hs, hvec, hcs, hvm⟩ := deliver_spec addr SYSCALL_VECTOR h
  obtain ⟨t, hrecv, ht⟩ := recvInterrupt_saves addr hs
  obtain ⟨x, htrap, hesp, hecx, hseg, hmem, hnt⟩ := handleInterrupt_traps addr ht hvec
  obtain ⟨hyesp, hyeax, hyseg, hymem, hbelow⟩ := fetchSyscall_spec hecx
  have hfetch : Leads (entryCode addr) syscallTrampoline x afterCheck (execAll fetchSyscall x) :=
    leads_ops fetchSyscall afterCheck x
  have hnumber : readWord x.mem (b + IREGS_EAX) = c.gpr .eax := by rw [hmem, ht.frame.eax]
  have hsegs : (execAll fetchSyscall x).seg = s.seg := by rw [hyseg, hseg, ht.seg]
  refine ⟨b, _, hthunk.trans (hrecv.trans (htrap.trans hfetch)), ?_⟩
  exact {
    esp := hyesp.trans hesp
    eax := hyeax.trans hnumber
    below := by rw [hbelow, hnumber]
    nested := (execAll_nested fetchSyscall x).trans hnt
    frame := by
      rw [hymem, hmem]
      exact ht.frame
    level := by
      rw [hsegs, hcs]
      exact (by decide : rpl KERNEL_CS = 0)
    kernel := fun hlow => by
      rw [hsegs]
      exact hs.kernel hlow
    real := hvm }

end Check

/-! ## Both ways on -/

section Ways
variable (addr : EntryLabel → BitVec 32) {c y : Cpu386} {b : BitVec 32}

theorem NumberChecked.refused (h : NumberChecked c y b) (hn : ¬ c.gpr .eax ≤ NR_SYSCALLS) :
    ∃ d, Exits (entryCode addr) afterCheck y .returned d ∧
      Resumed d (c.setGpr .eax (BitVec.ofInt 32 (-ENOSYS))) := by
  have hpast : (flag y.eflags CF || flag y.eflags ZF) = false := by
    rw [h.below, decide_eq_false hn]
  have hesp : (y.setGpr .eax (BitVec.ofInt 32 (-ENOSYS))).gpr .esp = b :=
    (y.setGpr_other (by decide) _).trans h.esp
  obtain ⟨d, hexit, hd⟩ := returnFromSyscall_resumes addr
    (v := y.setGpr .eax (BitVec.ofInt 32 (-ENOSYS))) h.frame hesp h.level h.nested h.real h.kernel
  rw [Cpu386.setGpr_same] at hd
  exact ⟨d, (leads_jbe_past _ _ hpast).exits ((leads_ops [.movImm _ _] [.jmp _] y).exits
    ((leads_jmp [] _ rfl).exits hexit)), hd⟩

/-- A frame is not touched by what is pushed below it. -/
theorem Frame.pushed {m : Memory386} (hf : Frame m b c) (v : BitVec 32) :
    Frame (writeWord m (b - 4) v) b c := by
  refine hf.congr fun k hk => ?_
  simp only [IREGS_SS] at hk
  refine readWord_writeWord_apart _ _ ?_ ?_
  · rw [show b + k - (b - 4) = k + 4 by bv_omega]
    bv_omega
  · rw [show b - 4 - (b + k) = -4 - k by bv_omega]
    bv_omega

theorem NumberChecked.enters (h : NumberChecked c y b) (hn : c.gpr .eax ≤ NR_SYSCALLS) :
    ∃ u, Leads (entryCode addr) afterCheck y [.jmpTable syscallWords .eax] u ∧
      u.gpr .eax = c.gpr .eax ∧ u.gpr .esp = b - 4 ∧ u.seg = y.seg ∧
      readWord u.mem (b - 4) = addr .sysLeave ∧ Frame u.mem b c := by
  have hbelow : (flag y.eflags CF || flag y.eflags ZF) = true := by
    rw [h.below, decide_eq_true hn]
  have heax : (y.setGpr .esp (y.gpr .esp - 4)).gpr .eax = y.gpr .eax := y.setGpr_other (by decide) _
  have hesp : (y.setGpr .esp (y.gpr .esp - 4)).gpr .esp = y.gpr .esp - 4 := y.setGpr_same ..
  refine ⟨execAll (enterSyscall (addr .sysLeave)) y, (leads_jbe _ hbelow rfl).trans
    (leads_ops (enterSyscall (addr .sysLeave)) _ y), heax.trans h.eax, ?_, rfl, ?_, ?_⟩
  · rw [← h.esp]
    exact hesp
  · rw [← h.esp]
    exact readWord_writeWord ..
  · have hpush := h.frame.pushed (addr .sysLeave)
    rw [← h.esp] at hpush ⊢
    exact hpush

variable {addr} in
theorem syscallCalled_of_frame {u : Cpu386} (hesp : u.gpr .esp = b - 4)
    (hret : readWord u.mem (b - 4) = addr .sysLeave) (hf : Frame u.mem b c) :
    SyscallCalled addr c u := by
  have hoff (k j : BitVec 32) (hk : k = j + 4) : u.gpr .esp + k = b + j := by
    rw [hesp, hk]
    bv_omega
  exact {
    ret := by rw [hesp, hret]
    param0 := by rw [hoff 4 IREGS_EBX rfl, hf.ebx]
    param1 := by rw [hoff 8 IREGS_ECX rfl, hf.ecx]
    param2 := by rw [hoff 12 IREGS_EDX rfl, hf.edx]
    param3 := by rw [hoff 16 IREGS_ESI rfl, hf.esi]
    param4 := by rw [hoff 20 IREGS_EDI rfl, hf.edi] }

/-- The function's result is what the caller finds in `eax`. -/
theorem sysLeave_resumes {u v : Cpu386} (h : NumberChecked c y b) (hesp : u.gpr .esp = b - 4)
    (hseg : u.seg = y.seg) (hf : Frame u.mem b c) (hv : SyscallReturns u v) :
    ∃ d, Exits (entryCode addr) sysLeave v .returned d ∧ Resumed d (c.setGpr .eax (v.gpr .eax)) := by
  have hbase : u.gpr .esp + 4 = b := by
    rw [hesp]
    bv_omega
  have hbytes : ∀ k : BitVec 32, k < SIZEOF_IREGS → v.mem (b + k) = u.mem (b + k) := by
    intro k hk
    rw [← hbase]
    by_cases hparam : k < 20
    · exact hv.params k hparam
    · exact hv.above k (BitVec.not_lt.mp hparam) hk
  have hnested : flag (Op386.cli.exec v).eflags NT = false := (exec_nested v .cli).trans hv.nested
  have hlevel : rpl (v.seg .cs) = 0 := by rw [hv.cs, hseg, h.level]
  obtain ⟨d, hexit, hd⟩ := returnFromSyscall_resumes addr (v := Op386.cli.exec v) (hf.of_bytes hbytes)
    (hv.esp.trans hbase) hlevel hnested h.real fun hlow => by
      obtain ⟨hold, hss⟩ := h.kernel hlow
      exact ⟨hold, (hv.ss.trans (congrFun hseg .ss)).trans hss⟩
  exact ⟨d, (leads_ops [.cli] [.jmp _] v).exits ((leads_jmp [] _ rfl).exits hexit), hd⟩

end Ways

/-! ## The table -/

theorem syscallWords_handler {k : Nat} {s : Syscall} (h : syscallTable[k]? = some s) :
    syscallWords[k]? = some (.handler s) := by
  have hk : k < (syscallTable.map EntryLabel.handler).length := by
    rw [List.length_map]
    exact (List.getElem?_eq_some_iff.mp h).1
  rw [syscallWords, List.append_assoc, List.getElem?_append_left hk, List.getElem?_map, h]
  rfl

/-- The thunk of the first exception stands where the table ends. -/
theorem syscallWords_end : syscallWords[syscallTable.length]? = some (.exceptThunk 0) := rfl

theorem toNat_NR_SYSCALLS : NR_SYSCALLS.toNat = syscallTable.length := by decide

/-- A number that has passed the check is not wrapped by the scaling. -/
theorem scaled_index {n : BitVec 32} (h : n ≤ NR_SYSCALLS) : (4 * n).toNat / 4 = n.toNat := by
  have hle : n.toNat ≤ 9 := h
  bv_omega

/-! ## Dispatch -/

section Dispatch
variable {addr : EntryLabel → BitVec 32} {entry kstack : BitVec 32} {csHigh ssHigh : BitVec 16}
  {c c0 : Cpu386}

/-- A system call goes as it should but for the one number that the check lets through and that has no
entry. -/
theorem syscall_dispatched_iff
    (h : c.deliver (idtGate entry kstack false) csHigh ssHigh none = some c0) :
    SyscallDispatched addr c c0 ↔ c.gpr .eax ≠ NR_SYSCALLS := by
  obtain ⟨b, y, hthunk, hy⟩ := syscall_number_checked addr h
  have hcalls {l : EntryLabel} (hle : c.gpr .eax ≤ NR_SYSCALLS)
      (hword : syscallWords[(c.gpr .eax).toNat]? = some l) (hl : entryCode addr l = none) :
      ∃ u, Exits (entryCode addr) (idtThunk none SYSCALL_VECTOR) c0 (.label l) u ∧
        SyscallCalled addr c u ∧ u.gpr .esp = b - 4 ∧ u.seg = y.seg ∧ Frame u.mem b c := by
    obtain ⟨u, hlead, heax, hesp, hseg, hret, hf⟩ := hy.enters addr hle
    rw [← scaled_index hle, ← heax] at hword
    exact ⟨u, hthunk.exits (hlead.exits (exits_jmpTable [] hword hl)),
      syscallCalled_of_frame hesp hret hf, hesp, hseg, hf⟩
  constructor
  · intro hd heq
    have hword : syscallWords[(c.gpr .eax).toNat]? = some (.exceptThunk 0) := by
      rw [heq]
      exact syscallWords_end
    obtain ⟨u, hexit, -⟩ := hcalls (heq ▸ BitVec.le_refl _) hword rfl
    obtain ⟨s, -, hs⟩ := hd.inside _ u hexit
    cases hs
  · intro hne
    by_cases hle : c.gpr .eax ≤ NR_SYSCALLS
    · have hlt : (c.gpr .eax).toNat < syscallTable.length := by
        have hnat : (c.gpr .eax).toNat ≠ NR_SYSCALLS.toNat := fun heq => hne (BitVec.eq_of_toNat_eq heq)
        rw [← toNat_NR_SYSCALLS]
        exact Nat.lt_of_le_of_ne hle hnat
      have hentry := List.getElem?_eq_getElem hlt
      obtain ⟨u, hexit, hcalled, hesp, hseg, hf⟩ := hcalls hle (syscallWords_handler hentry) rfl
      refine ⟨fun s hs => ?_, fun hlarge => absurd hlt (Nat.not_lt.mpr hlarge), fun l w hw => ?_⟩
      · obtain rfl : _ = s := Option.some.inj (hentry.symm.trans hs)
        refine ⟨u, hexit, hcalled, fun v hv => ⟨?_, sysLeave_resumes addr hy hesp hseg hf hv⟩⟩
        rw [hv.eip, hcalled.ret]
      · obtain ⟨heq, -⟩ := hexit.unique hw
        cases heq
        exact ⟨_, hentry, rfl⟩
    · obtain ⟨d, hexit, hd⟩ := hy.refused addr hle
      have hlarge : syscallTable.length ≤ (c.gpr .eax).toNat := by
        rw [← toNat_NR_SYSCALLS]
        exact Nat.le_of_not_le hle
      refine ⟨fun s hs => ?_, fun _ => ⟨d, hthunk.exits hexit, hd⟩, fun l w hw => ?_⟩
      · rw [List.getElem?_eq_none hlarge] at hs
        cases hs
      · obtain ⟨heq, -⟩ := (hthunk.exits hexit).unique hw
        cases heq

end Dispatch

/-! ## Two calls -/

/-- User code that asks for system call `n`. -/
def callingCpu (n : BitVec 32) : Cpu386 := userCpu.setGpr .eax n

theorem syscall_dispatched_read :
    ∃ c0, (callingCpu 1).deliver (idtGate 0xC0001000 0xC0090000 false) 0 0 none = some c0 ∧
      SyscallDispatched (fun _ => 0xC0002000) (callingCpu 1) c0 := by
  have hdeliver : (callingCpu 1).deliver (idtGate 0xC0001000 0xC0090000 false) 0 0 none = some _ := rfl
  exact ⟨_, hdeliver, (syscall_dispatched_iff hdeliver).mpr (by decide)⟩

/-- The number behind the last one runs the thunk of an exception. -/
theorem syscall_behind_table :
    ∃ c0, (callingCpu 9).deliver (idtGate 0xC0001000 0xC0090000 false) 0 0 none = some c0 ∧
      ¬ SyscallDispatched (fun _ => 0xC0002000) (callingCpu 9) c0 := by
  have hdeliver : (callingCpu 9).deliver (idtGate 0xC0001000 0xC0090000 false) 0 0 none = some _ := rfl
  refine ⟨_, hdeliver, fun hd => ?_⟩
  obtain ⟨b, y, hthunk, hy⟩ := syscall_number_checked (fun _ => 0xC0002000) hdeliver
  obtain ⟨u, hlead, heax, -⟩ := hy.enters (fun _ => 0xC0002000) (by decide)
  have hword : syscallWords[(4 * u.gpr .eax).toNat / 4]? = some (.exceptThunk 0) := by
    rw [heax]
    rfl
  obtain ⟨s, -, hs⟩ := hd.inside _ u (hthunk.exits (hlead.exits (exits_jmpTable [] hword rfl)))
  cases hs

end Ohwes

import Ohwes.I386.Entry

/-! # Interrupts return to what they interrupted

The frame that the common interrupt handler builds holds the registers of the interrupted code
(`Frame`), and the return path takes them from it (`interrupt_returns`). -/

namespace Ohwes
open Library
set_option autoImplicit false

/-! ## The frame -/

/-- The `iregs` structure at `b` holds the registers of `c`, the stack pointer's apart. -/
structure FrameHead (m : Memory386) (b : BitVec 32) (c : Cpu386) : Prop where
  ebx : readWord m (b + IREGS_EBX) = c.gpr .ebx
  ecx : readWord m (b + IREGS_ECX) = c.gpr .ecx
  edx : readWord m (b + IREGS_EDX) = c.gpr .edx
  esi : readWord m (b + IREGS_ESI) = c.gpr .esi
  edi : readWord m (b + IREGS_EDI) = c.gpr .edi
  ebp : readWord m (b + IREGS_EBP) = c.gpr .ebp
  eax : readWord m (b + IREGS_EAX) = c.gpr .eax
  ds : (readWord m (b + IREGS_DS)).truncate 16 = c.seg .ds
  es : (readWord m (b + IREGS_ES)).truncate 16 = c.seg .es
  fs : (readWord m (b + IREGS_FS)).truncate 16 = c.seg .fs
  gs : (readWord m (b + IREGS_GS)).truncate 16 = c.seg .gs
  eip : readWord m (b + IREGS_EIP) = c.eip
  cs : (readWord m (b + IREGS_CS)).truncate 16 = c.seg .cs
  eflags : readWord m (b + IREGS_EFLAGS) = c.eflags

structure Frame (m : Memory386) (b : BitVec 32) (c : Cpu386) : Prop extends FrameHead m b c where
  esp : readWord m (b + IREGS_ESP) = c.gpr .esp
  ss : (readWord m (b + IREGS_SS)).truncate 16 = c.seg .ss

section Frame
variable {m m' : Memory386} {b : BitVec 32} {c : Cpu386}

theorem FrameHead.congr
    (h : ∀ k : BitVec 32, k ≤ IREGS_EFLAGS → readWord m' (b + k) = readWord m (b + k))
    (hf : FrameHead m b c) : FrameHead m' b c where
  ebx := by rw [h _ (by decide), hf.ebx]
  ecx := by rw [h _ (by decide), hf.ecx]
  edx := by rw [h _ (by decide), hf.edx]
  esi := by rw [h _ (by decide), hf.esi]
  edi := by rw [h _ (by decide), hf.edi]
  ebp := by rw [h _ (by decide), hf.ebp]
  eax := by rw [h _ (by decide), hf.eax]
  ds := by rw [h _ (by decide), hf.ds]
  es := by rw [h _ (by decide), hf.es]
  fs := by rw [h _ (by decide), hf.fs]
  gs := by rw [h _ (by decide), hf.gs]
  eip := by rw [h _ (by decide), hf.eip]
  cs := by rw [h _ (by decide), hf.cs]
  eflags := by rw [h _ (by decide), hf.eflags]

theorem Frame.congr (h : ∀ k : BitVec 32, k ≤ IREGS_SS → readWord m' (b + k) = readWord m (b + k))
    (hf : Frame m b c) : Frame m' b c where
  toFrameHead := hf.toFrameHead.congr fun k hk => h k (BitVec.le_trans hk (by decide))
  esp := by rw [h _ (by decide), hf.esp]
  ss := by rw [h _ (by decide), hf.ss]

/-- A frame is what its 72 bytes say. -/
theorem Frame.of_bytes (h : ∀ k : BitVec 32, k < SIZEOF_IREGS → m' (b + k) = m (b + k))
    (hf : Frame m b c) : Frame m' b c := by
  refine hf.congr fun k hk => ?_
  have hbyte (i : BitVec 32) (hi : i ≤ 3) : m' (b + k + i) = m (b + k + i) := by
    rw [BitVec.add_assoc]
    refine h (k + i) ?_
    simp only [SIZEOF_IREGS, IREGS_SS] at hk ⊢
    bv_omega
  have hlow : m' (b + k) = m (b + k) := by simpa using hbyte 0 (by decide)
  rw [readWord, readWord, hbyte 3 (by decide), hbyte 2 (by decide), hbyte 1 (by decide), hlow]

end Frame

/-! ## Saving -/

/-- What the processor and the thunk leave of `c`: all registers but the stack pointer, and the words
of `iret` behind the place of the frame. -/
structure Interrupted (s c : Cpu386) (b : BitVec 32) : Prop where
  esp : s.gpr .esp = b + 72
  gpr : ∀ r, r ≠ .esp → s.gpr r = c.gpr r
  seg : ∀ r, r ≠ .cs → r ≠ .ss → s.seg r = c.seg r
  nested : flag s.eflags NT = false
  eip : readWord s.mem (b + 80) = c.eip
  cs : (readWord s.mem (b + 84)).truncate 16 = c.seg .cs
  eflags : readWord s.mem (b + 88) = c.eflags
  kernel : rpl (c.seg .cs) = 0 → c.gpr .esp = b + 92 ∧ s.seg .ss = c.seg .ss
  user : rpl (c.seg .cs) ≠ 0 →
    readWord s.mem (b + 92) = c.gpr .esp ∧ (readWord s.mem (b + 96)).truncate 16 = c.seg .ss

/-- The check of the privilege level, on a selector that was pushed as a word. -/
theorem privilege_check {w : BitVec 32} {cs : BitVec 16} (h : w.truncate 16 = cs) :
    w &&& 3 = 0 ↔ rpl cs = 0 := by
  have hword : (w &&& 3).toNat = w.toNat % 4 := Nat.and_two_pow_sub_one_eq_mod w.toNat 2
  have hsel : (rpl cs).toNat = cs.toNat % 4 := Nat.and_two_pow_sub_one_eq_mod cs.toNat 2
  have hcs : cs.toNat = w.toNat % 2 ^ 16 := by rw [← h, BitVec.truncate_eq_setWidth, BitVec.toNat_setWidth]
  rw [← BitVec.toNat_inj, ← BitVec.toNat_inj, hword, hsel, hcs]
  rw [show (0 : BitVec 32).toNat = 0 from rfl, show (0 : BitVec 16).toNat = 0 from rfl]
  omega

section Save
variable {s c : Cpu386} {b : BitVec 32}

/-- The words that are stored before the check. -/
def savedWords (s : Cpu386) (b : BitVec 32) : List (BitVec 32 × BitVec 32) :=
  [(IREGS_EBX, s.gpr .ebx), (IREGS_ECX, s.gpr .ecx), (IREGS_EDX, s.gpr .edx), (IREGS_ESI, s.gpr .esi),
    (IREGS_EDI, s.gpr .edi), (IREGS_EBP, s.gpr .ebp), (IREGS_EAX, s.gpr .eax),
    (IREGS_DS, 0#16 ++ s.seg .ds), (IREGS_ES, 0#16 ++ s.seg .es), (IREGS_FS, 0#16 ++ s.seg .fs),
    (IREGS_GS, 0#16 ++ s.seg .gs), (IREGS_VEC, readWord s.mem (b + 72)),
    (IREGS_ERR, readWord s.mem (b + 76)), (IREGS_EFLAGS, readWord s.mem (b + 88)),
    (IREGS_EIP, readWord s.mem (b + 80)), (IREGS_CS, readWord s.mem (b + 84))]

theorem savedWords_behind (s : Cpu386) (b : BitVec 32) :
    (92 :: (savedWords s b).map (·.1)).Pairwise WordsApart ∧
      (96 :: (savedWords s b).map (·.1)).Pairwise WordsApart := by
  rw [savedWords]
  simp only [List.map_cons, List.map_nil]
  decide

theorem savedWords_apart (s : Cpu386) (b : BitVec 32) :
    ((savedWords s b).map (·.1)).Pairwise WordsApart := by
  rw [savedWords]
  simp only [List.map_cons, List.map_nil]
  decide

set_option maxRecDepth 2000 in
theorem saveRegisters_spec (h : s.gpr .esp = b + 72) :
    let t := execAll saveRegisters s
    t.gpr .esp = b ∧ t.seg = s.seg ∧ t.mem = storeWords s.mem b (savedWords s b) ∧
      (flag t.eflags ZF = (readWord s.mem (b + 84) &&& 3 == 0)) := by
  simp [execAll, saveRegisters, storeSegment, mem2mem, Op386.exec, Cpu386.setGpr, Cpu386.flagged, h,
    readWord_base, readWord_behind_base, flag_setFlag, ZF, SF, savedWords, storeWords]

theorem saved_head (h : Interrupted s c b) : FrameHead (storeWords s.mem b (savedWords s b)) b c := by
  have hword (k : Nat) {j v : BitVec 32} (hk : (savedWords s b)[k]? = some (j, v)) :
      readWord (storeWords s.mem b (savedWords s b)) (b + j) = v :=
    readWord_storeWords (savedWords_apart s b) (List.mem_of_getElem? hk)
  have hseg (r : Seg) (hcs : r ≠ .cs) (hss : r ≠ .ss) :
      (0#16 ++ s.seg r : BitVec 32).truncate 16 = c.seg r :=
    BitVec.setWidth_append_eq_right.trans (h.seg r hcs hss)
  exact {
    ebx := (hword 0 rfl).trans (h.gpr _ (by decide))
    ecx := (hword 1 rfl).trans (h.gpr _ (by decide))
    edx := (hword 2 rfl).trans (h.gpr _ (by decide))
    esi := (hword 3 rfl).trans (h.gpr _ (by decide))
    edi := (hword 4 rfl).trans (h.gpr _ (by decide))
    ebp := (hword 5 rfl).trans (h.gpr _ (by decide))
    eax := (hword 6 rfl).trans (h.gpr _ (by decide))
    ds := (congrArg _ (hword 7 rfl)).trans (hseg _ (by decide) (by decide))
    es := (congrArg _ (hword 8 rfl)).trans (hseg _ (by decide) (by decide))
    fs := (congrArg _ (hword 9 rfl)).trans (hseg _ (by decide) (by decide))
    gs := (congrArg _ (hword 10 rfl)).trans (hseg _ (by decide) (by decide))
    eflags := (hword 13 rfl).trans h.eflags
    eip := (hword 14 rfl).trans h.eip
    cs := (congrArg _ (hword 15 rfl)).trans h.cs }

theorem stackWords_apart (esp ss : BitVec 32) :
    ([(IREGS_ESP, esp), (IREGS_SS, ss)].map (·.1)).Pairwise WordsApart := by
  simp only [List.map_cons, List.map_nil]
  decide

/-- The stack pointer's words do not touch the others. -/
theorem FrameHead.with_stack {m : Memory386} {b esp ss : BitVec 32} {c : Cpu386} (h : FrameHead m b c)
    (hesp : esp = c.gpr .esp) (hss : ss.truncate 16 = c.seg .ss) :
    Frame (storeWords m b [(IREGS_ESP, esp), (IREGS_SS, ss)]) b c where
  toFrameHead := by
    refine h.congr fun k hk => readWord_storeWords_apart fun w hw => ?_
    simp only [IREGS_EFLAGS] at hk
    obtain rfl | rfl : w = (IREGS_ESP, esp) ∨ w = (IREGS_SS, ss) := by simpa using hw
    · exact ⟨by simp only [IREGS_ESP]; bv_omega, by simp only [IREGS_ESP]; bv_omega⟩
    · exact ⟨by simp only [IREGS_SS]; bv_omega, by simp only [IREGS_SS]; bv_omega⟩
  esp := (readWord_storeWords (stackWords_apart esp ss) (List.mem_cons_self ..)).trans hesp
  ss := by
    have hread : readWord (storeWords m b [(IREGS_ESP, esp), (IREGS_SS, ss)]) (b + IREGS_SS) = ss :=
      readWord_storeWords (stackWords_apart esp ss) (by simp)
    rw [hread, hss]

theorem saveUserStack_spec {t : Cpu386} (h : t.gpr .esp = b) :
    let u := execAll saveUserStack t
    u.gpr .esp = b ∧ u.seg = t.seg ∧ u.mem = storeWords t.mem b
      [(IREGS_ESP, readWord t.mem (b + 92)), (IREGS_SS, readWord t.mem (b + 96))] := by
  simp [execAll, saveUserStack, mem2mem, Op386.exec, Cpu386.setGpr, h, readWord_base, storeWords]

theorem saveKernelStack_spec {t : Cpu386} (h : t.gpr .esp = b) :
    let u := execAll saveKernelStack t
    u.gpr .esp = b ∧ u.seg = t.seg ∧ u.mem = storeWords t.mem b
      [(IREGS_ESP, b + 92), (IREGS_SS, 0#16 ++ t.seg .ss)] := by
  simp [execAll, saveKernelStack, storeSegment, Op386.exec, Cpu386.setGpr, Cpu386.flagged, h, storeWords]

/-- What is saved in either case. -/
structure Saved (s c t : Cpu386) (b : BitVec 32) : Prop where
  esp : t.gpr .esp = b
  seg : t.seg = s.seg
  nested : flag t.eflags NT = false
  vec : readWord t.mem (b + IREGS_VEC) = readWord s.mem (b + 72)
  frame : Frame t.mem b c

variable (addr : EntryLabel → BitVec 32)

/-- Either way to save the stack pointer completes the frame. -/
theorem Saved.complete {t u : Cpu386} {esp ss : BitVec 32} (h : Interrupted s c b)
    (ht : t = execAll saveRegisters s) {ops : List Op386} (hu : u = execAll ops t)
    (hesp : u.gpr .esp = b) (hseg : u.seg = t.seg)
    (hmem : u.mem = storeWords t.mem b [(IREGS_ESP, esp), (IREGS_SS, ss)])
    (hold : esp = c.gpr .esp) (hss : ss.truncate 16 = c.seg .ss) : Saved s c u b := by
  obtain ⟨-, hsegs, hwords, -⟩ := saveRegisters_spec h.esp
  have hhead := saved_head h
  rw [← ht] at hsegs hwords
  rw [← hwords] at hhead
  have hnested : flag u.eflags NT = false := by
    rw [hu, execAll_nested, ht, execAll_nested]
    exact h.nested
  refine ⟨hesp, hseg.trans hsegs, hnested, ?_, ?_⟩
  · have hapart : (IREGS_VEC :: [(IREGS_ESP, esp), (IREGS_SS, ss)].map (·.1)).Pairwise WordsApart := by
      simp only [List.map_cons, List.map_nil]
      decide
    rw [hmem, readWord_storeWords_behind hapart, hwords,
      readWord_storeWords (savedWords_apart s b) (List.mem_of_getElem? (i := 11) rfl)]
  · rw [hmem]
    exact hhead.with_stack hold hss

theorem recvInterrupt_saves (h : Interrupted s c b) :
    ∃ t, Leads (entryCode addr) recvInterrupt s handleInterrupt t ∧ Saved s c t b := by
  obtain ⟨hesp, hseg, hmem, hzf⟩ := saveRegisters_spec h.esp
  have hstart : Leads (entryCode addr) recvInterrupt s _ (execAll saveRegisters s) := leads_ops ..
  by_cases hkernel : rpl (c.seg .cs) = 0
  · have hz : flag (execAll saveRegisters s).eflags ZF = true := by
      rw [hzf, beq_iff_eq]
      exact (privilege_check h.cs).mpr hkernel
    obtain ⟨hold, hss⟩ := h.kernel hkernel
    obtain ⟨hesp', hseg', hmem'⟩ := saveKernelStack_spec hesp
    refine ⟨_, hstart.trans ((leads_jz _ hz rfl).trans ((leads_ops ..).trans (leads_jmp _ _ rfl))),
      Saved.complete h rfl rfl hesp' hseg' hmem' hold.symm ?_⟩
    rw [hseg]
    exact BitVec.setWidth_append_eq_right.trans hss
  · have hz : flag (execAll saveRegisters s).eflags ZF = false := by
      rw [hzf, beq_eq_false_iff_ne]
      exact fun hzero => hkernel ((privilege_check h.cs).mp hzero)
    obtain ⟨hold, hss⟩ := h.user hkernel
    obtain ⟨hesp', hseg', hmem'⟩ := saveUserStack_spec hesp
    obtain ⟨h92, h96⟩ := savedWords_behind s b
    refine ⟨_, hstart.trans ((leads_jz_past _ _ hz).trans ((leads_ops ..).trans (leads_jmp _ _ rfl))),
      Saved.complete h rfl rfl hesp' hseg' hmem' ?_ ?_⟩
    · rw [hmem, readWord_storeWords_behind h92]
      exact hold
    · rw [hmem, readWord_storeWords_behind h96]
      exact hss

end Save

/-! ## The handler -/

/-- The state in which the handler of an interrupt of `c` is called. -/
structure HandlerCalled (addr : EntryLabel → BitVec 32) (s c u : Cpu386) (b : BitVec 32) : Prop where
  esp : u.gpr .esp = b - 4
  ecx : u.gpr .ecx = b
  seg : u.seg = s.seg
  ret : readWord u.mem (b - 4) = addr .returnFromIrq
  frame : Frame u.mem b c

/-- The C function comes back: to the address that was pushed, with the stack, its segments and the
flag of nested tasks as the calling convention has them, and the frame as it was. -/
structure HandlerReturns (u v : Cpu386) : Prop where
  esp : v.gpr .esp = u.gpr .esp + 4
  eip : v.eip = readWord u.mem (u.gpr .esp)
  cs : v.seg .cs = u.seg .cs
  ss : v.seg .ss = u.seg .ss
  nested : flag v.eflags NT = false
  frame : ∀ k : BitVec 32, k < SIZEOF_IREGS → v.mem (u.gpr .ecx + k) = u.mem (u.gpr .ecx + k)

/-- The handler of a vector, which is negative for a device. -/
def handlerOf (vec : BitVec 32) : EntryLabel := if vec.msb then .handleIrq else .handleException

section Handle
variable (addr : EntryLabel → BitVec 32) {s c t : Cpu386} {b : BitVec 32}

variable {addr} in
theorem handlerCalled_of_saved {u : Cpu386} (h : Saved s c t b) (hecx : u.gpr .ecx = b)
    (hesp : u.gpr .esp = b - 4) (hseg : u.seg = t.seg)
    (hmem : u.mem = writeWord t.mem (b - 4) (addr .returnFromIrq)) : HandlerCalled addr s c u b where
  esp := hesp
  ecx := hecx
  seg := hseg.trans h.seg
  ret := by rw [hmem, readWord_writeWord]
  frame := by
    refine h.frame.congr fun k hk => ?_
    simp only [IREGS_SS] at hk
    rw [hmem]
    refine readWord_writeWord_apart _ _ ?_ ?_
    · rw [show b + k - (b - 4) = k + 4 by bv_omega]
      bv_omega
    · rw [show b - 4 - (b + k) = -4 - k by bv_omega]
      bv_omega

theorem fetchVector_spec (h : Saved s c t b) :
    let u := execAll [.mov .esp .ecx, .load IREGS_VEC .esp .eax, .test .eax .eax] t
    u.gpr .esp = b ∧ u.gpr .ecx = b ∧ u.gpr .eax = readWord s.mem (b + 72) ∧ u.seg = t.seg ∧
      u.mem = t.mem ∧ flag u.eflags SF = (readWord s.mem (b + 72)).msb := by
  simp [execAll, Op386.exec, Cpu386.setGpr, Cpu386.flagged, h.esp, h.vec, flag_setFlag, SF, -IREGS_VEC]

theorem handleInterrupt_calls (h : Saved s c t b)
    (hvec : readWord s.mem (b + 72) ≠ SYSCALL_VECTOR) :
    ∃ u, Exits (entryCode addr) handleInterrupt t (.label (handlerOf (readWord s.mem (b + 72)))) u ∧
      HandlerCalled addr s c u b := by
  obtain ⟨hesp, hecx, heax, hseg, hmem, hsf⟩ := fetchVector_spec h
  have hfetch : Leads (entryCode addr) handleInterrupt t _ _ :=
    leads_ops [.mov .esp .ecx, .load IREGS_VEC .esp .eax, .test .eax .eax] _ t
  generalize execAll [.mov .esp .ecx, .load IREGS_VEC .esp .eax, .test .eax .eax] t = w at *
  have hcalled (x : Cpu386) (hgpr : x.gpr = w.gpr) (hs : x.seg = w.seg) (hm : x.mem = w.mem) :
      HandlerCalled addr s c (execAll [.push (addr .returnFromIrq)] x) b := by
    refine handlerCalled_of_saved h ?_ ?_ (hs.trans hseg) ?_
    · simp [execAll, Op386.exec, Cpu386.push, Cpu386.setGpr, hgpr, hecx]
    · simp [execAll, Op386.exec, Cpu386.push, Cpu386.setGpr, hgpr, hesp]
    · simp [execAll, Op386.exec, Cpu386.push, hgpr, hesp, hm, hmem]
  cases hsign : (readWord s.mem (b + 72)).msb with
  | true =>
    rw [handlerOf, if_pos hsign]
    rw [hsign] at hsf
    exact ⟨_, hfetch.exits ((leads_js _ hsf rfl).exits ((leads_ops [.push _] _ w).exits
      (exits_jmp _ _ rfl))), hcalled w rfl rfl rfl⟩
  | false =>
    rw [handlerOf, if_neg (Bool.eq_false_iff.mp hsign)]
    rw [hsign] at hsf
    have hzf : flag (execAll [.cmp SYSCALL_VECTOR .eax] w).eflags ZF = false := by
      have hne : w.gpr .eax - SYSCALL_VECTOR ≠ 0 := fun hzero =>
        hvec (heax.symm.trans (by bv_omega))
      simp only [execAll, List.foldl_cons, List.foldl_nil, Op386.exec, Cpu386.flagged]
      rw [flag_setFlag _ _ _ (by decide), if_neg (by decide), flag_setFlag _ _ _ (by decide), if_pos rfl]
      exact beq_eq_false_iff_ne.mpr hne
    exact ⟨_, hfetch.exits ((leads_js_past _ _ hsf).exits ((leads_ops [.cmp _ _] _ w).exits
      ((leads_jz_past _ _ hzf).exits ((leads_jmp _ _ rfl).exits ((leads_ops [.push _] _ _).exits
        (exits_jmp _ _ rfl)))))), hcalled _ rfl rfl rfl⟩

end Handle

/-! ## Restoring -/

/-- The registers that a program sees. -/
def Resumed (d c : Cpu386) : Prop :=
  d.gpr = c.gpr ∧ d.seg = c.seg ∧ d.eip = c.eip ∧ d.eflags = c.eflags

/-- All registers but `eax` and the stack pointer's are back, and behind the frame stand the words of
`iret`. -/
structure Restored (w c : Cpu386) (b : BitVec 32) : Prop where
  esp : w.gpr .esp = b
  gpr : ∀ r, r ≠ .eax → r ≠ .esp → w.gpr r = c.gpr r
  seg : ∀ r, r ≠ .cs → r ≠ .ss → w.seg r = c.seg r
  level : rpl (w.seg .cs) = 0
  nested : flag w.eflags NT = false
  eax : readWord w.mem (b + IREGS_ERR) = c.gpr .eax
  eip : readWord w.mem (b + 80) = c.eip
  cs : (readWord w.mem (b + 84)).truncate 16 = c.seg .cs
  eflags : readWord w.mem (b + 88) = c.eflags
  kernel : rpl (c.seg .cs) = 0 → c.gpr .esp = b + 92 ∧ w.seg .ss = c.seg .ss
  user : rpl (c.seg .cs) ≠ 0 →
    readWord w.mem (b + 92) = c.gpr .esp ∧ (readWord w.mem (b + 96)).truncate 16 = c.seg .ss

section Restore
variable (addr : EntryLabel → BitVec 32) {c v w : Cpu386} {b : BitVec 32}

theorem dropFrame_spec (h : w.gpr .esp = b) :
    let x := execAll dropFrame w
    x.gpr .esp = b + 80 ∧ x.gpr .eax = readWord w.mem (b + IREGS_ERR) ∧
      (∀ r, r ≠ .eax → r ≠ .esp → x.gpr r = w.gpr r) ∧ x.seg = w.seg ∧ x.mem = w.mem := by
  simp +contextual [execAll, dropFrame, Op386.exec, Cpu386.setGpr, Cpu386.flagged, h, -IREGS_ERR]

theorem returnFromInterrupt_resumes (h : Restored w c b) (hvm : flag c.eflags VM = false) :
    ∃ d, Exits (entryCode addr) returnFromInterrupt w .returned d ∧ Resumed d c := by
  obtain ⟨hesp, heax, hgpr, hseg, hmem⟩ := dropFrame_spec h.esp
  have hnt : flag (execAll dropFrame w).eflags NT = flag w.eflags NT := execAll_nested ..
  have hdrop : Leads (entryCode addr) returnFromInterrupt w _ (execAll dropFrame w) := leads_ops ..
  generalize execAll dropFrame w = x at *
  have hoff (k j i : BitVec 32) (hkj : k + j = i) : b + k + j = b + i := by rw [BitVec.add_assoc, hkj]
  have heip : readWord x.mem (x.gpr .esp) = c.eip := by rw [hmem, hesp, h.eip]
  have hcs : (readWord x.mem (x.gpr .esp + 4)).truncate 16 = c.seg .cs := by
    rw [hmem, hesp, hoff 80 4 84 rfl, h.cs]
  have hfl : readWord x.mem (x.gpr .esp + 8) = c.eflags := by
    rw [hmem, hesp, hoff 80 8 88 rfl, h.eflags]
  have hgprs : ∀ r, r ≠ .esp → x.gpr r = c.gpr r := by
    intro r hr
    by_cases ha : r = .eax
    · rw [ha, heax, h.eax]
    · rw [hgpr r ha hr, h.gpr r ha hr]
  have hnested : flag x.eflags NT = false := hnt.trans h.nested
  have hlevel : rpl (x.seg .cs) = 0 := by rw [hseg, h.level]
  by_cases hkernel : rpl (c.seg .cs) = 0
  · obtain ⟨hold, hss⟩ := h.kernel hkernel
    have hiret := iret_same hnested hcs hfl hvm (hkernel.trans hlevel.symm)
    refine ⟨_, hdrop.exits (exits_iret _ hiret), ?_, ?_, heip, rfl⟩
    · refine Function.update_eq_iff.mpr ⟨?_, hgprs⟩
      rw [hesp, hoff 80 12 92 rfl, hold]
    · refine Function.update_eq_iff.mpr ⟨rfl, fun r hr => ?_⟩
      by_cases hstack : r = .ss
      · rw [hstack, hseg, hss]
      · rw [hseg, h.seg r hr hstack]
  · obtain ⟨hold, hss⟩ := h.user hkernel
    have hne : rpl (c.seg .cs) ≠ rpl (x.seg .cs) := by rwa [hlevel]
    have hlow : ¬ rpl (c.seg .cs) < rpl (x.seg .cs) := by
      rw [hlevel]
      exact BitVec.not_lt_zero
    have hiret := iret_outer hnested hcs hfl hvm hne hlow
    refine ⟨_, hdrop.exits (exits_iret _ hiret), ?_, ?_, heip, rfl⟩
    · refine Function.update_eq_iff.mpr ⟨?_, hgprs⟩
      rw [hmem, hesp, hoff 80 12 92 rfl, hold]
    · refine Function.update_eq_iff.mpr ⟨?_, fun r hr => ?_⟩
      · rw [hmem, hesp, hoff 80 16 96 rfl, hss]
      · by_cases hcode : r = .cs
        · rw [hcode, Function.update_self]
        · rw [Function.update_of_ne hcode, hseg, h.seg r hcode hr]

/-- The words that are stored for `iret` before the check, and `eax`. -/
def restoredWords (v : Cpu386) (b : BitVec 32) : List (BitVec 32 × BitVec 32) :=
  [(IREGS_ERR, v.gpr .eax), (88, readWord v.mem (b + IREGS_EFLAGS)),
    (80, readWord v.mem (b + IREGS_EIP)), (84, readWord v.mem (b + IREGS_CS))]

set_option maxRecDepth 2000 in
theorem restoreFrame_spec (h : v.gpr .esp = b) :
    let w := execAll restoreFrame v
    w.gpr .esp = b ∧ w.gpr .ebx = readWord v.mem (b + IREGS_EBX) ∧
      w.gpr .ecx = readWord v.mem (b + IREGS_ECX) ∧ w.gpr .edx = readWord v.mem (b + IREGS_EDX) ∧
      w.gpr .esi = readWord v.mem (b + IREGS_ESI) ∧ w.gpr .edi = readWord v.mem (b + IREGS_EDI) ∧
      w.gpr .ebp = readWord v.mem (b + IREGS_EBP) ∧
      w.seg .ds = (readWord v.mem (b + IREGS_DS)).truncate 16 ∧
      w.seg .es = (readWord v.mem (b + IREGS_ES)).truncate 16 ∧
      w.seg .fs = (readWord v.mem (b + IREGS_FS)).truncate 16 ∧
      w.seg .gs = (readWord v.mem (b + IREGS_GS)).truncate 16 ∧
      w.seg .cs = v.seg .cs ∧ w.seg .ss = v.seg .ss ∧
      flag w.eflags ZF = (readWord v.mem (b + IREGS_CS) &&& 3 == 0) ∧
      w.mem = storeWords v.mem b (restoredWords v b) := by
  simp [execAll, restoreFrame, loadSegment, mem2mem, Op386.exec, Cpu386.setGpr, Cpu386.setSeg,
    Cpu386.flagged, h, readWord_base, flag_setFlag, ZF, SF, restoredWords, storeWords]

theorem restoreUserStack_spec (h : w.gpr .esp = b) :
    let x := execAll restoreUserStack w
    (∀ r, r ≠ .eax → x.gpr r = w.gpr r) ∧ x.seg = w.seg ∧ x.eflags = w.eflags ∧
      x.mem = storeWords w.mem b
        [(92, readWord w.mem (b + IREGS_ESP)), (96, readWord w.mem (b + IREGS_SS))] := by
  simp +contextual [execAll, restoreUserStack, mem2mem, Op386.exec, Cpu386.setGpr, h, readWord_base,
    storeWords]

theorem restoredWords_apart (v : Cpu386) (b : BitVec 32) :
    ((restoredWords v b).map (·.1)).Pairwise WordsApart := by
  rw [restoredWords]
  simp only [List.map_cons, List.map_nil]
  decide

theorem restoredWords_before_stack {j u : BitVec 32} (h : (j, u) ∈ restoredWords v b) :
    WordsApart 92 j ∧ WordsApart 96 j := by
  simp only [restoredWords, List.mem_cons, Prod.mk.injEq, List.not_mem_nil, or_false] at h
  rcases h with ⟨rfl, -⟩ | ⟨rfl, -⟩ | ⟨rfl, -⟩ | ⟨rfl, -⟩ <;> decide

theorem restoredWords_behind (v : Cpu386) (b : BitVec 32) :
    (IREGS_ESP :: (restoredWords v b).map (·.1)).Pairwise WordsApart ∧
      (IREGS_SS :: (restoredWords v b).map (·.1)).Pairwise WordsApart := by
  rw [restoredWords]
  simp only [List.map_cons, List.map_nil]
  decide

theorem iretStack_apart (esp ss : BitVec 32) :
    ([((92 : BitVec 32), esp), (96, ss)].map (·.1)).Pairwise WordsApart := by
  simp only [List.map_cons, List.map_nil]
  decide

section Resume
variable (hf : Frame v.mem b c) (hesp : v.gpr .esp = b)
  (hlevel : rpl (v.seg .cs) = 0) (hnested : flag v.eflags NT = false) (hvm : flag c.eflags VM = false)
  (hkernel : rpl (c.seg .cs) = 0 → c.gpr .esp = b + 92 ∧ v.seg .ss = c.seg .ss)
include hf hesp hlevel hnested hvm hkernel

/-- The return path takes all registers but `eax` from the frame. -/
theorem returnFromSyscall_resumes :
    ∃ d, Exits (entryCode addr) returnFromSyscall v .returned d ∧
      Resumed d (c.setGpr .eax (v.gpr .eax)) := by
  have hstart : Leads (entryCode addr) returnFromSyscall v _ (execAll restoreFrame v) := leads_ops ..
  obtain ⟨hb, hebx, hecx, hedx, hesi, hedi, hebp, hds, hes, hfs, hgs, hcs, hss, hzf, hmem⟩ :=
    restoreFrame_spec hesp
  have hnt : flag (execAll restoreFrame v).eflags NT = flag v.eflags NT := execAll_nested ..
  have hret : (c.setGpr .eax (v.gpr .eax)).gpr .eax = v.gpr .eax := c.setGpr_same ..
  generalize execAll restoreFrame v = w at *
  have hword (k : Nat) {j u : BitVec 32} (hk : (restoredWords v b)[k]? = some (j, u)) :
      readWord w.mem (b + j) = u := by
    rw [hmem]
    exact readWord_storeWords (restoredWords_apart v b) (List.mem_of_getElem? hk)
  have hgpr : ∀ r, r ≠ .eax → r ≠ .esp → w.gpr r = c.gpr r := by
    intro r hra hrs
    cases r with
    | eax => exact absurd rfl hra
    | ebx => exact hebx.trans hf.ebx
    | ecx => exact hecx.trans hf.ecx
    | edx => exact hedx.trans hf.edx
    | esi => exact hesi.trans hf.esi
    | edi => exact hedi.trans hf.edi
    | ebp => exact hebp.trans hf.ebp
    | esp => exact absurd rfl hrs
  have hseg : ∀ r, r ≠ .cs → r ≠ .ss → w.seg r = c.seg r := by
    intro r hrc hrs
    cases r with
    | cs => exact absurd rfl hrc
    | ds => exact hds.trans hf.ds
    | es => exact hes.trans hf.es
    | fs => exact hfs.trans hf.fs
    | gs => exact hgs.trans hf.gs
    | ss => exact absurd rfl hrs
  -- the words of the stack pointer come on top in one of the two cases
  have hrestored (x : Cpu386) (hxesp : x.gpr .esp = b) (hxgpr : ∀ r, r ≠ .eax → x.gpr r = w.gpr r)
      (hxseg : x.seg = w.seg) (hxflags : x.eflags = w.eflags)
      (hxmem : ∀ k < 4, ∀ j u, (restoredWords v b)[k]? = some (j, u) → readWord x.mem (b + j) = u)
      (hk : rpl (c.seg .cs) = 0 → c.gpr .esp = b + 92 ∧ x.seg .ss = c.seg .ss)
      (hu : rpl (c.seg .cs) ≠ 0 → readWord x.mem (b + 92) = c.gpr .esp ∧
        (readWord x.mem (b + 96)).truncate 16 = c.seg .ss) :
      Restored x (c.setGpr .eax (v.gpr .eax)) b := {
    esp := hxesp
    gpr := fun r ha hs =>
      (hxgpr r ha).trans ((hgpr r ha hs).trans (c.setGpr_other ha _).symm)
    seg := fun r hc hs => (congrFun hxseg r).trans (hseg r hc hs)
    level := by rw [hxseg, hcs, hlevel]
    nested := by rw [hxflags, hnt, hnested]
    eax := (hxmem 0 (by decide) _ _ rfl).trans hret.symm
    eip := (hxmem 2 (by decide) _ _ rfl).trans hf.eip
    cs := (congrArg _ (hxmem 3 (by decide) _ _ rfl)).trans hf.cs
    eflags := (hxmem 1 (by decide) _ _ rfl).trans hf.eflags
    kernel := hk
    user := hu }
  by_cases hlow : rpl (c.seg .cs) = 0
  · have hz : flag w.eflags ZF = true := by
      rw [hzf, beq_iff_eq]
      exact (privilege_check hf.cs).mpr hlow
    obtain ⟨hold, hstack⟩ := hkernel hlow
    have hback := hrestored w hb (fun _ _ => rfl) rfl rfl (fun k _ j u hk => hword k hk)
      (fun _ => ⟨hold, hss.trans hstack⟩) (fun hne => absurd hlow hne)
    obtain ⟨d, hexit, hd⟩ := returnFromInterrupt_resumes addr hback hvm
    exact ⟨d, hstart.exits ((leads_jz _ hz rfl).exits hexit), hd⟩
  · have hz : flag w.eflags ZF = false := by
      rw [hzf, beq_eq_false_iff_ne]
      exact fun hzero => hlow ((privilege_check hf.cs).mp hzero)
    obtain ⟨hxgpr, hxseg, hxflags, hxmem⟩ := restoreUserStack_spec hb
    have huser : Leads (entryCode addr) _ w returnFromInterrupt (execAll restoreUserStack w) :=
      leads_ops ..
    generalize execAll restoreUserStack w = x at *
    have hback := hrestored x ((hxgpr _ (by decide)).trans hb) hxgpr hxseg hxflags ?_
      (fun hzero => absurd hzero hlow) (fun _ => ⟨?_, ?_⟩)
    · obtain ⟨d, hexit, hd⟩ := returnFromInterrupt_resumes addr hback hvm
      exact ⟨d, hstart.exits ((leads_jz_past _ _ hz).exits (huser.exits hexit)), hd⟩
    · intro k _ j u hk
      obtain ⟨h92, h96⟩ := restoredWords_before_stack (List.mem_of_getElem? hk)
      rw [hxmem, readWord_storeWords_apart, hword k hk]
      intro p hp
      obtain rfl | rfl : p = (92, _) ∨ p = (96, _) := by simpa using hp
      · exact h92
      · exact h96
    · rw [hxmem, readWord_storeWords (iretStack_apart _ _) (List.mem_cons_self ..), hmem,
        readWord_storeWords_behind (restoredWords_behind v b).1, hf.esp]
    · rw [hxmem, readWord_storeWords (iretStack_apart _ _) (List.mem_of_getElem? (i := 1) rfl), hmem,
        readWord_storeWords_behind (restoredWords_behind v b).2, hf.ss]

theorem returnFromIrq_resumes :
    ∃ d, Exits (entryCode addr) returnFromIrq v .returned d ∧ Resumed d c := by
  have hload : Leads (entryCode addr) returnFromIrq v returnFromSyscall
      (v.setGpr .eax (readWord v.mem (v.gpr .esp + IREGS_EAX))) :=
    leads_ops [.load IREGS_EAX .esp .eax] returnFromSyscall v
  obtain ⟨d, hexit, hd⟩ := returnFromSyscall_resumes addr
    (v := v.setGpr .eax (readWord v.mem (v.gpr .esp + IREGS_EAX))) hf hesp hlevel hnested hvm hkernel
  refine ⟨d, hload.exits hexit, ?_⟩
  have heax : readWord v.mem (v.gpr .esp + IREGS_EAX) = c.gpr .eax := by rw [hesp, hf.eax]
  rw [Cpu386.setGpr_same, heax, Cpu386.setGpr_gpr] at hd
  exact hd

end Resume
end Restore

/-! ## The interrupt -/

section Interrupt
variable (addr : EntryLabel → BitVec 32) {c c0 : Cpu386} {b : BitVec 32}

/-- The words that the processor and the thunk push, below those of the stack pointer. -/
def pushedWords (eflags cs eip err vec : BitVec 32) : List (BitVec 32 × BitVec 32) :=
  [(88, eflags), (84, cs), (80, eip), (76, err), (72, vec)]

/-- `x` is the state on the stack of the handler, and `cs` the selector as it is pushed. -/
theorem idtThunk_spec {x : Cpu386} (hx : x.gpr .esp = b + 92) (gate : Gate386)
    (eflags cs eip vec flags : BitVec 32) (errorCode : Option (BitVec 32)) :
    let pushed := ((x.push eflags).push cs).push eip
    ∃ s, Leads (entryCode addr) (idtThunk errorCode vec)
        { (errorCode.elim pushed pushed.push).setSeg .cs gate.selector with
          eip := gate.offset, eflags := flags } recvInterrupt s ∧
      s.gpr .esp = b + 72 ∧ (∀ r, r ≠ .esp → s.gpr r = x.gpr r) ∧
      s.seg = Function.update x.seg .cs gate.selector ∧ s.eflags = flags ∧
      s.mem = storeWords x.mem b (pushedWords eflags cs eip (errorCode.getD 0) vec) := by
  cases errorCode with
  | none =>
    refine ⟨_, (leads_ops [.push 0, .push vec] _ _).trans (leads_jmp _ _ rfl), ?_⟩
    simp +contextual [execAll, Op386.exec, Cpu386.push, Cpu386.setGpr, Cpu386.setSeg, hx, base_sub,
      pushedWords, storeWords]
  | some err =>
    refine ⟨_, (leads_ops [.push vec] _ _).trans (leads_jmp _ _ rfl), ?_⟩
    simp +contextual [execAll, Op386.exec, Cpu386.push, Cpu386.setGpr, Cpu386.setSeg, hx, base_sub,
      pushedWords, storeWords]

theorem pushedWords_apart (eflags cs eip err vec : BitVec 32) :
    (92 :: (pushedWords eflags cs eip err vec).map (·.1)).Pairwise WordsApart ∧
      (96 :: (pushedWords eflags cs eip err vec).map (·.1)).Pairwise WordsApart := by
  rw [pushedWords]
  simp only [List.map_cons, List.map_nil]
  decide

/-- The change to the stack of the handler, for code of an outer level. -/
def switchStack (c : Cpu386) (gate : Gate386) (ssHigh : BitVec 16) : Cpu386 :=
  (((c.setSeg .ss gate.ss0).setGpr .esp gate.esp0).push (ssHigh ++ c.seg .ss)).push (c.gpr .esp)

theorem switchStack_spec (c : Cpu386) {gate : Gate386} (ssHigh : BitVec 16) (h : gate.esp0 = b + 100) :
    let x := switchStack c gate ssHigh
    x.gpr .esp = b + 92 ∧ (∀ r, r ≠ .esp → x.gpr r = c.gpr r) ∧
      x.seg = Function.update c.seg .ss gate.ss0 ∧
      x.mem = storeWords c.mem b [(96, ssHigh ++ c.seg .ss), (92, c.gpr .esp)] := by
  simp +contextual [switchStack, Cpu386.push, Cpu386.setGpr, Cpu386.setSeg, h, base_sub, storeWords]

/-- The thunk is left with the words of `iret` in place, from either stack. -/
theorem interrupted_of_pushed {x s : Cpu386} {sel csHigh : BitVec 16} {err vec : BitVec 32}
    (hsesp : s.gpr .esp = b + 72) (hsgpr : ∀ r, r ≠ .esp → s.gpr r = x.gpr r)
    (hsseg : s.seg = Function.update x.seg .cs sel) (hsnested : flag s.eflags NT = false)
    (hsmem : s.mem = storeWords x.mem b (pushedWords c.eflags (csHigh ++ c.seg .cs) c.eip err vec))
    (hgpr : ∀ r, r ≠ .esp → x.gpr r = c.gpr r) (hseg : ∀ r, r ≠ .ss → x.seg r = c.seg r)
    (hkernel : rpl (c.seg .cs) = 0 → c.gpr .esp = b + 92 ∧ x.seg .ss = c.seg .ss)
    (huser : rpl (c.seg .cs) ≠ 0 → readWord x.mem (b + 92) = c.gpr .esp ∧
      (readWord x.mem (b + 96)).truncate 16 = c.seg .ss) :
    Interrupted s c b ∧ readWord s.mem (b + 72) = vec := by
  obtain ⟨h92, h96⟩ := pushedWords_apart c.eflags (csHigh ++ c.seg .cs) c.eip err vec
  have hword (k : Nat) {j u : BitVec 32}
      (hk : (pushedWords c.eflags (csHigh ++ c.seg .cs) c.eip err vec)[k]? = some (j, u)) :
      readWord s.mem (b + j) = u := by
    rw [hsmem]
    exact readWord_storeWords (List.pairwise_cons.mp h92).2 (List.mem_of_getElem? hk)
  refine ⟨?_, hword 4 rfl⟩
  exact {
    esp := hsesp
    gpr := fun r hr => (hsgpr r hr).trans (hgpr r hr)
    seg := fun r hc hs => by rw [hsseg, Function.update_of_ne hc, hseg r hs]
    nested := hsnested
    eip := hword 2 rfl
    cs := (congrArg _ (hword 1 rfl)).trans BitVec.setWidth_append_eq_right
    eflags := hword 0 rfl
    kernel := fun hlow => by
      rw [hsseg, Function.update_of_ne (by decide)]
      exact hkernel hlow
    user := fun hlow => by
      rw [hsmem, readWord_storeWords_behind h92, readWord_storeWords_behind h96]
      exact huser hlow }

/-- An interrupt leaves the flag of nested tasks off. -/
theorem delivered_nested (c : Cpu386) (gate : Gate386) :
    let flags := setFlag (setFlag (setFlag c.eflags TF false) NT false) RF false
    flag (if gate.disables then setFlag flags IF false else flags) NT = false := by
  cases gate.disables <;> simp [flag_setFlag, IF, TF, NT, RF]

theorem deliver_spec {gate : Gate386} {csHigh ssHigh : BitVec 16} {errorCode : Option (BitVec 32)}
    (vec : BitVec 32) (h : c.deliver gate csHigh ssHigh errorCode = some c0) :
    ∃ b s, Leads (entryCode addr) (idtThunk errorCode vec) c0 recvInterrupt s ∧
      Interrupted s c b ∧ readWord s.mem (b + 72) = vec ∧ s.seg .cs = gate.selector ∧
      flag c.eflags VM = false := by
  rw [Cpu386.deliver] at h
  split at h
  · cases h
  · rename_i hvm
    replace hvm := Bool.eq_false_iff.mpr hvm
    have hnested := delivered_nested c gate
    by_cases hlow : rpl (c.seg .cs) = 0
    · rw [if_pos hlow] at h
      cases h
      have hx : c.gpr .esp = c.gpr .esp - 92 + 92 := by bv_omega
      obtain ⟨s, hrun, hesp, hgpr, hseg, hflags, hmem⟩ := idtThunk_spec addr hx gate c.eflags
        (csHigh ++ c.seg .cs) c.eip vec _ errorCode
      obtain ⟨hs, hvec⟩ := interrupted_of_pushed hesp hgpr hseg (hflags ▸ hnested) hmem
        (fun _ _ => rfl) (fun _ _ => rfl) (fun _ => ⟨hx, rfl⟩) (fun hne => absurd hlow hne)
      exact ⟨_, s, hrun, hs, hvec, by rw [hseg, Function.update_self], hvm⟩
    · rw [if_neg hlow] at h
      cases h
      have htop : gate.esp0 = gate.esp0 - 100 + 100 := by bv_omega
      obtain ⟨hxesp, hxgpr, hxseg, hxmem⟩ := switchStack_spec c ssHigh htop
      obtain ⟨s, hrun, hesp, hgpr, hseg, hflags, hmem⟩ := idtThunk_spec addr hxesp gate c.eflags
        (csHigh ++ c.seg .cs) c.eip vec _ errorCode
      have hapart : ([((96 : BitVec 32), ssHigh ++ c.seg .ss), (92, c.gpr .esp)].map (·.1)).Pairwise
          WordsApart := by
        simp only [List.map_cons, List.map_nil]
        decide
      have hxs : ∀ r, r ≠ .ss → (switchStack c gate ssHigh).seg r = c.seg r := fun r hr => by
        rw [hxseg, Function.update_of_ne hr]
      obtain ⟨hs, hvec⟩ := interrupted_of_pushed hesp hgpr hseg (hflags ▸ hnested) hmem hxgpr hxs
        (fun hzero => absurd hzero hlow) (fun _ => by
          rw [hxmem, readWord_storeWords hapart (List.mem_of_getElem? (i := 1) rfl),
            readWord_storeWords hapart (List.mem_cons_self ..)]
          exact ⟨rfl, BitVec.setWidth_append_eq_right⟩)
      exact ⟨_, s, hrun, hs, hvec, by rw [hseg, Function.update_self], hvm⟩

/-- An interrupt of user or kernel code is served by its handler, and if that leaves the frame it is
passed as it was, the code goes on with all its registers as they were. -/
theorem interrupt_returns {entry kstack : BitVec 32} {interrupt : Bool} {csHigh ssHigh : BitVec 16}
    {errorCode : Option (BitVec 32)} {vec : BitVec 32} (hvec : vec ≠ SYSCALL_VECTOR)
    (h : c.deliver (idtGate entry kstack interrupt) csHigh ssHigh errorCode = some c0) :
    ∃ u, Exits (entryCode addr) (idtThunk errorCode vec) c0 (.label (handlerOf vec)) u ∧
      ∀ v, HandlerReturns u v → v.eip = addr .returnFromIrq ∧
        ∃ d, Exits (entryCode addr) returnFromIrq v .returned d ∧ Resumed d c := by
  obtain ⟨b, s, hthunk, hs, rfl, hcs, hvm⟩ := deliver_spec addr vec h
  obtain ⟨t, hrecv, ht⟩ := recvInterrupt_saves addr hs
  obtain ⟨u, hhandle, hu⟩ := handleInterrupt_calls addr ht hvec
  refine ⟨u, hthunk.exits (hrecv.exits hhandle), fun v hv => ⟨?_, ?_⟩⟩
  · rw [hv.eip, hu.esp, hu.ret]
  · have hframe := hv.frame
    rw [hu.ecx] at hframe
    refine returnFromIrq_resumes addr (hu.frame.of_bytes hframe) ?_ ?_ hv.nested hvm fun hlow => ?_
    · rw [hv.esp, hu.esp]
      bv_omega
    · rw [hv.cs, hu.seg, hcs]
      exact (by decide : rpl KERNEL_CS = 0)
    · obtain ⟨hold, hss⟩ := hs.kernel hlow
      exact ⟨hold, by rw [hv.ss, hu.seg, hss]⟩

end Interrupt

/-- A handler that does nothing but return. -/
def plainReturn (u : Cpu386) : Cpu386 :=
  { u.setGpr .esp (u.gpr .esp + 4) with
    eip := readWord u.mem (u.gpr .esp)
    eflags := setFlag u.eflags NT false }

theorem handlerReturns_plain (u : Cpu386) : HandlerReturns u (plainReturn u) where
  esp := by simp [plainReturn, Cpu386.setGpr]
  eip := rfl
  cs := rfl
  ss := rfl
  nested := (flag_setFlag u.eflags NT false (by decide)).trans (if_pos rfl)
  frame := fun _ _ => rfl

/-- User code with its registers numbered. -/
def userCpu : Cpu386 where
  gpr r := match r with
    | .eax => 1 | .ebx => 2 | .ecx => 3 | .edx => 4 | .esi => 5 | .edi => 6 | .ebp => 7 | .esp => 0x8000
  seg r := match r with
    | .cs => USER_CS | .ds => 0x2B | .es => 0x2B | .fs => 0 | .gs => 0 | .ss => 0x2B
  eip := 0x1000
  eflags := 0x202
  mem := fun _ => 0

theorem interrupt_returns_keyboard :
    ∃ c0 u d, userCpu.deliver (idtGate 0xC0001000 0xC0090000 true) 0 0 none = some c0 ∧
      Exits (entryCode fun _ => 0xC0002000) (idtThunk none (~~~ 1)) c0 (.label .handleIrq) u ∧
      HandlerReturns u (plainReturn u) ∧
      Exits (entryCode fun _ => 0xC0002000) returnFromIrq (plainReturn u) .returned d ∧
      Resumed d userCpu := by
  have hdeliver : userCpu.deliver (idtGate 0xC0001000 0xC0090000 true) 0 0 none = some _ := rfl
  obtain ⟨u, hcall, hreturn⟩ :=
    interrupt_returns (fun _ => 0xC0002000) (by decide : (~~~ 1 : BitVec 32) ≠ SYSCALL_VECTOR) hdeliver
  obtain ⟨-, d, hexit, hd⟩ := hreturn _ (handlerReturns_plain u)
  exact ⟨_, u, d, hdeliver, hcall, handlerReturns_plain u, hexit, hd⟩

end Ohwes

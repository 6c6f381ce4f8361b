import Ohwes.Boot.BootFile
import Ohwes.Boot.MemoryMap

/-! # What stage 2 does before it looks for the kernel

Each step writes to the stack and the memory of the BIOS, to variables of stage 2, to the last word of
the boot sector or to the table of the memory map, and to nothing else. Where a step does not go on,
the BIOS gave it a reason. -/

namespace Ohwes.Boot
open Library Fatfs
set_option autoImplicit false

/-! ## Bytes that stay -/

/-- No byte has changed outside of `S`. -/
def Stays (S : Nat → Prop) (m m' : Memory) : Prop := ∀ a, ¬ S a → m' a = m a

section Stays
variable {S T : Nat → Prop} {m m' m'' : Memory}

theorem Stays.refl (S : Nat → Prop) (m : Memory) : Stays S m m := fun _ _ => rfl

theorem Stays.trans (h : Stays S m m') (h' : Stays S m' m'') : Stays S m m'' :=
  fun a ha => (h' a ha).trans (h a ha)

theorem Stays.mono (h : Stays S m m') (hST : ∀ a, S a → T a) : Stays T m m' :=
  fun a ha => h a fun hs => ha (hST a hs)

theorem stays_overlay {start : Nat} {bytes : List Byte}
    (h : ∀ a, start ≤ a → a < start + bytes.length → S a) : Stays S m (overlay m start bytes) := by
  intro a ha
  by_cases hlow : a < start
  · exact overlay_before m bytes hlow
  · exact overlay_after m bytes (Nat.not_lt.mp fun hlt => ha (h a (Nat.not_lt.mp hlow) hlt))

theorem stays_afterCall {w : Workspace} (h : ∀ a, w.Scratch a → S a) (s : Memory) :
    Stays S m (w.afterCall s m) :=
  fun a ha => Workspace.afterCall_of_not s m fun hs => ha (h a hs)

theorem Stays.getPair_eq (h : Stays S m m') {a : Nat} (ha : ¬ S a) (ha' : ¬ S (a + 1)) :
    getPair m' a = getPair m a := by
  rw [getPair, getPair, h a ha, h (a + 1) ha']

variable {Q : Halt → Prop} {x : Call Memory}

theorem Stays.ensures (h : Stays S m m') (hx : Ensures (Stays S m') Q x) : Ensures (Stays S m) Q x :=
  hx.mono (fun _ h' => h.trans h') fun _ he => he

theorem stays_bind {f : Memory → Call Memory} (hx : Ensures (Stays S m) Q x)
    (hf : ∀ m', Ensures (Stays S m') Q (f m')) : Ensures (Stays S m) Q (x >>= f) :=
  hx.bind fun m' h => h.ensures (hf m')

end Stays

/-! ## Where stage 2 writes -/

/-- The variables, without `ebda_base` and `kb_low`, and what a call of the BIOS may write to. -/
def BootCode.Works (A : BootCode) (w : Workspace) (a : Nat) : Prop :=
  w.Scratch a ∨ A.tmpCursorRow ≤ a ∧ a < A.bootInfo ∨
    A.bootInfo + BI_MEM_MAP ≤ a ∧ a < A.bootInfo + BI_KB_LOW ∨
    A.bootInfo + BI_KB_HIGH ≤ a ∧ a < A.bootInfo + BI_SIZE

/-- With the last word of the boot sector and the table of the memory map. -/
def BootCode.Probes (A : BootCode) (w : Workspace) (a : Nat) : Prop :=
  A.Works w a ∨ BOOT_ID.toNat ≤ a ∧ a < BOOT_ID.toNat + 2 ∨
    MEMMAP_BASE.toNat ≤ a ∧ a < ROOTDIR_BASE.toNat

/-- Why stage 2 does not get as far as the kernel. -/
inductive Bios.Refuses (bios : Bios) : Halt → Prop
  | mode (h : (bios.video 1).carry = true) : bios.Refuses badMode
  | font (h : (bios.video 2).carry = true) : bios.Refuses badFont
  | video (n : Nat) (hn : n < 7) (h : (bios.video n).carry = true) : bios.Refuses vgaError
  | controller (h : bios.keyboardReady = false) : bios.Refuses .diverges
  | a20 (h : ∀ i < 4, ∀ j < 4, bios.gate i = true → bios.gate j = true → i = j) :
    bios.Refuses a20Error
  | conventional (h : bios.int12.carry = true ∨ bios.int12.zero = true) : bios.Refuses memoryError
  | extended (h : bios.extended.carry = true ∨ bios.extended.ah = 0x80 ∨ bios.extended.ah = 0x86 ∨
      bios.extended.ax.toNat < 512) : bios.Refuses notEnoughMemory

section Hardware
variable {A : BootCode} {w : Workspace} {bios : Bios}

theorem works_call (s m : Memory) : Stays (A.Works w) m (w.afterCall s m) :=
  stays_afterCall (fun _ ha => Or.inl ha) s

theorem works_overlay {start : Nat} {bytes : List Byte} {m : Memory}
    (h : A.tmpCursorRow ≤ start ∧ start + bytes.length ≤ A.bootInfo ∨
      A.bootInfo + BI_MEM_MAP ≤ start ∧ start + bytes.length ≤ A.bootInfo + BI_KB_LOW ∨
      A.bootInfo + BI_KB_HIGH ≤ start ∧ start + bytes.length ≤ A.bootInfo + BI_SIZE) :
    Stays (A.Works w) m (overlay m start bytes) := by
  refine stays_overlay fun a ha ha' => Or.inr ?_
  omega

theorem works_storeWord {field : Nat} (h : BI_KB_HIGH ≤ field) (h' : field + 2 ≤ BI_SIZE) (x : Word)
    (m : Memory) : Stays (A.Works w) m (storeWord m (A.bootInfo + field) x) :=
  works_overlay (Or.inr (Or.inr ⟨Nat.add_le_add_left h _, Nat.add_le_add_left h' A.bootInfo⟩))

/-! ## `init_vga` -/

theorem videoCall_ensures {n : Nat} {e : Halt} (h : (bios.video n).carry = true → bios.Refuses e)
    (m : Memory) : Ensures (Stays (A.Works w) m) bios.Refuses (videoCall w bios n e m) := by
  rw [videoCall]
  split
  · exact .error (h ‹_›)
  · exact .ok (works_call _ m)

theorem initVga_ensures (m : Memory) :
    Ensures (Stays (A.Works w) m) bios.Refuses (initVga A w bios m) := by
  have hinfo : A.bootInfo = A.tmpCursorRow + 8 := rfl
  have hcol : A.tmpCursorCol = A.tmpCursorRow + 4 := rfl
  have hvideo : ∀ n < 7, ∀ m, Ensures (Stays (A.Works w) m) bios.Refuses (videoCall w bios n vgaError m) :=
    fun n hn m => videoCall_ensures (.video n hn) m
  refine stays_bind (hvideo 0 (by decide) m) fun m => ?_
  have hrow : Stays (A.Works w) m (overlay m A.tmpCursorRow [(bios.video 0).dx.extractLsb' 8 8]) :=
    works_overlay (Or.inl ⟨le_refl _, by rw [List.length_singleton]; omega⟩)
  refine hrow.ensures ?_
  generalize overlay m A.tmpCursorRow [(bios.video 0).dx.extractLsb' 8 8] = m
  have hcolumn : Stays (A.Works w) m (overlay m A.tmpCursorCol [(bios.video 0).dx.extractLsb' 0 8]) :=
    works_overlay (Or.inl ⟨by omega, by rw [List.length_singleton]; omega⟩)
  refine hcolumn.ensures ?_
  refine stays_bind (videoCall_ensures .mode _) fun m => ?_
  refine stays_bind (videoCall_ensures .font m) fun m => ?_
  refine stays_bind (hvideo 3 (by decide) m) fun m => ?_
  refine stays_bind (hvideo 4 (by decide) m) fun m => ?_
  have hmode : Stays (A.Works w) m (overlay m (A.bootInfo + BI_VGA_MODE)
      [(bios.video 4).ax.extractLsb' 0 8 &&& 0x7F]) := by
    have hlow : BI_KB_HIGH ≤ BI_VGA_MODE := by decide
    have hhigh : BI_VGA_MODE + 1 ≤ BI_SIZE := by decide
    exact works_overlay (Or.inr (Or.inr
      ⟨Nat.add_le_add_left hlow _, Nat.add_le_add_left hhigh A.bootInfo⟩))
  refine hmode.ensures ?_
  exact stays_bind (hvideo 5 (by decide) _) fun m => hvideo 6 (by decide) m

/-! ## `enable_a20` -/

def bootIdAfter (n : Nat) : Word := (0xAA55 : Word).rotateRight (4 * n)

theorem bootIdAfter_succ : ∀ n < 4, (bootIdAfter n).rotateRight 4 = bootIdAfter (n + 1) := by
  decide

theorem bootIdAfter_inj : ∀ i < 4, ∀ j < 4, bootIdAfter (i + 1) = bootIdAfter (j + 1) → i = j := by
  decide

/-- `n` tests have not shown the gate open. -/
structure Tested (A : BootCode) (w : Workspace) (bios : Bios) (m0 : Memory) (n : Nat) (m : Memory) :
    Prop where
  stays : Stays (A.Probes w) m0 m
  id : loadWord m BOOT_ID = bootIdAfter n
  hidden : ∀ i < n, bios.gate i = true → getPair m0 BOOT_ID_HIGH = bootIdAfter (i + 1)

theorem works_probes {m m' : Memory} (h : Stays (A.Works w) m m') : Stays (A.Probes w) m m' :=
  h.mono fun _ ha => Or.inl ha

theorem not_works_bootId (htop : STAGE2_BASE.toNat ≤ w.top) {a : Nat} (ha : STACK_BASE.toNat ≤ a)
    (ha' : a < STAGE2_BASE.toNat) : ¬ A.Works w a := by
  have hbase : STAGE2_BASE.toNat = 32256 := rfl
  have hstack : STACK_BASE.toNat = 31744 := rfl
  have hvars := A.tmpCursorRow_ge
  have hinfo : A.bootInfo = A.tmpCursorRow + 8 := rfl
  rw [BootCode.Works, Workspace.Scratch]
  omega

theorem not_probes_high {a : Nat} (ha : 0x100000 ≤ a) : ¬ A.Probes w a := by
  have hbase : STAGE2_BASE.toNat = 32256 := rfl
  have hstack : STACK_BASE.toNat = 31744 := rfl
  have hinfo : A.bootInfo = A.tmpCursorRow + 8 := rfl
  have hload : KERNEL_LOAD.toNat = 40960 := rfl
  have hid : BOOT_ID.toNat = 32254 := rfl
  have hroot : ROOTDIR_BASE.toNat = 8192 := rfl
  have hkb : BI_KB_LOW = 8 := rfl
  have hsize : VARIABLES_SIZE = 8 + BI_SIZE := rfl
  have hle := A.tmpCursorRow_le
  have hend := A.stage2_le
  rw [BootCode.Probes, BootCode.Works, Workspace.Scratch]
  omega

theorem Tested.works {m0 m m' : Memory} {n : Nat} (htop : STAGE2_BASE.toNat ≤ w.top)
    (h : Tested A w bios m0 n m) (hm : Stays (A.Works w) m m') : Tested A w bios m0 n m' where
  stays := h.stays.trans (works_probes hm)
  id := by
    rw [← h.id]
    exact loadWord_congr (hm _ (not_works_bootId htop (by decide) (by decide)))
      (hm _ (not_works_bootId htop (by decide) (by decide)))
  hidden := h.hidden

/-- One test: it finds the gate open, or there is one more that has not. -/
theorem Tested.test {m0 m : Memory} {n : Nat} (hn : n < 4) (h : Tested A w bios m0 n m) :
    Stays (A.Probes w) m0 (testA20 bios n m).2 ∧
      ((testA20 bios n m).1 = false → Tested A w bios m0 (n + 1) (testA20 bios n m).2) := by
  have hnext : (loadWord m BOOT_ID).rotateRight 4 = bootIdAfter (n + 1) := by
    rw [h.id, bootIdAfter_succ n hn]
  have hwrite : Stays (A.Probes w) m (testA20 bios n m).2 := by
    refine stays_overlay fun a ha ha' => Or.inr (Or.inl ⟨ha, ?_⟩)
    exact ha'
  have hhigh : getPair (testA20 bios n m).2 BOOT_ID_HIGH = getPair m0 BOOT_ID_HIGH :=
    (h.stays.trans hwrite).getPair_eq (not_probes_high (by decide)) (not_probes_high (by decide))
  refine ⟨h.stays.trans hwrite, fun hshown => ⟨h.stays.trans hwrite, ?_, fun i hi hopen => ?_⟩⟩
  · rw [← hnext]
    exact loadWord_storeWord m (by decide) _
  · rcases Nat.lt_or_eq_of_le (Nat.le_of_lt_succ hi) with hi | rfl
    · exact h.hidden i hi hopen
    · rw [testA20] at hshown hhigh
      dsimp only at hshown hhigh
      rw [hopen, if_pos rfl, Bool.not_eq_false', beq_iff_eq, hhigh, hnext] at hshown
      exact hshown.symm

/-- Behind a test, the gate is open or the next method is tried. -/
theorem Tested.next {m0 m : Memory} {n : Nat} (hn : n < 4) (h : Tested A w bios m0 n m)
    {f : Memory → Call Memory}
    (hf : ∀ m', Tested A w bios m0 (n + 1) m' → Ensures (Stays (A.Probes w) m0) bios.Refuses (f m')) :
    Ensures (Stays (A.Probes w) m0) bios.Refuses
      (match testA20 bios n m with
      | (true, m) => .ok m
      | (false, m) => f m) := by
  obtain ⟨hstays, hnot⟩ := h.test hn
  cases hr : testA20 bios n m with
  | mk shown m' =>
    rw [hr] at hstays hnot
    cases shown with
    | true => exact .ok hstays
    | false => exact hf m' (hnot rfl)

theorem setMethod_works (x : Word) (m : Memory) : Stays (A.Works w) m (setMethod A x m) :=
  works_storeWord (by decide) (by decide) x m

theorem enableA20Bios_works (m : Memory) : Stays (A.Works w) m (enableA20Bios A w bios m) := by
  rw [enableA20Bios]
  split
  · exact works_call _ m
  · exact (works_call _ m).trans (setMethod_works _ _)

theorem enableA20_ensures (htop : STAGE2_BASE.toNat ≤ w.top) {m : Memory}
    (hid : loadWord m BOOT_ID = bootIdAfter 0) :
    Ensures (Stays (A.Probes w) m) bios.Refuses (enableA20 A w bios m) := by
  have h0 : Tested A w bios m 0 m := ⟨Stays.refl _ m, hid, fun i hi => absurd hi (Nat.not_lt_zero i)⟩
  refine h0.next (by decide) fun m1 h1 => ?_
  refine (h1.works htop (enableA20Bios_works m1)).next (by decide) fun m2 h2 => ?_
  refine (h2.works htop (setMethod_works _ m2)).next (by decide) fun m3 h3 => ?_
  rw [enableA20Keyboard]
  split
  · refine (h3.works htop (setMethod_works _ m3)).next (by decide) fun m4 h4 => ?_
    refine .error (.a20 fun i hi j hj hopen hopen' => bootIdAfter_inj i hi j hj ?_)
    exact (h4.hidden i hi hopen).symm.trans (h4.hidden j hj hopen')
  · exact .error (.controller (Bool.eq_false_iff.mpr ‹_›))

/-! ## `detect_memory` -/

theorem detectE820h_ensures {stop : Nat} (hstop : Stops bios.map stop) (hfit : Fits bios.map stop)
    (htable : mapBase (stop + 1) ≤ ROOTDIR_BASE.toNat) {calls : Nat} (hcalls : stop < calls) (m : Memory) :
    Ensures (Stays (A.Probes w) m) bios.Refuses (detectE820h A w bios calls m) := by
  have hinfo : A.bootInfo = A.tmpCursorRow + 8 := rfl
  have hbase : STAGE2_BASE.toNat = 32256 := rfl
  have hoffset : BI_MEM_MAP = 4 := rfl
  have hlow : BI_KB_LOW = 8 := rfl
  have hge := A.tmpCursorRow_ge
  obtain ⟨m', hloop, hmap⟩ := e820Loop_eq (w := w) hstop hfit
    (by omega : 0x7A00 ≤ A.bootInfo + BI_MEM_MAP) (k := 0) (Nat.zero_add stop) m hcalls
  have hstart : MEMMAP_BASE = BitVec.ofNat 16 (mapBase 0) := rfl
  rw [detectE820h, hstart, hloop]
  refine .ok fun a ha => hmap.frame a ?_ (fun hs => ha (Or.inl (Or.inl hs))) (Or.inr ?_)
  · have houtside : ¬ (MEMMAP_BASE.toNat ≤ a ∧ a < ROOTDIR_BASE.toNat) := fun h => ha (Or.inr (Or.inr h))
    change a < MEMMAP_BASE.toNat ∨ _
    omega
  · have houtside : ¬ (A.bootInfo + BI_MEM_MAP ≤ a ∧ a < A.bootInfo + BI_KB_LOW) :=
      fun h => ha (Or.inl (Or.inr (Or.inr (Or.inl h))))
    omega

theorem detectE801h_works (bios : Bios) (m : Memory) : Stays (A.Works w) m (detectE801h A w bios m) := by
  rw [detectE801h]
  dsimp only
  split
  · exact works_call _ m
  · exact ((works_call _ m).trans (works_storeWord (by decide) (by decide) _ _)).trans
      (works_storeWord (by decide) (by decide) _ _)

theorem detectExtended_works (bios : Bios) (m : Memory) : Stays (A.Works w) m (detectExtended A w bios m) := by
  rw [detectExtended]
  split
  · exact works_call _ m
  · exact (works_call _ m).trans (works_storeWord (by decide) (by decide) _ _)

theorem detectConventional_ensures (m : Memory) :
    Ensures (fun m' => getPair m' (A.bootInfo + BI_KB_LOW) = bios.int12.ax ∧
        Stays (fun a => w.Scratch a ∨ A.bootInfo + BI_KB_LOW ≤ a ∧ a < A.bootInfo + BI_KB_LOW + 2) m m')
      bios.Refuses (detectConventional A w bios m) := by
  rw [detectConventional]
  by_cases hcarry : bios.int12.carry = true
  · rw [if_pos hcarry]
    exact .error (.conventional (Or.inl hcarry))
  · rw [if_neg hcarry]
    by_cases hzero : bios.int12.zero = true
    · rw [if_pos hzero]
      exact .error (.conventional (Or.inr hzero))
    · rw [if_neg hzero]
      refine .ok ⟨getPair_storeWord _ _ _, ?_⟩
      exact (stays_afterCall (fun a ha => Or.inl ha) _).trans
        (stays_overlay fun a ha ha' => Or.inr ⟨ha, ha'⟩)

theorem bootInfo_not_scratch (hcode : w.codeEnd = STAGE2_BASE.toNat + A.stage2.length) {a : Nat}
    (ha : A.tmpCursorRow ≤ a) (ha' : a < A.tmpCursorRow + VARIABLES_SIZE) : ¬ w.Scratch a := by
  have hbase : STAGE2_BASE.toNat = 32256 := rfl
  have hstack : STACK_BASE.toNat = 31744 := rfl
  have htop := w.le_top
  have hge := A.tmpCursorRow_ge
  have hle := A.tmpCursorRow_le
  rw [Workspace.Scratch]
  omega

theorem getLong_ge (m : Memory) (a : Nat) : (getPair m a).toNat ≤ (getLong m a).toNat := by
  rw [getLong, BitVec.toNat_append, Nat.shiftLeft_eq]
  rw [Nat.or_comm]
  exact Nat.left_le_or

/-- Where the BIOS does not say less, `kb_high` is enough. -/
theorem detectExtended_enough (m : Memory) (h : ¬ (bios.extended.carry = true ∨
    bios.extended.ah = 0x80 ∨ bios.extended.ah = 0x86 ∨ bios.extended.ax.toNat < 512)) :
    512 ≤ (getPair (detectExtended A w bios m) (A.bootInfo + BI_KB_HIGH)).toNat := by
  obtain ⟨hcarry, h80, h86, hsize⟩ := by simpa only [not_or] using h
  have hgoes : (bios.extended.carry || bios.extended.ah == 0x80 || bios.extended.ah == 0x86) = false := by
    rw [Bool.eq_false_iff.mpr hcarry, beq_eq_false_iff_ne.mpr h80, beq_eq_false_iff_ne.mpr h86]
    rfl
  rw [detectExtended, hgoes, if_neg Bool.false_ne_true, getPair_storeWord]
  omega

theorem detectMemory_ensures (hcode : w.codeEnd = STAGE2_BASE.toNat + A.stage2.length) {stop : Nat}
    (hstop : Stops bios.map stop) (hfit : Fits bios.map stop)
    (htable : mapBase (stop + 1) ≤ ROOTDIR_BASE.toNat) {calls : Nat} (hcalls : stop < calls) (m : Memory) :
    Ensures (fun m' => getPair m' (A.bootInfo + BI_KB_LOW) = bios.int12.ax ∧
        Stays (fun a => A.Probes w a ∨ A.bootInfo + BI_KB_LOW ≤ a ∧ a < A.bootInfo + BI_KB_LOW + 2) m m')
      bios.Refuses (detectMemory A w bios calls m) := by
  have hinfo : A.bootInfo = A.tmpCursorRow + 8 := rfl
  have hlow : BI_KB_LOW = 8 := rfl
  have hhigh : BI_KB_HIGH = 12 := rfl
  have hsize : VARIABLES_SIZE = 48 := rfl
  refine (detectE820h_ensures hstop hfit htable hcalls m).bind fun m1 h1 => ?_
  have h2 := (detectE801h_works (A := A) (w := w) bios m1).trans (detectExtended_works bios _)
  generalize hm2 : detectExtended A w bios (detectE801h A w bios m1) = m2 at h2 ⊢
  refine (detectConventional_ensures m2).bind fun m3 h3 => ?_
  obtain ⟨hkb, hstays⟩ := h3
  have hkept : ∀ a, A.bootInfo + BI_KB_HIGH ≤ a → a < A.bootInfo + BI_KB_HIGH + 2 → m3 a = m2 a := by
    intro a ha ha'
    have hscratch := bootInfo_not_scratch hcode (a := a) (by omega) (by omega)
    exact hstays a fun h => h.elim hscratch fun h => by omega
  split
  · rename_i hless
    refine .error (.extended (by_contra fun hnot => ?_))
    have henough := detectExtended_enough (A := A) (w := w) (detectE801h A w bios m1) hnot
    have hpair : getPair m3 (A.bootInfo + BI_KB_HIGH) = getPair m2 (A.bootInfo + BI_KB_HIGH) := by
      rw [getPair, getPair, hkept _ (le_refl _) (by omega), hkept _ (by omega) (by omega)]
    have hge := getLong_ge m3 (A.bootInfo + BI_KB_HIGH)
    have hrequired : (MEMORY_REQUIRED >>> 10 - 1024).toNat = 512 := by decide
    rw [BitVec.lt_def, hrequired] at hless
    rw [hm2] at henough
    rw [hpair] at hge
    omega
  · refine .ok ⟨hkb, ?_⟩
    refine (h1.mono fun _ ha => Or.inl ha).trans (((works_probes h2).mono fun _ ha => Or.inl ha).trans ?_)
    exact hstays.mono fun a ha => ha.imp_left fun h => Or.inl (Or.inl h)

/-! ## All of it -/

/-- What stage 2 may have written to when it looks for the kernel. -/
def BootCode.Touches (A : BootCode) (w : Workspace) (a : Nat) : Prop :=
  w.Scratch a ∨ A.tmpCursorRow ≤ a ∧ a < A.tmpCursorRow + VARIABLES_SIZE ∨
    BOOT_ID.toNat ≤ a ∧ a < BOOT_ID.toNat + 2 ∨ MEMMAP_BASE.toNat ≤ a ∧ a < ROOTDIR_BASE.toNat

/-- What stage 2 knows of low memory when it looks for the kernel. -/
structure Informed (A : BootCode) (w : Workspace) (bios : Bios) (m m' : Memory) : Prop where
  stays : Stays (A.Touches w) m m'
  ebda : getLong m' (A.bootInfo + BI_EBDA_BASE) = bios.ebdaSegment.setWidth 32 <<< 4
  kbLow : getLong m' (A.bootInfo + BI_KB_LOW) = bios.int12.ax.setWidth 32

theorem setWidth_eq_append (x : Word) : (0 : Word) ++ x = x.setWidth 32 := by
  refine BitVec.eq_of_toNat_eq ?_
  rw [BitVec.toNat_append, BitVec.toNat_setWidth]
  change 0 <<< 16 ||| x.toNat = _
  rw [Nat.zero_shiftLeft, Nat.zero_or, Nat.mod_eq_of_lt (by omega)]

theorem getLong_congr {m m' : Memory} {a : Nat} (h : ∀ i, a ≤ i → i < a + 4 → m' i = m i) :
    getLong m' a = getLong m a := by
  rw [getLong, getLong, getPair, getPair, getPair, getPair, h a (by omega) (by omega),
    h (a + 1) (by omega) (by omega), h (a + 2) (by omega) (by omega), h (a + 2 + 1) (by omega) (by omega)]

theorem hardwareInfo_ebda (bios : Bios) (m : Memory) :
    getLong (hardwareInfo A w bios m) (A.bootInfo + BI_EBDA_BASE) =
      bios.ebdaSegment.setWidth 32 <<< 4 := by
  have hscratch : ∀ a, a < 0x500 → w.afterCall bios.int11.scratch m a = bios.int11.scratch a :=
    fun a ha => if_pos (Or.inl ha)
  have hsegment : loadWord (w.afterCall bios.int11.scratch m) EBDA_ADDR = bios.ebdaSegment :=
    loadWord_congr (hscratch _ (by decide)) (hscratch _ (by decide))
  rw [hardwareInfo, getLong_storeLong, hsegment]

theorem hardwareInfo_stays (bios : Bios) (m : Memory) :
    Stays (fun a => A.Works w a ∨ A.bootInfo + BI_EBDA_BASE ≤ a ∧ a < A.bootInfo + BI_EBDA_BASE + 4) m
      (hardwareInfo A w bios m) := by
  have hflags := (works_call (A := A) (w := w) bios.int11.scratch m).trans
    (works_storeWord (A := A) (by decide : BI_KB_HIGH ≤ BI_HWFLAGS) (by decide) bios.int11.ax _)
  exact (hflags.mono fun _ ha => Or.inl ha).trans (stays_overlay fun a ha ha' => Or.inr ⟨ha, ha'⟩)

theorem not_probes_field (hcode : w.codeEnd = STAGE2_BASE.toNat + A.stage2.length) {a : Nat}
    (ha : A.bootInfo ≤ a ∧ a < A.bootInfo + BI_MEM_MAP ∨
      A.bootInfo + BI_KB_LOW ≤ a ∧ a < A.bootInfo + BI_KB_HIGH) : ¬ A.Probes w a := by
  have hinfo : A.bootInfo = A.tmpCursorRow + 8 := rfl
  have hmap : BI_MEM_MAP = 4 := rfl
  have hlow : BI_KB_LOW = 8 := rfl
  have hhigh : BI_KB_HIGH = 12 := rfl
  have hsize : VARIABLES_SIZE = 48 := rfl
  have hbase : STAGE2_BASE.toNat = 32256 := rfl
  have hid : BOOT_ID.toNat = 32254 := rfl
  have hroot : ROOTDIR_BASE.toNat = 8192 := rfl
  have hge := A.tmpCursorRow_ge
  have hscratch := bootInfo_not_scratch hcode (a := a) (by omega) (by omega)
  rw [BootCode.Probes, BootCode.Works]
  rintro ((h | h) | h)
  · exact hscratch h
  · omega
  · omega

theorem probes_touches {a : Nat} (h : A.Probes w a) : A.Touches w a := by
  have hinfo : A.bootInfo = A.tmpCursorRow + 8 := rfl
  have hmap : BI_MEM_MAP = 4 := rfl
  have hlow : BI_KB_LOW = 8 := rfl
  have hhigh : BI_KB_HIGH = 12 := rfl
  have hend : BI_SIZE = 40 := rfl
  have hsize : VARIABLES_SIZE = 48 := rfl
  rcases h with (h | h) | h
  · exact Or.inl h
  · exact Or.inr (Or.inl (by omega))
  · exact Or.inr (Or.inr h)

/-- **Stage 2 knows the top of low memory** when it looks for the kernel, or has a reason to stop. -/
theorem collectInfo_ensures (hcode : w.codeEnd = STAGE2_BASE.toNat + A.stage2.length) {m : Memory}
    (hid : loadWord m BOOT_ID = bootIdAfter 0)
    (hzero : getPair m (A.bootInfo + BI_KB_LOW + 2) = 0) {stop : Nat}
    (hstop : Stops bios.map stop) (hfit : Fits bios.map stop)
    (htable : mapBase (stop + 1) ≤ ROOTDIR_BASE.toNat) {calls : Nat} (hcalls : stop < calls) :
    Ensures (Informed A w bios m) bios.Refuses (collectInfo A w bios calls m) := by
  have hinfo : A.bootInfo = A.tmpCursorRow + 8 := rfl
  have hebda : BI_EBDA_BASE = 0 := rfl
  have hmap : BI_MEM_MAP = 4 := rfl
  have hlow : BI_KB_LOW = 8 := rfl
  have hhigh : BI_KB_HIGH = 12 := rfl
  have hsize : VARIABLES_SIZE = 48 := rfl
  have hbase : STAGE2_BASE.toNat = 32256 := rfl
  have hge := A.tmpCursorRow_ge
  have hvars := A.tmpCursorRow_le
  have htop : STAGE2_BASE.toNat ≤ w.top := by
    have := w.le_top
    omega
  have hstays1 := hardwareInfo_stays (A := A) (w := w) bios m
  have hebda1 := hardwareInfo_ebda (A := A) (w := w) bios m
  have hbootId : ∀ a, a = BOOT_ID.toNat ∨ a = BOOT_ID.toNat + 1 → ¬ A.Works w a := by
    rintro a (rfl | rfl)
    · exact not_works_bootId htop (by decide) (by decide)
    · exact not_works_bootId htop (by decide) (by decide)
  have hid1 : loadWord (hardwareInfo A w bios m) BOOT_ID = bootIdAfter 0 := by
    rw [← hid]
    have hnot : ∀ a, a = BOOT_ID.toNat ∨ a = BOOT_ID.toNat + 1 →
        hardwareInfo A w bios m a = m a := by
      intro a ha
      have hvalue : BOOT_ID.toNat = 32254 := rfl
      exact hstays1 a fun h => h.elim (hbootId a ha) fun h => by omega
    exact loadWord_congr (hnot _ (Or.inl rfl)) (hnot _ (Or.inr rfl))
  generalize hm1 : hardwareInfo A w bios m = m1 at hstays1 hebda1 hid1
  rw [collectInfo, hm1]
  refine (initVga_ensures m1).bind fun m2 h2 => ?_
  have hid2 : loadWord m2 BOOT_ID = bootIdAfter 0 := by
    rw [← hid1]
    exact loadWord_congr (h2 _ (hbootId _ (Or.inl rfl))) (h2 _ (hbootId _ (Or.inr rfl)))
  refine (enableA20_ensures htop hid2).bind fun m3 h3 => ?_
  refine (detectMemory_ensures hcode hstop hfit htable hcalls m3).mono (fun m4 h4 => ?_) fun _ he => he
  obtain ⟨hkb, hstays4⟩ := h4
  have hstays := (((works_probes h2).trans h3).mono fun _ ha => Or.inl ha).trans hstays4
  refine ⟨(hstays1.mono fun a ha => ?_).trans (hstays.mono fun a ha => ?_), ?_, ?_⟩
  · exact ha.elim (fun h => probes_touches (Or.inl h)) fun h => Or.inr (Or.inl (by omega))
  · exact ha.elim probes_touches fun h => Or.inr (Or.inl (by omega))
  · rw [← hebda1]
    refine getLong_congr fun a ha ha' => hstays a fun h => ?_
    exact h.elim (not_probes_field hcode (Or.inl (by omega))) fun h => by omega
  · have hupper : getPair m4 (A.bootInfo + BI_KB_LOW + 2) = 0 := by
      have hfield : ∀ a, A.bootInfo + BI_KB_LOW + 2 ≤ a → a < A.bootInfo + BI_KB_HIGH → m4 a = m a := by
        intro a ha ha'
        have hprobes := not_probes_field (w := w) hcode (a := a) (Or.inr ⟨by omega, ha'⟩)
        rw [hstays a fun h => h.elim hprobes fun h => by omega]
        exact hstays1 a fun h => h.elim (fun h => hprobes (Or.inl h)) fun h => by omega
      rw [← hzero, getPair, getPair, hfield _ (by omega) (by omega), hfield _ (by omega) (by omega)]
    rw [getLong, hupper, hkb, setWidth_eq_append]

end Hardware

end Ohwes.Boot

import Ohwes.Boot.Hardware
import Ohwes.Boot.LoadFile

/-! # What the boot loader leaves in memory

The kernel is loaded at `KERNEL_LOAD` in whole sectors and moved to `KERNEL_BASE` byte by byte. Nothing
that stage 2 does before reaches the root directory, which stage 1 left in memory. -/

namespace Ohwes.Boot
open Library Fatfs
set_option autoImplicit false

/-! ## `check_kernel_size` -/

section Size
variable {A : BootCode} {bios : Bios} {m : Memory}
  (hebda : getLong m (A.bootInfo + BI_EBDA_BASE) = bios.ebdaSegment.setWidth 32 <<< 4)
  (hkb : getLong m (A.bootInfo + BI_KB_LOW) = bios.int12.ax.setWidth 32)
include hebda hkb

theorem knownTop_toNat : (if getLong m (A.bootInfo + BI_EBDA_BASE) = 0 then
    getLong m (A.bootInfo + BI_KB_LOW) <<< 10 else getLong m (A.bootInfo + BI_EBDA_BASE)).toNat =
      bios.top := by
  have hseg := bios.ebdaSegment.isLt
  have hax := bios.int12.ax.isLt
  have hshift : (bios.ebdaSegment.setWidth 32 <<< 4 : BitVec 32).toNat = 16 * bios.ebdaSegment.toNat := by
    rw [BitVec.toNat_shiftLeft, BitVec.toNat_setWidth, Nat.shiftLeft_eq]
    omega
  have hzero : (bios.ebdaSegment.setWidth 32 <<< 4 : BitVec 32) = 0 ↔ bios.ebdaSegment = 0 := by
    rw [← BitVec.toNat_inj, hshift, ← BitVec.toNat_inj]
    change 16 * _ = 0 ↔ _ = 0
    omega
  rw [hebda, hkb, Bios.top]
  by_cases h : bios.ebdaSegment = 0
  · rw [if_pos h, if_pos (hzero.mpr h), BitVec.toNat_shiftLeft, BitVec.toNat_setWidth, Nat.shiftLeft_eq]
    omega
  · rw [if_neg h, if_neg fun h0 => h (hzero.mp h0), hshift]

/-- The comparison is a signed one: a size from two gigabytes on passes as a negative number. -/
theorem checkKernelSize_iff (htop : bios.top ≤ 0x100000) (size : BitVec 32) :
    checkKernelSize A m size = .ok () ↔
      KERNEL_LOAD.toNat + size.toNat ≤ bios.top ∨
        0x80000000 ≤ size.toNat ∧ KERNEL_LOAD.toNat + size.toNat ≤ 0x100000000 + bios.top := by
  have hload : KERNEL_LOAD.toNat = 40960 := rfl
  have hlt := size.isLt
  have hknown := knownTop_toNat hebda hkb
  rw [checkKernelSize, hload]
  generalize (if getLong m (A.bootInfo + BI_EBDA_BASE) = 0 then
    getLong m (A.bootInfo + BI_KB_LOW) <<< 10 else getLong m (A.bootInfo + BI_EBDA_BASE)) = top at hknown ⊢
  have hsub : (top - KERNEL_LOAD).toInt = (bios.top : Int) - 40960 := by
    have hnat : (top - KERNEL_LOAD).toNat = (4294967296 - 40960 + bios.top) % 4294967296 := by
      rw [BitVec.toNat_sub, hload, hknown]
    rw [BitVec.toInt_eq_toNat_cond, hnat]
    omega
  have hslt : (top - KERNEL_LOAD).slt size = true ↔ (bios.top : Int) - 40960 < size.toInt := by
    rw [BitVec.slt, hsub, decide_eq_true_iff]
  have hsize := BitVec.toInt_eq_toNat_cond size
  by_cases h : (top - KERNEL_LOAD).slt size = true
  · rw [if_pos h]
    rw [hslt] at h
    constructor
    · intro h
      cases h
    · intro hor
      split at hsize <;> omega
  · rw [if_neg h]
    rw [hslt] at h
    refine iff_of_true rfl ?_
    split at hsize <;> omega

end Size

theorem checkKernelSize_cases (A : BootCode) (m : Memory) (size : BitVec 32) :
    checkKernelSize A m size = .ok () ∨ checkKernelSize A m size = .error kernelTooBig := by
  rw [checkKernelSize]
  generalize ((if getLong m (A.bootInfo + BI_EBDA_BASE) = 0 then
    getLong m (A.bootInfo + BI_KB_LOW) <<< 10 else getLong m (A.bootInfo + BI_EBDA_BASE)) -
      KERNEL_LOAD).slt size = tooBig
  cases tooBig
  · exact Or.inl rfl
  · exact Or.inr rfl

/-! ## The kernel -/

theorem take_slice {α : Type} (m : Nat → α) (start : Nat) {n k : Nat} (h : k ≤ n) :
    (slice m start n).take k = slice m start k := by
  obtain ⟨r, rfl⟩ := Nat.exists_eq_add_of_le h
  rw [slice_add, List.take_left' (slice_length m start k)]

/-- The bytes of the file `k`, without the rest of its last sector. -/
def kernelData (v : Drive) (d : FatDisk) (k : Nat) : List Byte :=
  (fileData v d k).take (d.rootEntry k).fileSize.toNat

section Kernel
variable {v : Drive} {d : FatDisk} {k : Nat} (h : Loadable v d k)
include h

theorem Loadable.size_le : (d.rootEntry k).fileSize.toNat ≤ (fileData v d k).length := by
  obtain ⟨n, hn, -, hle⟩ := ceilDiv_bounds h.file.size_pos (by decide : 0 < SECTOR_SIZE)
  rw [fileData_length, sectorsOf, hn, Nat.mul_comm]
  exact hle

theorem Loadable.kernelData_length : (kernelData v d k).length = (d.rootEntry k).fileSize.toNat := by
  rw [kernelData, List.length_take, Nat.min_eq_left h.size_le]

/-- A kernel that fits below the top of memory fits there with the rest of its last sector: the top is
at a whole number of sectors. -/
theorem Loadable.sectors_below {top : Nat} (htop : top % 512 = 0)
    (hsize : KERNEL_LOAD.toNat + (d.rootEntry k).fileSize.toNat ≤ top) :
    KERNEL_LOAD.toNat + 512 * sectorsOf (d.rootEntry k) ≤ top := by
  obtain ⟨n, hn, hlt, -⟩ := ceilDiv_bounds h.file.size_pos (by decide : 0 < SECTOR_SIZE)
  have hload : KERNEL_LOAD.toNat = 40960 := rfl
  rw [SECTOR_SIZE] at hlt
  rw [sectorsOf, hn]
  omega

theorem Loadable.size_lt : (d.rootEntry k).fileSize.toNat < 0x80000000 := by
  obtain ⟨-, -, hfit⟩ := h.sectors_fit
  have hcount := h.boots.sectorCount_le
  have hle := h.size_le
  rw [fileData_length] at hle
  omega

end Kernel

/-- The kernel is where stage 2 jumps to, and of the loader only variables have changed. -/
structure KernelLoaded (A : BootCode) (v : Drive) (d : FatDisk) (k : Nat) (m m' : Memory) : Prop where
  size : getLong m' (A.bootInfo + BI_KERNEL_SIZE) = (d.rootEntry k).fileSize
  kernel : slice m' KERNEL_BASE (d.rootEntry k).fileSize.toNat = kernelData v d k
  code : ∀ a, STAGE2_BASE.toNat ≤ a → a < STAGE2_BASE.toNat + A.stage2.length →
    a < A.tmpCursorRow ∨ A.tmpCursorRow + VARIABLES_SIZE ≤ a → m' a = m a

/-- The copy goes to memory that neither the loader nor what is loaded is in. -/
theorem repMovsb_kernel (m : Memory) {n : Nat} (h : KERNEL_LOAD.toNat + n ≤ 0xA0000) :
    slice (repMovsb m KERNEL_BASE KERNEL_LOAD.toNat n) KERNEL_BASE n = slice m KERNEL_LOAD.toNat n ∧
      ∀ a < 0xA0000, repMovsb m KERNEL_BASE KERNEL_LOAD.toNat n a = m a := by
  have hbase : KERNEL_BASE = 1048576 := rfl
  have hcopy : repMovsb m KERNEL_BASE KERNEL_LOAD.toNat n =
      overlay m KERNEL_BASE (slice m KERNEL_LOAD.toNat n) :=
    Flat.memcpy_eq_overlay (Or.inr (by omega))
  have hread := slice_overlay m KERNEL_BASE (slice m KERNEL_LOAD.toNat n)
  rw [slice_length] at hread
  rw [hcopy]
  exact ⟨hread, fun a ha => overlay_before m _ (by omega)⟩

section Kernel
variable {A : BootCode} {w : Workspace} {bios : Bios} {v : Drive} {d : FatDisk} {k : Nat}

/-- **Stage 2 moves the kernel, byte for byte, to where it jumps to**, or says that it is too big. -/
theorem Loadable.loadKernel_ensures (h : Loadable v d k) (hk : FirstNamed d kernelFilename k)
    (hcode : w.codeEnd = STAGE2_BASE.toNat + A.stage2.length) (htop : bios.top = w.top)
    (haligned : w.top % 512 = 0) {m : Machine} (hm : HoldsRoot m.memory d)
    (hfirst : loadWord m.memory A.firstCluster = firstCluster d.bpb)
    (hebda : getLong m.memory (A.bootInfo + BI_EBDA_BASE) = bios.ebdaSegment.setWidth 32 <<< 4)
    (hkb : getLong m.memory (A.bootInfo + BI_KB_LOW) = bios.int12.ax.setWidth 32) :
    Ensures (fun m' => KernelLoaded A v d k m.memory m'.memory)
      (fun e => v.Fails e ∨ e = kernelTooBig ∧
        bios.top < KERNEL_LOAD.toNat + (d.rootEntry k).fileSize.toNat)
      (loadKernel A w v d.bpb m) := by
  have hload : KERNEL_LOAD.toNat = 40960 := rfl
  have hbase : STAGE2_BASE.toNat = 32256 := rfl
  have hkernel : KERNEL_BASE = 1048576 := rfl
  have hinfo : A.bootInfo = A.tmpCursorRow + 8 := rfl
  have hebdaAt : BI_EBDA_BASE = 0 := rfl
  have hkbAt : BI_KB_LOW = 8 := rfl
  have hsizeAt : BI_KERNEL_SIZE = 24 := rfl
  have hsize : VARIABLES_SIZE = 48 := rfl
  have hge := A.tmpCursorRow_ge
  have hle := A.tmpCursorRow_le
  have hend := A.stage2_le
  have hlabel := A.firstCluster_le
  have htopLe := w.top_le
  have hlow := h.boots.root_low
  have hsmall := h.size_lt
  rw [loadKernel, hk.findFile_eq h.boots hm, ok_bind]
  dsimp only
  rw [h.boots.loadSize hm h.slot]
  generalize hm1 : storeLong m.memory (A.bootInfo + BI_KERNEL_SIZE) (d.rootEntry k).fileSize = m1
  have hkept : ∀ a, a < A.bootInfo + BI_KERNEL_SIZE ∨ A.bootInfo + BI_KERNEL_SIZE + 4 ≤ a →
      m1 a = m.memory a := by
    intro a ha
    rw [← hm1]
    exact storeLong_apart _ _ ha
  have hroot1 : HoldsRoot m1 d := hm.congr fun a _ ha' => hkept a (Or.inl (by omega))
  have hfirst1 : loadWord m1 A.firstCluster = firstCluster d.bpb := by
    have hnext := succ_toNat (a := A.firstCluster) (by omega)
    rw [← hfirst]
    exact loadWord_congr (hkept _ (Or.inl (by omega))) (hkept _ (Or.inl (by omega)))
  have hebda1 : getLong m1 (A.bootInfo + BI_EBDA_BASE) = bios.ebdaSegment.setWidth 32 <<< 4 := by
    rw [← hebda]
    exact getLong_congr fun a ha ha' => hkept a (Or.inl (by omega))
  have hkb1 : getLong m1 (A.bootInfo + BI_KB_LOW) = bios.int12.ax.setWidth 32 := by
    rw [← hkb]
    exact getLong_congr fun a ha ha' => hkept a (Or.inl (by omega))
  have hcheck := checkKernelSize_iff hebda1 hkb1 (by omega) (d.rootEntry k).fileSize
  rcases checkKernelSize_cases A m1 (d.rootEntry k).fileSize with hok | hbig
  · have hfits : KERNEL_LOAD.toNat + (d.rootEntry k).fileSize.toNat ≤ w.top := by
      have := hcheck.mp hok
      omega
    have hsectors := h.sectors_below haligned hfits
    have hlinear : linear KERNEL_SEGMENT 0 = KERNEL_LOAD.toNat := by decide
    have hfree : w.Free (linear KERNEL_SEGMENT 0) (512 * sectorsOf (d.rootEntry k)) := by
      rw [hlinear]
      exact Or.inr ⟨by omega, hsectors⟩
    rw [hok, ok_bind]
    refine ((h.loadFile_ensures (m := { m with memory := m1 }) hroot1 hfirst1 (by decide) hfree).mono
      (fun _ hr => hr) fun _ he => Or.inl he).bind fun r hr => ?_
    obtain ⟨es, m2⟩ := r
    obtain ⟨hheld, hframe⟩ := hr
    rw [hlinear, fileData_length] at hheld hframe
    -- the loader is below the kernel
    have hkept2 : ∀ a, STAGE2_BASE.toNat ≤ a → a < STAGE2_BASE.toNat + A.stage2.length →
        m2.memory a = m1 a := by
      intro a ha ha'
      refine hframe a (Or.inl (by omega)) ?_
      have hstack : STACK_BASE.toNat = 31744 := rfl
      have hcodeTop := w.le_top
      rw [Workspace.Scratch]
      omega
    have hsize2 : getLong m2.memory (A.bootInfo + BI_KERNEL_SIZE) = (d.rootEntry k).fileSize := by
      rw [getLong_congr fun a ha ha' => hkept2 a (by omega) (by omega), ← hm1, getLong_storeLong]
    have hread : slice m2.memory KERNEL_LOAD.toNat (d.rootEntry k).fileSize.toNat =
        kernelData v d k := by
      have hlen := h.size_le
      rw [fileData_length] at hlen
      rw [← take_slice _ _ hlen, hheld, kernelData]
    obtain ⟨hmoved, hbelow⟩ := repMovsb_kernel m2.memory (n := (d.rootEntry k).fileSize.toNat) (by omega)
    dsimp only
    rw [hsize2]
    generalize repMovsb m2.memory KERNEL_BASE KERNEL_LOAD.toNat (d.rootEntry k).fileSize.toNat = m3
      at hmoved hbelow
    refine .ok ⟨?_, hmoved.trans hread, fun a ha ha' hvars => ?_⟩
    · rw [← hsize2]
      exact getLong_congr fun a _ ha' => hbelow a (by omega)
    · exact ((hbelow a (by omega)).trans (hkept2 a ha ha')).trans (hkept a (by omega))
  · rw [hbig]
    refine .error (Or.inr ⟨rfl, ?_⟩)
    rw [hbig] at hcheck
    have hnot := mt hcheck.mpr (by intro heq; cases heq)
    omega

end Kernel

/-! ## From the boot sector to the kernel -/

/-- The low memory of a machine: the loader and a kernel begin in it, and it ends at a sector. -/
structure LowMemory where
  top : Nat
  load_le : KERNEL_LOAD.toNat ≤ top
  top_le : top ≤ 0xA0000
  aligned : top % 512 = 0

def LowMemory.before (l : LowMemory) : Workspace where
  codeEnd := STAGE2_BASE.toNat
  top := l.top
  stack_le := by decide
  le_top := (by decide : STAGE2_BASE.toNat ≤ KERNEL_LOAD.toNat).trans l.load_le
  top_le := l.top_le

def LowMemory.behind (l : LowMemory) (A : BootCode) : Workspace where
  codeEnd := STAGE2_BASE.toNat + A.stage2.length
  top := l.top
  stack_le := (by decide : STACK_BASE.toNat ≤ STAGE2_BASE.toNat).trans (Nat.le_add_right _ _)
  le_top := A.stage2_le.trans l.load_le
  top_le := l.top_le

/-- The machine has loaded the first sector of the disk and jumps there. Another program than that of
the source is not followed, neither in the boot sector nor behind it. -/
def boot (A : BootCode) (l : LowMemory) (bios : Bios) (v : Drive) (calls : Nat) (m : Machine) :
    Call Machine := do
  let m := { m with memory := overlay m.memory STACK_BASE.toNat (v.sector 0) }
  if slice m.memory STACK_BASE.toNat SECTOR_SIZE = A.stage1 then
    let (_, m) ← stage1 l.before v biosParamBlock A.firstCluster m
    if slice m.memory STAGE2_BASE.toNat A.stage2.length = A.stage2 then
      stage2 A (l.behind A) bios v biosParamBlock calls m
    else .error .fault
  else .error .fault

/-- A disk with the two stages of the loader and a kernel: stage 1 in its first sector, and the first
files of the root directory that have the names of stage 2 and of the kernel. -/
structure Boots (A : BootCode) (v : Drive) (d : FatDisk) (i k : Nat) : Prop where
  block : d.bpb = biosParamBlock
  sector : v.sector 0 = A.stage1
  loader : Loadable v d i
  namedLoader : FirstNamed d stage2Filename i
  size : (d.rootEntry i).fileSize.toNat = A.stage2.length
  image : (fileData v d i).take A.stage2.length = A.stage2
  kernel : Loadable v d k
  namedKernel : FirstNamed d kernelFilename k

/-- What stage 2 relies on: the BIOS reports where low memory ends, and its memory map comes to an end
below the root directory. -/
structure Bios.Conforms (bios : Bios) (l : LowMemory) (stop : Nat) : Prop where
  top : bios.top = l.top
  stops : Stops bios.map stop
  fits : Fits bios.map stop
  table : mapBase (stop + 1) ≤ ROOTDIR_BASE.toNat

structure Booted (A : BootCode) (kernel : List Byte) (m : Memory) : Prop where
  size : (getLong m (A.bootInfo + BI_KERNEL_SIZE)).toNat = kernel.length
  kernel : slice m KERNEL_BASE kernel.length = kernel
  code : ∀ j (hj : j < A.stage2.length), STAGE2_BASE.toNat + j < A.tmpCursorRow ∨
    A.tmpCursorRow + VARIABLES_SIZE ≤ STAGE2_BASE.toNat + j → m (STAGE2_BASE.toNat + j) = A.stage2[j]

def BootFails (bios : Bios) (v : Drive) (size : Nat) (e : Halt) : Prop :=
  v.Fails e ∨ bios.Refuses e ∨ e = kernelTooBig ∧ bios.top < KERNEL_LOAD.toNat + size

section Boot
variable {A : BootCode} {l : LowMemory} {bios : Bios} {v : Drive} {d : FatDisk} {i k : Nat}
  (h : Boots A v d i k)

structure Entered (A : BootCode) (d : FatDisk) (m : Memory) : Prop where
  root : HoldsRoot m d
  first : loadWord m A.firstCluster = firstCluster d.bpb
  bootId : loadWord m BOOT_ID = bootIdAfter 0
  code : slice m STAGE2_BASE.toNat A.stage2.length = A.stage2

theorem Entered.zero {m : Memory} (hm : Entered A d m) :
    getPair m (A.bootInfo + BI_KB_LOW + 2) = 0 := by
  have hinfo : A.bootInfo = A.tmpCursorRow + 8 := rfl
  have hlow : BI_KB_LOW = 8 := rfl
  have hsize : VARIABLES_SIZE = 48 := rfl
  have hge := A.tmpCursorRow_ge
  have hle := A.tmpCursorRow_le
  have hbyte : ∀ j < VARIABLES_SIZE, m (A.tmpCursorRow + j) = 0 := by
    intro j hj
    have hget := slice_getElem? m STAGE2_BASE.toNat A.stage2.length
      (A.tmpCursorRow - STAGE2_BASE.toNat + j)
    have hzero := A.zeroed j hj
    have hplace : STAGE2_BASE.toNat + (A.tmpCursorRow - STAGE2_BASE.toNat + j) = A.tmpCursorRow + j := by
      omega
    rw [hm.code, if_pos (by omega), hplace] at hget
    rwa [List.getD_eq_getElem?_getD, hget, Option.getD_some] at hzero
  have hfirst : A.bootInfo + BI_KB_LOW + 2 = A.tmpCursorRow + 18 := by omega
  rw [getPair, hfirst, Nat.add_assoc, hbyte 18 (by decide), hbyte (18 + 1) (by decide)]
  rfl

include h

/-- **Stage 1 comes to stage 2 as it was assembled**, if the drive lets it. -/
theorem Boots.stage1_ensures (m : Machine) :
    Ensures (fun r => Entered A d r.2.memory) v.Fails (stage1 l.before v biosParamBlock A.firstCluster
      { m with memory := overlay m.memory STACK_BASE.toNat (v.sector 0) }) := by
  have hbase : STAGE2_BASE.toNat = 32256 := rfl
  have hstack : STACK_BASE.toNat = 31744 := rfl
  have hload : KERNEL_LOAD.toNat = 40960 := rfl
  have hid : BOOT_ID.toNat = 32254 := rfl
  have hend := A.stage2_le
  have hfirst := A.firstCluster_ge
  have hfirst' := A.firstCluster_le
  have htop := l.load_le
  have hsectors : STAGE2_BASE.toNat + 512 * sectorsOf (d.rootEntry i) ≤ KERNEL_LOAD.toNat := by
    obtain ⟨n, hn, hlt, -⟩ := ceilDiv_bounds h.loader.file.size_pos (by decide : 0 < SECTOR_SIZE)
    have hsize := h.size
    rw [SECTOR_SIZE] at hlt
    rw [sectorsOf, hn]
    omega
  have hfree : l.before.Free STAGE2_BASE.toNat (512 * sectorsOf (d.rootEntry i)) :=
    Or.inr ⟨le_refl _, hsectors.trans htop⟩
  have hstage1 := h.loader.stage1_ensures h.namedLoader (w := l.before) (le_refl _) hfree hfirst
    (by omega) { m with memory := overlay m.memory STACK_BASE.toNat (v.sector 0) }
  rw [h.block] at hstage1
  refine hstage1.mono (fun r hr => ?_) fun _ he => he
  have hkept : ∀ j < 512, A.firstCluster.toNat + 2 ≤ STACK_BASE.toNat + j →
      r.2.memory (STACK_BASE.toNat + j) = A.stage1.getD j 0 := by
    intro j hj hlabel
    have hlen : j < (v.sector 0).length := by
      rw [Drive.sector, slice_length]
      exact hj
    rw [hr.sector _ (by omega) (by omega) (Or.inr hlabel)]
    dsimp only
    rw [overlay_inside _ _ hlen, ← h.sector, List.getD_eq_getElem?_getD, List.getElem?_eq_getElem hlen,
      Option.getD_some]
  refine ⟨hr.root, hr.first, ?_, ?_⟩
  · have hlow := hkept 510 (by decide) (by omega)
    have hhigh := hkept 511 (by decide) (by omega)
    rw [A.bootId.1] at hlow
    rw [A.bootId.2] at hhigh
    rw [loadWord]
    change r.2.memory 32255 ++ r.2.memory 32254 = bootIdAfter 0
    change r.2.memory 32254 = _ at hlow
    change r.2.memory 32255 = _ at hhigh
    rw [hlow, hhigh]
    decide
  · have hlen := h.loader.size_le
    have hsize := h.size
    have hheld := hr.stage2
    rw [← fileData_length v d i] at hheld
    rw [← take_slice _ _ (by omega : A.stage2.length ≤ (fileData v d i).length), hheld, h.image]

/-- **Stage 2 comes to the kernel**, or stops for a reason. -/
theorem Boots.stage2_ensures {stop : Nat} (hbios : bios.Conforms l stop) {calls : Nat}
    (hcalls : stop < calls) {m : Machine} (hm : Entered A d m.memory) :
    Ensures (fun m' => Booted A (kernelData v d k) m'.memory)
      (BootFails bios v (kernelData v d k).length) (stage2 A (l.behind A) bios v biosParamBlock calls m) := by
  have hbase : STAGE2_BASE.toNat = 32256 := rfl
  have hstack : STACK_BASE.toNat = 31744 := rfl
  have hload : KERNEL_LOAD.toNat = 40960 := rfl
  have hid : BOOT_ID.toNat = 32254 := rfl
  have hrootBase : ROOTDIR_BASE.toNat = 8192 := rfl
  have hsize : VARIABLES_SIZE = 48 := rfl
  have hge := A.tmpCursorRow_ge
  have hvars := A.tmpCursorRow_le
  have hend := A.stage2_le
  have hfirst := A.firstCluster_ge
  have hfirst' := A.firstCluster_le
  have hlow := h.loader.boots.root_low
  have htop := l.load_le
  have hcode : (l.behind A).codeEnd = STAGE2_BASE.toNat + A.stage2.length := rfl
  have htop' : (l.behind A).top = l.top := rfl
  -- what stage 2 leaves alone before it looks for the kernel
  have hapart : ∀ a, ROOTDIR_BASE.toNat ≤ a ∧ a < 0x7A00 ∨ STACK_BASE.toNat ≤ a ∧ a < BOOT_ID.toNat ∨
      STAGE2_BASE.toNat ≤ a ∧ a < STAGE2_BASE.toNat + A.stage2.length ∧
        (a < A.tmpCursorRow ∨ A.tmpCursorRow + VARIABLES_SIZE ≤ a) → ¬ A.Touches (l.behind A) a := by
    intro a ha
    have hmap : MEMMAP_BASE.toNat = 4096 := rfl
    rw [BootCode.Touches, Workspace.Scratch]
    omega
  refine ((collectInfo_ensures hcode hm.bootId hm.zero hbios.stops hbios.fits hbios.table hcalls).mono
    (fun _ hr => hr) fun _ he => Or.inr (Or.inl he)).bind fun memory hinfo => ?_
  have hroot : HoldsRoot memory d :=
    hm.root.congr fun a ha ha' => hinfo.stays a (hapart a (Or.inl ⟨ha, by omega⟩))
  have hnext := succ_toNat (a := A.firstCluster) (by omega)
  have hlabel : loadWord memory A.firstCluster = firstCluster d.bpb := by
    rw [← hm.first]
    exact loadWord_congr (hinfo.stays _ (hapart _ (Or.inr (Or.inl ⟨by omega, by omega⟩))))
      (hinfo.stays _ (hapart _ (Or.inr (Or.inl ⟨by omega, by omega⟩))))
  have hkernel := h.kernel.loadKernel_ensures h.namedKernel hcode (hbios.top.trans htop'.symm) l.aligned
    (m := { m with memory := memory }) hroot hlabel hinfo.ebda hinfo.kbLow
  rw [h.block] at hkernel
  rw [h.kernel.kernelData_length]
  refine hkernel.mono (fun m' hm' => ⟨?_, ?_, fun j hj hj' => ?_⟩)
    fun _ he => he.elim Or.inl fun he => Or.inr (Or.inr he)
  · rw [hm'.size, h.kernel.kernelData_length]
  · rw [h.kernel.kernelData_length]
    exact hm'.kernel
  rw [hm'.code _ (Nat.le_add_right _ _) (by omega) hj']
  dsimp only
  rw [hinfo.stays _ (hapart _ (Or.inr (Or.inr ⟨Nat.le_add_right _ _, by omega, hj'⟩)))]
  have hget := slice_getElem? m.memory STAGE2_BASE.toNat A.stage2.length j
  rw [hm.code, if_pos hj, List.getElem?_eq_getElem hj] at hget
  exact (Option.some.inj hget).symm

/-- **The boot loader comes to the kernel of the disk**: whatever requests fail on the way, it stops for
a reason, or the kernel is in memory as it is on the disk, and stage 2 but for its variables. -/
theorem Boots.boot_ensures {stop : Nat} (hbios : bios.Conforms l stop) {calls : Nat}
    (hcalls : stop < calls) (m : Machine) :
    Ensures (fun m' => Booted A (kernelData v d k) m'.memory)
      (BootFails bios v (kernelData v d k).length) (boot A l bios v calls m) := by
  have hsector : slice (overlay m.memory STACK_BASE.toNat (v.sector 0)) STACK_BASE.toNat SECTOR_SIZE =
      A.stage1 := by
    have hread := slice_overlay m.memory STACK_BASE.toNat (v.sector 0)
    have hlen : (v.sector 0).length = SECTOR_SIZE := slice_length _ _ _
    rw [hlen] at hread
    exact hread.trans h.sector
  rw [boot]
  dsimp only
  rw [if_pos hsector]
  refine ((h.stage1_ensures m).mono (fun _ hr => hr) fun _ he => Or.inl he).bind fun r hr => ?_
  obtain ⟨es, m1⟩ := r
  dsimp only
  rw [if_pos hr.code]
  exact h.stage2_ensures hbios hcalls hr

end Boot

end Ohwes.Boot

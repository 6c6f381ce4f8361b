import Ohwes.Boot.BootImage

/-! # The image boots

The tool writes the image and the loader reads it, and neither knows the other. Commands without
`--force` leave no gap in a file of the volume, and the loader takes the sectors behind the first of
a file for the file. The loader itself is a file of the image, and what runs is what was loaded. -/

namespace Ohwes.Boot
open Library Fatfs ShortName
set_option autoImplicit false

/-- A drive for 1440 kilobytes, with the image in it. -/
def diskette (img : Image) (fault : Nat → Bool) (partialData : Nat → List Byte)
    (scratch : Nat → Memory) : Drive where
  geometry := geometry1440
  cylinders := 80
  data := img.data
  fault := fault
  partialData := partialData
  scratch := scratch

def stage2Label : Vector Byte 11 := ⟨stage2Filename.toArray, by decide⟩
def kernelLabel : Vector Byte 11 := ⟨kernelFilename.toArray, by decide⟩

/-! ## The loader's view of the store -/

section Store
variable {d : FatDisk} {s : RootStore} {own : Nat → List Nat} {i : Nat} {label : Vector Byte 11}
  {f : StoredFile}

/-- A free slot bears no name of a file, and no other file has the same. -/
theorem firstNamed_of_backs (h : d.Backs s own) (hi : i < d.rootCapacity)
    (hs : s i = some (label, f)) : FirstNamed d label.toList i where
  slot := hi
  label := by rw [(h.file i hi label f hs).label_eq]
  first j hj heq := by
    have hj' : j < d.rootCapacity := hj.trans hi
    have hlabel : (d.rootEntry j).label = label := Vector.toList_inj.mp heq
    cases hsj : s j with
    | none =>
      obtain ⟨name, hname⟩ := h.named i hi label f hs
      obtain ⟨hzero, hmark⟩ := shortLabel_head hname.label_eq
      have hfree := (h.free j hj' hsj).1
      rw [DirEntry.isFree, DirEntry.isDeleted, hlabel, Bool.or_eq_true, beq_iff_eq, beq_iff_eq] at hfree
      rcases hfree with hdeleted | hfree
      · exact hmark hdeleted
      · exact hzero hfree
    | some x =>
      have hsame := (h.file j hj' x.1 x.2 hsj).label_eq
      have hij := h.distinct j hj' i hi x (label, f) hsj hs (hsame.symm.trans hlabel)
      exact absurd hij (Nat.ne_of_lt hj)

variable {n : Nat} {img : Image} {fault : Nat → Bool} {partialData : Nat → List Byte}
  {scratch : Nat → Memory}

theorem diskette_bootable (h : d.Backs s own) (hbpb : d.bpb = biosParamBlock) (hfile : d.file = img.data) :
    Bootable (diskette img fault partialData scratch) d := by
  have hcylinders : 80 ≤ 1024 := by decide
  have hserves : (diskette img fault partialData scratch).Serves biosParamBlock :=
    ⟨addressable_1440, by decide, hcylinders⟩
  have hcapacity : d.rootCapacity = 224 := by
    rw [FatDisk.rootCapacity, hbpb]
    decide
  have hcount : d.bpb.getSectorCount = 2880 := by
    rw [hbpb]
    decide
  refine ⟨hbpb ▸ hserves, hfile.symm, h.sound, ?_, ?_, ?_, ?_, ?_⟩
  · rw [hbpb]
    decide
  · rw [hbpb]
    decide
  · rw [hcount]
    exact (by decide : 2880 ≤ 80 * (2 * 18))
  · rw [hcount]
    decide
  · rw [hcapacity]
    decide

theorem diskette_loadable (h : d.Packs s own n) (hbpb : d.bpb = biosParamBlock)
    (hfile : d.file = img.data) (hi : i < d.rootCapacity) (hs : s i = some (label, f)) :
    Loadable (diskette img fault partialData scratch) d i :=
  ⟨diskette_bootable h.backs hbpb hfile, hi, h.file_consecutive hi hs⟩

/-- What the loader loads of a file is what was stored. -/
theorem Loadable.take_fileData {v : Drive} (h : Loadable v d i) (hd : d.Backs s own)
    (hs : s i = some (label, f)) :
    (d.rootEntry i).fileSize.toNat = f.data.length ∧ (fileData v d i).take f.data.length = f.data := by
  obtain ⟨data, hstored, hdata⟩ := hd.readFile_eq h.slot hs hd.sound.count_le_limit
  have hread := h.readFile_eq hd.sound.count_le_limit
  obtain rfl := Option.some.inj (Except.ok.inj (hread.symm.trans hstored))
  exact ⟨(hd.file i h.slot label f hs).size, hdata⟩

end Store

/-! ## From the shell to the kernel -/

/-- An image with the two files and the boot sector boots. -/
theorem boots_of_packs {img : Image} {s : RootStore} {A : BootCode}
    (hpacks : img.Packs biosParamBlock s) (hsector : slice img.data 0 512 = A.stage1)
    {attributes : Byte} {kernel : StoredFile}
    (hloader : SlotStore.lookup biosParamBlock.getRootCapacity s stage2Label =
      some ⟨attributes, A.stage2⟩)
    (hkernel : SlotStore.lookup biosParamBlock.getRootCapacity s kernelLabel = some kernel)
    (fault : Nat → Bool) (partialData : Nat → List Byte) (scratch : Nat → Memory) :
    ∃ d i k, Boots A (diskette img fault partialData scratch) d i k ∧
      kernelData (diskette img fault partialData scratch) d k = kernel.data := by
  -- who opens it does not matter
  obtain ⟨d, own, n, hopen, hbpb, hd⟩ := hpacks (addA []).host
  have hfile : d.file = img.data := by
    obtain ⟨-, -, hm, rfl⟩ := openDisk_zero.mp hopen
    rfl
  have hcapacity : biosParamBlock.getRootCapacity = d.rootCapacity := by
    rw [FatDisk.rootCapacity, hbpb]
  rw [hcapacity] at hloader hkernel
  obtain ⟨i, hi, hsi⟩ := (SlotStore.lookup_eq_iff hd.backs.distinct).mp hloader
  obtain ⟨k, hk, hsk⟩ := (SlotStore.lookup_eq_iff hd.backs.distinct).mp hkernel
  have hfirst : Loadable (diskette img fault partialData scratch) d i :=
    diskette_loadable hd hbpb hfile hi hsi
  have hsecond : Loadable (diskette img fault partialData scratch) d k :=
    diskette_loadable hd hbpb hfile hk hsk
  obtain ⟨hsize, himage⟩ := hfirst.take_fileData hd.backs hsi
  obtain ⟨hsize', hdata⟩ := hsecond.take_fileData hd.backs hsk
  have hsector' : (diskette img fault partialData scratch).sector 0 = A.stage1 := by
    rw [Drive.sector, Nat.mul_zero, SECTOR_SIZE]
    exact hsector
  refine ⟨d, i, k, ⟨hbpb, hsector', hfirst, firstNamed_of_backs hd.backs hi hsi, hsize, himage, hsecond,
    firstNamed_of_backs hd.backs hk hsk⟩, ?_⟩
  rw [kernelData, hsize', hdata]

/-- `BOOT.SYS`, and a kernel that halts. -/
def bootFiles : List StoreCommand :=
  [.add { addA bootSys with force := false, dst := text "boot.sys".toList },
    .attr { systemA with file := text "boot.sys".toList },
    .add { addA [0xFA, 0xF4] with force := false, dst := text "ohwes.sys".toList },
    .attr { systemA with file := text "ohwes.sys".toList }]

theorem names_loader : Fatfs.Names (text "boot.sys".toList) stage2Label :=
  ⟨by decide +kernel, by decide +kernel, by decide +kernel, by decide +kernel⟩

theorem names_kernel : Fatfs.Names (text "ohwes.sys".toList) kernelLabel :=
  ⟨by decide +kernel, by decide +kernel, by decide +kernel, by decide +kernel⟩

theorem createdBlock_formattable : Formattable (createdBlock 0) where
  checked := by decide +kernel
  room := (by decide : systemSectors biosParamBlock ≤ biosParamBlock.getSectorCount)
  size_lt := by
    rw [createdBlock_size]
    decide

end Ohwes.Boot

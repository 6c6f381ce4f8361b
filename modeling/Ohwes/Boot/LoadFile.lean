import Ohwes.Boot.BootFile
import Ohwes.Fatfs.Consecutive

/-! # Loading a file, and stage 1 -/

namespace Ohwes.Boot
open Library Fatfs
set_option autoImplicit false

def sectorsOf (e : DirEntry) : Nat := ceilDiv e.fileSize.toNat SECTOR_SIZE

theorem fileSectors_toNat {size : BitVec 32} (hpos : 0 < size.toNat)
    (hlt : ceilDiv size.toNat SECTOR_SIZE < 65536) :
    (fileSectors size).toNat = ceilDiv size.toNat SECTOR_SIZE := by
  have hone : (1 : BitVec 32).toNat = 1 := rfl
  have hone' : (1 : Word).toNat = 1 := rfl
  have hsize := size.isLt
  have hpred : (size - 1).toNat = size.toNat - 1 := by
    rw [BitVec.toNat_sub, hone]
    omega
  rw [ceilDiv, SECTOR_SIZE] at hlt ⊢
  rw [fileSectors, BitVec.toNat_add, BitVec.toNat_setWidth, BitVec.toNat_ushiftRight, hpred, SECTOR_SHIFT,
    Nat.shiftRight_eq_div_pow, hone']
  omega

/-- A disk with a file that the loader is asked for: its entry `k`. -/
structure Loadable (v : Drive) (d : FatDisk) (k : Nat) : Prop where
  boots : Bootable v d
  slot : k < d.rootCapacity
  file : d.Consecutive (d.rootEntry k)

/-- The sectors from the first cluster of the entry `k` on, as many as its size asks for. -/
def fileData (v : Drive) (d : FatDisk) (k : Nat) : List Byte :=
  slice v.data (512 * (d.bpb.fsDataSectors + ((d.rootEntry k).firstCluster.toNat - 2)))
    (512 * sectorsOf (d.rootEntry k))

theorem fileData_length (v : Drive) (d : FatDisk) (k : Nat) :
    (fileData v d k).length = 512 * sectorsOf (d.rootEntry k) := slice_length _ _ _

section File
variable {w : Workspace} {v : Drive} {d : FatDisk} {k : Nat} (h : Loadable v d k)
include h

theorem Loadable.sectors_eq :
    ceilDiv (d.rootEntry k).fileSize.toNat d.bpb.getClusterSize = sectorsOf (d.rootEntry k) := by
  rw [h.boots.clusterSize, sectorsOf, SECTOR_SIZE]

theorem Loadable.sectors_fit :
    2 ≤ (d.rootEntry k).firstCluster.toNat ∧ 0 < sectorsOf (d.rootEntry k) ∧
      d.bpb.fsDataSectors + ((d.rootEntry k).firstCluster.toNat - 2) + sectorsOf (d.rootEntry k) ≤
        d.bpb.getSectorCount := by
  have hfit := h.boots.sectors_fit
  have hsum := (fsDataSectors_sum d.bpb).1
  obtain ⟨n, hn, -⟩ := ceilDiv_bounds h.file.size_pos d.clusterSize_pos
  rw [h.sectors_eq] at hn
  have hfirst := d.mem_clusterNumbers.mp h.file.chain.head_range
  have hlast := d.mem_clusterNumbers.mp (h.file.chain.2 ((d.rootEntry k).firstCluster.toNat + n)
    (List.mem_range'_1.mpr ⟨Nat.le_add_right _ _, by rw [h.sectors_eq]; omega⟩))
  rw [FatDisk.rootBase] at hfit
  refine ⟨hfirst.1, by omega, ?_⟩
  omega

/-- What `ReadFile` reads of the file are its sectors. -/
theorem Loadable.readFile_eq {steps : Nat} (hsteps : d.bpb.getClusterCount ≤ steps) :
    d.readFile steps (d.rootEntry k) = .ok (some (fileData v d k)) := by
  rw [h.file.readFile_eq h.boots.sound hsteps, h.sectors_eq, h.boots.clusterSize, FatDisk.dataStart,
    h.boots.sectorSize_toNat, fileData, h.boots.data, ← Nat.add_mul, Nat.mul_comm 512, Nat.mul_comm 512]

/-- **`load_file` loads what `ReadFile` reads**, if the drive lets it. -/
theorem Loadable.loadFile_ensures {m : Machine} (hm : HoldsRoot m.memory d) {label : Word}
    (hlabel : loadWord m.memory label = firstCluster d.bpb) {es bx : Word} (hal : bx.toNat % 512 = 0)
    (hfree : w.Free (linear es bx) (512 * sectorsOf (d.rootEntry k))) :
    Ensures (fun r => w.Loaded m.memory (linear es bx) (fileData v d k) r.2.memory) v.Fails
      (loadFile w v d.bpb label m es bx (BitVec.ofNat 16 (entryBase k))) := by
  obtain ⟨hfirst, hpos, hfit⟩ := h.sectors_fit
  have hcount := h.boots.sectorCount_le
  have hcap := h.boots.capacity
  have hclusters : 0 < d.bpb.getClusterCount := by
    have := d.mem_clusterNumbers.mp h.file.chain.head_range
    omega
  have hlow := h.boots.firstCluster_toNat hclusters
  have hdata : 0 < d.bpb.fsDataSectors := by
    have hroot := h.boots.rootSectorCount_eq
    have hsum := (fsDataSectors_sum d.bpb).1
    omega
  have hsectors := fileSectors_toNat h.file.size_pos
    (by change sectorsOf _ < _; omega : ceilDiv (d.rootEntry k).fileSize.toNat SECTOR_SIZE < 65536)
  change _ = sectorsOf _ at hsectors
  have hlba : ((d.rootEntry k).firstCluster - CLUSTER_NUM_OFFSET + firstCluster d.bpb).toNat =
      d.bpb.fsDataSectors + ((d.rootEntry k).firstCluster.toNat - 2) := by
    have htwo : CLUSTER_NUM_OFFSET.toNat = 2 := rfl
    rw [BitVec.toNat_add, BitVec.toNat_sub, hlow, htwo]
    omega
  rw [loadFile, h.boots.loadCluster hm h.slot, h.boots.loadSize hm h.slot, hlabel, fileData, ← hlba,
    ← hsectors]
  rw [← hsectors] at hfree hpos hfit
  exact (h.boots.serves.loadSectors_ensures m hpos hal hfree (by omega) (by omega)).mono
    (fun _ hr => hr.2) fun _ he => he.fails

end File

/-! ## `stage1` -/

/-- The entry `k` of the root directory is the first with the name. -/
structure FirstNamed (d : FatDisk) (name : List Byte) (k : Nat) : Prop where
  slot : k < d.rootCapacity
  label : (d.rootEntry k).label.toList = name
  first : ∀ i < k, (d.rootEntry i).label.toList ≠ name

section Stage1
variable {w : Workspace} {v : Drive} {d : FatDisk} {k : Nat}

theorem FirstNamed.findFile_eq (h : Bootable v d) {m : Memory} (hm : HoldsRoot m d)
    {name : List Byte} (hk : FirstNamed d name k) :
    findFile d.bpb m name = .ok (BitVec.ofNat 16 (entryBase k)) := by
  have hfind : (List.range d.bpb.rootDirCapacity.toNat).find? (fun i => decide (nameAt m i = name)) =
      some k := by
    refine List.find?_range_eq_some.mpr ⟨?_, List.mem_range.mpr hk.slot, fun i hi => ?_⟩
    · rw [hm.nameAt_eq hk.slot, decide_eq_true hk.label]
    · rw [hm.nameAt_eq (hi.trans hk.slot), decide_eq_false (hk.first i hi), Bool.not_false]
  have hroom : entryBase d.bpb.rootDirCapacity.toNat ≤ 65536 := h.root_low.trans (by decide)
  rw [Boot.findFile_eq d.bpb d.mountable.rootDirCapacity_pos hroom, hfind]

theorem Bootable.loadRoot_ensures (h : Bootable v d) (m : Machine) :
    Ensures (fun r => r.1 = 0 ∧ HoldsRoot r.2.memory d ∧
        ∀ a, 0x7A00 ≤ a → ¬ w.Scratch a → r.2.memory a = m.memory a) v.Fails
      (loadSectors w v d.bpb m 0 ROOTDIR_BASE (rootSector d.bpb) (rootSectors d.bpb)) := by
  have hle := h.rootCapacity_le
  have hfit := h.sectors_fit
  have hcap := h.capacity
  have hcount := h.sectorCount_le
  have hroot := h.rootSectorCount_eq
  have hbase : ROOTDIR_BASE.toNat = 8192 := rfl
  have hlinear : linear 0 ROOTDIR_BASE = ROOTDIR_BASE.toNat := by decide
  have hlow : entryBase d.bpb.rootDirCapacity.toNat ≤ 0x7A00 := h.root_low
  change 8192 + 32 * _ ≤ 31232 at hlow
  have hfree : w.Free (linear 0 ROOTDIR_BASE) (512 * (rootSectors d.bpb).toNat) := by
    rw [hlinear, h.rootSectors_toNat]
    exact Or.inl ⟨by omega, by omega⟩
  have hpos : 0 < (rootSectors d.bpb).toNat := by
    rw [h.rootSectors_toNat]
    omega
  have hsectors : (rootSector d.bpb).toNat + (rootSectors d.bpb).toNat ≤ d.bpb.getSectorCount := by
    rw [h.rootSector_toNat, h.rootSectors_toNat]
    omega
  have hload := h.serves.loadSectors_ensures m hpos (by decide) hfree (hsectors.trans hcap)
    (hsectors.trans hcount)
  rw [hlinear, h.rootSector_toNat, h.rootSectors_toNat] at hload
  refine hload.mono (fun r hr => ?_) fun _ he => he.fails
  obtain ⟨hes, hheld, hframe⟩ := hr
  rw [slice_length] at hheld hframe
  have hnowrap : (ROOTDIR_BASE.toNat + 512 * d.bpb.rootSectorCount) / 65536 = 0 := by omega
  refine ⟨?_, h.holdsRoot hheld, fun a ha hscratch => hframe a (Or.inr (by omega)) hscratch⟩
  rw [hes, hnowrap]
  rfl

/-- What stage 1 hands over to stage 2: the root directory and the variable `first_cluster`, and the
sectors of the file. -/
structure Staged (v : Drive) (d : FatDisk) (k : Nat) (label : Word) (m m' : Memory) : Prop where
  root : HoldsRoot m' d
  first : loadWord m' label = firstCluster d.bpb
  stage2 : slice m' STAGE2_BASE.toNat (512 * sectorsOf (d.rootEntry k)) = fileData v d k
  sector : ∀ a, STACK_BASE.toNat ≤ a → a < STAGE2_BASE.toNat →
    a < label.toNat ∨ label.toNat + 2 ≤ a → m' a = m a

/-- **Stage 1 puts stage 2 where it jumps to**, if the drive lets it. -/
theorem Loadable.stage1_ensures (h : Loadable v d k) (hk : FirstNamed d stage2Filename k)
    (hcode : STAGE2_BASE.toNat ≤ w.codeEnd)
    (hfree : w.Free STAGE2_BASE.toNat (512 * sectorsOf (d.rootEntry k))) {label : Word}
    (hlabel : STACK_BASE.toNat ≤ label.toNat) (hlabel' : label.toNat + 2 ≤ STAGE2_BASE.toNat)
    (m : Machine) :
    Ensures (fun r => Staged v d k label m.memory r.2.memory) v.Fails
      (stage1 w v d.bpb label m) := by
  have hstack : STACK_BASE.toNat = 31744 := rfl
  have hbase : STAGE2_BASE.toNat = 32256 := rfl
  have htop := w.le_top
  have hlinear : linear 0 STAGE2_BASE = STAGE2_BASE.toNat := by decide
  have hkeep : ∀ a, STACK_BASE.toNat ≤ a → a < STAGE2_BASE.toNat → ¬ w.Scratch a := by
    intro a ha ha'
    rw [Workspace.Scratch]
    omega
  have hlow := h.boots.root_low
  refine (h.boots.loadRoot_ensures { m with
    memory := storeWord m.memory label.toNat (firstCluster d.bpb) }).bind fun r hr => ?_
  obtain ⟨es, m1⟩ := r
  obtain ⟨rfl, hroot, hframe⟩ := hr
  have hnext := succ_toNat (a := label) (by omega)
  have hfirst : loadWord m1.memory label = firstCluster d.bpb := by
    rw [loadWord_congr (hframe _ (by omega) (hkeep _ (by omega) (by omega)))
      (hframe _ (by omega) (hkeep _ (by omega) (by omega))), loadWord_storeWord _ (by omega)]
  change Ensures _ _ (findFile d.bpb m1.memory stage2Filename >>= _)
  rw [hk.findFile_eq h.boots hroot, ok_bind]
  rw [← hlinear] at hfree
  refine (h.loadFile_ensures hroot hfirst (by decide) hfree).mono (fun r hr => ?_) fun _ he => he
  obtain ⟨hheld, hframe'⟩ := hr
  rw [hlinear, fileData_length] at hheld hframe'
  -- what stage 1 left below the file is still there
  have hbelow : ∀ a, STACK_BASE.toNat ≤ a → a < STAGE2_BASE.toNat → r.2.memory a = m1.memory a :=
    fun a ha ha' => hframe' a (Or.inl ha') (hkeep a ha ha')
  refine ⟨hroot.congr fun a ha ha' => hframe' a (Or.inl (by omega)) ?_, ?_, hheld,
    fun a ha ha' happart => ?_⟩
  · change 8192 ≤ a at ha
    rw [Workspace.Scratch]
    omega
  · rw [loadWord_congr (hbelow _ (by omega) (by omega)) (hbelow _ (by omega) (by omega)), hfirst]
  · rw [hbelow a ha ha', hframe a (by omega) (hkeep a ha ha')]
    rcases happart with hbefore | hafter
    · exact overlay_before _ _ hbefore
    · exact overlay_after _ _ hafter

end Stage1

end Ohwes.Boot

import Ohwes.Boot.LoadSectors
import Ohwes.Fatfs.RootDir

/-! # The files that the boot loader finds

The loader sees the root directory and the sectors of the disk, and never the FAT. What it loads is
the file exactly as far as the clusters of the file follow one another. -/

namespace Ohwes.Boot
open Library Fatfs
set_option autoImplicit false

/-! ## Words in memory -/

theorem loadWord_congr {m m' : Memory} {a : Word} (hlow : m' a.toNat = m a.toNat)
    (hhigh : m' (a + 1).toNat = m (a + 1).toNat) : loadWord m' a = loadWord m a := by
  rw [loadWord, loadWord, hlow, hhigh]

theorem succ_toNat {a : Word} (h : a.toNat + 2 ≤ 65536) : (a + 1).toNat = a.toNat + 1 := by
  have hone : (1 : Word).toNat = 1 := rfl
  rw [BitVec.toNat_add, hone]
  omega

theorem loadWord_eq_getPair (m : Memory) {a : Word} (h : a.toNat + 2 ≤ 65536) :
    loadWord m a = getPair m a.toNat := by
  rw [loadWord, succ_toNat h, getPair]

theorem getPair_storeWord (m : Memory) (a : Nat) (x : Word) : getPair (storeWord m a x) a = x := by
  have hheld : ∀ i (hi : i < [x.extractLsb' 0 8, x.extractLsb' 8 8].length),
      storeWord m a x (a + i) = [x.extractLsb' 0 8, x.extractLsb' 8 8][i] :=
    fun _ hi => overlay_inside m a hi
  exact getPair_held hheld 0 x (by simp) rfl rfl

theorem loadWord_storeWord (m : Memory) {a : Word} (h : a.toNat + 2 ≤ 65536) (x : Word) :
    loadWord (storeWord m a.toNat x) a = x := by
  rw [loadWord_eq_getPair _ h, getPair_storeWord]

/-! ## Looking up a name -/

/-- The entry at `di`, below the end of the segment. -/
theorem bytesAt_eq {m : Memory} {di : Word} {n : Nat} (h : di.toNat + n ≤ 65536) :
    bytesAt m di n = slice m di.toNat n := by
  refine List.map_congr_left fun i hi => congrArg m ?_
  have hi := List.mem_range.mp hi
  rw [BitVec.toNat_add, BitVec.toNat_ofNat]
  omega

/-- Where the entry `k` of the root directory is. -/
def entryBase (k : Nat) : Nat := ROOTDIR_BASE.toNat + DIR_ENTRY_SIZE * k

/-- The first `n` bytes at the entries. -/
def nameAt (m : Memory) (k : Nat) : List Byte := slice m (entryBase k) FILENAME_LENGTH

theorem entryBase_succ (k : Nat) : entryBase (k + 1) = entryBase k + 32 := rfl

theorem entryBase_toNat {k : Nat} (h : entryBase (k + 1) ≤ 65536) :
    (BitVec.ofNat 16 (entryBase k)).toNat = entryBase k := by
  rw [entryBase_succ] at h
  exact Nat.mod_eq_of_lt (by omega)

theorem bytesAt_entry (m : Memory) {k : Nat} (h : entryBase (k + 1) ≤ 65536) :
    bytesAt m (BitVec.ofNat 16 (entryBase k)) FILENAME_LENGTH = nameAt m k := by
  have hdi := entryBase_toNat h
  rw [entryBase_succ] at h
  rw [bytesAt_eq (by rw [hdi, FILENAME_LENGTH]; omega), hdi, nameAt]

theorem entryBase_le {i j : Nat} (h : i ≤ j) : entryBase i ≤ entryBase j :=
  Nat.add_le_add_left (Nat.mul_le_mul_left DIR_ENTRY_SIZE h) _

theorem findLoop_eq {m : Memory} {name : List Byte} {n k : Nat} {bx : Word}
    (hbx : bx.toNat = n + 1) (hroom : entryBase (k + (n + 1)) ≤ 65536) {passes : Nat}
    (hpasses : n < passes) :
    findLoop m name passes (BitVec.ofNat 16 (entryBase k)) bx =
      match (List.range' k (n + 1)).find? fun i => nameAt m i = name with
      | none => .error diskError
      | some i => .ok (BitVec.ofNat 16 (entryBase i)) := by
  have hone : (1 : Word).toNat = 1 := rfl
  induction n generalizing k bx passes with
  | zero =>
    obtain ⟨passes, rfl⟩ : ∃ p, passes = p + 1 := ⟨passes - 1, by omega⟩
    have hlast : bx - 1 = 0 := by
      refine BitVec.eq_of_toNat_eq ?_
      rw [BitVec.toNat_sub, hbx, hone]
      rfl
    rw [findLoop, bytesAt_entry m hroom, List.range'_one, List.find?_singleton, hlast, if_pos rfl]
    by_cases hname : nameAt m k = name
    · rw [if_pos hname, if_pos (decide_eq_true hname)]
    · rw [if_neg hname, if_neg (by rw [decide_eq_false hname]; exact Bool.false_ne_true)]
  | succ n ih =>
    obtain ⟨passes, rfl⟩ : ∃ p, passes = p + 1 := ⟨passes - 1, by omega⟩
    have hlt := bx.isLt
    have hroom1 : entryBase (k + 1) ≤ 65536 := (entryBase_le (by omega)).trans hroom
    have hmore : (bx - 1).toNat = n + 1 := by
      rw [BitVec.toNat_sub, hbx, hone]
      omega
    have hne : ¬ bx - 1 = 0 := by
      intro h0
      rw [h0] at hmore
      exact absurd hmore (by simp)
    have hnext : BitVec.ofNat 16 (entryBase k) + BitVec.ofNat 16 (2 ^ DIRENTRY_SHIFT) =
        BitVec.ofNat 16 (entryBase (k + 1)) := (BitVec.ofNat_add _ _).symm
    rw [findLoop, bytesAt_entry m hroom1, if_neg hne, hnext, List.range'_succ, List.find?_cons]
    by_cases hname : nameAt m k = name
    · rw [if_pos hname, decide_eq_true hname]
    · rw [if_neg hname, decide_eq_false hname]
      have hroom2 : entryBase (k + 1 + (n + 1)) ≤ 65536 := (entryBase_le (by omega)).trans hroom
      exact ih hmore hroom2 (by omega)

/-- **`find_file` finds the first entry with the name**, whatever else the entry says. -/
theorem findFile_eq (b : BiosParamBlock) {m : Memory} {name : List Byte}
    (hpos : b.rootDirCapacity ≠ 0) (hroom : entryBase b.rootDirCapacity.toNat ≤ 65536) :
    findFile b m name =
      match (List.range b.rootDirCapacity.toNat).find? fun i => nameAt m i = name with
      | none => .error diskError
      | some i => .ok (BitVec.ofNat 16 (entryBase i)) := by
  have hlt := b.rootDirCapacity.isLt
  obtain ⟨n, hn⟩ : ∃ n, b.rootDirCapacity.toNat = n + 1 := by
    refine ⟨b.rootDirCapacity.toNat - 1, ?_⟩
    have hne : b.rootDirCapacity.toNat ≠ 0 := fun h0 => hpos (BitVec.eq_of_toNat_eq h0)
    omega
  have hstart : ROOTDIR_BASE = BitVec.ofNat 16 (entryBase 0) := rfl
  rw [hn] at hroom
  rw [findFile, hstart, findLoop_eq hn (by rwa [Nat.zero_add]) (by omega), hn, List.range_eq_range']

/-! ## The disk -/

/-- What the loader takes for granted of the disk: a cluster is one sector, a sector count has eight
bits where `mulb` takes it, and the root directory ends below the stack. -/
structure Bootable (v : Drive) (d : FatDisk) : Prop where
  serves : v.Serves d.bpb
  data : v.data = d.file
  sound : d.Sound
  sectorsPerCluster : d.bpb.sectorsPerCluster = 1
  sectorsPerTable_lt : d.bpb.sectorsPerTable.toNat < 256
  capacity : d.bpb.getSectorCount ≤ v.capacity
  sectorCount_le : d.bpb.getSectorCount ≤ 65536
  root_low : entryBase d.rootCapacity ≤ 0x7A00

section Disk
variable {v : Drive} {d : FatDisk} (h : Bootable v d)
include h

theorem Bootable.sectorSize_toNat : d.bpb.sectorSize.toNat = 512 := by
  rw [h.serves.sectorSize]
  rfl

theorem Bootable.clusterSize : d.bpb.getClusterSize = 512 := by
  rw [BiosParamBlock.getClusterSize, h.sectorSize_toNat, h.sectorsPerCluster]
  rfl

theorem Bootable.rootCapacity_le : d.bpb.rootDirCapacity.toNat ≤ 720 := by
  have hlow := h.root_low
  rw [entryBase, DIR_ENTRY_SIZE, FatDisk.rootCapacity, BiosParamBlock.getRootCapacity] at hlow
  change 8192 + _ ≤ 31232 at hlow
  omega

theorem Bootable.sectors_fit :
    d.rootBase + d.bpb.rootSectorCount + d.bpb.getClusterCount ≤ d.bpb.getSectorCount := by
  have hfit := Fatfs.sectors_fit d.bpb d.mountable.sectorsPerCluster_pos (getSectorCount_lt d.bpb)
    h.sound.limit
  have hsum := (fsDataSectors_sum d.bpb).1
  have hone : d.bpb.sectorsPerCluster.toNat = 1 := by
    rw [h.sectorsPerCluster]
    rfl
  rw [hone, Nat.mul_one, hsum] at hfit
  exact hfit

theorem Bootable.rootSectorCount_eq :
    d.bpb.rootSectorCount = (d.bpb.rootDirCapacity.toNat * 32 - 1) / 512 + 1 := by
  have hpos := d.rootCapacity_pos
  rw [FatDisk.rootCapacity, BiosParamBlock.getRootCapacity] at hpos
  rw [BiosParamBlock.rootSectorCount, ceilDiv, h.sectorSize_toNat, DIR_ENTRY_SIZE]
  omega

theorem Bootable.rootSector_toNat : (rootSector d.bpb).toNat = d.rootBase := by
  have hfit := h.sectors_fit
  have hcount := h.sectorCount_le
  have hroot := h.rootSectorCount_eq
  have hbyte : ((d.bpb.sectorsPerTable.setWidth 8).setWidth 16 : Word).toNat =
      d.bpb.sectorsPerTable.toNat := by
    have hlt := h.sectorsPerTable_lt
    rw [BitVec.toNat_setWidth, BitVec.toNat_setWidth]
    omega
  have hcopies : (d.bpb.tableCount.setWidth 16 : Word).toNat = d.bpb.tableCount.toNat := by
    rw [BitVec.toNat_setWidth]
    omega
  rw [FatDisk.rootBase] at hfit ⊢
  rw [rootSector, BitVec.toNat_add, BitVec.toNat_mul, hbyte, hcopies]
  generalize d.bpb.sectorsPerTable.toNat * d.bpb.tableCount.toNat = fats at *
  omega

theorem Bootable.rootSectors_toNat : (rootSectors d.bpb).toNat = d.bpb.rootSectorCount := by
  have hle := h.rootCapacity_le
  have hpos := d.rootCapacity_pos
  rw [FatDisk.rootCapacity, BiosParamBlock.getRootCapacity] at hpos
  have hshift : (d.bpb.rootDirCapacity <<< DIRENTRY_SHIFT).toNat = d.bpb.rootDirCapacity.toNat * 32 := by
    rw [BitVec.toNat_shiftLeft, DIRENTRY_SHIFT, Nat.shiftLeft_eq, Nat.mod_eq_of_lt (by omega)]
  have hone : (1 : Word).toNat = 1 := rfl
  have hpred : (d.bpb.rootDirCapacity <<< DIRENTRY_SHIFT - 1).toNat =
      d.bpb.rootDirCapacity.toNat * 32 - 1 := by
    rw [BitVec.toNat_sub, hshift, hone]
    omega
  rw [rootSectors, BitVec.toNat_add, BitVec.toNat_ushiftRight, hpred, SECTOR_SHIFT,
    Nat.shiftRight_eq_div_pow, h.rootSectorCount_eq, hone]
  omega

theorem Bootable.firstCluster_toNat (hcount : 0 < d.bpb.getClusterCount) :
    (firstCluster d.bpb).toNat = d.bpb.fsDataSectors := by
  have hfit := h.sectors_fit
  have hle := h.sectorCount_le
  rw [firstCluster, BitVec.toNat_add, h.rootSector_toNat, h.rootSectors_toNat,
    (fsDataSectors_sum d.bpb).1, FatDisk.rootBase] at *
  exact Nat.mod_eq_of_lt (by omega)

end Disk

/-! ## The root directory in memory -/

/-- The entries of the root directory are where stage 1 loads them. -/
def HoldsRoot (m : Memory) (d : FatDisk) : Prop :=
  ∀ a < DIR_ENTRY_SIZE * d.rootCapacity, m (ROOTDIR_BASE.toNat + a) = d.file (d.rootStart + a)

section Root
variable {v : Drive} {d : FatDisk} {m : Memory}

theorem HoldsRoot.congr {m' : Memory} (hm : HoldsRoot m d)
    (heq : ∀ a, ROOTDIR_BASE.toNat ≤ a → a < entryBase d.rootCapacity → m' a = m a) : HoldsRoot m' d :=
  fun a ha => (heq _ (Nat.le_add_right _ _) (Nat.add_lt_add_left ha _)).trans (hm a ha)

variable (h : Bootable v d) (hm : HoldsRoot m d) {k : Nat} (hk : k < d.rootCapacity)

include h in
theorem Bootable.holdsRoot (hheld : slice m ROOTDIR_BASE.toNat (512 * d.bpb.rootSectorCount) =
    slice v.data (512 * d.rootBase) (512 * d.bpb.rootSectorCount)) : HoldsRoot m d := by
  intro a ha
  have hle := d.rootCapacity_le
  rw [FatDisk.rootBytes, h.sectorSize_toNat] at hle
  have hstart : d.rootStart = 512 * d.rootBase := by
    rw [FatDisk.rootStart, h.sectorSize_toNat, Nat.mul_comm]
  rw [slice_eq_slice.mp hheld a (by omega), hstart, h.data]

include hk

include hm in
theorem HoldsRoot.entry : entryAt (fun a => m (ROOTDIR_BASE.toNat + a)) k = d.rootEntry k := by
  refine entryAt_congr fun a _ ha => hm a ?_
  exact lt_of_lt_of_le ha (Nat.mul_le_mul_left _ hk)

include hm in
theorem HoldsRoot.nameAt_eq : nameAt m k = (d.rootEntry k).label.toList := by
  rw [← hm.entry hk]
  refine List.ext_getElem (by simp [nameAt, FILENAME_LENGTH]) fun i hi hi' => ?_
  simp [nameAt, slice, entryAt, DirEntry.ofBytes, entryBase, Nat.add_assoc]

include h

theorem Bootable.entryBase_le : entryBase (k + 1) ≤ 0x7A00 :=
  (Boot.entryBase_le hk).trans h.root_low

include hm

theorem Bootable.loadCluster :
    loadWord m (BitVec.ofNat 16 (entryBase k) + CLUSTER) = (d.rootEntry k).firstCluster := by
  have hlow := h.entryBase_le hk
  rw [entryBase_succ] at hlow
  have hdi : (BitVec.ofNat 16 (entryBase k) + CLUSTER).toNat = entryBase k + 26 := by
    rw [BitVec.toNat_add, BitVec.toNat_ofNat]
    change (entryBase k % 65536 + 26) % 65536 = _
    omega
  have hdi' : (BitVec.ofNat 16 (entryBase k) + CLUSTER + 1).toNat = entryBase k + 26 + 1 := by
    rw [BitVec.toNat_add, hdi]
    change (entryBase k + 26 + 1) % 65536 = _
    omega
  rw [loadWord, hdi, hdi', ← hm.entry hk, entryAt, DirEntry.ofBytes, entryBase]
  simp only [getPair, Nat.add_assoc]

theorem Bootable.loadSize :
    loadLong m (BitVec.ofNat 16 (entryBase k) + FILESIZE) = (d.rootEntry k).fileSize := by
  have hlow := h.entryBase_le hk
  rw [entryBase_succ] at hlow
  have hbase : (BitVec.ofNat 16 (entryBase k) + FILESIZE).toNat = entryBase k + 28 := by
    rw [BitVec.toNat_add, BitVec.toNat_ofNat]
    change (entryBase k % 65536 + 28) % 65536 = _
    omega
  have hat : ∀ x : Word, x.toNat ≤ 3 → (BitVec.ofNat 16 (entryBase k) + FILESIZE + x).toNat =
      entryBase k + (28 + x.toNat) := by
    intro x hx
    rw [BitVec.toNat_add, hbase]
    omega
  have h21 : BitVec.ofNat 16 (entryBase k) + FILESIZE + 2 + 1 =
      BitVec.ofNat 16 (entryBase k) + FILESIZE + 3 := by
    rw [BitVec.add_assoc]
    rfl
  rw [loadLong, loadWord, loadWord, h21, hbase, hat 1 (by decide), hat 2 (by decide),
    hat 3 (by decide), ← hm.entry hk, entryAt, DirEntry.ofBytes, entryBase]
  simp only [getLong, getPair, Nat.add_assoc]
  rfl

end Root

end Ohwes.Boot

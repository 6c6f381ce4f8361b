import Mathlib.Tactic.Ring
import Ohwes.Fatfs.Format

/-! # The volume that `CreateNew` lays out

The five areas of a volume, one behind the other, and when `CreateNew` writes exactly them from the
base sector on. -/

namespace Ohwes.Fatfs
open Library
set_option autoImplicit false

/-! ## What a row of writes leaves -/

theorem writeAll_file (w : Writer) (chunks : List (List Byte)) :
    (w.writeAll chunks).file = w.file.write chunks.flatten := by
  induction chunks generalizing w with
  | nil => rfl
  | cons bs chunks ih =>
    have h := ih ⟨w.file.write bs, w.bytesWritten + bs.length⟩
    rw [List.flatten_cons, ← HostFile.write_write]
    exact h

theorem writeAll_bytesWritten (w : Writer) (chunks : List (List Byte)) :
    (w.writeAll chunks).bytesWritten = w.bytesWritten + chunks.flatten.length := by
  induction chunks generalizing w with
  | nil => rfl
  | cons bs chunks ih =>
    have h := ih ⟨w.file.write bs, w.bytesWritten + bs.length⟩
    rw [List.flatten_cons, List.length_append, ← Nat.add_assoc]
    exact h

theorem flatten_replicate_length (n : Nat) (bs : List Byte) :
    (List.replicate n bs).flatten.length = n * bs.length := by
  simp [List.length_flatten]

theorem zeroPadded_length (bs : List Byte) {size : Nat} (h : bs.length ≤ size) :
    (zeroPadded bs size).length = size := by
  rw [zeroPadded, List.length_append, List.length_replicate]
  omega

section Areas
variable (junk : Buffer) (now : Tm) (bpb : BiosParamBlock)

theorem bootSectorBuf_length {size : Nat} (h : 512 ≤ size) :
    (bootSectorBuf junk bpb size).length = size := by
  rw [bootSectorBuf, List.length_append, initBootSector_length, slice_length]
  omega

theorem rootSectors_length {count size : Nat} (h : 512 ≤ size) :
    (rootSectors now bpb count size).flatten.length = count * size := by
  have hall : ∀ bs ∈ rootSectors now bpb count size, bs.length = size := by
    intro bs hbs
    obtain ⟨i, _, rfl⟩ := List.mem_map.mp hbs
    refine zeroPadded_length _ ?_
    split
    · rw [DirEntry.bytes_length, DIR_ENTRY_SIZE]
      omega
    · exact Nat.zero_le _
  rw [List.length_flatten, List.map_congr_left hall, List.map_const', List.sum_replicate_nat,
    rootSectors, List.length_map, List.length_range]

/-! ## The areas -/

/-- The sectors of the reserved area, the FATs and the root directory. -/
def systemSectors : Nat :=
  bpb.reservedSectorCount.toNat + bpb.sectorsPerTable.toNat * bpb.tableCount.toNat +
    bpb.rootSectorCount

def clusterCount : Nat :=
  (bpb.getSectorCount - systemSectors bpb) / bpb.sectorsPerCluster.toNat

def leftOverSectors : Nat :=
  (bpb.getSectorCount - systemSectors bpb) % bpb.sectorsPerCluster.toNat

/-- The table of a freshly formatted disk. -/
def freshFat : Buffer :=
  let fat := zeroFill junk (bpb.sectorsPerTable.toNat * bpb.sectorSize.toNat)
  if clusterCount bpb ≤ MAX_CLUSTERS_12 then
    (setCluster12 (setCluster12 fat 0 (0x0F00 + bpb.mediaType.toNat)).2 1 CLUSTER_EOC_12).2
  else (setCluster16 (setCluster16 fat 0 (0xFF00 + bpb.mediaType.toNat)).2 1 CLUSTER_EOC_16).2

/-- The reserved sectors, every copy of the FAT, the root directory, the clusters and the left-over
sectors. -/
def areas : List (List Byte) :=
  let sectorSize := bpb.sectorSize.toNat
  [ (List.replicate bpb.reservedSectorCount.toNat (bootSectorBuf junk bpb sectorSize)).flatten,
    (List.replicate bpb.tableCount.toNat
      (slice (freshFat junk bpb) 0 (bpb.sectorsPerTable.toNat * sectorSize))).flatten,
    (rootSectors now bpb bpb.rootSectorCount sectorSize).flatten,
    (List.replicate (clusterCount bpb) (zeroPadded [] bpb.getClusterSize)).flatten,
    (List.replicate (leftOverSectors bpb) (zeroPadded [] sectorSize)).flatten ]

/-- The block passes the checks of `CreateNew` and describes a volume below 4 GiB that has room for
its own system areas. -/
structure Formattable : Prop where
  checked : checkNewBpb bpb = .ok ()
  room : systemSectors bpb ≤ bpb.getSectorCount
  size_lt : bpb.getSectorCount * bpb.sectorSize.toNat < 4294967296

/-- The call comes back, and the file it leaves holds the areas from the base sector on, each right
behind the one before, `sectorCount * sectorSize` bytes in all, with nothing written before or
behind. -/
def WritesVolume (sector : BitVec 32) (r : Call (Except String HostFile)) : Prop :=
  ∃ f : HostFile, r = .ok (.ok f) ∧
    (areas junk now bpb).map List.length =
      [bpb.reservedSectorCount.toNat * bpb.sectorSize.toNat,
        bpb.tableCount.toNat * (bpb.sectorsPerTable.toNat * bpb.sectorSize.toNat),
        bpb.rootSectorCount * bpb.sectorSize.toNat,
        clusterCount bpb * bpb.getClusterSize,
        leftOverSectors bpb * bpb.sectorSize.toNat] ∧
    (areas junk now bpb).flatten.length = bpb.getSectorCount * bpb.sectorSize.toNat ∧
    f.data = overlay (fun _ => 0) (sector.toNat * 512) (areas junk now bpb).flatten ∧
    f.size = sector.toNat * 512 + bpb.getSectorCount * bpb.sectorSize.toNat

end Areas

/-! ## The numbers of the layout -/

section Numbers
variable {bpb : BiosParamBlock}

theorem checkNewBpb_sectorSize (hc : checkNewBpb bpb = .ok ()) : 512 ≤ bpb.sectorSize.toNat := by
  simp only [checkNewBpb, require_bind_ok, MIN_SECTOR_SIZE, Bool.not_eq_true'] at hc
  exact Nat.not_lt.mp (of_decide_eq_false hc.2.2.2.1)

theorem Formattable.sectorSize_ge (h : Formattable bpb) : 512 ≤ bpb.sectorSize.toNat :=
  checkNewBpb_sectorSize h.checked

theorem Formattable.counts (h : Formattable bpb) :
    bpb.sectorCount = 0 ∧ 0 < bpb.sectorCountLarge.toNat ∨
      bpb.sectorCount ≠ 0 ∧ bpb.sectorCountLarge = 0 := by
  have hc := h.checked
  simp only [checkNewBpb, require_bind_ok] at hc
  obtain ⟨hzero, hboth, -⟩ := hc
  by_cases hs : bpb.sectorCount = 0
  · refine Or.inl ⟨hs, ?_⟩
    have hl : bpb.sectorCountLarge ≠ 0 := by simpa [hs] using hzero
    bv_omega
  · exact Or.inr ⟨hs, by simpa using (by simpa using hboth : _ ∨ _).resolve_left hs⟩

theorem Formattable.sectorCount_pos (h : Formattable bpb) : 0 < bpb.getSectorCount := by
  rw [BiosParamBlock.getSectorCount]
  rcases h.counts with ⟨hs, hl⟩ | ⟨hs, -⟩
  · rwa [if_pos hs]
  · rw [if_neg hs]
    bv_omega

/-- A volume below 4 GiB has fewer than `2 ^ 23` sectors. -/
theorem Formattable.sectorCount_lt (h : Formattable bpb) : bpb.getSectorCount < 8388608 := by
  have hs := Nat.mul_le_mul_left bpb.getSectorCount h.sectorSize_ge
  have hlt := h.size_lt
  omega

theorem rootSize_lt (bpb : BiosParamBlock) :
    bpb.rootDirCapacity.toNat * DIR_ENTRY_SIZE < 2097152 := by
  have := bpb.rootDirCapacity.isLt
  rw [DIR_ENTRY_SIZE]
  omega

/-- No number of the layout of a volume below 4 GiB wraps around. -/
theorem layout_eq (h : Formattable bpb) (sector : BitVec 32) :
    layout bpb sector =
      { baseAddr := u32 (sector.toNat * 512)
        sectorSize := bpb.sectorSize.toNat
        sectorsPerCluster := bpb.sectorsPerCluster.toNat
        clusterSize := bpb.getClusterSize
        diskSize := bpb.sectorCount.toNat * bpb.sectorSize.toNat + u32 (sector.toNat * 512)
        resSectorCount := bpb.reservedSectorCount.toNat
        fatSectorCount := bpb.sectorsPerTable.toNat
        fatSize := bpb.sectorsPerTable.toNat * bpb.sectorSize.toNat
        fatCount := bpb.tableCount.toNat
        rootSectorCount := bpb.rootSectorCount
        clusters := clusterCount bpb
        extraSectors := leftOverSectors bpb } := by
  have hroom := h.room
  have hlt := h.sectorCount_lt
  have hsize := bpb.sectorSize.isLt
  have hroot : u32 (bpb.rootDirCapacity.toNat * DIR_ENTRY_SIZE) = _ :=
    u32_of_lt (by have := rootSize_lt bpb; omega)
  have hsystem : u32 (bpb.reservedSectorCount.toNat + bpb.sectorsPerTable.toNat *
      bpb.tableCount.toNat + bpb.rootSectorCount) = systemSectors bpb := by
    refine u32_of_lt ?_
    change systemSectors bpb < _
    omega
  have hdata := u32Sub_of_le (by omega) hroom
  have hmul := Nat.div_mul_le_self (bpb.getSectorCount - systemSectors bpb)
    bpb.sectorsPerCluster.toNat
  have hextra : u32Sub (bpb.getSectorCount - systemSectors bpb)
      (u32 (clusterCount bpb * bpb.sectorsPerCluster.toNat)) = leftOverSectors bpb := by
    rw [clusterCount, u32_of_lt (by omega), u32Sub_of_le (by omega) hmul, leftOverSectors,
      Nat.mod_eq_sub_div_mul]
  have hcluster : u32 (bpb.sectorSize.toNat * bpb.sectorsPerCluster.toNat) = bpb.getClusterSize := by
    refine u32_of_lt ?_
    have := Nat.mul_lt_mul'' hsize bpb.sectorsPerCluster.isLt
    omega
  have hfat : u32 (bpb.sectorsPerTable.toNat * bpb.sectorSize.toNat) = _ :=
    u32_of_lt (by have := Nat.mul_lt_mul'' bpb.sectorsPerTable.isLt hsize; omega)
  have hdisk : u32 (bpb.sectorCount.toNat * bpb.sectorSize.toNat) = _ :=
    u32_of_lt (by have := Nat.mul_lt_mul'' bpb.sectorCount.isLt hsize; omega)
  have hcount : ceilDiv (bpb.rootDirCapacity.toNat * DIR_ENTRY_SIZE) bpb.sectorSize.toNat =
    bpb.rootSectorCount := rfl
  have hclusters : (bpb.getSectorCount - systemSectors bpb) / bpb.sectorsPerCluster.toNat =
    clusterCount bpb := rfl
  simp only [layout, hroot, hcluster, hfat, hdisk, hcount, hsystem, hdata, hclusters, hextra]

theorem createNewFat12_eq (h : Formattable bpb) :
    createNewFat12 bpb = decide (clusterCount bpb ≤ MAX_CLUSTERS_12) := by
  rw [createNewFat12, layout_eq h]

theorem newFat_eq (junk : Buffer) (h : Formattable bpb) :
    newFat junk bpb (bpb.sectorsPerTable.toNat * bpb.sectorSize.toNat) =
      .ok (freshFat junk bpb) := by
  rw [newFat, createNewFat12_eq h, freshFat]
  by_cases hc : clusterCount bpb ≤ MAX_CLUSTERS_12
  · simp only [hc, decide_true, if_true]
    rfl
  · simp only [hc, decide_false, if_false]
    rfl

end Numbers

@[simp] theorem startWriter_bytesWritten (base : Nat) : (startWriter base).bytesWritten = base := by
  by_cases h : base = 0
  · subst h
    rfl
  · rw [startWriter, if_pos h]

theorem startWriter_file (base : Nat) : (startWriter base).file = ⟨fun _ => 0, 0, base⟩ := by
  by_cases h : base = 0
  · subst h
    rfl
  · rw [startWriter, if_pos h]
    rfl

/-- The assertions of `CreateNew` over areas of `R`, `P`, `D`, `C` and `X` sectors of size `S` that
fill a volume of `N` sectors, where the disk size was computed from `M` sectors. -/
theorem layout_assertions {B S R P D C X N M : Nat} (hS : 0 < S) (hN : R + P + D + C + X = N)
    (hlt : N * S < 4294967296) :
    (B + S + (R - 1) * S = B + u32 (R * S) ∧
      (B + S + (R - 1) * S + P * S) % S = 0 ∧
      B + S + (R - 1) * S + P * S = B + u32 ((R + P) * S) ∧
      B + S + (R - 1) * S + P * S + D * S = B + u32 ((R + P + D) * S) ∧
      (B + S + (R - 1) * S + P * S + D * S + C * S + X * S) % S = 0 ∧
      B + S + (R - 1) * S + P * S + D * S + C * S + X * S = M * S + B ∧
      B + S + (R - 1) * S + P * S + D * S + C * S + X * S =
        B + u32 ((R + P + D + C + X) * S)) ↔
    R ≠ 0 ∧ B % S = 0 ∧ N = M := by
  rcases Nat.eq_zero_or_pos R with rfl | hR
  · have hzero : B + S + (0 - 1) * S ≠ B + u32 (0 * S) := by
      rw [Nat.zero_mul, u32_of_lt (by omega)]
      omega
    exact ⟨fun h => absurd h.1 hzero, fun h => absurd rfl h.1⟩
  · have hfirst : B + S + (R - 1) * S = B + R * S := by
      obtain ⟨r, rfl⟩ : ∃ r, R = r + 1 := ⟨R - 1, by omega⟩
      rw [Nat.add_sub_cancel, Nat.add_mul, Nat.one_mul]
      omega
    have hwrap : ∀ k, k ≤ N → u32 (k * S) = k * S := fun k hk =>
      u32_of_lt (lt_of_le_of_lt (Nat.mul_le_mul_right S hk) hlt)
    rw [hfirst, hwrap R (by omega), hwrap (R + P) (by omega), hwrap (R + P + D) (by omega), hN,
      hwrap N (by omega)]
    have hFat : B + R * S + P * S = B + (R + P) * S := by ring
    have hAll : B + (R + P) * S + D * S + C * S + X * S = B + N * S := by
      rw [← hN]
      ring
    have hRoot : B + (R + P) * S + D * S = B + (R + P + D) * S := by ring
    have hsame : B + N * S = M * S + B ↔ N = M := by
      rw [Nat.add_comm (M * S), Nat.add_left_cancel_iff, Nat.mul_left_inj hS.ne']
    rw [hFat, hAll, hRoot, hsame, Nat.add_mul_mod_self_right, Nat.add_mul_mod_self_right]
    simp only [true_and, and_true, ne_eq, hR.ne', not_false_eq_true]
    tauto

/-- The sectors of the areas together are all the sectors of the disk. -/
theorem areas_fill {bpb : BiosParamBlock} (h : Formattable bpb) :
    bpb.reservedSectorCount.toNat + bpb.sectorsPerTable.toNat * bpb.tableCount.toNat +
      bpb.rootSectorCount + clusterCount bpb * bpb.sectorsPerCluster.toNat + leftOverSectors bpb =
      bpb.getSectorCount := by
  have hroom := h.room
  have hdiv := Nat.div_add_mod' (bpb.getSectorCount - systemSectors bpb)
    bpb.sectorsPerCluster.toNat
  change systemSectors bpb + _ + _ = _
  rw [clusterCount, leftOverSectors]
  omega

section Written
variable (junk : Buffer) (now : Tm) {bpb : BiosParamBlock}

theorem writeImage_ok (h : Formattable bpb) (sector : BitVec 32) (f : HostFile) :
    writeImage junk now bpb (layout bpb sector) = .ok f ↔
      (bpb.reservedSectorCount.toNat ≠ 0 ∧
        u32 (sector.toNat * 512) % bpb.sectorSize.toNat = 0 ∧
        bpb.getSectorCount = bpb.sectorCount.toNat) ∧
      (startWriter (u32 (sector.toNat * 512))).file.write
        ((bootSectorBuf junk bpb bpb.sectorSize.toNat ++
          (List.replicate (bpb.reservedSectorCount.toNat - 1)
            (bootSectorBuf junk bpb bpb.sectorSize.toNat)).flatten) ++
          (areas junk now bpb).tail.flatten) = f := by
  have hsize := h.sectorSize_ge
  have hboot : [bootSectorBuf junk bpb bpb.sectorSize.toNat].flatten.length =
      bpb.sectorSize.toNat := by
    rw [List.flatten_singleton, bootSectorBuf_length junk bpb hsize]
  have hfats : bpb.tableCount.toNat * (bpb.sectorsPerTable.toNat * bpb.sectorSize.toNat) =
      bpb.sectorsPerTable.toNat * bpb.tableCount.toNat * bpb.sectorSize.toNat := by ring
  have hclusters : clusterCount bpb * bpb.getClusterSize =
      clusterCount bpb * bpb.sectorsPerCluster.toNat * bpb.sectorSize.toNat := by
    rw [BiosParamBlock.getClusterSize]
    ring
  rw [layout_eq h, writeImage]
  simp only [newFat_eq junk h, ok_bind, assert_bind_ok, writeAll_bytesWritten, writeAll_file,
    decide_eq_true_eq, startWriter_bytesWritten, flatten_replicate_length, slice_length, hboot,
    bootSectorBuf_length junk bpb hsize, rootSectors_length now bpb hsize, HostFile.write_write, hfats,
    zeroPadded_length [] (Nat.zero_le _), hclusters]
  rw [← layout_assertions (by omega) (areas_fill h) h.size_lt]
  simp only [areas, List.tail_cons, List.flatten_cons, List.flatten_nil, List.append_nil,
    List.append_assoc, and_assoc, pure, Except.pure, Except.ok.injEq]

theorem areas_flatten (h : bpb.reservedSectorCount.toNat ≠ 0) :
    bootSectorBuf junk bpb bpb.sectorSize.toNat ++
        (List.replicate (bpb.reservedSectorCount.toNat - 1)
          (bootSectorBuf junk bpb bpb.sectorSize.toNat)).flatten ++
      (areas junk now bpb).tail.flatten = (areas junk now bpb).flatten := by
  obtain ⟨r, hr⟩ : ∃ r, bpb.reservedSectorCount.toNat = r + 1 :=
    ⟨bpb.reservedSectorCount.toNat - 1, by omega⟩
  simp only [areas, hr, Nat.add_sub_cancel, List.replicate_succ, List.flatten_cons, List.tail_cons]

theorem areas_lengths (h : Formattable bpb) :
    (areas junk now bpb).map List.length =
      [bpb.reservedSectorCount.toNat * bpb.sectorSize.toNat,
        bpb.tableCount.toNat * (bpb.sectorsPerTable.toNat * bpb.sectorSize.toNat),
        bpb.rootSectorCount * bpb.sectorSize.toNat,
        clusterCount bpb * bpb.getClusterSize,
        leftOverSectors bpb * bpb.sectorSize.toNat] := by
  have hsize := h.sectorSize_ge
  simp only [areas, List.map_cons, List.map_nil, flatten_replicate_length, slice_length,
    bootSectorBuf_length junk bpb hsize, rootSectors_length now bpb hsize,
    zeroPadded_length [] (Nat.zero_le _)]

theorem areas_length (h : Formattable bpb) :
    (areas junk now bpb).flatten.length = bpb.getSectorCount * bpb.sectorSize.toNat := by
  rw [List.length_flatten, areas_lengths junk now h, ← areas_fill h]
  simp only [List.sum_cons, List.sum_nil, BiosParamBlock.getClusterSize]
  ring

/-- What `CreateNew` leaves when it comes back: the areas, from where its base address is. -/
theorem createNew_ok (h : Formattable bpb) (sector : BitVec 32) (f : HostFile) :
    createNew junk now bpb sector = .ok (.ok f) ↔
      bpb.sectorsPerCluster ≠ 0 ∧
      (bpb.reservedSectorCount.toNat ≠ 0 ∧
        u32 (sector.toNat * 512) % bpb.sectorSize.toNat = 0 ∧
        bpb.getSectorCount = bpb.sectorCount.toNat) ∧
      f = (startWriter (u32 (sector.toNat * 512))).file.write (areas junk now bpb).flatten := by
  rw [createNew, h.checked]
  by_cases hc : bpb.sectorsPerCluster = 0
  · simp [hc]
  · simp only [hc, if_false, ne_eq, not_false_eq_true, true_and]
    constructor
    · intro hr
      cases hw : writeImage junk now bpb (layout bpb sector) with
      | error e => simp [hw, Except.map] at hr
      | ok g =>
        have hg : g = f := by simpa [hw, Except.map] using hr
        obtain ⟨hcond, hfile⟩ := (writeImage_ok junk now h sector g).mp hw
        rw [areas_flatten junk now hcond.1] at hfile
        exact ⟨hcond, by rw [hfile, hg]⟩
    · rintro ⟨hcond, rfl⟩
      have hw := (writeImage_ok junk now h sector _).mpr ⟨hcond, rfl⟩
      rw [areas_flatten junk now hcond.1] at hw
      rw [hw, Except.map]

/-- The last assertions of `CreateNew`: what it wrote, the system areas among it, is the disk size. -/
theorem writeImage_size {l : Layout} {f : HostFile} (h : writeImage junk now bpb l = .ok f) :
    l.baseAddr + (bootSectorBuf junk bpb l.sectorSize).length +
        (l.resSectorCount - 1) * (bootSectorBuf junk bpb l.sectorSize).length +
        l.fatCount * l.fatSize + (rootSectors now bpb l.rootSectorCount l.sectorSize).flatten.length ≤
      l.diskSize := by
  rw [writeImage] at h
  obtain ⟨-, h⟩ := assert_bind_ok.mp h
  obtain ⟨fat, -, h⟩ := bind_ok.mp h
  obtain ⟨-, h⟩ := assert_bind_ok.mp h
  obtain ⟨-, h⟩ := assert_bind_ok.mp h
  obtain ⟨-, h⟩ := assert_bind_ok.mp h
  obtain ⟨-, h⟩ := assert_bind_ok.mp h
  obtain ⟨hdisk, -⟩ := assert_bind_ok.mp h
  simp only [writeAll_bytesWritten, decide_eq_true_eq, startWriter_bytesWritten,
    flatten_replicate_length, slice_length, List.flatten_singleton] at hdisk
  omega

/-- Where `CreateNew` comes back with a file, the system areas have room in the volume. -/
theorem createNew_formattable {sector : BitVec 32} {f : HostFile}
    (h : createNew junk now bpb sector = .ok (.ok f)) : Formattable bpb := by
  rw [createNew] at h
  cases hc : checkNewBpb bpb with
  | error msg =>
    rw [hc] at h
    exact nomatch Except.ok.inj h
  | ok _ =>
    have hsize := checkNewBpb_sectorSize hc
    rw [hc] at h
    dsimp only at h
    split at h
    · exact nomatch h
    · cases hw : writeImage junk now bpb (layout bpb sector) with
      | error e =>
        rw [hw] at h
        exact nomatch h
      | ok g =>
        have hend := writeImage_size junk now hw
        have hroot : u32 (bpb.rootDirCapacity.toNat * DIR_ENTRY_SIZE) = _ :=
          u32_of_lt (by have := rootSize_lt bpb; omega)
        have hfat : u32 (bpb.sectorsPerTable.toNat * bpb.sectorSize.toNat) = _ :=
          u32_of_lt (by
            have := Nat.mul_lt_mul'' bpb.sectorsPerTable.isLt bpb.sectorSize.isLt
            omega)
        have hdisk : u32 (bpb.sectorCount.toNat * bpb.sectorSize.toNat) = _ :=
          u32_of_lt (by
            have := Nat.mul_lt_mul'' bpb.sectorCount.isLt bpb.sectorSize.isLt
            omega)
        have hcount : ceilDiv (bpb.rootDirCapacity.toNat * DIR_ENTRY_SIZE) bpb.sectorSize.toNat =
          bpb.rootSectorCount := rfl
        simp only [layout, hroot, hfat, hdisk, hcount, bootSectorBuf_length junk bpb hsize,
          rootSectors_length now bpb hsize] at hend
        -- divided by the sector size, the areas before the clusters are within the 16-bit count
        have hsum : (1 + (bpb.reservedSectorCount.toNat - 1) + bpb.sectorsPerTable.toNat *
            bpb.tableCount.toNat + bpb.rootSectorCount) * bpb.sectorSize.toNat =
            bpb.sectorSize.toNat + (bpb.reservedSectorCount.toNat - 1) * bpb.sectorSize.toNat +
              bpb.tableCount.toNat * (bpb.sectorsPerTable.toNat * bpb.sectorSize.toNat) +
              bpb.rootSectorCount * bpb.sectorSize.toNat := by ring
        have hle : 1 + (bpb.reservedSectorCount.toNat - 1) + bpb.sectorsPerTable.toNat *
            bpb.tableCount.toNat + bpb.rootSectorCount ≤ bpb.sectorCount.toNat :=
          Nat.le_of_mul_le_mul_right (by omega) (by omega : 0 < bpb.sectorSize.toNat)
        have hnarrow : bpb.getSectorCount = bpb.sectorCount.toNat := by
          refine if_neg fun h0 => ?_
          rw [h0] at hle
          exact absurd hle (by simp)
        refine ⟨hc, ?_, ?_⟩
        · rw [hnarrow, systemSectors]
          omega
        · have := Nat.mul_lt_mul'' bpb.sectorCount.isLt bpb.sectorSize.isLt
          rw [hnarrow]
          omega

theorem sectorCount_narrow (h : Formattable bpb) :
    bpb.getSectorCount = bpb.sectorCount.toNat ↔ bpb.sectorCount ≠ 0 := by
  have hpos := h.sectorCount_pos
  by_cases hs : bpb.sectorCount = 0
  · have hzero : bpb.sectorCount.toNat = 0 := congrArg BitVec.toNat hs
    exact ⟨fun h => by omega, fun h => absurd hs h⟩
  · exact ⟨fun _ => hs, fun _ => by rw [BiosParamBlock.getSectorCount, if_neg hs]⟩

/-- **`CreateNew` writes the volume it was asked for** exactly if the 16-bit field holds the sector
count, there is a reserved sector and a sector in a cluster, and the base is a whole number of
sectors whose address fits 32 bits. -/
theorem createNew_writes_volume_iff (h : Formattable bpb) (sector : BitVec 32) :
    WritesVolume junk now bpb sector (createNew junk now bpb sector) ↔
      bpb.sectorCount ≠ 0 ∧ bpb.reservedSectorCount ≠ 0 ∧ bpb.sectorsPerCluster ≠ 0 ∧
      sector.toNat < 8388608 ∧ sector.toNat * 512 % bpb.sectorSize.toNat = 0 := by
  have hpos := Nat.mul_pos h.sectorCount_pos (by have := h.sectorSize_ge; omega :
    0 < bpb.sectorSize.toNat)
  have hres : bpb.reservedSectorCount.toNat ≠ 0 ↔ bpb.reservedSectorCount ≠ 0 := by
    bv_omega
  have hlen := areas_length junk now h
  have hne : (areas junk now bpb).flatten ≠ [] := by
    rw [← List.length_pos_iff_ne_nil]
    omega
  constructor
  · rintro ⟨f, hf, -, -, -, hend⟩
    obtain ⟨hspc, ⟨hr, halign, hcount⟩, rfl⟩ := (createNew_ok junk now h sector f).mp hf
    -- a base that wraps around puts the end of the volume elsewhere
    have hbase : u32 (sector.toNat * 512) = sector.toNat * 512 := by
      simp only [startWriter_file, HostFile.write, hne, if_false, hlen] at hend
      omega
    have hlt := u32_lt (sector.toNat * 512)
    rw [hbase] at halign
    exact ⟨(sectorCount_narrow h).mp hcount, hres.mp hr, hspc, by omega, halign⟩
  · rintro ⟨hcount, hr, hspc, hsector, halign⟩
    have hbase : u32 (sector.toNat * 512) = sector.toNat * 512 := u32_of_lt (by omega)
    refine ⟨_, (createNew_ok junk now h sector _).mpr ⟨hspc, ⟨hres.mpr hr, ?_,
      (sectorCount_narrow h).mpr hcount⟩, rfl⟩, areas_lengths junk now h, hlen, ?_, ?_⟩
    · rw [hbase, halign]
    · simp only [startWriter_file, HostFile.write, hne, if_false, hbase]
    · simp only [startWriter_file, HostFile.write, hne, if_false, hbase, hlen]
      omega

end Written

/-- The 1440 KiB diskette, which is what `create` makes by default. -/
def diskette : BiosParamBlock :=
  { initBiosParamBlock with
    sectorSize := 512
    sectorsPerCluster := 1
    reservedSectorCount := 1
    tableCount := 2
    rootDirCapacity := 224
    sectorCount := 2880
    mediaType := 0xF0
    sectorsPerTable := 9
    sectorsPerTrack := 18
    headCount := 2 }

theorem diskette_formattable : Formattable diskette := ⟨by rfl, by decide, by decide⟩

theorem diskette_written :
    WritesVolume (fun _ => 0xCD) ⟨123, 5, 17, 12, 30, 0⟩ diskette 63
      (createNew (fun _ => 0xCD) ⟨123, 5, 17, 12, 30, 0⟩ diskette 63) :=
  (createNew_writes_volume_iff _ _ diskette_formattable 63).mpr (by decide)

/-- A disk of 70000 sectors: their number needs the 32-bit field. -/
def largeDisk : BiosParamBlock :=
  { diskette with sectorCount := 0, sectorCountLarge := 70000, sectorsPerCluster := 4,
                  sectorsPerTable := 69 }

theorem large_disk_not_written :
    Formattable largeDisk ∧ ∀ (junk : Buffer) (now : Tm),
      ¬ WritesVolume junk now largeDisk 0 (createNew junk now largeDisk 0) := by
  have h : Formattable largeDisk := ⟨by rfl, by decide, by decide⟩
  refine ⟨h, fun junk now => ?_⟩
  rintro ⟨f, hf, -⟩
  obtain ⟨-, ⟨-, -, hcount⟩, -⟩ := (createNew_ok junk now h 0 f).mp hf
  exact absurd hcount (by decide)

end Ohwes.Fatfs

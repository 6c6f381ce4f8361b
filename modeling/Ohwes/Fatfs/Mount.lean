import Mathlib.Tactic.Ring
import Ohwes.Fatfs.Clusters
import Ohwes.Fatfs.FindFile

/-! # Opening and closing a disk

Between two commands there is only the image file. `Open` takes the first copy of the FAT from it,
and the destructor of a disk that was written to stores every copy. -/

namespace Ohwes.Fatfs
open Library
set_option autoImplicit false

/-- An image file of the host. -/
structure Image where
  data : Nat → Byte
  size : Nat

instance (bpb : BiosParamBlock) : Decidable (Mountable bpb) :=
  decidable_of_iff (isPow2 bpb.sectorSize = true ∧ MIN_SECTOR_SIZE ≤ bpb.sectorSize.toNat ∧
    bpb.sectorSize.toNat ≤ MAX_SECTOR_SIZE ∧ bpb.getSectorCount ≠ 0 ∧
    bpb.reservedSectorCount ≠ 0 ∧ bpb.rootDirCapacity ≠ 0 ∧ bpb.sectorsPerTable ≠ 0 ∧
    bpb.tableCount ≠ 0 ∧ bpb.sectorsPerCluster ≠ 0)
    ⟨fun ⟨h1, h2, h3, h4, h5, h6, h7, h8, h9⟩ => ⟨h1, h2, h3, h4, h5, h6, h7, h8, h9⟩,
      fun ⟨h1, h2, h3, h4, h5, h6, h7, h8, h9⟩ => ⟨h1, h2, h3, h4, h5, h6, h7, h8, h9⟩⟩

/-- The size of a copy of the FAT. -/
def BiosParamBlock.fatBytes (bpb : BiosParamBlock) : Nat :=
  bpb.sectorsPerTable.toNat * bpb.sectorSize.toNat

/-- The disk that `Open` constructs. Only FAT16 has a bit that says whether the FAT is dirty. -/
def mount (host : Host) (img : Image) (base : Nat) (bpb : BiosParamBlock) (h : Mountable bpb) :
    FatDisk :=
  let fatStart := base + bpb.reservedSectorCount.toNat * bpb.sectorSize.toNat
  let fat := fun i => if i < bpb.fatBytes then img.data (fatStart + i) else host.junk i
  { bpb := bpb
    mountable := h
    base := base
    fat := fat
    file := img.data
    dirty := if bpb.isFat16 then !(getCluster16 fat 1).testBit 15 else host.dirtyJunk }

/-- `Open`. Without sectors in a cluster the constructor divides by zero. -/
def openDisk (host : Host) (img : Image) (sector : BitVec 32) : Call (Option FatDisk) :=
  let base := u32 (sector.toNat * 512)
  let bpb := BiosParamBlock.ofBytes img.data (base + 11)
  if img.size + base < 4096 then .ok none
  else if u32 (bpb.sectorSize.toNat * bpb.fsDataSectors) ≥ img.size then .ok none
  else if h : Mountable bpb then .ok (some (mount host img base bpb h))
  else if Mountable { bpb with sectorsPerCluster := 1 } then .error .fault
  else .ok none

namespace FatDisk
variable (d : FatDisk)

def writeFat : Bool × FatDisk :=
  (List.range d.bpb.tableCount.toNat).foldl (fun (r : Bool × FatDisk) n =>
    let sectorCount := d.bpb.sectorsPerTable.toNat
    if r.1 then
      r.2.writeSectors (d.bpb.reservedSectorCount.toNat + n * sectorCount) sectorCount d.fat
    else r) (true, d)

/-- The destructor. -/
def close : FatDisk := if d.dirty then d.writeFat.2 else d

/-- The disk after bytes were written to an address of the image. -/
def put (start : Nat) (bs : List Byte) : FatDisk := { d with file := overlay d.file start bs }

theorem put_put (start : Nat) (bs cs : List Byte) :
    (d.put start bs).put (start + bs.length) cs = d.put start (bs ++ cs) := by
  rw [put, put, put, overlay_append]

@[simp] theorem put_bpb (start : Nat) (bs : List Byte) : (d.put start bs).bpb = d.bpb := rfl

variable {d} in
theorem sound_put (hd : d.Sound) (start : Nat) (bs : List Byte) : (d.put start bs).Sound :=
  Sound.congr (d := d) rfl rfl hd

variable {d}

/-! ## Writing sectors before the clusters -/

section Sectors
variable (hd : d.Sound)
include hd

theorem Sound.sector_end {index : Nat} (h : index < d.bpb.fsDataSectors) :
    index * d.bpb.sectorSize.toNat + d.bpb.sectorSize.toNat ≤ d.dataStart ∧
      d.dataStart ≤ d.bpb.getDiskSize := by
  have hmul := Nat.mul_le_mul_right d.bpb.sectorSize.toNat h
  rw [Nat.succ_mul] at hmul
  exact ⟨hmul, (Nat.le_add_right _ _).trans hd.clusters_fit⟩

theorem Sound.sectorAddr_eq {index : Nat} (h : index < d.bpb.fsDataSectors) :
    d.sectorAddr index = index * d.bpb.sectorSize.toNat := by
  have hend := hd.sector_end h
  have hdisk := d.getDiskSize_lt
  rw [sectorAddr, hd.base_zero, Nat.zero_add, u32_of_lt (n := index * _) (by omega),
    u32_of_lt (by omega)]

theorem Sound.sectorInside_eq {index : Nat} (h : index < d.bpb.fsDataSectors) :
    d.sectorInside index = true := by
  have hend := hd.sector_end h
  have hdisk := d.getDiskSize_lt
  rw [sectorInside, hd.sectorAddr_eq h, u32_of_lt (by omega)]
  exact decide_eq_true (by omega)

theorem Sound.writeSector_eq (index : Nat) (h : index < d.bpb.fsDataSectors) (bs : List Byte) :
    d.writeSector index bs = some (d.put (index * d.bpb.sectorSize.toNat) bs) := by
  rw [writeSector, hd.sectorInside_eq h, if_pos rfl, hd.sectorAddr_eq h, put]

theorem Sound.readSector_eq {index : Nat} (h : index < d.bpb.fsDataSectors) :
    d.readSector index =
      some (slice d.file (index * d.bpb.sectorSize.toNat) d.bpb.sectorSize.toNat) := by
  rw [readSector, hd.sectorInside_eq h, if_pos rfl, hd.sectorAddr_eq h]

/-- Sectors in a row take the bytes of the buffer as they are. -/
theorem Sound.writeSectors_eq (base count : Nat) (h : base + count ≤ d.bpb.fsDataSectors)
    (buf : Buffer) :
    d.writeSectors base count buf = (true,
      d.put (base * d.bpb.sectorSize.toNat) (slice buf 0 (count * d.bpb.sectorSize.toNat))) := by
  induction count with
  | zero =>
    rw [Nat.zero_mul, slice_zero, put, overlay_nil]
    rfl
  | succ count ih =>
    have ih := ih (by omega)
    have hstart : (base + count) * d.bpb.sectorSize.toNat = base * d.bpb.sectorSize.toNat +
        (slice buf 0 (count * d.bpb.sectorSize.toNat)).length := by
      rw [slice_length, Nat.add_mul]
    have hw := (sound_put hd (base * d.bpb.sectorSize.toNat)
      (slice buf 0 (count * d.bpb.sectorSize.toNat))).writeSector_eq (base + count)
      (by rw [put_bpb]; omega) (slice buf (count * d.bpb.sectorSize.toNat) d.bpb.sectorSize.toNat)
    rw [put_bpb, hstart, put_put] at hw
    rw [writeSectors] at ih ⊢
    rw [List.range_succ, List.foldl_append, ih, Nat.succ_mul, slice_add, Nat.zero_add]
    simp only [List.foldl_cons, List.foldl_nil, if_true, hw]

theorem Sound.writeFat_eq :
    d.writeFat = (true, d.put (d.bpb.reservedSectorCount.toNat * d.bpb.sectorSize.toNat)
      (List.replicate d.bpb.tableCount.toNat (slice d.fat 0 d.bpb.fatBytes)).flatten) := by
  have hall : ∀ n, n ≤ d.bpb.tableCount.toNat →
      (List.range n).foldl (fun (r : Bool × FatDisk) n =>
        if r.1 then
          r.2.writeSectors (d.bpb.reservedSectorCount.toNat + n * d.bpb.sectorsPerTable.toNat)
            d.bpb.sectorsPerTable.toNat d.fat
        else r) (true, d) = (true, d.put (d.bpb.reservedSectorCount.toNat * d.bpb.sectorSize.toNat)
          (List.replicate n (slice d.fat 0 d.bpb.fatBytes)).flatten) := by
    intro n hn
    induction n with
    | zero =>
      rw [List.replicate_zero, List.flatten_nil, put, overlay_nil]
      rfl
    | succ n ih =>
      have hlen : (List.replicate n (slice d.fat 0 d.bpb.fatBytes)).flatten.length =
          n * d.bpb.fatBytes := by
        rw [List.length_flatten, List.map_replicate, slice_length, List.sum_replicate_nat]
      have hstart : (d.bpb.reservedSectorCount.toNat + n * d.bpb.sectorsPerTable.toNat) *
          d.bpb.sectorSize.toNat = d.bpb.reservedSectorCount.toNat * d.bpb.sectorSize.toNat +
          (List.replicate n (slice d.fat 0 d.bpb.fatBytes)).flatten.length := by
        rw [hlen, Nat.add_mul, Nat.mul_assoc, BiosParamBlock.fatBytes]
      have hend : d.bpb.reservedSectorCount.toNat + n * d.bpb.sectorsPerTable.toNat +
          d.bpb.sectorsPerTable.toNat ≤ d.bpb.fsDataSectors := by
        have hsum := (fsDataSectors_sum d.bpb).1
        have hmul := Nat.mul_le_mul_right d.bpb.sectorsPerTable.toNat hn
        rw [Nat.succ_mul, Nat.mul_comm d.bpb.tableCount.toNat] at hmul
        omega
      have hw := (sound_put hd (d.bpb.reservedSectorCount.toNat * d.bpb.sectorSize.toNat)
        (List.replicate n (slice d.fat 0 d.bpb.fatBytes)).flatten).writeSectors_eq _ _ hend d.fat
      rw [put_bpb, hstart, put_put] at hw
      rw [List.range_succ, List.foldl_append, ih (by omega), List.replicate_succ', List.flatten_append,
        List.flatten_singleton]
      simp only [List.foldl_cons, List.foldl_nil, if_true, hw]
      rfl
  exact hall _ (le_refl _)

end Sectors

/-! ## What a closed disk is when it is opened again -/

def fatStart (d : FatDisk) : Nat := d.bpb.reservedSectorCount.toNat * d.bpb.sectorSize.toNat

def rootStart (d : FatDisk) : Nat := d.rootBase * d.bpb.sectorSize.toNat

/-- The first copy of the FAT in the image is the one in memory. -/
def Synced (d : FatDisk) : Prop := ∀ i < d.bpb.fatBytes, d.file (d.fatStart + i) = d.fat i

/-- `d'` has the parameters of `d`, its FAT as far as that has sectors, and its image but for the
copies of the FAT. -/
structure Reopened (d d' : FatDisk) : Prop where
  bpb : d'.bpb = d.bpb
  base : d'.base = d.base
  fat : ∀ i < d.bpb.fatBytes, d'.fat i = d.fat i
  file : ∀ a, a < d.fatStart ∨ d.rootStart ≤ a → d'.file a = d.file a
  synced : d'.Synced

theorem rootStart_eq (d : FatDisk) :
    d.rootStart = d.fatStart + d.bpb.tableCount.toNat * d.bpb.fatBytes := by
  rw [rootStart, rootBase, fatStart, BiosParamBlock.fatBytes]
  ring

theorem rootStart_le (d : FatDisk) : d.rootStart ≤ d.dataStart := by
  rw [rootStart, dataStart]
  refine Nat.mul_le_mul_right _ ?_
  rw [(fsDataSectors_sum d.bpb).1, rootBase]
  omega

theorem tableCount_pos (d : FatDisk) : 0 < d.bpb.tableCount.toNat := by
  refine Nat.pos_of_ne_zero fun h => d.mountable.tableCount_pos (BitVec.eq_of_toNat_eq ?_)
  rw [h]
  rfl

theorem fatBytes_ge (d : FatDisk) : 512 ≤ d.bpb.fatBytes := by
  have hpos : 0 < d.bpb.sectorsPerTable.toNat := by
    refine Nat.pos_of_ne_zero fun h => d.mountable.sectorsPerTable_pos (BitVec.eq_of_toNat_eq ?_)
    rw [h]
    rfl
  exact d.sectorSize_ge.trans (Nat.le_mul_of_pos_left _ hpos)

theorem Sound.close_file (hd : d.Sound) {a : Nat} (h : a < d.fatStart ∨ d.rootStart ≤ a) :
    d.close.file a = d.file a := by
  have hlen : (List.replicate d.bpb.tableCount.toNat (slice d.fat 0 d.bpb.fatBytes)).flatten.length =
      d.bpb.tableCount.toNat * d.bpb.fatBytes := by
    rw [List.length_flatten, List.map_replicate, slice_length, List.sum_replicate_nat]
  rw [close]
  split
  · rw [hd.writeFat_eq]
    rw [rootStart_eq, fatStart] at h
    rcases h with h | h
    · exact overlay_before _ _ h
    · exact overlay_after _ _ (by rwa [hlen])
  · rfl

theorem Sound.close_fat (hd : d.Sound) (h : d.dirty = true ∨ d.Synced) {i : Nat}
    (hi : i < d.bpb.fatBytes) : d.close.file (d.fatStart + i) = d.fat i := by
  rw [close]
  by_cases hdirty : d.dirty = true
  · rw [if_pos hdirty, hd.writeFat_eq]
    obtain ⟨n, hn⟩ : ∃ n, d.bpb.tableCount.toNat = n + 1 := ⟨_, (Nat.succ_pred d.tableCount_pos.ne').symm⟩
    have hlen : i < (slice d.fat 0 d.bpb.fatBytes).length := by
      rwa [slice_length]
    rw [hn, List.replicate_succ, List.flatten_cons]
    have hin : i < (slice d.fat 0 d.bpb.fatBytes ++
        (List.replicate n (slice d.fat 0 d.bpb.fatBytes)).flatten).length := by
      rw [List.length_append]
      omega
    have hget := slice_getElem? d.fat 0 d.bpb.fatBytes i
    rw [if_pos hi, Nat.zero_add, List.getElem?_eq_getElem hlen] at hget
    refine (overlay_inside d.file d.fatStart hin).trans ?_
    rw [List.getElem_append_left hlen]
    exact Option.some.inj hget
  · rw [if_neg hdirty]
    exact h.resolve_left hdirty i hi

theorem mount_synced (host : Host) (img : Image) (bpb : BiosParamBlock) (hm : Mountable bpb) :
    (mount host img 0 bpb hm).Synced := by
  intro i hi
  have hi' : i < bpb.fatBytes := hi
  simp only [mount, hi', if_true, Nat.zero_add]
  rfl

theorem Sound.reopen (hd : d.Sound) (h : d.dirty = true ∨ d.Synced) (host : Host) (size : Nat) :
    d.Reopened (mount host ⟨d.close.file, size⟩ 0 d.bpb d.mountable) where
  bpb := rfl
  base := hd.base_zero.symm
  fat i hi := by
    have hclose := hd.close_fat h hi
    rw [fatStart] at hclose
    simp only [mount, hi, if_true, Nat.zero_add, hclose]
  file a ha := hd.close_file ha
  synced := mount_synced host _ d.bpb d.mountable

/-- The entries of the clusters lie in the sectors of the FAT. -/
theorem Sound.fat_room (hd : d.Sound) {x : Nat} (hx : x ≤ d.bpb.getClusterCount + 1) :
    if d.bpb.isFat12 then x + x / 2 + 1 < d.bpb.fatBytes else 2 * x + 1 < d.bpb.fatBytes := by
  have hcap := hd.capacity
  have hge := d.fatBytes_ge
  have hlt : d.bpb.fatBytes < 4294967296 := by
    have := Nat.mul_lt_mul'' d.bpb.sectorsPerTable.isLt d.bpb.sectorSize.isLt
    rw [BiosParamBlock.fatBytes]
    omega
  rw [BiosParamBlock.getFatCapacity] at hcap
  change _ ≤ if _ then u32Sub (d.bpb.fatBytes / 3 * 2) _ else u32Sub (d.bpb.fatBytes / 2) _ at hcap
  rw [u32Sub_of_le (by omega) (by rw [CLUSTER_FIRST]; omega),
    u32Sub_of_le (by omega) (by rw [CLUSTER_FIRST]; omega), CLUSTER_FIRST] at hcap
  split
  · rw [if_pos ‹_›] at hcap
    omega
  · rw [if_neg ‹_›] at hcap
    omega

theorem getCluster_of_le (d : FatDisk) {x : Nat} (hx : x ≤ d.bpb.getClusterCount + 1) :
    d.getCluster x = if d.bpb.isFat12 then getCluster12 d.fat x else getCluster16 d.fat x := by
  rw [getCluster, if_neg]
  rw [CLUSTER_FIRST]
  omega

theorem Sound.getCluster_congr (hd : d.Sound) {d' : FatDisk} (hbpb : d'.bpb = d.bpb)
    (hfat : ∀ i < d.bpb.fatBytes, d'.fat i = d.fat i) {x : Nat}
    (hx : x ≤ d.bpb.getClusterCount + 1) : d'.getCluster x = d.getCluster x := by
  have hroom := hd.fat_room hx
  have hlimit : d.bpb.getClusterCount ≤ 65524 := hd.limit
  rw [d'.getCluster_of_le (by rwa [hbpb]), d.getCluster_of_le hx, hbpb]
  exact getCluster_table_congr hfat (by omega) hroom

namespace Reopened
variable {d' : FatDisk} (hr : d.Reopened d') (hd : d.Sound)
include hr hd

theorem getCluster {x : Nat} (hx : x ≤ d.bpb.getClusterCount + 1) :
    d'.getCluster x = d.getCluster x := hd.getCluster_congr hr.bpb hr.fat hx

theorem sound : d'.Sound := hd.congr hr.bpb hr.base

theorem getClusterNumberEOC : d'.getClusterNumberEOC = d.getClusterNumberEOC := by
  rw [getClusterNumberEOC_eq, getClusterNumberEOC_eq, hr.bpb, hr.getCluster hd (by omega)]

theorem goodChain_iff (c : Nat) (l : List Nat) : d'.GoodChain c l ↔ d.GoodChain c l := by
  have hnumbers := clusterNumbers_congr hr.bpb
  have hnext : ∀ x ∈ d.clusterNumbers, d'.getCluster x = d.getCluster x := fun x hx =>
    hr.getCluster hd (by have := d.mem_clusterNumbers.mp hx; omega)
  constructor
  · intro h
    refine GoodChain.congr h hr.bpb.symm fun x hx => (hnext x ?_).symm
    rw [← hnumbers]
    exact h.2 x hx
  · exact fun h => GoodChain.congr h hr.bpb fun x hx => hnext x (h.2 x hx)

theorem content {x : Nat} (hx : x ∈ d.clusterNumbers) : d'.content x = d.content x := by
  have hstart := d.rootStart_le
  rw [FatDisk.content, FatDisk.content, clusterAddr_congr hr.bpb hr.base, hr.bpb]
  refine slice_congr fun a ha _ => hr.file a (Or.inr ?_)
  rw [hd.clusterAddr_eq hx] at ha
  omega

end Reopened

end FatDisk

end Ohwes.Fatfs

import Mathlib.Tactic.Ring
import Ohwes.Fatfs.Walks

/-! # The clusters of a sound disk

Where a volume fits below four gigabytes and its cluster numbers below the marks of the FAT, the
arithmetic of the driver is exact: clusters lie behind the root directory without overlap, and the
FAT is a table of successors. -/

namespace Ohwes.Fatfs
open Library
set_option autoImplicit false

namespace FatDisk
variable (d : FatDisk)

structure Sound : Prop where
  base_zero : d.base = 0
  size_lt : d.bpb.getSectorCount * d.bpb.sectorSize.toNat < 4294967296
  capacity : d.bpb.getClusterCount ≤ d.bpb.getFatCapacity
  limit : d.bpb.getClusterCount ≤ MAX_CLUSTERS_16

/-- The end-of-chain marks proper. -/
def EndMark (v : Nat) : Prop :=
  if d.bpb.isFat12 then CLUSTER_EOC_12_LO ≤ v ∧ v ≤ CLUSTER_EOC_12_HI
  else CLUSTER_EOC_16_LO ≤ v ∧ v ≤ CLUSTER_EOC_16_HI

instance : DecidablePred d.EndMark := fun v => inferInstanceAs (Decidable (if d.bpb.isFat12 then
  CLUSTER_EOC_12_LO ≤ v ∧ v ≤ CLUSTER_EOC_12_HI else CLUSTER_EOC_16_LO ≤ v ∧ v ≤ CLUSTER_EOC_16_HI))

/-- A chain in range that an end mark closes. -/
def GoodChain (c : Nat) (l : List Nat) : Prop :=
  Library.Chain d.getCluster d.EndMark c l ∧ ∀ x ∈ l, x ∈ d.clusterNumbers

def content (c : Nat) : List Byte := slice d.file (d.clusterAddr c) d.bpb.getClusterSize

/-- The first byte behind the root directory. -/
def dataStart : Nat := d.bpb.fsDataSectors * d.bpb.sectorSize.toNat

/-- The values that an entry of the FAT can hold. -/
def Fits (v : Nat) : Prop := v < if d.bpb.isFat12 then 4096 else 65536

end FatDisk

/-! ## The geometry -/

section Geometry
variable (bpb : BiosParamBlock)

theorem fsDataSectors_sum :
    bpb.fsDataSectors = bpb.reservedSectorCount.toNat +
      bpb.sectorsPerTable.toNat * bpb.tableCount.toNat + bpb.rootSectorCount ∧
    bpb.fsDataSectors < 33554432 := by
  have h1 : bpb.sectorsPerTable.toNat * bpb.tableCount.toNat ≤ 65535 * 255 :=
    Nat.mul_le_mul (by omega) (by omega)
  have h2 : bpb.rootSectorCount ≤ 65535 * 32 + 65535 := by
    refine (Nat.div_le_self _ _).trans ?_
    rw [DIR_ENTRY_SIZE]
    omega
  rw [BiosParamBlock.fsDataSectors, u32_of_lt (by omega)]
  omega

/-- Were the areas before the clusters larger than the volume, it would have too many clusters. -/
theorem sectors_fit (hpos : bpb.sectorsPerCluster ≠ 0) (hcount : bpb.getSectorCount < 4294967296)
    (hlimit : bpb.getClusterCount ≤ MAX_CLUSTERS_16) :
    bpb.fsDataSectors + bpb.getClusterCount * bpb.sectorsPerCluster.toNat ≤ bpb.getSectorCount := by
  have hdata := (fsDataSectors_sum bpb).2
  have hspc : 0 < bpb.sectorsPerCluster.toNat := by
    refine Nat.pos_of_ne_zero fun h => hpos (BitVec.eq_of_toNat_eq ?_)
    rw [h]
    rfl
  have hle : bpb.getClusterCount * bpb.sectorsPerCluster.toNat ≤
      u32Sub bpb.getSectorCount bpb.fsDataSectors := Nat.div_mul_le_self _ _
  rcases Nat.lt_or_ge bpb.getSectorCount bpb.fsDataSectors with h | h
  · have hlt : u32Sub bpb.getSectorCount bpb.fsDataSectors <
        (bpb.getClusterCount + 1) * bpb.sectorsPerCluster.toNat :=
      Nat.lt_mul_of_div_lt (Nat.lt_succ_self _) hspc
    have hmul : (bpb.getClusterCount + 1) * bpb.sectorsPerCluster.toNat ≤ 65525 * 255 :=
      Nat.mul_le_mul (by rw [MAX_CLUSTERS_16] at hlimit; omega) (by omega)
    have hsub : u32Sub bpb.getSectorCount bpb.fsDataSectors =
        bpb.getSectorCount + (4294967296 - bpb.fsDataSectors) := u32_of_lt (by omega)
    omega
  · rw [u32Sub_of_le hcount h] at hle
    omega

theorem getSectorCount_lt : bpb.getSectorCount < 4294967296 := by
  rw [BiosParamBlock.getSectorCount]
  split <;> omega

end Geometry

theorem getClusterSize_lt (bpb : BiosParamBlock) : bpb.getClusterSize < 16777216 :=
  Nat.mul_lt_mul'' bpb.sectorSize.isLt bpb.sectorsPerCluster.isLt

namespace FatDisk
variable {d : FatDisk}

theorem sectorsPerCluster_pos (d : FatDisk) : 0 < d.bpb.sectorsPerCluster.toNat := by
  refine Nat.pos_of_ne_zero fun h => d.mountable.sectorsPerCluster_pos (BitVec.eq_of_toNat_eq ?_)
  rw [h]
  rfl

theorem sectorSize_ge (d : FatDisk) : 512 ≤ d.bpb.sectorSize.toNat := d.mountable.sectorSize_ge

theorem clusterSize_pos (d : FatDisk) : 0 < d.bpb.getClusterSize :=
  Nat.mul_pos (by have := d.sectorSize_ge; omega) d.sectorsPerCluster_pos

/-- The clusters end before the volume does. -/
theorem Sound.clusters_fit (hd : d.Sound) :
    d.dataStart + d.bpb.getClusterCount * d.bpb.getClusterSize ≤ d.bpb.getDiskSize := by
  have hfit := sectors_fit d.bpb d.mountable.sectorsPerCluster_pos (getSectorCount_lt d.bpb) hd.limit
  have hmul := Nat.mul_le_mul_right d.bpb.sectorSize.toNat hfit
  rw [BiosParamBlock.getDiskSize, u32_of_lt hd.size_lt, dataStart, BiosParamBlock.getClusterSize]
  calc d.bpb.fsDataSectors * d.bpb.sectorSize.toNat +
        d.bpb.getClusterCount * (d.bpb.sectorSize.toNat * d.bpb.sectorsPerCluster.toNat)
      = (d.bpb.fsDataSectors + d.bpb.getClusterCount * d.bpb.sectorsPerCluster.toNat) *
          d.bpb.sectorSize.toNat := by ring
    _ ≤ d.bpb.getSectorCount * d.bpb.sectorSize.toNat := hmul

theorem getDiskSize_lt (d : FatDisk) : d.bpb.getDiskSize < 4294967296 := u32_lt _

theorem Sound.cluster_end (hd : d.Sound) {c : Nat} (hc : c ∈ d.clusterNumbers) :
    d.dataStart + (c - 2) * d.bpb.getClusterSize + d.bpb.getClusterSize ≤ d.bpb.getDiskSize := by
  have hlt := d.mem_clusterNumbers.mp hc
  have hfit := hd.clusters_fit
  have hmul := Nat.mul_le_mul_right d.bpb.getClusterSize (by omega : c - 2 + 1 ≤ d.bpb.getClusterCount)
  rw [Nat.add_mul, Nat.one_mul] at hmul
  omega

theorem u32Sub_first {c : Nat} (hd : d.Sound) (hc : c ∈ d.clusterNumbers) :
    u32Sub c CLUSTER_FIRST = c - 2 := by
  have hlt := d.mem_clusterNumbers.mp hc
  have hlimit := hd.limit
  rw [MAX_CLUSTERS_16] at hlimit
  exact u32Sub_of_le (by omega) (by rw [CLUSTER_FIRST]; omega)

theorem Sound.clusterAddr_eq (hd : d.Sound) {c : Nat} (hc : c ∈ d.clusterNumbers) :
    d.clusterAddr c = d.dataStart + (c - 2) * d.bpb.getClusterSize := by
  have hend := hd.cluster_end hc
  have hlt := d.getDiskSize_lt
  rw [dataStart] at hend ⊢
  rw [clusterAddr, u32Sub_first hd hc, hd.base_zero, u32_of_lt, u32_of_lt (n := _ * _), u32_of_lt]
  all_goals first | omega | (rw [u32_of_lt, u32_of_lt (n := (c - 2) * _)] <;> omega)

theorem Sound.clusterInside_eq (hd : d.Sound) {c : Nat} (hc : c ∈ d.clusterNumbers) :
    d.clusterInside c = .ok true := by
  have hlt := d.mem_clusterNumbers.mp hc
  have hend := hd.cluster_end hc
  have hdisk := d.getDiskSize_lt
  rw [clusterInside, u32Sub_first hd hc, if_neg (by omega), hd.clusterAddr_eq hc,
    u32_of_lt (by omega), decide_eq_true hend]
  rfl

theorem Sound.readCluster_eq (hd : d.Sound) {c : Nat} (hc : c ∈ d.clusterNumbers) :
    d.readCluster c = .ok (some (d.content c)) := by
  rw [readCluster, hd.clusterInside_eq hc]
  rfl

theorem Sound.writeCluster_eq (hd : d.Sound) {c : Nat} (hc : c ∈ d.clusterNumbers)
    (bs : List Byte) :
    d.writeCluster c bs = .ok (some { d with file := overlay d.file (d.clusterAddr c) bs }) := by
  rw [writeCluster, hd.clusterInside_eq hc]
  rfl

/-- Two clusters lie apart. -/
theorem Sound.clusterAddr_apart (hd : d.Sound) {c x : Nat} (hc : c ∈ d.clusterNumbers)
    (hx : x ∈ d.clusterNumbers) (hne : x ≠ c) :
    d.clusterAddr x + d.bpb.getClusterSize ≤ d.clusterAddr c ∨
      d.clusterAddr c + d.bpb.getClusterSize ≤ d.clusterAddr x := by
  have hc2 := d.mem_clusterNumbers.mp hc
  have hx2 := d.mem_clusterNumbers.mp hx
  rw [hd.clusterAddr_eq hc, hd.clusterAddr_eq hx]
  rcases Nat.lt_or_gt_of_ne hne with h | h
  · have := Nat.mul_le_mul_right d.bpb.getClusterSize (by omega : x - 2 + 1 ≤ c - 2)
    rw [Nat.add_mul, Nat.one_mul] at this
    omega
  · have := Nat.mul_le_mul_right d.bpb.getClusterSize (by omega : c - 2 + 1 ≤ x - 2)
    rw [Nat.add_mul, Nat.one_mul] at this
    omega

/-! ## The FAT as a table of successors -/

theorem getCluster_one (d : FatDisk) :
    d.getCluster 1 = if d.bpb.isFat12 then getCluster12 d.fat 1 else getCluster16 d.fat 1 := by
  rw [getCluster, if_neg (by rw [CLUSTER_FIRST]; omega)]

theorem getClusterNumberEOC_eq (d : FatDisk) :
    d.getClusterNumberEOC =
      if d.bpb.isFat12 then d.getCluster 1 else d.getCluster 1 ||| 0xC000 := by
  rw [getClusterNumberEOC, getCluster_one]
  split <;> rfl

theorem fits_getCluster (d : FatDisk) (index : Nat) : d.Fits (d.getCluster index) := by
  rw [Fits, getCluster, getClusterNumberEOC]
  by_cases h : d.bpb.isFat12 = true
  · simp only [h, if_true]
    split <;> exact getCluster12_lt _ _
  · simp only [h, if_false, Bool.false_eq_true]
    split
    · exact Nat.or_lt_two_pow (n := 16) (getCluster16_lt d.fat 1) (by omega)
    · exact getCluster16_lt _ _

theorem fits_getClusterNumberEOC (d : FatDisk) : d.Fits d.getClusterNumberEOC := by
  have h := d.fits_getCluster (d.bpb.getClusterCount + 3)
  rwa [getCluster, if_pos (by rw [CLUSTER_FIRST]; omega)] at h

theorem clusterNumber_lt (hlimit : d.bpb.getClusterCount ≤ MAX_CLUSTERS_16) {c : Nat}
    (hc : c ∈ d.clusterNumbers) : c < if d.bpb.isFat12 then CLUSTER_BAD_12 else CLUSTER_BAD_16 := by
  have hlt := d.mem_clusterNumbers.mp hc
  rw [MAX_CLUSTERS_16] at hlimit
  split
  · rename_i h
    have h := d.bpb.isFat12_iff.mp h
    rw [MAX_CLUSTERS_12] at h
    rw [CLUSTER_BAD_12]
    omega
  · rw [CLUSTER_BAD_16]
    omega

theorem Sound.clusterNumber_lt (hd : d.Sound) {c : Nat} (hc : c ∈ d.clusterNumbers) :
    c < if d.bpb.isFat12 then CLUSTER_BAD_12 else CLUSTER_BAD_16 :=
  FatDisk.clusterNumber_lt hd.limit hc

theorem Sound.fits (hd : d.Sound) {c : Nat} (hc : c ∈ d.clusterNumbers) : d.Fits c := by
  have h := hd.clusterNumber_lt hc
  rw [Fits]
  rw [CLUSTER_BAD_12, CLUSTER_BAD_16] at h
  split at h
  · rw [if_pos ‹_›]
    omega
  · rw [if_neg ‹_›]
    omega

theorem fits_reserved (d : FatDisk) : d.Fits CLUSTER_RESERVED := by
  rw [Fits, CLUSTER_RESERVED]
  split <;> omega

theorem fits_free (d : FatDisk) : d.Fits CLUSTER_FREE := by
  rw [Fits, CLUSTER_FREE]
  split <;> omega

theorem not_eoc (hlimit : d.bpb.getClusterCount ≤ MAX_CLUSTERS_16) {c : Nat}
    (hc : c ∈ d.clusterNumbers) : ¬ d.Eoc c := by
  have hlt := d.mem_clusterNumbers.mp hc
  have hbad := clusterNumber_lt hlimit hc
  rw [Eoc, isClusterNumberEOC, getClusterNumberBad, CLUSTER_FIRST]
  rw [CLUSTER_BAD_12, CLUSTER_BAD_16] at *
  rw [CLUSTER_EOC_12_LO, CLUSTER_EOC_16_LO]
  split at hbad
  · rename_i h
    simp only [h, if_true]
    rw [if_neg (by omega)]
    simp
    omega
  · rename_i h
    simp only [h, if_false, Bool.false_eq_true]
    rw [if_neg (by omega)]
    simp
    omega

theorem Sound.not_eoc (hd : d.Sound) {c : Nat} (hc : c ∈ d.clusterNumbers) : ¬ d.Eoc c :=
  FatDisk.not_eoc hd.limit hc

theorem EndMark.eoc {v : Nat} (h : d.EndMark v) : d.Eoc v := by
  rw [EndMark] at h
  rw [Eoc, isClusterNumberEOC]
  split
  · rfl
  · split at h
    · rw [if_pos ‹_›]
      simp [h.1, h.2]
    · rw [if_neg ‹_›]
      simp [h.1, h.2]

theorem eoc_zero (d : FatDisk) : d.Eoc CLUSTER_FREE := by
  rw [Eoc, isClusterNumberEOC, if_pos (Or.inl (by rw [CLUSTER_FREE, CLUSTER_FIRST]; omega))]

theorem not_endMark_free (d : FatDisk) : ¬ d.EndMark CLUSTER_FREE := by
  rw [EndMark, CLUSTER_FREE, CLUSTER_EOC_12_LO, CLUSTER_EOC_16_LO]
  split <;> omega

theorem setCluster_eq {c : Nat} (hc : c ∈ d.clusterNumbers) (v : Nat) :
    d.setCluster c v = (d.getCluster c, { d with fat :=
      if d.bpb.isFat12 then (setCluster12 d.fat c v).2 else (setCluster16 d.fat c v).2 }) := by
  have hlt := d.mem_clusterNumbers.mp hc
  have hout : ¬ c - CLUSTER_FIRST > d.bpb.getClusterCount := by
    rw [CLUSTER_FIRST]
    omega
  have hfirst : ¬ c < CLUSTER_FIRST := Nat.not_lt.mpr hlt.1
  have hget : d.getCluster c =
      if d.bpb.isFat12 then getCluster12 d.fat c else getCluster16 d.fat c :=
    if_neg fun h => hout h.2
  rw [hget, setCluster, if_neg (not_or.mpr ⟨hfirst, hout⟩)]
  by_cases h : d.bpb.isFat12 = true
  · simp only [h, if_true]
    rfl
  · simp only [h, if_false, Bool.false_eq_true]
    rfl

theorem Sound.getCluster_setCluster (hd : d.Sound) {c v : Nat} (hc : c ∈ d.clusterNumbers)
    (hv : d.Fits v) : (d.setCluster c v).2.getCluster = Function.update d.getCluster c v := by
  have hlt := d.mem_clusterNumbers.mp hc
  have hlimit : d.bpb.getClusterCount ≤ 65524 := hd.limit
  rw [setCluster_eq hc]
  funext x
  simp only [Function.update_apply, getCluster, getClusterNumberEOC]
  by_cases hout : CLUSTER_FIRST ≤ x ∧ x - CLUSTER_FIRST > d.bpb.getClusterCount
  · have hx : x ≠ c := by
      rintro rfl
      rw [CLUSTER_FIRST] at hout
      omega
    rw [if_pos hout, if_pos hout, if_neg hx]
    by_cases h : d.bpb.isFat12 = true
    · simp only [h, if_true]
      rw [getCluster12_setCluster12 _ _ (by omega) (by omega), if_neg (by omega)]
    · simp only [h, if_false, Bool.false_eq_true]
      rw [getCluster16_setCluster16 _ _ (by omega) (by omega), if_neg (by omega)]
  · have hx : x < 2147483648 := by
      rw [CLUSTER_FIRST] at hout
      omega
    rw [if_neg hout, if_neg hout]
    by_cases h : d.bpb.isFat12 = true
    · simp only [Fits, h, if_true] at hv ⊢
      rw [getCluster12_setCluster12 _ _ (by omega) (by omega), Nat.mod_eq_of_lt hv]
    · simp only [Fits, h, if_false, Bool.false_eq_true] at hv ⊢
      rw [getCluster16_setCluster16 _ _ (by omega) hx, Nat.mod_eq_of_lt hv]

/-! ## Changes to some of the clusters -/

/-- Of the volume `d`, nothing but the FAT entries and the contents of the clusters `s` is different
in `d'`. -/
structure Touches (d : FatDisk) (s : List Nat) (d' : FatDisk) : Prop where
  bpb : d'.bpb = d.bpb
  base : d'.base = d.base
  next : ∀ x, x ∉ s → d'.getCluster x = d.getCluster x
  content : ∀ x ∈ d.clusterNumbers, x ∉ s → d'.content x = d.content x
  low : ∀ a, a < d.dataStart → d'.file a = d.file a

section Geometry
variable {d' : FatDisk} (h : d'.bpb = d.bpb)
include h

theorem clusterNumbers_congr : d'.clusterNumbers = d.clusterNumbers := by
  rw [clusterNumbers, h, clusterNumbers]

theorem eoc_congr (v : Nat) : d'.Eoc v ↔ d.Eoc v := by
  rw [Eoc, Eoc, isClusterNumberEOC, isClusterNumberEOC, getClusterNumberBad, getClusterNumberBad, h]

theorem endMark_congr (v : Nat) : d'.EndMark v ↔ d.EndMark v := by
  rw [EndMark, EndMark, h]

theorem dataStart_congr : d'.dataStart = d.dataStart := by
  rw [dataStart, dataStart, h]

theorem getCluster_congr (hfat : d'.fat = d.fat) : d'.getCluster = d.getCluster := by
  funext x
  rw [getCluster, getCluster, getClusterNumberEOC, getClusterNumberEOC, h, hfat]

theorem clusterAddr_congr (hbase : d'.base = d.base) : d'.clusterAddr = d.clusterAddr := by
  funext x
  rw [clusterAddr, clusterAddr, h, hbase]

theorem Sound.congr (hbase : d'.base = d.base) (hd : d.Sound) : d'.Sound := by
  refine ⟨hbase.trans hd.base_zero, ?_, ?_, ?_⟩
  · rw [h]
    exact hd.size_lt
  · rw [h]
    exact hd.capacity
  · rw [h]
    exact hd.limit

end Geometry

variable {d' d'' : FatDisk} {s t : List Nat}

theorem Touches.sound (h : d.Touches s d') (hd : d.Sound) : d'.Sound := hd.congr h.bpb h.base

theorem Touches.refl (d : FatDisk) (s : List Nat) : d.Touches s d :=
  ⟨rfl, rfl, fun _ _ => rfl, fun _ _ _ => rfl, fun _ _ => rfl⟩

theorem Touches.trans (h : d.Touches s d') (h' : d'.Touches t d'') : d.Touches (s ++ t) d'' where
  bpb := h'.bpb.trans h.bpb
  base := h'.base.trans h.base
  next x hx := by
    rw [List.mem_append, not_or] at hx
    exact (h'.next x hx.2).trans (h.next x hx.1)
  content x hc hx := by
    rw [List.mem_append, not_or] at hx
    exact (h'.content x (by rwa [clusterNumbers_congr h.bpb]) hx.2).trans (h.content x hc hx.1)
  low a ha := (h'.low a (by rwa [dataStart_congr h.bpb])).trans (h.low a ha)

theorem Touches.mono (h : d.Touches s d') (hst : s ⊆ t) : d.Touches t d' :=
  ⟨h.bpb, h.base, fun x hx => h.next x fun hs => hx (hst hs),
    fun x hc hx => h.content x hc fun hs => hx (hst hs), h.low⟩

theorem getCluster_setDirty (d : FatDisk) :
    ({ d with dirty := true } : FatDisk).getCluster = d.getCluster :=
  getCluster_congr rfl rfl

/-- The disk writes its FAT back only when it is closed. -/
theorem Touches.setDirty (h : d.Touches s d') : d.Touches s { d' with dirty := true } where
  bpb := h.bpb
  base := h.base
  next x hx := by
    rw [getCluster_setDirty]
    exact h.next x hx
  content := h.content
  low := h.low

/-- The entry of the FAT that holds the end mark belongs to no cluster. -/
theorem Touches.getClusterNumberEOC_eq (h : d.Touches s d') (hs : ∀ x ∈ s, x ∈ d.clusterNumbers) :
    d'.getClusterNumberEOC = d.getClusterNumberEOC := by
  have hone : 1 ∉ s := fun h1 => by
    have := d.mem_clusterNumbers.mp (hs 1 h1)
    omega
  rw [FatDisk.getClusterNumberEOC_eq, FatDisk.getClusterNumberEOC_eq, h.bpb, h.next 1 hone]

theorem setCluster_content {c : Nat} (hc : c ∈ d.clusterNumbers) (v x : Nat) :
    (d.setCluster c v).2.content x = d.content x := by
  rw [setCluster_eq hc, content, content, clusterAddr, clusterAddr]

/-- A step that stores one entry of the FAT. -/
theorem Sound.touches_setCluster (hd : d.Sound) {c v : Nat} (hc : c ∈ d.clusterNumbers)
    (hv : d.Fits v) : d.Touches [c] (d.setCluster c v).2 := by
  refine ⟨?_, ?_, fun x hx => ?_, fun x _ _ => setCluster_content hc v x, fun a _ => ?_⟩
  · rw [setCluster_eq hc]
  · rw [setCluster_eq hc]
  · rw [List.mem_singleton] at hx
    rw [hd.getCluster_setCluster hc hv, Function.update_of_ne hx]
  · rw [setCluster_eq hc]

/-! ## Chains in range -/

variable {c : Nat} {l : List Nat}

theorem Chain.congr (h : d.Chain c l) (hbpb : d'.bpb = d.bpb)
    (hnext : ∀ x ∈ l, d'.getCluster x = d.getCluster x) : d'.Chain c l := by
  have hstop : d'.Eoc = d.Eoc := funext fun v => propext (eoc_congr hbpb v)
  rw [FatDisk.Chain, hstop]
  exact Library.Chain.congr h hnext

namespace GoodChain

theorem chain_of_limit (hlimit : d.bpb.getClusterCount ≤ MAX_CLUSTERS_16) (h : d.GoodChain c l) :
    d.Chain c l := by
  obtain ⟨hl, hrange⟩ := h
  induction hl with
  | last hs => exact .last hs.eoc
  | @link c t hn ht ih =>
    have ht' := ih fun x hx => hrange x (List.mem_cons_of_mem _ hx)
    exact .link (not_eoc hlimit (hrange _ (List.mem_cons_of_mem _ ht.head_mem))) ht'

theorem chain (hd : d.Sound) (h : d.GoodChain c l) : d.Chain c l := h.chain_of_limit hd.limit

theorem nodup (h : d.GoodChain c l) : l.Nodup := h.1.nodup

theorem head_mem (h : d.GoodChain c l) : c ∈ l := h.1.head_mem

theorem head_range (h : d.GoodChain c l) : c ∈ d.clusterNumbers := h.2 c h.head_mem

theorem unique {l' : List Nat} (h : d.GoodChain c l) (h' : d.GoodChain c l') : l = l' :=
  h.1.unique h'.1

theorem length_le (h : d.GoodChain c l) : l.length ≤ d.bpb.getClusterCount := by
  have hle := (h.nodup.subperm h.2).length_le
  rwa [clusterNumbers, List.length_range'] at hle

theorem congr (h : d.GoodChain c l) (hbpb : d'.bpb = d.bpb)
    (hnext : ∀ x ∈ l, d'.getCluster x = d.getCluster x) : d'.GoodChain c l := by
  have hstop : d'.EndMark = d.EndMark := funext fun v => propext (endMark_congr hbpb v)
  refine ⟨?_, fun x hx => ?_⟩
  · rw [hstop]
    exact h.1.congr hnext
  · rw [clusterNumbers_congr hbpb]
    exact h.2 x hx

/-- No cluster of a chain is free. -/
theorem not_free (h : d.GoodChain c l) {x : Nat} (hx : x ∈ l) : d.isClusterFree x = false := by
  obtain ⟨hl, hrange⟩ := h
  rw [isClusterFree, beq_eq_false_iff_ne]
  intro hfree
  induction hl with
  | last hs =>
    rw [List.mem_singleton] at hx
    subst hx
    rw [hfree] at hs
    exact d.not_endMark_free hs
  | @link c t hn ht ih =>
    rcases List.mem_cons.mp hx with rfl | hx
    · have hnext := d.mem_clusterNumbers.mp (hrange _ (List.mem_cons_of_mem _ ht.head_mem))
      rw [CLUSTER_FREE] at hfree
      omega
    · exact ih hx fun y hy => hrange y (List.mem_cons_of_mem _ hy)

end GoodChain

/-! ## The walks along a chain in range -/

theorem countClusters_eq {e : DirEntry} (hroot : e.isRoot = false) (hfirst : e.firstCluster ≠ 0)
    (h : d.Chain e.firstCluster.toNat l) {steps : Nat} (hsteps : l.length ≤ steps) :
    d.countClusters steps e = .ok l.length := by
  rw [countClusters, if_neg (by rw [hroot]; exact Bool.false_ne_true), if_neg hfirst, countLoop_eq,
    chainWithin_some.mpr ⟨h, hsteps⟩]
  simp

theorem readLoop_content (hd : d.Sound) (hc : c ∈ d.clusterNumbers) (steps : Nat) :
    d.readLoop (steps + 1) c =
      (d.readLoop steps (d.getCluster c)).map (Option.map (d.content c ++ ·)) := by
  have hne : ¬ d.isClusterNumberEOC c = true := hd.not_eoc hc
  rw [readLoop_succ, if_neg hne, hd.readCluster_eq hc]
  show (do let rest ← d.readLoop steps (d.getCluster c); return rest.map (d.content c ++ ·)) = _
  cases d.readLoop steps (d.getCluster c) with
  | error e => rfl
  | ok r => rfl

/-- Along a chain in range, `ReadFile` reads the clusters one after the other. -/
theorem readLoop_eq (hd : d.Sound) (h : d.Chain c l) (hrange : ∀ x ∈ l, x ∈ d.clusterNumbers)
    {steps : Nat} (hsteps : l.length ≤ steps) :
    d.readLoop steps c = .ok (some (l.map d.content).flatten) := by
  induction h generalizing steps with
  | @last c hs =>
    rw [List.length_singleton] at hsteps
    obtain ⟨steps, rfl⟩ : ∃ n, steps = n + 1 := ⟨steps - 1, by omega⟩
    rw [readLoop_content hd (hrange c List.mem_cons_self), d.readLoop_of_eoc hs]
    rfl
  | @link c t hn ht ih =>
    rw [List.length_cons] at hsteps
    obtain ⟨steps, rfl⟩ : ∃ n, steps = n + 1 := ⟨steps - 1, by omega⟩
    rw [readLoop_content hd (hrange c List.mem_cons_self),
      ih (fun x hx => hrange x (List.mem_cons_of_mem _ hx)) (by omega)]
    rfl

theorem findNextFreeCluster_spec (h : ∃ x ∈ d.clusterNumbers, d.getCluster x = CLUSTER_FREE) :
    d.findNextFreeCluster ∈ d.clusterNumbers ∧
      d.getCluster d.findNextFreeCluster = CLUSTER_FREE := by
  rw [findNextFreeCluster]
  cases hfind : d.clusterNumbers.find? d.isClusterFree with
  | none =>
    obtain ⟨x, hx, hfree⟩ := h
    have := List.find?_eq_none.mp hfind x hx
    exact absurd (beq_iff_eq.mpr hfree) this
  | some x =>
    have hfree := List.find?_some hfind
    exact ⟨List.mem_of_find?_eq_some hfind, beq_iff_eq.mp hfree⟩

/-! ## Files -/

/-- The clusters of an entry; cluster zero stands for none. -/
def Clusters (d : FatDisk) (e : DirEntry) (l : List Nat) : Prop :=
  if e.firstCluster = 0 then l = [] else d.GoodChain e.firstCluster.toNat l

/-- Every one of the entries has its clusters, and no two of them have one in common. -/
def FilesApart (d : FatDisk) (files : List DirEntry) : Prop :=
  (∀ e ∈ files, ∃ l, d.Clusters e l) ∧
    files.Pairwise fun e e' => ∀ l l', d.Clusters e l → d.Clusters e' l' → l.Disjoint l'

theorem filesApart_nil (d : FatDisk) : d.FilesApart [] := ⟨fun _ he => (nomatch he), .nil⟩

variable {e : DirEntry} {l' : List Nat}

theorem Clusters.unique (h : d.Clusters e l) (h' : d.Clusters e l') : l = l' := by
  rw [Clusters] at h h'
  split at h
  · rw [if_pos ‹_›] at h'
    rw [h, h']
  · rw [if_neg ‹_›] at h'
    exact h.unique h'

theorem Clusters.congr (h : d.Clusters e l) (hbpb : d'.bpb = d.bpb)
    (hnext : ∀ x ∈ l, d'.getCluster x = d.getCluster x) : d'.Clusters e l := by
  rw [Clusters] at h ⊢
  split at h
  · rwa [if_pos ‹_›]
  · rw [if_neg ‹_›]
    exact GoodChain.congr h hbpb hnext

theorem Clusters.not_free (h : d.Clusters e l) {x : Nat} (hx : x ∈ l) :
    d.getCluster x ≠ CLUSTER_FREE := by
  rw [Clusters] at h
  split at h
  · rw [h] at hx
    exact nomatch hx
  · have hne := GoodChain.not_free h hx
    rw [isClusterFree, beq_eq_false_iff_ne] at hne
    exact hne

/-! ## What a change to other clusters leaves alone -/

theorem mapM_congr {α β : Type} {f g : α → Option β} {xs : List α} (h : ∀ x ∈ xs, f x = g x) :
    xs.mapM f = xs.mapM g := by
  induction xs with
  | nil => rfl
  | cons x xs ih =>
    rw [List.mapM_cons, List.mapM_cons, h x List.mem_cons_self,
      ih fun y hy => h y (List.mem_cons_of_mem x hy)]

theorem Touches.readRoot_eq (hd : d.Sound) (h : d.Touches s d') : d'.readRoot = d.readRoot := by
  have hbase : d'.rootBase = d.rootBase := by
    rw [rootBase, rootBase, h.bpb]
  have hsum := (fsDataSectors_sum d.bpb).1
  have hsize : d.bpb.fsDataSectors * d.bpb.sectorSize.toNat ≤ d.bpb.getDiskSize :=
    (Nat.le_add_right _ _).trans hd.clusters_fit
  have hdisk := d.getDiskSize_lt
  rw [readRoot, readRoot, h.bpb, hbase]
  refine congrArg (Option.map List.flatten) (mapM_congr fun i hi => ?_)
  rw [List.mem_range] at hi
  have hmul := Nat.mul_le_mul_right d.bpb.sectorSize.toNat
    (by rw [rootBase]; omega : d.rootBase + i + 1 ≤ d.bpb.fsDataSectors)
  rw [Nat.add_mul _ 1, Nat.one_mul] at hmul
  have haddr : d.sectorAddr (d.rootBase + i) = (d.rootBase + i) * d.bpb.sectorSize.toNat := by
    rw [sectorAddr, hd.base_zero, Nat.zero_add, u32_of_lt (n := _ * _) (by omega),
      u32_of_lt (by omega)]
  have haddr' : d'.sectorAddr (d.rootBase + i) = d.sectorAddr (d.rootBase + i) := by
    rw [sectorAddr, sectorAddr, h.bpb, h.base]
  have hslice : slice d'.file (d.sectorAddr (d.rootBase + i)) d.bpb.sectorSize.toNat =
      slice d.file (d.sectorAddr (d.rootBase + i)) d.bpb.sectorSize.toNat := by
    refine slice_congr fun a _ ha => h.low a ?_
    rw [dataStart]
    omega
  rw [readSector, readSector, sectorInside, sectorInside, haddr', h.bpb, hslice]

theorem readFile_chain (hd : d.Sound) (hroot : e.isRoot = false) (hok : refusesFile e = false)
    (h : d.GoodChain e.firstCluster.toNat l) {steps : Nat} (hsteps : d.bpb.getClusterCount ≤ steps) :
    d.readFile steps e = .ok (some (l.map d.content).flatten) := by
  rw [readFile_def, hroot, hok, if_neg Bool.false_ne_true, if_neg Bool.false_ne_true]
  exact readLoop_eq hd (h.chain hd) h.2 (h.length_le.trans hsteps)

/-- A file none of whose clusters is touched has the chain and the content it had. -/
theorem Touches.frame (hd : d.Sound) (h : d.Touches s d') (hl : d.Clusters e l)
    (hdisj : l.Disjoint s) {steps : Nat} (hsteps : d.bpb.getClusterCount ≤ steps) :
    d'.Clusters e l ∧ d'.readFile steps e = d.readFile steps e := by
  have hnext : ∀ x ∈ l, d'.getCluster x = d.getCluster x := fun x hx => h.next x (hdisj hx)
  refine ⟨hl.congr h.bpb hnext, ?_⟩
  by_cases hroot : e.isRoot = true
  · rw [readFile_def, readFile_def, if_pos hroot, if_pos hroot, h.readRoot_eq hd]
  by_cases hok : refusesFile e = true
  · rw [readFile_def, readFile_def, if_neg hroot, if_neg hroot, if_pos hok, if_pos hok]
  by_cases hfirst : e.firstCluster = 0
  · have hzero : e.firstCluster.toNat = CLUSTER_FREE := by
      rw [hfirst]
      rfl
    rw [readFile_def, readFile_def, if_neg hroot, if_neg hroot, if_neg hok, if_neg hok, hzero,
      d'.readLoop_of_eoc d'.eoc_zero, d.readLoop_of_eoc d.eoc_zero]
  · rw [Clusters, if_neg hfirst] at hl
    rw [Bool.not_eq_true] at hroot hok
    have hcontent : l.map d'.content = l.map d.content :=
      List.map_congr_left fun x hx => h.content x (hl.2 x hx) (hdisj hx)
    rw [readFile_chain hd hroot hok hl hsteps,
      readFile_chain (h.sound hd) hroot hok (hl.congr h.bpb hnext) (by rwa [h.bpb]), hcontent]

end FatDisk

end Ohwes.Fatfs

import Ohwes.Fatfs.Mount

/-! # The bounds of cluster numbers

The clusters of a disk are numbered from 2 on. `GetCluster`, `SetCluster`, `ReadCluster` and
`WriteCluster` each compare the number, less 2, with the count of clusters, and let the count itself
through. -/

namespace Ohwes.Fatfs
open Library
set_option autoImplicit false

namespace FatDisk
variable (d : FatDisk)

/-! ## The checks -/

/-- Whether `GetCluster` reads the FAT. -/
def mayGet (index : Nat) : Bool :=
  !(CLUSTER_FIRST ≤ index && index - CLUSTER_FIRST > d.bpb.getClusterCount)

/-- Whether `SetCluster` writes the FAT. -/
def maySet (index : Nat) : Bool :=
  !(index < CLUSTER_FIRST || index - CLUSTER_FIRST > d.bpb.getClusterCount)

theorem mayGet_iff {index : Nat} : d.mayGet index = true ↔ index ≤ d.bpb.getClusterCount + 2 := by
  rw [mayGet, CLUSTER_FIRST, Bool.not_eq_true', ← Bool.not_eq_true, Bool.and_eq_true,
    decide_eq_true_iff, decide_eq_true_iff]
  omega

theorem maySet_iff {index : Nat} :
    d.maySet index = true ↔ 2 ≤ index ∧ index ≤ d.bpb.getClusterCount + 2 := by
  rw [maySet, CLUSTER_FIRST, Bool.not_eq_true', ← Bool.not_eq_true, Bool.or_eq_true,
    decide_eq_true_iff, decide_eq_true_iff]
  omega

theorem getCluster_mayGet (index : Nat) :
    d.getCluster index =
      if d.mayGet index then
        if d.bpb.isFat12 then getCluster12 d.fat index else getCluster16 d.fat index
      else d.getClusterNumberEOC := by
  rw [getCluster]
  by_cases h : d.mayGet index = true
  · have hle := d.mayGet_iff.mp h
    rw [if_pos h, if_neg (by rw [CLUSTER_FIRST]; omega)]
  · have hgt := mt d.mayGet_iff.mpr h
    rw [if_neg h, if_pos (by rw [CLUSTER_FIRST]; omega)]

theorem setCluster_maySet (index value : Nat) :
    d.setCluster index value =
      if d.maySet index then
        let r :=
          if d.bpb.isFat12 then setCluster12 d.fat index value else setCluster16 d.fat index value
        (r.1, { d with fat := r.2 })
      else (d.getClusterNumberEOC, d) := by
  rw [setCluster]
  by_cases h : d.maySet index = true
  · have hle := d.maySet_iff.mp h
    rw [if_pos h, if_neg (by rw [CLUSTER_FIRST]; omega)]
  · have hgt := mt d.maySet_iff.mpr h
    rw [if_neg h, if_pos (by rw [CLUSTER_FIRST]; omega)]

/-- A number of a cluster. -/
def HasCluster (index : Nat) : Prop := 2 ≤ index ∧ index < d.bpb.getClusterCount + 2

instance : DecidablePred d.HasCluster := fun _ => inferInstanceAs (Decidable (_ ∧ _))

/-- The first byte of an entry of the FAT. -/
def entryStart (index : Nat) : Nat := if d.bpb.isFat12 then index + index / 2 else 2 * index

/-- The first byte of a cluster in the volume. -/
def dataPosition (index : Nat) : Nat := d.dataStart + (index - 2) * d.bpb.getClusterSize

/-- The four functions accept the right numbers, the assertions hold, and what is accepted lies
inside the FAT and inside the disk. -/
structure ClusterBounds (index : Nat) : Prop where
  get : d.mayGet index = true ↔ index < d.bpb.getClusterCount + 2
  set : d.maySet index = true ↔ d.HasCluster index
  read : ∃ r, d.readCluster index = .ok r ∧ (r.isSome = true ↔ d.HasCluster index)
  write : ∀ bs, ∃ r, d.writeCluster index bs = .ok r ∧ (r.isSome = true ↔ d.HasCluster index)
  entry : index < d.bpb.getClusterCount + 2 → d.entryStart index + 1 < d.bpb.fatBytes
  data : d.HasCluster index → d.dataPosition index + d.bpb.getClusterSize ≤
    d.bpb.getSectorCount * d.bpb.sectorSize.toNat
  address : d.HasCluster index → d.clusterAddr index = d.base + d.dataPosition index

/-- What the boot sector has to say for the number: the FAT is long enough for its entry, the areas
before the clusters are no larger than the disk, and the end of the cluster is, in the arithmetic of
the assertion, no further than that of the disk. -/
structure Covers (index : Nat) : Prop where
  reserved : index < 2 → d.bpb.getClusterCount < 4294967294 + index
  entry : index < d.bpb.getClusterCount + 2 → d.entryStart index + 1 < d.bpb.fatBytes
  areas : d.HasCluster index → d.bpb.fsDataSectors ≤ d.bpb.getSectorCount
  address : d.HasCluster index → d.base + d.dataPosition index < 4294967296
  inside : d.HasCluster index →
    u32 (d.base + d.dataPosition index + d.bpb.getClusterSize) ≤ d.bpb.getDiskSize

/-! ## When the checks are right -/

variable {d}

theorem u32Sub_two {index : Nat} (h : 2 ≤ index) (hlt : index < 4294967296) :
    u32Sub index CLUSTER_FIRST = index - 2 := u32Sub_of_le hlt h

theorem u32Sub_below {index : Nat} (h : index < 2) :
    u32Sub index CLUSTER_FIRST = 4294967294 + index := by
  unfold u32Sub u32 CLUSTER_FIRST
  omega

theorem clusterAddr_mod {index : Nat} (h : 2 ≤ index) (hlt : index < 4294967296) :
    d.clusterAddr index = u32 (d.base + d.dataPosition index) := by
  rw [clusterAddr, u32Sub_two h hlt, dataPosition, dataStart]
  unfold u32
  omega

/-- Clusters that a count by the arithmetic of the source has are inside the disk where the areas
before them are. -/
theorem data_fits_iff {index : Nat} (h : d.HasCluster index) :
    d.dataPosition index + d.bpb.getClusterSize ≤ d.bpb.getSectorCount * d.bpb.sectorSize.toNat ↔
      d.bpb.fsDataSectors ≤ d.bpb.getSectorCount := by
  have hss : 0 < d.bpb.sectorSize.toNat := by
    have := d.sectorSize_ge
    omega
  have hpos : d.dataPosition index + d.bpb.getClusterSize =
      (d.bpb.fsDataSectors + (index - 2 + 1) * d.bpb.sectorsPerCluster.toNat) *
        d.bpb.sectorSize.toNat := by
    rw [dataPosition, dataStart, BiosParamBlock.getClusterSize]
    ring
  rw [hpos, Nat.mul_le_mul_right_iff hss]
  constructor
  · intro hle
    omega
  · intro hle
    have hcount : d.bpb.getClusterCount * d.bpb.sectorsPerCluster.toNat ≤
        d.bpb.getSectorCount - d.bpb.fsDataSectors := by
      rw [BiosParamBlock.getClusterCount, u32Sub_of_le (getSectorCount_lt d.bpb) hle]
      exact Nat.div_mul_le_self _ _
    have hmul := Nat.mul_le_mul_right d.bpb.sectorsPerCluster.toNat
      (show index - 2 + 1 ≤ d.bpb.getClusterCount from by have := h.1; have := h.2; omega)
    omega

/-- Where the check of `ReadCluster` and `WriteCluster` lets a number through. -/
theorem clusterInside_eq (d : FatDisk) (index : Nat) :
    d.clusterInside index =
      if u32Sub index CLUSTER_FIRST > d.bpb.getClusterCount then .ok false
      else if u32 (d.clusterAddr index + d.bpb.getClusterSize) ≤ d.bpb.getDiskSize then .ok true
      else .error .assertion := by
  rw [clusterInside]
  split
  · rfl
  · by_cases h : u32 (d.clusterAddr index + d.bpb.getClusterSize) ≤ d.bpb.getDiskSize
    · rw [decide_eq_true h, if_pos h]
      rfl
    · rw [decide_eq_false h, if_neg h]
      rfl

theorem accessed_iff {d : FatDisk} {index : Nat} {P : Prop} :
    ((∃ r, d.readCluster index = .ok r ∧ (r.isSome = true ↔ P)) ∧
      ∀ bs, ∃ r, d.writeCluster index bs = .ok r ∧ (r.isSome = true ↔ P)) ↔
      ∃ b, d.clusterInside index = .ok b ∧ (b = true ↔ P) := by
  unfold readCluster writeCluster
  cases h : d.clusterInside index with
  | error e =>
    apply iff_of_false
    · rintro ⟨⟨r, hr, -⟩, -⟩
      cases hr
    · rintro ⟨b, hb, -⟩
      cases hb
  | ok b =>
    cases b
    · constructor
      · rintro ⟨⟨r, hr, hiff⟩, -⟩
        cases hr
        exact ⟨false, rfl, hiff⟩
      · rintro ⟨b, hb, hiff⟩
        cases hb
        exact ⟨⟨_, rfl, hiff⟩, fun _ => ⟨_, rfl, hiff⟩⟩
    · constructor
      · rintro ⟨⟨r, hr, hiff⟩, -⟩
        cases hr
        exact ⟨true, rfl, hiff⟩
      · rintro ⟨b, hb, hiff⟩
        cases hb
        exact ⟨⟨_, rfl, hiff⟩, fun _ => ⟨_, rfl, hiff⟩⟩

theorem ClusterBounds.covers {index : Nat} (hlt : index < 4294967296) (h : d.ClusterBounds index) :
    d.Covers index := by
  obtain ⟨b, hb, hiff⟩ := accessed_iff.mp ⟨h.read, h.write⟩
  rw [clusterInside_eq] at hb
  refine ⟨fun hlow => ?_, h.entry, fun hc => (data_fits_iff hc).mp (h.data hc), fun hc => ?_,
    fun hc => ?_⟩
  · by_contra hge
    rw [u32Sub_below hlow, if_neg hge] at hb
    split at hb
    · cases hb
      have := (hiff.mp rfl).1
      omega
    · cases hb
  · rw [← h.address hc]
    exact u32_lt _
  · have hle : ¬ u32Sub index CLUSTER_FIRST > d.bpb.getClusterCount := by
      rw [u32Sub_two hc.1 hlt]
      have := hc.2
      omega
    rw [if_neg hle] at hb
    rw [← h.address hc]
    by_contra hnot
    rw [if_neg hnot] at hb
    cases hb

theorem Covers.clusterBounds {index : Nat} (hlt : index < 4294967296)
    (hne : index ≠ d.bpb.getClusterCount + 2) (h : d.Covers index) : d.ClusterBounds index := by
  have haddr : d.HasCluster index → d.clusterAddr index = d.base + d.dataPosition index := by
    intro hc
    rw [clusterAddr_mod hc.1 hlt, u32_of_lt (h.address hc)]
  have hinside : ∃ b, d.clusterInside index = .ok b ∧ (b = true ↔ d.HasCluster index) := by
    rw [clusterInside_eq]
    by_cases hc : d.HasCluster index
    · rw [if_neg (by rw [u32Sub_two hc.1 hlt]; have := hc.2; omega), haddr hc, if_pos (h.inside hc)]
      exact ⟨true, rfl, iff_of_true rfl hc⟩
    · refine ⟨false, if_pos ?_, iff_of_false Bool.false_ne_true hc⟩
      by_cases hlow : index < 2
      · rw [u32Sub_below hlow]
        exact h.reserved hlow
      · have hover : ¬ index < d.bpb.getClusterCount + 2 := fun hlt' => hc ⟨by omega, hlt'⟩
        rw [u32Sub_two (by omega) hlt]
        omega
  obtain ⟨hread, hwrite⟩ := accessed_iff.mpr hinside
  refine ⟨?_, ?_, hread, hwrite, h.entry, fun hc => (data_fits_iff hc).mpr (h.areas hc), haddr⟩
  · rw [mayGet_iff]
    omega
  · rw [maySet_iff, HasCluster]
    omega

/-- A sound disk covers all its numbers. -/
theorem Sound.covers (hd : d.Sound) {index : Nat} : d.Covers index := by
  have hlimit : d.bpb.getClusterCount ≤ 65524 := hd.limit
  have hend : ∀ {c}, d.HasCluster c → c ∈ d.clusterNumbers := fun hc => d.mem_clusterNumbers.mpr hc
  have hdisk := d.getDiskSize_lt
  refine ⟨fun _ => by omega, fun h => ?_, fun hc => ?_, fun hc => ?_, fun hc => ?_⟩
  · have hroom := hd.fat_room (x := index) (by omega)
    rw [entryStart]
    split
    · rwa [if_pos ‹_›] at hroom
    · rwa [if_neg ‹_›] at hroom
  · have hfit := sectors_fit d.bpb d.mountable.sectorsPerCluster_pos (getSectorCount_lt d.bpb) hd.limit
    omega
  · have hfit := hd.cluster_end (hend hc)
    rw [hd.base_zero, dataPosition]
    omega
  · have hfit := hd.cluster_end (hend hc)
    rw [hd.base_zero, dataPosition, Nat.zero_add, u32_of_lt (by omega)]
    exact hfit

/-- **Cluster numbers.** The four functions keep to the clusters of the disk exactly where the number
is not the one behind the last cluster and the boot sector covers it, as that of a sound disk does. -/
theorem cluster_bounds_iff (d : FatDisk) (index : Nat) (hlt : index < 4294967296) :
    (d.ClusterBounds index ↔ index ≠ d.bpb.getClusterCount + 2 ∧ d.Covers index) ∧
      (d.Sound → d.Covers index) := by
  refine ⟨⟨fun h => ⟨?_, h.covers hlt⟩, fun h => h.2.clusterBounds hlt h.1⟩, fun hd => hd.covers⟩
  rintro rfl
  have hlast := h.get.mp (d.mayGet_iff.mpr (Nat.le_refl _))
  omega

end FatDisk

theorem cluster_bounds_tiny : loopedDisk.ClusterBounds 4 :=
  ((FatDisk.cluster_bounds_iff loopedDisk 4 (by decide)).1).mpr
    ⟨by decide, (FatDisk.cluster_bounds_iff loopedDisk 4 (by decide)).2
      ⟨by decide, by decide, by decide, by decide⟩⟩

/-- The number behind the last cluster is taken for one of a cluster: an entry of the FAT is read and
stored for it, and the assertion fails. -/
theorem number_behind_last :
    ¬ loopedDisk.ClusterBounds 5 ∧ loopedDisk.getCluster 5 = getCluster12 loopedDisk.fat 5 ∧
      (loopedDisk.setCluster 5 0xFFF).2.fat = (setCluster12 loopedDisk.fat 5 0xFFF).2 ∧
      loopedDisk.readCluster 5 = .error .assertion := by
  refine ⟨fun h => absurd (h.get.mp (by decide)) (by decide), ?_, ?_, by rfl⟩
  · rw [FatDisk.getCluster_mayGet, if_pos (by decide), if_pos (by decide)]
  · rw [FatDisk.setCluster_maySet, if_pos (by decide), if_pos (by decide)]

end Ohwes.Fatfs

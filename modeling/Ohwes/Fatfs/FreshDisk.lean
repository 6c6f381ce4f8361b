import Ohwes.Fatfs.AddFile
import Ohwes.Fatfs.FatSizing
import Ohwes.Fatfs.Volume

/-! # A formatted volume, opened

What `Open` reads from the areas that `CreateNew` has laid out: the block it was given, a FAT without
a cluster in use, and a root directory that holds the volume label or nothing. -/

namespace Ohwes.Fatfs
open Library
set_option autoImplicit false

/-- An image that `CreateNew` made, of a volume at its start whose FAT has an entry for every
cluster. -/
structure FreshImage (bpb : BiosParamBlock) (img : Image) : Prop where
  covered : bpb.getClusterCount ≤ bpb.getFatCapacity
  limit : bpb.getClusterCount ≤ MAX_CLUSTERS_16
  created : ∃ (junk : Buffer) (now : Tm) (f : HostFile),
    createNew junk now bpb 0 = .ok (.ok f) ∧ img = ⟨f.data, f.size⟩

theorem FreshImage.formattable {bpb : BiosParamBlock} {img : Image} (h : FreshImage bpb img) :
    Formattable bpb := by
  obtain ⟨junk, now, f, hf, -⟩ := h.created
  exact createNew_formattable junk now hf

section Areas
variable (junk : Buffer) (now : Tm) {bpb : BiosParamBlock}

theorem FreshImage.data_eq {img : Image} (h : FreshImage bpb img) :
    ∃ junk now, bpb.reservedSectorCount.toNat ≠ 0 ∧
      img.data = overlay (fun _ => 0) 0 (areas junk now bpb).flatten := by
  obtain ⟨junk, now, f, hf, rfl⟩ := h.created
  obtain ⟨-, ⟨hres, -, -⟩, rfl⟩ := (createNew_ok junk now h.formattable 0 f).mp hf
  have hbase : u32 ((0 : BitVec 32).toNat * 512) = 0 := by decide
  refine ⟨junk, now, hres, ?_⟩
  dsimp only
  rw [hbase, startWriter_file, HostFile.write]
  by_cases hnil : (areas junk now bpb).flatten = []
  · rw [if_pos hnil, hnil, overlay_nil]
  · rw [if_neg hnil]

/-- Where the block stands. -/
theorem areas_boot (h : bpb.reservedSectorCount.toNat ≠ 0) :
    ∃ pre : List Byte, pre.length = 11 ∧ pre ++ bpb.bytes <+: (areas junk now bpb).flatten := by
  refine ⟨jumpCode ++ (writeFatString PROG_NAME NAME_LENGTH).toList, ?_, ?_⟩
  · rw [List.length_append, Vector.length_toList]
    rfl
  · rw [← areas_flatten junk now h, bootSectorBuf, initBootSector]
    simp only [List.append_assoc]
    exact (List.prefix_append_right_inj _).mpr ((List.prefix_append_right_inj _).mpr
      (List.prefix_append _ _))

/-- Where the first copy of the FAT does. -/
theorem areas_fat (hb : Formattable bpb) (h : bpb.tableCount.toNat ≠ 0) :
    ∃ pre : List Byte, pre.length = bpb.reservedSectorCount.toNat * bpb.sectorSize.toNat ∧
      pre ++ slice (freshFat junk bpb) 0 bpb.fatBytes <+: (areas junk now bpb).flatten := by
  obtain ⟨t, ht⟩ : ∃ t, bpb.tableCount.toNat = t + 1 := ⟨bpb.tableCount.toNat - 1, by omega⟩
  refine ⟨(List.replicate bpb.reservedSectorCount.toNat
    (bootSectorBuf junk bpb bpb.sectorSize.toNat)).flatten, ?_, ?_⟩
  · rw [flatten_replicate_length, bootSectorBuf_length junk bpb hb.sectorSize_ge]
  · rw [areas, ht, List.replicate_succ, BiosParamBlock.fatBytes]
    simp only [List.flatten_cons, List.append_assoc]
    exact (List.prefix_append_right_inj _).mpr (List.prefix_append _ _)

/-- Where the root directory does. -/
theorem areas_root (hb : Formattable bpb) :
    ∃ pre : List Byte, pre.length = bpb.reservedSectorCount.toNat * bpb.sectorSize.toNat +
        bpb.tableCount.toNat * bpb.fatBytes ∧
      pre ++ (rootSectors now bpb bpb.rootSectorCount bpb.sectorSize.toNat).flatten <+:
        (areas junk now bpb).flatten := by
  refine ⟨(List.replicate bpb.reservedSectorCount.toNat
      (bootSectorBuf junk bpb bpb.sectorSize.toNat)).flatten ++
    (List.replicate bpb.tableCount.toNat (slice (freshFat junk bpb) 0 bpb.fatBytes)).flatten, ?_, ?_⟩
  · rw [List.length_append, flatten_replicate_length, flatten_replicate_length, slice_length,
      bootSectorBuf_length junk bpb hb.sectorSize_ge]
  · rw [areas, BiosParamBlock.fatBytes]
    simp only [List.flatten_cons, List.append_assoc]
    exact (List.prefix_append_right_inj _).mpr ((List.prefix_append_right_inj _).mpr
      (List.prefix_append _ _))

/-- The root directory: the label, if there is one, and zeros. -/
theorem rootSectors_eq (bpb : BiosParamBlock) (size : Nat) {count : Nat} (hcount : 0 < count) :
    ∃ n, (rootSectors now bpb count size).flatten =
      (if hasCustomLabel bpb then (volLabel now bpb).bytes else []) ++ List.replicate n 0 := by
  obtain ⟨m, rfl⟩ : ∃ m, count = m + 1 := ⟨count - 1, by omega⟩
  have hrest : ((List.range m).map fun i => zeroPadded (if hasCustomLabel bpb && i + 1 == 0 then
      (volLabel now bpb).bytes else []) size).flatten = List.replicate (m * size) 0 := by
    have hzero : ∀ i ∈ List.range m, zeroPadded (if hasCustomLabel bpb && i + 1 == 0 then
        (volLabel now bpb).bytes else []) size = List.replicate size 0 := by
      intro i _
      rw [beq_eq_false_iff_ne.mpr (Nat.succ_ne_zero i), Bool.and_false, if_neg Bool.false_ne_true,
        zeroPadded, List.nil_append, List.length_nil, Nat.sub_zero]
    rw [List.map_congr_left hzero, List.map_const', List.length_range, List.flatten_replicate_replicate]
  refine ⟨(size - (if hasCustomLabel bpb then (volLabel now bpb).bytes else []).length) + m * size, ?_⟩
  rw [rootSectors, List.range_succ_eq_map, List.map_cons, List.map_map, List.flatten_cons]
  refine (congrArg (_ ++ ·) hrest).trans ?_
  rw [beq_self_eq_true, Bool.and_true, zeroPadded, List.append_assoc, List.replicate_append_replicate]

end Areas

/-! ## The FAT -/

section Table
variable {bpb : BiosParamBlock} (hb : Formattable bpb) (junk : Buffer)
include hb

theorem freshFat_eq : freshFat junk bpb =
    if bpb.isFat12 then (setCluster12 (setCluster12 (zeroFill junk bpb.fatBytes) 0
      (0x0F00 + bpb.mediaType.toNat)).2 1 CLUSTER_EOC_12).2
    else (setCluster16 (setCluster16 (zeroFill junk bpb.fatBytes) 0
      (0xFF00 + bpb.mediaType.toNat)).2 1 CLUSTER_EOC_16).2 := by
  have hwidth := createNewFat12_eq hb
  rw [createNewFat12_eq_isFat12] at hwidth
  by_cases hc : clusterCount bpb ≤ MAX_CLUSTERS_12
  · rw [freshFat, hwidth, decide_eq_true hc, if_pos hc, if_pos rfl, BiosParamBlock.fatBytes]
  · rw [freshFat, hwidth, decide_eq_false hc, if_neg hc, if_neg Bool.false_ne_true,
      BiosParamBlock.fatBytes]

/-- Its entries: the end mark in the second, and no cluster in use. -/
theorem freshFat_entry {x : Nat} (hpos : 0 < x) (hx : x < 2147483648)
    (hroom : if bpb.isFat12 then x + x / 2 + 1 < bpb.fatBytes else 2 * x + 1 < bpb.fatBytes) :
    (if bpb.isFat12 then getCluster12 (freshFat junk bpb) x
      else getCluster16 (freshFat junk bpb) x) =
    if x = 1 then if bpb.isFat12 then CLUSTER_EOC_12 else CLUSTER_EOC_16 else CLUSTER_FREE := by
  have hzero : ∀ i < bpb.fatBytes, zeroFill junk bpb.fatBytes i = 0 := fun i hi => if_pos hi
  rw [freshFat_eq hb junk]
  by_cases h12 : bpb.isFat12 = true
  · simp only [h12, if_true] at hroom ⊢
    rw [getCluster12_setCluster12 _ _ (by omega) (by omega)]
    split
    · rfl
    · rw [getCluster12_setCluster12 _ _ (by omega) (by omega), if_neg (by omega),
        getCluster12_eq _ (by omega), hzero _ hroom, hzero (x + x / 2) (by omega)]
      split <;> rfl
  · simp only [h12, if_false, Bool.false_eq_true] at hroom ⊢
    rw [getCluster16_setCluster16 _ _ (by omega) hx]
    split
    · rfl
    · rw [getCluster16_setCluster16 _ _ (by omega) hx, if_neg (by omega), getCluster16_eq _ hx,
        hzero _ hroom, hzero (2 * x) (by omega)]
      rfl

end Table

/-! ## The disk -/

section Opened
variable {bpb : BiosParamBlock} {img : Image} (h : FreshImage bpb img)
include h

/-- `Open` reads the block that `CreateNew` was given. -/
theorem FreshImage.block : BiosParamBlock.ofBytes img.data 11 = bpb := by
  obtain ⟨junk, now, hres, hdata⟩ := h.data_eq
  obtain ⟨pre, hlen, hpre⟩ := areas_boot junk now hres
  refine BiosParamBlock.ofBytes_held fun i hi => ?_
  have hpart := overlay_part (fun _ => 0) 0 hpre hi
  rwa [hlen, Nat.zero_add, ← hdata] at hpart

variable (host : Host) (hm : Mountable bpb)

theorem FreshImage.sound : (mount host img 0 bpb hm).Sound :=
  ⟨rfl, h.formattable.size_lt, h.covered, h.limit⟩

theorem FreshImage.getCluster_eq {x : Nat} (hpos : 0 < x) (hx : x ≤ bpb.getClusterCount + 1) :
    (mount host img 0 bpb hm).getCluster x =
      if x = 1 then if bpb.isFat12 then CLUSTER_EOC_12 else CLUSTER_EOC_16 else CLUSTER_FREE := by
  obtain ⟨junk, now, -, hdata⟩ := h.data_eq
  have hsound := h.sound host hm
  have hlimit := h.limit
  rw [MAX_CLUSTERS_16] at hlimit
  obtain ⟨pre, hlen, hpre⟩ := areas_fat junk now h.formattable
    (mount host img 0 bpb hm).tableCount_pos.ne'
  -- the table in memory and the one that was written agree where the FAT has sectors
  have hfat : ∀ i < bpb.fatBytes, (mount host img 0 bpb hm).fat i = freshFat junk bpb i := by
    intro i hi
    have hin : i < (slice (freshFat junk bpb) 0 bpb.fatBytes).length := by
      rwa [slice_length]
    have hpart := overlay_part (fun _ => 0) 0 hpre hin
    have hget := slice_getElem? (freshFat junk bpb) 0 bpb.fatBytes i
    rw [if_pos hi, Nat.zero_add, List.getElem?_eq_getElem hin] at hget
    rw [hlen, Nat.zero_add, ← hdata, Option.some.inj hget] at hpart
    simp only [mount, hi, if_true, Nat.zero_add]
    exact hpart
  have hroom := hsound.fat_room hx
  rw [FatDisk.getCluster_of_le _ hx]
  exact (getCluster_table_congr hfat (by omega) hroom).trans
    (freshFat_entry h.formattable junk hpos (by omega) hroom)

theorem FreshImage.getClusterNumberEOC_eq :
    (mount host img 0 bpb hm).getClusterNumberEOC =
      if bpb.isFat12 then CLUSTER_EOC_12 else CLUSTER_EOC_16 := by
  have hone := h.getCluster_eq host hm Nat.one_pos (by omega)
  rw [if_pos rfl] at hone
  rw [FatDisk.getClusterNumberEOC_eq, hone]
  change (if bpb.isFat12 then _ else _) = _
  by_cases h12 : bpb.isFat12 = true
  · rw [if_pos h12, if_pos h12]
  · rw [if_neg h12, if_neg h12]
    rfl

/-- The label is the only entry, if there is one. -/
theorem FreshImage.rootEntry_cases {i : Nat} (hi : i < (mount host img 0 bpb hm).rootCapacity) :
    (∃ now, i = 0 ∧ hasCustomLabel bpb = true ∧
        (mount host img 0 bpb hm).rootEntry i = volLabel now bpb) ∨
      ((mount host img 0 bpb hm).rootEntry i).isFree = true := by
  obtain ⟨junk, now, -, hdata⟩ := h.data_eq
  obtain ⟨pre, hlen, hpre⟩ := areas_root junk now h.formattable
  have hstart : (mount host img 0 bpb hm).rootStart = 0 + pre.length := by
    rw [hlen, Nat.zero_add]
    exact (mount host img 0 bpb hm).rootStart_eq
  have hle : DIR_ENTRY_SIZE * (i + 1) ≤ bpb.rootSectorCount * bpb.sectorSize.toNat :=
    (Nat.mul_le_mul_left DIR_ENTRY_SIZE hi).trans (mount host img 0 bpb hm).rootCapacity_le
  have hcount : 0 < bpb.rootSectorCount := by
    refine Nat.pos_of_ne_zero fun h0 => ?_
    rw [h0, Nat.zero_mul, DIR_ENTRY_SIZE] at hle
    omega
  have hlength : (rootSectors now bpb bpb.rootSectorCount bpb.sectorSize.toNat).flatten.length =
      bpb.rootSectorCount * bpb.sectorSize.toNat :=
    rootSectors_length now bpb h.formattable.sectorSize_ge
  obtain ⟨n, hn⟩ := rootSectors_eq now bpb bpb.sectorSize.toNat hcount
  rw [hn] at hpre hlength
  generalize hL : (if hasCustomLabel bpb then (volLabel now bpb).bytes else []) = L at hpre hlength
  have hbyte : ∀ a (ha : a < (L ++ List.replicate n 0).length),
      (mount host img 0 bpb hm).file ((mount host img 0 bpb hm).rootStart + a) =
        (L ++ List.replicate n 0)[a] := by
    intro a ha
    change img.data _ = _
    rw [hstart, hdata]
    exact overlay_part (fun _ => 0) 0 hpre ha
  rw [DIR_ENTRY_SIZE] at hle
  by_cases hfirst : i = 0 ∧ hasCustomLabel bpb = true
  · obtain ⟨rfl, hlabel⟩ := hfirst
    rw [if_pos hlabel] at hL
    refine Or.inl ⟨now, rfl, hlabel, DirEntry.ofBytes_held fun k hk => ?_⟩
    rw [hL] at hk
    have hread := hbyte k (by rw [List.length_append]; omega)
    rw [List.getElem_append_left hk] at hread
    simpa only [Nat.mul_zero, Nat.zero_add, hL] using hread
  · have hlenL : L.length ≤ 32 * i := by
      rw [← hL]
      split
      · rename_i hlabel
        have hne : i ≠ 0 := fun h0 => hfirst ⟨h0, hlabel⟩
        rw [DirEntry.bytes_length, DIR_ENTRY_SIZE]
        omega
      · exact Nat.zero_le _
    have hread := hbyte (32 * i) (by omega)
    rw [List.getElem_append_right hlenL, List.getElem_replicate] at hread
    have hzero : ((mount host img 0 bpb hm).rootEntry i).label[0] = 0 := by
      rw [FatDisk.rootEntry, entryAt, DirEntry.ofBytes]
      simpa only [Vector.getElem_ofFn, DIR_ENTRY_SIZE, Nat.add_zero] using hread
    refine Or.inr ?_
    rw [DirEntry.isFree, hzero, beq_self_eq_true, Bool.or_true]

/-- **The disk of a formatted volume meets the invariant.** -/
theorem FreshImage.tidy : (mount host img 0 bpb hm).Tidy := by
  have hlabel : ∀ i, (mount host img 0 bpb hm).Live i → i = 0 ∧ ∃ now,
      (mount host img 0 bpb hm).rootEntry i = volLabel now bpb := by
    rintro i ⟨hi, hfree⟩
    rcases h.rootEntry_cases host hm hi with ⟨now, h0, -, hentry⟩ | hfree'
    · exact ⟨h0, now, hentry⟩
    · rw [hfree'] at hfree
      exact nomatch hfree
  refine ⟨h.sound host hm, ?_, fun i hi => ?_, fun i j hi hj hij => ?_⟩
  · rw [h.getClusterNumberEOC_eq, FatDisk.EndMark]
    change if bpb.isFat12 then _ else _
    split
    · exact ⟨by decide, by decide⟩
    · exact ⟨by decide, by decide⟩
  · obtain ⟨-, now, hentry⟩ := hlabel i hi
    rw [hentry]
    have hattr : (volLabel now bpb).attributes = ATTR_LABEL := rfl
    refine ⟨[], .label ?_ ?_ rfl⟩
    · rw [DirEntry.isLabel, DirEntry.hasAttribute, DirEntry.hasAttribute, hattr]
      decide
    · rw [DirEntry.isDirectory, DirEntry.hasAttribute, hattr]
      decide
  · exact absurd ((hlabel i hi).1.trans (hlabel j hj).1.symm) hij

theorem FreshImage.root_free (hnone : hasCustomLabel bpb = false) {i : Nat}
    (hi : i < (mount host img 0 bpb hm).rootCapacity) :
    ((mount host img 0 bpb hm).rootEntry i).isFree = true := by
  rcases h.rootEntry_cases host hm hi with ⟨-, -, hlabel, -⟩ | hfree
  · rw [hnone] at hlabel
    exact nomatch hlabel
  · exact hfree

end Opened

end Ohwes.Fatfs

import Mathlib.Data.Nat.Prime.Basic
import Ohwes.Fatfs.ClusterBounds
import Ohwes.Fatfs.FreshDisk
import Ohwes.Fatfs.ReadOnly

/-! # Volumes behind a base offset

A volume may start at any 512-byte sector of the image. `CreateNew` and `Open` add that base to the
positions they seek to; the end of the disk that sectors and clusters are checked against is that of
a volume at the start of the image. -/

namespace Ohwes.Fatfs
open Library
set_option autoImplicit false

/-! ## What `CreateNew` leaves -/

/-- A file that `CreateNew` wrote, whose volume ends below 4 GiB. -/
structure Created (junk : Buffer) (now : Tm) (bpb : BiosParamBlock) (sector : BitVec 32)
    (f : HostFile) : Prop where
  file : createNew junk now bpb sector = .ok (.ok f)
  end_lt : sector.toNat * 512 + bpb.getSectorCount * bpb.sectorSize.toNat < 4294967296

namespace Created
variable {junk : Buffer} {now : Tm} {bpb : BiosParamBlock} {sector : BitVec 32} {f : HostFile}
  (h : Created junk now bpb sector f)
include h

theorem formattable : Formattable bpb := createNew_formattable junk now h.file

theorem base_lt : sector.toNat * 512 < 4294967296 :=
  Nat.lt_of_le_of_lt (Nat.le_add_right _ _) h.end_lt

theorem base_eq : u32 (sector.toNat * 512) = sector.toNat * 512 := u32_of_lt h.base_lt

theorem sectorsPerCluster_ne : bpb.sectorsPerCluster ≠ 0 :=
  ((createNew_ok junk now h.formattable sector f).mp h.file).1

theorem reserved_ne : bpb.reservedSectorCount.toNat ≠ 0 :=
  ((createNew_ok junk now h.formattable sector f).mp h.file).2.1.1

theorem volume_pos : 0 < bpb.getSectorCount * bpb.sectorSize.toNat :=
  Nat.mul_pos h.formattable.sectorCount_pos (by have := h.formattable.sectorSize_ge; omega)

theorem contents :
    f.data = overlay (fun _ => 0) (sector.toNat * 512) (areas junk now bpb).flatten ∧
      f.size = sector.toNat * 512 + bpb.getSectorCount * bpb.sectorSize.toNat := by
  have hlen := areas_length junk now h.formattable
  have hne : (areas junk now bpb).flatten ≠ [] := by
    have hpos := h.volume_pos
    rw [← List.length_pos_iff_ne_nil]
    omega
  obtain ⟨-, -, rfl⟩ := (createNew_ok junk now h.formattable sector f).mp h.file
  rw [h.base_eq, startWriter_file, HostFile.write, if_neg hne, hlen]
  exact ⟨rfl, Nat.max_eq_right (Nat.zero_le _)⟩

theorem block : BiosParamBlock.ofBytes f.data (sector.toNat * 512 + 11) = bpb := by
  obtain ⟨pre, hlen, hpre⟩ := areas_boot junk now h.reserved_ne
  refine BiosParamBlock.ofBytes_held fun i hi => ?_
  have hpart := overlay_part (fun _ => 0) (sector.toNat * 512) hpre hi
  rwa [hlen, ← h.contents.1] at hpart

theorem firstFat (htables : bpb.tableCount ≠ 0) {i : Nat} (hi : i < bpb.fatBytes) :
    f.data (sector.toNat * 512 + bpb.reservedSectorCount.toNat * bpb.sectorSize.toNat + i) =
      freshFat junk bpb i := by
  have hcount : bpb.tableCount.toNat ≠ 0 := fun h0 => htables (BitVec.eq_of_toNat_eq h0)
  obtain ⟨pre, hlen, hpre⟩ := areas_fat junk now h.formattable hcount
  have hin : i < (slice (freshFat junk bpb) 0 bpb.fatBytes).length := by
    rwa [slice_length]
  have hpart := overlay_part (fun _ => 0) (sector.toNat * 512) hpre hin
  have hget := slice_getElem? (freshFat junk bpb) 0 bpb.fatBytes i
  rw [if_pos hi, Nat.zero_add, List.getElem?_eq_getElem hin] at hget
  rw [hlen, ← h.contents.1] at hpart
  rw [hpart, Option.some.inj hget]

/-- The areas before the clusters. -/
theorem areas_fit : bpb.fsDataSectors ≤ bpb.getSectorCount := by
  have hroom := h.formattable.room
  rw [(fsDataSectors_sum bpb).1]
  exact hroom

/-- `Open` wants a root directory and a FAT, which `CreateNew` does not ask for. -/
theorem mountable_iff : Mountable bpb ↔ bpb.rootDirCapacity ≠ 0 ∧ bpb.tableCount ≠ 0 := by
  have hc := h.formattable.checked
  simp only [checkNewBpb, require_bind_ok] at hc
  obtain ⟨-, -, htable, hsize, hpow, -⟩ := hc
  refine ⟨fun hm => ⟨hm.rootDirCapacity_pos, hm.tableCount_pos⟩, ?_⟩
  rintro ⟨hroot, htables⟩
  refine ⟨hpow, h.formattable.sectorSize_ge, ?_, h.formattable.sectorCount_pos.ne', ?_, hroot, ?_,
    htables, h.sectorsPerCluster_ne⟩
  · have hge := h.formattable.sectorSize_ge
    obtain ⟨k, -, hk⟩ := (Nat.dvd_prime_pow Nat.prime_two).mp
      (show bpb.sectorSize.toNat ∣ 2 ^ 32 from FatDisk.isPow2_dvd hpow (by omega))
    have hlt : 2 ^ k < 2 ^ 16 := hk ▸ bpb.sectorSize.isLt
    have hk16 : k < 16 := (Nat.pow_lt_pow_iff_right (by omega)).mp hlt
    rw [hk]
    exact Nat.pow_le_pow_right (by omega) (show k ≤ 15 by omega)
  · rintro h0
    exact h.reserved_ne (congrArg BitVec.toNat h0)
  · simpa using htable

/-- When `Open` constructs a disk, and which. -/
theorem openDisk_iff (host : Host) (d : FatDisk) :
    openDisk host ⟨f.data, f.size⟩ sector = .ok (some d) ↔
      4096 ≤ f.size + sector.toNat * 512 ∧
      bpb.fsDataSectors * bpb.sectorSize.toNat < f.size ∧
      ∃ hm : Mountable bpb, d = mount host ⟨f.data, f.size⟩ (sector.toNat * 512) bpb hm := by
  have hareas : u32 (bpb.sectorSize.toNat * bpb.fsDataSectors) =
      bpb.fsDataSectors * bpb.sectorSize.toNat := by
    rw [Nat.mul_comm]
    apply u32_of_lt
    exact Nat.lt_of_le_of_lt (Nat.mul_le_mul_right _ h.areas_fit) h.formattable.size_lt
  have hblock := h.block
  rw [openDisk, h.base_eq]
  generalize BiosParamBlock.ofBytes f.data (sector.toNat * 512 + 11) = b at hblock
  subst hblock
  simp only [hareas]
  by_cases hsmall : f.size + sector.toNat * 512 < 4096
  · rw [if_pos hsmall]
    exact iff_of_false (fun hn => by cases hn) fun hn => absurd hn.1 (Nat.not_le.mpr hsmall)
  rw [if_neg hsmall]
  by_cases hfull : b.fsDataSectors * b.sectorSize.toNat ≥ f.size
  · rw [if_pos hfull]
    exact iff_of_false (fun hn => by cases hn) fun hn => absurd hn.2.1 (Nat.not_lt.mpr hfull)
  rw [if_neg hfull]
  by_cases hm : Mountable b
  · rw [dif_pos hm]
    refine ⟨fun hd => ⟨Nat.not_lt.mp hsmall, Nat.not_le.mp hfull, hm, ?_⟩, ?_⟩
    · exact (Option.some.inj (Except.ok.inj hd)).symm
    · rintro ⟨-, -, -, rfl⟩
      rfl
  · rw [dif_neg hm]
    refine iff_of_false (fun hd => ?_) fun hn => absurd hn.2.2.1 hm
    split at hd
    · cases hd
    · cases hd

end Created

/-! ## The volume behind its base -/

/-- The disk has the FAT of the volume, and reads and writes each of its sectors and clusters where
they are in the image. -/
structure Works (d : FatDisk) (bpb : BiosParamBlock) (fat : Buffer) (base : Nat) : Prop where
  block : d.bpb = bpb
  fat : ∀ i < bpb.fatBytes, d.fat i = fat i
  readSector : ∀ index < bpb.getSectorCount,
    d.readSector index =
      some (slice d.file (base + index * bpb.sectorSize.toNat) bpb.sectorSize.toNat)
  writeSector : ∀ index < bpb.getSectorCount, ∀ bs,
    d.writeSector index bs = some (d.put (base + index * bpb.sectorSize.toNat) bs)
  readCluster : ∀ index, d.HasCluster index →
    d.readCluster index =
      .ok (some (slice d.file (base + d.dataPosition index) bpb.getClusterSize))
  writeCluster : ∀ index, d.HasCluster index → ∀ bs,
    d.writeCluster index bs = .ok (some (d.put (base + d.dataPosition index) bs))

/-- `Open` with the base that `CreateNew` had makes a disk that works. -/
def VolumeWorks (host : Host) (junk : Buffer) (bpb : BiosParamBlock) (sector : BitVec 32)
    (f : HostFile) : Prop :=
  ∃ d, openDisk host ⟨f.data, f.size⟩ sector = .ok (some d) ∧
    Works d bpb (freshFat junk bpb) (sector.toNat * 512)

section Base
variable {junk : Buffer} {now : Tm} {bpb : BiosParamBlock} {sector : BitVec 32} {f : HostFile}
  (h : Created junk now bpb sector f)
include h

/-- Behind a base, the last sector ends behind the end of the disk. -/
theorem Created.not_works (host : Host) (hbase : sector ≠ 0) : ¬ VolumeWorks host junk bpb sector f := by
  rintro ⟨d, hopen, hworks⟩
  obtain ⟨-, -, hm, hd⟩ := (h.openDisk_iff host d).mp hopen
  have hend := h.end_lt
  have hpos : 0 < sector.toNat * 512 :=
    Nat.mul_pos (Nat.pos_of_ne_zero fun h0 => hbase (BitVec.eq_of_toNat_eq h0)) (by decide)
  have hdbase : d.base = sector.toNat * 512 := by
    rw [hd]
    rfl
  generalize sector.toNat * 512 = base at hend hpos hdbase
  have hcount := h.formattable.sectorCount_pos
  obtain ⟨n, hn⟩ : ∃ n, bpb.getSectorCount = n + 1 := ⟨bpb.getSectorCount - 1, by omega⟩
  have hlast := hworks.readSector n (by omega)
  have hinside : d.sectorInside n = true := by
    by_contra hout
    rw [FatDisk.readSector, if_neg hout] at hlast
    cases hlast
  rw [hn, Nat.add_mul, Nat.one_mul] at hend
  rw [FatDisk.sectorInside, FatDisk.sectorAddr, decide_eq_true_iff, BiosParamBlock.getDiskSize,
    hworks.block, hdbase, hn, Nat.add_mul, Nat.one_mul] at hinside
  rw [u32_of_lt (n := n * _) (by omega), u32_of_lt (n := base + _) (by omega), u32_of_lt (by omega),
    u32_of_lt (by omega)] at hinside
  omega

/-- At the start of the image everything is in reach. -/
theorem Created.works (host : Host) (hm : Mountable bpb) (hbase : sector = 0) :
    Works (mount host ⟨f.data, f.size⟩ (sector.toNat * 512) bpb hm) bpb (freshFat junk bpb)
      (sector.toNat * 512) := by
  have hsize := h.formattable.size_lt
  have hzero : sector.toNat * 512 = 0 := by
    rw [hbase]
    rfl
  generalize hd : mount host ⟨f.data, f.size⟩ (sector.toNat * 512) bpb hm = d
  have hbpb : d.bpb = bpb := by
    rw [← hd]
    rfl
  have hdbase : d.base = 0 := by
    rw [← hd]
    exact hzero
  have hdisk : d.bpb.getDiskSize = bpb.getSectorCount * bpb.sectorSize.toNat := by
    rw [hbpb, BiosParamBlock.getDiskSize, u32_of_lt hsize]
  have hsector : ∀ index < bpb.getSectorCount,
      d.sectorAddr index = index * bpb.sectorSize.toNat ∧ d.sectorInside index = true := by
    intro index hindex
    have hmul := Nat.mul_le_mul_right bpb.sectorSize.toNat hindex
    rw [Nat.succ_mul] at hmul
    have haddr : d.sectorAddr index = index * bpb.sectorSize.toNat := by
      rw [FatDisk.sectorAddr, hdbase, hbpb, Nat.zero_add, u32_of_lt (n := index * _) (by omega),
        u32_of_lt (by omega)]
    refine ⟨haddr, ?_⟩
    rw [FatDisk.sectorInside, haddr, hdisk, hbpb, decide_eq_true_iff, u32_of_lt (by omega)]
    exact hmul
  have hcluster : ∀ index, d.HasCluster index →
      d.clusterAddr index = d.dataPosition index ∧ d.clusterInside index = .ok true := by
    intro index hc
    have hfit := (FatDisk.data_fits_iff hc).mpr (hbpb ▸ h.areas_fit)
    have hcount : d.bpb.getClusterCount ≤ d.bpb.getSectorCount := by
      rw [BiosParamBlock.getClusterCount, u32Sub_of_le (getSectorCount_lt d.bpb) (hbpb ▸ h.areas_fit)]
      exact (Nat.div_le_self _ _).trans (Nat.sub_le _ _)
    have hsectors : d.bpb.getSectorCount < 8388608 := hbpb ▸ h.formattable.sectorCount_lt
    have hlt : index < 4294967296 := by
      have := hc.2
      omega
    have hpos := d.clusterSize_pos
    rw [hbpb] at hfit hpos
    have haddr : d.clusterAddr index = d.dataPosition index := by
      rw [FatDisk.clusterAddr_mod hc.1 hlt, hdbase, Nat.zero_add, u32_of_lt (by omega)]
    refine ⟨haddr, ?_⟩
    have hle : ¬ u32Sub index CLUSTER_FIRST > d.bpb.getClusterCount := by
      rw [FatDisk.u32Sub_two hc.1 hlt]
      have := hc.2
      omega
    rw [FatDisk.clusterInside_eq, if_neg hle, haddr, hdisk, hbpb, u32_of_lt (by omega), if_pos hfit]
  refine ⟨hbpb, fun i hi => ?_, fun index hindex => ?_, fun index hindex bs => ?_,
    fun index hc => ?_, fun index hc bs => ?_⟩
  · rw [← hd]
    simp only [mount, hi, if_true]
    exact h.firstFat hm.tableCount_pos hi
  · obtain ⟨haddr, hinside⟩ := hsector index hindex
    rw [FatDisk.readSector, if_pos hinside, haddr, hbpb, hzero, Nat.zero_add]
  · obtain ⟨haddr, hinside⟩ := hsector index hindex
    rw [FatDisk.writeSector, if_pos hinside, haddr, hzero, Nat.zero_add]
    rfl
  · obtain ⟨haddr, hinside⟩ := hcluster index hc
    rw [FatDisk.readCluster, hinside, haddr, hbpb, hzero, Nat.zero_add]
    rfl
  · obtain ⟨haddr, hinside⟩ := hcluster index hc
    rw [FatDisk.writeCluster, hinside, haddr, hzero, Nat.zero_add]
    rfl

end Base

/-- **Base offset.** A volume that `CreateNew` wrote works where `Open` finds it exactly if it starts
at the start of the image, and has what `Open` asks for: a root directory, a FAT, 4096 bytes, and a
sector behind the root directory. -/
theorem volume_works_iff (host : Host) (junk : Buffer) (now : Tm) (bpb : BiosParamBlock)
    (sector : BitVec 32) (f : HostFile) (h : Created junk now bpb sector f) :
    VolumeWorks host junk bpb sector f ↔
      sector = 0 ∧ bpb.rootDirCapacity ≠ 0 ∧ bpb.tableCount ≠ 0 ∧
        4096 ≤ bpb.getSectorCount * bpb.sectorSize.toNat ∧ bpb.fsDataSectors < bpb.getSectorCount := by
  have hpos : 0 < bpb.sectorSize.toNat := by
    have := h.formattable.sectorSize_ge
    omega
  have hsize : sector = 0 → f.size = bpb.getSectorCount * bpb.sectorSize.toNat ∧
      f.size + sector.toNat * 512 = f.size := by
    rintro rfl
    refine ⟨?_, rfl⟩
    rw [h.contents.2, show (0 : BitVec 32).toNat * 512 = 0 from rfl, Nat.zero_add]
  constructor
  · intro hv
    have hbase : sector = 0 := by
      by_contra hne
      exact h.not_works host hne hv
    obtain ⟨d, hopen, -⟩ := hv
    obtain ⟨hfour, hareas, hm, -⟩ := (h.openDisk_iff host d).mp hopen
    obtain ⟨hroot, htables⟩ := h.mountable_iff.mp hm
    rw [(hsize hbase).2, (hsize hbase).1] at hfour
    rw [(hsize hbase).1] at hareas
    exact ⟨hbase, hroot, htables, hfour, Nat.lt_of_mul_lt_mul_right hareas⟩
  · rintro ⟨hbase, hroot, htables, hfour, hareas⟩
    have hm := h.mountable_iff.mpr ⟨hroot, htables⟩
    refine ⟨_, (h.openDisk_iff host _).mpr ⟨?_, ?_, hm, rfl⟩, h.works host hm hbase⟩
    · rwa [(hsize hbase).2, (hsize hbase).1]
    · rw [(hsize hbase).1]
      exact Nat.mul_lt_mul_of_pos_right hareas hpos

theorem diskette_created (junk : Buffer) (now : Tm) (sector : BitVec 32)
    (hend : sector.toNat * 512 + 1474560 < 4294967296) : ∃ f, Created junk now diskette sector f := by
  have hbase : u32 (sector.toNat * 512) % diskette.sectorSize.toNat = 0 := by
    rw [u32_of_lt (Nat.lt_of_le_of_lt (Nat.le_add_right _ _) hend)]
    exact Nat.mul_mod_left _ 512
  exact ⟨_, (createNew_ok junk now diskette_formattable sector _).mpr
    ⟨by decide, ⟨by decide, hbase, by decide⟩, rfl⟩, hend⟩

theorem volume_works_diskette :
    ∃ f, VolumeWorks plainHost (fun _ => 0) diskette 0 f := by
  obtain ⟨f, hf⟩ := diskette_created (fun _ => 0) ⟨123, 5, 17, 12, 30, 0⟩ 0 (by decide)
  exact ⟨f, (volume_works_iff plainHost (fun _ => 0) ⟨123, 5, 17, 12, 30, 0⟩ diskette 0 f hf).mpr
    (by decide)⟩

/-- The diskette behind a track of 63 sectors. -/
theorem diskette_behind_track :
    ∃ f, Created (fun _ => 0) ⟨123, 5, 17, 12, 30, 0⟩ diskette 63 f ∧
      ¬ VolumeWorks plainHost (fun _ => 0) diskette 63 f := by
  obtain ⟨f, hf⟩ := diskette_created (fun _ => 0) ⟨123, 5, 17, 12, 30, 0⟩ 63 (by decide)
  exact ⟨f, hf, hf.not_works plainHost (by decide)⟩

end Ohwes.Fatfs

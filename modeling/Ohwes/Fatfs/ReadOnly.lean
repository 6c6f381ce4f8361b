import Ohwes.Fatfs.Mount
import Ohwes.Library.Runs

/-! # Sessions that only read

A session opens a disk, reads from it and closes it. Nothing it reads changes the disk, so whether the
image stays as it is depends on the destructor alone: `WriteFAT` lays the first copy of the FAT over
every copy if the disk counts as dirty. A FAT16 disk does so when the bit in its FAT says that it was
not dismounted, and a FAT12 disk when the memory of the constructor's unset flag happens to be set
(`session_unchanged_iff`). -/

namespace Ohwes.Fatfs
open Library
set_option autoImplicit false

inductive ReadOp where
  | findFile (path : CString)
  | readFile (e : DirEntry)
  | countClusters (e : DirEntry)
  | countFreeClusters

/-- One call. The methods are `const`; what they return is left aside. -/
def readStep (host : Host) (d : FatDisk) : ReadOp → Call FatDisk
  | .findFile path => (d.findFile host path).map fun _ => d
  | .readFile e => (d.readFile WALK_LIMIT e).map fun _ => d
  | .countClusters e => (d.countClusters WALK_LIMIT e).map fun _ => d
  | .countFreeClusters => (.ok d.countFreeClusters : Call Nat).map fun _ => d

/-- A FAT12 or FAT16 volume, by its number of clusters, with 32-bit addresses. -/
structure ValidVolume (bpb : BiosParamBlock) : Prop where
  size_lt : bpb.getSectorCount * bpb.sectorSize.toNat < 4294967296
  limit : bpb.getClusterCount ≤ MAX_CLUSTERS_16

/-- The image file after the session, if it opens a disk. -/
def session (host : Host) (img : Image) (sector : BitVec 32) (ops : List ReadOp) :
    Call (Option (Nat → Byte)) := do
  match ← openDisk host img sector with
  | none => return none
  | some d =>
    let d ← run (readStep host) d ops
    return some d.close.file

namespace FatDisk
variable (d : FatDisk)

/-! ## The sectors of `WriteFAT` -/

/-- The index of a sector of the FATs, counted through all copies. -/
def fatSector (k : Nat) : Nat := d.bpb.reservedSectorCount.toNat + k

def fatSectorCount : Nat := d.bpb.tableCount.toNat * d.bpb.sectorsPerTable.toNat

/-- The bytes for it. -/
def fatSectorBytes (k : Nat) : List Byte :=
  slice d.fat (k % d.bpb.sectorsPerTable.toNat * d.bpb.sectorSize.toNat) d.bpb.sectorSize.toNat

/-- Whether the bounds check lets it through. -/
def fatFits (k : Nat) : Bool := d.sectorInside (d.fatSector k)

/-- Where it goes in the image, with its bytes. -/
def fatWrite (k : Nat) : Nat × List Byte := (d.sectorAddr (d.fatSector k), d.fatSectorBytes k)

/-- A pass of the inner loop. -/
def fatPass (r : Bool × FatDisk) (k : Nat) : Bool × FatDisk :=
  if r.1 then
    match r.2.writeSector (d.fatSector k) (d.fatSectorBytes k) with
    | some d' => (true, d')
    | none => (false, r.2)
  else r

theorem fatPass_false (d' : FatDisk) (ks : List Nat) :
    ks.foldl d.fatPass (false, d') = (false, d') := by
  induction ks with
  | nil => rfl
  | cons k ks ih => exact ih

/-- The inner loop, for the copy of number `n`. -/
theorem writeSectors_passes {d' : FatDisk} (hbpb : d'.bpb = d.bpb) (n : Nat) :
    d'.writeSectors (d.bpb.reservedSectorCount.toNat + n * d.bpb.sectorsPerTable.toNat)
        d.bpb.sectorsPerTable.toNat d.fat =
      ((List.range d.bpb.sectorsPerTable.toNat).map
        (n * d.bpb.sectorsPerTable.toNat + ·)).foldl d.fatPass (true, d') := by
  rw [writeSectors, List.foldl_map, hbpb]
  refine List.foldl_ext _ _ _ fun r i hi => ?_
  have hmod : (n * d.bpb.sectorsPerTable.toNat + i) % d.bpb.sectorsPerTable.toNat = i := by
    rw [Nat.mul_add_mod', Nat.mod_eq_of_lt (List.mem_range.mp hi)]
  rewrite [fatPass, fatSector, fatSectorBytes, hmod, ← Nat.add_assoc]
  rfl

/-- What the passes leave: the sectors up to the first one that the bounds check refuses. -/
theorem passes_eq {d' : FatDisk} (hbpb : d'.bpb = d.bpb) (hbase : d'.base = d.base)
    (ks : List Nat) :
    ks.foldl d.fatPass (true, d') =
      (ks.all d.fatFits,
        { d' with file := overlayAll d'.file ((ks.takeWhile d.fatFits).map d.fatWrite) }) := by
  induction ks generalizing d' with
  | nil => rfl
  | cons k ks ih =>
    have hinside : d'.sectorInside (d.fatSector k) = d.fatFits k := by
      rw [fatFits, sectorInside, sectorInside, sectorAddr, sectorAddr, hbpb, hbase]
    have haddr : d'.sectorAddr (d.fatSector k) = d.sectorAddr (d.fatSector k) := by
      rw [sectorAddr, sectorAddr, hbpb, hbase]
    rw [List.foldl_cons, fatPass, if_pos rfl]
    dsimp only
    rw [writeSector, hinside, haddr, List.all_cons]
    cases hk : d.fatFits k with
    | false =>
      rw [List.takeWhile_cons_of_neg (by simp [hk])]
      exact d.fatPass_false d' ks
    | true =>
      rw [List.takeWhile_cons_of_pos hk]
      exact ih hbpb hbase

/-- The two loops go through the sectors of all copies in order. -/
theorem writeFat_passes : d.writeFat = (List.range d.fatSectorCount).foldl d.fatPass (true, d) := by
  have hall : ∀ n, (List.range n).foldl (fun (r : Bool × FatDisk) n =>
      if r.1 then
        r.2.writeSectors (d.bpb.reservedSectorCount.toNat + n * d.bpb.sectorsPerTable.toNat)
          d.bpb.sectorsPerTable.toNat d.fat
      else r) (true, d) =
      (List.range (n * d.bpb.sectorsPerTable.toNat)).foldl d.fatPass (true, d) := by
    intro n
    induction n with
    | zero => simp
    | succ n ih =>
      rw [List.range_succ, List.foldl_append, ih, Nat.succ_mul, List.range_add, List.foldl_append,
        d.passes_eq rfl rfl]
      simp only [List.foldl_cons, List.foldl_nil]
      cases (List.range (n * d.bpb.sectorsPerTable.toNat)).all d.fatFits with
      | false => rw [fatPass_false]; rfl
      | true => exact d.writeSectors_passes (by rfl) n
  exact hall d.bpb.tableCount.toNat

/-- The stretches of the image that `WriteFAT` writes, with the bytes for them. -/
def fatWrites : List (Nat × List Byte) :=
  ((List.range d.fatSectorCount).takeWhile d.fatFits).map d.fatWrite

theorem writeFat_file : d.writeFat.2.file = overlayAll d.file d.fatWrites := by
  rw [writeFat_passes, d.passes_eq rfl rfl]
  rfl

theorem mem_takeWhile_range {p : Nat → Bool} {n k : Nat} :
    k ∈ (List.range n).takeWhile p ↔ k < n ∧ ∀ j ≤ k, p j = true := by
  induction n with
  | zero => simp
  | succ n ih =>
    rw [List.range_succ, List.takeWhile_append]
    by_cases hall : (List.range n).takeWhile p = List.range n
    · have hp : ∀ j < n, p j = true := fun j hj =>
        List.mem_takeWhile_imp (hall.symm ▸ List.mem_range.mpr hj)
      rw [if_pos (congrArg List.length hall), List.mem_append, List.mem_range]
      constructor
      · rintro (hk | hk)
        · exact ⟨by omega, fun j hj => hp j (by omega)⟩
        · have hpn := List.mem_takeWhile_imp hk
          obtain rfl := List.mem_singleton.mp (List.takeWhile_subset _ hk)
          refine ⟨by omega, fun j hj => ?_⟩
          obtain rfl | hj := Nat.eq_or_lt_of_le hj
          · exact hpn
          · exact hp j hj
      · rintro ⟨hk, hpk⟩
        obtain hk | rfl := Nat.lt_succ_iff_lt_or_eq.mp hk
        · exact Or.inl hk
        · exact Or.inr (by rw [List.takeWhile_cons_of_pos (hpk k (le_refl k))]; simp)
    · have hlen : ((List.range n).takeWhile p).length ≠ (List.range n).length := fun h =>
        hall ((List.takeWhile_prefix p).eq_of_length h)
      rw [if_neg hlen, ih]
      refine ⟨fun h => ⟨by omega, h.2⟩, fun h => ⟨?_, h.2⟩⟩
      by_contra hk
      refine hall (List.takeWhile_eq_self_iff.mpr fun j hj => h.2 j ?_)
      have := List.mem_range.mp hj
      omega

theorem mem_fatWrites {w : Nat × List Byte} : w ∈ d.fatWrites ↔ ∃ k < d.fatSectorCount,
    (∀ j ≤ k, d.fatFits j = true) ∧ d.fatWrite k = w := by
  simp only [fatWrites, List.mem_map, mem_takeWhile_range, and_assoc]

/-! ## The stretches are apart -/

/-- A power of two that fits a word of 16 bits divides the range of one of 32. -/
theorem isPow2_dvd {x : BitVec 16} (h : isPow2 x = true) (h0 : x.toNat ≠ 0) :
    x.toNat ∣ 4294967296 := by
  have hand : x.toNat &&& (x.toNat - 1) = 0 := by
    have hx := x.isLt
    have hsub : (x - 1).toNat = x.toNat - 1 := by
      rw [BitVec.toNat_sub_of_le (BitVec.le_def.mpr (by simp; omega))]
      rfl
    rw [isPow2, beq_iff_eq] at h
    rw [← hsub, ← BitVec.toNat_and, h]
    rfl
  obtain ⟨k, hk⟩ := (Nat.and_sub_one_eq_zero_iff_isPowerOfTwo h0).mp hand
  have hlt : 2 ^ k < 2 ^ 16 := hk ▸ x.isLt
  have hk16 : k < 16 := (Nat.pow_lt_pow_iff_right (by omega)).mp hlt
  rw [hk, show (4294967296 : Nat) = 2 ^ 32 from rfl]
  exact Nat.pow_dvd_pow 2 (by omega)

/-- Two addresses on one grid are the same or a step apart. -/
theorem grid_apart {a b s : Nat} (h : a % s = b % s) (hne : a ≠ b) : a + s ≤ b ∨ b + s ≤ a := by
  have ha := Nat.div_add_mod a s
  have hb := Nat.div_add_mod b s
  obtain hlt | heq | hlt := Nat.lt_trichotomy (a / s) (b / s)
  · have hmul := Nat.mul_le_mul_left s hlt
    rw [Nat.mul_succ] at hmul
    omega
  · rw [heq, h] at ha
    omega
  · have hmul := Nat.mul_le_mul_left s hlt
    rw [Nat.mul_succ] at hmul
    omega

variable {d}

theorem fatSectors_lt (hv : ValidVolume d.bpb) :
    (d.bpb.reservedSectorCount.toNat + d.fatSectorCount) * d.bpb.sectorSize.toNat < 4294967296 := by
  have hsum := (fsDataSectors_sum d.bpb).1
  have hfit := sectors_fit d.bpb d.mountable.sectorsPerCluster_pos (getSectorCount_lt d.bpb) hv.limit
  refine lt_of_le_of_lt (Nat.mul_le_mul_right _ ?_) hv.size_lt
  rw [fatSectorCount, Nat.mul_comm]
  omega

/-- Two sectors of the FATs have different addresses, on the grid of the sectors. -/
theorem sectorAddr_apart (hv : ValidVolume d.bpb) {j k : Nat} (hj : j < d.fatSectorCount)
    (hk : k < d.fatSectorCount) (hne : j ≠ k) :
    d.sectorAddr (d.fatSector j) + d.bpb.sectorSize.toNat ≤ d.sectorAddr (d.fatSector k) ∨
      d.sectorAddr (d.fatSector k) + d.bpb.sectorSize.toNat ≤ d.sectorAddr (d.fatSector j) := by
  have hsize := d.sectorSize_ge
  have hlt := fatSectors_lt hv
  have hdvd := isPow2_dvd d.mountable.sectorSize_pow2 (by omega)
  have haddr : ∀ i < d.fatSectorCount, d.fatSector i * d.bpb.sectorSize.toNat < 4294967296 ∧
      d.sectorAddr (d.fatSector i) = (d.base + d.fatSector i * d.bpb.sectorSize.toNat) % 4294967296 := by
    intro i hi
    have hmul : d.fatSector i * d.bpb.sectorSize.toNat < 4294967296 :=
      lt_of_le_of_lt (Nat.mul_le_mul_right _ (by rw [fatSector]; omega)) hlt
    exact ⟨hmul, by rw [sectorAddr, u32_of_lt (n := d.fatSector i * _) hmul, u32]⟩
  obtain ⟨hjlt, hj⟩ := haddr j hj
  obtain ⟨hklt, hk⟩ := haddr k hk
  refine grid_apart ?_ ?_
  · rw [hj, hk, Nat.mod_mod_of_dvd _ hdvd, Nat.mod_mod_of_dvd _ hdvd, Nat.add_mul_mod_self_right,
      Nat.add_mul_mod_self_right]
  · rw [hj, hk]
    intro heq
    have hmod : d.fatSector j * d.bpb.sectorSize.toNat = d.fatSector k * d.bpb.sectorSize.toNat := by
      generalize d.fatSector j * d.bpb.sectorSize.toNat = x at hjlt heq ⊢
      generalize d.fatSector k * d.bpb.sectorSize.toNat = y at hklt heq ⊢
      omega
    have hsector := Nat.eq_of_mul_eq_mul_right (by omega) hmod
    rw [fatSector, fatSector] at hsector
    omega

theorem fatWrites_apart (hv : ValidVolume d.bpb) : d.fatWrites.Pairwise StretchesApart := by
  rw [fatWrites, List.pairwise_map]
  have hne : ((List.range d.fatSectorCount).takeWhile d.fatFits).Pairwise (· ≠ ·) :=
    (List.nodup_range).sublist (List.takeWhile_sublist _)
  refine hne.imp_of_mem fun {j k} hj hk hjk => ?_
  rw [StretchesApart, fatWrite, fatWrite, fatSectorBytes, fatSectorBytes, slice_length, slice_length]
  exact sectorAddr_apart hv (mem_takeWhile_range.mp hj).1 (mem_takeWhile_range.mp hk).1 hjk

end FatDisk

/-! ## Sessions -/

variable {host : Host} {img : Image} {sector : BitVec 32} {d d' : FatDisk} {ops : List ReadOp}

theorem readStep_eq {op : ReadOp} (h : readStep host d op = .ok d') : d' = d := by
  have hmap : ∀ {α : Type} {x : Call α}, x.map (fun _ => d) = .ok d' → d' = d := by
    intro α x hx
    cases x with
    | error e => cases hx
    | ok a => exact (Except.ok.inj hx).symm
  cases op with
  | findFile path => exact hmap h
  | readFile e => exact hmap h
  | countClusters e => exact hmap h
  | countFreeClusters => exact (Except.ok.inj h).symm

theorem reads_eq (h : run (readStep host) d ops = .ok d') : d' = d := by
  induction ops generalizing d with
  | nil => exact (Except.ok.inj h).symm
  | cons op ops ih =>
    obtain ⟨m, hm, hr⟩ := (run_cons_ok (readStep host)).mp h
    rw [ih hr, readStep_eq hm]

/-- What `Open` constructs the disk from. -/
theorem openDisk_mount (h : openDisk host img sector = .ok (some d)) :
    d = mount host img d.base d.bpb d.mountable := by
  rw [openDisk] at h
  split_ifs at h
  all_goals cases h
  rfl

theorem session_file {file : Nat → Byte} (hopen : openDisk host img sector = .ok (some d))
    (h : session host img sector ops = .ok (some file)) : file = d.close.file := by
  rw [session, hopen, ok_bind] at h
  obtain ⟨d', hrun, hfile⟩ := bind_ok.mp h
  rw [reads_eq hrun] at hfile
  exact (Option.some.inj (Except.ok.inj hfile)).symm

/-- The bit of the second FAT entry is clear, or the flag has no bit to be set from and was set. -/
def OpensDirty (host : Host) (img : Image) (d : FatDisk) : Prop :=
  if d.bpb.isFat16 then (img.data (d.base + d.fatStart + 3)).getLsbD 7 = false
  else host.dirtyJunk = true

/-- Every sector of the FATs, as far as the tool can write them, is the one of the first copy. -/
def CopiesAgree (img : Image) (d : FatDisk) : Prop :=
  ∀ k < d.fatSectorCount, (∀ j ≤ k, d.fatFits j = true) →
    slice img.data (d.sectorAddr (d.fatSector k)) d.bpb.sectorSize.toNat =
      slice img.data (d.base + d.fatStart + k % d.bpb.sectorsPerTable.toNat * d.bpb.sectorSize.toNat)
        d.bpb.sectorSize.toNat

theorem mount_fat (h : d = mount host img d.base d.bpb d.mountable) {i : Nat}
    (hi : i < d.bpb.fatBytes) : d.fat i = img.data (d.base + d.fatStart + i) := by
  rw [h]
  exact if_pos hi

theorem mount_dirty (h : d = mount host img d.base d.bpb d.mountable) :
    d.dirty = true ↔ OpensDirty host img d := by
  have hfat := mount_fat h (i := 3) (by have := d.fatBytes_ge; omega)
  have hdirty : d.dirty = if d.bpb.isFat16 then !(getCluster16 d.fat 1).testBit 15
      else host.dirtyJunk := by
    rw [h]
    rfl
  rw [hdirty, OpensDirty]
  split
  · have hbit : (getCluster16 d.fat 1).testBit 15 = (d.fat 3).getLsbD 7 := by
      rw [getCluster16, show u32 (1 * 2) = 2 from rfl, getPair, BitVec.testBit_toNat,
        BitVec.getLsbD_append]
      rfl
    rw [Bool.not_eq_true', hbit, hfat]
  · rfl

theorem mount_sectorBytes (h : d = mount host img d.base d.bpb d.mountable) (k : Nat) :
    d.fatSectorBytes k = slice img.data
      (d.base + d.fatStart + k % d.bpb.sectorsPerTable.toNat * d.bpb.sectorSize.toNat)
      d.bpb.sectorSize.toNat := by
  have hpos : 0 < d.bpb.sectorsPerTable.toNat := by
    refine Nat.pos_of_ne_zero fun h0 => d.mountable.sectorsPerTable_pos (BitVec.eq_of_toNat_eq ?_)
    rw [h0]
    rfl
  have hmul := Nat.mul_le_mul_right d.bpb.sectorSize.toNat (Nat.mod_lt k hpos)
  rw [Nat.succ_mul] at hmul
  refine List.map_congr_left fun i hi => ?_
  have := List.mem_range.mp hi
  rw [mount_fat h (by rw [BiosParamBlock.fatBytes]; omega), ← Nat.add_assoc]

/-- `WriteFAT` writes what is there where the copies agree. -/
theorem writeFat_of_agree (hm : d = mount host img d.base d.bpb d.mountable)
    (h : CopiesAgree img d) : d.writeFat.2.file = img.data := by
  have hfile : d.file = img.data := by rw [hm]; rfl
  rw [d.writeFat_file, hfile]
  refine overlayAll_eq_self fun w hw => ?_
  obtain ⟨k, hk, hfits, rfl⟩ := d.mem_fatWrites.mp hw
  rw [FatDisk.fatWrite, mount_sectorBytes hm, slice_length]
  exact h k hk hfits

theorem writeFat_unchanged_iff (hm : d = mount host img d.base d.bpb d.mountable)
    (hv : ValidVolume d.bpb) : d.writeFat.2.file = img.data ↔ CopiesAgree img d := by
  refine ⟨fun hsame k hk hfits => ?_, writeFat_of_agree hm⟩
  have hfile : d.file = img.data := by rw [hm]; rfl
  rw [d.writeFat_file, hfile, overlayAll_eq_self_iff (FatDisk.fatWrites_apart hv)] at hsame
  have hw := hsame (d.fatWrite k) (d.mem_fatWrites.mpr ⟨k, hk, hfits, rfl⟩)
  rwa [FatDisk.fatWrite, mount_sectorBytes hm, slice_length] at hw

/-- The disk does not count as dirty, or the copies of its FAT are the same. -/
def ClosesAlike (host : Host) (img : Image) (d : FatDisk) : Prop :=
  ¬ OpensDirty host img d ∨ CopiesAgree img d

theorem close_of_alike (hm : d = mount host img d.base d.bpb d.mountable)
    (h : ClosesAlike host img d) : d.close.file = img.data := by
  by_cases hd : d.dirty = true
  · rw [FatDisk.close, if_pos hd]
    exact writeFat_of_agree hm (h.resolve_left fun hclean => hclean ((mount_dirty hm).mp hd))
  · rw [FatDisk.close, if_neg hd, hm]
    rfl

/-- Closing a disk that was only read from. -/
theorem close_unchanged_iff (hm : d = mount host img d.base d.bpb d.mountable)
    (hv : ValidVolume d.bpb) : d.close.file = img.data ↔ ClosesAlike host img d := by
  refine ⟨fun hsame => ?_, close_of_alike hm⟩
  by_cases hd : d.dirty = true
  · rw [FatDisk.close, if_pos hd] at hsame
    exact .inr ((writeFat_unchanged_iff hm hv).mp hsame)
  · exact .inl fun hdirty => hd ((mount_dirty hm).mpr hdirty)

/-- A session that reads leaves the image as it is exactly if the disk does not count as dirty, or the
copies of its FAT are the same. -/
theorem session_unchanged_iff (host : Host) (img : Image) (sector : BitVec 32) (d : FatDisk)
    (hopen : openDisk host img sector = .ok (some d)) (hv : ValidVolume d.bpb) (ops : List ReadOp)
    (file : Nat → Byte) (hs : session host img sector ops = .ok (some file)) :
    file = img.data ↔ ¬ OpensDirty host img d ∨ CopiesAgree img d := by
  rw [session_file hopen hs]
  exact close_unchanged_iff (openDisk_mount hopen) hv

/-- A FAT16 volume of 4164 clusters, with two copies of the FAT. -/
def twoFatsBpb : BiosParamBlock :=
  { initBiosParamBlock with
    sectorSize := 512
    sectorsPerCluster := 1
    reservedSectorCount := 1
    tableCount := 2
    rootDirCapacity := 16
    sectorCount := 4200
    mediaType := 0xF8
    sectorsPerTable := 17 }

theorem twoFatsBpb_mountable : Mountable twoFatsBpb := by decide

theorem twoFatsBpb_valid : ValidVolume twoFatsBpb := ⟨by decide, by decide⟩

/-- Its image, with the last byte of the second entry in each copy. -/
def twoFatsImage (a b : Byte) : Image where
  data := overlay (overlay (overlay (fun _ => 0) 11 twoFatsBpb.bytes) 512 [0xF8, 0xFF, 0xFF, a])
    9216 [0xF8, 0xFF, 0xFF, b]
  size := 2150400

def plainHost : Host where
  wide := fun str => str.map (·.zeroExtend 32)
  junk := fun _ => 0
  wideJunk := fun _ => 0
  dirtyJunk := false
  now := ⟨80, 0, 1, 0, 0, 0⟩

theorem twoFats_bpb (a b : Byte) :
    BiosParamBlock.ofBytes (twoFatsImage a b).data 11 = twoFatsBpb := by
  refine BiosParamBlock.ofBytes_held fun i hi => ?_
  have hlen := twoFatsBpb.bytes_length
  rw [twoFatsImage]
  dsimp only
  rw [overlay_before _ _ (by omega), overlay_before _ _ (by omega), overlay_inside _ _ hi]

theorem twoFats_marks (a b : Byte) :
    (twoFatsImage a b).data (9216 + 3) = b ∧ (twoFatsImage a b).data (512 + 3) = a := ⟨rfl, rfl⟩

def twoFatsDisk (a b : Byte) : FatDisk :=
  mount plainHost (twoFatsImage a b) 0 twoFatsBpb twoFatsBpb_mountable

theorem twoFats_open (a b : Byte) :
    openDisk plainHost (twoFatsImage a b) 0 = .ok (some (twoFatsDisk a b)) := by
  have hbase : u32 ((0 : BitVec 32).toNat * 512) = 0 := rfl
  have hsize : (twoFatsImage a b).size = 2150400 := rfl
  rw [openDisk, hbase, Nat.zero_add, twoFats_bpb, hsize, if_neg (by decide), if_neg (by decide),
    dif_pos twoFatsBpb_mountable, twoFatsDisk]

theorem twoFats_session (a b : Byte) :
    session plainHost (twoFatsImage a b) 0 [.countFreeClusters] =
      .ok (some (twoFatsDisk a b).close.file) := by
  rw [session, twoFats_open, ok_bind]
  rfl

theorem session_unchanged_clean :
    (twoFatsDisk 0xFF 0x7F).close.file = (twoFatsImage 0xFF 0x7F).data :=
  (session_unchanged_iff plainHost _ 0 _ (twoFats_open 0xFF 0x7F) twoFatsBpb_valid _ _
    (twoFats_session 0xFF 0x7F)).mpr (Or.inl (by
      rw [OpensDirty, if_pos (by decide)]
      decide))

/-- Counting the free clusters of a disk that was not dismounted makes its FATs the same. -/
theorem counting_writes_fat : ∃ d file, openDisk plainHost (twoFatsImage 0x7F 0xFF) 0 = .ok (some d) ∧
    ValidVolume d.bpb ∧
    session plainHost (twoFatsImage 0x7F 0xFF) 0 [.countFreeClusters] = .ok (some file) ∧
    file ≠ (twoFatsImage 0x7F 0xFF).data := by
  refine ⟨_, _, twoFats_open 0x7F 0xFF, twoFatsBpb_valid, twoFats_session 0x7F 0xFF, fun h => ?_⟩
  have hm : twoFatsDisk 0x7F 0xFF = mount plainHost (twoFatsImage 0x7F 0xFF)
    (twoFatsDisk 0x7F 0xFF).base (twoFatsDisk 0x7F 0xFF).bpb (twoFatsDisk 0x7F 0xFF).mountable := rfl
  have hdirty := (mount_dirty hm).mp (by decide)
  have hclosed := (close_unchanged_iff hm twoFatsBpb_valid).mp h
  have hagree := hclosed.resolve_left (not_not.mpr hdirty) 17 (by decide) (by decide)
  have hbyte := congrArg (fun bs => bs[3]?) hagree
  have hsize : (twoFatsDisk 0x7F 0xFF).bpb.sectorSize.toNat = 512 := rfl
  simp only [slice_getElem?, hsize] at hbyte
  have haddr : (twoFatsDisk 0x7F 0xFF).sectorAddr ((twoFatsDisk 0x7F 0xFF).fatSector 17) = 9216 := rfl
  have hfirst : (twoFatsDisk 0x7F 0xFF).base + (twoFatsDisk 0x7F 0xFF).fatStart +
      17 % (twoFatsDisk 0x7F 0xFF).bpb.sectorsPerTable.toNat * 512 = 512 := rfl
  rw [haddr, hfirst, (twoFats_marks 0x7F 0xFF).1, (twoFats_marks 0x7F 0xFF).2] at hbyte
  exact absurd hbyte (by decide)

end Ohwes.Fatfs

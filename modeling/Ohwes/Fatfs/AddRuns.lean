import Ohwes.Fatfs.FreshDisk

/-! # Runs of `add` on a formatted volume

Between two commands there is only the image. What the next command opens is the disk that the last
one closed, so the invariant of the disk is one of the image. -/

namespace Ohwes.Fatfs
open Library
set_option autoImplicit false

/-! ## What a run must keep -/

/-- The directory entries of the disk do not share a cluster, and none names a free one. All of them
are in the root directory: none of them is a directory. -/
structure FatDisk.Uncrossed (d : FatDisk) : Prop where
  flat : ∀ i, d.Live i → (d.rootEntry i).isDirectory = false
  apart : ∀ i j, d.Live i → d.Live j → i ≠ j →
    ∀ x, d.Holds (d.rootEntry i) x → ¬ d.Holds (d.rootEntry j) x
  used : ∀ i, d.Live i → (d.rootEntry i).firstCluster ≠ 0 →
    d.isClusterFree (d.rootEntry i).firstCluster.toNat = false

def Image.Uncrossed (img : Image) : Prop :=
  ∀ (host : Host) (d : FatDisk), openDisk host img 0 = .ok (some d) → d.Uncrossed

/-- The command writes nothing, or the file takes a cluster, or there was none for it to begin
with. -/
def AddArgs.TakesCluster (img : Image) (a : AddArgs) : Prop :=
  ∀ d p, openDisk a.host img 0 = .ok (some d) → d.prepareAdd a = .ok (some p) →
    p.entry.firstCluster.toNat ∈ d.clusterNumbers → 0 < d.bpb.clustersFor a.data.length

/-- A command, by the image it leaves. -/
def addStep (img : Image) (a : AddArgs) : Call Image := (add img a).map Prod.snd

theorem FatDisk.Tidy.uncrossed {d : FatDisk} (h : d.Tidy) : d.Uncrossed where
  flat i hi := by
    obtain ⟨l, hl⟩ := h.owned i hi
    exact hl.not_directory
  apart := h.apart
  used i hi hfirst := by
    obtain ⟨l, hl⟩ := h.owned i hi
    exact hl.first_used h.sound h.mark hfirst

/-- The invariant of the image. -/
def Image.Tidy (img : Image) : Prop :=
  ∀ (host : Host) (d : FatDisk), openDisk host img 0 = .ok (some d) → d.Tidy

/-! ## Opening -/

theorem openDisk_zero {host : Host} {img : Image} {d : FatDisk} :
    openDisk host img 0 = .ok (some d) ↔
      4096 ≤ img.size ∧
      u32 ((BiosParamBlock.ofBytes img.data 11).sectorSize.toNat *
        (BiosParamBlock.ofBytes img.data 11).fsDataSectors) < img.size ∧
      ∃ h : Mountable (BiosParamBlock.ofBytes img.data 11),
        d = mount host img 0 (BiosParamBlock.ofBytes img.data 11) h := by
  have hbase : u32 ((0 : BitVec 32).toNat * 512) = 0 := by decide
  rw [openDisk]
  simp only [hbase, Nat.add_zero, Nat.zero_add]
  by_cases hsize : img.size < 4096
  · rw [if_pos hsize]
    exact ⟨fun h => (by cases h), fun h => absurd hsize (Nat.not_lt.mpr h.1)⟩
  · rw [if_neg hsize]
    by_cases hdata : u32 ((BiosParamBlock.ofBytes img.data 11).sectorSize.toNat *
        (BiosParamBlock.ofBytes img.data 11).fsDataSectors) ≥ img.size
    · rw [if_pos hdata]
      exact ⟨fun h => (by cases h), fun h => absurd hdata (Nat.not_le.mpr h.2.1)⟩
    · rw [if_neg hdata]
      by_cases hm : Mountable (BiosParamBlock.ofBytes img.data 11)
      · rw [dif_pos hm]
        constructor
        · intro h
          exact ⟨Nat.not_lt.mp hsize, Nat.not_le.mp hdata, hm, (Option.some.inj (Except.ok.inj h)).symm⟩
        · rintro ⟨-, -, -, rfl⟩
          rfl
      · rw [dif_neg hm]
        refine ⟨fun h => ?_, fun h => absurd h.2.2.choose hm⟩
        split at h <;> cases h

theorem openDisk_block {host : Host} {img : Image} {bpb : BiosParamBlock} (hm : Mountable bpb)
    (hblock : BiosParamBlock.ofBytes img.data 11 = bpb) (hsize : 4096 ≤ img.size)
    (hdata : u32 (bpb.sectorSize.toNat * bpb.fsDataSectors) < img.size) :
    openDisk host img 0 = .ok (some (mount host img 0 bpb hm)) := by
  subst hblock
  exact openDisk_zero.mpr ⟨hsize, hdata, hm, rfl⟩

namespace FatDisk

theorem fatStart_ge (d : FatDisk) : 512 ≤ d.fatStart := by
  have hpos : 0 < d.bpb.reservedSectorCount.toNat := by
    refine Nat.pos_of_ne_zero fun h => d.mountable.reserved_pos (BitVec.eq_of_toNat_eq ?_)
    rw [h]
    rfl
  exact d.sectorSize_ge.trans (Nat.le_mul_of_pos_left _ hpos)

theorem fatStart_le (d : FatDisk) : d.fatStart ≤ d.rootStart := by
  rw [rootStart_eq]
  exact Nat.le_add_right _ _

/-- A disk that was opened and closed is opened again, with any host. -/
theorem Sound.openDisk_close {d d2 : FatDisk} (hd : d2.Sound) {host : Host} {img : Image}
    (hopen : openDisk host img 0 = .ok (some d)) (hbpb : d2.bpb = d.bpb)
    (hsync : d2.dirty = true ∨ d2.Synced) (hlow : ∀ x < d.rootStart, d2.file x = d.file x)
    (host' : Host) :
    ∃ d', openDisk host' ⟨d2.close.file, img.size⟩ 0 = .ok (some d') ∧ d2.Reopened d' := by
  obtain ⟨hsize, hdata, hm, rfl⟩ := openDisk_zero.mp hopen
  have hstart := d2.fatStart_ge
  have hstart' : d2.fatStart ≤ (mount host img 0 _ hm).rootStart := by
    refine le_trans (le_of_eq ?_) (mount host img 0 _ hm).fatStart_le
    rw [fatStart, fatStart, hbpb]
  -- the block is not written
  have hblock : BiosParamBlock.ofBytes d2.close.file 11 = d2.bpb := by
    rw [hbpb]
    refine BiosParamBlock.ofBytes_congr fun k hk => ?_
    rw [hd.close_file (Or.inl (by omega)), hlow _ (by omega)]
    rfl
  refine ⟨_, openDisk_block d2.mountable hblock hsize ?_, hd.reopen hsync host' img.size⟩
  rw [hbpb]
  exact hdata

theorem Reopened.rootEntry_eq {d2 d' : FatDisk} (hr : d2.Reopened d') (i : Nat) :
    d'.rootEntry i = d2.rootEntry i := by
  have hstart : d'.rootStart = d2.rootStart := by
    rw [rootStart, rootBase, hr.bpb, rootStart, rootBase]
  refine entryAt_congr fun a _ _ => ?_
  rw [hstart]
  exact hr.file _ (Or.inr (Nat.le_add_right _ _))

theorem Reopened.tidy {d2 d' : FatDisk} (hr : d2.Reopened d') (h : d2.Tidy) : d'.Tidy :=
  h.congr hr.bpb hr.base (fun _ hx => hr.getCluster h.sound hx) fun i _ => hr.rootEntry_eq i

end FatDisk

/-! ## The step -/

/-- What `add` leaves, if it comes back. -/
theorem add_cases {img t : Image} {a : AddArgs} (hsector : a.sector = 0)
    (h : addStep img a = .ok t) :
    t = img ∨ ∃ d d2, openDisk a.host img 0 = .ok (some d) ∧ t = ⟨d2.close.file, img.size⟩ ∧
      (d2 = d ∨ ∃ p success, d.prepareAdd a = .ok (some p) ∧
        d.commitAdd a p = .ok (success, d2)) := by
  rw [addStep, add, hsector] at h
  cases hopen : openDisk a.host img 0 with
  | error e =>
    rw [hopen] at h
    exact nomatch h
  | ok r =>
    rw [hopen] at h
    cases r with
    | none => exact Or.inl (Except.ok.inj h).symm
    | some d =>
      dsimp only at h
      cases hp : d.prepareAdd a with
      | error e =>
        rw [hp] at h
        cases e with
        | assertion => exact Or.inl (Except.ok.inj h).symm
        | panic _ => exact nomatch h
        | fault => exact nomatch h
        | diverges => exact nomatch h
      | ok r =>
        rw [hp] at h
        cases r with
        | none => exact Or.inr ⟨d, d, rfl, (Except.ok.inj h).symm, Or.inl rfl⟩
        | some p =>
          dsimp only at h
          cases hc : d.commitAdd a p with
          | error e =>
            rw [hc] at h
            exact nomatch h
          | ok r =>
            rw [hc] at h
            exact Or.inr ⟨d, r.2, rfl, (Except.ok.inj h).symm, Or.inr ⟨p, r.1, hp, hc⟩⟩

/-- **The step lemma**: a file that takes a cluster keeps the invariant of the image. -/
theorem Image.Tidy.step {img t : Image} (h : img.Tidy) {a : AddArgs} (hsector : a.sector = 0)
    (htakes : a.TakesCluster img) (hstep : addStep img a = .ok t) : t.Tidy := by
  rcases add_cases hsector hstep with rfl | ⟨d, d2, hopen, rfl, hd2⟩
  · exact h
  · have hd := h a.host d hopen
    have hkept : d2.Tidy ∧ d2.bpb = d.bpb ∧ (d2.dirty = true ∨ d2.Synced) ∧
        ∀ x < d.rootStart, d2.file x = d.file x := by
      have hsame : d.Tidy ∧ d.bpb = d.bpb ∧ (d.dirty = true ∨ d.Synced) ∧
          ∀ x < d.rootStart, d.file x = d.file x := by
        obtain ⟨-, -, hm, rfl⟩ := openDisk_zero.mp hopen
        exact ⟨hd, rfl, Or.inr (FatDisk.mount_synced _ _ _ hm), fun _ _ => rfl⟩
      rcases hd2 with rfl | ⟨p, success, hp, hc⟩
      · exact hsame
      · rcases hd.commitAdd_tidy (hd.flatRoot.prepareAdd_cases hp) (htakes d p hopen hp) hc with
          rfl | ⟨htidy, hcommit⟩
        · exact hsame
        · exact ⟨htidy, hcommit.bpb, Or.inl hcommit.dirty, hcommit.low⟩
    obtain ⟨htidy, hbpb, hsync, hlow⟩ := hkept
    intro host' d' hopen'
    obtain ⟨d1, hopen1, hr⟩ := htidy.sound.openDisk_close hopen hbpb hsync hlow host'
    rw [hopen'] at hopen1
    obtain rfl := Option.some.inj (Except.ok.inj hopen1)
    exact hr.tidy htidy

/-- An entry of the image names a free cluster. -/
def Image.NamesFree (img : Image) (host : Host) : Prop :=
  ∃ d i, openDisk host img 0 = .ok (some d) ∧ d.Live i ∧ (d.rootEntry i).firstCluster ≠ 0 ∧
    d.isClusterFree (d.rootEntry i).firstCluster.toNat = true

theorem Image.NamesFree.crossed {img : Image} {host : Host} (h : img.NamesFree host) :
    ¬ img.Uncrossed := by
  intro hu
  obtain ⟨d, i, hopen, hlive, hfirst, hfree⟩ := h
  have hused := (hu host d hopen).used i hlive hfirst
  rw [hfree] at hused
  cases hused

/-- A file of no clusters is left with an entry that names a free one. -/
theorem Image.Tidy.crosses {img : Image} (h : img.Tidy) {a : AddArgs} (hsector : a.sector = 0)
    (hbad : ¬ a.TakesCluster img) : ∃ t, addStep img a = .ok t ∧ t.NamesFree a.host := by
  simp only [AddArgs.TakesCluster, not_forall, Nat.pos_iff_ne_zero, not_not] at hbad
  obtain ⟨d, p, hopen, hp, hfirst, hzero⟩ := hbad
  have hd := h a.host d hopen
  obtain ⟨d2, hcommit, hc, hlive, hentry, hfree⟩ :=
    hd.commitAdd_frees (hd.flatRoot.prepareAdd_cases hp) hfirst hzero
  obtain ⟨d', hopen', hr⟩ := hc.sound.openDisk_close hopen hc.bpb (Or.inl hc.dirty) hc.low a.host
  have hroot := hr.rootEntry_eq p.slot
  refine ⟨⟨d2.close.file, img.size⟩, ?_, d', p.slot, hopen', ?_, ?_, ?_⟩
  · rw [addStep, add, hsector, hopen]
    dsimp only
    rw [hp]
    dsimp only
    rw [hcommit]
    rfl
  · rw [FatDisk.Live, hroot, FatDisk.rootCapacity, hr.bpb]
    exact hlive
  · rw [hroot, hentry]
    exact FatDisk.first_ne_zero hfirst
  · have hrange := d.mem_clusterNumbers.mp hfirst
    have hnext := hr.getCluster hc.sound (x := p.entry.firstCluster.toNat) (by
      rw [hc.bpb]
      omega)
    rw [hroot, hentry, FatDisk.isClusterFree, hnext, ← FatDisk.isClusterFree, hfree]

/-! ## Whole runs -/

theorem FreshImage.image_tidy {bpb : BiosParamBlock} {img : Image} (h : FreshImage bpb img) :
    img.Tidy := by
  intro host d hopen
  obtain ⟨-, -, hm, rfl⟩ := openDisk_zero.mp hopen
  have hblock := h.block
  generalize BiosParamBlock.ofBytes img.data 11 = bpb' at hm hblock
  subst hblock
  exact h.tidy host hm

/-- No image that a run of `add` passes through has crossed files. -/
def StaysUncrossed (img : Image) (as : List AddArgs) : Prop :=
  ∀ t, Reaches addStep img as t → t.Uncrossed

/-- **A run of `add` keeps the files of a formatted volume apart** exactly as long as every file that
is written takes a cluster. -/
theorem adds_uncrossed_iff {bpb : BiosParamBlock} {img : Image} (h : FreshImage bpb img)
    (as : List AddArgs) (hsector : ∀ a ∈ as, a.sector = 0) :
    StaysUncrossed img as ↔ Throughout addStep (fun img a => a.TakesCluster img) img as := by
  have htidy := h.image_tidy
  have hp : ∀ img : Image, img.Tidy → img.Uncrossed := fun img himg host d hopen =>
    (himg host d hopen).uncrossed
  have hiff : ∀ (img : Image) (a : AddArgs), a.sector = 0 → img.Tidy →
      ((∀ t, addStep img a = .ok t → t.Uncrossed) ↔ a.TakesCluster img) := by
    intro img a ha himg
    constructor
    · intro hall
      by_contra hbad
      obtain ⟨t, ht, hfree⟩ := himg.crosses ha hbad
      exact hfree.crossed (hall t ht)
    · exact fun htakes t ht => hp t (himg.step ha htakes ht)
  have hkept : ∀ (img : Image) (a : AddArgs) (t : Image), a.sector = 0 → img.Tidy →
      a.TakesCluster img → addStep img a = .ok t → t.Tidy :=
    fun _ _ _ ha himg htakes ht => himg.step ha htakes ht
  rw [StaysUncrossed, reaches_iff_throughout, throughout_iff_mem hiff hkept hsector htidy]
  exact and_iff_right (hp img htidy)

/-- The first file of a volume without a label begins at its first cluster, also if it is empty. -/
theorem FreshImage.empty_file {bpb : BiosParamBlock} {img : Image} (h : FreshImage bpb img)
    (hnone : hasCustomLabel bpb = false) (hcount : 0 < bpb.getClusterCount) {a : AddArgs}
    {hm : Mountable bpb} (hopen : openDisk a.host img 0 = .ok (some (mount a.host img 0 bpb hm)))
    (hdata : a.data = []) (hlen : a.dst.length < MAX_PATH) {name : CString}
    (hpath : pathTokens a.dst = [name]) {label : Vector Byte 11}
    (hlabel : shortLabel (getFileName a.dst) = some label) : ¬ a.TakesCluster img := by
  have hsound := h.sound a.host hm
  have hroot : ∀ i < (mount a.host img 0 bpb hm).rootCapacity,
      ((mount a.host img 0 bpb hm).rootEntry i).isFree = true := fun i hi => h.root_free a.host hm hnone hi
  have hsecond : 2 ∈ (mount a.host img 0 bpb hm).clusterNumbers :=
    (FatDisk.mem_clusterNumbers _).mpr ⟨le_refl 2, Nat.lt_add_of_pos_left hcount⟩
  have hfree : (mount a.host img 0 bpb hm).getCluster 2 = CLUSTER_FREE :=
    h.getCluster_eq a.host hm (by omega) (by omega)
  obtain ⟨hmem, -⟩ := FatDisk.findNextFreeCluster_spec ⟨2, hsecond, hfree⟩
  obtain ⟨e, he⟩ : ∃ e, FatDisk.describe a { DirEntry.init a.host.now with
      firstCluster := BitVec.ofNat 16 (mount a.host img 0 bpb hm).findNextFreeCluster } = some e := by
    rw [FatDisk.describe, DirEntry.setShortName, hlabel]
    exact ⟨_, rfl⟩
  have hprepared := hsound.prepareAdd_empty hroot (by rw [hdata]; exact Nat.zero_le _) hlen hpath he
  intro htakes
  have hpos := htakes _ _ hopen hprepared (by
    rw [(describe_eq he).2.2.1, hsound.clusterNumber_ofNat hmem]
    exact hmem)
  rw [hdata, clustersFor_pos_iff (mount a.host img 0 bpb hm).clusterSize_pos (by decide)] at hpos
  exact absurd hpos.1 (by decide)

/-- A volume of five clusters. -/
def smallVolume : BiosParamBlock :=
  { diskette with tableCount := 1, rootDirCapacity := 16, sectorCount := 8, sectorsPerTable := 1 }

theorem smallVolume_formattable : Formattable smallVolume := ⟨by rfl, by decide, by decide⟩

/-- The image that `CreateNew` makes of it. -/
def smallImage : Image :=
  let f := (startWriter 0).file.write (areas (fun _ => 0) ⟨123, 5, 17, 12, 30, 0⟩ smallVolume).flatten
  ⟨f.data, f.size⟩

theorem smallImage_fresh : FreshImage smallVolume smallImage := by
  refine ⟨by decide, by decide, fun _ => 0, ⟨123, 5, 17, 12, 30, 0⟩, _,
    (createNew_ok _ _ smallVolume_formattable 0 _).mpr ⟨by decide, by decide, rfl⟩, rfl⟩

/-- `add` of a file with the name `A`. -/
def addA (data : List Byte) : AddArgs where
  host :=
    { wide := fun _ => []
      junk := fun _ => 0
      wideJunk := fun _ => 0
      dirtyJunk := false
      now := ⟨123, 5, 17, 12, 30, 0⟩ }
  force := true
  dst := [0x41]
  data := data

/-- A file with data takes a cluster, unless the count of its clusters wraps. -/
theorem AddArgs.takesCluster_of_data {a : AddArgs} (hpos : 0 < a.data.length)
    (hle : a.data.length ≤ 4278190080) (img : Image) : a.TakesCluster img := by
  intro d p _ _ _
  have hlt := getClusterSize_lt d.bpb
  exact (clustersFor_pos_iff d.clusterSize_pos (by omega)).mpr ⟨hpos, by omega⟩

/-- A file that is overwritten with a larger one and then with a smaller one. -/
theorem grown_and_shrunk_uncrossed :
    StaysUncrossed smallImage [addA (List.replicate 600 1), addA (List.replicate 1500 2), addA [3]] := by
  have hsector : ∀ a ∈ [addA (List.replicate 600 1), addA (List.replicate 1500 2), addA [3]],
      a.sector = 0 := by
    refine List.forall_mem_cons.mpr ⟨rfl, List.forall_mem_cons.mpr ⟨rfl, ?_⟩⟩
    exact List.forall_mem_cons.mpr ⟨rfl, fun a ha => nomatch ha⟩
  have htakes : ∀ (x : Byte) (n : Nat) (img : Image), 0 < n → n ≤ 4278190080 →
      (addA (List.replicate n x)).TakesCluster img := by
    intro x n img hpos hle
    have hlen : (addA (List.replicate n x)).data.length = n := List.length_replicate
    exact AddArgs.takesCluster_of_data (by omega) (by omega) img
  refine (adds_uncrossed_iff smallImage_fresh _ hsector).mpr ?_
  exact ⟨htakes 1 600 _ (by omega) (by omega), fun _ _ => ⟨htakes 2 1500 _ (by omega) (by omega),
    fun _ _ => ⟨htakes 3 1 _ (by omega) (by omega), fun _ _ => trivial⟩⟩⟩

theorem smallVolume_mountable : Mountable smallVolume := by
  decide

theorem smallImage_open (host : Host) :
    openDisk host smallImage 0 = .ok (some (mount host smallImage 0 smallVolume smallVolume_mountable)) := by
  have hlen := areas_length (fun _ => 0) ⟨123, 5, 17, 12, 30, 0⟩ smallVolume_formattable
  have hbytes : smallVolume.getSectorCount * smallVolume.sectorSize.toNat = 4096 := by decide
  rw [hbytes] at hlen
  have hsize : smallImage.size = 4096 := by
    rw [smallImage, startWriter_file, HostFile.write, if_neg, hlen]
    · rfl
    · intro hnil
      rw [hnil] at hlen
      exact absurd hlen (by decide)
  refine openDisk_block _ smallImage_fresh.block hsize.ge ?_
  rw [hsize]
  decide

/-- The empty file is given the first free cluster, which stays free. -/
theorem empty_file_crosses :
    FreshImage smallVolume smallImage ∧
      (∃ t, addStep smallImage (addA []) = .ok t ∧ t.NamesFree (addA []).host) ∧
      ¬ StaysUncrossed smallImage [addA []] := by
  obtain ⟨label, hlabel⟩ : ∃ label, shortLabel (getFileName [0x41]) = some label := ⟨_, rfl⟩
  have hbad := smallImage_fresh.empty_file (a := addA []) (by decide) (by decide) (smallImage_open _) rfl
    (by decide) (by rfl : pathTokens [0x41] = [[0x41]]) hlabel
  obtain ⟨t, ht, hfree⟩ := smallImage_fresh.image_tidy.crosses rfl hbad
  refine ⟨smallImage_fresh, ⟨t, ht, hfree⟩, fun hstays => ?_⟩
  exact hfree.crossed (hstays t (reaches_cons.mpr (Or.inr ⟨t, ht, Reaches.start t []⟩)))

end Ohwes.Fatfs

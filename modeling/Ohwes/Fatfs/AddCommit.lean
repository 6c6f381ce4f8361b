import Ohwes.Fatfs.AddFile
import Ohwes.Fatfs.AddPrepared

/-! # How `add` writes a new file to a directory tree

First the file is written, and then the directory that it is to be in. Both writes ask for free
clusters, the second one also for those that the directory has already. -/

namespace Ohwes.Fatfs
open Library
set_option autoImplicit false

namespace FatDisk
variable {d : FatDisk} {a : AddArgs} {dir e : DirEntry} {left : List CString} {size k : Nat}
  {table : Buffer}

/-! ## The file is written -/

/-- Storing in the FAT what is there changes no byte of it. -/
theorem setCluster_self {c : Nat} (hc : c ∈ d.clusterNumbers) :
    (d.setCluster c (d.getCluster c)).2 = d := by
  have hle := d.mem_clusterNumbers.mp hc
  have hfat : (if d.bpb.isFat12 then (setCluster12 d.fat c (d.getCluster c)).2
      else (setCluster16 d.fat c (d.getCluster c)).2) = d.fat := by
    rw [d.getCluster_of_le (by omega)]
    split
    · rw [setCluster12_self]
    · rw [setCluster16_self]
  rw [setCluster_eq hc, hfat]

theorem singleton_le_limit (c : Nat) : [c].length ≤ WALK_LIMIT := by
  rw [List.length_singleton, WALK_LIMIT]
  omega

section New
variable (hd : d.Sound) (hmark : d.EndMark d.getClusterNumberEOC)
  (he : describe a (d.newEntry a) = some e)
include hd hmark he

/-- The chain of a new file has no successor yet. -/
theorem newEntry_chain : e.Regular ∧ e.firstCluster ≠ 0 ∧
    d.Chain e.firstCluster.toNat [e.firstCluster.toNat] := by
  obtain ⟨hfree, hattr, hfirst, -⟩ := describe_eq he
  refine ⟨init_regular hfree hattr, ?_⟩
  rcases hd.new_first hfirst with hmem | ⟨hno, -⟩
  · obtain ⟨hrange, hnext⟩ := mem_freeClusters.mp hmem
    refine ⟨first_ne_zero hrange, .last ?_⟩
    rw [hnext]
    exact d.eoc_zero
  · rw [NoFirst] at hno
    refine ⟨fun h0 => ?_, .last ?_⟩
    · rw [← hno, h0] at hmark
      exact d.not_endMark_free hmark
    · rw [hno, hmark.getCluster_eq hd]
      exact hmark.eoc

variable (hsize : a.data.length < 4294967296) (buf : Buffer)
include hsize

omit hd hmark in
theorem newEntry_size : e.fileSize.toNat = a.data.length := by
  rw [(describe_eq he).2.2.2, BitVec.toNat_ofNat]
  exact Nat.mod_eq_of_lt hsize

theorem writeNew_full (hspace : d.countFreeClusters < d.bpb.clustersFor a.data.length) :
    d.writeFile WALK_LIMIT e buf = .ok (false, d) := by
  obtain ⟨hregular, hne, hchain⟩ := newEntry_chain hd hmark he
  rw [writeFile_eq hregular hchain buf (singleton_le_limit _) hne, newEntry_size he hsize,
    if_pos hspace]

/-- A file of no clusters leaves the disk as it is. -/
theorem writeNew_empty (hzero : d.bpb.clustersFor a.data.length = 0) :
    d.writeFile WALK_LIMIT e buf = .ok (true, { d with dirty := true }) := by
  obtain ⟨hregular, hne, hchain⟩ := newEntry_chain hd hmark he
  have hfreed : (d.setCluster e.firstCluster.toNat CLUSTER_FREE).2 = d := by
    rcases hd.new_first (describe_eq he).2.2.1 with hmem | ⟨hno, -⟩
    · obtain ⟨hrange, hnext⟩ := mem_freeClusters.mp hmem
      have hself := setCluster_self hrange
      rwa [hnext] at hself
    · rw [hno, hmark.setCluster_eq hd]
  rw [writeFile_eq hregular hchain buf (singleton_le_limit _) hne, newEntry_size he hsize, hzero,
    if_neg (Nat.not_lt_zero _), List.length_singleton, Nat.max_eq_right (Nat.zero_le 1), writeLoop_succ,
    if_pos (Nat.le_refl 0), hfreed]
  rfl

/-- Another file takes clusters that were free, and the first of them is not free any more. -/
theorem writeNew_stores (hpos : 0 < d.bpb.clustersFor a.data.length)
    (hspace : d.bpb.clustersFor a.data.length ≤ d.countFreeClusters) :
    ∃ d1 s, d.writeFile WALK_LIMIT e buf = .ok (true, d1) ∧ d.Stored e s d1 ∧
      (∀ x ∈ s, x ∈ d.freeClusters) ∧ ∃ c ∈ d.freeClusters, d1.isClusterFree c = false := by
  obtain ⟨hregular, -, hchain⟩ := newEntry_chain hd hmark he
  have hmem := (hd.new_first (describe_eq he).2.2.1).resolve_right fun h => by omega
  have hrange := (mem_freeClusters.mp hmem).1
  rw [← newEntry_size he hsize] at hpos hspace
  obtain ⟨hbytes, hfit⟩ := (clustersFor_pos_iff d.clusterSize_pos e.fileSize.isLt).mp hpos
  rw [clustersFor_eq hfit] at hspace
  obtain ⟨d1, l, hwrite, hdirty, -, hwrote⟩ := writeFile_writes hd hmark hregular hbytes hfit hchain
    (by simpa using hrange) hspace buf (singleton_le_limit _)
  have hfresh : ∀ x ∈ [e.firstCluster.toNat] ++ l, x ∈ d.freeClusters := by
    intro x hx
    rcases List.mem_append.mp hx with hx | hx
    · rwa [List.mem_singleton.mp hx]
    · refine (hwrote.fresh x hx).elim (fun hx => ?_) id
      rwa [List.mem_singleton.mp hx]
  exact ⟨d1, [e.firstCluster.toNat] ++ l, hwrite,
    ⟨hwrote.touches, fun x hx => (mem_freeClusters.mp (hfresh x hx)).1, hdirty, l,
      .file hregular hwrote.chain, fun x hx => List.mem_append_right _ hx⟩, hfresh,
    e.firstCluster.toNat, hmem, GoodChain.not_free hwrote.chain hwrote.chain.head_mem⟩

end New

/-! ## The directory is written -/

/-- `WriteFile` sets the flag, but not for the root directory. -/
theorem writeFile_dirty {steps : Nat} {buf : Buffer} {d' : FatDisk} (hroot : e.isRoot = false)
    (h : d.writeFile steps e buf = .ok (true, d')) : d'.dirty = true := by
  rw [writeFile_def, hroot, if_neg Bool.false_ne_true] at h
  split at h
  · cases h
  · obtain ⟨fileSize, -, h⟩ := bind_ok.mp h
    obtain ⟨count, -, h⟩ := bind_ok.mp h
    split at h
    · cases h
    · obtain ⟨⟨success, w⟩, -, h⟩ := bind_ok.mp h
      cases success with
      | false => cases h
      | true => rw [← (Prod.mk.inj (Except.ok.inj h)).2]

section Directory
variable {l : List Nat}

theorem dirSize_count (hl : l ≠ [])
    (hround : l.length * d.bpb.getClusterSize + d.bpb.getClusterSize ≤ 4294967296) :
    d.bpb.clustersFor (d.dirSize l) = l.length := by
  rw [dirSize, if_neg hl]
  exact wholeClusters_count d.clusterSize_pos hround

variable (hd : d.Sound) (h : d.DirAt dir l)
include hd h

theorem DirAt.rounds (hl : l ≠ []) (hpos : 0 < d.bpb.clustersFor (d.dirSize l)) :
    l.length * d.bpb.getClusterSize + d.bpb.getClusterSize ≤ 4294967296 := by
  rw [dirSize, if_neg hl] at hpos
  exact ((clustersFor_pos_iff d.clusterSize_pos ((h.chain hl).2.bytes_lt hd)).mp hpos).2

variable (buf : Buffer)

/-- What `WriteFile` does for the table of a directory. -/
structure Stores (d : FatDisk) (l : List Nat) (buf : Buffer) (d' : FatDisk) : Prop where
  wrote : d.WroteDir l buf d'
  low : ∀ x < d.rootStart, d'.file x = d.file x
  dirty : d.dirty = true → d'.dirty = true

theorem DirAt.writes (hmark : d.EndMark d.getClusterNumberEOC)
    (hspace : l.length ≤ d.countFreeClusters) :
    ∃ d', d.writeFile WALK_LIMIT dir buf = .ok (true, d') ∧ d.Stores l buf d' := by
  by_cases hl : l = []
  · subst hl
    refine ⟨_, hd.writeFile_root WALK_LIMIT (h.isRoot_iff.mpr rfl) buf, put_root_wrote hd,
      fun x hx => overlay_before _ _ hx, id⟩
  · have hbytes := h.fileSize hd
    rw [dirSize, if_neg hl] at hbytes
    have halloc := h.allocSize hd
    obtain ⟨d', hwrite, hwrote⟩ := h.clusters.rewrites hd hmark (h.not_root hl) (h.not_refused hl) hl
      hbytes ((h.chain hl).2.bytes_lt hd) (Nat.le_refl _) (h.count hd hl hspace) hspace buf
    rw [dirSize, if_neg hl] at halloc
    have hplain := writeFileFrom_ok h.directory halloc ((h.chain hl).2.bytes_lt hd) (Nat.le_refl _)
      hwrite
    have hstart := d.rootStart_le
    exact ⟨d', hplain, hwrote.wroteDir hd (h.chain hl).2,
      fun x hx => hwrote.touches.low x (by omega), fun _ => writeFile_dirty (h.not_root hl) hplain⟩

/-- It does nothing where too few clusters are free. -/
theorem DirAt.lacks (hspace : d.countFreeClusters < d.bpb.clustersFor (d.dirSize l)) (hl : l ≠ []) :
    d.writeFile WALK_LIMIT dir buf = .ok (false, d) := by
  have hlt := (h.chain hl).2.bytes_lt hd
  have hround := h.rounds hd hl (by omega)
  rw [dirSize_count hl hround] at hspace
  have halloc := h.allocSize hd
  rw [dirSize, if_neg hl] at halloc
  exact writeFileFrom_ok h.directory halloc hlt (Nat.le_refl _)
    (h.lacksSpace hd hl hspace hround _ buf)

/-- It frees the clusters of a directory whose size cannot be rounded up. -/
theorem DirAt.wipes (hl : l ≠ []) (hzero : d.bpb.clustersFor (d.dirSize l) = 0) :
    ∃ d', d.writeFile WALK_LIMIT dir buf = .ok (true, d') ∧ d.Touches l d' ∧
      ∀ x ∈ l, d'.getCluster x = CLUSTER_FREE := by
  obtain ⟨hfirst, hchain⟩ := h.chain hl
  have hroot := h.not_root hl
  obtain ⟨d', c', hloop, htouch, hfreed, -⟩ := writeLoop_free (d.dirSize l) 0 buf hd
    (.inr (hchain.chain hd)) hchain.2 (Nat.le_refl 0) 0
  refine ⟨{ d' with dirty := true }, ?_, htouch.setDirty, fun x hx => ?_⟩
  · rw [writeFile_def, hroot, h.not_refused hl, if_neg Bool.false_ne_true, if_neg Bool.false_ne_true,
      h.fileSize hd, ok_bind]
    dsimp only
    rw [countClusters_eq hroot hfirst (hchain.chain hd) (hchain.length_le_limit hd), ok_bind,
      ← BiosParamBlock.clustersFor, hzero, if_neg (Nat.not_lt_zero _), Nat.zero_max, hloop]
    rfl
  · rw [getCluster_setDirty]
    exact hfreed x hx

end Directory

/-! ## Paths in a directory tree -/

section Tree
variable {host : Host} (ht : d.Tree)

/-- An entry in the table of a directory, or that of the root directory. -/
def Listed (d : FatDisk) (e : DirEntry) : Prop :=
  e = rootDirEntry ∨ ∃ l i, d.IsDir l ∧ i < d.dirSlots l ∧ e = d.dirEntry l i

include ht

/-- A directory that can be read is one of the tree. -/
theorem HasTable.dirAt (hlisted : d.Listed dir) (h : d.HasTable host dir size table) :
    ∃ l, d.IsDir l ∧ d.DirAt dir l ∧ size = d.dirSize l ∧ table = d.tableIn host l := by
  obtain ⟨bs, hread, rfl⟩ := h.read
  suffices hat : ∃ l, d.IsDir l ∧ d.DirAt dir l by
    obtain ⟨l, hdir, hat⟩ := hat
    have halloc := h.alloc
    rw [hat.allocSize ht.sound] at halloc
    rw [hat.readFile ht.sound] at hread
    obtain rfl := Option.some.inj (Except.ok.inj hread)
    exact ⟨l, hdir, hat, (Except.ok.inj halloc).symm, rfl⟩
  cases hroot : dir.isRoot with
  | true =>
    have hfirst : dir.firstCluster = 0 := by
      rw [DirEntry.isRoot, Bool.and_eq_true, beq_iff_eq] at hroot
      exact hroot.2
    exact ⟨[], .root, by rw [Clusters, if_pos hfirst], h.directory,
      fun hn => absurd hroot (by simp [hn])⟩
  | false =>
    have hvalid : dir.isValidFile = true := by
      by_contra hn
      rw [Bool.not_eq_true] at hn
      rw [readFile_def, hroot, refusesFile, hn] at hread
      cases hread
    rcases hlisted with rfl | ⟨l, i, hdir, hi, rfl⟩
    · cases hroot
    · obtain ⟨l', hl'⟩ := ht.clusters l hdir i hi hvalid
      exact ⟨l', .sub hdir hi hvalid h.directory hl', hl', h.directory, fun _ => hvalid⟩

theorem Finds.listed {name : CString} (hlisted : d.Listed dir) (h : d.Finds host dir name e) :
    d.Listed e := by
  obtain ⟨size, table, k, htable, hfind, rfl⟩ := h
  obtain ⟨l, hdir, -, rfl, rfl⟩ := htable.dirAt ht hlisted
  have hk := found_lt hfind
  exact .inr ⟨l, k, hdir, hk, entryAt_tableIn host hk⟩

theorem Stops.listed {base : DirEntry} {names : List CString}
    (h : d.Stops host base names dir left) (hlisted : d.Listed base) : d.Listed dir := by
  induction h with
  | missing _ => exact hlisted
  | file _ _ _ => exact hlisted
  | down hfinds _ ih => exact ih (hfinds.listed ht hlisted)

end Tree

/-- There are enough free clusters for the directory, its size cannot be rounded up, or it is not
written. -/
theorem DirAt.room_cases {l : List Nat} (hd : d.Sound) (h : d.DirAt dir l) :
    l.length ≤ d.countFreeClusters ∨
      l ≠ [] ∧ (d.bpb.clustersFor (d.dirSize l) = 0 ∨
        d.countFreeClusters < d.bpb.clustersFor (d.dirSize l)) := by
  rcases Nat.lt_or_ge d.countFreeClusters l.length with hlack | hspace
  · have hl : l ≠ [] := List.ne_nil_of_length_pos (by omega)
    refine .inr ⟨hl, ?_⟩
    rcases Nat.eq_zero_or_pos (d.bpb.clustersFor (d.dirSize l)) with hnone | hpos
    · exact .inl hnone
    · rw [dirSize_count hl (h.rounds hd hl hpos)]
      exact .inr hlack
  · exact .inl hspace

/-! ## A new file in a directory tree -/

/-- The disk `d1` when the file was written: its FAT will be stored, and the directory is where it
was. -/
structure FileWritten (d : FatDisk) (dir : DirEntry) (l : List Nat) (d1 : FatDisk) : Prop where
  sound : d1.Sound
  mark : d1.EndMark d1.getClusterNumberEOC
  bpb : d1.bpb = d.bpb
  low : ∀ x < d.dataStart, d1.file x = d.file x
  dirty : d1.dirty = true
  known : d1.DirAt dir l

/-- What becomes of the two writes for a new file in the directory with the clusters `l`. -/
inductive Commits (d : FatDisk) (a : AddArgs) (dir : DirEntry) (l : List Nat) (buf : Buffer) :
    Call (Bool × FatDisk) → Prop
  /-- The file does not fit. -/
  | full : d.countFreeClusters < d.bpb.clustersFor a.data.length → Commits d a dir l buf (.ok (false, d))
  /-- The file is empty, and the directory is not written. -/
  | lacks : d.bpb.clustersFor a.data.length = 0 → l ≠ [] →
      d.countFreeClusters < d.bpb.clustersFor (d.dirSize l) →
      Commits d a dir l buf (.ok (false, { d with dirty := true }))
  /-- The file is empty, and the clusters of the directory are freed. -/
  | wipes {d2 : FatDisk} : d.bpb.clustersFor a.data.length = 0 → l ≠ [] →
      d.bpb.clustersFor (d.dirSize l) = 0 → d2.dirty = true →
      FatDisk.Touches { d with dirty := true } l d2 → (∀ x ∈ l, d2.getCluster x = CLUSTER_FREE) →
      Commits d a dir l buf (.ok (true, d2))
  /-- The file is written, and the directory is not. -/
  | spent {d1 : FatDisk} : 0 < d.bpb.clustersFor a.data.length →
      d.bpb.clustersFor a.data.length ≤ d.countFreeClusters → d.FileWritten dir l d1 →
      (∃ c ∈ d.freeClusters, d1.isClusterFree c = false) → Commits d a dir l buf (.ok (false, d1))
  /-- Both are written. -/
  | stores {d1 d2 : FatDisk} : d.bpb.clustersFor a.data.length ≤ d.countFreeClusters →
      (d.bpb.clustersFor a.data.length = 0 → l.length ≤ d.countFreeClusters) →
      d.FileWritten dir l d1 → d1.Stores l buf d2 → Commits d a dir l buf (.ok (true, d2))

section Commit
variable {l : List Nat} (ht : d.Tree) (hat : d.DirAt dir l)
include ht hat

theorem fileWritten_empty : d.FileWritten dir l { d with dirty := true } where
  sound := ht.sound.congr d.unchanged_dirty.bpb d.unchanged_dirty.base
  mark := ht.mark
  bpb := rfl
  low _ _ := rfl
  dirty := rfl
  known := ⟨d.unchanged_dirty.clusters hat.clusters, hat.directory, hat.usable⟩

/-- The clusters of the directory are not among those that were free. -/
theorem fileWritten_stored {s : List Nat} {d1 : FatDisk} (h : d.Stored e s d1)
    (hfresh : ∀ x ∈ s, x ∈ d.freeClusters) : d.FileWritten dir l d1 where
  sound := h.touches.sound ht.sound
  mark := by
    rw [h.touches.getClusterNumberEOC_eq h.range, endMark_congr h.touches.bpb]
    exact ht.mark
  bpb := h.touches.bpb
  low := h.touches.low
  dirty := h.dirty
  known := by
    refine ⟨hat.clusters.congr h.touches.bpb fun x hx => h.touches.next x fun hxs => ?_,
      hat.directory, hat.usable⟩
    exact hat.clusters.not_free hx (mem_freeClusters.mp (hfresh x hxs)).2

theorem commitAdd_commits (he : describe a (d.newEntry a) = some e)
    (hsize : a.data.length < 4294967296) (table : Buffer) (k : Nat) :
    d.Commits a dir l (storeEntry table k e) (d.commitAdd a ⟨dir, table, k, e⟩) := by
  rcases Nat.lt_or_ge d.countFreeClusters (d.bpb.clustersFor a.data.length) with hfull | hspace
  · rw [commitAdd, writeNew_full ht.sound ht.mark he hsize _ hfull]
    exact .full hfull
  · rcases Nat.eq_zero_or_pos (d.bpb.clustersFor a.data.length) with hzero | hpos
    · have hwritten := fileWritten_empty ht hat
      rw [commitAdd, writeNew_empty ht.sound ht.mark he hsize _ hzero, ok_bind]
      dsimp only
      rw [if_pos rfl]
      rcases hat.room_cases ht.sound with hroom | ⟨hl, hnone | hlack⟩
      · obtain ⟨d2, hdir, hstores⟩ := hwritten.known.writes hwritten.sound (storeEntry table k e)
          hwritten.mark hroom
        rw [hdir]
        exact .stores hspace (fun _ => hroom) hwritten hstores
      · obtain ⟨d2, hdir, htouch, hfreed⟩ := hwritten.known.wipes hwritten.sound
          (storeEntry table k e) hl hnone
        rw [hdir]
        exact .wipes hzero hl hnone (writeFile_dirty (hat.not_root hl) hdir) htouch hfreed
      · rw [hwritten.known.lacks hwritten.sound _ hlack hl]
        exact .lacks hzero hl hlack
    · obtain ⟨d1, s, hfile, hstored, hfresh, hused⟩ :=
        writeNew_stores ht.sound ht.mark he hsize (filled a.host.junk a.data) hpos hspace
      have hwritten := fileWritten_stored ht hat hstored hfresh
      rw [commitAdd, hfile, ok_bind]
      dsimp only
      rw [if_pos rfl]
      rcases hwritten.known.room_cases hwritten.sound with hroom | ⟨hl, hnone | hlack⟩
      · obtain ⟨d2, hdir, hstores⟩ := hwritten.known.writes hwritten.sound (storeEntry table k e)
          hwritten.mark hroom
        rw [hdir]
        exact .stores hspace (fun hzero => by omega) hwritten hstores
      · have hround := hat.rounds_of_free ht.sound hl (by omega)
        rw [dirSize_count hl (by rwa [hwritten.bpb])] at hnone
        exact absurd (List.length_eq_zero_iff.mp hnone) hl
      · rw [hwritten.known.lacks hwritten.sound _ hlack hl]
        exact .spent hpos hspace hwritten hused

end Commit

end FatDisk

end Ohwes.Fatfs

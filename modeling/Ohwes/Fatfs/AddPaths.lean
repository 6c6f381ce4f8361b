import Ohwes.Fatfs.AddCommit
import Ohwes.Fatfs.AddRuns
import Ohwes.Fatfs.CreateFileLimits

/-! # Where `add` puts a file

A path that breaks off before its last name names no directory. `Add` does not tell such a path from
one that lacks its last name only, and the file goes into the directory that the path breaks off in
(`add_path_iff`). -/

namespace Ohwes.Fatfs
open Library
set_option autoImplicit false

/-! ## The image that is left -/

section Image
variable {img : Image} {host : Host} {sector : BitVec 32} {d d1 d2 : FatDisk} {dir : DirEntry}
  {l : List Nat}

/-- The sector of a disk matters by its address alone. -/
theorem openDisk_sector (hopen : openDisk host img sector = .ok (some d)) (hbase : d.base = 0)
    (host' : Host) (img' : Image) : openDisk host' img' sector = openDisk host' img' 0 := by
  have haddr : u32 (sector.toNat * 512) = 0 := by
    rw [← hbase]
    rw [openDisk] at hopen
    split_ifs at hopen
    all_goals cases hopen
    rfl
  have hzero : u32 ((0 : BitVec 32).toNat * 512) = 0 := by decide
  rw [openDisk, openDisk, haddr, hzero]

namespace FatDisk

theorem Reopened.clusters (hr : d.Reopened d1) (hd : d.Sound) (h : d.Clusters dir l) :
    d1.Clusters dir l := by
  rw [Clusters] at h ⊢
  split at h
  · rwa [if_pos ‹_›]
  · rw [if_neg ‹_›]
    exact (hr.goodChain_iff hd _ _).mpr h

theorem Reopened.dirEntry (hr : d.Reopened d1) (hd : d.Sound) (hl : ∀ x ∈ l, x ∈ d.clusterNumbers)
    (i : Nat) : d1.dirEntry l i = d.dirEntry l i := by
  by_cases hnil : l = []
  · subst hnil
    exact hr.rootEntry_eq i
  · rw [FatDisk.dirEntry, FatDisk.dirEntry, tableAt_congr hnil fun x hx => hr.content hd (hl x hx)]

/-- The table that was stored is found in the directory when the image is opened again. -/
theorem Stores.reopened {buf : Buffer} (h : d1.Stores l buf d2) (hd : d.Sound)
    (hw : d.FileWritten dir l d1) (hopen : openDisk host img sector = .ok (some d)) (host' : Host) :
    ∃ d', openDisk host' ⟨d2.close.file, img.size⟩ sector = .ok (some d') ∧ d'.DirAt dir l ∧
      d'.dirSlots l = d.dirSlots l ∧ ∀ i < d.dirSlots l, d'.dirEntry l i = entryAt buf i := by
  have hd2 := h.wrote.sound hw.sound
  have hbpb := h.wrote.bpb.trans hw.bpb
  have hlow : ∀ x < d.rootStart, d2.file x = d.file x := by
    intro x hx
    have hroot : d1.rootStart = d.rootStart := by
      rw [rootStart, rootStart, rootBase, rootBase, hw.bpb]
    rw [h.low x (by rwa [hroot]), hw.low x (Nat.lt_of_lt_of_le hx d.rootStart_le)]
  have hclusters := h.wrote.clusters dir l hw.known.clusters (.inl rfl)
  have hsector := openDisk_sector hopen hd.base_zero
  rw [hsector] at hopen ⊢
  obtain ⟨d', hopen', hr⟩ := hd2.openDisk_close hopen hbpb (.inl (h.dirty hw.dirty)) hlow host'
  have hslots := dirSlots_congr (hr.bpb.trans hbpb) l
  refine ⟨d', hopen', ⟨hr.clusters hd2 hclusters, hw.known.directory, hw.known.usable⟩, hslots,
    fun i hi => ?_⟩
  rw [hr.dirEntry hd2 (fun x hx => hclusters.mem_numbers hx) i,
    h.wrote.table i (by rwa [dirSlots_congr hw.bpb])]

/-- A disk that was set dirty alone is closed with the FAT that it had. -/
theorem close_dirty (d : FatDisk) :
    ({ d with dirty := true } : FatDisk).close.file = d.writeFat.2.file := by
  rw [close, if_pos rfl, writeFat_file, writeFat_file]
  rfl

/-- Where a free cluster was taken, the image is another one. -/
theorem FileWritten.close_differs (h : d.FileWritten dir l d1)
    (hopen : openDisk host img sector = .ok (some d)) (hd : d.Sound)
    (hused : ∃ c ∈ d.freeClusters, d1.isClusterFree c = false) : d1.close.file ≠ img.data := by
  intro hsame
  obtain ⟨c, hc, hc1⟩ := hused
  obtain ⟨hrange, hnext⟩ := mem_freeClusters.mp hc
  have hle := d.mem_clusterNumbers.mp hrange
  have hfat : ∀ i < d.bpb.fatBytes, d1.fat i = d.fat i := by
    intro i hi
    have hclose := h.sound.close_fat (.inl h.dirty) (i := i) (by rwa [h.bpb])
    rw [hsame, fatStart, h.bpb] at hclose
    rw [mount_fat (openDisk_mount hopen) hi, hd.base_zero, Nat.zero_add]
    exact hclose.symm
  rw [isClusterFree, hd.getCluster_congr h.bpb hfat (by omega), hnext] at hc1
  cases hc1

end FatDisk

end Image

/-! ## The law -/

/-- The file was written, and then the directory that the path names, with the entry of the file in
its table. -/
structure FatDisk.Places (d : FatDisk) (a : AddArgs) (dir : DirEntry) (k : Nat) (e : DirEntry)
    (d2 : FatDisk) : Prop where
  leads : d.Descends a.host rootDirEntry (pathTokens a.dst).dropLast dir
  describes : a.Describes e
  written : ∃ size table d1, d.HasTable a.host dir size table ∧ k < size / DIR_ENTRY_SIZE ∧
    d.writeFile WALK_LIMIT e (filled a.host.junk a.data) = .ok (true, d1) ∧
    d1.writeFile WALK_LIMIT dir (storeEntry table k e) = .ok (true, d2)

/-- A command fails and leaves the image alone where an intermediate name of the path is missing or that
of a file. Where it succeeds, it has written the directory that the path names with the entry of the
file; of a new file in a directory tree, the entry is in that directory when the image is opened
again. -/
structure KeepsToPath (img : Image) (a : AddArgs) : Prop where
  broken : ∀ d dir left, openDisk a.host img a.sector = .ok (some d) →
    d.Stops a.host rootDirEntry (pathTokens a.dst) dir left → left ≠ [] →
    add img a = .ok (false, img)
  placed : ∀ d img', openDisk a.host img a.sector = .ok (some d) → add img a = .ok (true, img') →
    ∃ dir k e d2, d.Places a dir k e d2 ∧ img' = ⟨d2.close.file, img.size⟩
  held : ∀ d img' dir l, openDisk a.host img a.sector = .ok (some d) → d.Tree →
    d.Stops a.host rootDirEntry (pathTokens a.dst) dir [] → d.DirAt dir l →
    add img a = .ok (true, img') → ∀ host, ∃ d' k, openDisk host img' a.sector = .ok (some d') ∧
      d'.DirAt dir l ∧ k < d'.dirSlots l ∧ a.Describes (d'.dirEntry l k)

/-- In a directory tree, the file or the directory `dir` cannot be written for want of free clusters,
and the image stays as it is. -/
def LacksRoom (img : Image) (a : AddArgs) (d : FatDisk) (dir : DirEntry) : Prop :=
  d.Tree ∧ ∃ size table k, d.Ready a dir size table k ∧
    (d.countFreeClusters < d.bpb.clustersFor a.data.length ∧ ClosesAlike a.host img d ∨
      d.bpb.clustersFor a.data.length = 0 ∧ dir.isRoot = false ∧
        d.countFreeClusters < d.bpb.clustersFor size ∧ CopiesAgree img d)

/-- The condition: where the path breaks off before its last name, the command fails for another
reason; and an empty file does not go into a directory of almost 4 GiB. -/
structure PathHolds (img : Image) (a : AddArgs) : Prop where
  broken : ∀ d dir left, openDisk a.host img a.sector = .ok (some d) →
    d.Stops a.host rootDirEntry (pathTokens a.dst) dir left → left ≠ [] →
    d.Refuses a dir ∧ ClosesAlike a.host img d ∨ LacksRoom img a d dir
  rounds : ∀ d dir l size table k, openDisk a.host img a.sector = .ok (some d) → d.Tree →
    d.Stops a.host rootDirEntry (pathTokens a.dst) dir [] → d.DirAt dir l →
    d.Ready a dir size table k → d.bpb.clustersFor a.data.length = 0 →
    l.length * d.bpb.getClusterSize + d.bpb.getClusterSize ≤ 4294967296

/-! ## Failing -/

section Fails
variable {img : Image} {a : AddArgs} {d : FatDisk} {dir : DirEntry} {left : List CString}

/-- The result of a command by that of its two writes. -/
theorem add_result_iff {x : Call (Bool × FatDisk)} {success : Bool} {img' : Image} :
    (x.map fun r => (r.1, (⟨r.2.close.file, img.size⟩ : Image))) = .ok (success, img') ↔
      ∃ d2, x = .ok (success, d2) ∧ img' = ⟨d2.close.file, img.size⟩ := by
  cases x with
  | error e => exact ⟨fun h => (nomatch h), fun ⟨_, h, _⟩ => nomatch h⟩
  | ok r =>
    constructor
    · intro h
      obtain ⟨hsuccess, himg⟩ := Prod.mk.inj (Except.ok.inj h)
      exact ⟨r.2, by rw [← hsuccess], himg.symm⟩
    · rintro ⟨d2, hr, rfl⟩
      rw [Except.ok.inj hr]
      rfl

variable (hopen : openDisk a.host img a.sector = .ok (some d))
  (hstops : d.Stops a.host rootDirEntry (pathTokens a.dst) dir left)
include hopen hstops

theorem add_refused (h : d.Refuses a dir) (hclose : ClosesAlike a.host img d) :
    add img a = .ok (false, img) := by
  rw [add_none hopen (hstops.refuses h), close_of_alike (openDisk_mount hopen) hclose]

/-- What a command with all it takes for a new file in a directory tree does. -/
theorem add_commits (ht : d.Tree) {size k : Nat} {table : Buffer} (hr : d.Ready a dir size table k) :
    ∃ l e r, d.DirAt dir l ∧ size = d.dirSize l ∧ k < d.dirSlots l ∧ a.Describes e ∧
      d.Commits a dir l (storeEntry table k e) r ∧
      add img a = r.map fun r => (r.1, ⟨r.2.close.file, img.size⟩) := by
  obtain ⟨e, he, hp⟩ := hstops.ready hr
  obtain ⟨l, -, hat, rfl, rfl⟩ := hr.known.dirAt ht (hstops.listed ht (.inl rfl))
  have hsize := hr.small
  rw [UINT32_MAX] at hsize
  refine ⟨l, e, _, hat, rfl, ?_, FatDisk.describe_describes he (by omega),
    FatDisk.commitAdd_commits ht hat he (by omega) (d.tableIn a.host l) k, add_some hopen hp⟩
  obtain ⟨-, hfind⟩ := ok_of_ite_error hr.slot
  rw [← d.dirSize_div]
  exact List.mem_range.mp (List.mem_of_find?_eq_some (Except.ok.inj hfind))

theorem add_lacks_room (h : LacksRoom img a d dir) : add img a = .ok (false, img) := by
  obtain ⟨ht, size, table, k, hr, hlack⟩ := h
  obtain ⟨l, e, r, hat, rfl, -, -, hcommits, hadd⟩ := add_commits hopen hstops ht hr
  have hm := openDisk_mount hopen
  rw [hadd, add_result_iff]
  rcases hlack with ⟨hspace, hclose⟩ | ⟨hzero, hroot, hspace, hagree⟩
  · cases hcommits with
    | full _ => exact ⟨d, rfl, by rw [close_of_alike hm hclose]⟩
    | lacks hzero _ _ => omega
    | wipes hzero _ _ _ _ _ => omega
    | spent _ hfits _ _ => omega
    | stores hfits _ _ _ => omega
  · cases hcommits with
    | full _ => omega
    | lacks _ _ _ => exact ⟨_, rfl, by rw [d.close_dirty, writeFat_of_agree hm hagree]⟩
    | wipes _ _ hnone _ _ _ => omega
    | spent hpos _ _ _ => omega
    | stores _ hroom _ _ =>
      have hl : l ≠ [] := fun hl => by
        rw [hat.isRoot_iff.mpr hl] at hroot
        exact nomatch hroot
      rw [FatDisk.dirSize_count hl (hat.rounds ht.sound hl (by omega))] at hspace
      have := hroom hzero
      omega

/-- On a directory tree these are the reasons for which it leaves the image alone. -/
theorem add_false_cases (ht : d.Tree) (h : add img a = .ok (false, img)) :
    d.Refuses a dir ∧ ClosesAlike a.host img d ∨ LacksRoom img a d dir := by
  have hm := openDisk_mount hopen
  have hv : ValidVolume d.bpb := ⟨ht.sound.size_lt, ht.sound.limit⟩
  rcases hstops.outcome with hr | ⟨size, table, k, hr⟩ | hfault
  · rw [add_none hopen (hstops.refuses hr)] at h
    have hsame := congrArg Image.data (Prod.mk.inj (Except.ok.inj h)).2
    exact .inl ⟨hr, (close_unchanged_iff hm hv).mp hsame⟩
  · refine .inr ⟨ht, size, table, k, hr, ?_⟩
    obtain ⟨l, e, r, hat, rfl, -, -, hcommits, hadd⟩ := add_commits hopen hstops ht hr
    obtain ⟨d2, hr, himg⟩ := add_result_iff.mp (hadd.symm.trans h)
    have hsame : d2.close.file = img.data := (congrArg Image.data himg).symm
    cases hcommits with
    | full hfull =>
      cases hr
      exact .inl ⟨hfull, (close_unchanged_iff hm hv).mp hsame⟩
    | lacks hzero hl hlack =>
      cases hr
      rw [d.close_dirty] at hsame
      exact .inr ⟨hzero, hat.not_root hl, hlack, (writeFat_unchanged_iff hm hv).mp hsame⟩
    | spent _ _ hwritten hused =>
      cases hr
      exact absurd hsame (hwritten.close_differs hopen ht.sound hused)
    | wipes _ _ _ _ _ _ => cases hr
    | stores _ _ _ _ => cases hr
  · rw [add_fault hopen hfault] at h
    exact nomatch h

end Fails

/-! ## Succeeding -/

section Succeeds
variable {img img' : Image} {a : AddArgs} {d : FatDisk} {dir : DirEntry} {l : List Nat}

/-- What was written is what the command prepared for the directory that the path names. -/
theorem add_placed (hopen : openDisk a.host img a.sector = .ok (some d))
    (hb : ∀ dir left, d.Stops a.host rootDirEntry (pathTokens a.dst) dir left → left = [])
    (h : add img a = .ok (true, img')) :
    ∃ dir k e d2, d.Places a dir k e d2 ∧ img' = ⟨d2.close.file, img.size⟩ := by
  obtain ⟨p, d2, hp, hc, himg⟩ := add_true hopen h
  obtain ⟨hleads, hdescribes, size, htable, hslot⟩ := FatDisk.prepareAdd_leads hp hb
  obtain ⟨d1, hfile, hdir⟩ := FatDisk.commitAdd_true hc
  exact ⟨p.parent, p.slot, p.entry, d2,
    ⟨hleads, hdescribes, size, p.table, d1, htable, hslot, hfile, hdir⟩, himg⟩

variable (hopen : openDisk a.host img a.sector = .ok (some d))
  (hstops : d.Stops a.host rootDirEntry (pathTokens a.dst) dir [])
include hopen hstops

theorem add_true_ready (h : add img a = .ok (true, img')) :
    ∃ size table k, d.Ready a dir size table k := by
  rcases hstops.outcome with hr | hr | hfault
  · rw [add_none hopen (hstops.refuses hr)] at h
    cases h
  · exact hr
  · rw [add_fault hopen hfault] at h
    exact nomatch h

variable (ht : d.Tree)
include ht

/-- A new file in a directory whose size can be rounded up is found there. -/
theorem add_held (hat : d.DirAt dir l) (h : add img a = .ok (true, img'))
    (hround : d.bpb.clustersFor a.data.length = 0 →
      l.length * d.bpb.getClusterSize + d.bpb.getClusterSize ≤ 4294967296) (host : Host) :
    ∃ d' k, openDisk host img' a.sector = .ok (some d') ∧ d'.DirAt dir l ∧ k < d'.dirSlots l ∧
      a.Describes (d'.dirEntry l k) := by
  obtain ⟨size, table, k, hr⟩ := add_true_ready hopen hstops h
  obtain ⟨l', e, r, hat', -, hk, hdescribes, hcommits, hadd⟩ := add_commits hopen hstops ht hr
  obtain rfl := hat'.clusters.unique hat.clusters
  obtain ⟨d2, hr, rfl⟩ := add_result_iff.mp (hadd.symm.trans h)
  cases hcommits with
  | full _ => cases hr
  | lacks _ _ _ => cases hr
  | spent _ _ _ _ => cases hr
  | wipes hzero hl hnone _ _ _ =>
    rw [FatDisk.dirSize_count hl (hround hzero)] at hnone
    exact absurd (List.length_eq_zero_iff.mp hnone) hl
  | stores _ _ hwritten hstores =>
    cases hr
    obtain ⟨d', hopen', hat2, hslots, hentries⟩ := hstores.reopened ht.sound hwritten hopen host
    refine ⟨d', k, hopen', hat2, by rwa [hslots], ?_⟩
    rw [hentries k hk, entryAt_storeEntry, if_pos rfl]
    exact hdescribes

/-- An empty file in a directory of almost 4 GiB frees the clusters of that directory. -/
theorem add_lost {size k : Nat} {table : Buffer} (hr : d.Ready a dir size table k)
    (hat : d.DirAt dir l) (hzero : d.bpb.clustersFor a.data.length = 0)
    (hwrap : 4294967296 < l.length * d.bpb.getClusterSize + d.bpb.getClusterSize) :
    ∃ img', add img a = .ok (true, img') ∧
      ∀ host d', openDisk host img' a.sector = .ok (some d') → ¬ d'.DirAt dir l := by
  obtain ⟨l', e, r, hat', -, -, -, hcommits, hadd⟩ := add_commits hopen hstops ht hr
  obtain rfl := hat'.clusters.unique hat.clusters
  cases hcommits with
  | full _ => omega
  | spent hpos _ _ _ => omega
  | lacks _ hl hlack =>
    have hround := hat.rounds ht.sound hl (by omega)
    omega
  | stores _ hroom _ _ =>
    have hcs := getClusterSize_lt d.bpb
    have hl : l' ≠ [] := by
      rintro rfl
      rw [List.length_nil, Nat.zero_mul] at hwrap
      omega
    have hlen := List.length_pos_of_ne_nil hl
    have hfree := hroom hzero
    have hround := hat.rounds_of_free ht.sound hl (by omega)
    omega
  | @wipes d2 _ hl _ hdirty htouch hfreed =>
    have hd2 := htouch.sound (FatDisk.fileWritten_empty ht hat).sound
    have hbpb : d2.bpb = d.bpb := htouch.bpb
    refine ⟨⟨d2.close.file, img.size⟩, hadd.trans (add_result_iff.mpr ⟨d2, rfl, rfl⟩),
      fun host d' hopen' hat2 => ?_⟩
    rw [openDisk_sector hopen ht.sound.base_zero] at hopen'
    have hopen0 := openDisk_sector hopen ht.sound.base_zero a.host img
    obtain ⟨d3, hopen3, hreopened⟩ := hd2.openDisk_close (hopen0.symm.trans hopen) hbpb (.inl hdirty)
      (fun x hx => htouch.low x (Nat.lt_of_lt_of_le hx d.rootStart_le)) host
    rw [hopen'] at hopen3
    obtain rfl := Option.some.inj (Except.ok.inj hopen3)
    obtain ⟨-, hchain⟩ := hat.chain hl
    have hrange := d.mem_clusterNumbers.mp hchain.head_range
    refine hat2.clusters.not_free hchain.head_mem ?_
    rw [hreopened.getCluster hd2 (by rw [hbpb]; omega)]
    exact hfreed _ hchain.head_mem

end Succeeds

/-- **Where `add` puts a file.** The condition is enough for every image; of a directory tree, the law
holds no longer than it does. -/
theorem add_path_iff (img : Image) (a : AddArgs) :
    (PathHolds img a → KeepsToPath img a) ∧
      ((∀ d, openDisk a.host img a.sector = .ok (some d) → d.Tree) →
        (KeepsToPath img a ↔ PathHolds img a)) := by
  have henough : PathHolds img a → KeepsToPath img a := by
    intro h
    have hbroken : ∀ d dir left, openDisk a.host img a.sector = .ok (some d) →
        d.Stops a.host rootDirEntry (pathTokens a.dst) dir left → left ≠ [] →
        add img a = .ok (false, img) := by
      intro d dir left hopen hstops hleft
      rcases h.broken d dir left hopen hstops hleft with ⟨hr, hclose⟩ | hlack
      · exact add_refused hopen hstops hr hclose
      · exact add_lacks_room hopen hstops hlack
    refine ⟨hbroken, fun d img' hopen hadd => add_placed hopen (fun dir left hstops => ?_) hadd,
      fun d img' dir l hopen ht hstops hat hadd host => ?_⟩
    · by_contra hleft
      rw [hbroken d dir left hopen hstops hleft] at hadd
      cases hadd
    · obtain ⟨size, table, k, hr⟩ := add_true_ready hopen hstops hadd
      exact add_held hopen hstops ht hat hadd (h.rounds d dir l size table k hopen ht hstops hat hr) host
  refine ⟨henough, fun htree => ⟨fun h => ⟨fun d dir left hopen hstops hleft => ?_,
    fun d dir l size table k hopen ht hstops hat hr hzero => ?_⟩, henough⟩⟩
  · exact add_false_cases hopen hstops (htree d hopen) (h.broken d dir left hopen hstops hleft)
  · by_contra hround
    obtain ⟨img', hadd, hlost⟩ := add_lost hopen hstops ht hr hat hzero (Nat.not_le.mp hround)
    obtain ⟨d', -, hopen', hat', -⟩ := h.held d img' dir l hopen ht hstops hat hadd a.host
    exact hlost a.host d' hopen' hat'


/-! ## A volume without directories -/

/-- `add` of a file to a directory `A`. -/
def addUnder (name : CString) : AddArgs := { addA [] with dst := 0x41 :: 0x2F :: name }

def smallDisk : FatDisk := mount (addA []).host smallImage 0 smallVolume smallVolume_mountable

theorem smallDisk_entry {i : Nat} (hi : i < smallDisk.dirSlots []) :
    (smallDisk.dirEntry [] i).isFree = true :=
  smallImage_fresh.root_free _ smallVolume_mountable (by decide) hi

theorem smallDisk_tree : smallDisk.Tree :=
  FatDisk.tree_of_empty_files (smallImage_fresh.sound _ _) (smallImage_fresh.tidy _ _).mark
    fun i hi hvalid => by
      rw [DirEntry.isValidFile, smallDisk_entry hi] at hvalid
      cases hvalid

theorem smallDisk_table : smallDisk.HasTable (addA []).host rootDirEntry (smallDisk.dirSize [])
    (smallDisk.tableIn (addA []).host []) :=
  ⟨by decide, FatDisk.dirAt_root.allocSize smallDisk_tree.sound, _,
    FatDisk.dirAt_root.readFile smallDisk_tree.sound, rfl⟩

theorem smallDisk_free {i : Nat} (hi : i < smallDisk.dirSize [] / DIR_ENTRY_SIZE) :
    (entryAt (smallDisk.tableIn (addA []).host []) i).isFree = true := by
  rw [FatDisk.dirSize_div] at hi
  rw [FatDisk.entryAt_tableIn _ hi, smallDisk_entry hi]

/-- No name is found in it. -/
theorem smallDisk_stops (name : CString) (left : List CString) :
    smallDisk.Stops (addA []).host rootDirEntry (name :: left) rootDirEntry left :=
  .missing (.inr ⟨_, _, smallDisk_table,
    findLoop_free _ (fun _ hi => smallDisk_free hi) name _ 0⟩)

theorem smallDisk_slot : firstFree (smallDisk.tableIn (addA []).host [])
    (smallDisk.dirSize [] / DIR_ENTRY_SIZE) = .ok (some 0) := by
  have hcount : smallDisk.dirSize [] / DIR_ENTRY_SIZE = 15 + 1 := by decide
  have hfree := smallDisk_free (i := 0) (by rw [hcount]; decide)
  rw [firstFree, hcount, if_neg (by decide), List.range_succ_eq_map, List.find?_cons, hfree]

/-- A volume with an empty directory `A`. -/
def directoryImage : Image :=
  ⟨overlay (overlay (overlay (fun _ => 0) 11 smallVolume.bytes) 512 [0xF0, 0xFF, 0xFF, 0xFF, 0x0F]) 1024
    directoryEntry.bytes, 4096⟩

theorem directoryImage_open (host : Host) : openDisk host directoryImage 0 =
    .ok (some (mount host directoryImage 0 smallVolume smallVolume_mountable)) :=
  openDisk_block _ (by decide +kernel) (by decide) (by decide)

/-- The disk that is opened. -/
def mountedDirectory : FatDisk :=
  mount (addA []).host directoryImage 0 smallVolume smallVolume_mountable

theorem mountedDirectory_sound : mountedDirectory.Sound :=
  ⟨rfl, by decide, by decide, by decide⟩

theorem mountedDirectory_finds :
    mountedDirectory.Finds (addA []).host rootDirEntry [0x41] directoryEntry :=
  ⟨_, mountedDirectory.tableIn (addA []).host [], 0, ⟨by decide,
    FatDisk.dirAt_root.allocSize mountedDirectory_sound, _,
    FatDisk.dirAt_root.readFile mountedDirectory_sound, rfl⟩, by decide +kernel, by decide +kernel⟩

/-- A path through the directory does not break off. -/
theorem mountedDirectory_stops {name : CString} {dir : DirEntry} {left : List CString}
    (h : mountedDirectory.Stops (addA []).host rootDirEntry [[0x41], name] dir left) : left = [] := by
  have hwalk : mountedDirectory.walkPath (addA []).host [[0x41]] none rootDirEntry =
      .ok (some directoryEntry, some rootDirEntry) :=
    (FatDisk.walkPath_cons (by decide)).mpr (.inr ⟨_, mountedDirectory_finds, rfl⟩)
  cases h with
  | missing hlacks =>
    have hnone : mountedDirectory.walkPath (addA []).host [[0x41]] none rootDirEntry =
        .ok (none, some rootDirEntry) :=
      (FatDisk.walkPath_cons hlacks.directory).mpr (.inl ⟨hlacks, rfl⟩)
    rw [hwalk] at hnone
    cases hnone
  | @file _ e _ _ hfinds hfile _ =>
    have hfound : mountedDirectory.walkPath (addA []).host [[0x41]] none rootDirEntry =
        .ok (some e, some rootDirEntry) :=
      (FatDisk.walkPath_cons hfinds.directory).mpr (.inr ⟨_, hfinds, rfl⟩)
    rw [hwalk] at hfound
    obtain rfl := Option.some.inj (Prod.mk.inj (Except.ok.inj hfound)).1
    exact absurd hfile (by decide)
  | down _ hrest =>
    cases hrest with
    | missing _ => rfl
    | file _ _ hleft => exact absurd rfl hleft
    | down _ hnothing => exact absurd rfl hnothing.names_ne_nil

/-- A file of 600 bytes is put into the directory. -/
theorem add_path_below :
    KeepsToPath directoryImage { addUnder [0x42] with data := List.replicate 600 1 } := by
  have hopened : ∀ d, openDisk (addA []).host directoryImage 0 = .ok (some d) → d = mountedDirectory := by
    intro d hopen
    rw [directoryImage_open] at hopen
    exact (Option.some.inj (Except.ok.inj hopen)).symm
  refine (add_path_iff directoryImage _).1 ⟨fun d dir left hopen hstops hleft => ?_,
    fun d dir l _ _ _ hopen _ _ _ _ hzero => ?_⟩
  · obtain rfl := hopened d hopen
    exact absurd (mountedDirectory_stops hstops) hleft
  · obtain rfl := hopened d hopen
    have hlen : (List.replicate 600 (1 : Byte)).length = 600 := List.length_replicate
    rw [hlen] at hzero
    exact absurd hzero (by decide)

/-- The file `A/B` is made in the root directory. -/
theorem add_path_beside : ¬ KeepsToPath smallImage (addUnder [0x42]) := by
  intro h
  have hopen : openDisk (addUnder [0x42]).host smallImage (addUnder [0x42]).sector =
    .ok (some smallDisk) := smallImage_open _
  have hstops : smallDisk.Stops (addUnder [0x42]).host rootDirEntry
    (pathTokens (addUnder [0x42]).dst) rootDirEntry [[0x42]] := smallDisk_stops [0x41] [[0x42]]
  have hready : smallDisk.Ready (addUnder [0x42]) rootDirEntry (smallDisk.dirSize [])
      (smallDisk.tableIn (addA []).host []) 0 :=
    ⟨by decide, by decide, smallDisk_table, smallDisk_slot, by decide⟩
  obtain ⟨l, e, r, hat, -, -, -, hcommits, hadd⟩ := add_commits hopen hstops smallDisk_tree hready
  obtain rfl := hat.isRoot_iff.mp (by decide)
  have hzero : smallDisk.bpb.clustersFor (addUnder [0x42]).data.length = 0 := by decide
  have hkept := h.broken smallDisk rootDirEntry [[0x42]] hopen hstops (List.cons_ne_nil _ _)
  obtain ⟨d2, hr, -⟩ := add_result_iff.mp (hadd.symm.trans hkept)
  cases hcommits with
  | full hfull => omega
  | lacks _ hl _ => exact hl rfl
  | spent hpos _ _ _ => omega
  | wipes _ _ _ _ _ _ => cases hr
  | stores _ _ _ _ => cases hr

end Ohwes.Fatfs

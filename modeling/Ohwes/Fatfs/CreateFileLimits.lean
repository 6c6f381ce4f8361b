import Ohwes.Fatfs.CreateFile
import Ohwes.Fatfs.ReadOnly
import Ohwes.Fatfs.SpaceCheck

/-! # Where `CreateFile` does not add an entry

A directory without a free slot is written behind its end; without clusters to spare the directory or
the one above is not written back; in the root directory, where there is no table to write, the second
write goes to the file of the first entry. -/

namespace Ohwes.Fatfs
open Library
set_option autoImplicit false

namespace FatDisk
variable {d d1 d' : FatDisk} {host : Host} {l : List Nat} {e : DirEntry} {buf : Buffer}

/-! ## What a success of `WriteFile` says -/

/-- The root directory is not written from a smaller buffer. -/
theorem root_size (hd : d.Sound) {size : Nat} (h : d.touchRoot (access size) = .ok ()) :
    d.dirSize [] ≤ size := by
  obtain ⟨m, hm, -, hhigh⟩ := d.rootSectors_bounds
  have hsum := (fsDataSectors_sum d.bpb).1
  have hall : ∀ i ∈ List.range d.bpb.rootSectorCount, d.sectorInside (d.rootBase + i) = true :=
    fun i hi => hd.sectorInside_eq (by rw [rootBase]; have := List.mem_range.mp hi; omega)
  rw [touchRoot_access, List.takeWhile_eq_self_iff.mpr hall, hm] at h
  split at h
  · next hfit => exact hhigh.trans (hfit m (List.mem_range.mpr (Nat.lt_succ_self m)))
  · cases h

section Loop
variable {size fileSize newCount : Nat}

/-- A pass from a buffer is a pass, and what it has copied was in the buffer. -/
theorem writePassWith_true {i oldValue : Nat} {w w' : Writing}
    (h : writePassWith (access size) fileSize newCount buf i oldValue w = .ok (true, w')) :
    writePass fileSize newCount buf i oldValue w = .ok (true, w') ∧
      w'.bytesWritten ≤ max w.bytesWritten size := by
  rw [writePassWith] at h
  obtain ⟨u, hassert, h⟩ := bind_ok.mp h
  obtain ⟨old, hread, h⟩ := bind_ok.mp h
  cases old with
  | none => cases h
  | some old =>
    obtain ⟨v, haccess, h⟩ := bind_ok.mp h
    obtain ⟨d2, hwrite, h⟩ := bind_ok.mp h
    cases d2 with
    | none => cases h
    | some d2 =>
      have hw : _ = w' := (Prod.mk.inj (Except.ok.inj h)).2
      constructor
      · rw [writePass_def, hassert, ok_bind]
        dsimp only
        rw [hread, ok_bind]
        dsimp only
        rw [hwrite, ok_bind]
        exact h
      · rw [← hw]
        refine (Nat.mod_le _ _).trans ?_
        rw [access] at haccess
        split at haccess
        · omega
        · cases haccess

theorem writeLoopWith_true {passes i : Nat} {w w' : Writing}
    (h : writeLoopWith (access size) fileSize newCount buf passes i w = .ok (true, w')) :
    writeLoop fileSize newCount buf passes i w = .ok (true, w') ∧
      w'.bytesWritten ≤ max w.bytesWritten size := by
  induction passes generalizing i w with
  | zero =>
    obtain rfl : w = w' := (Prod.mk.inj (Except.ok.inj h)).2
    exact ⟨rfl, Nat.le_max_left _ _⟩
  | succ passes ih =>
    rw [writeLoopWith] at h
    rw [writeLoop_succ]
    dsimp only at h ⊢
    by_cases hi : i ≥ newCount
    · rw [if_pos hi] at h ⊢
      exact ih h
    · rw [if_neg hi] at h ⊢
      obtain ⟨⟨ok, w1⟩, hpass, h⟩ := bind_ok.mp h
      cases ok with
      | false => cases h
      | true =>
        obtain ⟨hpass, hle⟩ := writePassWith_true hpass
        obtain ⟨hloop, hle'⟩ := ih h
        refine ⟨?_, by omega⟩
        rw [hpass, ok_bind]
        exact hloop

end Loop

theorem writeFileFrom_not_refused {size : Nat} (hroot : e.isRoot = false)
    (h : d.writeFileFrom size WALK_LIMIT e buf = .ok (true, d')) : refusesFile e = false := by
  rw [writeFileFrom, writeFileWith, hroot, if_neg Bool.false_ne_true] at h
  by_contra hok
  rw [Bool.not_eq_false] at hok
  rw [hok, if_pos rfl] at h
  cases h

/-- The file keeps none of its clusters, or its data were in the buffer and are in clusters now. -/
theorem writeFileFrom_true (hd : d.Sound) (hmark : d.EndMark d.getClusterNumberEOC)
    (hroot : e.isRoot = false) (hfirst : e.firstCluster ≠ 0) (h : d.Chain e.firstCluster.toNat l)
    (hrange : ∀ x ∈ l, x ∈ d.clusterNumbers) {n size : Nat}
    (hsize : d.getFileSize WALK_LIMIT e = .ok n) (hn : n < 4294967296)
    (hw : d.writeFileFrom size WALK_LIMIT e buf = .ok (true, d')) :
    d.bpb.clustersFor n ≤ d.countFreeClusters ∧
      (d.bpb.clustersFor n = 0 ∧ d.Touches l d' ∧ (∀ x ∈ l, d'.getCluster x = CLUSTER_FREE) ∨
        n ≤ size ∧ ∃ l', l'.length = d.bpb.clustersFor n ∧
          Wrote n buf d e.firstCluster.toNat 0 l l' d') := by
  have hok := writeFileFrom_not_refused hroot hw
  have hlen : l.length ≤ d.bpb.getClusterCount := by
    have hle := (Library.Chain.nodup h |>.subperm hrange).length_le
    rwa [clusterNumbers, List.length_range'] at hle
  rw [writeFileFrom, writeFileWith, hroot, hok, if_neg Bool.false_ne_true, if_neg Bool.false_ne_true, hsize,
    ok_bind] at hw
  dsimp only at hw
  rw [countClusters_eq hroot hfirst h (hlen.trans hd.count_le_limit), ok_bind,
    ← BiosParamBlock.clustersFor] at hw
  split at hw
  · cases hw
  rename_i hspace
  refine ⟨Nat.le_of_not_lt hspace, ?_⟩
  obtain ⟨⟨ok, w⟩, hloop, hw⟩ := bind_ok.mp hw
  cases ok with
  | false => cases hw
  | true =>
    obtain rfl : { w.disk with dirty := true } = d' := (Prod.mk.inj (Except.ok.inj hw)).2
    obtain ⟨hplain, hbytes⟩ := writeLoopWith_true hloop
    rcases Nat.eq_zero_or_pos (d.bpb.clustersFor n) with hzero | hpos
    · obtain ⟨d2, c', hfree, htouch, hall, -⟩ := writeLoop_free n 0 buf hd (.inr h) hrange
        (Nat.le_refl 0) 0
      rw [hzero, Nat.zero_max, hfree] at hplain
      obtain rfl : ⟨d2, c', 0⟩ = w := (Prod.mk.inj (Except.ok.inj hplain)).2
      refine .inl ⟨hzero, htouch.setDirty, fun x hx => ?_⟩
      rw [getCluster_setDirty, hall x hx]
    · obtain ⟨hnpos, hfit⟩ := (clustersFor_pos_iff d.clusterSize_pos hn).mp hpos
      obtain ⟨m, hm, hlow, hhigh⟩ := ceilDiv_bounds hnpos d.clusterSize_pos
      rw [← clustersFor_eq hfit] at hm
      have hroom : d.countFreeClusters ≤ l.length + (d.freeClusters \ l.toFinset).card := by
        have hcard := Finset.card_le_card_sdiff_add_card (s := d.freeClusters) (t := l.toFinset)
        have hle := l.toFinset_card_le
        rw [card_freeClusters] at hcard
        omega
      obtain ⟨d2, c', l', hdone, hlen', hwrote⟩ := writeLoop_writes n (m + 1) buf (b := 0) (i := 0) (m := m)
        hd hmark h hrange hn (by omega) (by omega) (by omega) (by omega)
      rw [hm, hdone] at hplain
      obtain rfl : ⟨d2, c', n⟩ = w := (Prod.mk.inj (Except.ok.inj hplain)).2
      refine .inr ⟨?_, l', hlen'.trans hm.symm, hwrote.setDirty⟩
      rwa [Nat.zero_max] at hbytes

/-! ## Directories of almost 4 GiB -/

/-- Where the size of a directory cannot be rounded up, `WriteFile` frees its clusters. -/
theorem DirAt.wraps (hd : d.Sound) (hmark : d.EndMark d.getClusterNumberEOC) (h : d.DirAt e l)
    (hne : l ≠ []) (hwrap : 4294967296 < l.length * d.bpb.getClusterSize + d.bpb.getClusterSize)
    {size : Nat} (hw : d.writeFileFrom size WALK_LIMIT e buf = .ok (true, d1)) :
    d.Touches l d1 ∧ ∀ x ∈ l, d1.getCluster x = CLUSTER_FREE := by
  obtain ⟨hfirst, hchain⟩ := h.chain hne
  have hbytes := h.fileSize hd
  rw [dirSize, if_neg hne] at hbytes
  have hzero : ¬ 0 < d.bpb.clustersFor (l.length * d.bpb.getClusterSize) := by
    rw [clustersFor_pos_iff d.clusterSize_pos (hchain.bytes_lt hd)]
    omega
  obtain ⟨-, ⟨-, hfreed⟩ | ⟨-, l', hlen, hwrote⟩⟩ := writeFileFrom_true hd hmark (h.not_root hne) hfirst
    (hchain.chain hd) hchain.2 hbytes (hchain.bytes_lt hd) hw
  · exact hfreed
  · have hpos := hwrote.chain.1.length_pos
    omega

/-- Writing the root directory leaves the FAT alone. -/
theorem writeFileFrom_root_next (hd : d.Sound) (h : d.DirAt e [])
    (hw : d.writeFileFrom (d.dirSize []) WALK_LIMIT e buf = .ok (true, d')) :
    d'.getCluster = d.getCluster := by
  have hplain := writeFileFrom_ok h.directory (h.allocSize hd) (dirSize_lt hd h) (Nat.le_refl _) hw
  rw [hd.writeFile_root WALK_LIMIT (h.isRoot_iff.mpr rfl)] at hplain
  rw [← (Prod.mk.inj (Except.ok.inj hplain)).2]
  exact getCluster_congr rfl rfl

/-- Two chains without a cluster in common are no longer than the volume. -/
theorem GoodChain.length_add_le {c c' : Nat} {l l' : List Nat} (h : d.GoodChain c l)
    (h' : d.GoodChain c' l') (hdisj : l.Disjoint l') :
    l.length + l'.length ≤ d.bpb.getClusterCount := by
  have hnodup : (l ++ l').Nodup := List.Nodup.append h.nodup h'.nodup hdisj
  have hsub : (l ++ l') ⊆ d.clusterNumbers := fun x hx =>
    (List.mem_append.mp hx).elim (h.2 x) (h'.2 x)
  have hle := (hnodup.subperm hsub).length_le
  rwa [List.length_append, clusterNumbers, List.length_range'] at hle

/-- So the sizes of both can be rounded up. -/
theorem GoodChain.rounds (hd : d.Sound) {c c' : Nat} {l l' : List Nat} (h : d.GoodChain c l)
    (h' : d.GoodChain c' l') (hdisj : l.Disjoint l') :
    l.length * d.bpb.getClusterSize + d.bpb.getClusterSize ≤ 4294967296 := by
  have hsum := h.length_add_le h' hdisj
  have hpos := h'.1.length_pos
  exact hd.rounds_of_lt (by omega)

/-- A directory that has lost its clusters gets no more than one back. -/
theorem DirAt.rewrapped (hd : d.Sound) (hmark : d.EndMark d.getClusterNumberEOC) (h : d.DirAt e l)
    (hne : l ≠ []) (htouch : d.Touches l d1) (hfree : ∀ x ∈ l, d1.getCluster x = CLUSTER_FREE)
    {size : Nat} (hw : d1.writeFileFrom size WALK_LIMIT e buf = .ok (true, d')) {c : Nat}
    (hkept : d'.GoodChain c l) : l.length = 1 := by
  obtain ⟨hfirst, hchain⟩ := h.chain hne
  have hroot := h.not_root hne
  have hlt := getClusterSize_lt d1.bpb
  have heoc : d1.Eoc (d1.getCluster e.firstCluster.toNat) := by
    rw [hfree _ hchain.head_mem]
    exact d1.eoc_zero
  have hone : d1.Chain e.firstCluster.toNat [e.firstCluster.toNat] := .last heoc
  have hbytes : d1.getFileSize WALK_LIMIT e = .ok d1.bpb.getClusterSize := by
    rw [getFileSize, if_pos h.directory, getFileAllocSize, hroot, h.usable hroot,
      if_neg Bool.false_ne_true, if_neg (by simpa using hfirst),
      countClusters_eq hroot hfirst hone (by rw [List.length_singleton]; decide), ok_bind,
      List.length_singleton, Nat.one_mul, u32_of_lt (by omega)]
    rfl
  have hcount : d1.bpb.clustersFor d1.bpb.getClusterSize = 1 := by
    have hwhole := wholeClusters_count (n := 1) d1.clusterSize_pos (by omega)
    rwa [Nat.one_mul] at hwhole
  obtain ⟨-, ⟨hzero, -⟩ | ⟨-, l', hlen, hwrote⟩⟩ := writeFileFrom_true (htouch.sound hd)
    (by
      rw [htouch.getClusterNumberEOC_eq hchain.2, endMark_congr htouch.bpb]
      exact hmark)
    hroot hfirst hone (fun x hx => by
      rw [List.mem_singleton.mp hx, clusterNumbers_congr htouch.bpb]
      exact hchain.head_range) hbytes (by omega) hw
  · rw [hcount] at hzero
    cases hzero
  · obtain rfl := hkept.head_eq hchain
    rw [hkept.unique hwrote.chain, hlen, hcount]

/-! ## What it takes to add an entry -/

section Needs
variable {path name : CString} {rest : List CString} {p : Place}

theorem AddsOne.ends (h : d.AddsOne host path l name) : ∃ r, d.createFile host path = .ok r := by
  by_cases hfree : ∃ i < d.dirSlots l, (d.dirEntry l i).isFree = true
  · obtain ⟨new, dir, d', i, hcreate, -⟩ := h.room hfree
    exact ⟨_, hcreate⟩
  · refine ⟨_, h.full fun i hi => ?_⟩
    exact Bool.eq_false_iff.mpr fun hslot => hfree ⟨i, hi, hslot⟩

theorem AddsOne.path_lt (h : d.AddsOne host path l name) : path.length < MAX_PATH := by
  by_contra hlong
  obtain ⟨r, hr⟩ := h.ends
  rw [createFile, if_pos (Nat.le_of_not_lt hlong)] at hr
  exact nomatch hr

variable (htokens : pathTokens path = name :: rest)
include htokens

theorem createFile_eq (hd : d.Sound) (hpath : path.length < MAX_PATH) (hfits : d.RootFits)
    (hleads : d.Leads host rest name rootDirEntry [] none p l) :
    d.createFile host path = d.createIn host p := by
  rw [createFile, if_neg (Nat.not_le_of_lt hpath), htokens]
  dsimp only
  rw [hleads.createWalk hd hfits dirAt_root]
  rfl

/-- The table of the root directory is read in every run. -/
theorem AddsOne.root_fits (hd : d.Sound) (h : d.AddsOne host path l p.name) : d.RootFits := by
  by_contra hfits
  obtain ⟨r, hr⟩ := h.ends
  have hread : d.readFileInto (d.dirSize []) WALK_LIMIT rootDirEntry = .error .fault := by
    rw [readFileInto_root rootDirEntry_isRoot, dirSize, if_pos rfl, rootCapacity,
      not_not.mp fun hc => hfits (touchRoot_iff.mp (touchRoot_contained_iff.mp hc))]
    rfl
  have hlook : d.lookIn host name rootDirEntry = .error .fault := by
    rw [lookIn, dirAt_root.allocSize hd, ok_bind, hread]
    rfl
  have hwalk : d.createWalk host rest name rootDirEntry none = .error .fault := by
    cases rest with
    | nil =>
      rw [createWalk, hlook]
      rfl
    | cons next path =>
      rw [createWalk, hlook]
      rfl
  rw [createFile, if_neg (Nat.not_le_of_lt h.path_lt), htokens] at hr
  dsimp only at hr
  rw [hwalk] at hr
  cases hr

/-- Where no slot is free, the new entry is stored behind the table. -/
theorem AddsOne.has_slot (ht : d.Tree) (hleads : d.Leads host rest name rootDirEntry [] none p l)
    (hp : d.PlaceAt host p l) (h : d.AddsOne host path l p.name) :
    ∃ i < d.dirSlots l, (d.dirEntry l i).isFree = true := by
  by_contra hnone
  have hused : ∀ i < d.dirSlots l, (d.dirEntry l i).isFree = false := fun i hi =>
    Bool.eq_false_iff.mpr fun hslot => hnone ⟨i, hi, hslot⟩
  have hfull := h.full hused
  have hslot : slotFor p.table (p.size / DIR_ENTRY_SIZE) = d.dirSlots l := by
    rw [hp.size, dirSize_div, hp.table]
    exact slotFor_full fun i hi => by rw [entryAt_tableIn host hi, hused i hi]
  have hend : d.dirSize l < DIR_ENTRY_SIZE * d.dirSlots l + DIR_ENTRY_SIZE := by
    rw [← dirSize_div, ← Nat.mul_succ]
    exact Nat.lt_mul_div_succ _ (by decide)
  rw [createFile_eq htokens ht.sound h.path_lt (h.root_fits htokens ht.sound) hleads, createIn, hslot, hp.size,
    access_fault (by decide) hend] at hfull
  cases hfull

/-- The two writes that the new entry takes. -/
theorem AddsOne.writes (ht : d.Tree) (hleads : d.Leads host rest name rootDirEntry [] none p l)
    (hp : d.PlaceAt host p l) (h : d.AddsOne host path l p.name) {k : Nat}
    (hk : slotFor p.table (p.size / DIR_ENTRY_SIZE) = k) :
    ∃ new d1 d' i, d.writeFileFrom (d.dirSize l) WALK_LIMIT (p.dir.touch new)
        (tableWith p.table k new (p.dir.touch new)) = .ok (true, d1) ∧
      d1.writeParent host p (p.dir.touch new) (tableWith p.table k new (p.dir.touch new)) =
        .ok (true, d') ∧ d.AddsEntry host.now l p.name d' i new := by
  obtain ⟨new, dir, d', i, hcreate, hadds⟩ := h.room (h.has_slot htokens ht hleads hp)
  rw [createFile_eq htokens ht.sound h.path_lt (h.root_fits htokens ht.sound) hleads] at hcreate
  obtain ⟨d1, h1, h2⟩ := createIn_some hk hadds.named hcreate
  rw [hp.size] at h1
  exact ⟨new, d1, d', i, h1, h2, hadds⟩

end Needs

/-- A file whose entry is written with the new time stamps had them. -/
theorem AddsEntry.first_kept {now : Tm} {name : CString} {new : DirEntry} {i : Nat}
    (hadds : d.AddsEntry now l name d' i new) (hl : d.IsDir l) (hpos : 0 < d.dirSlots l)
    (hb : Bystander (d.dirEntry l 0)) (hentry : d'.dirEntry l 0 = (d.dirEntry l 0).touch new) :
    (d.dirEntry l 0).touch (DirEntry.init now) = d.dirEntry l 0 := by
  obtain ⟨-, -, -, -, htouch⟩ := new_eq hadds.named
  have hne : ¬ (l = l ∧ 0 = i) := by
    rintro ⟨-, rfl⟩
    exact absurd hadds.slot.2 (by rw [hb.1]; exact Bool.false_ne_true)
  rw [← htouch, ← hentry]
  exact (hadds.others l hl 0 hpos hne).resolve_right fun h => h.1 hb

/-! ## What the second write in the root directory stores -/

section Second
variable {now : Tm} {name : CString} {new : DirEntry} {i size : Nat} {table : Buffer} (ht : d.Tree)
  (hwrote : d.WroteDir [] table d1) (hadds : d.AddsEntry now [] name d' i new)
  (h2 : d1.writeFileFrom size WALK_LIMIT ((d.dirEntry [] 0).touch new) buf = .ok (true, d'))
include ht hwrote hadds h2

/-- Under an entry of a directory without clusters, the table of the root directory. -/
theorem AddsEntry.alike_root (hroot : (d.dirEntry [] 0).isRoot = true) (hfits : d.RootFits) :
    d.StoresAlike now name (d.dirEntry [] 0) size buf := by
  have hzero := hroot
  rw [DirEntry.isRoot, Bool.and_eq_true, beq_iff_eq] at hzero
  have hat : d.DirAt ((d.dirEntry [] 0).touch new) [] := by
    refine ⟨?_, hzero.1, fun h => ?_⟩
    · rw [Clusters, if_pos]
      exact hzero.2
    · rw [show ((d.dirEntry [] 0).touch new).isRoot = true from hroot] at h
      cases h
  have hsize : d.dirSize [] ≤ size := by
    have hw := h2
    rw [writeFileFrom_root (show ((d.dirEntry [] 0).touch new).isRoot = true from hroot)] at hw
    obtain ⟨_, htouch, _⟩ := bind_ok.mp hw
    rw [← dirSize_congr hwrote.bpb]
    exact root_size (hwrote.sound ht.sound) htouch
  obtain ⟨d2, hwrite, hagain⟩ := hwrote.again ht.sound ht.mark hfits hat (.inl rfl) (Nat.zero_le _)
    hsize buf
  obtain rfl : d2 = d' := (Prod.mk.inj (Except.ok.inj (hwrite.symm.trans h2))).2
  have htable := (hwrote.trans hagain).table
  rw [StoresAlike, if_pos hroot]
  refine ⟨hsize, i, hadds.slot.1, hadds.slot.2, ?_, fun j hj hne => ?_⟩
  · rw [← htable i hadds.slot.1, hadds.entry]
    exact hadds.named
  · rw [← htable j hj]
    exact hadds.others [] .root j hj fun h => hne h.2

variable {f : List Nat}

/-- Under an entry with clusters, the number of these. -/
theorem AddsEntry.second_wrote (hpos : 0 < d.dirSlots []) (hroot : (d.dirEntry [] 0).isRoot = false)
    (hf : d.Clusters (d.dirEntry [] 0) f) (hne : f ≠ []) {n : Nat}
    (hbytes : d1.getFileSize WALK_LIMIT ((d.dirEntry [] 0).touch new) = .ok n) (hn : n < 4294967296) :
    n ≤ size ∧ d.bpb.clustersFor n = f.length ∧ f.length ≤ d.countFreeClusters ∧ d1.Touches f d' ∧
      ((f.map d'.content).flatten).take n = slice buf 0 n := by
  have hvalid : (d.dirEntry [] 0).isValidFile = true :=
    valid_of_not_refused (writeFileFrom_not_refused hroot h2)
  have hd1 := hwrote.sound ht.sound
  have hmark : d1.EndMark d1.getClusterNumberEOC := by
    rw [hwrote.mark, endMark_congr hwrote.bpb]
    exact ht.mark
  obtain ⟨hfirst, hchain⟩ := (hwrote.clusters _ f hf (.inr (List.disjoint_nil_right f))).good hne
  obtain ⟨-, hkept⟩ := (hadds.chains [] .root 0 hpos hvalid f hf).good hne
  obtain ⟨hspace, ⟨-, -, hfreed⟩ | ⟨hsize, l, hlen, hdone⟩⟩ := writeFileFrom_true hd1 hmark hroot hfirst
    (hchain.chain hd1) hchain.2 hbytes hn h2
  · have hused := GoodChain.not_free hkept hkept.head_mem
    rw [isClusterFree, hfreed _ hkept.head_mem] at hused
    cases hused
  · obtain rfl : f = l := hkept.unique hdone.chain
    rw [hwrote.bpb] at hlen hspace
    rw [hwrote.free, ← hlen] at hspace
    have hdata := hdone.data
    rw [Nat.sub_zero] at hdata
    exact ⟨hsize, hlen.symm, hspace, hdone.touches.mono (by simp), hdata⟩

/-- Under the entry of another directory, a table like that one's. -/
theorem AddsEntry.alike_directory (hpos : 0 < d.dirSlots [])
    (hroot : (d.dirEntry [] 0).isRoot = false) (hdir : (d.dirEntry [] 0).isDirectory = true) :
    d.StoresAlike now name (d.dirEntry [] 0) size buf := by
  have hok : refusesFile (d.dirEntry [] 0) = false := writeFileFrom_not_refused hroot h2
  have hvalid := valid_of_not_refused hok
  obtain ⟨f, hf⟩ := ht.clusters [] .root 0 hpos hvalid
  have hat : d.DirAt (d.dirEntry [] 0) f := ⟨hf, hdir, fun _ => hvalid⟩
  have hne : f ≠ [] := fun hnil => by
    rw [hat.isRoot_iff.mpr hnil] at hroot
    cases hroot
  have hat1 : d1.DirAt ((d.dirEntry [] 0).touch new) f :=
    ⟨hwrote.clusters _ f hf (.inr (List.disjoint_nil_right f)), hdir, fun _ => hvalid⟩
  have hbytes := hat1.fileSize (hwrote.sound ht.sound)
  rw [dirSize_congr hwrote.bpb] at hbytes
  obtain ⟨hsize, hcount, hspace, htouch, hdata⟩ := hadds.second_wrote ht hwrote h2 hpos hroot hf hne
    hbytes (dirSize_lt ht.sound hat)
  rw [StoresAlike, hroot, if_neg Bool.false_ne_true]
  refine ⟨hok, f, d.dirSize f, hf, hat.fileSize ht.sound, hsize, hcount, hspace, ?_⟩
  rw [if_pos hdir]
  intro j hj
  have hbpb : d'.bpb = d.bpb := htouch.bpb.trans hwrote.bpb
  rw [dirSize, if_neg hne, List.take_of_length_le (by rw [content_flatten_length, hbpb])] at hdata
  rw [← dirEntry_of_data hne hdata hj]
  exact hadds.others f (.sub .root hpos hvalid hdir hf) j hj fun h => hne h.1

/-- Under the entry of a file, the data of that file. -/
theorem AddsEntry.alike_file (hpos : 0 < d.dirSlots []) (hused : (d.dirEntry [] 0).isFree = false)
    (hentry : d1.dirEntry [] 0 = (d.dirEntry [] 0).touch new)
    (hdir : (d.dirEntry [] 0).isDirectory = false) :
    d.StoresAlike now name (d.dirEntry [] 0) size buf := by
  have hroot : (d.dirEntry [] 0).isRoot = false := by
    rw [DirEntry.isRoot, hdir, Bool.false_and]
  have hok : refusesFile (d.dirEntry [] 0) = false := writeFileFrom_not_refused hroot h2
  have hvalid := valid_of_not_refused hok
  have hregular : (d.dirEntry [] 0).Regular := ⟨hvalid, hdir⟩
  obtain ⟨f, hf⟩ := ht.clusters [] .root 0 hpos hvalid
  have hpos1 : 0 < d1.dirSlots [] := by
    rwa [dirSlots_congr hwrote.bpb]
  have hd1 := hwrote.sound ht.sound
  have hbystander : Bystander (d.dirEntry [] 0) := by
    have hlabel := hvalid
    rw [DirEntry.isValidFile, Bool.and_eq_true, Bool.not_eq_true'] at hlabel
    exact ⟨hused, .inr ⟨hdir, hlabel.2⟩⟩
  rw [StoresAlike, hroot, if_neg Bool.false_ne_true]
  refine ⟨hok, f, (d.dirEntry [] 0).fileSize.toNat, hf, by
    rw [getFileSize, hdir, if_neg Bool.false_ne_true], ?_⟩
  rw [hdir, if_neg Bool.false_ne_true]
  by_cases hnil : f = []
  · subst hnil
    have hzero := hf.first_eq_zero
    have hsize := size_of_not_refused hok hzero
    have hempty : d1.writeFileFrom size WALK_LIMIT ((d.dirEntry [] 0).touch new) buf = _ :=
      writeFileFrom_empty ⟨hvalid, hdir⟩ hzero hsize size buf
    obtain rfl : ({ d1 with dirty := true } : FatDisk) = d' :=
      (Prod.mk.inj (Except.ok.inj (hempty.symm.trans h2))).2
    have hkept := (unchanged_dirty d1).dirEntry (l := []) (fun x hx => absurd hx List.not_mem_nil) hpos1
    have hnone : ¬ 0 < d.bpb.clustersFor 0 := by
      rw [clustersFor_pos_iff d.clusterSize_pos (by decide)]
      omega
    rw [hsize]
    exact ⟨Nat.zero_le _, Nat.eq_zero_of_not_pos hnone, Nat.zero_le _,
      hadds.first_kept .root hpos hbystander (hkept.trans hentry), rfl⟩
  · have hbytes : d1.getFileSize WALK_LIMIT ((d.dirEntry [] 0).touch new) =
        .ok (d.dirEntry [] 0).fileSize.toNat := by
      rw [getFileSize, show ((d.dirEntry [] 0).touch new).isDirectory = false from hdir,
        if_neg Bool.false_ne_true]
      rfl
    obtain ⟨hsize, hcount, hspace, htouch, hdata⟩ := hadds.second_wrote ht hwrote h2 hpos hroot hf hnil
      hbytes (d.dirEntry [] 0).fileSize.isLt
    have hkept := dirEntry_congr (l := []) htouch.bpb htouch.low (fun x hx => absurd hx List.not_mem_nil) hpos1
    have hread := hadds.contents [] .root 0 hpos hregular
    have hd' := htouch.sound hd1
    rw [readFile_chain ht.sound hroot hok (hf.good hnil).2 ht.sound.count_le_limit,
      readFile_chain hd' hroot hok ((hadds.chains [] .root 0 hpos hvalid f hf).good hnil).2
        hd'.count_le_limit] at hread
    rw [Option.some.inj (Except.ok.inj hread)] at hdata
    exact ⟨hsize, hcount, hspace, hadds.first_kept .root hpos hbystander (hkept.trans hentry), hdata⟩

end Second

/-! ## In the root directory -/

section Writes
variable {p : Place} {new : DirEntry} {i k : Nat} (ht : d.Tree) (hp : d.PlaceAt host p l)
  (hfits : d.RootFits) (hfree : ∃ i < d.dirSlots l, (d.dirEntry l i).isFree = true)
  (hk : slotFor p.table (p.size / DIR_ENTRY_SIZE) = k)
  (h1 : d.writeFileFrom (d.dirSize l) WALK_LIMIT (p.dir.touch new)
    (tableWith p.table k new (p.dir.touch new)) = .ok (true, d1))
  (h2 : d1.writeParent host p (p.dir.touch new) (tableWith p.table k new (p.dir.touch new)) =
    .ok (true, d'))
  (hadds : d.AddsEntry host.now l p.name d' i new)
include ht hp hfree hk hadds

omit ht in
/-- An entry in use is not where the new one is. -/
theorem AddsEntry.slots {j : Nat} (hused : (d.dirEntry l j).isFree = false) : j ≠ k ∧ j ≠ i := by
  constructor
  · rintro rfl
    rw [(hp.slot hk hfree).2] at hused
    cases hused
  · rintro rfl
    rw [hadds.slot.2] at hused
    cases hused

include h1 h2 hfits

/-- Where the second write succeeds under the first entry, it leaves the same tree only if it stores
what is there. -/
theorem AddsEntry.rootMayGrow (hl : l = []) : d.RootMayGrow host p := by
  rw [RootMayGrow, or_iff_not_imp_left]
  intro hused
  rw [Bool.not_eq_true] at hused
  obtain ⟨-, -, -, -, htouch⟩ := new_eq hadds.named
  rw [hp.writeParent_root hl] at h2
  subst hl
  rw [← htouch p.dir]
  obtain ⟨hk0, hi0⟩ := hadds.slots hp hfree hk hused
  have hpos : 0 < d.dirSlots [] := by
    obtain ⟨j, hj, -⟩ := hfree
    omega
  obtain ⟨d2, hwrite, hwrote⟩ := (hp.known.touch new).writeFileFrom ht.sound ht.mark (fun _ => hfits)
    (Nat.zero_le _) (Nat.le_refl _) (tableWith p.table k new (p.dir.touch new))
  obtain rfl : d2 = d1 := (Prod.mk.inj (Except.ok.inj (hwrite.symm.trans h1))).2
  have hentry : entryAt (tableWith p.table k new (p.dir.touch new)) 0 = (d.dirEntry [] 0).touch new := by
    rw [hp.entryAt_written hpos, if_neg hk0, if_pos rfl]
  have hfirst : d2.dirEntry [] 0 = (d.dirEntry [] 0).touch new := by
    rw [hwrote.table 0 hpos, hentry]
  rw [hentry] at h2
  refine if hroot : (d.dirEntry [] 0).isRoot = true then hadds.alike_root ht hwrote h2 hroot hfits
    else ?_
  rw [Bool.not_eq_true] at hroot
  cases hdir : (d.dirEntry [] 0).isDirectory with
  | true => exact hadds.alike_directory ht hwrote h2 hpos hroot hdir
  | false => exact hadds.alike_file ht hwrote h2 hpos hused hfirst hdir

/-! ## Below the root directory -/

omit hfits hfree hk in
/-- A directory that is too large to be rounded up is not written but loses its clusters. -/
theorem AddsEntry.rounds (hl : l ≠ []) :
    l.length * d.bpb.getClusterSize + d.bpb.getClusterSize ≤ 4294967296 := by
  by_contra hround
  have hwrap := Nat.lt_of_not_le hround
  obtain ⟨o, lo, ho, hlo⟩ := hp.outer_of_sub hl
  obtain ⟨htouch, hlost⟩ := (hp.known.touch new).wraps ht.sound ht.mark hl hwrap h1
  have hdir := hp.known.directory
  have hentry := hlo.entry
  have hsub := hadds.chains lo hlo.isDir o.slot hlo.slot (by rw [hentry]; exact hlo.valid) l
    (by rw [hentry]; exact hp.known.clusters)
  rw [hentry] at hsub
  have hkept := hsub
  rw [Clusters, if_neg (hp.known.chain hl).1] at hkept
  rw [writeParent, ho] at h2
  dsimp only at h2
  rw [(hp.known.touch new).not_root hl, if_neg Bool.false_ne_true, hlo.size] at h2
  rcases ht.apart lo l hlo.isDir hp.isDir with rfl | hdisj
  · have hone := hlo.known.rewrapped ht.sound ht.mark hl htouch hlost h2 hkept
    have hlt := getClusterSize_lt d.bpb
    rw [hone, Nat.one_mul] at hwrap
    omega
  · by_cases hnil : lo = []
    · subst hnil
      have hroot : d1.DirAt o.dir [] := by
        have hfirst := hlo.known.isRoot_iff.mpr rfl
        rw [DirEntry.isRoot, hlo.known.directory, Bool.true_and, beq_iff_eq] at hfirst
        refine ⟨?_, hlo.known.directory, hlo.known.usable⟩
        rw [Clusters, if_pos hfirst]
      rw [← dirSize_congr htouch.bpb] at h2
      have hnext := writeFileFrom_root_next (htouch.sound ht.sound) hroot h2
      have hused := GoodChain.not_free hkept hkept.head_mem
      rw [isClusterFree, hnext, hlost _ hkept.head_mem] at hused
      cases hused
    · exact hround ((hp.known.chain hl).2.rounds ht.sound (hlo.known.chain hnil).2 hdisj.symm)

/-- Below the root, both directories are written back, and the second write stores another table. -/
theorem AddsEntry.mayGrow (hl : l ≠ []) : d.MayGrow host.now p l := by
  obtain ⟨hused, -, -, -, -⟩ := new_eq hadds.named
  have hround := hadds.rounds ht hp h1 h2 hl
  have hspace : l.length ≤ d.countFreeClusters := by
    by_contra hlack
    have hfail := (hp.known.touch new).lacksSpace ht.sound hl (Nat.lt_of_not_le hlack) hround
      (d.dirSize l) (tableWith p.table k new (p.dir.touch new))
    rw [hfail] at h1
    cases h1
  obtain ⟨d2, hwrite, hwrote⟩ := (hp.known.touch new).writeFileFrom ht.sound ht.mark (fun _ => hfits)
    hspace (Nat.le_refl _) (tableWith p.table k new (p.dir.touch new))
  obtain rfl : d2 = d1 := (Prod.mk.inj (Except.ok.inj (hwrite.symm.trans h1))).2
  obtain ⟨o, lo, ho, hlo⟩ := hp.outer_of_sub hl
  rw [writeParent, ho] at h2
  dsimp only at h2
  rw [(hp.known.touch new).not_root hl, if_neg Bool.false_ne_true, hlo.size] at h2
  have hapart := ht.apart lo l hlo.isDir hp.isDir
  have hsecond : lo.length ≤ d.countFreeClusters →
      d2.WroteDir lo (storeEntry o.table o.slot (p.dir.touch new)) d' := by
    intro hroom
    obtain ⟨d3, hwrite', hwrote'⟩ := hwrote.again ht.sound ht.mark hfits hlo.known hapart hroom
      (Nat.le_refl _) (storeEntry o.table o.slot (p.dir.touch new))
    obtain rfl : d3 = d' := (Prod.mk.inj (Except.ok.inj (hwrite'.symm.trans h2))).2
    exact hwrote'
  have hne : lo ≠ l := by
    rintro rfl
    have hlost := (hsecond hspace).table i (by rw [dirSlots_congr hwrote.bpb]; exact hadds.slot.1)
    have hslot : i ≠ o.slot := by
      rintro rfl
      have hvalid := hlo.valid
      rw [DirEntry.isValidFile, ← hlo.entry, hadds.slot.2] at hvalid
      cases hvalid
    rw [hadds.entry, entryAt_storeEntry, if_neg hslot, hlo.table, entryAt_tableIn host hadds.slot.1]
      at hlost
    rw [hlost, hadds.slot.2] at hused
    cases hused
  have hroom : lo.length ≤ d.countFreeClusters := by
    by_cases hnil : lo = []
    · rw [hnil]
      exact Nat.zero_le _
    by_contra hlack
    have hat : d2.DirAt o.dir lo :=
      ⟨hwrote.clusters _ lo hlo.known.clusters hapart, hlo.known.directory, hlo.known.usable⟩
    have hfail := hat.lacksSpace (hwrote.sound ht.sound) hnil
      (by rw [hwrote.free]; exact Nat.lt_of_not_le hlack)
      (by
        rw [hwrote.bpb]
        exact (hlo.known.chain hnil).2.rounds ht.sound (hp.known.chain hl).2 (hapart.resolve_left hne))
      (d.dirSize lo) (storeEntry o.table o.slot (p.dir.touch new))
    rw [hfail] at h2
    cases h2
  have hpos : 0 < d.dirSlots l := by
    have := hadds.slot.1
    omega
  refine ⟨hspace, fun o' ho' l' hl' => ?_, fun hb => hadds.first_kept hp.isDir hpos hb ?_⟩
  · rw [ho] at ho'
    cases ho'
    obtain rfl := hlo.known.clusters.unique hl'
    exact ⟨hroom, hne⟩
  · have hrange : ∀ x ∈ l, x ∈ d2.clusterNumbers := by
      rw [clusterNumbers_congr hwrote.bpb]
      exact hp.isDir.range
    rw [(hsecond hroom).others l hrange (hapart.resolve_left hne).symm hne.symm 0
      (by rwa [dirSlots_congr hwrote.bpb]), hwrote.table 0 hpos, hp.entryAt_written hpos,
      if_neg (hadds.slots hp hfree hk hb.1).1, if_pos rfl]

end Writes

/-! ## When `CreateFile` adds one entry -/

/-- **`CreateFile`.** Where the path leads to a directory of the tree without an entry of the last
name, which is a valid one, exactly one entry is added, or none where no slot is free, if and only if
the directory can be written and its entry written back. -/
theorem create_file_iff (d : FatDisk) (ht : d.Tree) (host : Host) (path name : CString)
    (rest : List CString) (htokens : pathTokens path = name :: rest) (p : Place) (l : List Nat)
    (hleads : d.Leads host rest name rootDirEntry [] none p l) (label : Vector Byte 11)
    (hname : shortLabel p.name = some label) :
    d.AddsOne host path l p.name ↔ d.Creatable host path p l := by
  have hp : d.PlaceAt host p l := hleads.placeAt dirAt_root .root (fun _ => rfl) nofun
  constructor
  · intro h
    have hfits := h.root_fits htokens ht.sound
    have hfree := h.has_slot htokens ht hleads hp
    obtain ⟨new, d1, d', i, h1, h2, hadds⟩ := h.writes htokens ht hleads hp rfl
    refine ⟨h.path_lt, hfits, hfree, ?_⟩
    by_cases hl : l = []
    · rw [if_pos hl]
      exact hadds.rootMayGrow ht hp hfits hfree rfl h1 h2 hl
    · rw [if_neg hl]
      exact hadds.mayGrow ht hp hfits hfree rfl h1 h2 hl
  · intro hc
    have hnew : ((DirEntry.init host.now).setAttribute ATTR_ARCHIVE).setShortName p.name =
        some { (DirEntry.init host.now).setAttribute ATTR_ARCHIVE with label := label } := by
      rw [DirEntry.setShortName, hname]
      rfl
    obtain ⟨dir, d', i, hcreate, hadds⟩ := hc.createIn ht hp hnew
    refine ⟨fun _ => ⟨_, dir, d', i, ?_, hadds⟩, fun hfull => ?_⟩
    · rw [createFile_eq htokens ht.sound hc.path hc.root hleads]
      exact hcreate
    · obtain ⟨j, hj, hslot⟩ := hc.free
      rw [hfull j hj] at hslot
      cases hslot

/-- With nothing but empty files in the root directory, there is no other directory. -/
theorem tree_of_empty_files {d : FatDisk} (hd : d.Sound) (hmark : d.EndMark d.getClusterNumberEOC)
    (h : ∀ i < d.dirSlots [], (d.dirEntry [] i).isValidFile = true →
      (d.dirEntry [] i).isDirectory = false ∧ (d.dirEntry [] i).firstCluster = 0) : d.Tree := by
  have honly : ∀ l, d.IsDir l → l = [] := by
    intro l hl
    induction hl with
    | root => rfl
    | sub _ hi hvalid hdir _ ih =>
      subst ih
      rw [(h _ hi hvalid).1] at hdir
      cases hdir
  have hnone : ∀ i < d.dirSlots [], (d.dirEntry [] i).isValidFile = true →
      d.Clusters (d.dirEntry [] i) [] := by
    intro i hi hvalid
    rw [Clusters, if_pos (h i hi hvalid).2]
  refine ⟨hd, hmark, fun l hl i hi hvalid => ?_, fun l l' hl hl' => ?_,
    fun l l' hl _ i hi hregular f hf => ?_⟩
  · obtain rfl := honly l hl
    exact ⟨[], hnone i hi hvalid⟩
  · exact .inl ((honly l hl).trans (honly l' hl').symm)
  · obtain rfl := honly l hl
    rw [hf.unique (hnone i hi hregular.valid)]
    exact List.disjoint_nil_left l'

/-- With nothing but an empty directory in the root directory, there is no third one. -/
theorem tree_of_empty_directory {d : FatDisk} (hd : d.Sound) (hmark : d.EndMark d.getClusterNumberEOC)
    {c : Nat} (hc : d.GoodChain c [c])
    (hroot : ∀ i < d.dirSlots [], (d.dirEntry [] i).isValidFile = true →
      (d.dirEntry [] i).isDirectory = true ∧ (d.dirEntry [] i).firstCluster.toNat = c)
    (hempty : ∀ i < d.dirSlots [c], (d.dirEntry [c] i).isFree = true) : d.Tree := by
  have hvalid : ∀ i < d.dirSlots [c], (d.dirEntry [c] i).isValidFile = false := by
    intro i hi
    rw [DirEntry.isValidFile, hempty i hi]
    rfl
  have hchain : ∀ i < d.dirSlots [], (d.dirEntry [] i).isValidFile = true →
      d.Clusters (d.dirEntry [] i) [c] := by
    intro i hi hv
    have hfirst := (hroot i hi hv).2
    rw [Clusters, if_neg (first_ne_zero (by rw [hfirst]; exact hc.head_range)), hfirst]
    exact hc
  have hdirs : ∀ l, d.IsDir l → l = [] ∨ l = [c] := by
    intro l hl
    induction hl with
    | root => exact .inl rfl
    | sub _ hi hv _ hclusters ih =>
      rcases ih with rfl | rfl
      · exact .inr (hclusters.unique (hchain _ hi hv))
      · rw [hvalid _ hi] at hv
        cases hv
  refine ⟨hd, hmark, fun l hl i hi hv => ?_, fun l l' hl hl' => ?_,
    fun l l' hl _ i hi hregular f hf => ?_⟩
  · rcases hdirs l hl with rfl | rfl
    · exact ⟨[c], hchain i hi hv⟩
    · rw [hvalid i hi] at hv
      cases hv
  · rcases hdirs l hl with rfl | rfl
    · exact .inr (List.disjoint_nil_left l')
    · rcases hdirs l' hl' with rfl | rfl
      · exact .inr (List.disjoint_nil_right _)
      · exact .inl rfl
  · have hv := hregular.valid
    rcases hdirs l hl with rfl | rfl
    · have hdir := hregular.not_directory
      rw [(hroot i hi hv).1] at hdir
      cases hdir
    · rw [hvalid i hi] at hv
      cases hv

end FatDisk

/-- The root directory of `d`, with a name to be added to it. -/
def rootPlace (d : FatDisk) (name : CString) : Place :=
  ⟨rootDirEntry, d.dirSize [], d.tableIn plainHost [], none, name⟩

/-- The entry of a directory `A` of one cluster. -/
def directoryEntry : DirEntry :=
  { DirEntry.zero with
    label := writeFatString [0x41] LABEL_LENGTH
    attributes := ATTR_DIRECTORY
    firstCluster := 2 }

/-- A disk with an empty directory and two free clusters. -/
def directoryDisk : FatDisk :=
  { blankDisk 0xFFF with
    fat := fun i => [0xF0, 0xFF, 0xFF, 0xFF, 0x0F].getD i 0
    file := overlay (fun _ => 0) 1024 directoryEntry.bytes }

theorem directoryDisk_empty : ∀ i < directoryDisk.dirSlots [2],
    (directoryDisk.dirEntry [2] i).isFree = true := by
  decide +kernel

theorem directoryDisk_tree : directoryDisk.Tree :=
  FatDisk.tree_of_empty_directory ⟨rfl, by decide, by decide, by decide⟩ (by decide)
    ⟨.last (by decide), by decide⟩ (by decide) directoryDisk_empty

/-- The directory, with a name to be added to it. -/
def directoryPlace (name : CString) : Place :=
  ⟨directoryEntry, directoryDisk.dirSize [2], directoryDisk.tableIn plainHost [2],
    some ⟨rootDirEntry, directoryDisk.dirSize [], directoryDisk.tableIn plainHost [], 0⟩, name⟩

/-- The file `A/B`. -/
theorem create_file_below :
    directoryDisk.AddsOne plainHost [0x41, 0x2F, 0x42] [2] [0x42] := by
  have hentry : directoryDisk.dirEntry [] 0 = directoryEntry := by decide
  have hclusters : directoryDisk.Clusters directoryEntry [2] := ⟨.last (by decide), by decide⟩
  have hleads : directoryDisk.Leads plainHost [[0x42]] [0x41] rootDirEntry [] none
      (directoryPlace [0x42]) [2] := by
    refine .down (k := 0) (by decide +kernel) (by decide) (by decide) (hentry ▸ hclusters) ?_
    rw [hentry]
    exact .leaf (by decide +kernel)
  refine (FatDisk.create_file_iff directoryDisk directoryDisk_tree plainHost [0x41, 0x2F, 0x42] [0x41]
    [[0x42]] rfl (directoryPlace [0x42]) [2] hleads _ rfl).mpr
    ⟨by decide, by decide, ⟨0, by decide, directoryDisk_empty 0 (by decide)⟩, ?_⟩
  refine ⟨by decide, fun o ho l hl => ?_, fun hb => ?_⟩
  · obtain rfl := Option.some.inj ho
    obtain rfl : l = [] := hl
    decide
  · rw [FatDisk.Bystander, directoryDisk_empty 0 (by decide)] at hb
    cases hb.1

/-- The volume label, as `CreateNew` makes it. -/
def volumeLabel : DirEntry :=
  { DirEntry.zero with label := writeFatString [0x41] LABEL_LENGTH, attributes := ATTR_LABEL }

/-- A disk with nothing but a label. -/
def labelledDisk : FatDisk :=
  { blankDisk 0xFFF with file := overlay (fun _ => 0) 1024 volumeLabel.bytes }

theorem labelledDisk_tree : labelledDisk.Tree :=
  FatDisk.tree_of_empty_files ⟨rfl, by decide, by decide, by decide⟩ (by decide) (by decide)

theorem labelledDisk_leads : labelledDisk.Leads plainHost [] [0x42] rootDirEntry [] none
    (rootPlace labelledDisk [0x42]) [] :=
  .leaf (by decide +kernel)

/-- A disk with an empty file in each slot of the root directory. -/
def crowdedDisk : FatDisk :=
  { blankDisk 0xFFF with
    file := fun a =>
      ({ DirEntry.zero with label := writeFatString [0x41] 11 }.bytes[a % DIR_ENTRY_SIZE]?).getD 0 }

theorem crowdedDisk_tree : crowdedDisk.Tree :=
  FatDisk.tree_of_empty_files ⟨rfl, by decide, by decide, by decide⟩ (by decide) (by decide)

theorem crowdedDisk_leads : crowdedDisk.Leads plainHost [] [0x42] rootDirEntry [] none
    (rootPlace crowdedDisk [0x42]) [] :=
  .leaf (by decide +kernel)

/-- Below a label, `CreateFile` fails once the entry has been written. Where all slots are in use, it
leaves the table. -/
theorem create_file_fails :
    labelledDisk.Tree ∧ labelledDisk.Leads plainHost [] [0x42] rootDirEntry [] none
        (rootPlace labelledDisk [0x42]) [] ∧
      ¬ labelledDisk.AddsOne plainHost [0x42] [] [0x42] ∧
    crowdedDisk.Tree ∧ crowdedDisk.Leads plainHost [] [0x42] rootDirEntry [] none
        (rootPlace crowdedDisk [0x42]) [] ∧
      ¬ crowdedDisk.AddsOne plainHost [0x42] [] [0x42] := by
  refine ⟨labelledDisk_tree, labelledDisk_leads, fun h => ?_, crowdedDisk_tree, crowdedDisk_leads,
    fun h => ?_⟩
  · have hp := labelledDisk_leads.placeAt FatDisk.dirAt_root .root (fun _ => rfl) nofun
    have htokens : pathTokens [0x42] = [0x42] :: [] := rfl
    obtain ⟨new, d1, d', i, h1, h2, hadds⟩ := h.writes htokens labelledDisk_tree labelledDisk_leads hp rfl
    rcases hadds.rootMayGrow labelledDisk_tree hp (by decide)
      (h.has_slot htokens labelledDisk_tree labelledDisk_leads hp) rfl h1 h2 rfl with hfree | halike
    · exact absurd hfree (by decide)
    · rw [FatDisk.StoresAlike, if_neg (by decide)] at halike
      exact absurd halike.1 (by decide)
  · have hp := crowdedDisk_leads.placeAt FatDisk.dirAt_root .root (fun _ => rfl) nofun
    obtain ⟨i, hi, hfree⟩ := h.has_slot (rfl : pathTokens [0x42] = [0x42] :: []) crowdedDisk_tree
      crowdedDisk_leads hp
    have hused : ∀ i < crowdedDisk.dirSlots [], (crowdedDisk.dirEntry [] i).isFree = false := by decide
    rw [hused i hi] at hfree
    cases hfree

end Ohwes.Fatfs

import Ohwes.Fatfs.RootStore

/-! # What `add` does to the store

A command finds the slot of its file by the label, writes the data to clusters that no other file
has, and then the entry to the slot. -/

namespace Ohwes.Fatfs
open Library ShortName
set_option autoImplicit false

/-- The path names a file of the root directory, by a name that comes back from its label. -/
structure Names (path : CString) (label : Vector Byte 11) : Prop where
  short : path.length < MAX_PATH
  single : pathTokens path = [getFileName path]
  canonical : Canonical (getFileName path) label

namespace FatDisk
variable {d : FatDisk} {s : RootStore} {own : Nat → List Nat} {label : Vector Byte 11} {i : Nat}

/-! ## Preparing the entry -/

/-- The entry that `add` starts from. -/
def baseEntry (d : FatDisk) (s : RootStore) (a : AddArgs) (i : Nat) : DirEntry :=
  if (s i).isSome then d.rootEntry i else d.newEntry a

theorem describe_some {a : AddArgs} (hlabel : shortLabel (getFileName a.dst) = some label)
    (e : DirEntry) : ∃ e', describe a e = some e' ∧ e'.label = label := by
  rw [describe, DirEntry.setShortName, hlabel]
  exact ⟨_, rfl, rfl⟩

section Prepare
variable (h : d.Backs s own) {a : AddArgs} (hn : Names a.dst label)
include h

theorem Backs.firstFree_eq (junk : Buffer) :
    firstFree (d.rootTable junk) d.rootCapacity = .ok (SlotStore.firstFree d.rootCapacity s) := by
  have hpos := d.rootCapacity_pos
  rw [firstFree, if_neg (by omega), SlotStore.firstFree]
  refine congrArg Except.ok (List.find?_congr fun i hi => ?_)
  have hi := List.mem_range.mp hi
  rw [entryAt_rootTable junk hi, h.isFree_eq hi]

include hn

theorem Backs.chooseSlot_eq :
    d.chooseSlot a ((SlotStore.find d.rootCapacity s label).map d.rootEntry) (d.rootTable a.host.junk)
        (d.rootCapacity * DIR_ENTRY_SIZE) =
      .ok ((SlotStore.place d.rootCapacity s label).map fun i => (i, d.baseEntry s a i)) := by
  have hcount : d.rootCapacity * DIR_ENTRY_SIZE / DIR_ENTRY_SIZE = d.rootCapacity :=
    Nat.mul_div_cancel _ (by decide)
  cases hfind : SlotStore.find d.rootCapacity s label with
  | none =>
    rw [Option.map_none, chooseSlot, hcount, h.firstFree_eq, ok_bind, SlotStore.place, hfind,
      Option.none_or]
    cases hfirst : SlotStore.firstFree d.rootCapacity s with
    | none => rfl
    | some i =>
      have hnone := (SlotStore.firstFree_some hfirst).2
      rw [Option.map_some, baseEntry, hnone]
      rfl
  | some k =>
    obtain ⟨hk, f, hs⟩ := SlotStore.find_some hfind
    rw [Option.map_some, chooseSlot, h.findFileInDir_eq hn.canonical, ok_bind, hfind]
    dsimp only
    rw [entryAt_rootTable a.host.junk hk, beq_self_eq_true, SlotStore.place, hfind, Option.some_or,
      Option.map_some, baseEntry, hs]
    rfl

/-- What `add` is about to write. -/
theorem Backs.prepareAdd_eq (hsize : a.data.length ≤ UINT32_MAX) :
    d.prepareAdd a = .ok ((SlotStore.place d.rootCapacity s label).bind fun i =>
      if (s i).isSome && !a.force then none
      else (describe a (d.baseEntry s a i)).map fun e =>
        ⟨rootDirEntry, d.rootTable a.host.junk, i, e⟩) := by
  rw [prepareAdd, if_neg (Nat.not_lt.mpr hsize), h.findFile_eq hn.canonical a.host hn.short hn.single,
    ok_bind]
  dsimp only
  rw [Option.isSome_map]
  have hin : d.prepareIn a ((SlotStore.find d.rootCapacity s label).map d.rootEntry) rootDirEntry =
      .ok ((SlotStore.place d.rootCapacity s label).bind fun i =>
        (describe a (d.baseEntry s a i)).map fun e =>
          ⟨rootDirEntry, d.rootTable a.host.junk, i, e⟩) := by
    rw [prepareIn, getFileAllocSize_root _ rootDirEntry_isRoot, ok_bind,
      readFile_root _ rootDirEntry_isRoot, h.sound.readRoot_eq]
    simp only [ok_bind]
    rw [← rootTable, h.chooseSlot_eq hn, ok_bind]
    cases SlotStore.place d.rootCapacity s label with
    | none => rfl
    | some i => rfl
  cases hfind : SlotStore.find d.rootCapacity s label with
  | none =>
    rw [hfind] at hin
    rw [Option.isSome_none, Bool.false_and, if_neg Bool.false_ne_true, hin, SlotStore.place, hfind,
      Option.none_or]
    cases hfirst : SlotStore.firstFree d.rootCapacity s with
    | none => rfl
    | some i =>
      rw [Option.bind_some, Option.bind_some, (SlotStore.firstFree_some hfirst).2, Option.isSome_none,
        Bool.false_and, if_neg Bool.false_ne_true]
  | some k =>
    obtain ⟨hk, f, hs⟩ := SlotStore.find_some hfind
    rw [hfind] at hin
    rw [Option.isSome_some, Bool.true_and, hin, SlotStore.place, hfind, Option.some_or, Option.bind_some,
      Option.bind_some, hs, Option.isSome_some, Bool.true_and]
    split
    · rfl
    · rfl

end Prepare

/-! ## Writing the file -/

/-- The file that `add` puts in the slot. -/
def newFile (s : RootStore) (i : Nat) (data : List Byte) : StoredFile :=
  ⟨(s i).elim 0 fun x => x.2.attributes, data⟩

section Write
variable (h : d.Backs s own) {a : AddArgs} {e : DirEntry} (hi : i < d.rootCapacity)
  (he : describe a (d.baseEntry s a i) = some e) (hpos : 0 < a.data.length)
  (hfit : a.data.length + d.bpb.getClusterSize ≤ 4294967296)

theorem entry_size (he : describe a (d.baseEntry s a i) = some e) (hlt : a.data.length < 4294967296) :
    e.fileSize.toNat = a.data.length := by
  rw [(describe_eq he).2.2.2, BitVec.toNat_ofNat]
  exact Nat.mod_eq_of_lt hlt

include h hi he hpos hfit

theorem Backs.entryOf (hlabel : e.label = label) : EntryOf e label (newFile s i a.data) := by
  have hcluster := d.clusterSize_pos
  obtain ⟨hlive, hattr, -, -⟩ := describe_eq he
  refine ⟨hlabel, ?_, hlive, ?_, entry_size he (by omega), hpos⟩
  · rw [hattr, baseEntry, newFile]
    cases hs : s i with
    | none => rfl
    | some x => exact (h.file i hi x.1 x.2 hs).attributes
  · rw [newFile]
    cases hs : s i with
    | none =>
      rw [Option.elim_none]
      exact BitVec.zero_and
    | some x => exact (h.file i hi x.1 x.2 hs).plain

/-- The write of the file: it takes clusters of its own or free ones, if there are enough free. -/
theorem Backs.writeFile_cases (buf : Buffer) :
    (d.countFreeClusters < RootStore.cost d.bpb (newFile s i a.data) →
      d.writeFile WALK_LIMIT e buf = .ok (false, d)) ∧
    (RootStore.cost d.bpb (newFile s i a.data) ≤ d.countFreeClusters →
      ∃ d' rest l, d.writeFile WALK_LIMIT e buf = .ok (true, d') ∧ d'.dirty = true ∧
        l.length = RootStore.cost d.bpb (newFile s i a.data) ∧
        Wrote a.data.length buf d e.firstCluster.toNat 0 rest l d' ∧
        (∀ x ∈ rest, x ∈ own i ∨ x ∈ d.freeClusters) ∧ own i ⊆ rest) := by
  have hcluster := d.clusterSize_pos
  have hlt : a.data.length < 4294967296 := by omega
  have hsize := entry_size he hlt
  have hneed : d.bpb.clustersFor a.data.length = RootStore.cost d.bpb (newFile s i a.data) :=
    clustersFor_eq hfit
  cases hs : s i with
  | none =>
    have hbase : d.baseEntry s a i = d.newEntry a := by
      rw [baseEntry, hs]
      rfl
    rw [hbase] at he
    obtain ⟨hregular, -, hchain⟩ := newEntry_chain h.sound h.mark he
    constructor
    · intro hfull
      exact writeNew_full h.sound h.mark he hlt buf (by rw [hneed]; exact hfull)
    · intro hspace
      obtain ⟨m, hm, -, -⟩ := ceilDiv_bounds hpos hcluster
      have hcost : RootStore.cost d.bpb (newFile s i a.data) = m + 1 := hm
      have hmem := (h.sound.new_first (describe_eq he).2.2.1).resolve_right fun hno => by omega
      obtain ⟨d', l, hwrite, hdirty, hlen, hwrote⟩ := writeFile_writes h.sound h.mark hregular
        (by omega) (by rwa [hsize]) hchain (by simpa using (mem_freeClusters.mp hmem).1)
        (by rw [hsize]; exact hspace) buf (singleton_le_limit _)
      rw [hsize] at hlen hwrote
      refine ⟨d', _, l, hwrite, hdirty, hlen, hwrote, fun x hx => Or.inr ?_, ?_⟩
      · rwa [List.mem_singleton.mp hx]
      · rw [(h.free i hi hs).2]
        exact List.nil_subset _
  | some x =>
    have hfile := h.file i hi x.1 x.2 hs
    have hbase : d.baseEntry s a i = d.rootEntry i := by
      rw [baseEntry, hs]
      rfl
    obtain ⟨hlive, hattr, hfirst, -⟩ := describe_eq he
    rw [hbase] at hattr hfirst
    have hregular := regular_of_attributes hfile.regular hlive hattr hfirst
    have hchain := hfile.chain.chain h.sound
    have hrange := hfile.chain.2
    have hsteps : (own i).length ≤ WALK_LIMIT := hfile.chain.length_le.trans h.sound.count_le_limit
    rw [← hfirst] at hchain
    constructor
    · intro hfull
      rw [writeFile_eq hregular hchain buf hsteps (first_ne_zero (hrange _ hchain.head_mem)), hsize,
        hneed, if_pos hfull]
    · intro hspace
      obtain ⟨d', l, hwrite, hdirty, hlen, hwrote⟩ := writeFile_writes h.sound h.mark hregular
        (by omega) (by rwa [hsize]) hchain hrange (by rw [hsize]; exact hspace) buf hsteps
      rw [hsize] at hlen hwrote
      exact ⟨d', own i, l, hwrite, hdirty, hlen, hwrote, fun x hx => Or.inl hx, fun x hx => hx⟩

end Write

/-! ## Writing the entry -/

section Store
variable (h : d.Backs s own) {e : DirEntry} {f : StoredFile} {d' : FatDisk} {rest l : List Nat}
  {buf : Buffer} (hplace : SlotStore.place d.rootCapacity s label = some i)
  (hentry : EntryOf e label f)
  (hw : Wrote f.data.length buf d e.firstCluster.toNat 0 rest l d')
  (hcount : l.length = RootStore.cost d.bpb f)
  (hrest : ∀ x ∈ rest, x ∈ own i ∨ x ∈ d.freeClusters) (hown : own i ⊆ rest)
include h hplace hw hrest

/-- The write does not reach the clusters of another file. -/
theorem Backs.apart_of_wrote {j : Nat} (hj : j < d.rootCapacity) (hji : j ≠ i) :
    ∀ x ∈ own j, x ∉ rest ++ l := by
  have hi := SlotStore.place_lt hplace
  intro x hx hmem
  have hfree : x ∉ d.freeClusters := (h.own_used hj hx).2
  have hnot : x ∉ rest := fun hr =>
    (hrest x hr).elim (fun hxi => h.apart j hj i hi hji hx hxi) hfree
  rcases List.mem_append.mp hmem with hr | hl
  · exact hnot hr
  · exact (hw.fresh x hl).elim hnot hfree

include hcount hown hentry

/-- **The store after the directory is written.** -/
theorem Backs.storeRoot_backs (hbuf : slice buf 0 f.data.length = f.data)
    (hname : ∃ name, Canonical name label) (junk : Buffer) :
    (d'.storeRoot (d.rootTable junk) i e).Backs (SlotStore.put s i label f)
      (Function.update own i l) := by
  have hi := SlotStore.place_lt hplace
  have hbpb : (d'.storeRoot (d.rootTable junk) i e).bpb = d.bpb := hw.touches.bpb
  have hcap : (d'.storeRoot (d.rootTable junk) i e).rootCapacity = d.rootCapacity := by
    rw [rootCapacity, hbpb, rootCapacity]
  have hroot : ∀ j < d.rootCapacity, (d'.storeRoot (d.rootTable junk) i e).rootEntry j =
      if j = i then e else d.rootEntry j := fun j hj => storeRoot_entry hw.touches.bpb junk i e hj
  have hnext : (d'.storeRoot (d.rootTable junk) i e).getCluster = d'.getCluster :=
    getCluster_congr rfl rfl
  have hsound' := hw.touches.sound h.sound
  have hsound : (d'.storeRoot (d.rootTable junk) i e).Sound := sound_put hsound' _ _
  have hnumbers : d'.clusterNumbers = d.clusterNumbers := clusterNumbers_congr hw.touches.bpb
  have hcontent : ∀ x ∈ d.clusterNumbers,
      (d'.storeRoot (d.rootTable junk) i e).content x = d'.content x := fun x hx =>
    put_root_content hsound' (hnumbers ▸ hx)
  generalize d'.storeRoot (d.rootTable junk) i e = d2 at *
  have hrange : ∀ x ∈ l, x ∈ d.clusterNumbers := fun x hx => hnumbers ▸ hw.chain.2 x hx
  have hone : d2.getCluster 1 = d.getCluster 1 := by
    rw [hnext]
    refine hw.touches.next 1 fun hmem => ?_
    have hin : (1 : Nat) ∈ d.clusterNumbers := by
      rcases List.mem_append.mp hmem with hr | hl
      · rcases hrest 1 hr with hr | hr
        · exact (h.own_used hi hr).1
        · exact (mem_freeClusters.mp hr).1
      · exact hrange 1 hl
    have := d.mem_clusterNumbers.mp hin
    omega
  have hslot : d2.StoresFile e label f l := by
    refine ⟨hentry, GoodChain.congr hw.chain (hbpb.trans hw.touches.bpb.symm) fun x _ =>
      congrFun hnext x, ?_, ?_⟩
    · rw [hcount, hbpb]
    · have hdata := hw.data
      rw [Nat.sub_zero, hbuf] at hdata
      rw [List.map_congr_left fun x hx => hcontent x (hrange x hx)]
      exact hdata
  refine ⟨hsound, mark_congr h.mark hbpb hone, fun j hj hnone => ?_, fun j hj label' f' hs => ?_,
    fun j hj k hk hjk => ?_, fun x hx hused => ?_, ?_, fun j hj label' f' hs => ?_⟩
  · rw [hcap] at hj
    rw [SlotStore.put, Function.update_apply] at hnone
    split at hnone
    · cases hnone
    · rw [hroot j hj, if_neg ‹_›, Function.update_of_ne ‹_›]
      exact h.free j hj hnone
  · rw [hcap] at hj
    rw [SlotStore.put, Function.update_apply] at hs
    rw [hroot j hj]
    split at hs
    · obtain ⟨rfl, rfl⟩ := Prod.mk.inj (Option.some.inj hs)
      rw [if_pos ‹_›, ‹j = i›, Function.update_self]
      exact hslot
    · have hj' := h.file j hj label' f' hs
      have hout := h.apart_of_wrote hplace hw hrest hj ‹_›
      rw [if_neg ‹_›, Function.update_of_ne ‹_›]
      refine ⟨hj'.toEntryOf, GoodChain.congr hj'.chain hbpb fun x hx => ?_, ?_, ?_⟩
      · rw [hnext]
        exact hw.touches.next x (hout x hx)
      · rw [hj'.count, hbpb]
      · rw [List.map_congr_left fun x hx => (hcontent x (hj'.chain.2 x hx)).trans
          (hw.touches.content x (hj'.chain.2 x hx) (hout x hx))]
        exact hj'.data
  · rw [hcap] at hj hk
    by_cases hji : j = i
    · have hki : k ≠ i := fun hki => hjk (hji.trans hki.symm)
      rw [hji, Function.update_self, Function.update_of_ne hki]
      exact fun x hx hxk => h.apart_of_wrote hplace hw hrest hk hki x hxk (List.mem_append_right _ hx)
    · rw [Function.update_of_ne hji]
      by_cases hki : k = i
      · rw [hki, Function.update_self]
        exact fun x hxj hx => h.apart_of_wrote hplace hw hrest hj hji x hxj (List.mem_append_right _ hx)
      · rw [Function.update_of_ne hki]
        exact h.apart j hj k hk hjk
  · -- a cluster that is in use is one of the file, or was in use before
    rw [clusterNumbers_congr hbpb] at hx
    rw [hnext] at hused
    rw [hcap]
    by_cases hl : x ∈ l
    · exact ⟨i, hi, by rwa [Function.update_self]⟩
    · have hr : x ∉ rest := fun hr => hused (hw.freed x hr hl)
      rw [hw.touches.next x fun hmem => (List.mem_append.mp hmem).elim hr hl] at hused
      obtain ⟨j, hj, hxj⟩ := h.full x hx hused
      have hji : j ≠ i := by
        rintro rfl
        exact hr (hown hxj)
      exact ⟨j, hj, by rwa [Function.update_of_ne hji]⟩
  · rw [hcap]
    exact SlotStore.distinct_put h.distinct hplace f
  · rw [hcap] at hj
    rw [SlotStore.put, Function.update_apply] at hs
    split at hs
    · obtain ⟨rfl, rfl⟩ := Prod.mk.inj (Option.some.inj hs)
      exact hname
    · exact h.named j hj label' f' hs

end Store

/-! ## The whole of `add` -/

/-- `add` writes the file with the entry `e` in slot `i` to the clusters `l`, and leaves `d'` before it
writes the directory. -/
structure Adds (d : FatDisk) (s : RootStore) (own : Nat → List Nat) (a : AddArgs)
    (label : Vector Byte 11) (i : Nat) (e : DirEntry) (d' : FatDisk) (rest l : List Nat) : Prop where
  place : SlotStore.place d.rootCapacity s label = some i
  described : describe a (d.baseEntry s a i) = some e
  entry : EntryOf e label (newFile s i a.data)
  write : d.writeFile WALK_LIMIT e (filled a.host.junk a.data) = .ok (true, d')
  dirty : d'.dirty = true
  count : l.length = RootStore.cost d.bpb (newFile s i a.data)
  space : RootStore.cost d.bpb (newFile s i a.data) ≤ d.countFreeClusters
  wrote : Wrote a.data.length (filled a.host.junk a.data) d e.firstCluster.toNat 0 rest l d'
  rest_of : ∀ x ∈ rest, x ∈ own i ∨ x ∈ d.freeClusters
  own_of : own i ⊆ rest

theorem slice_filled (junk : Buffer) (data : List Byte) : slice (filled junk data) 0 data.length = data :=
  slice_overlay junk 0 data

theorem Adds.backs (h : d.Backs s own) {a : AddArgs} {e : DirEntry} {d' : FatDisk} {rest l : List Nat}
    (hadds : d.Adds s own a label i e d' rest l) (hname : ∃ name, Canonical name label) (junk : Buffer) :
    (d'.storeRoot (d.rootTable junk) i e).Backs (SlotStore.put s i label (newFile s i a.data))
      (Function.update own i l) :=
  h.storeRoot_backs hadds.place hadds.entry hadds.wrote hadds.count hadds.rest_of hadds.own_of
    (slice_filled a.host.junk a.data) hname junk

/-- The command fails and leaves the disk alone, or adds the file; it does what the store says. -/
theorem Backs.add_cases (h : d.Backs s own) {img : Image} {a : AddArgs}
    (hopen : openDisk a.host img 0 = .ok (some d)) (hsector : a.sector = 0) (hn : Names a.dst label)
    (hpos : 0 < a.data.length) (hfit : a.data.length + d.bpb.getClusterSize ≤ 4294967296) :
    Fatfs.add img a = .ok (false, ⟨d.close.file, img.size⟩) ∧
        s.add d.bpb label a.force a.data = (false, s) ∨
      ∃ i e d' rest l, d.Adds s own a label i e d' rest l ∧
        Fatfs.add img a =
          .ok (true, ⟨(d'.storeRoot (d.rootTable a.host.junk) i e).close.file, img.size⟩) ∧
        s.add d.bpb label a.force a.data = (true, SlotStore.put s i label (newFile s i a.data)) := by
  have hcluster := d.clusterSize_pos
  have hsmall : a.data.length ≤ UINT32_MAX := by
    rw [UINT32_MAX]
    omega
  have hprepare := h.prepareAdd_eq hn hsmall
  rw [Fatfs.add, hsector, hopen]
  dsimp only
  rw [hprepare, RootStore.add]
  cases hplace : SlotStore.place d.rootCapacity s label with
  | none =>
    have hplace' : SlotStore.place d.bpb.getRootCapacity s label = none := hplace
    rw [hplace']
    exact Or.inl ⟨rfl, rfl⟩
  | some i =>
    have hplace' : SlotStore.place d.bpb.getRootCapacity s label = some i := hplace
    have hi := SlotStore.place_lt hplace
    rw [hplace', Option.bind_some]
    dsimp only
    by_cases hforce : ((s i).isSome && !a.force) = true
    · rw [if_pos hforce, if_pos hforce]
      exact Or.inl ⟨rfl, rfl⟩
    · obtain ⟨e, he, hlabel⟩ := describe_some hn.canonical.label_eq (d.baseEntry s a i)
      have hentry := h.entryOf hi he hpos hfit hlabel
      obtain ⟨hfull, hroom⟩ := h.writeFile_cases hi he hpos hfit (filled a.host.junk a.data)
      have hcount := h.countFree
      rw [if_neg hforce, if_neg hforce, he, Option.map_some]
      dsimp only
      rw [commitAdd]
      by_cases hspace : RootStore.cost d.bpb (newFile s i a.data) ≤ d.countFreeClusters
      · obtain ⟨d', rest, l, hwrite, hdirty, hlen, hwrote, hrest, hown⟩ := hroom hspace
        have hroot := (hwrote.touches.sound h.sound).writeFile_root WALK_LIMIT rootDirEntry_isRoot
          (storeEntry (d.rootTable a.host.junk) i e)
        have hfits : ¬ d.bpb.getClusterCount <
            s.usedClusters d.bpb + RootStore.cost d.bpb (newFile s i a.data) := by omega
        refine Or.inr ⟨i, e, d', rest, l, ⟨hplace, he, hentry, hwrite, hdirty, hlen, hspace, hwrote,
          hrest, hown⟩, ?_, if_neg hfits⟩
        rw [hwrite, ok_bind]
        dsimp only
        rw [if_pos rfl, hroot, ok_bind]
        rfl
      · have hlacks : d.bpb.getClusterCount <
            s.usedClusters d.bpb + RootStore.cost d.bpb (newFile s i a.data) := by omega
        refine Or.inl ⟨?_, if_pos hlacks⟩
        rw [hfull (by omega), ok_bind]
        rfl

end FatDisk

end Ohwes.Fatfs

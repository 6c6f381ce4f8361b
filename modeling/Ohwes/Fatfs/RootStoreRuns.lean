import Ohwes.Fatfs.AddPaths
import Ohwes.Fatfs.RootStoreAdd

/-! # Runs of commands on the store

Between two commands there is only the image. Whether a command succeeds, and which files are there
afterwards, is what the store says (`commands_refine`). -/

namespace Ohwes.Fatfs
open Library ShortName
set_option autoImplicit false

/-- Whoever opens the image has a disk that holds the store. -/
def Image.Holds (img : Image) (b : BiosParamBlock) (s : RootStore) : Prop :=
  ∀ host, ∃ d own, openDisk host img 0 = .ok (some d) ∧ d.bpb = b ∧ d.Backs s own

/-! ## Closing and opening -/

namespace FatDisk
variable {d d' : FatDisk} {s s' : RootStore} {own own' : Nat → List Nat}

theorem Backs.reopened (h : d.Backs s own) (hr : d.Reopened d') : d'.Backs s own := by
  have hcap : d'.rootCapacity = d.rootCapacity := by
    rw [rootCapacity, hr.bpb, rootCapacity]
  have hnext : ∀ x ∈ d.clusterNumbers, d'.getCluster x = d.getCluster x := by
    intro x hx
    have := d.mem_clusterNumbers.mp hx
    exact hr.getCluster h.sound (by omega)
  refine ⟨hr.sound h.sound, mark_congr h.mark hr.bpb (hr.getCluster h.sound (by omega)),
    fun i hi hs => ?_, fun i hi label f hs => ?_, ?_, fun x hx hused => ?_, ?_, ?_⟩
  · rw [hr.rootEntry_eq]
    exact h.free i (hcap ▸ hi) hs
  · have hfile := h.file i (hcap ▸ hi) label f hs
    rw [hr.rootEntry_eq]
    refine ⟨hfile.toEntryOf, (hr.goodChain_iff h.sound _ _).mpr hfile.chain, ?_, ?_⟩
    · rw [hfile.count, hr.bpb]
    · rw [List.map_congr_left fun x hx => hr.content h.sound (hfile.chain.2 x hx)]
      exact hfile.data
  · rw [hcap]
    exact h.apart
  · rw [clusterNumbers_congr hr.bpb] at hx
    rw [hnext x hx] at hused
    rw [hcap]
    exact h.full x hx hused
  · rw [hcap]
    exact h.distinct
  · rw [hcap]
    exact h.named

theorem storeRoot_low (d : FatDisk) (table : Buffer) (k : Nat) (e : DirEntry) :
    ∀ x < d.rootStart, (d.storeRoot table k e).file x = d.file x := fun _ hx =>
  overlay_before _ _ hx

theorem storeRoot_synced (h : d.Synced) (table : Buffer) (k : Nat) (e : DirEntry) :
    (d.storeRoot table k e).Synced := by
  intro i hi
  have hi' : i < d.bpb.fatBytes := hi
  have hle : d.bpb.fatBytes ≤ d.bpb.tableCount.toNat * d.bpb.fatBytes :=
    Nat.le_mul_of_pos_left _ d.tableCount_pos
  have hlow := d.storeRoot_low table k e (d.fatStart + i) (by rw [rootStart_eq]; omega)
  exact hlow.trans (h i hi')

/-- The image that is left when the disk is closed. -/
theorem Backs.close_holds (h : d'.Backs s own) {host : Host} {img : Image}
    (hopen : openDisk host img 0 = .ok (some d)) (hbpb : d'.bpb = d.bpb)
    (hsync : d'.dirty = true ∨ d'.Synced) (hlow : ∀ x < d.rootStart, d'.file x = d.file x) :
    (⟨d'.close.file, img.size⟩ : Image).Holds d.bpb s := by
  intro host'
  obtain ⟨d1, hopen1, hr⟩ := h.sound.openDisk_close hopen hbpb hsync hlow host'
  exact ⟨d1, own, hopen1, hr.bpb.trans hbpb, h.reopened hr⟩

theorem opened_synced {host : Host} {img : Image} (hopen : openDisk host img 0 = .ok (some d)) :
    d.Synced := by
  obtain ⟨-, -, hm, rfl⟩ := openDisk_zero.mp hopen
  exact mount_synced host img _ hm

end FatDisk

/-! ## `add` -/

/-- **The step of `add`.** -/
theorem Image.Holds.add {img : Image} {b : BiosParamBlock} {s : RootStore} (h : img.Holds b s)
    {a : AddArgs} {label : Vector Byte 11} (hsector : a.sector = 0) (hn : Names a.dst label)
    (hpos : 0 < a.data.length) (hfit : a.data.length + b.getClusterSize ≤ 4294967296) :
    ∃ img', Fatfs.add img a = .ok ((s.add b label a.force a.data).1, img') ∧
      img'.Holds b (s.add b label a.force a.data).2 := by
  obtain ⟨d, own, hopen, rfl, hd⟩ := h a.host
  rcases hd.add_cases hopen hsector hn hpos hfit with ⟨hadd, hstore⟩ |
    ⟨i, e, d', rest, l, hadds, hadd, hstore⟩
  · rw [hstore]
    exact ⟨_, hadd, hd.close_holds hopen rfl (Or.inr (FatDisk.opened_synced hopen)) fun _ _ => rfl⟩
  · have hcommit := hadds.wrote.touches.committed hd.sound hadds.dirty (d.rootTable a.host.junk) i e
    rw [hstore]
    exact ⟨_, hadd, (hadds.backs hd ⟨_, hn.canonical⟩ a.host.junk).close_holds hopen hcommit.bpb
      (Or.inl hcommit.dirty) hcommit.low⟩

/-! ## `attr` -/

namespace AttrArgs
variable (a : AttrArgs)

/-- What an option does to the attributes. -/
def changeAttribute (attr : Byte) : Option Bool → Byte → Byte
  | none, x => x
  | some true, x => x ||| attr
  | some false, x => x &&& ~~~attr

def change (x : Byte) : Byte :=
  changeAttribute ATTR_LABEL a.updateLab (changeAttribute ATTR_DEVICE a.updateDev
    (changeAttribute ATTR_SYSTEM a.updateSys (changeAttribute ATTR_READONLY a.updateRdo
      (changeAttribute ATTR_HIDDEN a.updateHid (changeAttribute ATTR_ARCHIVE a.updateArc x)))))

theorem updateAttribute_eq (e : DirEntry) (attr : Byte) (u : Option Bool) :
    e.updateAttribute attr u = { e with attributes := changeAttribute attr u e.attributes } := by
  cases u with
  | none => rfl
  | some v =>
    cases v with
    | true => rfl
    | false => rfl

theorem apply_eq (e : DirEntry) : a.apply e = { e with attributes := a.change e.attributes } := by
  rw [apply, updateAttribute_eq, updateAttribute_eq, updateAttribute_eq, updateAttribute_eq,
    updateAttribute_eq, updateAttribute_eq, change]

theorem change_of_not_update (h : a.update = false) (x : Byte) : a.change x = x := by
  simp only [update, Bool.or_eq_false_iff, Option.isSome_eq_false_iff, Option.isNone_iff_eq_none] at h
  obtain ⟨⟨⟨⟨⟨h1, h2⟩, h3⟩, h4⟩, h5⟩, h6⟩ := h
  rw [change, h1, h2, h3, h4, h5, h6]
  rfl

/-- The options make no label and no device of a file. -/
structure KeepsFiles : Prop where
  device : a.updateDev ≠ some true
  label : a.updateLab ≠ some true

theorem changeAttribute_plain {x : Byte} (h : Plain x) {attr : Byte} {u : Option Bool}
    (hu : u = some true → Plain attr) : Plain (changeAttribute attr u x) := by
  rw [Plain] at *
  cases u with
  | none => exact h
  | some v =>
    cases v with
    | true =>
      rw [changeAttribute, BitVec.and_comm, BitVec.and_or_distrib_left, BitVec.and_comm, h,
        BitVec.and_comm, hu rfl]
      rfl
    | false =>
      rw [changeAttribute, BitVec.and_assoc, BitVec.and_comm (~~~attr), ← BitVec.and_assoc, h]
      exact BitVec.zero_and

theorem KeepsFiles.change_plain {a : AttrArgs} (h : a.KeepsFiles) {x : Byte} (hx : Plain x) :
    Plain (a.change x) := by
  rw [change]
  refine changeAttribute_plain (changeAttribute_plain (changeAttribute_plain (changeAttribute_plain
    (changeAttribute_plain (changeAttribute_plain hx ?_) ?_) ?_) ?_) ?_) ?_
  · exact fun _ => by decide
  · exact fun _ => by decide
  · exact fun _ => by decide
  · exact fun _ => by decide
  · exact fun hu => absurd hu h.device
  · exact fun hu => absurd hu h.label

end AttrArgs

section Attr
variable {s : RootStore} {a : AttrArgs} {label : Vector Byte 11}

/-- The table is written back with other attributes in one entry; the file stays where it is. -/
theorem FatDisk.Backs.storeAttributes {d : FatDisk} {own : Nat → List Nat} (h : d.Backs s own)
    {k : Nat} (hfind : SlotStore.find d.rootCapacity s label = some k) {f : StoredFile}
    (hs : s k = some (label, f)) (ha : a.KeepsFiles) (junk : Buffer) :
    (d.storeRoot (d.rootTable junk) k (a.apply (d.rootEntry k))).Backs
      (SlotStore.put s k label ⟨a.change f.attributes, f.data⟩) (Function.update own k (own k)) := by
  have hk := (SlotStore.find_some hfind).1
  have hfile := h.file k hk label f hs
  have hplace : SlotStore.place d.rootCapacity s label = some k := by
    rw [SlotStore.place, hfind, Option.some_or]
  have hfirst : (a.apply (d.rootEntry k)).firstCluster = (d.rootEntry k).firstCluster := by
    rw [a.apply_eq]
  have hentry : EntryOf (a.apply (d.rootEntry k)) label ⟨a.change f.attributes, f.data⟩ := by
    rw [a.apply_eq]
    refine ⟨hfile.label_eq, ?_, hfile.live, ha.change_plain hfile.plain, hfile.size, hfile.size_pos⟩
    rw [hfile.attributes]
  have hwrote : Wrote f.data.length (filled junk f.data) d (a.apply (d.rootEntry k)).firstCluster.toNat 0
      (own k) (own k) d := by
    rw [hfirst]
    refine ⟨Touches.refl d _, hfile.chain, fun x hx => Or.inl hx, fun x hx hnot => absurd hx hnot, ?_⟩
    rw [Nat.sub_zero, FatDisk.slice_filled]
    exact hfile.data
  exact h.storeRoot_backs hplace hentry hwrote hfile.count (fun x hx => Or.inl hx) (fun x hx => hx)
    (FatDisk.slice_filled junk f.data) ⟨_, (h.named k hk label f hs).choose_spec⟩ junk

variable (hn : Names a.file label)
include hn

/-- The command leaves the store alone, or changes the attributes of the file. -/
theorem FatDisk.Backs.attr_cases {d : FatDisk} {own : Nat → List Nat} (h : d.Backs s own) {img : Image}
    (hopen : openDisk a.host img 0 = .ok (some d)) (hsector : a.sector = 0) :
    (∃ success, Fatfs.attr img a = .ok (success, ⟨d.close.file, img.size⟩) ∧
        s.attr d.bpb label a.change = (success, s)) ∨
      ∃ k f, SlotStore.find d.rootCapacity s label = some k ∧ s k = some (label, f) ∧
        Fatfs.attr img a = .ok (true,
          ⟨(d.storeRoot (d.rootTable a.host.junk) k (a.apply (d.rootEntry k))).close.file, img.size⟩) ∧
        s.attr d.bpb label a.change =
          (true, SlotStore.put s k label ⟨a.change f.attributes, f.data⟩) := by
  rw [Fatfs.attr, hsector, hopen]
  dsimp only
  rw [FatDisk.planAttr, h.findFile_eq hn.canonical a.host hn.short hn.single, ok_bind, RootStore.attr]
  cases hfind : SlotStore.find d.rootCapacity s label with
  | none =>
    have hfind' : SlotStore.find d.bpb.getRootCapacity s label = none := hfind
    rw [hfind']
    exact Or.inl ⟨false, rfl, rfl⟩
  | some k =>
    have hfind' : SlotStore.find d.bpb.getRootCapacity s label = some k := hfind
    obtain ⟨hk, f, hs⟩ := SlotStore.find_some hfind
    have hroot := (h.file k hk label f hs).regular.not_root
    rw [hfind', Option.map_some]
    dsimp only
    simp only [hs, Option.elim_some]
    rw [hroot, if_neg Bool.false_ne_true]
    cases hupdate : a.update with
    | false =>
      have hstore : SlotStore.put s k label ⟨a.change f.attributes, f.data⟩ = s := by
        rw [SlotStore.put, a.change_of_not_update hupdate, ← hs]
        exact Function.update_eq_self k s
      rw [hstore]
      exact Or.inl ⟨true, rfl, rfl⟩
    | true =>
      have hwrite := h.sound.writeFile_root WALK_LIMIT FatDisk.rootDirEntry_isRoot
        (storeEntry (d.rootTable a.host.junk) k (a.apply (d.rootEntry k)))
      refine Or.inr ⟨k, f, rfl, hs, ?_, rfl⟩
      rw [Bool.not_true, if_neg Bool.false_ne_true, FatDisk.changedTable,
        FatDisk.getFileAllocSize_root _ FatDisk.rootDirEntry_isRoot, ok_bind,
        FatDisk.readFile_root _ FatDisk.rootDirEntry_isRoot, h.sound.readRoot_eq]
      simp only [ok_bind]
      rw [← FatDisk.rootTable, h.findFileInDir_eq hn.canonical, ok_bind, hfind]
      dsimp only
      rw [FatDisk.entryAt_rootTable a.host.junk hk, beq_self_eq_true]
      simp only [assert_true, ok_bind]
      show (d.writeFile WALK_LIMIT rootDirEntry
        (storeEntry (d.rootTable a.host.junk) k (a.apply (d.rootEntry k))) >>= fun x =>
          pure (x.1, Image.mk x.2.close.file img.size)) = _
      rw [hwrite]
      rfl

/-- **The step of `attr`.** -/
theorem Image.Holds.attr {img : Image} {b : BiosParamBlock} (h : img.Holds b s)
    (hsector : a.sector = 0) (ha : a.KeepsFiles) :
    ∃ img', Fatfs.attr img a = .ok ((s.attr b label a.change).1, img') ∧
      img'.Holds b (s.attr b label a.change).2 := by
  obtain ⟨d, own, hopen, rfl, hd⟩ := h a.host
  have hsync := FatDisk.opened_synced hopen
  rcases hd.attr_cases hn hopen hsector with ⟨success, hattr, hstore⟩ |
    ⟨k, f, hfind, hs, hattr, hstore⟩
  · rw [hstore]
    exact ⟨_, hattr, hd.close_holds hopen rfl (Or.inr hsync) fun _ _ => rfl⟩
  · rw [hstore]
    exact ⟨_, hattr, (hd.storeAttributes hfind hs ha a.host.junk).close_holds hopen rfl
      (Or.inr (FatDisk.storeRoot_synced hsync _ _ _)) (d.storeRoot_low _ _ _)⟩

end Attr

/-! ## Runs -/

inductive StoreCommand
  | add (a : AddArgs)
  | attr (a : AttrArgs)

namespace StoreCommand

def run (img : Image) : StoreCommand → Call (Bool × Image)
  | .add a => Fatfs.add img a
  | .attr a => Fatfs.attr img a

/-- The label of the file that the command is about. -/
def label : StoreCommand → Option (Vector Byte 11)
  | .add a => shortLabel (getFileName a.dst)
  | .attr a => shortLabel (getFileName a.file)

/-- The command may overwrite a file. -/
def forces : StoreCommand → Bool
  | .add a => a.force
  | .attr _ => false

/-- The command is about the volume at the start of the image, and names a file of the root directory.
It adds no empty file, and makes no label or device of one. -/
inductive Proper (b : BiosParamBlock) : StoreCommand → Prop
  | add {a : AddArgs} {label : Vector Byte 11} : a.sector = 0 → Names a.dst label →
      0 < a.data.length → a.data.length + b.getClusterSize ≤ 4294967296 → Proper b (.add a)
  | attr {a : AttrArgs} {label : Vector Byte 11} : a.sector = 0 → Names a.file label →
      a.KeepsFiles → Proper b (.attr a)

end StoreCommand

/-- A run of commands: which of them succeed, and the image they leave. -/
def runCommands : Image → List StoreCommand → Call (List Bool × Image)
  | img, [] => .ok ([], img)
  | img, c :: cs => do
    let (success, img) ← c.run img
    let (rest, img) ← runCommands img cs
    return (success :: rest, img)

namespace RootStore
variable (b : BiosParamBlock)

/-- What a command does to the store. -/
def command (s : RootStore) (c : StoreCommand) : Bool × RootStore :=
  match c with
  | .add a => c.label.elim (false, s) fun label => s.add b label a.force a.data
  | .attr a => c.label.elim (false, s) fun label => s.attr b label a.change

def commands : RootStore → List StoreCommand → List Bool × RootStore
  | s, [] => ([], s)
  | s, c :: cs =>
    let (success, s) := command b s c
    let (rest, s) := commands s cs
    (success :: rest, s)

def empty : RootStore := fun _ => none

end RootStore

section Runs
variable {b : BiosParamBlock}

/-- **The step**: the command does to the image what it does to the store. -/
theorem Image.Holds.command {img : Image} {s : RootStore} (h : img.Holds b s) {c : StoreCommand}
    (hc : c.Proper b) : ∃ img', c.run img = .ok ((RootStore.command b s c).1, img') ∧
      img'.Holds b (RootStore.command b s c).2 := by
  cases hc with
  | @add a label hsector hn hpos hfit =>
    have hlabel : (StoreCommand.add a).label = some label := hn.canonical.label_eq
    rw [RootStore.command, hlabel, Option.elim_some]
    exact h.add hsector hn hpos hfit
  | @attr a label hsector hn ha =>
    have hlabel : (StoreCommand.attr a).label = some label := hn.canonical.label_eq
    rw [RootStore.command, hlabel, Option.elim_some]
    exact h.attr hn hsector ha

/-- **The run**: by induction on the commands. -/
theorem Image.Holds.commands {img : Image} {s : RootStore} (h : img.Holds b s) {cs : List StoreCommand}
    (hcs : ∀ c ∈ cs, c.Proper b) : ∃ img', runCommands img cs = .ok ((RootStore.commands b s cs).1, img') ∧
      img'.Holds b (RootStore.commands b s cs).2 := by
  induction cs generalizing img s with
  | nil => exact ⟨img, rfl, h⟩
  | cons c cs ih =>
    obtain ⟨hc, hcs⟩ := List.forall_mem_cons.mp hcs
    obtain ⟨img1, hrun, h1⟩ := h.command hc
    obtain ⟨img2, hrest, h2⟩ := ih h1 hcs
    refine ⟨img2, ?_, h2⟩
    rw [runCommands, hrun, ok_bind]
    dsimp only
    rw [hrest]
    rfl

theorem openDisk_any {host : Host} {img : Image} {d : FatDisk}
    (hopen : openDisk host img 0 = .ok (some d)) (host' : Host) :
    ∃ hm : Mountable (BiosParamBlock.ofBytes img.data 11), openDisk host' img 0 =
      .ok (some (mount host' img 0 (BiosParamBlock.ofBytes img.data 11) hm)) := by
  obtain ⟨hsize, hdata, hm, -⟩ := openDisk_zero.mp hopen
  exact ⟨hm, openDisk_zero.mpr ⟨hsize, hdata, hm, rfl⟩⟩

/-- A disk without a file, and without a cluster in use. -/
structure FatDisk.Blank (d : FatDisk) : Prop where
  sound : d.Sound
  mark : d.EndMark d.getClusterNumberEOC
  root : ∀ i < d.rootCapacity, (d.rootEntry i).isFree = true
  clusters : ∀ x ∈ d.clusterNumbers, d.getCluster x = CLUSTER_FREE

theorem FatDisk.Blank.backs {d : FatDisk} (h : d.Blank) : d.Backs RootStore.empty fun _ => [] where
  sound := h.sound
  mark := h.mark
  free i hi _ := ⟨h.root i hi, rfl⟩
  file _ _ _ _ hs := nomatch hs
  apart _ _ _ _ _ _ hx := nomatch hx
  full x hx hused := absurd (h.clusters x hx) hused
  distinct _ _ _ _ _ _ hx := nomatch hx
  named _ _ _ _ hs := nomatch hs

/-- Whoever opens a formatted volume without a label has such a disk. -/
theorem FreshImage.blank {img : Image} (h : FreshImage b img) (hlabel : hasCustomLabel b = false)
    {host : Host} {d : FatDisk} (hopen : openDisk host img 0 = .ok (some d)) (host' : Host) :
    ∃ d', openDisk host' img 0 = .ok (some d') ∧ d'.bpb = b ∧ d'.Blank := by
  obtain ⟨hm, hopen'⟩ := openDisk_any hopen host'
  have hblock := h.block
  generalize BiosParamBlock.ofBytes img.data 11 = b' at hm hopen' hblock
  subst hblock
  refine ⟨_, hopen', rfl, h.sound host' hm, (h.tidy host' hm).mark,
    fun i hi => h.root_free host' hm hlabel hi, fun x hx => ?_⟩
  have hrange := (FatDisk.mem_clusterNumbers _).mp hx
  change 2 ≤ x ∧ x < b'.getClusterCount + 2 at hrange
  rw [h.getCluster_eq host' hm (by omega) (by omega), if_neg (by omega)]

theorem FreshImage.holds {img : Image} (h : FreshImage b img) (hlabel : hasCustomLabel b = false)
    {host : Host} {d : FatDisk} (hopen : openDisk host img 0 = .ok (some d)) :
    img.Holds b RootStore.empty := by
  intro host'
  obtain ⟨d', hopen', hbpb, hblank⟩ := h.blank hlabel hopen host'
  exact ⟨d', _, hopen', hbpb, hblank.backs⟩

/-! ## What the commands see of the store -/

/-- A look-up leads to the file that the store has under the label, and what is read of it begins with
its data. What the files do not take is free. -/
structure FatDisk.Shows (d : FatDisk) (host : Host) (s : RootStore) : Prop where
  missing : ∀ path label, Names path label → SlotStore.lookup d.rootCapacity s label = none →
    d.findFile host path = .ok (none, some rootDirEntry)
  found : ∀ path label f, Names path label → SlotStore.lookup d.rootCapacity s label = some f →
    ∃ e data, d.findFile host path = .ok (some e, some rootDirEntry) ∧ e.attributes = f.attributes ∧
      d.getFileSize WALK_LIMIT e = .ok f.data.length ∧
      d.readFile WALK_LIMIT e = .ok (some data) ∧ data.take f.data.length = f.data
  space : d.countFreeClusters + s.usedClusters d.bpb = d.bpb.getClusterCount

theorem FatDisk.Backs.shows {d : FatDisk} {s : RootStore} {own : Nat → List Nat} (h : d.Backs s own)
    (host : Host) : d.Shows host s where
  missing path label hn hnone := by
    have hfind : SlotStore.find d.rootCapacity s label = none := by
      cases hfind : SlotStore.find d.rootCapacity s label with
      | none => rfl
      | some k =>
        obtain ⟨hk, f, hs⟩ := SlotStore.find_some hfind
        rw [(SlotStore.lookup_eq_iff h.distinct).mpr ⟨k, hk, hs⟩] at hnone
        exact nomatch hnone
    rw [h.findFile_eq hn.canonical host hn.short hn.single, hfind]
    rfl
  found path label f hn hsome := by
    obtain ⟨k, hk, hs⟩ := (SlotStore.lookup_eq_iff h.distinct).mp hsome
    have hfind := (SlotStore.find_eq_iff h.distinct).mpr ⟨hk, f, hs⟩
    have hfile := h.file k hk label f hs
    obtain ⟨data, hread, hdata⟩ := h.readFile_eq hk hs h.sound.count_le_limit
    refine ⟨d.rootEntry k, data, ?_, hfile.attributes, ?_, hread, hdata⟩
    · rw [h.findFile_eq hn.canonical host hn.short hn.single, hfind]
      rfl
    · rw [getFileSize, hfile.regular.not_directory, if_neg Bool.false_ne_true, hfile.size]
  space := h.countFree

/-- **The tool keeps a store of files**: on a formatted volume, a run of commands succeeds where the
store says so, and leaves the files that the store has. -/
theorem commands_refine {img : Image} (h : FreshImage b img) (hlabel : hasCustomLabel b = false)
    {host : Host} {d : FatDisk} (hopen : openDisk host img 0 = .ok (some d)) (cs : List StoreCommand)
    (hcs : ∀ c ∈ cs, c.Proper b) :
    ∃ img', runCommands img cs = .ok ((RootStore.empty.commands b cs).1, img') ∧
      ∀ host', ∃ d', openDisk host' img' 0 = .ok (some d') ∧ d'.bpb = b ∧
        d'.Shows host' (RootStore.empty.commands b cs).2 := by
  obtain ⟨img', hrun, hholds⟩ := (h.holds hlabel hopen).commands hcs
  refine ⟨img', hrun, fun host' => ?_⟩
  obtain ⟨d', own, hopen', hbpb, hbacks⟩ := hholds host'
  exact ⟨d', hopen', hbpb, hbacks.shows host'⟩

theorem names_A : ∃ label, Names [0x41] label := by
  refine ⟨(shortLabel [0x41]).get rfl, by decide, by rfl, ?_, ?_⟩
  · exact (Option.some_get _).symm
  · decide

/-- `attr -s` of the file that `addA` adds. -/
def systemA : AttrArgs where
  host := (addA []).host
  file := [0x41]
  updateSys := some true

/-- A file that is added, made a system file and overwritten. -/
def overwrites : List StoreCommand := [.add (addA [7, 8]), .attr systemA, .add (addA [9])]

theorem overwrites_refine :
    ∃ img', runCommands smallImage overwrites =
        .ok ((RootStore.empty.commands smallVolume overwrites).1, img') ∧
      ∀ host', ∃ d', openDisk host' img' 0 = .ok (some d') ∧ d'.bpb = smallVolume ∧
        d'.Shows host' (RootStore.empty.commands smallVolume overwrites).2 := by
  obtain ⟨label, hn⟩ := names_A
  refine commands_refine smallImage_fresh (by decide) (smallImage_open systemA.host) _ ?_
  refine List.forall_mem_cons.mpr ⟨.add rfl hn (by decide) (by decide), ?_⟩
  refine List.forall_mem_cons.mpr ⟨.attr rfl hn ⟨by decide, by decide⟩, ?_⟩
  exact List.forall_mem_cons.mpr ⟨.add rfl hn (by decide) (by decide), fun c hc => nomatch hc⟩

end Runs

end Ohwes.Fatfs

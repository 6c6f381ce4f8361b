import Ohwes.Fatfs.Allocation
import Ohwes.Fatfs.RootStoreRuns

/-! # Files without gaps

The boot loader does not read the FAT. On a volume that only new files were added to, the clusters of
each file follow one another, and it can do without (`commands_pack`). -/

namespace Ohwes.Fatfs
open Library ShortName
set_option autoImplicit false

/-- The disk holds the store, every file in clusters that follow one another, and the free clusters are
those from `k` on. -/
structure FatDisk.Packs (d : FatDisk) (s : RootStore) (own : Nat → List Nat) (k : Nat) : Prop where
  backs : d.Backs s own
  packed : d.Packed k
  consecutive : ∀ i < d.rootCapacity, ∀ label f, s i = some (label, f) →
    own i = List.range' (d.rootEntry i).firstCluster.toNat (RootStore.cost d.bpb f)

/-- Whoever opens the image has such a disk. -/
def Image.Packs (img : Image) (b : BiosParamBlock) (s : RootStore) : Prop :=
  ∀ host, ∃ d own k, openDisk host img 0 = .ok (some d) ∧ d.bpb = b ∧ d.Packs s own k

/-- The reserved sectors, the first of which boots, are the same. -/
def Image.SameReserved (b : BiosParamBlock) (img img' : Image) : Prop :=
  ∀ x < b.reservedSectorCount.toNat * b.sectorSize.toNat, img'.data x = img.data x

namespace FatDisk
variable {d d' : FatDisk} {s : RootStore} {own : Nat → List Nat} {k : Nat}

theorem Packed.congr (h : d.Packed k) (hbpb : d'.bpb = d.bpb)
    (hnext : ∀ x ∈ d.clusterNumbers, d'.getCluster x = d.getCluster x) : d'.Packed k := by
  obtain ⟨hlow, hfree⟩ := h
  refine ⟨hlow, ?_⟩
  rw [hbpb, ← hfree, freeList, freeList, clusterNumbers_congr hbpb]
  exact List.filter_congr fun x hx => by rw [isClusterFree, isClusterFree, hnext x hx]

theorem Packs.reopened (h : d.Packs s own k) (hr : d.Reopened d') : d'.Packs s own k where
  backs := h.backs.reopened hr
  packed := h.packed.congr hr.bpb fun x hx => by
    have := d.mem_clusterNumbers.mp hx
    exact hr.getCluster h.backs.sound (by omega)
  consecutive i hi label f hs := by
    rw [rootCapacity, hr.bpb] at hi
    rw [hr.rootEntry_eq, hr.bpb]
    exact h.consecutive i hi label f hs

theorem Packs.close_packs (h : d'.Packs s own k) {host : Host} {img : Image}
    (hopen : openDisk host img 0 = .ok (some d)) (hbpb : d'.bpb = d.bpb)
    (hsync : d'.dirty = true ∨ d'.Synced) (hlow : ∀ x < d.rootStart, d'.file x = d.file x) :
    (⟨d'.close.file, img.size⟩ : Image).Packs d.bpb s ∧
      img.SameReserved d.bpb ⟨d'.close.file, img.size⟩ := by
  refine ⟨fun host' => ?_, fun x hx => ?_⟩
  · obtain ⟨d1, hopen1, hr⟩ := h.backs.sound.openDisk_close hopen hbpb hsync hlow host'
    exact ⟨d1, own, k, hopen1, hr.bpb.trans hbpb, h.reopened hr⟩
  · have hfat : x < d'.fatStart := by
      rwa [fatStart, hbpb]
    have hroot : x < d.rootStart := by
      rw [rootStart_eq]
      exact Nat.lt_of_lt_of_le hx (Nat.le_add_right _ _)
    obtain ⟨-, -, hm, rfl⟩ := openDisk_zero.mp hopen
    change d'.close.file x = img.data x
    rw [h.backs.sound.close_file (Or.inl hfat), hlow x hroot]
    rfl

theorem Packs.file_consecutive (h : d.Packs s own k) {i : Nat} (hi : i < d.rootCapacity)
    {label : Vector Byte 11} {f : StoredFile} (hs : s i = some (label, f)) :
    d.Consecutive (d.rootEntry i) := by
  have hfile := h.backs.file i hi label f hs
  have hchain := hfile.chain
  rw [h.consecutive i hi label f hs, RootStore.cost, ← hfile.size] at hchain
  refine ⟨hfile.regular, ?_, hchain⟩
  rw [hfile.size]
  exact hfile.size_pos

/-- The files in the other slots are where they were. -/
theorem Packs.storeRoot (h : d.Packs s own k) (hbpb : d'.bpb = d.bpb) {i : Nat} {label : Vector Byte 11}
    {e : DirEntry} {f : StoredFile} {l : List Nat} (junk : Buffer)
    (hl : l = List.range' e.firstCluster.toNat (RootStore.cost d.bpb f)) (j : Nat)
    (hj : j < d.rootCapacity) (label' : Vector Byte 11) (f' : StoredFile)
    (hs : SlotStore.put s i label f j = some (label', f')) : Function.update own i l j =
      List.range' ((d'.storeRoot (d.rootTable junk) i e).rootEntry j).firstCluster.toNat
        (RootStore.cost d.bpb f') := by
  rw [storeRoot_entry hbpb junk i e hj]
  rw [SlotStore.put, Function.update_apply] at hs
  split at hs
  · obtain ⟨rfl, rfl⟩ := Prod.mk.inj (Option.some.inj hs)
    rw [if_pos ‹_›, ‹j = i›, Function.update_self, hl]
  · rw [if_neg ‹_›, Function.update_of_ne ‹_›]
    exact h.consecutive j hj label' f' hs

/-- **A new file lies behind the others.** -/
theorem Packs.adds (h : d.Packs s own k) {a : AddArgs} {label : Vector Byte 11} {i : Nat} {e : DirEntry}
    {rest l : List Nat} (hadds : d.Adds s own a label i e d' rest l) (hnew : s i = none)
    (hname : ∃ name, Canonical name label)
    (hfit : a.data.length + d.bpb.getClusterSize ≤ 4294967296) (junk : Buffer) :
    ∃ k', (d'.storeRoot (d.rootTable junk) i e).Packs (SlotStore.put s i label (newFile s i a.data))
      (Function.update own i l) k' := by
  have hd := h.backs.sound
  have hpos : 0 < a.data.length := hadds.entry.size_pos
  have hsize : e.fileSize.toNat = a.data.length := hadds.entry.size
  have hbase : d.baseEntry s a i = d.newEntry a := by
    rw [baseEntry, hnew]
    rfl
  have hfirst : e.firstCluster = BitVec.ofNat 16 d.findNextFreeCluster := by
    rw [(describe_eq hadds.described).2.2.1, hbase]
    rfl
  have hspace := hadds.space
  obtain ⟨n, hn, -, -⟩ := ceilDiv_bounds hpos d.clusterSize_pos
  have hcost : RootStore.cost d.bpb (newFile s i a.data) = n + 1 := hn
  have hmem := (hd.new_first hfirst).resolve_right fun hno => by omega
  obtain ⟨hrange, -⟩ := mem_freeClusters.mp hmem
  have hnext : e.firstCluster.toNat = d.findNextFreeCluster := by
    have hspec := (findNextFreeCluster_spec ⟨_, mem_freeClusters.mp hmem⟩).1
    rw [hfirst, hd.clusterNumber_ofNat hspec]
  have hlimit : 0 < WALK_LIMIT := by decide
  obtain ⟨d1, hwrite, -, hwrote, hk, hpacked⟩ := Packed.writeFile_allots hd h.backs.mark
    hadds.entry.regular (by omega) (by rwa [hsize]) (by rw [hsize]; exact hspace) hnext
    (filled a.host.junk a.data) hlimit h.packed
  rw [hadds.write] at hwrite
  obtain rfl : d' = d1 := (Prod.mk.inj (Except.ok.inj hwrite)).2
  rw [hsize, ← hk] at hwrote
  have hl : l = List.range' e.firstCluster.toNat (RootStore.cost d.bpb (newFile s i a.data)) :=
    hadds.wrote.chain.unique hwrote.chain
  have hbpb := hadds.wrote.touches.bpb
  refine ⟨_, hadds.backs h.backs hname junk, hpacked.congr rfl fun x _ =>
    congrFun (getCluster_congr rfl rfl) x, fun j hj label' f' hs => ?_⟩
  change j < d'.bpb.getRootCapacity at hj
  rw [hbpb] at hj
  have hplace := h.storeRoot hbpb junk hl j hj label' f' hs
  change _ = List.range' _ (RootStore.cost d'.bpb f')
  rw [hbpb]
  exact hplace

end FatDisk

section Steps
variable {img : Image} {b : BiosParamBlock} {s : RootStore} (h : img.Packs b s)
include h

theorem Image.Packs.add {a : AddArgs} {label : Vector Byte 11} (hsector : a.sector = 0)
    (hn : Names a.dst label) (hpos : 0 < a.data.length)
    (hfit : a.data.length + b.getClusterSize ≤ 4294967296) (hforce : a.force = false) :
    ∃ img', Fatfs.add img a = .ok ((s.add b label a.force a.data).1, img') ∧
      img'.Packs b (s.add b label a.force a.data).2 ∧ img.SameReserved b img' := by
  obtain ⟨d, own, k, hopen, rfl, hd⟩ := h a.host
  rcases hd.backs.add_cases hopen hsector hn hpos hfit with ⟨hadd, hstore⟩ |
    ⟨i, e, d', rest, l, hadds, hadd, hstore⟩
  · rw [hstore]
    exact ⟨_, hadd, hd.close_packs hopen rfl (Or.inr (FatDisk.opened_synced hopen)) fun _ _ => rfl⟩
  · -- without force the slot was free
    have hnew : s i = none := by
      have hplace : SlotStore.place d.bpb.getRootCapacity s label = some i := hadds.place
      rw [RootStore.add, hplace, hforce] at hstore
      cases hs : s i with
      | none => rfl
      | some x =>
        simp only [hs, Option.isSome_some, Bool.not_false, Bool.and_self, if_true] at hstore
        exact absurd (Prod.mk.inj hstore).1 Bool.false_ne_true
    have hcommit := hadds.wrote.touches.committed hd.backs.sound hadds.dirty
      (d.rootTable a.host.junk) i e
    obtain ⟨k', hpacks⟩ := hd.adds hadds hnew ⟨_, hn.canonical⟩ hfit a.host.junk
    rw [hstore]
    exact ⟨_, hadd, hpacks.close_packs hopen hcommit.bpb (Or.inl hcommit.dirty) hcommit.low⟩

theorem Image.Packs.holds : img.Holds b s := by
  intro host
  obtain ⟨d, own, k, hopen, hbpb, hd⟩ := h host
  exact ⟨d, own, hopen, hbpb, hd.backs⟩

theorem Image.Packs.attr {a : AttrArgs} {label : Vector Byte 11} (hsector : a.sector = 0)
    (hn : Names a.file label) (ha : a.KeepsFiles) :
    ∃ img', Fatfs.attr img a = .ok ((s.attr b label a.change).1, img') ∧
      img'.Packs b (s.attr b label a.change).2 ∧ img.SameReserved b img' := by
  obtain ⟨d, own, k, hopen, rfl, hd⟩ := h a.host
  have hsync := FatDisk.opened_synced hopen
  rcases hd.backs.attr_cases hn hopen hsector with ⟨success, hattr, hstore⟩ |
    ⟨i, f, hfind, hs, hattr, hstore⟩
  · rw [hstore]
    exact ⟨_, hattr, hd.close_packs hopen rfl (Or.inr hsync) fun _ _ => rfl⟩
  · have hi := (SlotStore.find_some hfind).1
    have hfirst : (a.apply (d.rootEntry i)).firstCluster = (d.rootEntry i).firstCluster := by
      rw [a.apply_eq]
    have hown : own i = List.range' (a.apply (d.rootEntry i)).firstCluster.toNat
        (RootStore.cost d.bpb ⟨a.change f.attributes, f.data⟩) := by
      rw [hfirst]
      exact hd.consecutive i hi label f hs
    have hpacks : (d.storeRoot (d.rootTable a.host.junk) i (a.apply (d.rootEntry i))).Packs
        (SlotStore.put s i label ⟨a.change f.attributes, f.data⟩) (Function.update own i (own i)) k :=
      ⟨hd.backs.storeAttributes hfind hs ha a.host.junk,
        hd.packed.congr rfl fun x _ => congrFun (FatDisk.getCluster_congr rfl rfl) x,
        hd.storeRoot rfl a.host.junk hown⟩
    rw [hstore]
    exact ⟨_, hattr, hpacks.close_packs hopen rfl (Or.inr (FatDisk.storeRoot_synced hsync _ _ _))
      (d.storeRoot_low _ _ _)⟩

/-- **The step**: neither an `add` without `--force` nor an `attr` leaves a gap. -/
theorem Image.Packs.command {c : StoreCommand} (hc : c.Proper b) (hforce : c.forces = false) :
    ∃ img', c.run img = .ok ((RootStore.command b s c).1, img') ∧
      img'.Packs b (RootStore.command b s c).2 ∧ img.SameReserved b img' := by
  cases hc with
  | @add a label hsector hn hpos hfit =>
    have hlabel : (StoreCommand.add a).label = some label := hn.canonical.label_eq
    rw [RootStore.command, hlabel, Option.elim_some]
    exact h.add hsector hn hpos hfit hforce
  | @attr a label hsector hn ha =>
    have hlabel : (StoreCommand.attr a).label = some label := hn.canonical.label_eq
    rw [RootStore.command, hlabel, Option.elim_some]
    exact h.attr hsector hn ha

omit h in
/-- **The run**: by induction on the commands. -/
theorem Image.Packs.commands (h : img.Packs b s) {cs : List StoreCommand}
    (hcs : ∀ c ∈ cs, c.Proper b ∧ c.forces = false) :
    ∃ img', runCommands img cs = .ok ((RootStore.commands b s cs).1, img') ∧
      img'.Packs b (RootStore.commands b s cs).2 ∧ img.SameReserved b img' := by
  induction cs generalizing img s with
  | nil => exact ⟨img, rfl, h, fun _ _ => rfl⟩
  | cons c cs ih =>
    obtain ⟨hc, hcs⟩ := List.forall_mem_cons.mp hcs
    obtain ⟨img1, hrun, h1, hsame⟩ := h.command hc.1 hc.2
    obtain ⟨img2, hrest, h2, hsame'⟩ := ih h1 hcs
    refine ⟨img2, ?_, h2, fun x hx => (hsame' x hx).trans (hsame x hx)⟩
    rw [runCommands, hrun, ok_bind]
    dsimp only
    rw [hrest]
    rfl

end Steps

/-! ## Formatted volumes -/

theorem FatDisk.Blank.packs {d : FatDisk} (h : d.Blank) :
    d.Packs RootStore.empty (fun _ => []) CLUSTER_FIRST where
  backs := h.backs
  packed := by
    refine ⟨le_refl _, ?_⟩
    rw [freeList, List.filter_eq_self.mpr fun x hx => ?_, clusterNumbers, Nat.add_sub_cancel]
    rw [isClusterFree, h.clusters x hx, beq_self_eq_true]
  consecutive _ _ _ _ hs := nomatch hs

theorem FreshImage.packs {b : BiosParamBlock} {img : Image} (h : FreshImage b img)
    (hlabel : hasCustomLabel b = false) {host : Host} {d : FatDisk}
    (hopen : openDisk host img 0 = .ok (some d)) : img.Packs b RootStore.empty := by
  intro host'
  obtain ⟨d', hopen', hbpb, hblank⟩ := h.blank hlabel hopen host'
  exact ⟨d', _, _, hopen', hbpb, hblank.packs⟩

/-- **Without `--force` no file has a gap**: whatever was added, and in whatever order. -/
theorem commands_pack {b : BiosParamBlock} {img : Image} (h : FreshImage b img)
    (hlabel : hasCustomLabel b = false) {host : Host} {d : FatDisk}
    (hopen : openDisk host img 0 = .ok (some d)) (cs : List StoreCommand)
    (hcs : ∀ c ∈ cs, c.Proper b ∧ c.forces = false) :
    ∃ successes img', runCommands img cs = .ok (successes, img') ∧
      ∀ host', ∃ d', openDisk host' img' 0 = .ok (some d') ∧
        ∀ i < d'.rootCapacity, (d'.rootEntry i).isFree = false → d'.Consecutive (d'.rootEntry i) := by
  obtain ⟨img', hrun, hpacks, -⟩ := (h.packs hlabel hopen).commands hcs
  refine ⟨_, img', hrun, fun host' => ?_⟩
  obtain ⟨d', own, k, hopen', -, hd⟩ := hpacks host'
  refine ⟨d', hopen', fun i hi hused => ?_⟩
  rw [hd.backs.isFree_eq hi, Option.isNone_eq_false_iff, Option.isSome_iff_exists] at hused
  obtain ⟨x, hs⟩ := hused
  exact hd.file_consecutive hi hs

/-- `add` of a file, and `attr` of it. -/
def additions : List StoreCommand := [.add { addA [7, 8] with force := false }, .attr systemA]

theorem additions_pack :
    ∃ successes img', runCommands smallImage additions = .ok (successes, img') ∧
      ∀ host', ∃ d', openDisk host' img' 0 = .ok (some d') ∧
        ∀ i < d'.rootCapacity, (d'.rootEntry i).isFree = false → d'.Consecutive (d'.rootEntry i) := by
  obtain ⟨label, hn⟩ := names_A
  refine commands_pack smallImage_fresh (by decide) (smallImage_open systemA.host) _ ?_
  refine List.forall_mem_cons.mpr ⟨⟨.add rfl hn (by decide) (by decide), rfl⟩, ?_⟩
  exact List.forall_mem_cons.mpr ⟨⟨.attr rfl hn ⟨by decide, by decide⟩, rfl⟩, fun c hc => nomatch hc⟩

end Ohwes.Fatfs

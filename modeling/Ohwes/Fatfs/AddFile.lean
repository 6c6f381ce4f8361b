import Ohwes.Fatfs.RootFiles

/-! # What `add` does to the clusters of a disk

The command hands `WriteFile` an entry whose first cluster is already chosen: the one it had, or a
free one. A file of no clusters leaves that cluster free, and the entry still names it. -/

namespace Ohwes.Fatfs
open Library
set_option autoImplicit false

namespace FatDisk
variable {d : FatDisk} {e : DirEntry}

/-! ## `WriteFile` on an entry with a first cluster -/

section WriteFile
variable (hd : d.Sound) (he : e.Regular) {rest : List Nat} (h : d.Chain e.firstCluster.toNat rest)
  (buf : Buffer) {steps : Nat} (hsteps : rest.length ≤ steps)
include he h hsteps

theorem writeFile_eq (hfirst : e.firstCluster ≠ 0) :
    d.writeFile steps e buf =
      if d.bpb.clustersFor e.fileSize.toNat > d.countFreeClusters then .ok (false, d)
      else (writeLoop e.fileSize.toNat (d.bpb.clustersFor e.fileSize.toNat) buf
        (max (d.bpb.clustersFor e.fileSize.toNat) rest.length) 0 ⟨d, e.firstCluster.toNat, 0⟩).map
          fun r => if r.1 then (true, { r.2.disk with dirty := true }) else (false, r.2.disk) := by
  have hsize : d.getFileSize steps e = .ok e.fileSize.toNat := by
    rw [getFileSize, he.not_directory, if_neg Bool.false_ne_true]
  rw [writeFile_def, he.not_root, he.not_refused hfirst, if_neg Bool.false_ne_true,
    if_neg Bool.false_ne_true, hsize, ok_bind]
  dsimp only
  rw [countClusters_eq he.not_root hfirst h hsteps, ok_bind, ← BiosParamBlock.clustersFor]
  split
  · rfl
  · generalize writeLoop _ _ _ _ _ _ = r
    rcases r with e | ⟨success, w⟩
    · rfl
    · cases success
      · rfl
      · rfl

include hd

/-- A file of no clusters frees those it had, and the one that was chosen for it. -/
theorem writeFile_empty (hrange : ∀ x ∈ rest, x ∈ d.clusterNumbers)
    (hzero : d.bpb.clustersFor e.fileSize.toNat = 0) :
    ∃ d', d.writeFile steps e buf = .ok (true, d') ∧ d'.dirty = true ∧ d.Touches rest d' ∧
      ∀ x ∈ rest, d'.getCluster x = CLUSTER_FREE := by
  obtain ⟨d', c', hloop, ht, hfreed, -⟩ := writeLoop_free e.fileSize.toNat 0 buf hd (Or.inr h) hrange
    (le_refl 0) 0
  refine ⟨{ d' with dirty := true }, ?_, rfl, ht.setDirty, fun x hx => ?_⟩
  · rw [writeFile_eq he h buf hsteps (first_ne_zero (hrange _ h.head_mem)), hzero,
      if_neg (Nat.not_lt_zero _), Nat.max_eq_right (Nat.zero_le _), hloop]
    rfl
  · rw [getCluster_setDirty]
    exact hfreed x hx

end WriteFile

theorem getClusterNumberEOC_ofNat (d : FatDisk) :
    (BitVec.ofNat 16 d.getClusterNumberEOC).toNat = d.getClusterNumberEOC :=
  Nat.mod_eq_of_lt d.getClusterNumberEOC_lt

theorem EndMark.not_mem (hd : d.Sound) {v : Nat} (h : d.EndMark v) : v ∉ d.clusterNumbers :=
  fun hv => hd.not_eoc hv h.eoc

/-- The marks lie behind every number that the FAT has an entry for. -/
theorem EndMark.beyond (hd : d.Sound) {v : Nat} (h : d.EndMark v) :
    CLUSTER_FIRST ≤ v ∧ v - CLUSTER_FIRST > d.bpb.getClusterCount := by
  have hlimit := hd.limit
  rw [EndMark, CLUSTER_EOC_12_LO, CLUSTER_EOC_16_LO] at h
  rw [MAX_CLUSTERS_16] at hlimit
  rw [CLUSTER_FIRST]
  split at h
  · rename_i h12
    have h12 := d.bpb.isFat12_iff.mp h12
    rw [MAX_CLUSTERS_12] at h12
    omega
  · omega

theorem EndMark.getCluster_eq (hd : d.Sound) {v : Nat} (h : d.EndMark v) :
    d.getCluster v = d.getClusterNumberEOC := if_pos (h.beyond hd)

theorem EndMark.setCluster_eq (hd : d.Sound) {v : Nat} (h : d.EndMark v) (value : Nat) :
    d.setCluster v value = (d.getClusterNumberEOC, d) := if_pos (Or.inr (h.beyond hd).2)

/-- The first cluster is the end mark: there was none free when the entry was made. -/
def NoFirst (d : FatDisk) (e : DirEntry) : Prop := e.firstCluster.toNat = d.getClusterNumberEOC

/-- Through such an entry, `WriteFile` writes nothing but an empty file. -/
theorem writeFile_noFirst (hd : d.Sound) (hmark : d.EndMark d.getClusterNumberEOC) (he : e.Regular)
    (hfirst : d.NoFirst e) (buf : Buffer) {steps : Nat} (hsteps : 0 < steps) {r : Bool × FatDisk}
    (hw : d.writeFile steps e buf = .ok r) :
    r = (false, d) ∨ d.bpb.clustersFor e.fileSize.toNat = 0 ∧ r = (true, { d with dirty := true }) := by
  rw [NoFirst] at hfirst
  have hne : e.firstCluster ≠ 0 := by
    intro h0
    rw [← hfirst, h0] at hmark
    exact d.not_endMark_free hmark
  have hchain : d.Chain e.firstCluster.toNat [e.firstCluster.toNat] := by
    refine .last ?_
    rw [hfirst, hmark.getCluster_eq hd]
    exact hmark.eoc
  rw [writeFile_eq he hchain buf hsteps hne] at hw
  split at hw
  · exact Or.inl (Except.ok.inj hw).symm
  · rcases Nat.eq_zero_or_pos (d.bpb.clustersFor e.fileSize.toNat) with hzero | hpos
    · rw [hzero, hfirst, List.length_singleton, Nat.max_eq_right (Nat.zero_le 1), writeLoop_succ,
        if_pos (Nat.le_refl 0)] at hw
      dsimp only at hw
      rw [hmark.setCluster_eq hd, writeLoop] at hw
      exact Or.inr ⟨hzero, (Except.ok.inj hw).symm⟩
    · obtain ⟨n, hn⟩ : ∃ n, max (d.bpb.clustersFor e.fileSize.toNat) 1 = n + 1 :=
        ⟨max (d.bpb.clustersFor e.fileSize.toNat) 1 - 1, by omega⟩
      have heoc : d.isClusterNumberEOC d.getClusterNumberEOC = true := hmark.eoc
      rw [List.length_singleton, hn, writeLoop_succ, if_neg (by omega), writePass_def, hfirst, heoc] at hw
      cases hw

/-! ## The clusters of an entry -/

/-- The chain of the entry passes through the cluster. -/
def Holds (d : FatDisk) (e : DirEntry) (x : Nat) : Prop :=
  e.firstCluster ≠ 0 ∧ x ∈ d.clusterNumbers ∧
    Passes d.getCluster d.Eoc e.firstCluster.toNat x

/-- The entry is the volume label, a file with its clusters, or a file without. -/
inductive Owns (d : FatDisk) (e : DirEntry) : List Nat → Prop
  | label : e.isLabel = true → e.isDirectory = false → e.firstCluster = 0 → Owns d e []
  | file {l : List Nat} : e.Regular → d.GoodChain e.firstCluster.toNat l → Owns d e l
  | bare : e.Regular → d.NoFirst e → Owns d e []

namespace Owns
variable {l : List Nat}

theorem range (h : d.Owns e l) {x : Nat} (hx : x ∈ l) : x ∈ d.clusterNumbers := by
  cases h with
  | label _ _ _ => exact nomatch hx
  | file _ hl => exact hl.2 x hx
  | bare _ _ => exact nomatch hx

theorem not_free (h : d.Owns e l) {x : Nat} (hx : x ∈ l) : x ∉ d.freeClusters := by
  cases h with
  | label _ _ _ => exact nomatch hx
  | file _ hl =>
    have hfree := GoodChain.not_free hl hx
    rw [isClusterFree, beq_eq_false_iff_ne] at hfree
    exact fun hmem => hfree (mem_freeClusters.mp hmem).2
  | bare _ _ => exact nomatch hx

variable (hd : d.Sound) (hmark : d.EndMark d.getClusterNumberEOC)
include hd hmark

theorem holds_iff (h : d.Owns e l) {x : Nat} : d.Holds e x ↔ x ∈ l := by
  cases h with
  | label _ _ h0 => exact ⟨fun h => absurd h0 h.1, fun h => nomatch h⟩
  | file _ hl =>
    have hpass := (hl.chain hd).passes_iff (x := x)
    exact ⟨fun h => hpass.mp h.2.2, fun h => ⟨first_ne_zero hl.head_range, hl.2 x h, hpass.mpr h⟩⟩
  | bare _ hfirst =>
    have hchain : d.Chain e.firstCluster.toNat [e.firstCluster.toNat] := by
      refine .last ?_
      rw [hfirst, hmark.getCluster_eq hd]
      exact hmark.eoc
    refine ⟨fun ⟨_, hx, hpass⟩ => ?_, fun h => nomatch h⟩
    rw [hchain.passes_iff, List.mem_singleton, hfirst] at hpass
    rw [hpass] at hx
    exact absurd hx (hmark.not_mem hd)

/-- The first cluster of an entry is not free. -/
theorem first_used (h : d.Owns e l) (hfirst : e.firstCluster ≠ 0) :
    d.isClusterFree e.firstCluster.toNat = false := by
  cases h with
  | label _ _ h0 => exact absurd h0 hfirst
  | file _ hl => exact GoodChain.not_free hl hl.head_mem
  | bare _ hno =>
    rw [hno, isClusterFree, hmark.getCluster_eq hd, beq_eq_false_iff_ne]
    exact fun h0 => d.not_endMark_free (h0 ▸ hmark)

omit hd hmark in
theorem congr {d' : FatDisk} (h : d.Owns e l) (hbpb : d'.bpb = d.bpb)
    (hone : d'.getCluster 1 = d.getCluster 1) (hnext : ∀ x ∈ l, d'.getCluster x = d.getCluster x) :
    d'.Owns e l := by
  cases h with
  | label hlabel hdir h0 => exact .label hlabel hdir h0
  | file he hl => exact .file he (GoodChain.congr hl hbpb hnext)
  | bare he hno =>
    refine .bare he ?_
    rw [NoFirst, getClusterNumberEOC_eq, hbpb, hone, ← getClusterNumberEOC_eq]
    exact hno

end Owns

/-- Whether the slot is in use. -/
def Live (d : FatDisk) (i : Nat) : Prop := i < d.rootCapacity ∧ (d.rootEntry i).isFree = false

/-- The invariant: each entry has its clusters, and no cluster is in two chains. -/
structure Tidy (d : FatDisk) : Prop where
  sound : d.Sound
  mark : d.EndMark d.getClusterNumberEOC
  owned : ∀ i, d.Live i → ∃ l, d.Owns (d.rootEntry i) l
  apart : ∀ i j, d.Live i → d.Live j → i ≠ j →
    ∀ x, d.Holds (d.rootEntry i) x → ¬ d.Holds (d.rootEntry j) x

/-- The invariant by the clusters of each slot. -/
theorem Tidy.of_owns (hd : d.Sound) (hmark : d.EndMark d.getClusterNumberEOC) (own : Nat → List Nat)
    (howns : ∀ i, d.Live i → d.Owns (d.rootEntry i) (own i))
    (hapart : ∀ i j, d.Live i → d.Live j → i ≠ j → (own i).Disjoint (own j)) : d.Tidy := by
  refine ⟨hd, hmark, fun i hi => ⟨own i, howns i hi⟩, fun i j hi hj hij x hx hx' => ?_⟩
  rw [(howns i hi).holds_iff hd hmark] at hx
  rw [(howns j hj).holds_iff hd hmark] at hx'
  exact hapart i j hi hj hij hx hx'

theorem Tidy.exists_owns (h : d.Tidy) :
    ∃ own : Nat → List Nat, (∀ i, d.Live i → d.Owns (d.rootEntry i) (own i)) ∧
      ∀ i j, d.Live i → d.Live j → i ≠ j → (own i).Disjoint (own j) := by
  choose! own howns using h.owned
  refine ⟨own, howns, fun i j hi hj hij x hx hx' => ?_⟩
  rw [← (howns i hi).holds_iff h.sound h.mark] at hx
  rw [← (howns j hj).holds_iff h.sound h.mark] at hx'
  exact h.apart i j hi hj hij x hx hx'

/-- The end mark is an entry of the FAT as well. -/
theorem mark_congr {d' : FatDisk} (hmark : d.EndMark d.getClusterNumberEOC) (hbpb : d'.bpb = d.bpb)
    (hone : d'.getCluster 1 = d.getCluster 1) : d'.EndMark d'.getClusterNumberEOC := by
  rw [endMark_congr hbpb, getClusterNumberEOC_eq, hbpb, hone, ← getClusterNumberEOC_eq]
  exact hmark

/-- The invariant depends on the FAT and on the entries of the root directory. -/
theorem Tidy.congr (h : d.Tidy) {d' : FatDisk} (hbpb : d'.bpb = d.bpb) (hbase : d'.base = d.base)
    (hnext : ∀ x ≤ d.bpb.getClusterCount + 1, d'.getCluster x = d.getCluster x)
    (hroot : ∀ i < d.rootCapacity, d'.rootEntry i = d.rootEntry i) : d'.Tidy := by
  obtain ⟨own, howns, hapart⟩ := h.exists_owns
  have hone := hnext 1 (by omega)
  have hlive : ∀ i, d'.Live i → d.Live i ∧ d'.rootEntry i = d.rootEntry i := by
    rintro i ⟨hi, hfree⟩
    rw [rootCapacity, hbpb, ← rootCapacity] at hi
    rw [hroot i hi] at hfree
    exact ⟨⟨hi, hfree⟩, hroot i hi⟩
  refine .of_owns (h.sound.congr hbpb hbase) (mark_congr h.mark hbpb hone) own (fun i hi => ?_)
    fun i j hi hj => hapart i j (hlive i hi).1 (hlive j hj).1
  obtain ⟨hi', heq⟩ := hlive i hi
  have hi'' := howns i hi'
  rw [heq]
  refine hi''.congr hbpb hone fun x hx => hnext x ?_
  have := d.mem_clusterNumbers.mp (hi''.range hx)
  omega

theorem Owns.not_directory {l : List Nat} (h : d.Owns e l) : e.isDirectory = false := by
  cases h with
  | label _ hdir _ => exact hdir
  | file he _ => exact he.not_directory
  | bare he _ => exact he.not_directory

theorem Owns.not_longFileName {l : List Nat} (h : d.Owns e l) : e.isLongFileName = false := by
  have hvalid : e.isValidFile = true → e.isLongFileName = false := by
    intro hv
    simp only [DirEntry.isValidFile, Bool.and_eq_true, Bool.not_eq_true'] at hv
    exact hv.1.1.2
  cases h with
  | label hlabel _ _ =>
    simp only [DirEntry.isLabel, Bool.and_eq_true, Bool.not_eq_true'] at hlabel
    rw [DirEntry.isLongFileName, hlabel.2, Bool.false_and]
  | file he _ => exact hvalid he.valid
  | bare he _ => exact hvalid he.valid

theorem Tidy.flatRoot (h : d.Tidy) : d.FlatRoot where
  sound := h.sound
  short i hi hfree := by
    obtain ⟨l, hl⟩ := h.owned i ⟨hi, hfree⟩
    exact hl.not_longFileName
  flat i hi hfree := by
    obtain ⟨l, hl⟩ := h.owned i ⟨hi, hfree⟩
    exact hl.not_directory

/-! ## How the write begins -/

/-- The clusters that are there for the entry before it is written. -/
inductive Start (d : FatDisk) (e : DirEntry) : List Nat → Prop
  | label : e.isLabel = true → e.isDirectory = false → e.firstCluster = 0 → Start d e []
  | chain {rest : List Nat} : e.Regular → d.Chain e.firstCluster.toNat rest →
      (∀ x ∈ rest, x ∈ d.clusterNumbers) → Start d e rest
  | bare : e.Regular → d.NoFirst e → Start d e []

theorem regular_of_attributes {e e' : DirEntry} (h : e.Regular) (hfree : e'.isFree = false)
    (hattr : e'.attributes = e.attributes) (hfirst : e'.firstCluster = e.firstCluster) :
    e'.Regular := by
  have hall : ∀ attr, e'.hasAttribute attr = e.hasAttribute attr := fun attr => by
    rw [DirEntry.hasAttribute, DirEntry.hasAttribute, hattr]
  have hvalid := h.valid
  constructor
  · simp only [DirEntry.isValidFile, DirEntry.isLongFileName, DirEntry.isDeviceFile,
      DirEntry.isLabel, hall, hfirst, hfree] at hvalid ⊢
    simp only [Bool.and_eq_true] at hvalid ⊢
    exact ⟨⟨⟨rfl, hvalid.1.1.2⟩, hvalid.1.2⟩, hvalid.2⟩
  · rw [DirEntry.isDirectory, hall]
    exact h.not_directory

theorem init_regular {now : Tm} {first : BitVec 16} {e : DirEntry} (hfree : e.isFree = false)
    (hattr : e.attributes = ({ DirEntry.init now with firstCluster := first } : DirEntry).attributes) :
    e.Regular := by
  have hattr : e.attributes = 0 := hattr
  constructor
  · simp [DirEntry.isValidFile, DirEntry.isLongFileName, DirEntry.isDeviceFile, DirEntry.isLabel,
      DirEntry.hasAttribute, hattr, hfree, ATTR_LFN, ATTR_LABEL, ATTR_SYSTEM, ATTR_HIDDEN,
      ATTR_READONLY, ATTR_DEVICE]
  · simp [DirEntry.isDirectory, DirEntry.hasAttribute, hattr, ATTR_DIRECTORY]

theorem Sound.clusterNumber_ofNat (hd : d.Sound) {c : Nat} (hc : c ∈ d.clusterNumbers) :
    (BitVec.ofNat 16 c).toNat = c := by
  have hlt := hd.clusterNumber_lt hc
  rw [BitVec.toNat_ofNat]
  refine Nat.mod_eq_of_lt ?_
  rw [CLUSTER_BAD_12, CLUSTER_BAD_16] at hlt
  split at hlt <;> omega

/-- A new file begins at a free cluster, if there is one. -/
theorem Sound.new_first (hd : d.Sound) {e : DirEntry}
    (hfirst : e.firstCluster = BitVec.ofNat 16 d.findNextFreeCluster) :
    e.firstCluster.toNat ∈ d.freeClusters ∨ d.NoFirst e ∧ d.countFreeClusters = 0 := by
  by_cases hfree : ∃ x ∈ d.clusterNumbers, d.getCluster x = CLUSTER_FREE
  · obtain ⟨hmem, hnext⟩ := findNextFreeCluster_spec hfree
    rw [hfirst, hd.clusterNumber_ofNat hmem]
    exact .inl (mem_freeClusters.mpr ⟨hmem, hnext⟩)
  · have hnone : ∀ x ∈ d.clusterNumbers, ¬ d.isClusterFree x = true :=
      fun x hx hxf => hfree ⟨x, hx, beq_iff_eq.mp hxf⟩
    refine .inr ⟨?_, List.countP_eq_zero.mpr hnone⟩
    rw [NoFirst, hfirst, findNextFreeCluster, List.find?_eq_none.mpr hnone, Option.getD_none,
      getClusterNumberEOC_ofNat]

theorem Start.of_new (hd : d.Sound) {e : DirEntry} (he : e.Regular)
    (hfirst : e.firstCluster = BitVec.ofNat 16 d.findNextFreeCluster) :
    ∃ rest, d.Start e rest ∧ ∀ x ∈ rest, x ∈ d.freeClusters := by
  rcases hd.new_first hfirst with hmem | ⟨hno, -⟩
  · obtain ⟨hrange, hnext⟩ := mem_freeClusters.mp hmem
    refine ⟨[e.firstCluster.toNat], .chain he (.last ?_) (by simpa using hrange), by simpa using hmem⟩
    rw [hnext]
    exact d.eoc_zero
  · exact ⟨[], .bare he hno, fun x hx => nomatch hx⟩

/-- The entry that `add` is about to write begins with clusters that no other entry has. -/
theorem Tidy.start (h : d.Tidy) {a : AddArgs} {p : Prepared} (hp : d.WillWrite a p) :
    ∃ rest, d.Start p.entry rest ∧
      ∀ i, d.Live i → i ≠ p.slot → ∀ x ∈ rest, ¬ d.Holds (d.rootEntry i) x := by
  obtain ⟨e, ⟨hslot, hchosen⟩, hdescribe⟩ := hp.entry
  obtain ⟨hfree, hattr, hfirst, -⟩ := describe_eq hdescribe
  rcases hchosen with ⟨hlive, rfl⟩ | ⟨-, rfl⟩
  · obtain ⟨l, hl⟩ := h.owned p.slot ⟨hslot, hlive⟩
    refine ⟨l, ?_, fun i hi hne x hx => ?_⟩
    · cases hl with
      | label hlabel hdir h0 =>
        rw [DirEntry.isLabel, DirEntry.hasAttribute, DirEntry.hasAttribute, ← hattr] at hlabel
        rw [DirEntry.isDirectory, DirEntry.hasAttribute, ← hattr] at hdir
        exact .label hlabel hdir (hfirst.trans h0)
      | file he hl =>
        rw [← hfirst] at hl
        exact .chain (regular_of_attributes he hfree hattr hfirst) (hl.chain h.sound) hl.2
      | bare he hno =>
        refine .bare (regular_of_attributes he hfree hattr hfirst) ?_
        rwa [NoFirst, hfirst]
    · exact h.apart p.slot i ⟨hslot, hlive⟩ hi hne.symm x ((hl.holds_iff h.sound h.mark).mpr hx)
  · obtain ⟨rest, hstart, hrest⟩ := Start.of_new h.sound (init_regular hfree hattr) hfirst
    refine ⟨rest, hstart, fun i hi _ x hx hholds => ?_⟩
    obtain ⟨l, hl⟩ := h.owned i hi
    exact hl.not_free ((hl.holds_iff h.sound h.mark).mp hholds) (hrest x hx)

/-! ## What is left when the file is written -/

/-- The disk `d'` after the write of the file: of the clusters, those of `s` may have changed, and
the entry has its own among them. -/
structure Stored (d : FatDisk) (e : DirEntry) (s : List Nat) (d' : FatDisk) : Prop where
  touches : d.Touches s d'
  range : ∀ x ∈ s, x ∈ d.clusterNumbers
  dirty : d'.dirty = true
  owned : ∃ l, d'.Owns e l ∧ ∀ x ∈ l, x ∈ s

theorem Start.length_le {rest : List Nat} (h : d.Start e rest) (hd : d.Sound) :
    rest.length ≤ WALK_LIMIT := by
  have hlimit := hd.limit
  rw [MAX_CLUSTERS_16] at hlimit
  cases h with
  | label _ _ _ => exact Nat.zero_le _
  | chain _ hchain hrange =>
    have hle := (hchain.nodup.subperm hrange).length_le
    rw [clusterNumbers, List.length_range'] at hle
    rw [WALK_LIMIT]
    omega
  | bare _ _ => exact Nat.zero_le _

theorem writeFile_label (hlabel : e.isLabel = true) (hdir : e.isDirectory = false) (steps : Nat)
    (buf : Buffer) : d.writeFile steps e buf = .ok (false, d) := by
  have hroot : e.isRoot = false := by
    rw [DirEntry.isRoot, hdir, Bool.false_and]
  have hrefused : refusesFile e = true := by
    rw [refusesFile, DirEntry.isValidFile, hlabel, Bool.not_true, Bool.and_false, Bool.not_false,
      Bool.true_or]
  rw [writeFile_def, hroot, hrefused, if_neg Bool.false_ne_true, if_pos rfl]

/-- The write fails and changes nothing, or the entry has its clusters afterwards. -/
theorem Start.writeFile_stored (hd : d.Sound) (hmark : d.EndMark d.getClusterNumberEOC)
    {rest : List Nat} (h : d.Start e rest)
    (hcount : e.firstCluster.toNat ∈ d.clusterNumbers → 0 < d.bpb.clustersFor e.fileSize.toNat)
    {buf : Buffer} {r : Bool × FatDisk} (hw : d.writeFile WALK_LIMIT e buf = .ok r) :
    r = (false, d) ∨ r.1 = true ∧ ∃ s, d.Stored e s r.2 ∧ ∀ x ∈ s, x ∈ rest ∨ x ∈ d.freeClusters := by
  have hlen := h.length_le hd
  cases h with
  | label hlabel hdir _ =>
    rw [writeFile_label hlabel hdir] at hw
    exact Or.inl (Except.ok.inj hw).symm
  | bare he hno =>
    rcases writeFile_noFirst hd hmark he hno buf (by decide) hw with rfl | ⟨-, rfl⟩
    · exact Or.inl rfl
    · have htouch : d.Touches [] { d with dirty := true } := (Touches.refl d []).setDirty
      refine Or.inr ⟨rfl, [], ⟨htouch, fun x hx => (nomatch hx), rfl, [], ?_, fun x hx => nomatch hx⟩,
        fun x hx => nomatch hx⟩
      exact (Owns.bare he hno).congr rfl (htouch.next 1 List.not_mem_nil) fun x hx => nomatch hx
  | chain he hchain hrange =>
    have hpos := hcount (hrange _ hchain.head_mem)
    obtain ⟨hsize, hfit⟩ := (clustersFor_pos_iff d.clusterSize_pos e.fileSize.isLt).mp hpos
    have hceil := clustersFor_eq hfit
    by_cases hspace : d.bpb.clustersFor e.fileSize.toNat ≤ d.countFreeClusters
    · obtain ⟨d', l, hwrite, hdirty, -, hwrote⟩ := writeFile_writes hd hmark he hsize hfit hchain hrange
        (hceil ▸ hspace) buf hlen
      rw [hwrite] at hw
      obtain rfl := Except.ok.inj hw
      refine Or.inr ⟨rfl, rest ++ l, ⟨hwrote.touches, fun x hx => ?_, hdirty, l, .file he hwrote.chain,
        fun x hx => List.mem_append_right rest hx⟩, fun x hx => ?_⟩
      · rcases List.mem_append.mp hx with hx | hx
        · exact hrange x hx
        · rcases hwrote.fresh x hx with hx | hx
          · exact hrange x hx
          · exact (mem_freeClusters.mp hx).1
      · rcases List.mem_append.mp hx with hx | hx
        · exact Or.inl hx
        · exact hwrote.fresh x hx
    · rw [writeFile_eq he hchain buf hlen (first_ne_zero (hrange _ hchain.head_mem)),
        if_pos (Nat.not_le.mp hspace)] at hw
      exact Or.inl (Except.ok.inj hw).symm

/-- The directory is written with the entry in its slot. -/
def storeRoot (d : FatDisk) (table : Buffer) (k : Nat) (e : DirEntry) : FatDisk :=
  d.put d.rootStart (slice (storeEntry table k e) 0 d.rootBytes)

theorem storeRoot_entry {d' : FatDisk} (hbpb : d'.bpb = d.bpb) (junk : Buffer) (k : Nat)
    (e : DirEntry) {i : Nat} (hi : i < d.rootCapacity) :
    (d'.storeRoot (d.rootTable junk) k e).rootEntry i = if i = k then e else d.rootEntry i := by
  have hi' : i < d'.rootCapacity := by
    rwa [rootCapacity, hbpb]
  rw [storeRoot, rootEntry_put d' _ hi', entryAt_storeEntry, entryAt_rootTable junk hi]

/-- The invariant is kept where the entry took the place of one, or a free one, beside entries whose
clusters were not touched. -/
theorem Tidy.storeRoot_tidy (h : d.Tidy) {s : List Nat} {d' : FatDisk} (hs : d.Stored e s d')
    {k : Nat} (hapart : ∀ i, d.Live i → i ≠ k → ∀ x ∈ s, ¬ d.Holds (d.rootEntry i) x)
    (junk : Buffer) : (d'.storeRoot (d.rootTable junk) k e).Tidy := by
  have hbpb : (d'.storeRoot (d.rootTable junk) k e).bpb = d.bpb := hs.touches.bpb
  have hentry : ∀ i < d.rootCapacity, (d'.storeRoot (d.rootTable junk) k e).rootEntry i =
      if i = k then e else d.rootEntry i := fun i hi => storeRoot_entry hs.touches.bpb junk k e hi
  have hnext : (d'.storeRoot (d.rootTable junk) k e).getCluster = d'.getCluster :=
    getCluster_congr rfl rfl
  have hsound : (d'.storeRoot (d.rootTable junk) k e).Sound := sound_put (hs.touches.sound h.sound) _ _
  obtain ⟨own, howns, hdisj⟩ := h.exists_owns
  obtain ⟨ls, hls, hsub⟩ := hs.owned
  have hslot : (d'.storeRoot (d.rootTable junk) k e).Owns e ls :=
    hls.congr rfl (congrFun hnext 1) fun x _ => congrFun hnext x
  generalize d'.storeRoot (d.rootTable junk) k e = d2 at *
  have hone : d2.getCluster 1 = d.getCluster 1 := by
    rw [hnext]
    refine hs.touches.next 1 fun h1 => ?_
    have := d.mem_clusterNumbers.mp (hs.range 1 h1)
    omega
  have hother : ∀ i, d.Live i → i ≠ k → ∀ x ∈ own i, x ∉ s := fun i hi hne x hx hxs =>
    hapart i hi hne x hxs (((howns i hi).holds_iff h.sound h.mark).mpr hx)
  have hlive : ∀ i, d2.Live i → i < d.rootCapacity ∧ (i ≠ k → d.Live i) := by
    rintro i ⟨hi, hfree⟩
    rw [rootCapacity, hbpb, ← rootCapacity] at hi
    refine ⟨hi, fun hne => ⟨hi, ?_⟩⟩
    rwa [hentry i hi, if_neg hne] at hfree
  -- the slot of the entry has its clusters among `s`, the others have what they had
  refine .of_owns hsound (mark_congr h.mark hbpb hone) (Function.update own k ls)
    (fun i hi => ?_) fun i j hi hj hij => ?_
  · obtain ⟨hi', hi2⟩ := hlive i hi
    rw [hentry i hi']
    by_cases hik : i = k
    · rw [if_pos hik, hik, Function.update_self]
      exact hslot
    · rw [if_neg hik, Function.update_of_ne hik]
      refine (howns i (hi2 hik)).congr hbpb hone fun x hx => ?_
      rw [hnext]
      exact hs.touches.next x (hother i (hi2 hik) hik x hx)
  · by_cases hik : i = k
    · have hjk : j ≠ k := fun hjk => hij (hik.trans hjk.symm)
      rw [hik, Function.update_self, Function.update_of_ne hjk]
      exact fun x hx hxj => hother j ((hlive j hj).2 hjk) hjk x hxj (hsub x hx)
    · rw [Function.update_of_ne hik]
      by_cases hjk : j = k
      · rw [hjk, Function.update_self]
        exact fun x hxi hx => hother i ((hlive i hi).2 hik) hik x hxi (hsub x hx)
      · rw [Function.update_of_ne hjk]
        exact hdisj i j ((hlive i hi).2 hik) ((hlive j hj).2 hjk) hij

/-! ## The whole of the write -/

/-- What holds of the disk after the directory was written, whatever the entry is. -/
structure Committed (d d2 : FatDisk) : Prop where
  sound : d2.Sound
  bpb : d2.bpb = d.bpb
  dirty : d2.dirty = true
  low : ∀ x < d.rootStart, d2.file x = d.file x

theorem Touches.committed (hd : d.Sound) {s : List Nat} {d' : FatDisk} (ht : d.Touches s d')
    (hdirty : d'.dirty = true) (table : Buffer) (k : Nat) (e : DirEntry) :
    d.Committed (d'.storeRoot table k e) where
  sound := sound_put (ht.sound hd) _ _
  bpb := ht.bpb
  dirty := hdirty
  low x hx := by
    have hle := d.rootStart_le
    have hstart : d'.rootStart = d.rootStart := by
      rw [rootStart, rootBase, ht.bpb, rootStart, rootBase]
    rw [← ht.low x (by omega)]
    exact overlay_before _ _ (by omega)

section Commit
variable {a : AddArgs} {p : Prepared} (hp : d.WillWrite a p)
include hp

theorem WillWrite.fileSize_eq : p.entry.fileSize.toNat = a.data.length := by
  obtain ⟨e, -, hdescribe⟩ := hp.entry
  rw [(describe_eq hdescribe).2.2.2, BitVec.toNat_ofNat]
  exact Nat.mod_eq_of_lt hp.size

/-- Once the file is written, so is the directory. -/
theorem commitAdd_eq {d' : FatDisk} (ht : d'.Sound)
    (hw : d.writeFile WALK_LIMIT p.entry (filled a.host.junk a.data) = .ok (true, d')) :
    d.commitAdd a p =
      .ok (true, d'.storeRoot (d.rootTable a.host.junk) p.slot p.entry) := by
  rw [commitAdd, hw, ok_bind]
  dsimp only
  rw [if_pos rfl, hp.parent, hp.table]
  exact ht.writeFile_root _ rootDirEntry_isRoot _

variable (h : d.Tidy)
include h

/-- **The step**: an `add` of a file that takes a cluster, or is given none, keeps the invariant. -/
theorem Tidy.commitAdd_tidy
    (hcount : p.entry.firstCluster.toNat ∈ d.clusterNumbers → 0 < d.bpb.clustersFor a.data.length)
    {success : Bool} {d2 : FatDisk} (hc : d.commitAdd a p = .ok (success, d2)) :
    d2 = d ∨ d2.Tidy ∧ d.Committed d2 := by
  obtain ⟨rest, hstart, hrest⟩ := h.start hp
  rw [← hp.fileSize_eq] at hcount
  cases hw : d.writeFile WALK_LIMIT p.entry (filled a.host.junk a.data) with
  | error e =>
    rw [commitAdd, hw] at hc
    exact nomatch hc
  | ok r =>
    rcases hstart.writeFile_stored h.sound h.mark hcount hw with rfl | ⟨htrue, s, hs, hfrom⟩
    · rw [commitAdd, hw, ok_bind] at hc
      exact Or.inl (Prod.mk.inj (Except.ok.inj hc)).2.symm
    · obtain ⟨success', d'⟩ := r
      obtain rfl : success' = true := htrue
      rw [commitAdd_eq hp (hs.touches.sound h.sound) hw] at hc
      obtain ⟨-, rfl⟩ := Prod.mk.inj (Except.ok.inj hc)
      refine Or.inr ⟨h.storeRoot_tidy hs (fun i hi hne x hx => ?_) _,
        hs.touches.committed h.sound hs.dirty _ _ _⟩
      rcases hfrom x hx with hx | hx
      · exact hrest i hi hne x hx
      · intro hholds
        obtain ⟨l, hl⟩ := h.owned i hi
        exact hl.not_free ((hl.holds_iff h.sound h.mark).mp hholds) hx

/-- A file of no clusters is written with an entry that names a free one. -/
theorem Tidy.commitAdd_frees (hfirst : p.entry.firstCluster.toNat ∈ d.clusterNumbers)
    (hzero : d.bpb.clustersFor a.data.length = 0) :
    ∃ d2, d.commitAdd a p = .ok (true, d2) ∧ d.Committed d2 ∧ d2.Live p.slot ∧
      d2.rootEntry p.slot = p.entry ∧ d2.isClusterFree p.entry.firstCluster.toNat = true := by
  obtain ⟨rest, hstart, -⟩ := h.start hp
  have hlen := hstart.length_le h.sound
  rw [← hp.fileSize_eq] at hzero
  cases hstart with
  | label _ _ h0 => exact absurd h0 (first_ne_zero hfirst)
  | bare _ hno =>
    rw [hno] at hfirst
    exact absurd hfirst (h.mark.not_mem h.sound)
  | chain he hchain hrange =>
    obtain ⟨d', hwrite, hdirty, ht, hfreed⟩ := writeFile_empty h.sound he hchain
      (filled a.host.junk a.data) hlen hrange hzero
    obtain ⟨e, ⟨hslot, -⟩, hdescribe⟩ := hp.entry
    have hnext : (d'.storeRoot (d.rootTable a.host.junk) p.slot p.entry).getCluster =
        d'.getCluster := getCluster_congr rfl rfl
    have hentry := storeRoot_entry ht.bpb a.host.junk p.slot p.entry hslot
    rw [if_pos rfl] at hentry
    refine ⟨_, commitAdd_eq hp (ht.sound h.sound) hwrite, ht.committed h.sound hdirty _ _ _,
      ⟨?_, ?_⟩, hentry, ?_⟩
    · change p.slot < d'.rootCapacity
      rwa [rootCapacity, ht.bpb]
    · rw [hentry]
      exact (describe_eq hdescribe).1
    · rw [isClusterFree, hnext, hfreed _ hchain.head_mem]
      rfl

end Commit

end FatDisk

end Ohwes.Fatfs

import Ohwes.Fatfs.FileBuffers
import Ohwes.Fatfs.RootDir

/-! # The directories of a disk

A directory is known by its clusters; the root directory has none. Its entries are those of the root
area or of its clusters one after the other. Writing the table of a directory back changes that
table and no other, nor the chain or the content of a file. -/

namespace Ohwes.Fatfs
open Library
set_option autoImplicit false

namespace FatDisk
variable (d : FatDisk)

/-- The bytes of the directory with the clusters `l`. -/
def tableAt (l : List Nat) : Buffer :=
  if l = [] then fun a => d.file (d.rootStart + a)
  else fun a => ((l.map d.content).flatten[a]?).getD 0

/-- How many entries the directory has. -/
def dirSlots (l : List Nat) : Nat :=
  if l = [] then d.rootCapacity else l.length * d.bpb.getClusterSize / DIR_ENTRY_SIZE

def dirEntry (l : List Nat) (i : Nat) : DirEntry := entryAt (d.tableAt l) i

/-- The clusters of the directories, from the root on. -/
inductive IsDir : List Nat → Prop
  | root : IsDir []
  | sub {l l' : List Nat} {i : Nat} : IsDir l → i < d.dirSlots l →
      (d.dirEntry l i).isValidFile = true → (d.dirEntry l i).isDirectory = true →
      d.Clusters (d.dirEntry l i) l' → IsDir l'

/-- A directory tree: chains end, and no directory shares a cluster with another one or a file. -/
structure Tree : Prop where
  sound : d.Sound
  mark : d.EndMark d.getClusterNumberEOC
  clusters : ∀ l, d.IsDir l → ∀ i < d.dirSlots l, (d.dirEntry l i).isValidFile = true →
    ∃ l', d.Clusters (d.dirEntry l i) l'
  apart : ∀ l l', d.IsDir l → d.IsDir l' → l = l' ∨ l.Disjoint l'
  files : ∀ l l', d.IsDir l → d.IsDir l' → ∀ i < d.dirSlots l, (d.dirEntry l i).Regular →
    ∀ f, d.Clusters (d.dirEntry l i) f → f.Disjoint l'

/-- An entry under which `ReadFile` and `WriteFile` find the directory with the clusters `l`. -/
structure DirAt (e : DirEntry) (l : List Nat) : Prop where
  clusters : d.Clusters e l
  directory : e.isDirectory = true
  usable : e.isRoot = false → e.isValidFile = true

variable {d} {e : DirEntry} {l : List Nat}

theorem dirAt_root : d.DirAt rootDirEntry [] :=
  ⟨rfl, by decide, fun h => absurd h (by decide)⟩

theorem Clusters.first_eq_zero (h : d.Clusters e []) : e.firstCluster = 0 := by
  by_contra hne
  rw [Clusters, if_neg hne] at h
  exact absurd h.head_mem List.not_mem_nil

theorem Clusters.good (h : d.Clusters e l) (hne : l ≠ []) :
    e.firstCluster ≠ 0 ∧ d.GoodChain e.firstCluster.toNat l := by
  rw [Clusters] at h
  split at h
  · exact absurd h hne
  · exact ⟨‹_›, h⟩

theorem DirAt.isRoot_iff (h : d.DirAt e l) : e.isRoot = true ↔ l = [] := by
  rw [DirEntry.isRoot, h.directory, Bool.true_and, beq_iff_eq]
  constructor
  · intro hfirst
    have hclusters := h.clusters
    rwa [Clusters, if_pos hfirst] at hclusters
  · rintro rfl
    exact h.clusters.first_eq_zero

theorem DirAt.chain (h : d.DirAt e l) (hne : l ≠ []) :
    e.firstCluster ≠ 0 ∧ d.GoodChain e.firstCluster.toNat l := h.clusters.good hne

theorem DirAt.not_root (h : d.DirAt e l) (hne : l ≠ []) : e.isRoot = false :=
  Bool.eq_false_iff.mpr fun hroot => hne (h.isRoot_iff.mp hroot)

theorem DirAt.not_refused (h : d.DirAt e l) (hne : l ≠ []) : refusesFile e = false := by
  rw [refusesFile, h.usable (h.not_root hne), beq_eq_false_iff_ne.mpr (h.chain hne).1]
  rfl

/-- The clusters of a chain are part of the volume. -/
theorem GoodChain.bytes_lt (hd : d.Sound) {c : Nat} (h : d.GoodChain c l) :
    l.length * d.bpb.getClusterSize < 4294967296 := by
  have hfit := hd.clusters_fit
  have hlt := d.getDiskSize_lt
  have hmul := Nat.mul_le_mul_right d.bpb.getClusterSize h.length_le
  omega

theorem GoodChain.length_le_limit (hd : d.Sound) {c : Nat} (h : d.GoodChain c l) :
    l.length ≤ WALK_LIMIT := by
  have hle := h.length_le
  have hlimit := hd.limit
  rw [MAX_CLUSTERS_16] at hlimit
  rw [WALK_LIMIT]
  omega

theorem GoodChain.head_eq {c c' : Nat} {d' : FatDisk} (h : d.GoodChain c l)
    (h' : d'.GoodChain c' l) : c = c' := by
  obtain ⟨t, ht⟩ := h.1.eq_cons
  obtain ⟨t', ht'⟩ := h'.1.eq_cons
  rw [ht] at ht'
  exact (List.cons.inj ht').1

theorem Clusters.mem_numbers (h : d.Clusters e l) {x : Nat} (hx : x ∈ l) : x ∈ d.clusterNumbers := by
  rw [Clusters] at h
  split at h
  · rw [h] at hx
    cases hx
  · exact h.2 x hx

theorem Sound.count_le_limit (hd : d.Sound) : d.bpb.getClusterCount ≤ WALK_LIMIT := by
  have hlimit := hd.limit
  rw [MAX_CLUSTERS_16] at hlimit
  rw [WALK_LIMIT]
  omega

/-! ## Reading a directory -/

/-- What `ReadFile` reads of the directory. -/
def dirBytes (d : FatDisk) (l : List Nat) : List Byte :=
  if l = [] then slice d.file d.rootStart d.rootBytes else (l.map d.content).flatten

/-- The size that callers allocate for it. -/
def dirSize (d : FatDisk) (l : List Nat) : Nat :=
  if l = [] then d.rootCapacity * DIR_ENTRY_SIZE else l.length * d.bpb.getClusterSize

theorem dirSize_div (d : FatDisk) (l : List Nat) : d.dirSize l / DIR_ENTRY_SIZE = d.dirSlots l := by
  rw [dirSize, dirSlots]
  split
  · exact Nat.mul_div_cancel _ (by decide)
  · rfl

theorem slot_le (d : FatDisk) (l : List Nat) {i : Nat} (hi : i < d.dirSlots l) :
    DIR_ENTRY_SIZE * (i + 1) ≤ d.dirSize l := by
  rw [← dirSize_div] at hi
  exact (Nat.mul_le_mul_left _ hi).trans (Nat.mul_div_le _ _)

theorem content_flatten_length (l : List Nat) :
    (l.map d.content).flatten.length = l.length * d.bpb.getClusterSize := by
  induction l with
  | nil => rw [List.map_nil, List.flatten_nil, List.length_nil, List.length_nil, Nat.zero_mul]
  | cons c l ih =>
    rw [List.map_cons, List.flatten_cons, List.length_append, ih, content, slice_length,
      List.length_cons, Nat.succ_mul, Nat.add_comm]

theorem entryAt_dirBytes (junk : Buffer) {i : Nat} (hi : i < d.dirSlots l) :
    entryAt (filled junk (d.dirBytes l)) i = d.dirEntry l i := by
  have hle := d.slot_le l hi
  rw [dirBytes, dirEntry, tableAt]
  rw [dirSize] at hle
  by_cases hl : l = []
  · rw [if_pos hl] at hle ⊢
    rw [if_pos hl]
    refine entryAt_filled junk d.file d.rootStart ?_
    have hcapacity := d.rootCapacity_le
    rw [Nat.mul_comm] at hcapacity
    exact hle.trans hcapacity
  · rw [if_neg hl] at hle ⊢
    rw [if_neg hl]
    refine entryAt_congr fun a _ ha => ?_
    have hlt : a < (l.map d.content).flatten.length := by
      rw [content_flatten_length]
      omega
    rw [filled, List.getElem?_eq_getElem hlt, Option.getD_some]
    have := overlay_inside junk 0 hlt
    rwa [Nat.zero_add] at this

theorem DirAt.allocSize (hd : d.Sound) (h : d.DirAt e l) :
    d.getFileAllocSize WALK_LIMIT e = .ok (d.dirSize l) := by
  by_cases hl : l = []
  · rw [getFileAllocSize_root _ (h.isRoot_iff.mpr hl), dirSize, if_pos hl]
  · obtain ⟨hfirst, hchain⟩ := h.chain hl
    have hroot := h.not_root hl
    rw [getFileAllocSize, hroot, h.usable hroot, if_neg Bool.false_ne_true, if_neg (by simpa using hfirst),
      countClusters_eq hroot hfirst (hchain.chain hd) (hchain.length_le_limit hd), ok_bind,
      u32_of_lt (hchain.bytes_lt hd), dirSize, if_neg hl]
    rfl

theorem DirAt.readFile (hd : d.Sound) (h : d.DirAt e l) :
    d.readFile WALK_LIMIT e = .ok (some (d.dirBytes l)) := by
  by_cases hl : l = []
  · rw [readFile_root _ (h.isRoot_iff.mpr hl), hd.readRoot_eq, dirBytes, if_pos hl]
  · rw [readFile_chain hd (h.not_root hl) (h.not_refused hl) (h.chain hl).2 hd.count_le_limit,
      dirBytes, if_neg hl]

/-! ## Reading into a buffer of the allocated size -/

theorem Sound.readable (hd : d.Sound) {c : Nat} (hc : c ∈ d.clusterNumbers) : d.Readable c :=
  hd.clusterInside_eq hc

theorem DirAt.endedChain (hd : d.Sound) (h : d.DirAt e l) : d.EndedChain e l := by
  have hclusters := h.clusters
  rw [Clusters] at hclusters
  rw [EndedChain]
  split at hclusters
  · rwa [if_pos ‹_›]
  · rw [if_neg ‹_›]
    exact hclusters.chain hd

/-- A directory fits the buffer that is allocated for it; the root does if its entries fill its
sectors. -/
theorem DirAt.readFileInto (hd : d.Sound) (h : d.DirAt e l) (hfits : l = [] → d.RootFits) :
    d.readFileInto (d.dirSize l) WALK_LIMIT e = .ok (some (d.dirBytes l)) := by
  suffices hr : ∃ r, d.readFileInto (d.dirSize l) WALK_LIMIT e = .ok r by
    obtain ⟨r, hr⟩ := hr
    have hread := d.readFileInto_ok hr
    rw [h.readFile hd] at hread
    rw [hr, Except.ok.inj hread]
  by_cases hl : l = []
  · have hroot := h.isRoot_iff.mpr hl
    rw [readFileInto_root hroot, dirSize, if_pos hl, rootCapacity, touchRoot_iff.mpr (hfits hl)]
    exact ⟨_, rfl⟩
  · obtain ⟨-, hchain⟩ := h.chain hl
    have hsize : d.dirSize l = u32 (l.length * d.bpb.getClusterSize) := by
      rw [dirSize, if_neg hl, u32_of_lt (hchain.bytes_lt hd)]
    have hno : ¬ d.Overruns (d.dirSize l) 0 l := by
      rw [hsize, not_overruns_allocated]
      exact .inl (hchain.bytes_lt hd)
    obtain ⟨bs, hbs⟩ := ((h.endedChain hd).readFileInto_data (h.not_root hl) (h.not_refused hl)
      (d.dirSize l) (hchain.length_le_limit hd)).mpr
        (.inr ⟨hno, fun c hc => hd.readable (hchain.2 c hc)⟩)
    exact ⟨_, hbs⟩

/-! ## Writing a directory back -/

/-- The passes over a chain that keeps its length store the table and leave the chain. -/
theorem rewritten_keeps (hd : d.Sound) {c : Nat} (hc : c ∈ d.clusterNumbers) {bs : List Byte}
    (hbs : bs.length = d.bpb.getClusterSize) :
    (d.rewritten c (d.getCluster c) bs).getCluster = d.getCluster := by
  rw [rewritten_next hd hc (d.fits_getCluster c) hbs, Function.update_eq_self]

/-- The clusters `l` from `c` on hold what a file of the size has in the buffer from `b` on, and behind
its end what they held. Their chain is the same up to its end mark. -/
structure Rewrote (d : FatDisk) (fileSize : Nat) (buf : Buffer) (c b : Nat) (l : List Nat)
    (d' : FatDisk) : Prop where
  touches : d.Touches l d'
  next : ∀ x ∈ l, d'.getCluster x = d.getCluster x ∨
    d.EndMark (d.getCluster x) ∧ d.EndMark (d'.getCluster x)
  data : (l.map d'.content).flatten =
    slice buf b (fileSize - b) ++ ((l.map d.content).flatten).drop (fileSize - b)

theorem Rewrote.chain {fileSize c b : Nat} {buf : Buffer} {d' : FatDisk}
    (h : d.Rewrote fileSize buf c b l d') (hl : d.GoodChain c l) : d'.GoodChain c l := by
  have hstop : d'.EndMark = d.EndMark := funext fun v => propext (endMark_congr h.touches.bpb v)
  refine ⟨?_, fun x hx => ?_⟩
  · rw [hstop]
    exact hl.1.congr_stop h.next
  · rw [clusterNumbers_congr h.touches.bpb]
    exact hl.2 x hx

/-- The last pass stores what is left, and the mark. -/
theorem rewrote_last {d : FatDisk} (hd : d.Sound) (hmark : d.EndMark d.getClusterNumberEOC)
    (buf : Buffer) {c b fileSize : Nat} (hc : c ∈ d.clusterNumbers) (hs : d.EndMark (d.getCluster c))
    (hhigh : fileSize - b ≤ d.bpb.getClusterSize) :
    d.Rewrote fileSize buf c b [c]
      (d.rewritten c d.getClusterNumberEOC (d.chunk fileSize buf c b)) := by
  have hchunk := d.chunk_length fileSize buf c b
  have hfits := d.fits_getClusterNumberEOC
  refine ⟨rewritten_touches hd hc hfits hchunk, fun x hx => .inr ?_, ?_⟩
  · obtain rfl := List.mem_singleton.mp hx
    refine ⟨hs, ?_⟩
    rw [rewritten_next hd hc hfits hchunk, Function.update_self]
    exact hmark
  · rw [List.map_singleton, List.flatten_singleton, List.map_singleton, List.flatten_singleton,
      rewritten_content hd hc hchunk, chunk, Nat.min_eq_left hhigh]

/-- A pass that stores a whole cluster and keeps its successor, and the passes behind it. -/
theorem Rewrote.cons {d d1 d' : FatDisk} {fileSize c c' b : Nat} {buf : Buffer} {t : List Nat}
    (h : d1.Rewrote fileSize buf c' (b + d.bpb.getClusterSize) t d') (htouch : d.Touches [c] d1)
    (hsame : d1.getCluster = d.getCluster) (hstored : d1.content c = slice buf b d.bpb.getClusterSize)
    (hrange : ∀ y ∈ c :: t, y ∈ d.clusterNumbers) (hnot : c ∉ t)
    (hfull : d.bpb.getClusterSize ≤ fileSize - b) : d.Rewrote fileSize buf c b (c :: t) d' := by
  refine ⟨htouch.trans h.touches, fun y hy => ?_, ?_⟩
  · rcases List.mem_cons.mp hy with rfl | hy
    · exact .inl (by rw [h.touches.next y hnot, hsame])
    · have hlink := h.next y hy
      rwa [endMark_congr htouch.bpb, endMark_congr htouch.bpb, hsame] at hlink
  · have hhead : d'.content c = slice buf b d.bpb.getClusterSize := by
      have hc := hrange c List.mem_cons_self
      rw [h.touches.content c (by rwa [clusterNumbers_congr htouch.bpb]) hnot, hstored]
    have hold : t.map d1.content = t.map d.content := List.map_congr_left fun y hy =>
      htouch.content y (hrange y (List.mem_cons_of_mem c hy)) fun hyc => by
        rw [List.mem_singleton] at hyc
        rw [hyc] at hy
        exact hnot hy
    have hsplit : fileSize - b = d.bpb.getClusterSize + (fileSize - (b + d.bpb.getClusterSize)) := by
      omega
    have hdrop : (d.content c ++ (t.map d.content).flatten).drop (fileSize - b) =
        ((t.map d.content).flatten).drop (fileSize - (b + d.bpb.getClusterSize)) := by
      rw [hsplit, ← List.drop_drop, List.drop_left' (by rw [content, slice_length])]
    rw [List.map_cons, List.flatten_cons, List.map_cons, List.flatten_cons, hdrop, hhead, h.data, hold,
      hsplit, slice_add, List.append_assoc]

theorem writeLoop_rewrites {d : FatDisk} (hd : d.Sound) (hmark : d.EndMark d.getClusterNumberEOC)
    (buf : Buffer) {c b i fileSize newCount : Nat} {l : List Nat} (h : d.GoodChain c l)
    (hsize : fileSize < 4294967296)
    (hlow : l.length * d.bpb.getClusterSize < fileSize - b + d.bpb.getClusterSize)
    (hhigh : fileSize - b ≤ l.length * d.bpb.getClusterSize) (hcount : newCount = i + l.length) :
    ∃ d' c' b', writeLoop fileSize newCount buf l.length i ⟨d, c, b⟩ = .ok (true, ⟨d', c', b'⟩) ∧
      d.Rewrote fileSize buf c b l d' := by
  induction l generalizing d c b i with
  | nil => exact absurd h.1.length_pos (Nat.lt_irrefl 0)
  | cons x t ih =>
    obtain rfl : c = x := by
      obtain ⟨t', ht'⟩ := h.1.eq_cons
      exact (List.cons.inj ht').1.symm
    have hc := h.head_range
    obtain ⟨hchain, hrange⟩ := h
    have hpos := d.clusterSize_pos
    have hchunk := d.chunk_length fileSize buf c b
    cases hchain with
    | last hs =>
      rw [List.length_singleton, Nat.one_mul] at hlow hhigh
      rw [List.length_singleton] at hcount
      have hpass := writePass_eq hd hc (b := b) (by omega) hsize newCount buf i (d.getCluster c)
      rw [linkNext_last hd hc hchunk (by omega)] at hpass
      refine ⟨_, d.getCluster c, b + min (fileSize - b) d.bpb.getClusterSize, ?_,
        rewrote_last hd hmark buf hc hs hhigh⟩
      rw [List.length_singleton, writeLoop_succ, if_neg (by omega)]
      dsimp only
      rw [hpass, ok_bind]
      rfl
    | link hn ht =>
      have hlen := ht.length_pos
      rw [List.length_cons] at hlow hhigh hcount
      rw [Nat.succ_mul] at hlow hhigh
      have hmul := Nat.le_mul_of_pos_left d.bpb.getClusterSize hlen
      have hfull : d.bpb.getClusterSize ≤ fileSize - b := by omega
      have hpass := writePass_eq hd hc (b := b) (by omega) hsize newCount buf i (d.getCluster c)
      have hnext : ¬ d.Eoc (d.getCluster c) :=
        hd.not_eoc (hrange _ (List.mem_cons_of_mem c ht.head_mem))
      rw [linkNext_keep hd hc hchunk (by omega) _ hnext, Nat.min_eq_right hfull] at hpass
      have htouch := rewritten_touches hd hc (d.fits_getCluster c) hchunk
      have hsame := rewritten_keeps hd hc hchunk
      have hstored : (d.rewritten c (d.getCluster c) (d.chunk fileSize buf c b)).content c =
          slice buf b d.bpb.getClusterSize := by
        rw [rewritten_content hd hc hchunk, chunk, Nat.min_eq_right hfull, content,
          List.drop_eq_nil_of_le (by rw [slice_length]), List.append_nil]
      generalize d.rewritten c (d.getCluster c) (d.chunk fileSize buf c b) = d1 at *
      have hrest : d1.GoodChain (d.getCluster c) t :=
        GoodChain.congr ⟨ht, fun y hy => hrange y (List.mem_cons_of_mem c hy)⟩ htouch.bpb
          fun y _ => by rw [hsame]
      have hnot : c ∉ t := (List.nodup_cons.mp (Chain.nodup (.link hn ht))).1
      obtain ⟨d', c', b', hloop, hwrote⟩ := ih (htouch.sound hd)
        (by
          rw [endMark_congr htouch.bpb, htouch.getClusterNumberEOC_eq (by simpa using hc)]
          exact hmark)
        hrest (b := b + d.bpb.getClusterSize) (i := i + 1)
        (by
          rw [htouch.bpb]
          omega)
        (by
          rw [htouch.bpb]
          omega)
        (by omega)
      refine ⟨d', c', b', ?_, hwrote.cons htouch hsame hstored hrange hnot hfull⟩
      rw [List.length_cons, writeLoop_succ, if_neg (by omega)]
      dsimp only
      rw [hpass, ok_bind]
      exact hloop

/-- The table of the directory `l` was written, and nothing else of the tree is different. -/
structure WroteDir (d : FatDisk) (l : List Nat) (buf : Buffer) (d' : FatDisk) : Prop where
  bpb : d'.bpb = d.bpb
  base : d'.base = d.base
  table : ∀ i < d.dirSlots l, d'.dirEntry l i = entryAt buf i
  others : ∀ l', (∀ x ∈ l', x ∈ d.clusterNumbers) → l'.Disjoint l → l' ≠ l →
    ∀ i < d.dirSlots l', d'.dirEntry l' i = d.dirEntry l' i
  clusters : ∀ e f, d.Clusters e f → f = l ∨ f.Disjoint l → d'.Clusters e f
  reads : ∀ e f, d.Clusters e f → e.isRoot = false → f.Disjoint l →
    d'.readFile WALK_LIMIT e = d.readFile WALK_LIMIT e
  free : d'.countFreeClusters = d.countFreeClusters
  mark : d'.getClusterNumberEOC = d.getClusterNumberEOC

theorem WroteDir.sound {d d' : FatDisk} {l : List Nat} {buf : Buffer} (h : d.WroteDir l buf d')
    (hd : d.Sound) : d'.Sound := hd.congr h.bpb h.base

theorem dirSlots_congr {d d' : FatDisk} (h : d'.bpb = d.bpb) (l : List Nat) :
    d'.dirSlots l = d.dirSlots l := by
  rw [dirSlots, dirSlots, rootCapacity, rootCapacity, h]

theorem dirSize_congr {d d' : FatDisk} (h : d'.bpb = d.bpb) (l : List Nat) :
    d'.dirSize l = d.dirSize l := by
  rw [dirSize, dirSize, rootCapacity, rootCapacity, h]

theorem RootFits.congr {d d' : FatDisk} (h : d.RootFits) (hbpb : d'.bpb = d.bpb)
    (hbase : d'.base = d.base) : d'.RootFits := by
  have hinside : ∀ i, d'.sectorInside (d'.rootBase + i) = d.sectorInside (d.rootBase + i) := by
    intro i
    rw [sectorInside, sectorInside, sectorAddr, sectorAddr, rootBase, rootBase, hbpb, hbase]
  rcases h with h | ⟨i, hi, hout⟩
  · refine .inl ?_
    rwa [hbpb]
  · refine .inr ⟨i, ?_, ?_⟩
    · rwa [hbpb]
    · rw [hinside, hout]

theorem IsDir.range (h : d.IsDir l) : ∀ x ∈ l, x ∈ d.clusterNumbers := by
  cases h with
  | root => exact fun x hx => nomatch hx
  | sub _ _ _ _ hclusters => exact fun x hx => hclusters.mem_numbers hx

theorem tableAt_congr {d d' : FatDisk} {l : List Nat} (hne : l ≠ [])
    (h : ∀ x ∈ l, d'.content x = d.content x) : d'.tableAt l = d.tableAt l := by
  rw [tableAt, tableAt, if_neg hne, if_neg hne, List.map_congr_left h]

/-- A directory has the entries it had where its clusters hold what they held. -/
theorem dirEntry_congr {d' : FatDisk} (hbpb : d'.bpb = d.bpb)
    (hlow : ∀ a, a < d.dataStart → d'.file a = d.file a)
    (hcontent : ∀ x ∈ l, d'.content x = d.content x) {i : Nat} (hi : i < d.dirSlots l) :
    d'.dirEntry l i = d.dirEntry l i := by
  by_cases hnil : l = []
  · subst hnil
    have hlt : DIR_ENTRY_SIZE * (i + 1) ≤ d.rootBytes :=
      (Nat.mul_le_mul_left DIR_ENTRY_SIZE hi).trans d.rootCapacity_le
    refine entryAt_congr fun a _ ha => ?_
    have hsum := (fsDataSectors_sum d.bpb).1
    have hstart : d.rootStart + d.rootBytes = d.dataStart := by
      rw [rootStart, rootBytes, dataStart, hsum, rootBase]
      ring
    have hroot : d'.rootStart = d.rootStart := by
      rw [rootStart, rootStart, rootBase, rootBase, hbpb]
    rw [tableAt, tableAt, if_pos rfl, if_pos rfl, hroot]
    exact hlow (d.rootStart + a) (by omega)
  · rw [dirEntry, dirEntry, tableAt_congr hnil hcontent]

/-- Its entries are those of the bytes in its clusters. -/
theorem dirEntry_of_data {d' : FatDisk} {buf : Buffer} (hne : l ≠ [])
    (hdata : (l.map d'.content).flatten = slice buf 0 (l.length * d.bpb.getClusterSize)) {i : Nat}
    (hi : i < d.dirSlots l) : d'.dirEntry l i = entryAt buf i := by
  have hle := d.slot_le l hi
  rw [dirSize, if_neg hne] at hle
  refine entryAt_congr fun a _ ha => ?_
  have hslice := slice_getElem? buf 0 (l.length * d.bpb.getClusterSize) a
  rw [if_pos (by omega), Nat.zero_add] at hslice
  rw [tableAt, if_neg hne, hdata, hslice, Option.getD_some]

/-- So has a file the content. -/
theorem readFile_congr {d' : FatDisk} (hd : d.Sound) (hd' : d'.Sound) (hroot : e.isRoot = false)
    (h : d.Clusters e l) (h' : d'.Clusters e l) (hcontent : ∀ x ∈ l, d'.content x = d.content x) :
    d'.readFile WALK_LIMIT e = d.readFile WALK_LIMIT e := by
  by_cases hok : refusesFile e = true
  · rw [readFile_def, readFile_def, hroot, if_neg Bool.false_ne_true, if_neg Bool.false_ne_true, if_pos hok,
      if_pos hok]
  by_cases hfirst : e.firstCluster = 0
  · have hzero : e.firstCluster.toNat = CLUSTER_FREE := by
      rw [hfirst]
      rfl
    rw [readFile_def, readFile_def, hroot, if_neg Bool.false_ne_true, if_neg Bool.false_ne_true, if_neg hok,
      if_neg hok, hzero, readLoop_of_eoc _ (eoc_zero _), readLoop_of_eoc _ (eoc_zero _)]
  · rw [Clusters, if_neg hfirst] at h h'
    have hok := Bool.eq_false_iff.mpr hok
    rw [readFile_chain hd hroot hok h hd.count_le_limit,
      readFile_chain hd' hroot hok h' hd'.count_le_limit, List.map_congr_left hcontent]

/-! ### The root directory -/

section Root
variable {buf : Buffer} (hd : d.Sound)
include hd

theorem put_root_content {x : Nat} (hx : x ∈ d.clusterNumbers) :
    (d.put d.rootStart (slice buf 0 d.rootBytes)).content x = d.content x := by
  refine slice_overlay_apart d.file _ (.inr ?_)
  have hsum := (fsDataSectors_sum d.bpb).1
  have haddr : d.dataStart ≤ d.clusterAddr x := by
    rw [hd.clusterAddr_eq hx]
    exact Nat.le_add_right _ _
  rw [slice_length]
  refine Nat.le_trans (Nat.le_of_eq ?_) haddr
  rw [rootStart, rootBytes, dataStart, hsum, rootBase]
  ring

theorem put_root_wrote : d.WroteDir [] buf (d.put d.rootStart (slice buf 0 d.rootBytes)) := by
  have hnext : (d.put d.rootStart (slice buf 0 d.rootBytes)).getCluster = d.getCluster :=
    getCluster_congr rfl rfl
  have hsound : (d.put d.rootStart (slice buf 0 d.rootBytes)).Sound :=
    Sound.congr (d := d) rfl rfl hd
  have hkeep : ∀ e f, d.Clusters e f → (d.put d.rootStart (slice buf 0 d.rootBytes)).Clusters e f :=
    fun e f hf => hf.congr rfl fun x _ => by rw [hnext]
  refine ⟨rfl, rfl, fun i hi => d.rootEntry_put buf hi, fun l' hl' _ hne i _ => ?_,
    fun e f hf _ => hkeep e f hf, fun e f hf hroot _ => ?_, ?_, rfl⟩
  · rw [dirEntry, dirEntry, tableAt_congr hne fun x hx => put_root_content hd (hl' x hx)]
  · refine readFile_congr hd hsound hroot hf (hkeep e f hf) fun x hx => put_root_content hd ?_
    exact hf.mem_numbers hx
  · rw [countFreeClusters, countFreeClusters]
    exact List.countP_congr fun x _ => by rw [isClusterFree, isClusterFree, hnext]

end Root

/-! ### A directory in clusters -/

section Chain
variable {d' : FatDisk} {buf : Buffer} {c : Nat} {l : List Nat}

/-- The free clusters and those of a chain are different ones. -/
theorem GoodChain.length_add_free (h : d.GoodChain c l) :
    l.length + d.countFreeClusters ≤ d.bpb.getClusterCount := by
  have hdisj : Disjoint l.toFinset d.freeClusters := by
    rw [Finset.disjoint_left]
    intro x hx hfree
    have hused := GoodChain.not_free h (List.mem_toFinset.mp hx)
    rw [isClusterFree, beq_eq_false_iff_ne] at hused
    exact hused (mem_freeClusters.mp hfree).2
  have hsub : l.toFinset ∪ d.freeClusters ⊆ d.clusterNumbers.toFinset := by
    intro x hx
    rw [List.mem_toFinset]
    rcases Finset.mem_union.mp hx with hx | hx
    · exact h.2 x (List.mem_toFinset.mp hx)
    · exact (mem_freeClusters.mp hx).1
  have hcard := Finset.card_le_card hsub
  have hlen := List.toFinset_card_le d.clusterNumbers
  rw [clusterNumbers, List.length_range'] at hlen
  rw [Finset.card_union_of_disjoint hdisj, List.toFinset_card_of_nodup h.nodup,
    card_freeClusters] at hcard
  exact hcard.trans hlen

theorem Rewrote.setDirty {n b : Nat} (h : d.Rewrote n buf c b l d') :
    d.Rewrote n buf c b l { d' with dirty := true } := by
  refine ⟨h.touches.setDirty, fun x hx => ?_, h.data⟩
  rw [getCluster_setDirty]
  exact h.next x hx

theorem Rewrote.wroteDir (hd : d.Sound) (hl : d.GoodChain c l)
    (h : d.Rewrote (l.length * d.bpb.getClusterSize) buf c 0 l d') : d.WroteDir l buf d' := by
  have hne : l ≠ [] := List.ne_nil_of_length_pos hl.1.length_pos
  have htouch := h.touches
  have hchain := h.chain hl
  refine ⟨h.touches.bpb, h.touches.base, fun i hi => ?_, fun l' hl' hdisj _ i hi => ?_,
    fun e f hf hcases => ?_, fun e f hf _ hdisj => (htouch.frame hd hf hdisj hd.count_le_limit).2, ?_, ?_⟩
  · have hdata := h.data
    rw [Nat.sub_zero, List.drop_eq_nil_of_le (by rw [content_flatten_length]), List.append_nil] at hdata
    exact dirEntry_of_data hne hdata hi
  · exact dirEntry_congr htouch.bpb htouch.low (fun x hx => htouch.content x (hl' x hx) (hdisj hx)) hi
  · rcases hcases with rfl | hdisj
    · rw [Clusters] at hf ⊢
      split at hf
      · rwa [if_pos ‹_›]
      · rw [if_neg ‹_›, hf.head_eq hl]
        exact hchain
    · exact (htouch.frame hd hf hdisj hd.count_le_limit).1
  · have hnumbers := clusterNumbers_congr htouch.bpb
    rw [countFreeClusters, countFreeClusters, hnumbers]
    refine List.countP_congr fun x _ => ?_
    by_cases hx : x ∈ l
    · rw [GoodChain.not_free hl hx, GoodChain.not_free hchain hx]
    · rw [isClusterFree, isClusterFree, htouch.next x hx]
  · exact htouch.getClusterNumberEOC_eq hl.2

/-- `CeilDiv` of a whole number of clusters. -/
theorem wholeClusters_count {n size : Nat} (hpos : 0 < size) (hround : n * size + size ≤ 4294967296) :
    u32 (n * size + size - 1) / size = n := by
  rw [u32_of_lt (by omega), Nat.add_sub_assoc hpos, Nat.mul_comm, Nat.mul_add_div hpos,
    Nat.div_eq_of_lt (by omega), Nat.add_zero]

/-- What needs as many clusters as it has is written where they are, if so many are free besides. -/
theorem Clusters.rewrites (hd : d.Sound) (hmark : d.EndMark d.getClusterNumberEOC)
    (hroot : e.isRoot = false) (hok : refusesFile e = false) (h : d.Clusters e l) (hne : l ≠ [])
    {n size : Nat} (hsize : d.getFileSize WALK_LIMIT e = .ok n) (hn : n < 4294967296) (hle : n ≤ size)
    (hcount : d.bpb.clustersFor n = l.length) (hspace : l.length ≤ d.countFreeClusters)
    (buf : Buffer) :
    ∃ d', d.writeFileFrom size WALK_LIMIT e buf = .ok (true, d') ∧
      d.Rewrote n buf e.firstCluster.toNat 0 l d' := by
  obtain ⟨hfirst, hchain⟩ := h.good hne
  have hpos := d.clusterSize_pos
  have hlen := hchain.1.length_pos
  obtain ⟨hnpos, hfit⟩ := (clustersFor_pos_iff hpos hn).mp (by omega)
  obtain ⟨m, hm, hlow, hhigh⟩ := ceilDiv_bounds hnpos hpos
  rw [← clustersFor_eq hfit, hcount] at hm
  obtain ⟨d', c', b', hloop, hwrote⟩ := writeLoop_rewrites hd hmark buf hchain hn (b := 0) (i := 0)
    (by
      rw [hm, Nat.succ_mul]
      omega)
    (by
      rw [hm]
      exact hhigh) (Nat.zero_add _).symm
  refine ⟨_, ?_, hwrote.setDirty⟩
  rw [writeFileFrom, writeFileWith, hroot, hok, if_neg Bool.false_ne_true, if_neg Bool.false_ne_true, hsize,
    ok_bind]
  dsimp only
  rw [countClusters_eq hroot hfirst (hchain.chain hd) (hchain.length_le_limit hd), ok_bind,
    ← BiosParamBlock.clustersFor, hcount, if_neg (by omega), Nat.max_self,
    writeLoopWith_access _ buf hn hle _ _ (Nat.zero_le _), hloop, ok_bind]
  rfl

/-- The size of fewer clusters than the disk has can be rounded up. -/
theorem Sound.rounds_of_lt (hd : d.Sound) {n : Nat} (h : n < d.bpb.getClusterCount) :
    n * d.bpb.getClusterSize + d.bpb.getClusterSize ≤ 4294967296 := by
  have hfit := hd.clusters_fit
  have hlt := d.getDiskSize_lt
  have hmul := Nat.mul_le_mul_right d.bpb.getClusterSize (Nat.succ_le_of_lt h)
  rw [Nat.succ_mul] at hmul
  omega

/-- Where a cluster is free besides, the size of the directory can be rounded up. -/
theorem DirAt.rounds_of_free (hd : d.Sound) (h : d.DirAt e l) (hne : l ≠ [])
    (hfree : 0 < d.countFreeClusters) :
    l.length * d.bpb.getClusterSize + d.bpb.getClusterSize ≤ 4294967296 := by
  have hsum := (h.chain hne).2.length_add_free
  exact hd.rounds_of_lt (by omega)

theorem DirAt.count (hd : d.Sound) (h : d.DirAt e l) (hne : l ≠ [])
    (hspace : l.length ≤ d.countFreeClusters) :
    d.bpb.clustersFor (l.length * d.bpb.getClusterSize) = l.length := by
  have hlen := (h.chain hne).2.1.length_pos
  exact wholeClusters_count d.clusterSize_pos (h.rounds_of_free hd hne (by omega))

theorem DirAt.fileSize (hd : d.Sound) (h : d.DirAt e l) :
    d.getFileSize WALK_LIMIT e = .ok (d.dirSize l) := by
  rw [getFileSize, if_pos h.directory, h.allocSize hd]

/-- Without so many free clusters it is not written, as long as its size can be rounded up. -/
theorem DirAt.lacksSpace (hd : d.Sound) (h : d.DirAt e l) (hne : l ≠ [])
    (hspace : d.countFreeClusters < l.length)
    (hround : l.length * d.bpb.getClusterSize + d.bpb.getClusterSize ≤ 4294967296)
    (size : Nat) (buf : Buffer) : d.writeFileFrom size WALK_LIMIT e buf = .ok (false, d) := by
  obtain ⟨hfirst, hchain⟩ := h.chain hne
  have hroot := h.not_root hne
  have hpos := d.clusterSize_pos
  have hlen := hchain.1.length_pos
  have hcount := wholeClusters_count hpos hround
  rw [writeFileFrom, writeFileWith, hroot, h.not_refused hne, if_neg Bool.false_ne_true,
    if_neg Bool.false_ne_true, getFileSize, if_pos h.directory, h.allocSize hd, dirSize, if_neg hne, ok_bind]
  dsimp only
  rw [countClusters_eq hroot hfirst (hchain.chain hd) (hchain.length_le_limit hd), ok_bind, hcount,
    if_pos (by omega)]
  rfl

end Chain

theorem dirSize_lt (hd : d.Sound) (h : d.DirAt e l) : d.dirSize l < 4294967296 := by
  by_cases hl : l = []
  · have hcapacity := d.bpb.rootDirCapacity.isLt
    rw [dirSize, if_pos hl, rootCapacity, BiosParamBlock.getRootCapacity, DIR_ENTRY_SIZE]
    omega
  · rw [dirSize, if_neg hl]
    exact (h.chain hl).2.bytes_lt hd

/-- **Writing a directory back**: its table is stored and nothing else of the tree is different. -/
theorem DirAt.writeFileFrom (hd : d.Sound) (hmark : d.EndMark d.getClusterNumberEOC)
    (h : d.DirAt e l) (hfits : l = [] → d.RootFits) (hspace : l.length ≤ d.countFreeClusters)
    {size : Nat} (hsize : d.dirSize l ≤ size) (buf : Buffer) :
    ∃ d', d.writeFileFrom size WALK_LIMIT e buf = .ok (true, d') ∧ d.WroteDir l buf d' := by
  by_cases hl : l = []
  · have hroot := h.isRoot_iff.mpr hl
    have hlt := dirSize_lt hd h
    subst hl
    refine ⟨_, ?_, put_root_wrote hd⟩
    have hwrite : d.writeFileFrom size WALK_LIMIT e buf = .ok (d.writeRoot buf) := by
      rw [writeFileFrom_root hroot, touchRoot_mono (touchRoot_iff.mpr (hfits rfl)) hsize]
      rfl
    have hplain := writeFileFrom_ok h.directory (h.allocSize hd) hlt hsize hwrite
    rw [hd.writeFile_root WALK_LIMIT hroot buf] at hplain
    rw [hwrite, hplain]
  · obtain ⟨-, hchain⟩ := h.chain hl
    have hbytes := h.fileSize hd
    rw [dirSize, if_neg hl] at hbytes hsize
    obtain ⟨d', hwrite, hwrote⟩ := h.clusters.rewrites hd hmark (h.not_root hl) (h.not_refused hl) hl
      hbytes (hchain.bytes_lt hd) hsize (h.count hd hl hspace) hspace buf
    exact ⟨d', hwrite, hwrote.wroteDir hd hchain⟩

/-- The same, after another directory has been written. -/
theorem WroteDir.again {d1 : FatDisk} {l' : List Nat} {buf : Buffer} (hd : d.Sound)
    (hmark : d.EndMark d.getClusterNumberEOC) (hfits : d.RootFits) (hwrote : d.WroteDir l' buf d1)
    (h : d.DirAt e l) (hapart : l = l' ∨ l.Disjoint l') (hspace : l.length ≤ d.countFreeClusters)
    {size : Nat} (hsize : d.dirSize l ≤ size) (buf' : Buffer) :
    ∃ d', d1.writeFileFrom size WALK_LIMIT e buf' = .ok (true, d') ∧ d1.WroteDir l buf' d' := by
  rw [← dirSize_congr hwrote.bpb] at hsize
  refine DirAt.writeFileFrom (hwrote.sound hd) ?_ ⟨hwrote.clusters e l h.clusters hapart, h.directory,
    h.usable⟩ (fun _ => hfits.congr hwrote.bpb hwrote.base) ?_ hsize buf'
  · rw [hwrote.mark, endMark_congr hwrote.bpb]
    exact hmark
  · rw [hwrote.free]
    exact hspace

/-- A directory is written twice. -/
theorem WroteDir.trans {d1 d' : FatDisk} {buf buf' : Buffer} (h : d.WroteDir l buf d1)
    (h' : d1.WroteDir l buf' d') : d.WroteDir l buf' d' where
  bpb := h'.bpb.trans h.bpb
  base := h'.base.trans h.base
  table i hi := h'.table i (by rwa [dirSlots_congr h.bpb])
  others l' hl' hdisj hne i hi := by
    rw [h'.others l' (by rwa [clusterNumbers_congr h.bpb]) hdisj hne i (by rwa [dirSlots_congr h.bpb]),
      h.others l' hl' hdisj hne i hi]
  clusters e f hf hapart := h'.clusters e f (h.clusters e f hf hapart) hapart
  reads e f hf hroot hdisj := by
    rw [h'.reads e f (h.clusters e f hf (.inr hdisj)) hroot hdisj, h.reads e f hf hroot hdisj]
  free := h'.free.trans h.free
  mark := h'.mark.trans h.mark

/-! ## Writes that change nothing -/

/-- Of the volume nothing is different, but a chain may end with another mark. -/
structure Unchanged (d d' : FatDisk) : Prop where
  bpb : d'.bpb = d.bpb
  base : d'.base = d.base
  low : ∀ a, a < d.dataStart → d'.file a = d.file a
  content : ∀ x ∈ d.clusterNumbers, d'.content x = d.content x
  next : ∀ x, d'.getCluster x = d.getCluster x ∨
    d.EndMark (d.getCluster x) ∧ d.EndMark (d'.getCluster x)

theorem unchanged_dirty (d : FatDisk) : d.Unchanged { d with dirty := true } :=
  ⟨rfl, rfl, fun _ _ => rfl, fun _ _ => rfl, fun x => .inl (congrFun (getCluster_setDirty d) x)⟩

section Unchanged
variable {d' : FatDisk}

theorem map_eq_of_flatten_eq {f g : Nat → List Byte} (hlen : ∀ x, (f x).length = (g x).length)
    (h : (l.map f).flatten = (l.map g).flatten) : ∀ x ∈ l, f x = g x := by
  induction l with
  | nil => exact fun x hx => nomatch hx
  | cons y l ih =>
    rw [List.map_cons, List.flatten_cons, List.map_cons, List.flatten_cons] at h
    obtain ⟨hhead, htail⟩ := List.append_inj h (hlen y)
    exact List.forall_mem_cons.mpr ⟨hhead, ih htail⟩

/-- Storing what is there. -/
theorem Rewrote.unchanged {n c : Nat} {buf : Buffer} (h : d.Rewrote n buf c 0 l d')
    (hsame : ((l.map d.content).flatten).take n = slice buf 0 n) : d.Unchanged d' := by
  have hdata := h.data
  rw [Nat.sub_zero, ← hsame, List.take_append_drop] at hdata
  have hcontent : ∀ x ∈ l, d'.content x = d.content x :=
    map_eq_of_flatten_eq (fun x => by rw [content, content, slice_length, slice_length, h.touches.bpb])
      hdata
  refine ⟨h.touches.bpb, h.touches.base, h.touches.low, fun x hx => ?_, fun x => ?_⟩
  · by_cases hmem : x ∈ l
    · exact hcontent x hmem
    · exact h.touches.content x hx hmem
  · by_cases hmem : x ∈ l
    · exact h.next x hmem
    · exact .inl (h.touches.next x hmem)

variable (h : d.Unchanged d')
include h

theorem Unchanged.dirEntry (hl : ∀ x ∈ l, x ∈ d.clusterNumbers) {i : Nat} (hi : i < d.dirSlots l) :
    d'.dirEntry l i = d.dirEntry l i :=
  dirEntry_congr h.bpb h.low (fun x hx => h.content x (hl x hx)) hi

theorem Unchanged.clusters (hl : d.Clusters e l) : d'.Clusters e l := by
  have hstop : d'.EndMark = d.EndMark := funext fun v => propext (endMark_congr h.bpb v)
  rw [Clusters] at hl ⊢
  split at hl
  · rwa [if_pos ‹_›]
  · rw [if_neg ‹_›]
    refine ⟨?_, fun x hx => ?_⟩
    · rw [hstop]
      exact hl.1.congr_stop fun x _ => h.next x
    · rw [clusterNumbers_congr h.bpb]
      exact hl.2 x hx

theorem Unchanged.readFile (hd : d.Sound) (hl : d.Clusters e l) (hroot : e.isRoot = false) :
    d'.readFile WALK_LIMIT e = d.readFile WALK_LIMIT e :=
  readFile_congr hd (hd.congr h.bpb h.base) hroot hl (h.clusters hl) fun x hx =>
    h.content x (hl.mem_numbers hx)

end Unchanged

end FatDisk

end Ohwes.Fatfs

import Ohwes.Fatfs.Clusters

/-! # What `WriteFile` does to a sound disk

A pass of its loop rewrites one cluster and its FAT entry. The passes up to the new count keep what
there is of the old chain and go on with free clusters, the others free what is left of it. -/

namespace Ohwes.Fatfs
open Library
set_option autoImplicit false

namespace FatDisk
variable {d : FatDisk}

/-! ## One pass -/

/-- The cluster holds `bs` and is marked as reserved. -/
def reserved (d : FatDisk) (c : Nat) (bs : List Byte) : FatDisk :=
  { (d.setCluster c CLUSTER_RESERVED).2 with file := overlay d.file (d.clusterAddr c) bs }

/-- The cluster holds `bs` and is followed by `v`. -/
def rewritten (d : FatDisk) (c v : Nat) (bs : List Byte) : FatDisk :=
  ((d.reserved c bs).setCluster c v).2

theorem reserved_next (hd : d.Sound) {c : Nat} (hc : c ∈ d.clusterNumbers) (bs : List Byte) :
    (d.reserved c bs).getCluster = Function.update d.getCluster c CLUSTER_RESERVED := by
  rw [← hd.getCluster_setCluster hc d.fits_reserved, reserved]
  exact getCluster_congr (by simp only) (by simp only)

theorem reserved_bpb {c : Nat} (hc : c ∈ d.clusterNumbers) (bs : List Byte) :
    (d.reserved c bs).bpb = d.bpb := by
  rw [reserved, setCluster_eq hc]

theorem reserved_base {c : Nat} (hc : c ∈ d.clusterNumbers) (bs : List Byte) :
    (d.reserved c bs).base = d.base := by
  rw [reserved, setCluster_eq hc]

theorem reserved_content_eq {c : Nat} (hc : c ∈ d.clusterNumbers) (bs : List Byte) (x : Nat) :
    (d.reserved c bs).content x =
      slice (overlay d.file (d.clusterAddr c) bs) (d.clusterAddr x) d.bpb.getClusterSize := by
  rw [content, clusterAddr_congr (reserved_bpb hc bs) (reserved_base hc bs), reserved_bpb hc bs,
    reserved]

theorem reserved_touches (hd : d.Sound) {c : Nat} (hc : c ∈ d.clusterNumbers) {bs : List Byte}
    (hbs : bs.length = d.bpb.getClusterSize) : d.Touches [c] (d.reserved c bs) := by
  refine ⟨reserved_bpb hc bs, reserved_base hc bs, fun x hx => ?_, fun x hx hne => ?_, fun a ha => ?_⟩
  · rw [List.mem_singleton] at hx
    rw [reserved_next hd hc, Function.update_of_ne hx]
  · rw [List.mem_singleton] at hne
    rw [reserved_content_eq hc, content]
    refine slice_overlay_apart d.file bs ?_
    rw [hbs]
    exact hd.clusterAddr_apart hc hx hne
  · refine overlay_before d.file bs ?_
    rw [hd.clusterAddr_eq hc]
    omega

theorem reserved_content {c : Nat} (hc : c ∈ d.clusterNumbers) {bs : List Byte}
    (hbs : bs.length = d.bpb.getClusterSize) : (d.reserved c bs).content c = bs := by
  rw [reserved_content_eq hc, ← hbs]
  exact slice_overlay d.file (d.clusterAddr c) bs

section Rewritten
variable (hd : d.Sound) {c v : Nat} (hc : c ∈ d.clusterNumbers) (hv : d.Fits v) {bs : List Byte}
  (hbs : bs.length = d.bpb.getClusterSize)
include hd hc hv hbs

theorem rewritten_touches : d.Touches [c] (d.rewritten c v bs) := by
  have hres := reserved_touches hd hc hbs
  have hset := (hres.sound hd).touches_setCluster (c := c) (v := v)
    (by rwa [clusterNumbers_congr hres.bpb]) (by rwa [Fits, hres.bpb])
  exact (hres.trans hset).mono (by simp)

theorem rewritten_next : (d.rewritten c v bs).getCluster = Function.update d.getCluster c v := by
  have hres := reserved_touches hd hc hbs
  rw [rewritten, (hres.sound hd).getCluster_setCluster (by rwa [clusterNumbers_congr hres.bpb])
    (by rwa [Fits, hres.bpb]), reserved_next hd hc, Function.update_idem]

omit hv in
theorem rewritten_content : (d.rewritten c v bs).content c = bs := by
  have hres := reserved_touches hd hc hbs
  rw [rewritten, setCluster_content (by rwa [clusterNumbers_congr hres.bpb])]
  exact reserved_content hc hbs

end Rewritten

/-- What a pass stores in the cluster: what is due of the file, and behind it the old content. -/
def chunk (d : FatDisk) (fileSize : Nat) (buf : Buffer) (c b : Nat) : List Byte :=
  let size := min (fileSize - b) d.bpb.getClusterSize
  slice buf b size ++ (d.content c).drop size

theorem chunk_length (fileSize : Nat) (buf : Buffer) (c b : Nat) :
    (d.chunk fileSize buf c b).length = d.bpb.getClusterSize := by
  rw [chunk, List.length_append, slice_length, List.length_drop, content, slice_length]
  omega

end FatDisk

section Pass
variable {d : FatDisk} (hd : d.Sound) {c b fileSize : Nat} (hc : c ∈ d.clusterNumbers)
  (hb : b ≤ fileSize) (hsize : fileSize < 4294967296) (newCount : Nat) (buf : Buffer)
include hd hc hb hsize

theorem writePass_eq (i oldValue : Nat) :
    writePass fileSize newCount buf i oldValue ⟨d, c, b⟩ =
      let linked := linkNext newCount i oldValue (d.getCluster c)
        (d.reserved c (d.chunk fileSize buf c b)) c
      .ok (true, ⟨linked.2, linked.1, b + min (fileSize - b) d.bpb.getClusterSize⟩) := by
  have hne : d.isClusterNumberEOC c = false := Bool.eq_false_iff.mpr (hd.not_eoc hc)
  have hset := hd.touches_setCluster hc d.fits_reserved
  have hc' : c ∈ (d.setCluster c CLUSTER_RESERVED).2.clusterNumbers := by
    rwa [FatDisk.clusterNumbers_congr hset.bpb]
  have hread := (hset.sound hd).readCluster_eq hc'
  have hwrite := fun bs => (hset.sound hd).writeCluster_eq hc' bs
  have hsub : u32Sub fileSize b = fileSize - b := u32Sub_of_le hsize hb
  have hend : u32 (b + min (fileSize - b) d.bpb.getClusterSize) =
      b + min (fileSize - b) d.bpb.getClusterSize := u32_of_lt (by omega)
  have hold := FatDisk.setCluster_content hc CLUSTER_RESERVED c
  have hfirst : (d.setCluster c CLUSTER_RESERVED).1 = d.getCluster c := by
    rw [FatDisk.setCluster_eq hc]
  have hstore : ∀ bs, (d.setCluster c CLUSTER_RESERVED).2.writeCluster c bs =
      .ok (some (d.reserved c bs)) := by
    intro bs
    rw [hwrite, FatDisk.reserved, FatDisk.clusterAddr_congr hset.bpb hset.base,
      FatDisk.setCluster_eq hc]
  rw [hold] at hread
  rw [writePass_def, hne, Bool.not_false, assert_true, ok_bind, FatDisk.chunk, ← hfirst]
  dsimp only
  generalize d.setCluster c CLUSTER_RESERVED = r at *
  rw [hread, ok_bind]
  dsimp only
  rw [hstore, ok_bind, hsub]
  dsimp only
  rw [hend]
  rfl

end Pass

section Link
variable {d : FatDisk} (hd : d.Sound) {c : Nat} (hc : c ∈ d.clusterNumbers) {bs : List Byte}
  (hbs : bs.length = d.bpb.getClusterSize) {newCount i : Nat}
include hd hc hbs

theorem linkNext_last (hi : i = newCount - 1) (oldValue next : Nat) :
    linkNext newCount i oldValue next (d.reserved c bs) c =
      (oldValue, d.rewritten c d.getClusterNumberEOC bs) := by
  have hres := FatDisk.reserved_touches hd hc hbs
  rw [linkNext, if_pos hi, hres.getClusterNumberEOC_eq (by simpa using hc), FatDisk.rewritten]

theorem linkNext_extend (hi : i ≠ newCount - 1) (oldValue : Nat) {next : Nat} (h : d.Eoc next) :
    linkNext newCount i oldValue next (d.reserved c bs) c =
      ((d.reserved c bs).findNextFreeCluster,
        d.rewritten c (d.reserved c bs).findNextFreeCluster bs) := by
  have hres := FatDisk.reserved_touches hd hc hbs
  have heoc : (d.reserved c bs).isClusterNumberEOC next = true := (FatDisk.eoc_congr hres.bpb next).mpr h
  rw [linkNext, if_neg hi, heoc, Bool.true_or, if_pos rfl, FatDisk.rewritten]

theorem linkNext_keep (hi : i ≠ newCount - 1) (oldValue : Nat) {next : Nat} (h : ¬ d.Eoc next) :
    linkNext newCount i oldValue next (d.reserved c bs) c = (next, d.rewritten c next bs) := by
  have hres := FatDisk.reserved_touches hd hc hbs
  have heoc : (d.reserved c bs).isClusterNumberEOC next = false :=
    Bool.eq_false_iff.mpr (mt (FatDisk.eoc_congr hres.bpb next).mp h)
  have hfree : (next == CLUSTER_FREE) = false := by
    refine beq_eq_false_iff_ne.mpr fun h0 => h ?_
    rw [h0]
    exact d.eoc_zero
  rw [linkNext, if_neg hi, heoc, hfree, Bool.or_false, if_neg Bool.false_ne_true, FatDisk.rewritten]

end Link

/-! ## The clusters that are free -/

namespace FatDisk
variable (d : FatDisk)

def freeClusters : Finset Nat := (d.clusterNumbers.filter d.isClusterFree).toFinset

variable {d}

theorem mem_freeClusters {x : Nat} :
    x ∈ d.freeClusters ↔ x ∈ d.clusterNumbers ∧ d.getCluster x = CLUSTER_FREE := by
  simp [freeClusters, isClusterFree]

theorem card_freeClusters : d.freeClusters.card = d.countFreeClusters := by
  have hnodup : (d.clusterNumbers.filter d.isClusterFree).Nodup := List.Nodup.filter _ List.nodup_range'
  rw [freeClusters, List.toFinset_card_of_nodup hnodup, countFreeClusters,
    List.countP_eq_length_filter]

/-- A pass that extends the chain finds another cluster that is free. -/
theorem find_spare (hd : d.Sound) {c : Nat} (hc : c ∈ d.clusterNumbers) (bs : List Byte)
    (h : 0 < (d.freeClusters \ {c}).card) :
    (d.reserved c bs).findNextFreeCluster ∈ d.freeClusters \ {c} := by
  have hnext := reserved_next hd hc bs
  have hnumbers := clusterNumbers_congr (reserved_bpb hc bs)
  have hspare : ∀ x, x ∈ d.freeClusters \ {c} ↔
      x ∈ d.clusterNumbers ∧ (d.reserved c bs).getCluster x = CLUSTER_FREE := by
    intro x
    rw [hnext, Finset.mem_sdiff, mem_freeClusters, Finset.mem_singleton, Function.update_apply]
    by_cases hx : x = c
    · simp [hx, CLUSTER_RESERVED, CLUSTER_FREE]
    · simp [hx]
  obtain ⟨x, hx⟩ := Finset.card_pos.mp h
  rw [hspare] at hx ⊢
  have hfind := findNextFreeCluster_spec (d := d.reserved c bs) ⟨x, by rwa [hnumbers]⟩
  rwa [hnumbers] at hfind

end FatDisk

/-! ## The passes that free -/

section Loop
variable (fileSize newCount : Nat) (buf : Buffer)

theorem writeLoop_free {d : FatDisk} (hd : d.Sound) {c : Nat} {t : List Nat}
    (h : t = [] ∨ d.Chain c t) (hrange : ∀ x ∈ t, x ∈ d.clusterNumbers) {i : Nat}
    (hi : newCount ≤ i) (b : Nat) :
    ∃ d' c', writeLoop fileSize newCount buf t.length i ⟨d, c, b⟩ = .ok (true, ⟨d', c', b⟩) ∧
      d.Touches t d' ∧ (∀ x ∈ t, d'.getCluster x = CLUSTER_FREE) ∧ d'.content = d.content := by
  induction t generalizing d c i with
  | nil => exact ⟨d, c, rfl, .refl d [], fun x hx => (nomatch hx), rfl⟩
  | cons x t ih =>
    have hchain := h.resolve_left (List.cons_ne_nil x t)
    obtain rfl : x = c := by
      obtain ⟨t', ht'⟩ := hchain.eq_cons
      exact (List.cons.inj ht').1
    have hx := hrange x List.mem_cons_self
    have hnodup := List.nodup_cons.mp hchain.nodup
    have hset := hd.touches_setCluster hx d.fits_free
    have hnext := hd.getCluster_setCluster hx d.fits_free
    have hrest : t = [] ∨ (d.setCluster x CLUSTER_FREE).2.Chain (d.getCluster x) t := by
      cases hchain with
      | last _ => exact Or.inl rfl
      | link _ ht =>
        refine Or.inr (FatDisk.Chain.congr ht hset.bpb fun y hy => ?_)
        have hne : y ≠ x := fun hyx => hnodup.1 (by rwa [hyx] at hy)
        rw [hnext, Function.update_of_ne hne]
    obtain ⟨d', c', hloop, ht, hfreed, hcontent⟩ := ih (hset.sound hd) hrest
      (fun y hy => by
        rw [FatDisk.clusterNumbers_congr hset.bpb]
        exact hrange y (List.mem_cons_of_mem x hy)) (i := i + 1) (by omega)
    refine ⟨d', c', ?_, hset.trans ht, fun y hy => ?_, ?_⟩
    · rw [List.length_cons, writeLoop_succ, if_pos hi]
      dsimp only
      rw [hloop]
    · rcases List.mem_cons.mp hy with rfl | hy
      · rw [ht.next y hnodup.1, hnext, Function.update_self]
      · exact hfreed y hy
    · rw [hcontent]
      exact funext fun y => FatDisk.setCluster_content hx _ y

/-! ## The passes that write -/

/-- From byte `b` on, the file is in the clusters `l` from `c` on, and what was left of the old
chain, `rest`, is free as far as it is not among them. -/
structure Wrote (d : FatDisk) (c b : Nat) (rest l : List Nat) (d' : FatDisk) : Prop where
  touches : d.Touches (rest ++ l) d'
  chain : d'.GoodChain c l
  fresh : ∀ x ∈ l, x ∈ rest ∨ x ∈ d.freeClusters
  freed : ∀ x ∈ rest, x ∉ l → d'.getCluster x = CLUSTER_FREE
  data : ((l.map d'.content).flatten).take (fileSize - b) = slice buf b (fileSize - b)

/-- The last pass, and those behind it. -/
theorem writeLoop_last {d : FatDisk} (hd : d.Sound) (hmark : d.EndMark d.getClusterNumberEOC)
    {c b : Nat} {rest : List Nat} (h : d.Chain c rest) (hrange : ∀ x ∈ rest, x ∈ d.clusterNumbers)
    (hsize : fileSize < 4294967296) (hb : b ≤ fileSize) (hend : fileSize - b ≤ d.bpb.getClusterSize)
    {i : Nat} (hi : newCount = i + 1) :
    ∃ d' c', writeLoop fileSize newCount buf rest.length i ⟨d, c, b⟩ =
        .ok (true, ⟨d', c', fileSize⟩) ∧
      Wrote fileSize buf d c b rest [c] d' := by
  have hc := hrange c h.head_mem
  have hchunk := d.chunk_length fileSize buf c b
  have hfits := d.fits_getClusterNumberEOC
  have htouch := FatDisk.rewritten_touches hd hc hfits hchunk
  have hnext := FatDisk.rewritten_next hd hc hfits hchunk
  have hcontent := FatDisk.rewritten_content (v := d.getClusterNumberEOC) hd hc hchunk
  have hpass : writePass fileSize newCount buf i (d.getCluster c) ⟨d, c, b⟩ = _ :=
    writePass_eq hd hc hb hsize newCount buf i (d.getCluster c)
  rw [linkNext_last hd hc hchunk (by omega)] at hpass
  generalize d.rewritten c d.getClusterNumberEOC (d.chunk fileSize buf c b) = d1 at *
  obtain ⟨t, rfl⟩ := h.eq_cons
  have hnodup := List.nodup_cons.mp h.nodup
  have hrest : t = [] ∨ d1.Chain (d.getCluster c) t := by
    cases h with
    | last _ => exact Or.inl rfl
    | link _ ht =>
      refine Or.inr (FatDisk.Chain.congr ht htouch.bpb fun y hy => htouch.next y ?_)
      rintro hyc
      rw [List.mem_singleton] at hyc
      rw [hyc] at hy
      exact hnodup.1 hy
  obtain ⟨d', c', hloop, ht, hfreed, hsame⟩ := writeLoop_free fileSize newCount buf
    (htouch.sound hd) hrest (fun y hy => by
      rw [FatDisk.clusterNumbers_congr htouch.bpb]
      exact hrange y (List.mem_cons_of_mem c hy)) (i := i + 1) (by omega)
    (b + min (fileSize - b) d.bpb.getClusterSize)
  have hlast : d'.getCluster c = d.getClusterNumberEOC := by
    rw [ht.next c hnodup.1, hnext, Function.update_self]
  have hbpb : d'.bpb = d.bpb := ht.bpb.trans htouch.bpb
  rw [show b + min (fileSize - b) d.bpb.getClusterSize = fileSize by omega] at hpass hloop
  refine ⟨d', c', ?_, ?_, ?_, ?_, ?_, ?_⟩
  · rw [List.length_cons, writeLoop_succ, if_neg (by omega)]
    dsimp only
    rw [hpass, ok_bind]
    exact hloop
  · exact (htouch.trans ht).mono fun x hx => by
      rcases List.mem_append.mp hx with hx | hx
      · exact List.mem_append_right _ hx
      · exact List.mem_append_left _ (List.mem_cons_of_mem c hx)
  · refine ⟨.last ?_, fun x hx => ?_⟩
    · rw [hlast, FatDisk.endMark_congr hbpb]
      exact hmark
    · rw [List.mem_singleton] at hx
      rw [FatDisk.clusterNumbers_congr hbpb, hx]
      exact hc
  · exact fun x hx => Or.inl (by rw [List.mem_singleton.mp hx]; exact List.mem_cons_self)
  · intro x hx hne
    rw [List.mem_singleton] at hne
    exact hfreed x ((List.mem_cons.mp hx).resolve_left hne)
  · rw [List.map_singleton, List.flatten_singleton, hsame, hcontent, FatDisk.chunk,
      Nat.min_eq_left hend, List.take_left' (slice_length buf b _)]

/-- A pass for `c` with more to write went on to `c1`. What was left of the chain from `c` on was
`rest`, and `rest1` is left from `c1` on. -/
structure Passed (d : FatDisk) (c b : Nat) (rest : List Nat) (d1 : FatDisk) (c1 : Nat)
    (rest1 : List Nat) : Prop where
  touches : d.Touches [c] d1
  next : d1.getCluster c = c1
  content : d1.content c = d.chunk fileSize buf c b
  chain : d1.Chain c1 rest1
  range : ∀ x ∈ rest1, x ∈ d.clusterNumbers
  apart : c ∉ rest1
  tail : rest ⊆ c :: rest1
  grown : ∀ x ∈ rest1, x ∈ rest ∨ x = c1 ∧ x ∈ d.freeClusters
  free : d1.freeClusters ⊆ d.freeClusters
  length : rest.length = rest1.length + 1 ∨ rest.length = 1 ∧ rest1.length = 1
  room : rest.length + (d.freeClusters \ rest.toFinset).card ≤
    rest1.length + (d1.freeClusters \ rest1.toFinset).card + 1

variable {fileSize buf} in
theorem Wrote.cons {d d1 d' : FatDisk} (hd : d.Sound) {c c1 b : Nat} {rest rest1 l : List Nat}
    (hc : c ∈ d.clusterNumbers) (hhead : c ∈ rest)
    (hmore : d.bpb.getClusterSize < fileSize - b)
    (hpass : Passed fileSize buf d c b rest d1 c1 rest1)
    (h : Wrote fileSize buf d1 c1 (b + d.bpb.getClusterSize) rest1 l d') :
    Wrote fileSize buf d c b rest (c :: l) d' := by
  have hbpb : d'.bpb = d.bpb := h.touches.bpb.trans hpass.touches.bpb
  have hnumbers := FatDisk.clusterNumbers_congr hbpb
  have hc1 : c1 ∈ d.clusterNumbers := by
    rw [← hnumbers]
    exact h.chain.head_range
  have hnotl : c ∉ l := by
    intro hl
    rcases h.fresh c hl with hr | hfree
    · exact hpass.apart hr
    · rw [FatDisk.mem_freeClusters, hpass.next] at hfree
      have := d.mem_clusterNumbers.mp hc1
      rw [CLUSTER_FREE] at hfree
      omega
  have hnot : c ∉ rest1 ++ l := by
    rw [List.mem_append]
    exact not_or.mpr ⟨hpass.apart, hnotl⟩
  have hnext : d'.getCluster c = c1 := (h.touches.next c hnot).trans hpass.next
  refine ⟨?_, ⟨?_, fun x hx => ?_⟩, fun x hx => ?_, fun x hx hne => ?_, ?_⟩
  · refine (hpass.touches.trans h.touches).mono fun x hx => ?_
    rw [List.mem_append, List.mem_singleton, List.mem_append] at hx
    rw [List.mem_append, List.mem_cons]
    rcases hx with rfl | hx | hx
    · exact Or.inl hhead
    · rcases hpass.grown x hx with hx | ⟨rfl, -⟩
      · exact Or.inl hx
      · exact Or.inr (Or.inr h.chain.head_mem)
    · exact Or.inr (Or.inr hx)
  · refine .link ?_ ?_
    · rw [hnext]
      have hsound := h.touches.sound (hpass.touches.sound hd)
      exact fun he => hsound.not_eoc h.chain.head_range he.eoc
    · rw [hnext]
      exact h.chain.1
  · rcases List.mem_cons.mp hx with rfl | hx
    · rwa [hnumbers]
    · exact h.chain.2 x hx
  · rcases List.mem_cons.mp hx with rfl | hx
    · exact Or.inl hhead
    · rcases h.fresh x hx with hx | hx
      · exact (hpass.grown x hx).imp_right And.right
      · exact Or.inr (hpass.free hx)
  · rw [List.mem_cons, not_or] at hne
    exact h.freed x ((List.mem_cons.mp (hpass.tail hx)).resolve_left hne.1) hne.2
  · have hmin : min (fileSize - b) d.bpb.getClusterSize = d.bpb.getClusterSize :=
      Nat.min_eq_right (by omega)
    have hfull : (d.content c).drop d.bpb.getClusterSize = [] := by
      rw [FatDisk.content]
      exact List.drop_eq_nil_of_le (by rw [slice_length])
    have hcontent : d'.content c = slice buf b d.bpb.getClusterSize := by
      rw [h.touches.content c (by rwa [FatDisk.clusterNumbers_congr hpass.touches.bpb]) hnot,
        hpass.content, FatDisk.chunk, hmin, hfull, List.append_nil]
    have hleft : fileSize - b = d.bpb.getClusterSize + (fileSize - (b + d.bpb.getClusterSize)) := by
      omega
    have hdata := h.data
    rw [List.map_cons, List.flatten_cons, hcontent]
    rw [hleft, slice_add, List.take_append, slice_length, Nat.add_sub_cancel_left, hdata,
      List.take_of_length_le (by rw [slice_length]; omega)]

section More
variable {d : FatDisk} (hd : d.Sound) {c b : Nat} {rest : List Nat} (h : d.Chain c rest)
  (hrange : ∀ x ∈ rest, x ∈ d.clusterNumbers) (hsize : fileSize < 4294967296)
  (hmore : d.bpb.getClusterSize < fileSize - b) {i : Nat} (hi : i ≠ newCount - 1)
include hd h hrange hsize hmore hi

/-- At the end of what there is, the chain goes on with a free cluster. -/
theorem writePass_extend (hend : d.Eoc (d.getCluster c))
    (hroom : 0 < (d.freeClusters \ rest.toFinset).card) :
    ∃ d1 c1 rest1, writePass fileSize newCount buf i (d.getCluster c) ⟨d, c, b⟩ =
        .ok (true, ⟨d1, c1, b + d.bpb.getClusterSize⟩) ∧
      Passed fileSize buf d c b rest d1 c1 rest1 := by
  have hc := hrange c h.head_mem
  obtain rfl : rest = [c] := h.unique (.last hend)
  have hchunk := d.chunk_length fileSize buf c b
  have hpass := writePass_eq hd hc (b := b) (by omega) hsize newCount buf i (d.getCluster c)
  rw [linkNext_extend hd hc hchunk hi _ hend] at hpass
  have hspare := FatDisk.find_spare hd hc (d.chunk fileSize buf c b) (by simpa using hroom)
  generalize (d.reserved c (d.chunk fileSize buf c b)).findNextFreeCluster = c1 at *
  rw [Finset.mem_sdiff, FatDisk.mem_freeClusters, Finset.mem_singleton] at hspare
  obtain ⟨⟨hc1, hfree⟩, hne⟩ := hspare
  have hfits := hd.fits hc1
  have htouch := FatDisk.rewritten_touches hd hc hfits hchunk
  have hnext := FatDisk.rewritten_next hd hc hfits hchunk
  have hcontent := FatDisk.rewritten_content (v := c1) hd hc hchunk
  generalize d.rewritten c c1 (d.chunk fileSize buf c b) = d1 at *
  have hlink : d1.getCluster c = c1 := by
    rw [hnext, Function.update_self]
  have hfree1 : d1.getCluster c1 = CLUSTER_FREE := by
    rw [hnext, Function.update_of_ne hne, hfree]
  have hgone : d1.freeClusters = d.freeClusters \ {c} := by
    ext x
    rw [Finset.mem_sdiff, FatDisk.mem_freeClusters, FatDisk.mem_freeClusters, Finset.mem_singleton,
      FatDisk.clusterNumbers_congr htouch.bpb, hnext, Function.update_apply]
    by_cases hx : x = c
    · have := d.mem_clusterNumbers.mp hc1
      simp only [hx, if_true, CLUSTER_FREE]
      simp
      omega
    · simp [hx]
  have hmem : c1 ∈ d.freeClusters \ {c} := by
    rw [Finset.mem_sdiff, FatDisk.mem_freeClusters, Finset.mem_singleton]
    exact ⟨⟨hc1, hfree⟩, hne⟩
  refine ⟨d1, c1, [c1], ?_, htouch, hlink, hcontent, .last ?_, ?_, ?_, ?_, ?_, ?_, ?_, ?_⟩
  · rw [hpass, Nat.min_eq_right (by omega)]
  · rw [hfree1]
    exact d1.eoc_zero
  · simpa using hc1
  · simpa using fun hcc : c = c1 => hne hcc.symm
  · simp
  · intro x hx
    rw [List.mem_singleton.mp hx]
    exact Or.inr ⟨rfl, FatDisk.mem_freeClusters.mpr ⟨hc1, hfree⟩⟩
  · rw [hgone]
    exact Finset.sdiff_subset
  · exact Or.inr ⟨rfl, rfl⟩
  · have hcard := Finset.card_erase_of_mem hmem
    have hpos := Finset.card_pos.mpr ⟨c1, hmem⟩
    simp only [hgone, List.toFinset_cons, List.toFinset_nil, insert_empty_eq, List.length_singleton]
    rw [Finset.sdiff_singleton_eq_erase c1, hcard]
    omega

/-- A cluster of the old chain is kept with its successor. -/
theorem writePass_keep (hlink : ¬ d.Eoc (d.getCluster c)) :
    ∃ d1 c1 rest1, writePass fileSize newCount buf i (d.getCluster c) ⟨d, c, b⟩ =
        .ok (true, ⟨d1, c1, b + d.bpb.getClusterSize⟩) ∧
      Passed fileSize buf d c b rest d1 c1 rest1 := by
  have hc := hrange c h.head_mem
  have hchunk := d.chunk_length fileSize buf c b
  have hpass := writePass_eq hd hc (b := b) (by omega) hsize newCount buf i (d.getCluster c)
  rw [linkNext_keep hd hc hchunk hi _ hlink] at hpass
  have hfits := d.fits_getCluster c
  have htouch := FatDisk.rewritten_touches hd hc hfits hchunk
  have hnext := FatDisk.rewritten_next hd hc hfits hchunk
  have hcontent := FatDisk.rewritten_content (v := d.getCluster c) hd hc hchunk
  generalize d.rewritten c (d.getCluster c) (d.chunk fileSize buf c b) = d1 at *
  rw [Function.update_eq_self] at hnext
  obtain ⟨t, ht, rfl⟩ : ∃ t, d.Chain (d.getCluster c) t ∧ rest = c :: t := by
    cases h with
    | last hs => exact absurd hs hlink
    | @link _ t _ ht => exact ⟨t, ht, rfl⟩
  have hnotin := (List.nodup_cons.mp h.nodup).1
  have hsame : d1.freeClusters = d.freeClusters := by
    ext x
    rw [FatDisk.mem_freeClusters, FatDisk.mem_freeClusters,
      FatDisk.clusterNumbers_congr htouch.bpb, hnext]
  have hused : c ∉ d.freeClusters := by
    rw [FatDisk.mem_freeClusters]
    rintro ⟨-, hfree⟩
    rw [hfree] at hlink
    exact hlink d.eoc_zero
  refine ⟨d1, d.getCluster c, t, ?_, htouch, ?_, hcontent, ?_, ?_, hnotin, ?_, ?_, ?_, ?_, ?_⟩
  · rw [hpass, Nat.min_eq_right (by omega)]
  · rw [hnext]
  · exact FatDisk.Chain.congr ht htouch.bpb fun x _ => by rw [hnext]
  · exact fun x hx => hrange x (List.mem_cons_of_mem c hx)
  · exact List.Subset.refl _
  · exact fun x hx => Or.inl (List.mem_cons_of_mem c hx)
  · rw [hsame]
  · exact Or.inl rfl
  · have hsdiff : d.freeClusters \ (c :: t).toFinset = d.freeClusters \ t.toFinset := by
      ext x
      simp only [Finset.mem_sdiff, List.mem_toFinset, List.mem_cons, not_or]
      refine ⟨fun hx => ⟨hx.1, hx.2.2⟩, fun hx => ⟨hx.1, ?_, hx.2⟩⟩
      rintro rfl
      exact hused hx.1
    rw [hsame, hsdiff, List.length_cons]
    omega

end More

/-- The passes of the loop: by induction on how many clusters the file still has to get. -/
theorem writeLoop_writes {d : FatDisk} (hd : d.Sound) (hmark : d.EndMark d.getClusterNumberEOC)
    {c b : Nat} {rest : List Nat} (h : d.Chain c rest) (hrange : ∀ x ∈ rest, x ∈ d.clusterNumbers)
    (hsize : fileSize < 4294967296) {m i : Nat} (hi : newCount = i + m + 1)
    (hlow : m * d.bpb.getClusterSize < fileSize - b)
    (hhigh : fileSize - b ≤ (m + 1) * d.bpb.getClusterSize)
    (hroom : m + 1 ≤ rest.length + (d.freeClusters \ rest.toFinset).card) :
    ∃ d' c' l, writeLoop fileSize newCount buf (max (m + 1) rest.length) i ⟨d, c, b⟩ =
        .ok (true, ⟨d', c', fileSize⟩) ∧ l.length = m + 1 ∧ Wrote fileSize buf d c b rest l d' := by
  induction m generalizing d c b rest i with
  | zero =>
    have hpos := h.length_pos
    obtain ⟨d', c', hloop, hwrote⟩ := writeLoop_last fileSize newCount buf (b := b) hd hmark
      h hrange hsize (by omega) (by omega) hi
    exact ⟨d', c', [c], by rwa [Nat.max_eq_right (by omega)], rfl, hwrote⟩
  | succ m ih =>
    have hc := hrange c h.head_mem
    rw [Nat.add_mul _ 1, Nat.one_mul] at hlow hhigh
    have hmore : d.bpb.getClusterSize < fileSize - b := by
      omega
    obtain ⟨d1, c1, rest1, hpass, hp⟩ : ∃ d1 c1 rest1,
        writePass fileSize newCount buf i (d.getCluster c) ⟨d, c, b⟩ =
          .ok (true, ⟨d1, c1, b + d.bpb.getClusterSize⟩) ∧
        Passed fileSize buf d c b rest d1 c1 rest1 := by
      by_cases hend : d.Eoc (d.getCluster c)
      · refine writePass_extend fileSize newCount buf hd h hrange hsize hmore (by omega) hend ?_
        rw [h.unique (.last hend)] at hroom ⊢
        rw [List.length_singleton] at hroom
        omega
      · exact writePass_keep fileSize newCount buf hd h hrange hsize hmore (by omega) hend
    have hbpb := hp.touches.bpb
    obtain ⟨d', c', l, hloop, hlen, hwrote⟩ := ih (hp.touches.sound hd)
      (by
        rw [FatDisk.endMark_congr hbpb, hp.touches.getClusterNumberEOC_eq (by simpa using hc)]
        exact hmark)
      hp.chain
      (by
        rw [FatDisk.clusterNumbers_congr hbpb]
        exact hp.range)
      (i := i + 1) (b := b + d.bpb.getClusterSize) (by omega)
      (by
        rw [hbpb]
        omega)
      (by
        rw [hbpb]
        omega)
      (by
        have := hp.room
        omega)
    refine ⟨d', c', c :: l, ?_, by rw [List.length_cons, hlen], hwrote.cons hd hc h.head_mem hmore hp⟩
    have hpasses : max (m + 1 + 1) rest.length = max (m + 1) rest1.length + 1 := by
      rcases hp.length with hl | ⟨hl, hl1⟩
      · omega
      · omega
    rw [hpasses, writeLoop_succ, if_neg (by omega)]
    dsimp only
    rw [hpass, ok_bind]
    exact hloop

end Loop

/-! ## The whole of `WriteFile` -/

structure DirEntry.Regular (e : DirEntry) : Prop where
  valid : e.isValidFile = true
  not_directory : e.isDirectory = false

theorem DirEntry.Regular.not_root {e : DirEntry} (h : e.Regular) : e.isRoot = false := by
  rw [DirEntry.isRoot, h.not_directory, Bool.false_and]

theorem DirEntry.Regular.not_refused {e : DirEntry} (h : e.Regular) (hfirst : e.firstCluster ≠ 0) :
    FatDisk.refusesFile e = false := by
  rw [FatDisk.refusesFile, h.valid, beq_eq_false_iff_ne.mpr hfirst]
  rfl

theorem ceilDiv_bounds {x y : Nat} (hx : 0 < x) (hy : 0 < y) :
    ∃ m, ceilDiv x y = m + 1 ∧ m * y < x ∧ x ≤ (m + 1) * y := by
  have hle := Nat.div_mul_le_self (x + y - 1) y
  have hlt := Nat.lt_mul_of_div_lt (Nat.lt_succ_self ((x + y - 1) / y)) hy
  have hpos : 0 < (x + y - 1) / y := Nat.div_pos (by omega) hy
  refine ⟨(x + y - 1) / y - 1, by rw [ceilDiv]; omega, ?_, ?_⟩
  · rw [Nat.sub_mul, Nat.one_mul]
    omega
  · rw [Nat.sub_add_cancel hpos]
    rw [Nat.succ_mul] at hlt
    omega

/-- `newCount` of `WriteFile`. The sum may wrap. -/
def BiosParamBlock.clustersFor (bpb : BiosParamBlock) (size : Nat) : Nat :=
  u32 (size + bpb.getClusterSize - 1) / bpb.getClusterSize

theorem clustersFor_pos_iff {bpb : BiosParamBlock} (hpos : 0 < bpb.getClusterSize) {size : Nat}
    (hsize : size < 4294967296) :
    0 < bpb.clustersFor size ↔ 0 < size ∧ size + bpb.getClusterSize ≤ 4294967296 := by
  have hlt := getClusterSize_lt bpb
  rw [BiosParamBlock.clustersFor, Nat.div_pos_iff, u32]
  omega

theorem clustersFor_eq {bpb : BiosParamBlock} {size : Nat}
    (hfit : size + bpb.getClusterSize ≤ 4294967296) :
    bpb.clustersFor size = ceilDiv size bpb.getClusterSize := by
  rw [BiosParamBlock.clustersFor, u32_of_lt (by omega), ceilDiv]

theorem Wrote.setDirty {d d' : FatDisk} {fileSize c b : Nat} {buf : Buffer} {rest l : List Nat}
    (h : Wrote fileSize buf d c b rest l d') :
    Wrote fileSize buf d c b rest l { d' with dirty := true } := by
  refine ⟨h.touches.setDirty, h.chain.congr rfl fun x _ => ?_, h.fresh, fun x hx hne => ?_, h.data⟩
  · rw [FatDisk.getCluster_setDirty]
  · rw [FatDisk.getCluster_setDirty]
    exact h.freed x hx hne

namespace FatDisk
variable {d : FatDisk}

theorem first_ne_zero {f : DirEntry} (h : f.firstCluster.toNat ∈ d.clusterNumbers) :
    f.firstCluster ≠ 0 := by
  rintro h0
  rw [h0] at h
  exact absurd (d.mem_clusterNumbers.mp h).1 (by decide)

theorem writeFile_writes (hd : d.Sound) (hmark : d.EndMark d.getClusterNumberEOC) {f : DirEntry}
    (hf : f.Regular) (hsize : 0 < f.fileSize.toNat)
    (hfit : f.fileSize.toNat + d.bpb.getClusterSize ≤ 4294967296) {rest : List Nat}
    (h : d.Chain f.firstCluster.toNat rest) (hrange : ∀ x ∈ rest, x ∈ d.clusterNumbers)
    (hspace : ceilDiv f.fileSize.toNat d.bpb.getClusterSize ≤ d.countFreeClusters)
    (buf : Buffer) {steps : Nat} (hsteps : rest.length ≤ steps) :
    ∃ d' l, d.writeFile steps f buf = .ok (true, d') ∧ d'.dirty = true ∧
      l.length = ceilDiv f.fileSize.toNat d.bpb.getClusterSize ∧
      Wrote f.fileSize.toNat buf d f.firstCluster.toNat 0 rest l d' := by
  have hfirst := first_ne_zero (hrange _ h.head_mem)
  have hpos := d.clusterSize_pos
  obtain ⟨m, hm, hlow, hhigh⟩ := ceilDiv_bounds hsize hpos
  have hcount : u32 (f.fileSize.toNat + d.bpb.getClusterSize - 1) / d.bpb.getClusterSize = m + 1 := by
    rw [u32_of_lt (by omega), ← hm, ceilDiv]
  have hroom : d.countFreeClusters ≤ rest.length + (d.freeClusters \ rest.toFinset).card := by
    have hcard := Finset.card_le_card_sdiff_add_card (s := d.freeClusters) (t := rest.toFinset)
    have hlen := rest.toFinset_card_le
    rw [card_freeClusters] at hcard
    omega
  obtain ⟨d', c', l, hloop, hlen, hwrote⟩ := writeLoop_writes f.fileSize.toNat (m + 1) buf (b := 0)
    (i := 0) (m := m) hd hmark h hrange f.fileSize.isLt (by omega) (by omega) (by omega) (by omega)
  refine ⟨{ d' with dirty := true }, l, ?_, rfl, hlen.trans hm.symm, hwrote.setDirty⟩
  have hgetSize : d.getFileSize steps f = .ok f.fileSize.toNat := by
    rw [getFileSize, hf.not_directory, if_neg Bool.false_ne_true]
  rw [writeFile_def, hf.not_root, hf.not_refused hfirst, if_neg Bool.false_ne_true,
    if_neg Bool.false_ne_true, hgetSize, ok_bind]
  dsimp only
  rw [countClusters_eq hf.not_root hfirst h hsteps, ok_bind, hcount, if_neg (by omega), hloop, ok_bind]
  rfl

/-! ## The round trip, and the other files -/

/-- The file heads a chain of its own, or a free cluster was picked for it to begin with. -/
def MayWrite (d : FatDisk) (f : DirEntry) (others : List DirEntry) : Prop :=
  (∃ old, d.GoodChain f.firstCluster.toNat old) ∧ d.FilesApart (f :: others) ∨
    f.firstCluster.toNat ∈ d.clusterNumbers ∧ d.isClusterFree f.firstCluster.toNat = true ∧
      d.FilesApart others

structure WroteFile (d : FatDisk) (steps : Nat) (f : DirEntry) (buf : Buffer)
    (others : List DirEntry) (d' : FatDisk) : Prop where
  reads : ∃ data, d'.readFile steps f = .ok (some data) ∧
    data.take f.fileSize.toNat = slice buf 0 f.fileSize.toNat
  chain : ∃ l, d'.GoodChain f.firstCluster.toNat l ∧
    l.length = ceilDiv f.fileSize.toNat d.bpb.getClusterSize ∧
    ∀ old, d.GoodChain f.firstCluster.toNat old → ∀ x ∈ old, x ∉ l → d'.isClusterFree x = true
  apart : d'.FilesApart (f :: others)
  frame : ∀ e ∈ others, (∀ l, d.Clusters e l → d'.Clusters e l) ∧
    d'.readFile steps e = d.readFile steps e

structure Writable (d : FatDisk) (f : DirEntry) (others : List DirEntry) : Prop where
  sound : d.Sound
  regular : f.Regular
  size_pos : 0 < f.fileSize.toNat
  files : d.MayWrite f others
  space : ceilDiv f.fileSize.toNat d.bpb.getClusterSize ≤ d.countFreeClusters

def RoundTrip (d : FatDisk) (steps : Nat) (f : DirEntry) (buf : Buffer) (others : List DirEntry) :
    Prop :=
  ∃ d', d.writeFile steps f buf = .ok (true, d') ∧ d.WroteFile steps f buf others d'

theorem MayWrite.start (hd : d.Sound) {f : DirEntry} {others : List DirEntry}
    (h : d.MayWrite f others) :
    ∃ rest, d.Chain f.firstCluster.toNat rest ∧ (∀ x ∈ rest, x ∈ d.clusterNumbers) ∧
      (∀ e ∈ others, ∀ l, d.Clusters e l → l.Disjoint rest) ∧ d.FilesApart others := by
  rcases h with ⟨⟨old, hold⟩, hall, hapart⟩ | ⟨hrange, hfree, hothers⟩
  · rw [List.pairwise_cons] at hapart
    have hf : d.Clusters f old := by
      rwa [Clusters, if_neg (first_ne_zero hold.head_range)]
    exact ⟨old, hold.chain hd, hold.2, fun e he l hl => (hapart.1 e he old l hf hl).symm,
      fun e he => hall e (List.mem_cons_of_mem f he), hapart.2⟩
  · have hnext : d.getCluster f.firstCluster.toNat = CLUSTER_FREE := beq_iff_eq.mp hfree
    refine ⟨[f.firstCluster.toNat], .last ?_, by simpa using hrange, fun e _ l hl => ?_, hothers⟩
    · rw [hnext]
      exact d.eoc_zero
    · rw [List.disjoint_singleton]
      exact fun hmem => hl.not_free hmem hnext

/-- **The round trip**: what `WriteFile` wrote is what `ReadFile` reads, in a chain of the length
that the size asks for, and every other file is as it was. -/
theorem writeFile_round_trip {f : DirEntry} {others : List DirEntry} (h : d.Writable f others)
    (hmark : d.EndMark d.getClusterNumberEOC)
    (hfit : f.fileSize.toNat + d.bpb.getClusterSize ≤ 4294967296) (buf : Buffer) {steps : Nat}
    (hsteps : d.bpb.getClusterCount ≤ steps) : d.RoundTrip steps f buf others := by
  obtain ⟨hd, hf, hsize, hfiles, hspace⟩ := h
  obtain ⟨rest, hchain, hrange, hdisj, hall, hapart⟩ := hfiles.start hd
  have hlen : rest.length ≤ d.bpb.getClusterCount := by
    have hle := (hchain.nodup.subperm hrange).length_le
    rwa [clusterNumbers, List.length_range'] at hle
  obtain ⟨d', l, hwrite, -, hl, hw⟩ := writeFile_writes hd hmark hf hsize hfit hchain hrange hspace
    buf (hlen.trans hsteps)
  have hsound := hw.touches.sound hd
  have hfirst := first_ne_zero (hrange _ hchain.head_mem)
  have hother : ∀ e ∈ others, ∀ le, d.Clusters e le → le.Disjoint (rest ++ l) := by
    intro e he le hle x hx hmem
    rcases List.mem_append.mp hmem with hmem | hmem
    · exact hdisj e he le hle hx hmem
    · rcases hw.fresh x hmem with hr | hfree
      · exact hdisj e he le hle hx hr
      · exact hle.not_free hx (mem_freeClusters.mp hfree).2
  have hkept : ∀ e ∈ others, ∀ le, d.Clusters e le → d'.Clusters e le := fun e he le hle =>
    (hw.touches.frame hd hle (hother e he le hle) hsteps).1
  have hback : ∀ e ∈ others, ∀ le, d'.Clusters e le → d.Clusters e le := by
    intro e he le hle
    obtain ⟨le', hle'⟩ := hall e he
    rwa [hle.unique (hkept e he le' hle')]
  have hf' : ∀ lf, d'.Clusters f lf → lf = l := by
    intro lf hlf
    rw [Clusters, if_neg hfirst] at hlf
    exact hlf.unique hw.chain
  refine ⟨d', hwrite, ⟨_, readFile_chain hsound hf.not_root (hf.not_refused hfirst) hw.chain ?_, ?_⟩,
    ⟨l, hw.chain, hl, fun old hold x hx hne => ?_⟩, ⟨fun e he => ?_, ?_⟩, fun e he => ⟨hkept e he, ?_⟩⟩
  · rwa [hw.touches.bpb]
  · exact hw.data
  · rw [isClusterFree, beq_iff_eq]
    rw [(hold.chain hd).unique hchain] at hx
    exact hw.freed x hx hne
  · rcases List.mem_cons.mp he with rfl | he
    · refine ⟨l, ?_⟩
      rw [Clusters, if_neg hfirst]
      exact hw.chain
    · obtain ⟨le, hle⟩ := hall e he
      exact ⟨le, hkept e he le hle⟩
  · refine List.pairwise_cons.mpr ⟨fun e he lf le hlf hle => ?_, ?_⟩
    · rw [hf' lf hlf]
      exact fun x hx hxe =>
        hother e he le (hback e he le hle) hxe (List.mem_append_right rest hx)
    · refine hapart.imp_of_mem fun {e e'} he he' hee le le' hle hle' => ?_
      exact hee le le' (hback e he le hle) (hback e' he' le' hle')
  · obtain ⟨le, hle⟩ := hall e he
    exact (hw.touches.frame hd hle (hother e he le hle) hsteps).2

end FatDisk

/-- A disk of three free clusters whose second FAT entry is `mark`. -/
def blankDisk (mark : Nat) : FatDisk where
  bpb := tinyBpb
  mountable := tinyBpb_mountable
  base := 0
  fat := (setCluster12 (setCluster12 (fun _ => 0) 0 0xFF0).2 1 mark).2
  file := fun _ => 0
  dirty := false

theorem blankDisk_sound (mark : Nat) : (blankDisk mark).Sound where
  base_zero := rfl
  size_lt := (by decide : tinyBpb.getSectorCount * tinyBpb.sectorSize.toNat < 4294967296)
  capacity := (by decide : tinyBpb.getClusterCount ≤ tinyBpb.getFatCapacity)
  limit := (by decide : tinyBpb.getClusterCount ≤ MAX_CLUSTERS_16)

theorem loopedFile_regular : loopedFile.Regular := by
  constructor <;> decide

/-- Two clusters in a chain, and a free one. -/
def nearlyFullDisk : FatDisk :=
  { loopedDisk with fat := fun i => [0xF0, 0xFF, 0xFF, 0x03, 0xF0, 0xFF].getD i 0 }

def twoClusterFile : DirEntry := { loopedFile with fileSize := 1024 }

theorem nearlyFullDisk_sound : nearlyFullDisk.Sound :=
  ⟨rfl, by decide, by decide, by decide⟩

theorem twoClusterFile_clusters (size : BitVec 32) :
    nearlyFullDisk.Clusters { loopedFile with fileSize := size } [2, 3] := by
  have hchain : Library.Chain nearlyFullDisk.getCluster nearlyFullDisk.EndMark 2 [2, 3] :=
    .link (by decide) (.last (by decide))
  exact ⟨hchain, by decide⟩

/-- A new file in the free cluster, beside the one that has the others. -/
theorem beside_two_clusters_round_trip :
    nearlyFullDisk.RoundTrip 3 { loopedFile with firstCluster := 4, fileSize := 300 }
      (fun i => BitVec.ofNat 8 i) [twoClusterFile] := by
  have hfiles : nearlyFullDisk.FilesApart [twoClusterFile] :=
    ⟨List.forall_mem_singleton.mpr ⟨_, twoClusterFile_clusters 1024⟩, List.pairwise_singleton _ _⟩
  refine FatDisk.writeFile_round_trip ⟨nearlyFullDisk_sound, ?_, by decide,
    Or.inr ⟨by decide, by decide, hfiles⟩, by decide⟩ (by decide) (by decide) _ (by decide)
  constructor <;> decide

theorem blankDisk_writable : (blankDisk 0).Writable loopedFile [] :=
  ⟨blankDisk_sound 0, loopedFile_regular, by decide,
    Or.inr ⟨by decide, by decide, FatDisk.filesApart_nil _⟩, by decide⟩

/-- Without a mark to end it with, the chain of a file of one cluster is ended by a free entry. -/
theorem blankDisk_unmarked : ¬ (blankDisk 0).RoundTrip 3 loopedFile (fun _ => 0x41) [] := by
  rintro ⟨d', hwrite, hw⟩
  obtain ⟨l, hl, -, -⟩ := hw.chain
  have hfree : ((blankDisk 0).writeFile 3 loopedFile (fun _ => 0x41)).map
      (fun r => r.2.isClusterFree loopedFile.firstCluster.toNat) = .ok true := by
    rfl
  rw [hwrite] at hfree
  have hfree : d'.isClusterFree loopedFile.firstCluster.toNat = true := Except.ok.inj hfree
  rw [hl.not_free hl.head_mem] at hfree
  exact nomatch hfree

/-- A volume just below four gigabytes, with 253 sectors to a cluster. -/
def wideBpb : BiosParamBlock :=
  { tinyBpb with
    sectorsPerCluster := 253
    sectorCount := 0
    sectorCountLarge := 8388607
    sectorsPerTable := 130 }

theorem wideBpb_mountable : Mountable wideBpb := by
  constructor <;> decide

def wideDisk : FatDisk where
  bpb := wideBpb
  mountable := wideBpb_mountable
  base := 0
  fat := fun i => if i < 4 then 0xFF else 0
  file := fun _ => 0
  dirty := false

/-- A file that fills the volume. -/
def wideFile : DirEntry := { loopedFile with fileSize := 4294895616 }

theorem wideDisk_sound : wideDisk.Sound := by
  constructor <;> decide

theorem wideDisk_free {x : Nat} (hx : x ∈ wideDisk.clusterNumbers) :
    wideDisk.getCluster x = CLUSTER_FREE := by
  have hlt := wideDisk.mem_clusterNumbers.mp hx
  have hcount : wideDisk.bpb.getClusterCount = 33156 := by decide
  have h12 : wideDisk.bpb.isFat12 = false := by decide
  have hfat : ∀ i, 4 ≤ i → wideDisk.fat i = 0 := fun i hi => if_neg (by omega)
  rw [FatDisk.getCluster, if_neg (by rw [CLUSTER_FIRST]; omega), h12, if_neg Bool.false_ne_true,
    getCluster16_eq _ (by omega), hfat _ (by omega), hfat _ (by omega)]
  rfl

theorem wideDisk_writable : wideDisk.Writable wideFile [] := by
  have hmem : wideFile.firstCluster.toNat ∈ wideDisk.clusterNumbers :=
    wideDisk.mem_clusterNumbers.mpr (by decide)
  have hall : wideDisk.countFreeClusters = 33156 := by
    rw [FatDisk.countFreeClusters, List.countP_eq_length.mpr fun x hx => ?_, FatDisk.clusterNumbers,
      List.length_range']
    · decide
    · exact beq_iff_eq.mpr (wideDisk_free hx)
  refine ⟨wideDisk_sound, ⟨by decide, by decide⟩, by decide, Or.inr ⟨hmem, ?_, ?_⟩, ?_⟩
  · exact beq_iff_eq.mpr (wideDisk_free hmem)
  · exact FatDisk.filesApart_nil _
  · rw [hall]
    decide

/-- The sum that `CeilDiv` divides wraps, and the file gets no cluster at all. -/
theorem wideDisk_wraps : ¬ wideDisk.RoundTrip 33156 wideFile (fun _ => 0x41) [] := by
  rintro ⟨d', hwrite, hw⟩
  obtain ⟨l, hl, -, -⟩ := hw.chain
  have hmem : wideFile.firstCluster.toNat ∈ wideDisk.clusterNumbers :=
    wideDisk.mem_clusterNumbers.mpr (by decide)
  have hregular := wideDisk_writable.regular
  have hfirst : wideFile.firstCluster ≠ 0 := by decide
  have hchain : wideDisk.Chain wideFile.firstCluster.toNat [wideFile.firstCluster.toNat] := by
    refine .last ?_
    rw [wideDisk_free hmem]
    exact wideDisk.eoc_zero
  have hsize : wideDisk.getFileSize 33156 wideFile = .ok 4294895616 := rfl
  have hcount : u32 (4294895616 + wideDisk.bpb.getClusterSize - 1) / wideDisk.bpb.getClusterSize = 0 := by
    decide
  obtain ⟨d1, c1, hloop, -, hfreed, -⟩ := writeLoop_free 4294895616 0 (fun _ => 0x41) wideDisk_sound
    (Or.inr hchain) (by simpa using hmem) (le_refl 0) 0
  have hrun : wideDisk.writeFile 33156 wideFile (fun _ => 0x41) = .ok (true, { d1 with dirty := true }) := by
    rw [FatDisk.writeFile_def, hregular.not_root, hregular.not_refused hfirst, if_neg Bool.false_ne_true,
      if_neg Bool.false_ne_true, hsize, ok_bind]
    dsimp only
    rw [hcount, FatDisk.countClusters_eq hregular.not_root hfirst hchain (by decide), ok_bind,
      if_neg (Nat.not_lt_zero _), Nat.max_eq_right (Nat.zero_le _), hloop, ok_bind]
    rfl
  rw [hwrite] at hrun
  obtain rfl : d' = { d1 with dirty := true } := congrArg Prod.snd (Except.ok.inj hrun)
  have hfree := hl.not_free hl.head_mem
  rw [FatDisk.isClusterFree, FatDisk.getCluster_setDirty, hfreed _ List.mem_cons_self] at hfree
  cases hfree

theorem round_trip_needs_mark_and_size :
    (blankDisk 0).Writable loopedFile [] ∧
      ¬ (blankDisk 0).RoundTrip 3 loopedFile (fun _ => 0x41) [] ∧
    wideDisk.Writable wideFile [] ∧ wideDisk.EndMark wideDisk.getClusterNumberEOC ∧
      ¬ wideDisk.RoundTrip 33156 wideFile (fun _ => 0x41) [] :=
  ⟨blankDisk_writable, blankDisk_unmarked, wideDisk_writable, by decide, wideDisk_wraps⟩

end Ohwes.Fatfs

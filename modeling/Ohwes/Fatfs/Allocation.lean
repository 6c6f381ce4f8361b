import Ohwes.Fatfs.AddFile
import Ohwes.Fatfs.Consecutive

/-! # Which clusters a new file gets

`FindNextFreeCluster` searches from the first cluster on every time, so a new file is in the free
clusters with the lowest numbers, in their order. Where the clusters in use are the first ones, the
files that are added follow one another without a gap. -/

namespace Ohwes.Fatfs
open Library
set_option autoImplicit false

namespace FatDisk

/-- The free clusters, the lowest number first. -/
def freeList (d : FatDisk) : List Nat := d.clusterNumbers.filter d.isClusterFree

section FreeList
variable {d : FatDisk}

theorem mem_freeList {x : Nat} : x ∈ d.freeList ↔ x ∈ d.clusterNumbers ∧ d.getCluster x = CLUSTER_FREE := by
  rw [freeList, List.mem_filter, isClusterFree, beq_iff_eq]

theorem freeList_nodup : d.freeList.Nodup := List.Nodup.filter _ List.nodup_range'

theorem freeList_length : d.freeList.length = d.countFreeClusters := by
  rw [freeList, countFreeClusters, List.countP_eq_length_filter]

theorem findNextFreeCluster_head {c : Nat} {t : List Nat} (h : d.freeList = c :: t) :
    d.findNextFreeCluster = c := by
  rw [findNextFreeCluster, ← List.head?_filter, ← freeList, h, List.head?_cons, Option.getD_some]

/-- Giving a cluster of the list another entry takes it out. -/
theorem freeList_update {d' : FatDisk} {c v : Nat} {t : List Nat} (h : d.freeList = c :: t)
    (hbpb : d'.bpb = d.bpb) (hnext : d'.getCluster = Function.update d.getCluster c v)
    (hv : v ≠ CLUSTER_FREE) : d'.freeList = t := by
  have hnodup : (c :: t).Nodup := h ▸ freeList_nodup
  have hfree : ∀ x, d'.isClusterFree x = (d.isClusterFree x && decide (x ≠ c)) := by
    intro x
    rw [isClusterFree, isClusterFree, hnext, Function.update_apply]
    by_cases hx : x = c
    · rw [if_pos hx, decide_eq_false (not_not.mpr hx), Bool.and_false, beq_eq_false_iff_ne]
      exact hv
    · rw [if_neg hx, decide_eq_true hx, Bool.and_true]
  rw [freeList, clusterNumbers_congr hbpb, List.filter_congr fun x _ => hfree x, ← List.filter_filter,
    List.filter_comm, ← freeList, h, List.filter_cons_of_neg (by simp)]
  refine List.filter_eq_self.mpr fun x hx => decide_eq_true ?_
  rintro rfl
  exact (List.nodup_cons.mp hnodup).1 hx

end FreeList

/-- A new file from cluster `c` on has the clusters `l`, and `free` is what is left. -/
structure Allotted (d : FatDisk) (c : Nat) (l free : List Nat) (d' : FatDisk) : Prop where
  bpb : d'.bpb = d.bpb
  base : d'.base = d.base
  chain : d'.GoodChain c l
  free : d'.freeList = free
  frame : ∀ x, x ∉ l → d'.getCluster x = d.getCluster x

end FatDisk

section Loop
variable {d : FatDisk} (hd : d.Sound) (hmark : d.EndMark d.getClusterNumberEOC) {fileSize newCount : Nat}
  (buf : Buffer) (hsize : fileSize < 4294967296) {c b : Nat}
include hd hmark hsize

/-- The last pass for a new file. -/
theorem writePass_allots_last (hb : b ≤ fileSize) {t : List Nat} (hfree : d.freeList = c :: t) {i : Nat}
    (hi : i = newCount - 1) : ∃ d' b', writePass fileSize newCount buf i (d.getCluster c) ⟨d, c, b⟩ =
      .ok (true, ⟨d', d.getCluster c, b'⟩) ∧ d.Allotted c [c] t d' := by
  have hc := (FatDisk.mem_freeList.mp (hfree ▸ List.mem_cons_self : c ∈ d.freeList)).1
  have hchunk := d.chunk_length fileSize buf c b
  have hfits := d.fits_getClusterNumberEOC
  have htouch := FatDisk.rewritten_touches hd hc hfits hchunk
  have hnext := FatDisk.rewritten_next hd hc hfits hchunk
  have hpass := writePass_eq hd hc hb hsize newCount buf i (d.getCluster c)
  rw [linkNext_last hd hc hchunk hi] at hpass
  have hne : d.getClusterNumberEOC ≠ CLUSTER_FREE := fun h0 => d.not_endMark_free (h0 ▸ hmark)
  refine ⟨_, _, hpass, htouch.bpb, htouch.base, ⟨.last ?_, fun x hx => ?_⟩,
    FatDisk.freeList_update hfree htouch.bpb hnext hne, fun x hx => ?_⟩
  · rw [hnext, Function.update_self, FatDisk.endMark_congr htouch.bpb]
    exact hmark
  · rw [List.mem_singleton] at hx
    rw [FatDisk.clusterNumbers_congr htouch.bpb, hx]
    exact hc
  · rw [List.mem_singleton] at hx
    rw [hnext, Function.update_of_ne hx]

omit hmark in
/-- A pass that goes on: the next cluster is the next one of the list. -/
theorem writePass_allots (hmore : d.bpb.getClusterSize < fileSize - b) {c1 : Nat} {t : List Nat}
    (hfree : d.freeList = c :: c1 :: t) {i : Nat} (hi : i ≠ newCount - 1) :
    ∃ d1, writePass fileSize newCount buf i (d.getCluster c) ⟨d, c, b⟩ =
        .ok (true, ⟨d1, c1, b + d.bpb.getClusterSize⟩) ∧ d.Touches [c] d1 ∧
      d1.getCluster = Function.update d.getCluster c c1 ∧ d1.freeList = c1 :: t := by
  obtain ⟨hc, hnow⟩ := FatDisk.mem_freeList.mp (hfree ▸ List.mem_cons_self : c ∈ d.freeList)
  obtain ⟨hc1, -⟩ := FatDisk.mem_freeList.mp
    (hfree ▸ List.mem_cons_of_mem c List.mem_cons_self : c1 ∈ d.freeList)
  have hchunk := d.chunk_length fileSize buf c b
  have hnone : c1 ≠ CLUSTER_FREE := by
    have := d.mem_clusterNumbers.mp hc1
    rw [CLUSTER_FREE]
    omega
  have hreserved : (d.reserved c (d.chunk fileSize buf c b)).freeList = c1 :: t :=
    FatDisk.freeList_update hfree (FatDisk.reserved_bpb hc _) (FatDisk.reserved_next hd hc _) (by decide)
  have hpass := writePass_eq hd hc (b := b) (by omega) hsize newCount buf i (d.getCluster c)
  rw [linkNext_extend hd hc hchunk hi _ (hnow ▸ d.eoc_zero), FatDisk.findNextFreeCluster_head hreserved,
    Nat.min_eq_right (by omega)] at hpass
  have hfits := hd.fits hc1
  have hnext := FatDisk.rewritten_next hd hc hfits hchunk
  have htouch := FatDisk.rewritten_touches hd hc hfits hchunk
  exact ⟨_, hpass, htouch, hnext, FatDisk.freeList_update hfree htouch.bpb hnext hnone⟩

end Loop

/-- The loop for a new file: by induction on the clusters it still has to get. -/
theorem writeLoop_allots {d : FatDisk} (hd : d.Sound) (hmark : d.EndMark d.getClusterNumberEOC)
    {fileSize newCount : Nat} (buf : Buffer) (hsize : fileSize < 4294967296) {c b m i : Nat}
    {t : List Nat} (hfree : d.freeList = c :: t) (hi : newCount = i + m + 1) (hm : m ≤ t.length)
    (hlow : m * d.bpb.getClusterSize < fileSize - b) :
    ∃ w, writeLoop fileSize newCount buf (m + 1) i ⟨d, c, b⟩ = .ok (true, w) ∧
      d.Allotted c (c :: t.take m) (t.drop m) w.disk := by
  induction m generalizing d c b i t with
  | zero =>
    have hlast : i = newCount - 1 := by omega
    obtain ⟨d', b', hpass, hall⟩ := writePass_allots_last hd hmark buf hsize (b := b) (by omega) hfree hlast
    refine ⟨⟨d', d.getCluster c, b'⟩, ?_, hall⟩
    rw [writeLoop_succ, if_neg (by omega)]
    dsimp only
    rw [hpass, ok_bind]
    rfl
  | succ m ih =>
    obtain ⟨c1, t, rfl⟩ := List.exists_cons_of_length_pos (by omega : 0 < t.length)
    rw [Nat.succ_mul] at hlow
    have hmore : i ≠ newCount - 1 := by omega
    obtain ⟨d1, hpass, htouch, hnext, hfree1⟩ :=
      writePass_allots hd buf hsize (b := b) (by omega) hfree hmore
    have hbpb := htouch.bpb
    have hc := (FatDisk.mem_freeList.mp (hfree ▸ List.mem_cons_self : c ∈ d.freeList)).1
    rw [List.length_cons] at hm
    obtain ⟨w, hloop, hall⟩ := ih (htouch.sound hd)
      (by
        rw [FatDisk.endMark_congr hbpb, htouch.getClusterNumberEOC_eq (by simpa using hc)]
        exact hmark)
      hfree1 (i := i + 1) (b := b + d.bpb.getClusterSize) (by omega) (by omega)
      (by
        rw [hbpb]
        omega)
    have hnodup : (c :: c1 :: t).Nodup := hfree ▸ FatDisk.freeList_nodup
    have hnot : c ∉ c1 :: t.take m := by
      intro hmem
      refine (List.nodup_cons.mp hnodup).1 ?_
      rcases List.mem_cons.mp hmem with rfl | hmem
      · exact List.mem_cons_self
      · exact List.mem_cons_of_mem _ (List.mem_of_mem_take hmem)
    have hlink : w.disk.getCluster c = c1 := by
      rw [hall.frame c hnot, hnext, Function.update_self]
    refine ⟨w, ?_, hall.bpb.trans hbpb, hall.base.trans htouch.base, ⟨.link ?_ ?_, fun x hx => ?_⟩, ?_,
      fun x hx => ?_⟩
    · rw [writeLoop_succ, if_neg (by omega)]
      dsimp only
      rw [hpass, ok_bind]
      exact hloop
    · rw [hlink]
      have hsound := hd.congr (hall.bpb.trans hbpb) (hall.base.trans htouch.base)
      exact fun he => hsound.not_eoc hall.chain.head_range he.eoc
    · rw [hlink]
      exact hall.chain.1
    · rcases List.mem_cons.mp hx with rfl | hx
      · rwa [FatDisk.clusterNumbers_congr (hall.bpb.trans hbpb)]
      · exact hall.chain.2 x hx
    · exact hall.free
    · rw [List.mem_cons, not_or] at hx
      rw [hall.frame x hx.2, hnext, Function.update_of_ne hx.1]

namespace FatDisk

/-- The clusters from `k` on are free, and no other. -/
def Packed (d : FatDisk) (k : Nat) : Prop :=
  CLUSTER_FIRST ≤ k ∧ d.freeList = List.range' k (d.bpb.getClusterCount + CLUSTER_FIRST - k)

section New
variable {d : FatDisk} (hd : d.Sound) (hmark : d.EndMark d.getClusterNumberEOC) {e : DirEntry}
  (he : e.Regular) (hsize : 0 < e.fileSize.toNat)
  (hfit : e.fileSize.toNat + d.bpb.getClusterSize ≤ 4294967296)
  (hspace : ceilDiv e.fileSize.toNat d.bpb.getClusterSize ≤ d.countFreeClusters)
  (hfirst : e.firstCluster.toNat = d.findNextFreeCluster) (buf : Buffer) {steps : Nat} (hsteps : 0 < steps)
include hd hmark he hsize hfit hspace hfirst hsteps

/-- **A new file gets the free clusters with the lowest numbers, in their order.** -/
theorem writeFile_allots :
    ∃ d', d.writeFile steps e buf = .ok (true, d') ∧ d'.dirty = true ∧
      Wrote e.fileSize.toNat buf d e.firstCluster.toNat 0 [e.firstCluster.toNat]
        (d.freeList.take (ceilDiv e.fileSize.toNat d.bpb.getClusterSize)) d' ∧
      d'.freeList = d.freeList.drop (ceilDiv e.fileSize.toNat d.bpb.getClusterSize) := by
  obtain ⟨m, hm, hlow, hhigh⟩ := ceilDiv_bounds hsize d.clusterSize_pos
  rw [← freeList_length] at hspace
  obtain ⟨c, t, hfree⟩ := List.exists_cons_of_length_pos (by omega : 0 < d.freeList.length)
  have hnext := findNextFreeCluster_head hfree
  rw [hnext] at hfirst
  obtain ⟨hc, hnow⟩ := mem_freeList.mp (hfree ▸ List.mem_cons_self : c ∈ d.freeList)
  have hchain : d.Chain e.firstCluster.toNat [e.firstCluster.toNat] := by
    refine .last ?_
    rw [hfirst, hnow]
    exact d.eoc_zero
  have hrange : ∀ x ∈ [e.firstCluster.toNat], x ∈ d.clusterNumbers := by
    simpa [hfirst] using hc
  have hspace' : ceilDiv e.fileSize.toNat d.bpb.getClusterSize ≤ d.countFreeClusters := by
    rwa [← freeList_length]
  obtain ⟨d', l, hwrite, hdirty, hlen, hwrote⟩ := writeFile_writes hd hmark he hsize hfit hchain hrange
    hspace' buf hsteps
  rw [hfree, List.length_cons] at hspace
  have hpasses : m + 1 = 0 + m + 1 := by omega
  obtain ⟨w, hloop, hall⟩ := writeLoop_allots hd hmark buf e.fileSize.isLt hfree (b := 0) hpasses
    (by omega) (by omega)
  -- both describe the loop of the same call
  have hcount : d.bpb.clustersFor e.fileSize.toNat = m + 1 := (clustersFor_eq hfit).trans hm
  have heq := writeFile_eq he hchain buf hsteps (first_ne_zero (hfirst.symm ▸ hc))
  rw [hcount, if_neg (by omega), List.length_singleton, Nat.max_eq_left (by omega), hfirst, hloop,
    hwrite] at heq
  obtain rfl : d' = { w.disk with dirty := true } := congrArg Prod.snd (Except.ok.inj heq)
  have hsame : l = c :: t.take m := by
    refine hwrote.chain.unique ?_
    rw [hfirst]
    exact hall.chain.congr rfl fun x _ => by rw [getCluster_setDirty]
  rw [hm, hfree, List.take_succ_cons, List.drop_succ_cons, ← hsame]
  refine ⟨_, hwrite, rfl, hwrote, ?_⟩
  rw [← hall.free, freeList, freeList]
  exact List.filter_congr fun x _ => by rw [isClusterFree, isClusterFree, getCluster_setDirty]

/-- **On a packed disk it follows the others without a gap.** -/
theorem Packed.writeFile_allots {k : Nat} (hk : d.Packed k) :
    ∃ d', d.writeFile steps e buf = .ok (true, d') ∧ d'.dirty = true ∧
      Wrote e.fileSize.toNat buf d e.firstCluster.toNat 0 [e.firstCluster.toNat]
        (List.range' k (ceilDiv e.fileSize.toNat d.bpb.getClusterSize)) d' ∧
      e.firstCluster.toNat = k ∧ d'.Packed (k + ceilDiv e.fileSize.toNat d.bpb.getClusterSize) := by
  obtain ⟨hlow, hfree⟩ := hk
  obtain ⟨m, hm, -, -⟩ := ceilDiv_bounds hsize d.clusterSize_pos
  obtain ⟨d', hwrite, hdirty, hwrote, hleft⟩ := FatDisk.writeFile_allots hd hmark he hsize hfit hspace
    hfirst buf hsteps
  have hlen : ceilDiv e.fileSize.toNat d.bpb.getClusterSize ≤ d.bpb.getClusterCount + CLUSTER_FIRST - k := by
    rwa [← freeList_length, hfree, List.length_range'] at hspace
  obtain ⟨r, hr⟩ := Nat.exists_eq_add_of_le hlen
  have hsplit : d.freeList = List.range' k (ceilDiv e.fileSize.toNat d.bpb.getClusterSize) ++
      List.range' (k + ceilDiv e.fileSize.toNat d.bpb.getClusterSize) r := by
    rw [hfree, hr, ← List.range'_append_1]
  have htake : d.freeList.take (ceilDiv e.fileSize.toNat d.bpb.getClusterSize) =
      List.range' k (ceilDiv e.fileSize.toNat d.bpb.getClusterSize) := by
    rw [hsplit, List.take_left' List.length_range']
  have hdrop : d.freeList.drop (ceilDiv e.fileSize.toNat d.bpb.getClusterSize) =
      List.range' (k + ceilDiv e.fileSize.toNat d.bpb.getClusterSize) r := by
    rw [hsplit, List.drop_left' List.length_range']
  rw [htake] at hwrote
  have hk : e.firstCluster.toNat = k := by
    have hmem := hwrote.chain.1.eq_cons
    obtain ⟨t, ht⟩ := hmem
    rw [hm, List.range'_succ] at ht
    exact (List.cons.inj ht).1.symm
  refine ⟨d', hwrite, hdirty, hwrote, hk, by omega, ?_⟩
  rw [hleft, hdrop, hwrote.touches.bpb]
  congr 1
  omega

end New

end FatDisk

end Ohwes.Fatfs

import Ohwes.Fatfs.WriteFile

/-! # Files whose clusters follow one another -/

namespace Ohwes.Fatfs
open Library
set_option autoImplicit false

namespace FatDisk
variable {d : FatDisk}

/-- The file is in as many clusters as its size asks for, in the order of their numbers. -/
structure Consecutive (d : FatDisk) (e : DirEntry) : Prop where
  regular : e.Regular
  size_pos : 0 < e.fileSize.toNat
  chain : d.GoodChain e.firstCluster.toNat
    (List.range' e.firstCluster.toNat (ceilDiv e.fileSize.toNat d.bpb.getClusterSize))

/-- Clusters that follow one another hold one stretch of the image. -/
theorem Sound.contents_eq (hd : d.Sound) {c n : Nat} (h : ∀ x ∈ List.range' c n, x ∈ d.clusterNumbers) :
    ((List.range' c n).map d.content).flatten =
      slice d.file (d.dataStart + (c - 2) * d.bpb.getClusterSize) (n * d.bpb.getClusterSize) := by
  induction n with
  | zero => rw [List.range'_zero, Nat.zero_mul, slice_zero, List.map_nil, List.flatten_nil]
  | succ n ih =>
    have hlast : c + n ∈ List.range' c (n + 1) := List.mem_range'_1.mpr ⟨Nat.le_add_right c n, by omega⟩
    have hfirst := (d.mem_clusterNumbers.mp (h c (List.mem_range'_1.mpr ⟨le_refl c, by omega⟩))).1
    have hstart : d.clusterAddr (c + n) =
        d.dataStart + (c - 2) * d.bpb.getClusterSize + n * d.bpb.getClusterSize := by
      rw [hd.clusterAddr_eq (h _ hlast), Nat.add_assoc, ← Nat.add_mul]
      congr 2
      omega
    have hpart : ∀ x ∈ List.range' c n, x ∈ d.clusterNumbers := by
      intro x hx
      have hx := List.mem_range'_1.mp hx
      exact h x (List.mem_range'_1.mpr ⟨hx.1, by omega⟩)
    rw [List.range'_concat, Nat.one_mul, List.map_append, List.flatten_append, ih hpart,
      List.map_singleton, List.flatten_singleton, content, hstart, Nat.succ_mul, slice_add]

theorem Consecutive.first_ne_zero {e : DirEntry} (h : d.Consecutive e) : e.firstCluster ≠ 0 :=
  FatDisk.first_ne_zero h.chain.head_range

/-- What `ReadFile` reads of such a file. -/
theorem Consecutive.readFile_eq (hd : d.Sound) {e : DirEntry} (h : d.Consecutive e) {steps : Nat}
    (hsteps : d.bpb.getClusterCount ≤ steps) :
    d.readFile steps e = .ok (some (slice d.file
      (d.dataStart + (e.firstCluster.toNat - 2) * d.bpb.getClusterSize)
      (ceilDiv e.fileSize.toNat d.bpb.getClusterSize * d.bpb.getClusterSize))) := by
  rw [readFile_chain hd h.regular.not_root (h.regular.not_refused h.first_ne_zero) h.chain hsteps,
    hd.contents_eq h.chain.2]

end FatDisk

end Ohwes.Fatfs

import Ohwes.Fatfs.WriteFile

/-! # The space check of `WriteFile`

Before it writes, `WriteFile` compares the number of clusters that the new size needs with the number
of free ones. The loop behind the check takes free clusters only for what the old chain of the file
does not cover. -/

namespace Ohwes.Fatfs
open Library
set_option autoImplicit false

namespace FatDisk
variable (d : FatDisk)

/-- Where `WriteFile` finds that there is not enough space on the disk. -/
def lacksSpace (e : DirEntry) : Bool :=
  u32 (e.fileSize.toNat + d.bpb.getClusterSize - 1) / d.bpb.getClusterSize > d.countFreeClusters

/-- The clusters that the size in the entry needs. -/
def neededClusters (e : DirEntry) : Nat := ceilDiv e.fileSize.toNat d.bpb.getClusterSize

variable {d}

/-- `WriteFile` of a regular file, with its check by name. -/
theorem writeFile_lacksSpace {f : DirEntry} (hf : f.Regular) (hok : refusesFile f = false)
    {steps count : Nat} (hcount : d.countClusters steps f = .ok count) (buf : Buffer) :
    d.writeFile steps f buf =
      if d.lacksSpace f then .ok (false, d)
      else do
        let newCount :=
          u32 (f.fileSize.toNat + d.bpb.getClusterSize - 1) / d.bpb.getClusterSize
        match ← writeLoop f.fileSize.toNat newCount buf (max newCount count) 0
          ⟨d, f.firstCluster.toNat, 0⟩ with
        | (false, w) => return (false, w.disk)
        | (true, w) => return (true, { w.disk with dirty := true }) := by
  have hsize : d.getFileSize steps f = .ok f.fileSize.toNat := by
    rw [getFileSize, hf.not_directory, if_neg Bool.false_ne_true]
  rw [writeFile_def, hf.not_root, hok, if_neg Bool.false_ne_true, if_neg Bool.false_ne_true, hsize, ok_bind]
  dsimp only
  rw [hcount, ok_bind, lacksSpace]
  by_cases h : u32 (f.fileSize.toNat + d.bpb.getClusterSize - 1) / d.bpb.getClusterSize >
      d.countFreeClusters
  · rewrite [if_pos h, decide_eq_true h, if_pos rfl]
    rfl
  · rewrite [if_neg h, decide_eq_false h, if_neg Bool.false_ne_true]
    rfl

theorem Clusters.count {f : DirEntry} {l : List Nat}
    (hlimit : d.bpb.getClusterCount ≤ MAX_CLUSTERS_16) (hf : f.Regular) (hl : d.Clusters f l)
    {steps : Nat} (hsteps : l.length ≤ steps) :
    d.countClusters steps f = .ok l.length := by
  rw [Clusters] at hl
  split at hl
  · rename_i hzero
    rw [countClusters, if_neg (by rw [hf.not_root]; exact Bool.false_ne_true), if_pos hzero, hl]
    rfl
  · rename_i hfirst
    exact countClusters_eq hf.not_root hfirst (GoodChain.chain_of_limit hlimit hl) hsteps

/-- The file is refused for lack of space where its clusters and the free ones together are too few,
and then nothing has changed. -/
structure ChecksSpace (d : FatDisk) (f : DirEntry) (l : List Nat) : Prop where
  exact_iff : d.lacksSpace f = true ↔ l.length + d.countFreeClusters < d.neededClusters f
  unchanged : d.lacksSpace f = true → ∀ steps buf, l.length ≤ steps →
    d.writeFile steps f buf = .ok (false, d)

theorem lacksSpace_small {f : DirEntry}
    (hfit : f.fileSize.toNat + d.bpb.getClusterSize ≤ 4294967296) :
    d.lacksSpace f = true ↔ d.countFreeClusters < d.neededClusters f := by
  have hpos := d.clusterSize_pos
  rw [lacksSpace, u32_of_lt (by omega), decide_eq_true_iff, neededClusters, ceilDiv]

/-- The rounded size wraps around, and less than a cluster is left of it. -/
theorem lacksSpace_large {f : DirEntry}
    (hwrap : 4294967296 < f.fileSize.toNat + d.bpb.getClusterSize) : d.lacksSpace f = false := by
  have hsize := f.fileSize.isLt
  have hlt := getClusterSize_lt d.bpb
  have hzero : u32 (f.fileSize.toNat + d.bpb.getClusterSize - 1) / d.bpb.getClusterSize = 0 := by
    apply Nat.div_eq_of_lt
    unfold u32
    omega
  rw [lacksSpace, hzero]
  exact decide_eq_false (Nat.not_lt_zero _)

/-- **Space check.** On a disk whose clusters all have a number, a file with its own clusters is refused
for lack of space exactly when it should be, if and only if the free clusters alone hold it, or not even
they and its own do and its size is not rounded up past 32 bits, or it is and they do. -/
theorem checks_space_iff (d : FatDisk) (hlimit : d.bpb.getClusterCount ≤ MAX_CLUSTERS_16)
    (f : DirEntry) (hf : f.Regular) (hok : refusesFile f = false) (l : List Nat)
    (hl : d.Clusters f l) :
    ChecksSpace d f l ↔
      d.neededClusters f ≤ d.countFreeClusters ∨
      l.length + d.countFreeClusters < d.neededClusters f ∧
        f.fileSize.toNat + d.bpb.getClusterSize ≤ 4294967296 ∨
      d.neededClusters f ≤ l.length + d.countFreeClusters ∧
        4294967296 < f.fileSize.toNat + d.bpb.getClusterSize := by
  have hunchanged : d.lacksSpace f = true → ∀ steps buf, l.length ≤ steps →
      d.writeFile steps f buf = .ok (false, d) := by
    intro h steps buf hsteps
    rw [writeFile_lacksSpace hf hok (hl.count hlimit hf hsteps), if_pos h]
  have hiff : ChecksSpace d f l ↔
      (d.lacksSpace f = true ↔ l.length + d.countFreeClusters < d.neededClusters f) :=
    ⟨fun h => h.exact_iff, fun h => ⟨h, hunchanged⟩⟩
  rw [hiff]
  by_cases hfit : f.fileSize.toNat + d.bpb.getClusterSize ≤ 4294967296
  · rw [lacksSpace_small hfit]
    omega
  · rw [lacksSpace_large (by omega)]
    simp only [Bool.false_eq_true, false_iff]
    omega

end FatDisk

theorem checks_space_one_more :
    FatDisk.ChecksSpace nearlyFullDisk { loopedFile with fileSize := 512 } [2, 3] :=
  (FatDisk.checks_space_iff nearlyFullDisk (by decide) { loopedFile with fileSize := 512 }
    ⟨by decide, by decide⟩ (by decide) [2, 3] (twoClusterFile_clusters 512)).mpr (by decide)

/-- A file of two clusters cannot be overwritten, although it needs no cluster that it does not have. -/
theorem overwrite_refused :
    nearlyFullDisk.Clusters twoClusterFile [2, 3] ∧
      ¬ FatDisk.ChecksSpace nearlyFullDisk twoClusterFile [2, 3] ∧
      nearlyFullDisk.writeFile 3 twoClusterFile (fun _ => 0) = .ok (false, nearlyFullDisk) := by
  refine ⟨twoClusterFile_clusters 1024, fun h => ?_, by rfl⟩
  exact absurd (h.exact_iff.mp (by decide)) (by decide)

end Ohwes.Fatfs

import Ohwes.Fatfs.FatDisk

/-! # The walks along the chains of a FAT

The FAT of an image may hold anything. A walk along it ends if it does not come back to a cluster it
has been at; then it takes one step for each cluster it passes through. -/

namespace Ohwes.Fatfs
open Library
set_option autoImplicit false

/-! ## Calls that end -/

def Ends {α : Type} (x : Call α) : Prop := x ≠ .error .diverges

theorem ends_ok {α : Type} (r : α) : Ends (.ok r : Call α) := by
  simp [Ends]

theorem Ends.bind {α β : Type} {x : Call α} {f : α → Call β} (hx : Ends x)
    (hf : ∀ r, x = .ok r → Ends (f r)) : Ends (x >>= f) := by
  cases x with
  | error e => simpa [Ends, Bind.bind, Except.bind] using hx
  | ok r => exact hf r rfl

theorem assert_ends (c : Bool) : Ends (assert c) := by
  cases c
  · simp [Ends]
  · simp [Ends]

namespace FatDisk
variable (d : FatDisk)

/-- The value at which the loops leave a chain. -/
def Eoc (c : Nat) : Prop := d.isClusterNumberEOC c = true

instance : DecidablePred d.Eoc := fun c => inferInstanceAs (Decidable (d.isClusterNumberEOC c = true))

/-- The clusters that the loops pass through from `c` on. -/
abbrev Chain (c : Nat) (l : List Nat) : Prop := Library.Chain d.getCluster d.Eoc c l

theorem getClusterNumberEOC_lt : d.getClusterNumberEOC < 65536 := by
  rw [getClusterNumberEOC]
  split
  · have := getCluster12_lt d.fat 1
    omega
  · exact Nat.or_lt_two_pow (n := 16) (getCluster16_lt d.fat 1) (by omega)

theorem getCluster_lt (index : Nat) : d.getCluster index < 65536 := by
  rw [getCluster]
  split
  · exact d.getClusterNumberEOC_lt
  · split
    · have := getCluster12_lt d.fat index
      omega
    · exact getCluster16_lt d.fat index

/-! ## The loops -/

theorem countLoop_eq (steps count c : Nat) :
    d.countLoop steps count c =
      match chainWithin d.getCluster d.Eoc steps c with
      | some l => .ok (count + l.length)
      | none => .error .diverges := by
  induction steps generalizing count c with
  | zero => rfl
  | succ steps ih =>
    rw [countLoop, chainWithin]
    by_cases h : d.isClusterNumberEOC (d.getCluster c) = true
    · have hs : d.Eoc (d.getCluster c) := h
      simp only [h, hs, if_true, List.length_singleton]
    · have hs : ¬ d.Eoc (d.getCluster c) := h
      simp only [h, hs, if_false, Bool.false_eq_true]
      rw [ih]
      cases chainWithin d.getCluster d.Eoc steps (d.getCluster c) with
      | none => rfl
      | some l =>
        simp only [Option.map_some, List.length_cons]
        rw [Nat.add_assoc, Nat.add_comm 1]

theorem countLoop_ends_iff (steps count c : Nat) :
    Ends (d.countLoop steps count c) ↔ ∃ l, d.Chain c l ∧ l.length ≤ steps := by
  rw [countLoop_eq]
  cases h : chainWithin d.getCluster d.Eoc steps c with
  | none =>
    refine ⟨fun he => absurd rfl he, fun ⟨l, hl⟩ => ?_⟩
    rw [chainWithin_some.mpr hl] at h
    exact nomatch h
  | some l => exact ⟨fun _ => ⟨l, chainWithin_some.mp h⟩, fun _ => ends_ok _⟩

theorem readLoop_of_eoc {c : Nat} (h : d.Eoc c) (steps : Nat) :
    d.readLoop steps c = .ok (some []) := by
  have h : d.isClusterNumberEOC c = true := h
  cases steps with
  | zero => rw [readLoop_zero, if_pos h]
  | succ steps => rw [readLoop_succ, if_pos h]

theorem clusterInside_ends (index : Nat) : Ends (d.clusterInside index) := by
  rw [clusterInside]
  split
  · exact ends_ok _
  · exact (assert_ends _).bind fun _ _ => ends_ok _

theorem readCluster_ends (index : Nat) : Ends (d.readCluster index) :=
  (d.clusterInside_ends index).bind fun _ _ => ends_ok _

theorem writeCluster_ends (index : Nat) (bs : List Byte) : Ends (d.writeCluster index bs) :=
  (d.clusterInside_ends index).bind fun _ _ => ends_ok _

/-- Along a chain, `ReadFile` ends within a step for each of its clusters. -/
theorem readLoop_ends {c : Nat} {l : List Nat} (h : d.Chain c l) {steps : Nat}
    (hle : l.length ≤ steps) : Ends (d.readLoop steps c) := by
  induction h generalizing steps with
  | @last c hs =>
    obtain ⟨steps, rfl⟩ : ∃ n, steps = n + 1 := ⟨steps - 1, by rw [List.length_singleton] at hle; omega⟩
    rw [readLoop_succ]
    split
    · exact ends_ok _
    · refine (d.readCluster_ends c).bind fun bs _ => ?_
      cases bs with
      | none => exact ends_ok _
      | some bs =>
        rw [d.readLoop_of_eoc hs]
        exact ends_ok _
  | @link c l hn hl ih =>
    rw [List.length_cons] at hle
    obtain ⟨steps, rfl⟩ : ∃ n, steps = n + 1 := ⟨steps - 1, by omega⟩
    rw [readLoop_succ]
    split
    · exact ends_ok _
    · refine (d.readCluster_ends c).bind fun bs _ => ?_
      cases bs with
      | none => exact ends_ok _
      | some bs => exact (ih (by omega)).bind fun _ _ => ends_ok _

theorem readFile_ends {steps : Nat} {e : DirEntry} (h : Ends (d.countClusters steps e)) :
    Ends (d.readFile steps e) := by
  rw [readFile_def]
  split
  · exact ends_ok _
  · rename_i hroot
    split
    · exact ends_ok _
    · rw [countClusters, if_neg hroot] at h
      by_cases hz : e.firstCluster = 0
      · rw [hz, d.readLoop_of_eoc (by simp [Eoc, isClusterNumberEOC, CLUSTER_FIRST])]
        exact ends_ok _
      · rw [if_neg hz, countLoop_ends_iff] at h
        obtain ⟨l, hl, hle⟩ := h
        exact d.readLoop_ends hl hle

theorem getFileAllocSize_ends {steps : Nat} {e : DirEntry} (h : Ends (d.countClusters steps e)) :
    Ends (d.getFileAllocSize steps e) := by
  rw [getFileAllocSize]
  split
  · exact ends_ok _
  · split
    · exact ends_ok _
    · exact h.bind fun _ _ => ends_ok _

end FatDisk

theorem writePass_ends (fileSize newCount : Nat) (buf : Buffer) (i oldValue : Nat) (w : Writing) :
    Ends (writePass fileSize newCount buf i oldValue w) := by
  rw [writePass_def]
  refine (assert_ends _).bind fun _ _ => (FatDisk.readCluster_ends _ _).bind fun old _ => ?_
  cases old with
  | none => exact ends_ok _
  | some old =>
    refine (FatDisk.writeCluster_ends _ _ _).bind fun r _ => ?_
    cases r with
    | none => exact ends_ok _
    | some d => exact ends_ok _

theorem writeLoop_ends (fileSize newCount : Nat) (buf : Buffer) (passes i : Nat) (w : Writing) :
    Ends (writeLoop fileSize newCount buf passes i w) := by
  induction passes generalizing i w with
  | zero => exact ends_ok _
  | succ passes ih =>
    rw [writeLoop_succ]
    split
    · exact ih _ _
    · refine (writePass_ends fileSize newCount buf i _ w).bind fun r _ => ?_
      obtain ⟨ok, w⟩ := r
      cases ok with
      | false => exact ends_ok _
      | true => exact ih _ _

theorem FatDisk.writeFile_ends (d : FatDisk) {steps : Nat} {e : DirEntry}
    (h : Ends (d.countClusters steps e)) (buf : Buffer) : Ends (d.writeFile steps e buf) := by
  rw [writeFile_def]
  split
  · exact ends_ok _
  split
  · exact ends_ok _
  have hsize : Ends (d.getFileSize steps e) := by
    rw [getFileSize]
    split
    · exact d.getFileAllocSize_ends h
    · exact ends_ok _
  refine hsize.bind fun fileSize _ => h.bind fun existingCount _ => ?_
  split
  · exact ends_ok _
  · refine (writeLoop_ends _ _ buf _ 0 _).bind fun r _ => ?_
    obtain ⟨ok, w⟩ := r
    cases ok with
    | false => exact ends_ok _
    | true => exact ends_ok _

/-! ## When the walks end in time -/

namespace FatDisk
variable (d : FatDisk)

/-- The walks along the chain of an entry take at most as many steps as the disk has clusters, and
one more. -/
structure WalksEnd (e : DirEntry) : Prop where
  count : Ends (d.countClusters (d.bpb.getClusterCount + 1) e)
  alloc : Ends (d.getFileAllocSize (d.bpb.getClusterCount + 1) e)
  read : Ends (d.readFile (d.bpb.getClusterCount + 1) e)
  write : ∀ buf, Ends (d.writeFile (d.bpb.getClusterCount + 1) e buf)

theorem mem_clusterNumbers {c : Nat} :
    c ∈ d.clusterNumbers ↔ 2 ≤ c ∧ c < d.bpb.getClusterCount + 2 := by
  simp [clusterNumbers, CLUSTER_FIRST]
  omega

/-- The chain from `c` does not pass through more numbers that no cluster of the disk has than there
are clusters left that it does not pass through, and one more. -/
def FewStrays (c : Nat) : Prop :=
  ∀ l, d.Chain c l → l.countP (· ∉ d.clusterNumbers) ≤ d.clusterNumbers.countP (· ∉ l) + 1

theorem countP_mem_comm {a b : List Nat} (ha : a.Nodup) (hb : b.Nodup) :
    a.countP (· ∈ b) = b.countP (· ∈ a) := by
  have hperm : (a.filter (· ∈ b)).Perm (b.filter (· ∈ a)) := by
    refine (List.perm_ext_iff_of_nodup (ha.filter _) (hb.filter _)).mpr fun x => ?_
    simp only [List.mem_filter, decide_eq_true_eq]
    exact and_comm
  rw [List.countP_eq_length_filter, List.countP_eq_length_filter, hperm.length_eq]

/-- Of the steps along a chain, those at numbers of the disk are its clusters but the ones left. -/
theorem chain_length_le_iff {c : Nat} {l : List Nat} (h : d.Chain c l) :
    l.length ≤ d.bpb.getClusterCount + 1 ↔
      l.countP (· ∉ d.clusterNumbers) ≤ d.clusterNumbers.countP (· ∉ l) + 1 := by
  have hnodup : d.clusterNumbers.Nodup := List.nodup_range'
  have hlen : d.clusterNumbers.length = d.bpb.getClusterCount := List.length_range'
  have hl := List.length_eq_countP_add_countP (· ∈ d.clusterNumbers) (l := l)
  have hc := List.length_eq_countP_add_countP (· ∈ l) (l := d.clusterNumbers)
  have hcomm := countP_mem_comm h.nodup hnodup
  simp only [decide_not, Bool.decide_eq_true] at *
  omega

/-- **The walks end in time** exactly if the chain of the entry does not come back to a cluster it
has passed through, nor through too many numbers that are no clusters of the disk. -/
theorem walks_end_iff (e : DirEntry) :
    d.WalksEnd e ↔ e.isRoot = true ∨ e.firstCluster = 0 ∨
      ¬ Returns d.getCluster d.Eoc e.firstCluster.toNat ∧ d.FewStrays e.firstCluster.toNat := by
  have hall : d.WalksEnd e ↔ Ends (d.countClusters (d.bpb.getClusterCount + 1) e) :=
    ⟨fun h => h.count, fun h => ⟨h, d.getFileAllocSize_ends h, d.readFile_ends h,
      fun buf => d.writeFile_ends h buf⟩⟩
  rw [hall, countClusters]
  by_cases hroot : e.isRoot = true
  · simp [hroot, ends_ok]
  by_cases hzero : e.firstCluster = 0
  · simp [hroot, hzero, ends_ok]
  rw [if_neg hroot, if_neg hzero, countLoop_ends_iff]
  rw [← exists_chain_iff (Finset.range 65536) fun x => Finset.mem_range.mpr (d.getCluster_lt x)]
  simp only [hroot, hzero, false_or, Bool.false_eq_true]
  constructor
  · rintro ⟨l, hl, hle⟩
    refine ⟨⟨l, hl⟩, fun l' hl' => ?_⟩
    rw [hl'.unique hl]
    exact (d.chain_length_le_iff hl).mp hle
  · rintro ⟨⟨l, hl⟩, hfew⟩
    exact ⟨l, hl, (d.chain_length_le_iff hl).mpr (hfew l hl)⟩

end FatDisk

/-- A volume of three clusters. -/
def tinyBpb : BiosParamBlock :=
  { initBiosParamBlock with
    sectorSize := 512
    sectorsPerCluster := 1
    reservedSectorCount := 1
    tableCount := 1
    rootDirCapacity := 16
    sectorCount := 6
    mediaType := 0xF0
    sectorsPerTable := 1 }

theorem tinyBpb_mountable : Mountable tinyBpb := by
  constructor <;> decide

/-- A FAT whose clusters 2 and 3 follow each other. -/
def loopedDisk : FatDisk where
  bpb := tinyBpb
  mountable := tinyBpb_mountable
  base := 0
  fat := fun i => [0xF0, 0xFF, 0xFF, 0x03, 0x20, 0x00].getD i 0
  file := fun _ => 0
  dirty := false

def loopedFile : DirEntry :=
  { DirEntry.zero with label := writeFatString [0x41] 11, firstCluster := 2, fileSize := 1 }

theorem looped_walk_never_ends : ¬ loopedDisk.WalksEnd loopedFile :=
  fun h => h.count (by rfl)

end Ohwes.Fatfs

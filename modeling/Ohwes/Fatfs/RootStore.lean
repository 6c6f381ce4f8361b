import Mathlib.Data.List.Find
import Ohwes.Library.SlotStore
import Ohwes.Fatfs.Attr
import Ohwes.Fatfs.AddCommit
import Ohwes.Fatfs.NameMatch

/-! # The root directory as a store of files

What `add` and `attr` are for: the root directory holds files under their labels, and a file takes
its slot and as many clusters as its size asks for. `RootStore.add` and `RootStore.attr` say what a
command does to such a store, and whether it succeeds; `Backs` is how a disk holds one. -/

namespace Ohwes.Fatfs
open Library ShortName
set_option autoImplicit false

/-! ## The store -/

structure StoredFile where
  attributes : Byte
  data : List Byte
  deriving DecidableEq

abbrev RootStore := SlotStore (Vector Byte 11) StoredFile

namespace RootStore
variable (b : BiosParamBlock) (s : RootStore)

/-- The clusters that a file takes. -/
def cost (f : StoredFile) : Nat := ceilDiv f.data.length b.getClusterSize

def usedClusters : Nat := SlotStore.used b.getRootCapacity s (cost b)

/-- `add`: a file of the label is replaced if that is forced, and keeps its attributes. The clusters
that it has are not counted as free. -/
def add (label : Vector Byte 11) (force : Bool) (data : List Byte) : Bool × RootStore :=
  match SlotStore.place b.getRootCapacity s label with
  | none => (false, s)
  | some i =>
    let f : StoredFile := ⟨(s i).elim 0 fun x => x.2.attributes, data⟩
    if (s i).isSome && !force then (false, s)
    else if b.getClusterCount < s.usedClusters b + cost b f then (false, s)
    else (true, SlotStore.put s i label f)

/-- `attr`: the file of the label gets other attributes. -/
def attr (label : Vector Byte 11) (change : Byte → Byte) : Bool × RootStore :=
  match SlotStore.find b.getRootCapacity s label with
  | none => (false, s)
  | some i => (true, SlotStore.put s i label
      ⟨(s i).elim 0 fun x => change x.2.attributes, (s i).elim [] fun x => x.2.data⟩)

end RootStore

/-! ## A disk that holds it -/

/-- The attributes of a file: it is no directory, no device and no label. -/
def Plain (attributes : Byte) : Prop :=
  attributes &&& (ATTR_LABEL ||| ATTR_DIRECTORY ||| ATTR_DEVICE) = 0

instance : DecidablePred Plain := fun _ => inferInstanceAs (Decidable (_ = _))

/-- The entry of a file. -/
structure EntryOf (e : DirEntry) (label : Vector Byte 11) (f : StoredFile) : Prop where
  label_eq : e.label = label
  attributes : e.attributes = f.attributes
  live : e.isFree = false
  plain : Plain f.attributes
  size : e.fileSize.toNat = f.data.length
  size_pos : 0 < f.data.length

section Entry
variable {e : DirEntry} {label : Vector Byte 11} {f : StoredFile}

theorem EntryOf.lacks (h : EntryOf e label f) {attr : Byte}
    (hattr : attr &&& (ATTR_LABEL ||| ATTR_DIRECTORY ||| ATTR_DEVICE) ≠ 0) :
    e.hasAttribute attr = false := by
  rw [DirEntry.hasAttribute, beq_eq_false_iff_ne, h.attributes]
  intro heq
  have hplain : f.attributes &&& (ATTR_LABEL ||| ATTR_DIRECTORY ||| ATTR_DEVICE) = 0 := h.plain
  refine hattr ?_
  rw [← heq, BitVec.and_assoc, BitVec.and_comm attr, ← BitVec.and_assoc, hplain]
  exact BitVec.zero_and

theorem EntryOf.regular (h : EntryOf e label f) : e.Regular where
  valid := by
    rw [DirEntry.isValidFile, h.live, DirEntry.isLongFileName, DirEntry.isDeviceFile, DirEntry.isLabel,
      h.lacks (by decide : ATTR_LFN &&& _ ≠ 0), h.lacks (by decide : ATTR_DEVICE &&& _ ≠ 0),
      h.lacks (by decide : ATTR_LABEL &&& _ ≠ 0)]
    rfl
  not_directory := h.lacks (by decide)

end Entry

namespace FatDisk

/-- The entry is that of the file, and the data is in the clusters `l`. -/
structure StoresFile (d : FatDisk) (e : DirEntry) (label : Vector Byte 11) (f : StoredFile)
    (l : List Nat) : Prop extends EntryOf e label f where
  chain : d.GoodChain e.firstCluster.toNat l
  count : l.length = RootStore.cost d.bpb f
  data : ((l.map d.content).flatten).take f.data.length = f.data

/-- The disk holds the store, the file in slot `i` in the clusters `own i`. No other cluster is in
use. -/
structure Backs (d : FatDisk) (s : RootStore) (own : Nat → List Nat) : Prop where
  sound : d.Sound
  mark : d.EndMark d.getClusterNumberEOC
  free : ∀ i < d.rootCapacity, s i = none → (d.rootEntry i).isFree = true ∧ own i = []
  file : ∀ i < d.rootCapacity, ∀ label f, s i = some (label, f) →
    d.StoresFile (d.rootEntry i) label f (own i)
  apart : ∀ i < d.rootCapacity, ∀ j < d.rootCapacity, i ≠ j → (own i).Disjoint (own j)
  full : ∀ x ∈ d.clusterNumbers, d.getCluster x ≠ CLUSTER_FREE → ∃ i < d.rootCapacity, x ∈ own i
  distinct : SlotStore.Distinct d.rootCapacity s
  named : ∀ i < d.rootCapacity, ∀ label f, s i = some (label, f) → ∃ name, Canonical name label

section Reading
variable {d : FatDisk} {s : RootStore} {own : Nat → List Nat} (h : d.Backs s own) {i : Nat}
include h

/-- A slot is in use exactly if the store has a file there. -/
theorem Backs.isFree_eq (hi : i < d.rootCapacity) : (d.rootEntry i).isFree = (s i).isNone := by
  cases hs : s i with
  | none => exact (h.free i hi hs).1
  | some x => exact (h.file i hi x.1 x.2 hs).live

theorem Backs.own_length (hi : i < d.rootCapacity) :
    (own i).length = (s i).elim 0 fun x => RootStore.cost d.bpb x.2 := by
  cases hs : s i with
  | none => rw [(h.free i hi hs).2, List.length_nil, Option.elim_none]
  | some x => exact (h.file i hi x.1 x.2 hs).count

theorem Backs.own_nodup (hi : i < d.rootCapacity) : (own i).Nodup := by
  cases hs : s i with
  | none =>
    rw [(h.free i hi hs).2]
    exact List.nodup_nil
  | some x => exact (h.file i hi x.1 x.2 hs).chain.nodup

theorem Backs.own_used (hi : i < d.rootCapacity) {x : Nat} (hx : x ∈ own i) :
    x ∈ d.clusterNumbers ∧ x ∉ d.freeClusters := by
  cases hs : s i with
  | none =>
    rw [(h.free i hi hs).2] at hx
    exact nomatch hx
  | some y =>
    have hchain := (h.file i hi y.1 y.2 hs).chain
    refine ⟨hchain.2 x hx, fun hmem => ?_⟩
    have hnot := hchain.not_free hx
    rw [isClusterFree, beq_eq_false_iff_ne] at hnot
    exact hnot (mem_freeClusters.mp hmem).2

/-- **No cluster is lost**: what is not free is in the files. -/
theorem Backs.countFree : d.countFreeClusters + s.usedClusters d.bpb = d.bpb.getClusterCount := by
  have hcard : ((Finset.range d.rootCapacity).biUnion fun i => (own i).toFinset).card =
      s.usedClusters d.bpb := by
    rw [Finset.card_biUnion fun i hi j hj hij => ?_]
    · refine Finset.sum_congr rfl fun i hi => ?_
      have hi := Finset.mem_range.mp hi
      rw [List.toFinset_card_of_nodup (h.own_nodup hi), h.own_length hi]
    · refine List.disjoint_toFinset_iff_disjoint.mpr ?_
      exact h.apart i (Finset.mem_range.mp (Finset.mem_coe.mp hi)) j
        (Finset.mem_range.mp (Finset.mem_coe.mp hj)) hij
  have hunion : d.freeClusters ∪ ((Finset.range d.rootCapacity).biUnion fun i => (own i).toFinset) =
      d.clusterNumbers.toFinset := by
    ext x
    simp only [Finset.mem_union, Finset.mem_biUnion, Finset.mem_range, List.mem_toFinset]
    constructor
    · rintro (hx | ⟨i, hi, hx⟩)
      · exact (mem_freeClusters.mp hx).1
      · exact (h.own_used hi hx).1
    · intro hx
      by_cases hfree : d.getCluster x = CLUSTER_FREE
      · exact Or.inl (mem_freeClusters.mpr ⟨hx, hfree⟩)
      · exact Or.inr (h.full x hx hfree)
  have hdisj : Disjoint d.freeClusters
      ((Finset.range d.rootCapacity).biUnion fun i => (own i).toFinset) := by
    rw [Finset.disjoint_left]
    intro x hfree hx
    simp only [Finset.mem_biUnion, Finset.mem_range, List.mem_toFinset] at hx
    obtain ⟨i, hi, hx⟩ := hx
    exact (h.own_used hi hx).2 hfree
  rw [← card_freeClusters, ← hcard, ← Finset.card_union_of_disjoint hdisj, hunion,
    clusterNumbers,
    List.toFinset_card_of_nodup List.nodup_range', List.length_range']

/-- What `ReadFile` reads of a file begins with its data. -/
theorem Backs.readFile_eq (hi : i < d.rootCapacity) {label : Vector Byte 11} {f : StoredFile}
    (hs : s i = some (label, f)) {steps : Nat} (hsteps : d.bpb.getClusterCount ≤ steps) :
    ∃ data, d.readFile steps (d.rootEntry i) = .ok (some data) ∧ data.take f.data.length = f.data := by
  have hfile := h.file i hi label f hs
  refine ⟨_, readFile_chain h.sound hfile.regular.not_root
    (hfile.regular.not_refused (first_ne_zero hfile.chain.head_range)) hfile.chain hsteps, hfile.data⟩

end Reading

/-! ## Looking up a name -/

/-- Without long names, the look-up finds the first entry in use that the name matches. -/
theorem findLoop_matches (host : Host) {table : Buffer} {count : Nat}
    (hshort : ∀ i < count, (entryAt table i).isFree = false → (entryAt table i).isLongFileName = false)
    (name : CString) {passes i : Nat} (hpasses : count ≤ i + passes) :
    findLoop host table count name passes i = .ok ((List.range' i (count - i)).find? fun k =>
      !(entryAt table k).isFree && matchesName name (entryAt table k)) := by
  induction passes generalizing i with
  | zero =>
    have hnone : count - i = 0 := by omega
    rw [findLoop, hnone]
    rfl
  | succ passes ih =>
    rw [findLoop]
    by_cases hi : i ≥ count
    · have hnone : count - i = 0 := by omega
      rw [if_pos hi, hnone]
      rfl
    · have hsplit : count - i = count - (i + 1) + 1 := by omega
      rw [if_neg hi, hsplit, List.range'_succ, List.find?_cons]
      cases hfree : (entryAt table i).isFree with
      | true =>
        rw [if_pos rfl, Bool.not_true, Bool.false_and]
        exact ih (by omega)
      | false =>
        have hlong := hshort i (by omega) hfree
        rw [if_neg Bool.false_ne_true, tryEntry, hlong, if_neg Bool.false_ne_true, Bool.not_false,
          Bool.true_and, matchesName]
        simp only [ok_bind, pure, Except.pure, bne_self_eq_false, Bool.false_and, Bool.or_false]
        cases strncasecmp (entryAt table i).getShortName name MAX_SHORTNAME == 0 with
        | true => rfl
        | false => exact ih (by omega)

section Lookup
variable {d : FatDisk} {s : RootStore} {own : Nat → List Nat} (h : d.Backs s own)
  {name : CString} {label : Vector Byte 11} (hname : Canonical name label) (host : Host)
include h

theorem Backs.flatRoot : d.FlatRoot where
  sound := h.sound
  short i hi hfree := by
    rw [h.isFree_eq hi, Option.isNone_eq_false_iff, Option.isSome_iff_exists] at hfree
    obtain ⟨x, hx⟩ := hfree
    rw [DirEntry.isLongFileName, (h.file i hi x.1 x.2 hx).lacks (by decide), Bool.false_and]
  flat i hi hfree := by
    rw [h.isFree_eq hi, Option.isNone_eq_false_iff, Option.isSome_iff_exists] at hfree
    obtain ⟨x, hx⟩ := hfree
    exact (h.file i hi x.1 x.2 hx).lacks (by decide)

include hname

theorem Backs.findFileInDir_eq :
    findFileInDir host (d.rootTable host.junk) (d.rootCapacity * DIR_ENTRY_SIZE) name =
      .ok (SlotStore.find d.rootCapacity s label) := by
  have hcount : d.rootCapacity * DIR_ENTRY_SIZE / DIR_ENTRY_SIZE = d.rootCapacity :=
    Nat.mul_div_cancel _ (by decide)
  have hshort : ∀ i < d.rootCapacity, (entryAt (d.rootTable host.junk) i).isFree = false →
      (entryAt (d.rootTable host.junk) i).isLongFileName = false := by
    intro i hi
    rw [entryAt_rootTable host.junk hi]
    exact h.flatRoot.short i hi
  rw [findFileInDir, hcount, findLoop_matches host hshort name (by omega), Nat.sub_zero,
    ← List.range_eq_range', SlotStore.find]
  refine congrArg Except.ok (List.find?_congr fun i hi => ?_)
  have hi := List.mem_range.mp hi
  rw [entryAt_rootTable host.junk hi, h.isFree_eq hi, SlotStore.holds]
  cases hs : s i with
  | none => rfl
  | some x =>
    obtain ⟨name', hname'⟩ := h.named i hi x.1 x.2 hs
    have hiff := hname.matches_iff hname' (h.file i hi x.1 x.2 hs).label_eq
    rw [Option.isNone_some, Bool.not_false, Bool.true_and, Option.any_some, Bool.eq_iff_iff, hiff,
      decide_eq_true_iff]

/-- A path of one name leads to the file that the store has under its label. -/
theorem Backs.findFile_eq {path : CString} (hlen : path.length < MAX_PATH)
    (hpath : pathTokens path = [name]) :
    d.findFile host path =
      .ok ((SlotStore.find d.rootCapacity s label).map d.rootEntry, some rootDirEntry) := by
  have hdir : rootDirEntry.isDirectory = true := by decide
  rw [findFile, if_neg (Nat.not_le.mpr hlen), hpath, walkPath, hdir, Bool.not_true,
    if_neg Bool.false_ne_true, getFileAllocSize_root _ rootDirEntry_isRoot, ok_bind,
    readFile_root _ rootDirEntry_isRoot, h.sound.readRoot_eq]
  simp only [ok_bind]
  rw [← rootTable, h.findFileInDir_eq hname host, ok_bind]
  cases hfind : SlotStore.find d.rootCapacity s label with
  | none => rfl
  | some k =>
    dsimp only
    rw [entryAt_rootTable host.junk (SlotStore.find_some hfind).1, walkPath]
    rfl

end Lookup

end FatDisk

end Ohwes.Fatfs

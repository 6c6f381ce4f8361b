import Ohwes.Fatfs.RootDir

/-! # A root directory without directories in it

`add` makes files only, so what a formatted volume ever holds besides its label are files of the root
directory. There a path leads to the root or nowhere, and the entry that `add` is about to write is
one that it found in its slot, or a new one. -/

namespace Ohwes.Fatfs
open Library
set_option autoImplicit false

/-! ## The first character of a stored name -/

theorem toupper_ne_zero {c : Byte} (h : c ≠ 0) : toupper c ≠ 0 := by
  rw [toupper, islower]
  split
  · rename_i hlow
    simp only [Bool.and_eq_true, decide_eq_true_eq] at hlow
    bv_omega
  · exact h

theorem shortNameChar_ne_zero {dotSeen : Bool} {index : Nat} {c : Byte}
    (h : shortNameChar dotSeen index c = true) : c ≠ 0 := by
  rintro rfl
  cases dotSeen <;> simp [shortNameChar, isalnum, isalpha, isupper, islower, isdigit,
    shortNameSymbols, text] at h

theorem splitShortName_ne_zero {name ext src name' ext' : CString} {dotSeen : Bool} {index : Nat}
    (h : splitShortName name ext dotSeen index src = some (name', ext')) :
    ∀ c ∈ name', c ∈ name ∨ c ≠ 0 := by
  induction src generalizing name ext dotSeen index with
  | nil =>
    obtain ⟨rfl, -⟩ := Prod.mk.inj (Option.some.inj h)
    exact fun c hc => Or.inl hc
  | cons c src ih =>
    rw [splitShortName] at h
    by_cases hc : shortNameChar dotSeen index c = true
    · rw [hc, Bool.not_true, if_neg Bool.false_ne_true] at h
      split at h
      · exact ih h
      · split at h
        · exact ih h
        · intro x hx
          rcases ih h x hx with hmem | hne
          · rcases List.mem_append.mp hmem with hmem | hmem
            · exact Or.inl hmem
            · rw [List.mem_singleton.mp hmem]
              exact Or.inr (toupper_ne_zero (shortNameChar_ne_zero hc))
          · exact Or.inr hne
    · rw [Bool.not_eq_true] at hc
      rw [hc, Bool.not_false, if_pos rfl] at h
      exact nomatch h

theorem writeFatString_head {c : Byte} (h : c ≠ 0) (str : CString) {n : Nat} (hn : 0 < n) :
    (writeFatString (c :: str) n)[0] = c := by
  obtain ⟨n, rfl⟩ : ∃ m, n = m + 1 := ⟨n - 1, by omega⟩
  have hlen : 0 < strnlen (c :: str) (n + 1) := by
    rw [strnlen, if_neg h]
    omega
  simp only [writeFatString, Vector.getElem_ofFn, hlen, if_true]
  rfl

theorem guardLead_head {name : CString} (hpos : 0 < name.length) (h : ∀ c ∈ name, c ≠ 0) :
    ∃ c str, guardLead name = c :: str ∧ c ≠ 0x00 ∧ c ≠ 0xE5 := by
  obtain ⟨c, str, rfl⟩ := List.exists_cons_of_length_pos hpos
  rw [guardLead, List.head?_cons]
  by_cases hc : c = 0xE5
  · rw [if_pos (congrArg some hc)]
    exact ⟨0x05, str, rfl, by decide, by decide⟩
  · rw [if_neg fun he => hc (Option.some.inj he)]
    exact ⟨c, str, rfl, h c List.mem_cons_self, hc⟩

/-- An entry with a name is neither free nor deleted. -/
theorem shortLabel_head {src : CString} {label : Vector Byte 11} (h : shortLabel src = some label) :
    getElem label 0 DirEntry.label_pos ≠ 0x00 ∧ getElem label 0 DirEntry.label_pos ≠ 0xE5 := by
  rw [shortLabel] at h
  split at h
  · exact nomatch h
  · split at h
    · exact nomatch h
    · rename_i name ext hsplit
      split at h
      · exact nomatch h
      · rename_i hlen
        have hchars : ∀ c ∈ name, c ≠ 0 := fun c hc =>
          (splitShortName_ne_zero hsplit c hc).resolve_left List.not_mem_nil
        obtain ⟨c, str, hname, hzero, hmark⟩ := guardLead_head (by omega) hchars
        have hhead : label[0] = c := by
          rw [← Option.some.inj h, hname]
          exact (Vector.getElem_append_left (by decide)).trans
            (writeFatString_head hzero str (by decide))
        rw [hhead]
        exact ⟨hzero, hmark⟩

theorem describe_eq {a : AddArgs} {e e' : DirEntry} (h : FatDisk.describe a e = some e') :
    e'.isFree = false ∧ e'.attributes = e.attributes ∧ e'.firstCluster = e.firstCluster ∧
      e'.fileSize = BitVec.ofNat 32 a.data.length := by
  rw [FatDisk.describe, DirEntry.setShortName, Option.map_map] at h
  obtain ⟨label, hlabel, rfl⟩ := Option.map_eq_some_iff.mp h
  obtain ⟨hzero, hmark⟩ := shortLabel_head hlabel
  refine ⟨?_, rfl, rfl, rfl⟩
  rw [DirEntry.isFree, DirEntry.isDeleted, Bool.or_eq_false_iff]
  exact ⟨beq_eq_false_iff_ne.mpr hmark, beq_eq_false_iff_ne.mpr hzero⟩

/-! ## Looking up a name -/

section Lookup
variable (host : Host) {table : Buffer} {count : Nat}
  (hshort : ∀ i < count, (entryAt table i).isFree = false → (entryAt table i).isLongFileName = false)
include hshort

/-- Without long names, a look-up comes back with an entry that is in use, if with any. -/
theorem findLoop_short (name : CString) (passes i : Nat) :
    ∃ r, findLoop host table count name passes i = .ok r ∧
      ∀ k, r = some k → k < count ∧ (entryAt table k).isFree = false := by
  induction passes generalizing i with
  | zero => exact ⟨none, rfl, fun k hk => nomatch hk⟩
  | succ passes ih =>
    rw [findLoop]
    by_cases hi : i ≥ count
    · rw [if_pos hi]
      exact ⟨none, rfl, fun k hk => nomatch hk⟩
    · rw [if_neg hi]
      cases hfree : (entryAt table i).isFree with
      | true =>
        rw [if_pos rfl]
        exact ih (i + 1)
      | false =>
        have hlong := hshort i (by omega) hfree
        rw [if_neg Bool.false_ne_true, tryEntry, hlong, if_neg Bool.false_ne_true]
        simp only [ok_bind, pure, Except.pure]
        split
        · exact ⟨some i, rfl, fun k hk => Option.some.inj hk ▸ ⟨by omega, hfree⟩⟩
        · exact ih (i + 1)

end Lookup

theorem findLoop_free (host : Host) {table : Buffer} {count : Nat}
    (hfree : ∀ i < count, (entryAt table i).isFree = true) (name : CString) (passes i : Nat) :
    findLoop host table count name passes i = .ok none := by
  induction passes generalizing i with
  | zero => rfl
  | succ passes ih =>
    rw [findLoop]
    by_cases hi : i ≥ count
    · rw [if_pos hi]
    · rw [if_neg hi, hfree i (by omega), if_pos rfl]
      exact ih (i + 1)

namespace FatDisk
variable {d : FatDisk}

/-- What is in use in the root directory has no long name and is no directory. -/
structure FlatRoot (d : FatDisk) : Prop where
  sound : d.Sound
  short : ∀ i < d.rootCapacity, (d.rootEntry i).isFree = false →
    (d.rootEntry i).isLongFileName = false
  flat : ∀ i < d.rootCapacity, (d.rootEntry i).isFree = false →
    (d.rootEntry i).isDirectory = false

/-- The table that is read from the root directory. -/
def rootTable (d : FatDisk) (junk : Buffer) : Buffer :=
  filled junk (slice d.file d.rootStart d.rootBytes)

theorem entryAt_rootTable (junk : Buffer) {i : Nat} (hi : i < d.rootCapacity) :
    entryAt (d.rootTable junk) i = d.rootEntry i := Sound.entryAt_root junk hi

theorem FlatRoot.findFileInDir_eq (h : d.FlatRoot) (host : Host) (name : CString) :
    ∃ r, findFileInDir host (d.rootTable host.junk) (d.rootCapacity * DIR_ENTRY_SIZE) name = .ok r ∧
      ∀ k, r = some k → k < d.rootCapacity ∧ (d.rootEntry k).isFree = false := by
  have hcount : d.rootCapacity * DIR_ENTRY_SIZE / DIR_ENTRY_SIZE = d.rootCapacity :=
    Nat.mul_div_cancel _ (by decide)
  have hshort : ∀ i < d.rootCapacity, (entryAt (d.rootTable host.junk) i).isFree = false →
      (entryAt (d.rootTable host.junk) i).isLongFileName = false := by
    intro i hi
    rw [entryAt_rootTable host.junk hi]
    exact h.short i hi
  obtain ⟨r, hr, hk⟩ := findLoop_short host hshort name d.rootCapacity 0
  refine ⟨r, ?_, fun k hrk => ?_⟩
  · rw [findFileInDir, hcount]
    exact hr
  · obtain ⟨hlt, hfree⟩ := hk k hrk
    rw [entryAt_rootTable host.junk hlt] at hfree
    exact ⟨hlt, hfree⟩

/-- A path leads to the root itself, to one of its entries, or to nothing in it. -/
theorem FlatRoot.findFile_cases (h : d.FlatRoot) (host : Host) {path : CString}
    {found parent : Option DirEntry} (hf : d.findFile host path = .ok (found, parent)) :
    parent = none ∧ found = some rootDirEntry ∨
      parent = some rootDirEntry ∧ ∀ f, found = some f →
        ∃ k < d.rootCapacity, f = d.rootEntry k ∧ f.isFree = false := by
  rw [findFile] at hf
  split at hf
  · exact nomatch hf
  · cases hpath : pathTokens path with
    | nil =>
      rw [hpath, walkPath] at hf
      obtain ⟨rfl, rfl⟩ := Prod.mk.inj (Except.ok.inj hf)
      exact Or.inl ⟨rfl, rfl⟩
    | cons name rest =>
      obtain ⟨r, hr, hk⟩ := h.findFileInDir_eq host name
      have hdir : rootDirEntry.isDirectory = true := by decide
      rw [hpath, walkPath, hdir, Bool.not_true, if_neg Bool.false_ne_true,
        getFileAllocSize_root _ rootDirEntry_isRoot, ok_bind, readFile_root _ rootDirEntry_isRoot,
        h.sound.readRoot_eq] at hf
      simp only [ok_bind] at hf
      rw [← rootTable, hr] at hf
      simp only [ok_bind] at hf
      cases r with
      | none =>
        obtain ⟨rfl, rfl⟩ := Prod.mk.inj (Except.ok.inj hf)
        exact Or.inr ⟨rfl, fun f hf => nomatch hf⟩
      | some k =>
        obtain ⟨hlt, hfree⟩ := hk k rfl
        simp only [entryAt_rootTable host.junk hlt] at hf
        cases rest with
        | nil =>
          obtain ⟨rfl, rfl⟩ := Prod.mk.inj (Except.ok.inj hf)
          exact Or.inr ⟨rfl, fun f hf => ⟨k, hlt, (Option.some.inj hf).symm, Option.some.inj hf ▸ hfree⟩⟩
        | cons name' rest =>
          -- a file on the way is no directory, and the parent stays the root
          rw [walkPath, h.flat k hlt hfree, Bool.not_false, if_pos rfl] at hf
          obtain ⟨rfl, rfl⟩ := Prod.mk.inj (Except.ok.inj hf)
          exact Or.inr ⟨rfl, fun f hf => nomatch hf⟩

/-! ## Preparing the entry -/

/-- The slot `k` of the root directory is where the entry `e` of the file goes: it is there, or the
slot is free and the entry new. -/
def Chosen (d : FatDisk) (now : Tm) (k : Nat) (e : DirEntry) : Prop :=
  k < d.rootCapacity ∧
    ((d.rootEntry k).isFree = false ∧ e = d.rootEntry k ∨
      (d.rootEntry k).isFree = true ∧ e = { DirEntry.init now with
        firstCluster := BitVec.ofNat 16 d.findNextFreeCluster })

theorem FlatRoot.chooseSlot_cases (h : d.FlatRoot) (a : AddArgs) {found : Option DirEntry} {k : Nat}
    {e : DirEntry}
    (hc : d.chooseSlot a found (d.rootTable a.host.junk) (d.rootCapacity * DIR_ENTRY_SIZE) =
      .ok (some (k, e))) : d.Chosen a.host.now k e := by
  have hcount : d.rootCapacity * DIR_ENTRY_SIZE / DIR_ENTRY_SIZE = d.rootCapacity :=
    Nat.mul_div_cancel _ (by decide)
  cases found with
  | some f =>
    obtain ⟨r, hr, hk⟩ := h.findFileInDir_eq a.host (getFileName a.dst)
    rw [chooseSlot, hr] at hc
    cases r with
    | none => exact nomatch hc
    | some j =>
      obtain ⟨hlt, hfree⟩ := hk j rfl
      simp only [ok_bind, assert_bind_ok] at hc
      obtain ⟨hsame, hret⟩ := hc
      obtain ⟨rfl, rfl⟩ := Prod.mk.inj (Option.some.inj (Except.ok.inj hret))
      rw [entryAt_rootTable a.host.junk hlt, beq_iff_eq] at hsame
      exact ⟨hlt, Or.inl ⟨hfree, hsame.symm⟩⟩
  | none =>
    rw [chooseSlot, hcount, firstFree, if_neg (by have := d.rootCapacity_pos; omega)] at hc
    simp only [ok_bind] at hc
    cases hfind : (List.range d.rootCapacity).find?
        (fun i => (entryAt (d.rootTable a.host.junk) i).isFree) with
    | none =>
      rw [hfind] at hc
      exact nomatch hc
    | some j =>
      have hlt := List.mem_range.mp (List.mem_of_find?_eq_some hfind)
      have hfree := List.find?_some hfind
      rw [entryAt_rootTable a.host.junk hlt] at hfree
      rw [hfind] at hc
      obtain ⟨rfl, rfl⟩ := Prod.mk.inj (Option.some.inj (Except.ok.inj hc))
      exact ⟨hlt, Or.inr ⟨hfree, rfl⟩⟩

/-- What `add` is about to write: an entry for its slot of the root directory, with a name and the
size of the file. -/
structure WillWrite (d : FatDisk) (a : AddArgs) (p : Prepared) : Prop where
  size : a.data.length < 4294967296
  parent : p.parent = rootDirEntry
  table : p.table = d.rootTable a.host.junk
  entry : ∃ e, d.Chosen a.host.now p.slot e ∧ describe a e = some p.entry

theorem FlatRoot.prepareAdd_cases (h : d.FlatRoot) {a : AddArgs} {p : Prepared}
    (hp : d.prepareAdd a = .ok (some p)) : d.WillWrite a p := by
  rw [prepareAdd] at hp
  split at hp
  · exact nomatch hp
  · rename_i hsize
    obtain ⟨⟨found, parent⟩, hf, hp⟩ := bind_ok.mp hp
    dsimp only at hp
    split at hp
    · exact nomatch hp
    · rcases h.findFile_cases a.host hf with ⟨rfl, -⟩ | ⟨rfl, -⟩
      · exact nomatch hp
      · simp only [prepareIn, getFileAllocSize_root _ rootDirEntry_isRoot,
          readFile_root _ rootDirEntry_isRoot, h.sound.readRoot_eq, ok_bind] at hp
        rw [← rootTable] at hp
        obtain ⟨r, hc, hp⟩ := bind_ok.mp hp
        cases r with
        | none => exact nomatch hp
        | some s =>
          obtain ⟨slot, e⟩ := s
          obtain ⟨e', he', rfl⟩ := Option.map_eq_some_iff.mp (Except.ok.inj hp)
          refine ⟨?_, rfl, rfl, e, h.chooseSlot_cases a hc, he'⟩
          rw [UINT32_MAX] at hsize
          omega

/-- In an empty root directory a name is not found, and the first slot is taken. -/
theorem Sound.prepareAdd_empty (hd : d.Sound)
    (hempty : ∀ i < d.rootCapacity, (d.rootEntry i).isFree = true) {a : AddArgs} {name : CString}
    (hsize : a.data.length ≤ UINT32_MAX) (hlen : a.dst.length < MAX_PATH)
    (hpath : pathTokens a.dst = [name]) {e : DirEntry}
    (he : describe a { DirEntry.init a.host.now with
      firstCluster := BitVec.ofNat 16 d.findNextFreeCluster } = some e) :
    d.prepareAdd a = .ok (some ⟨rootDirEntry, d.rootTable a.host.junk, 0, e⟩) := by
  have hcount : d.rootCapacity * DIR_ENTRY_SIZE / DIR_ENTRY_SIZE = d.rootCapacity :=
    Nat.mul_div_cancel _ (by decide)
  have hpos := d.rootCapacity_pos
  have htable : ∀ i < d.rootCapacity, (entryAt (d.rootTable a.host.junk) i).isFree = true := by
    intro i hi
    rw [entryAt_rootTable _ hi]
    exact hempty i hi
  have hfind : d.findFile a.host a.dst = .ok (none, some rootDirEntry) := by
    have hdir : rootDirEntry.isDirectory = true := by decide
    have hloop := findLoop_free a.host htable name d.rootCapacity 0
    rw [findFile, if_neg (Nat.not_le.mpr hlen), hpath, walkPath, hdir, Bool.not_true,
      if_neg Bool.false_ne_true, getFileAllocSize_root _ rootDirEntry_isRoot, ok_bind,
      readFile_root _ rootDirEntry_isRoot, hd.readRoot_eq]
    simp only [ok_bind]
    rw [← rootTable, findFileInDir, hcount, hloop]
    rfl
  have hfirst : (List.range d.rootCapacity).find?
      (fun i => (entryAt (d.rootTable a.host.junk) i).isFree) = some 0 := by
    obtain ⟨n, hn⟩ : ∃ n, d.rootCapacity = n + 1 := ⟨d.rootCapacity - 1, by omega⟩
    rw [hn, List.range_succ_eq_map]
    exact List.find?_cons_of_pos (htable 0 hpos)
  rw [prepareAdd, if_neg (Nat.not_lt.mpr hsize), hfind, ok_bind]
  simp only [Option.isSome_none, Bool.false_and, Bool.false_eq_true, if_false]
  rw [prepareIn, getFileAllocSize_root _ rootDirEntry_isRoot, ok_bind,
    readFile_root _ rootDirEntry_isRoot, hd.readRoot_eq]
  simp only [ok_bind]
  rw [← rootTable, chooseSlot, hcount, firstFree, if_neg (by omega), hfirst]
  simp only [ok_bind, pure, Except.pure, he, Option.map_some]

end FatDisk

end Ohwes.Fatfs

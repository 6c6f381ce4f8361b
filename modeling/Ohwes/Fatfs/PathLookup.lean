import Ohwes.Fatfs.FindFile
import Ohwes.Fatfs.ShortName

/-! # Where a path leads

A path names a file by the directories on the way to it. `WalkPath` says no more of a path than that
nothing was found, and the directory it was looking into then; the names that it had not come to yet
tell whether that is the directory the path names. -/

namespace Ohwes.Fatfs
open Library
set_option autoImplicit false

namespace FatDisk
variable (d : FatDisk) (host : Host)

/-- A directory that can be read, with what a look-up in it is given. -/
structure HasTable (dir : DirEntry) (size : Nat) (table : Buffer) : Prop where
  directory : dir.isDirectory = true
  alloc : d.getFileAllocSize WALK_LIMIT dir = .ok size
  read : ∃ bs, d.readFile WALK_LIMIT dir = .ok (some bs) ∧ table = filled host.junk bs

/-- A directory that cannot be read. -/
structure Unreadable (dir : DirEntry) : Prop where
  directory : dir.isDirectory = true
  alloc : ∃ size, d.getFileAllocSize WALK_LIMIT dir = .ok size
  read : d.readFile WALK_LIMIT dir = .ok none

/-- `e` is the entry of the name in the directory. -/
def Finds (dir : DirEntry) (name : CString) (e : DirEntry) : Prop :=
  ∃ size table k, d.HasTable host dir size table ∧
    findFileInDir host table size name = .ok (some k) ∧ e = entryAt table k

/-- No entry of the name is found in the directory. -/
def Lacks (dir : DirEntry) (name : CString) : Prop :=
  d.Unreadable dir ∨ ∃ size table, d.HasTable host dir size table ∧
    findFileInDir host table size name = .ok none

/-- From the first directory on, each name is that of an entry in the directory before. -/
inductive Descends : DirEntry → List CString → DirEntry → Prop
  | here (dir : DirEntry) : Descends dir [] dir
  | down {dir e e' : DirEntry} {name : CString} {names : List CString} :
      d.Finds host dir name e → Descends e names e' → Descends dir (name :: names) e'

/-- From `base` on, the names lead to the directory `dir` and no further: the next name is not in it,
or that of a file. Left are the names behind that one; if there are any, it is an intermediate one. -/
inductive Stops : DirEntry → List CString → DirEntry → List CString → Prop
  | missing {base : DirEntry} {name : CString} {left : List CString} :
      d.Lacks host base name → Stops base (name :: left) base left
  | file {base e : DirEntry} {name : CString} {left : List CString} :
      d.Finds host base name e → e.isDirectory = false → left ≠ [] → Stops base (name :: left) base left
  | down {base e dir : DirEntry} {name : CString} {names left : List CString} :
      d.Finds host base name e → Stops e names dir left → Stops base (name :: names) dir left

variable {d host} {base dir e : DirEntry} {name : CString} {names left : List CString}

theorem Finds.directory (h : d.Finds host dir name e) : dir.isDirectory = true := by
  obtain ⟨size, table, k, htable, -, -⟩ := h
  exact htable.directory

theorem Lacks.directory (h : d.Lacks host dir name) : dir.isDirectory = true := by
  rcases h with h | ⟨size, table, htable, -⟩
  · exact h.directory
  · exact htable.directory

/-- A directory that a name was looked up in can be read, or cannot. -/
def Probed (d : FatDisk) (host : Host) (dir : DirEntry) : Prop :=
  d.Unreadable dir ∨ ∃ size table, d.HasTable host dir size table

theorem Probed.directory (h : d.Probed host dir) : dir.isDirectory = true := by
  rcases h with h | ⟨size, table, htable⟩
  · exact h.directory
  · exact htable.directory

theorem Finds.probed (h : d.Finds host dir name e) : d.Probed host dir := by
  obtain ⟨size, table, k, htable, -, -⟩ := h
  exact .inr ⟨size, table, htable⟩

theorem Lacks.probed (h : d.Lacks host dir name) : d.Probed host dir :=
  h.imp_right fun ⟨size, table, htable, _⟩ => ⟨size, table, htable⟩

/-! ## The walk -/

/-- A step of `WalkPath` from a directory. -/
theorem walkPath_cons (hdir : base.isDirectory = true) {parent : Option DirEntry}
    {r : Option DirEntry × Option DirEntry} :
    d.walkPath host (name :: names) parent base = .ok r ↔
      d.Lacks host base name ∧ r = (none, some base) ∨
      ∃ e, d.Finds host base name e ∧ d.walkPath host names (some base) e = .ok r := by
  rw [walkPath, hdir, Bool.not_true, if_neg Bool.false_ne_true]
  constructor
  · intro h
    obtain ⟨size, hsize, h⟩ := bind_ok.mp h
    obtain ⟨read, hread, h⟩ := bind_ok.mp h
    cases read with
    | none => exact .inl ⟨.inl ⟨hdir, ⟨size, hsize⟩, hread⟩, (Except.ok.inj h).symm⟩
    | some bs =>
      obtain ⟨found, hfind, h⟩ := bind_ok.mp h
      have htable : d.HasTable host base size (filled host.junk bs) := ⟨hdir, hsize, bs, hread, rfl⟩
      cases found with
      | none => exact .inl ⟨.inr ⟨size, _, htable, hfind⟩, (Except.ok.inj h).symm⟩
      | some k => exact .inr ⟨_, ⟨size, _, k, htable, hfind, rfl⟩, h⟩
  · rintro (⟨⟨-, ⟨size, hsize⟩, hread⟩ | ⟨size, table, htable, hfind⟩, rfl⟩ |
      ⟨e, ⟨size, table, k, htable, hfind, rfl⟩, h⟩)
    · rw [hsize, ok_bind, hread]
      rfl
    · obtain ⟨bs, hread, rfl⟩ := htable.read
      rw [htable.alloc, ok_bind, hread, ok_bind]
      dsimp only
      rw [hfind]
      rfl
    · obtain ⟨bs, hread, rfl⟩ := htable.read
      rw [htable.alloc, ok_bind, hread, ok_bind]
      dsimp only
      rw [hfind]
      exact h

theorem Stops.directory (h : d.Stops host base names dir left) : base.isDirectory = true := by
  cases h with
  | missing h => exact h.directory
  | file h _ _ => exact h.directory
  | down h _ => exact h.directory

theorem Stops.names_ne_nil (h : d.Stops host base names dir left) : names ≠ [] := by
  cases h <;> exact List.cons_ne_nil _ _

theorem Stops.probed (h : d.Stops host base names dir left) : d.Probed host dir := by
  induction h with
  | missing h => exact h.probed
  | file h _ _ => exact h.probed
  | down _ _ ih => exact ih

/-- Where the names stop, nothing is found, and the parent is the directory they stop in. -/
theorem Stops.walkPath (h : d.Stops host base names dir left) (parent : Option DirEntry) :
    d.walkPath host names parent base = .ok (none, some dir) := by
  induction h generalizing parent with
  | missing h => exact (walkPath_cons h.directory).mpr (.inl ⟨h, rfl⟩)
  | @file base e name left h hfile hleft =>
    obtain ⟨next, rest, rfl⟩ := List.exists_cons_of_ne_nil hleft
    refine (walkPath_cons h.directory).mpr (.inr ⟨e, h, ?_⟩)
    rw [FatDisk.walkPath, hfile, Bool.not_false, if_pos rfl]
  | down h _ ih => exact (walkPath_cons h.directory).mpr (.inr ⟨_, h, ih _⟩)

theorem walkPath_none (hdir : base.isDirectory = true) {parent p : Option DirEntry}
    (h : d.walkPath host names parent base = .ok (none, p)) :
    ∃ dir left, p = some dir ∧ d.Stops host base names dir left := by
  induction names generalizing base parent with
  | nil => exact nomatch h
  | cons name names ih =>
    rcases (walkPath_cons hdir).mp h with ⟨hlacks, hr⟩ | ⟨e, hfinds, hrest⟩
    · exact ⟨base, names, (Prod.mk.inj hr).2, .missing hlacks⟩
    · cases hfile : e.isDirectory with
      | true =>
        obtain ⟨dir, left, hp, hstops⟩ := ih hfile hrest
        exact ⟨dir, left, hp, .down hfinds hstops⟩
      | false =>
        cases names with
        | nil => exact nomatch hrest
        | cons next rest =>
          rw [FatDisk.walkPath, hfile, Bool.not_false, if_pos rfl] at hrest
          have hp := (Prod.mk.inj (Except.ok.inj hrest)).2
          exact ⟨base, next :: rest, hp.symm, .file hfinds hfile (List.cons_ne_nil next rest)⟩

/-- What is found is in the directory that the names before the last one lead to. -/
theorem walkPath_some (hdir : base.isDirectory = true) {parent p : Option DirEntry} {f : DirEntry}
    (h : d.walkPath host (name :: names) parent base = .ok (some f, p)) :
    ∃ dir, p = some dir ∧ dir.isDirectory = true ∧
      d.Descends host base (name :: names).dropLast dir := by
  induction names generalizing name base parent with
  | nil =>
    rcases (walkPath_cons hdir).mp h with ⟨-, hr⟩ | ⟨e, hfinds, hrest⟩
    · cases (Prod.mk.inj hr).1
    · exact ⟨base, (Prod.mk.inj (Except.ok.inj hrest)).2.symm, hdir, .here base⟩
  | cons next rest ih =>
    rcases (walkPath_cons hdir).mp h with ⟨-, hr⟩ | ⟨e, hfinds, hrest⟩
    · cases (Prod.mk.inj hr).1
    · cases hfile : e.isDirectory with
      | true =>
        obtain ⟨dir, hp, hdir', hdescends⟩ := ih hfile hrest
        exact ⟨dir, hp, hdir', .down hfinds hdescends⟩
      | false =>
        rw [FatDisk.walkPath, hfile, Bool.not_false, if_pos rfl] at hrest
        cases (Prod.mk.inj (Except.ok.inj hrest)).1

/-- With no name left, the names stop in the directory that the path names. -/
theorem Stops.descends (h : d.Stops host base names dir []) :
    d.Descends host base names.dropLast dir := by
  generalize hleft : ([] : List CString) = left at h
  induction h with
  | missing h =>
    subst hleft
    exact .here _
  | file _ _ hne => exact absurd hleft.symm hne
  | down hfinds hstops ih =>
    rw [List.dropLast_cons_of_ne_nil hstops.names_ne_nil]
    exact .down hfinds (ih hleft)

end FatDisk

/-! ## The last name of a path -/

section LastName
open ShortName
variable {path src : CString}

theorem mem_trimSpace {c : Byte} (h : c ∈ src) : c ∈ trimSpace src ∨ isspace c = true := by
  rw [← List.takeWhile_append_dropWhile (p := isspace) (l := src), List.mem_append] at h
  rcases h with h | h
  · exact .inr (List.mem_takeWhile_imp h)
  · rw [← List.rdropWhile_append_rtakeWhile (p := isspace) (l := src.dropWhile isspace),
      List.mem_append] at h
    exact h.imp_right List.mem_rtakeWhile_imp

theorem mem_parts {t : CString} {c : Byte} (h : c ∈ t) : c ∈ stem t ++ extension t ∨ c = 0x2E := by
  by_cases hdot : 0x2E ∈ t
  · rw [eq_parts_of_mem hdot, List.mem_append, List.mem_cons] at h
    rw [List.mem_append]
    tauto
  · rw [(parts_of_notMem hdot).1, (parts_of_notMem hdot).2, List.append_nil]
    exact .inl h

/-- A name that is taken has no separator in it. -/
theorem separator_notMem {c : Byte} (hsep : (c == 0x2F || c == 0x5C) = true)
    (h : shortLabel src ≠ none) : c ∉ src := by
  intro hc
  have hvalid : Valid (trimSpace src) := by
    by_contra hn
    exact h (shortLabel_of_not_valid hn)
  have hcases : isspace c = false ∧ inName c = false ∧ c ≠ 0x2E := by
    rw [Bool.or_eq_true, beq_iff_eq, beq_iff_eq] at hsep
    rcases hsep with rfl | rfl <;> decide
  rcases mem_trimSpace hc with hmem | hspace
  · rcases mem_parts hmem with hmem | hdot
    · rw [inName_iff.mpr (hvalid.chars c hmem)] at hcases
      exact nomatch hcases.2.1
    · exact hcases.2.2 hdot
  · rw [hspace] at hcases
    exact nomatch hcases.1

theorem rtakeWhile_ne_cases (path : CString) (c : Byte) :
    path.rtakeWhile (· != c) = path ∨ ∃ pre, path = pre ++ c :: path.rtakeWhile (· != c) := by
  have hsplit := List.rdropWhile_append_rtakeWhile (p := (· != c)) (l := path)
  by_cases hnil : path.rdropWhile (· != c) = []
  · rw [hnil, List.nil_append] at hsplit
    exact .inl hsplit
  · have hlast := List.rdropWhile_last_not (· != c) path hnil
    rw [bne_iff_ne, not_not] at hlast
    have hconcat := List.dropLast_append_getLast hnil
    rw [hlast] at hconcat
    refine .inr ⟨(path.rdropWhile (· != c)).dropLast, ?_⟩
    rw [List.append_cons, hconcat, hsplit]

theorem pathTokens_last (pre : CString) {name : CString} {c : Byte}
    (hsep : (c == 0x2F || c == 0x5C) = true)
    (hname : ∀ c ∈ name, (c == 0x2F || c == 0x5C) = false) (hne : name ≠ []) :
    (pathTokens (pre ++ c :: name)).getLast? = some name := by
  have hkeep : [name].filter (· != []) = [name] := List.filter_cons_of_pos (bne_iff_ne.mpr hne)
  rw [pathTokens, List.splitOnP_append_cons pre name hsep, List.splitOnP_eq_singleton hname,
    List.filter_append, hkeep, List.getLast?_concat]

/-- A file name that is taken is the last name of the path. -/
theorem getFileName_last (h : shortLabel (getFileName path) ≠ none) :
    (pathTokens path).getLast? = some (getFileName path) := by
  have hname : ∀ c ∈ getFileName path, (c == 0x2F || c == 0x5C) = false := by
    intro c hc
    by_contra hsep
    exact separator_notMem (Bool.not_eq_false _ ▸ hsep) h hc
  have hne : getFileName path ≠ [] := by
    intro hnil
    rw [hnil] at h
    exact h rfl
  rw [getFileName] at hname hne ⊢
  split at hname
  · rw [if_pos ‹_›] at hne ⊢
    rcases rtakeWhile_ne_cases path 0x5C with hall | ⟨pre, hpath⟩
    · rw [hall] at hname hne ⊢
      have hkeep : [path].filter (· != []) = [path] := List.filter_cons_of_pos (bne_iff_ne.mpr hne)
      rw [pathTokens, List.splitOnP_eq_singleton hname, hkeep]
      rfl
    · have hlast := pathTokens_last pre (c := 0x5C) (by decide) hname hne
      rwa [← hpath] at hlast
  · rw [if_neg ‹_›] at hne ⊢
    rcases rtakeWhile_ne_cases path 0x2F with hall | ⟨pre, hpath⟩
    · exact absurd hall ‹_›
    · have hlast := pathTokens_last pre (c := 0x2F) (by decide) hname hne
      rwa [← hpath] at hlast

end LastName

end Ohwes.Fatfs

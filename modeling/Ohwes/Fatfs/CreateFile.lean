import Ohwes.Fatfs.DirectoryTree
import Ohwes.Fatfs.RootFiles

/-! # `CreateFile`

The walk to the directory keeps the tables of the current directory and of the one above it, and
pointers into them. The new entry goes into the first free slot of the current table; then both tables
are written back. -/

namespace Ohwes.Fatfs
open Library
set_option autoImplicit false

/-- `e` with the time stamps that `CreateFile` copies from `t`. -/
def DirEntry.touch (e t : DirEntry) : DirEntry :=
  { e with
    modifiedDate := t.modifiedDate
    modifiedTime := t.modifiedTime
    accessedDate := t.accessedDate }

def DirEntry.setAttribute (e : DirEntry) (attr : Byte) : DirEntry :=
  { e with attributes := e.attributes ||| attr }

/-- `*pParentDir`, the table of that directory, and the slot there that `pCurrentDir` points to. -/
structure Outer where
  dir : DirEntry
  size : Nat
  table : Buffer
  slot : Nat

/-- The variables of `CreateFile` behind its walk; at the root there is no directory above. -/
structure Place where
  dir : DirEntry
  size : Nat
  table : Buffer
  outer : Option Outer
  name : CString

/-- What the second write is given in the root directory: the size of its buffer, and what is in it. -/
def Place.upper (p : Place) (junk : Buffer) (dir : DirEntry) : Nat × Buffer :=
  match p.outer with
  | none => (0, junk)
  | some o => (o.size, storeEntry o.table o.slot dir)

/-- The search for a free slot ends behind the table if it finds none. -/
def slotFor (table : Buffer) (count : Nat) : Nat :=
  ((List.range count).find? fun i => (entryAt table i).isFree).getD count

namespace FatDisk
variable (d : FatDisk) (host : Host)

/-- A pass of the walk: the size and the table of the directory, and where the name is in it. -/
def lookIn (name : CString) (dir : DirEntry) : Call (Option (Nat × Buffer × Option Nat)) := do
  let size ← d.getFileAllocSize WALK_LIMIT dir
  match ← d.readFileInto size WALK_LIMIT dir with
  | none => return none
  | some bs =>
    let found ← findFileInDir host (filled host.junk bs) size name
    return some (size, filled host.junk bs, found)

/-- The walk of `CreateFile`, with the names that are left. -/
def createWalk : List CString → CString → DirEntry → Option Outer → Call (Option Place)
  | [], name, dir, outer => do
    match ← d.lookIn host name dir with
    | none => return none
    | some (_, _, some _) => return none
    | some (size, table, none) => return some ⟨dir, size, table, outer, name⟩
  | next :: path, name, dir, _ => do
    match ← d.lookIn host name dir with
    | none => return none
    | some (_, _, none) => return none
    | some (size, table, some k) =>
      if !(entryAt table k).isDirectory then return none
      else createWalk path next (entryAt table k) (some ⟨dir, size, table, k⟩)

/-- The second `WriteFile`. In the root directory it is given the first entry of the table; without a
directory above, it is given no buffer. -/
def writeParent (p : Place) (dir : DirEntry) (table : Buffer) : Call (Bool × FatDisk) :=
  match p.outer with
  | none =>
    if dir.isRoot then d.writeFileFrom 0 WALK_LIMIT (entryAt table 0) host.junk else .error .fault
  | some o =>
    d.writeFileFrom o.size WALK_LIMIT (if dir.isRoot then entryAt table 0 else o.dir)
      (storeEntry o.table o.slot dir)

/-- `CreateFile` behind its walk: the new entry and that of its directory, if it succeeds. -/
def createIn (p : Place) : Call (Option (DirEntry × DirEntry) × FatDisk) := do
  let k := slotFor p.table (p.size / DIR_ENTRY_SIZE)
  access p.size (DIR_ENTRY_SIZE * k) DIR_ENTRY_SIZE
  match ((DirEntry.init host.now).setAttribute ATTR_ARCHIVE).setShortName p.name with
  | none => return (none, d)
  | some new =>
    let dir := p.dir.touch new
    let table := storeEntry p.table k new
    access p.size 0 DIR_ENTRY_SIZE
    let table := storeEntry table 0 ((entryAt table 0).touch dir)
    match ← d.writeFileFrom p.size WALK_LIMIT dir table with
    | (false, d) => return (none, d)
    | (true, d) =>
      match ← d.writeParent host p dir table with
      | (false, d) => return (none, d)
      | (true, d) => return (some (entryAt table k, dir), d)

/-- `CreateFile`. A path that fills its copy leaves that without an end, and one without a name in it
leads to a look-up of no name. -/
def createFile (path : CString) : Call (Option (DirEntry × DirEntry) × FatDisk) :=
  if path.length ≥ MAX_PATH then .error .fault
  else
    match pathTokens path with
    | [] => .error .fault
    | name :: rest => do
      match ← d.createWalk host rest name rootDirEntry none with
      | none => return (none, d)
      | some p => d.createIn host p

end FatDisk

/-! ## What a look-up finds is in the table -/

section Found
variable {host : Host} {table : Buffer} {count : Nat}

theorem ok_of_ite_error {α : Type} {c : Prop} [Decidable c] {f : Halt} {x : Call α} {r : α}
    (h : (if c then .error f else x) = .ok r) : ¬ c ∧ x = .ok r := by
  by_cases hc : c
  · rw [if_pos hc] at h
    exact nomatch h
  · rw [if_neg hc] at h
    exact ⟨hc, h⟩

theorem getLongName_lt {i j : Nat} (hi : i < count) {s : List (BitVec 32)}
    (h : getLongName host table count i = .ok (s, j)) : j < count := by
  rw [getLongName] at h
  split at h
  · exact (Prod.mk.inj (Except.ok.inj h)).2 ▸ hi
  · obtain ⟨⟨scan, k⟩, -, h⟩ := bind_ok.mp h
    obtain ⟨hk, h⟩ := ok_of_ite_error h
    obtain ⟨-, h⟩ := ok_of_ite_error h
    have hj : k = j := (Prod.mk.inj (Except.ok.inj h)).2
    omega

theorem tryEntry_lt {name : CString} {i j : Nat} (hi : i < count) {found : Bool}
    (h : tryEntry host table count name i = .ok (found, j)) : j < count := by
  rw [tryEntry] at h
  split at h
  · obtain ⟨⟨longName, k⟩, hname, h⟩ := bind_ok.mp h
    have hj : k = j := (Prod.mk.inj (Except.ok.inj h)).2
    exact hj ▸ getLongName_lt hi hname
  · exact (Prod.mk.inj (Except.ok.inj h)).2 ▸ hi

theorem findLoop_lt {name : CString} {passes i k : Nat}
    (h : findLoop host table count name passes i = .ok (some k)) : k < count := by
  induction passes generalizing i with
  | zero => cases h
  | succ passes ih =>
    rw [findLoop] at h
    by_cases hi : i ≥ count
    · rw [if_pos hi] at h
      cases h
    · rw [if_neg hi] at h
      split at h
      · exact ih h
      · obtain ⟨⟨found, j⟩, htry, h⟩ := bind_ok.mp h
        cases found with
        | true => exact Option.some.inj (Except.ok.inj h) ▸ tryEntry_lt (by omega) htry
        | false => exact ih h

end Found

/-! ## The free slot -/

section Slot
variable {table : Buffer} {count : Nat}

theorem slotFor_spec (h : ∃ i < count, (entryAt table i).isFree = true) :
    slotFor table count < count ∧ (entryAt table (slotFor table count)).isFree = true := by
  rw [slotFor]
  cases hfind : (List.range count).find? fun i => (entryAt table i).isFree with
  | none =>
    obtain ⟨i, hi, hfree⟩ := h
    exact absurd hfree (List.find?_eq_none.mp hfind i (List.mem_range.mpr hi))
  | some k =>
    have hfree := List.find?_some hfind
    exact ⟨List.mem_range.mp (List.mem_of_find?_eq_some hfind), hfree⟩

theorem slotFor_full (h : ∀ i < count, (entryAt table i).isFree = false) :
    slotFor table count = count := by
  rw [slotFor, List.find?_eq_none.mpr fun i hi => ?_]
  · rfl
  · rw [h i (List.mem_range.mp hi)]
    exact Bool.false_ne_true

theorem slotFor_first (h : (entryAt table 0).isFree = true) (hpos : 0 < count) :
    slotFor table count = 0 := by
  obtain ⟨n, rfl⟩ : ∃ n, count = n + 1 := ⟨count - 1, by omega⟩
  rw [slotFor, List.range_succ_eq_map, List.find?_cons, h]
  rfl

end Slot

namespace FatDisk
variable (d : FatDisk) (host : Host)

/-! ## Where a path leads -/

def tableIn (l : List Nat) : Buffer := filled host.junk (d.dirBytes l)

/-- From the directory `dir` with the clusters `l`, the names lead through directories that exist to
one without the last of them. -/
inductive Leads : List CString → CString → DirEntry → List Nat → Option Outer → Place → List Nat → Prop
  | leaf {name : CString} {dir : DirEntry} {l : List Nat} {outer : Option Outer} :
      findFileInDir host (d.tableIn host l) (d.dirSize l) name = .ok none →
      Leads [] name dir l outer ⟨dir, d.dirSize l, d.tableIn host l, outer, name⟩ l
  | down {next name : CString} {path : List CString} {dir : DirEntry} {l l' m : List Nat} {k : Nat}
      {outer : Option Outer} {p : Place} :
      findFileInDir host (d.tableIn host l) (d.dirSize l) name = .ok (some k) →
      (d.dirEntry l k).isValidFile = true → (d.dirEntry l k).isDirectory = true →
      d.Clusters (d.dirEntry l k) l' →
      Leads path next (d.dirEntry l k) l' (some ⟨dir, d.dirSize l, d.tableIn host l, k⟩) p m →
      Leads (next :: path) name dir l outer p m

/-- What is known of the directory above. -/
structure OuterAt (o : Outer) (dir : DirEntry) (l : List Nat) : Prop where
  known : d.DirAt o.dir l
  isDir : d.IsDir l
  size : o.size = d.dirSize l
  table : o.table = d.tableIn host l
  slot : o.slot < d.dirSlots l
  entry : d.dirEntry l o.slot = dir
  valid : dir.isValidFile = true

/-- What is known of the place where the walk ends. -/
structure PlaceAt (p : Place) (l : List Nat) : Prop where
  known : d.DirAt p.dir l
  isDir : d.IsDir l
  size : p.size = d.dirSize l
  table : p.table = d.tableIn host l
  top : p.outer = none → p.dir = rootDirEntry
  outer : ∀ o, p.outer = some o → ∃ l', d.OuterAt host o p.dir l'

variable {d host} {l : List Nat}

theorem entryAt_tableIn (host : Host) {i : Nat} (hi : i < d.dirSlots l) :
    entryAt (d.tableIn host l) i = d.dirEntry l i := entryAt_dirBytes host.junk hi

theorem found_lt {name : CString} {k : Nat}
    (h : findFileInDir host (d.tableIn host l) (d.dirSize l) name = .ok (some k)) :
    k < d.dirSlots l := by
  rw [findFileInDir, dirSize_div] at h
  exact findLoop_lt h

theorem DirAt.lookIn (hd : d.Sound) {dir : DirEntry} (h : d.DirAt dir l) (hfits : d.RootFits)
    {name : CString} {r : Option Nat}
    (hfind : findFileInDir host (d.tableIn host l) (d.dirSize l) name = .ok r) :
    d.lookIn host name dir = .ok (some (d.dirSize l, d.tableIn host l, r)) := by
  rw [FatDisk.lookIn, h.allocSize hd, ok_bind, h.readFileInto hd fun _ => hfits, ok_bind]
  dsimp only
  rw [tableIn] at hfind
  rw [hfind]
  rfl

/-- The walk comes to the place where the path leads. -/
theorem Leads.createWalk (hd : d.Sound) (hfits : d.RootFits) {path : List CString} {name : CString}
    {dir : DirEntry} {outer : Option Outer} {p : Place} {m : List Nat}
    (h : d.Leads host path name dir l outer p m) (hat : d.DirAt dir l) :
    d.createWalk host path name dir outer = .ok (some p) := by
  induction h with
  | leaf hfind =>
    rw [FatDisk.createWalk, hat.lookIn hd hfits hfind]
    rfl
  | @down next name path dir l l' m k outer p hfind hvalid hdir hclusters _ ih =>
    have hk := found_lt hfind
    have hentry := entryAt_tableIn host hk
    rw [FatDisk.createWalk, hat.lookIn hd hfits hfind, ok_bind]
    dsimp only
    rw [hentry, hdir, Bool.not_true, if_neg Bool.false_ne_true]
    exact ih ⟨hclusters, hdir, fun _ => hvalid⟩

theorem Leads.placeAt {path : List CString} {name : CString} {dir : DirEntry}
    {outer : Option Outer} {p : Place} {m : List Nat} (h : d.Leads host path name dir l outer p m)
    (hat : d.DirAt dir l) (hdir : d.IsDir l) (htop : outer = none → dir = rootDirEntry)
    (houter : ∀ o, outer = some o → ∃ l', d.OuterAt host o dir l') : d.PlaceAt host p m := by
  induction h with
  | leaf _ => exact ⟨hat, hdir, rfl, rfl, htop, houter⟩
  | @down next name path dir l l' m k outer p hfind hvalid hdirectory hclusters _ ih =>
    have hk := found_lt hfind
    refine ih ⟨hclusters, hdirectory, fun _ => hvalid⟩ (.sub hdir hk hvalid hdirectory hclusters)
      nofun fun o ho => ?_
    cases ho
    exact ⟨l, hat, hdir, rfl, rfl, hk, rfl, hvalid⟩

/-! ## One new entry -/

/-- An entry in use that stands for a file, or is part of its long name: not a directory's nor the
volume label. -/
def Bystander (e : DirEntry) : Prop :=
  e.isFree = false ∧ (e.isLongFileName = true ∨ e.isDirectory = false ∧ e.isLabel = false)

instance (e : DirEntry) : Decidable (Bystander e) := inferInstanceAs (Decidable (_ ∧ _))

/-- The entry is the same, or it is that of a directory or the label and has other time stamps. -/
def Kept (e e' : DirEntry) : Prop := e' = e ∨ ¬ Bystander e ∧ ∃ t, e' = e.touch t

/-- The new entry of the name is in slot `i` of the directory `l`, which was free, and of the tree
nothing is different but time stamps of directories. -/
structure AddsEntry (d : FatDisk) (now : Tm) (l : List Nat) (name : CString) (d' : FatDisk) (i : Nat)
    (new : DirEntry) : Prop where
  slot : i < d.dirSlots l ∧ (d.dirEntry l i).isFree = true
  named : ((DirEntry.init now).setAttribute ATTR_ARCHIVE).setShortName name = some new
  entry : d'.dirEntry l i = new
  others : ∀ l', d.IsDir l' → ∀ j < d.dirSlots l', ¬ (l' = l ∧ j = i) →
    Kept (d.dirEntry l' j) (d'.dirEntry l' j)
  chains : ∀ l', d.IsDir l' → ∀ j < d.dirSlots l', (d.dirEntry l' j).isValidFile = true →
    ∀ f, d.Clusters (d.dirEntry l' j) f → d'.Clusters (d.dirEntry l' j) f
  contents : ∀ l', d.IsDir l' → ∀ j < d.dirSlots l', (d.dirEntry l' j).Regular →
    d'.readFile WALK_LIMIT (d.dirEntry l' j) = d.readFile WALK_LIMIT (d.dirEntry l' j)

/-- With a free slot in the directory `l`, `CreateFile` adds one entry; without, it fails and leaves
the image alone. -/
structure AddsOne (d : FatDisk) (host : Host) (path : CString) (l : List Nat) (name : CString) :
    Prop where
  room : (∃ i < d.dirSlots l, (d.dirEntry l i).isFree = true) →
    ∃ new dir d' i, d.createFile host path = .ok (some (new, dir), d') ∧
      d.AddsEntry host.now l name d' i new
  full : (∀ i < d.dirSlots l, (d.dirEntry l i).isFree = false) →
    d.createFile host path = .ok (none, d)

/-- What `WriteFile` stores under the entry `e` of the root directory is there already, up to the time
stamps of directories. If that is the root directory itself, the new entry is part of it. -/
def StoresAlike (d : FatDisk) (now : Tm) (name : CString) (e : DirEntry) (size : Nat)
    (buf : Buffer) : Prop :=
  if e.isRoot then
    d.dirSize [] ≤ size ∧ ∃ i < d.dirSlots [], (d.dirEntry [] i).isFree = true ∧
      ((DirEntry.init now).setAttribute ATTR_ARCHIVE).setShortName name = some (entryAt buf i) ∧
      ∀ j < d.dirSlots [], j ≠ i → Kept (d.dirEntry [] j) (entryAt buf j)
  else
    refusesFile e = false ∧ ∃ l n, d.Clusters e l ∧ d.getFileSize WALK_LIMIT e = .ok n ∧ n ≤ size ∧
      d.bpb.clustersFor n = l.length ∧ l.length ≤ d.countFreeClusters ∧
      if e.isDirectory then ∀ j < d.dirSlots l, Kept (d.dirEntry l j) (entryAt buf j)
      else e.touch (DirEntry.init now) = e ∧ ((l.map d.content).flatten).take n = slice buf 0 n

/-- The first entry of the root directory is free, or what is stored under it is there already. -/
def RootMayGrow (d : FatDisk) (host : Host) (p : Place) : Prop :=
  (d.dirEntry [] 0).isFree = true ∨
    d.StoresAlike host.now p.name (d.dirEntry [] 0)
      (p.upper host.junk (p.dir.touch (DirEntry.init host.now))).1
      (p.upper host.junk (p.dir.touch (DirEntry.init host.now))).2

/-- So many clusters are free as the directory has, and as the one above has, which is another one,
and the first entry is not a file's or current. -/
structure MayGrow (d : FatDisk) (now : Tm) (p : Place) (l : List Nat) : Prop where
  space : l.length ≤ d.countFreeClusters
  above : ∀ o, p.outer = some o → ∀ l', d.Clusters o.dir l' →
    l'.length ≤ d.countFreeClusters ∧ l' ≠ l
  first : Bystander (d.dirEntry l 0) → (d.dirEntry l 0).touch (DirEntry.init now) = d.dirEntry l 0

/-- When `CreateFile` adds the entry. -/
structure Creatable (d : FatDisk) (host : Host) (path : CString) (p : Place) (l : List Nat) : Prop where
  path : path.length < MAX_PATH
  root : d.RootFits
  free : ∃ i < d.dirSlots l, (d.dirEntry l i).isFree = true
  writes : if l = [] then d.RootMayGrow host p else d.MayGrow host.now p l

/-! ## The tables that are written -/

section Tables
variable {now : Tm} {name : CString} {new : DirEntry}

theorem new_eq (h : ((DirEntry.init now).setAttribute ATTR_ARCHIVE).setShortName name = some new) :
    new.isFree = false ∧ new.Regular ∧ new.firstCluster = 0 ∧ new.fileSize = 0 ∧
      ∀ e : DirEntry, e.touch new = e.touch (DirEntry.init now) := by
  obtain ⟨label, hlabel, hnew⟩ := Option.map_eq_some_iff.mp h
  obtain ⟨hzero, hmark⟩ := shortLabel_head hlabel
  have hfree : new.isFree = false := by
    rw [← hnew, DirEntry.isFree, DirEntry.isDeleted, Bool.or_eq_false_iff]
    exact ⟨beq_eq_false_iff_ne.mpr hmark, beq_eq_false_iff_ne.mpr hzero⟩
  have hattr : new.attributes = 0x20 := by
    rw [← hnew]
    show (0 : Byte) ||| 0x20 = 0x20
    decide
  refine ⟨hfree, ⟨?_, ?_⟩, ?_, ?_, fun e => ?_⟩
  · rw [DirEntry.isValidFile, hfree, DirEntry.isLongFileName, DirEntry.isDeviceFile, DirEntry.isLabel,
      DirEntry.hasAttribute, DirEntry.hasAttribute, DirEntry.hasAttribute, hattr]
    rfl
  · rw [DirEntry.isDirectory, DirEntry.hasAttribute, hattr]
    rfl
  all_goals rw [← hnew]; rfl

/-- The table with the new entry in slot `k` and the time stamps in the first entry. -/
def tableWith (table : Buffer) (k : Nat) (new dir : DirEntry) : Buffer :=
  storeEntry (storeEntry table k new) 0 ((entryAt (storeEntry table k new) 0).touch dir)

theorem entryAt_tableWith (table : Buffer) (k i : Nat) (new dir : DirEntry) :
    entryAt (tableWith table k new (dir.touch new)) i =
      if i = k then new else if i = 0 then (entryAt table 0).touch new else entryAt table i := by
  rw [tableWith, entryAt_storeEntry, entryAt_storeEntry, entryAt_storeEntry]
  by_cases hi : i = 0
  · subst hi
    rw [if_pos rfl]
    split
    · rfl
    · rw [if_pos rfl]
      rfl
  · rw [if_neg hi, if_neg hi]

variable {p : Place} {k : Nat} {d1 d2 : FatDisk}

/-- The two writes. -/
theorem createIn_true (hk : slotFor p.table (p.size / DIR_ENTRY_SIZE) = k)
    (hroom : DIR_ENTRY_SIZE * (k + 1) ≤ p.size)
    (hnew : ((DirEntry.init host.now).setAttribute ATTR_ARCHIVE).setShortName p.name = some new)
    (h1 : d.writeFileFrom p.size WALK_LIMIT (p.dir.touch new)
      (tableWith p.table k new (p.dir.touch new)) = .ok (true, d1))
    (h2 : d1.writeParent host p (p.dir.touch new) (tableWith p.table k new (p.dir.touch new)) =
      .ok (true, d2)) :
    d.createIn host p = .ok (some (new, p.dir.touch new), d2) := by
  have hget : entryAt (tableWith p.table k new (p.dir.touch new)) k = new := by
    rw [entryAt_tableWith, if_pos rfl]
  rw [tableWith] at hget h1 h2
  rw [createIn, hk]
  dsimp only
  rw [access_ok (by rwa [Nat.mul_succ] at hroom), ok_bind, hnew]
  dsimp only
  rw [access_ok (by rw [Nat.mul_succ] at hroom; omega), ok_bind, h1, ok_bind]
  dsimp only
  rw [h2, ok_bind, hget]
  rfl

/-- What its success says. -/
theorem createIn_some (hk : slotFor p.table (p.size / DIR_ENTRY_SIZE) = k)
    (hnew : ((DirEntry.init host.now).setAttribute ATTR_ARCHIVE).setShortName p.name = some new)
    {r : DirEntry × DirEntry} (h : d.createIn host p = .ok (some r, d2)) :
    ∃ d1, d.writeFileFrom p.size WALK_LIMIT (p.dir.touch new)
        (tableWith p.table k new (p.dir.touch new)) = .ok (true, d1) ∧
      d1.writeParent host p (p.dir.touch new) (tableWith p.table k new (p.dir.touch new)) =
        .ok (true, d2) := by
  rw [createIn, hk] at h
  obtain ⟨-, -, h⟩ := bind_ok.mp h
  rw [hnew] at h
  obtain ⟨-, -, h⟩ := bind_ok.mp h
  obtain ⟨⟨ok1, d1⟩, h1, h⟩ := bind_ok.mp h
  cases ok1 with
  | false => exact nomatch h
  | true =>
    obtain ⟨⟨ok2, d3⟩, h2, h⟩ := bind_ok.mp h
    cases ok2 with
    | false => exact nomatch h
    | true =>
      have hd : d3 = d2 := (Prod.mk.inj (Except.ok.inj h)).2
      exact ⟨d1, h1, hd ▸ h2⟩

end Tables

/-! ## Adding the entry -/

section Adds
variable {now : Tm} {name : CString} {new : DirEntry} {buf : Buffer} {d1 d2 : FatDisk} {k : Nat}
  (ht : d.Tree)
include ht

/-- Writing the table of the directory with the entry in it. -/
theorem AddsEntry.of_write (hl : d.IsDir l) (h : d.WroteDir l buf d1) (hk : k < d.dirSlots l)
    (hfree : (d.dirEntry l k).isFree = true)
    (hnew : ((DirEntry.init now).setAttribute ATTR_ARCHIVE).setShortName name = some new)
    (hentry : entryAt buf k = new)
    (hkept : ∀ j < d.dirSlots l, j ≠ k → Kept (d.dirEntry l j) (entryAt buf j)) :
    d.AddsEntry now l name d1 k new := by
  refine ⟨⟨hk, hfree⟩, hnew, (h.table k hk).trans hentry, fun l' hl' j hj hne => ?_,
    fun l' hl' j hj hvalid f hf => ?_, fun l' hl' j hj hregular => ?_⟩
  · by_cases heq : l' = l
    · subst heq
      rw [h.table j hj]
      exact hkept j hj fun hjk => hne ⟨rfl, hjk⟩
    · rw [h.others l' hl'.range ((ht.apart l' l hl' hl).resolve_left heq) heq j hj]
      exact .inl rfl
  · refine h.clusters _ f hf ?_
    cases hdir : (d.dirEntry l' j).isDirectory with
    | true => exact ht.apart f l (.sub hl' hj hvalid hdir hf) hl
    | false => exact .inr (ht.files l' l hl' hl j hj ⟨hvalid, hdir⟩ f hf)
  · obtain ⟨f, hf⟩ := ht.clusters l' hl' j hj hregular.valid
    exact h.reads _ f hf hregular.not_root (ht.files l' l hl' hl j hj hregular f hf)

/-- Writing the table of another directory, with other time stamps in it. -/
theorem AddsEntry.rewrite (h : d.AddsEntry now l name d1 k new) (hbpb : d1.bpb = d.bpb)
    {lo : List Nat} (hl : d.IsDir l) (hlo : d.IsDir lo) (hne : lo ≠ l) (h2 : d1.WroteDir lo buf d2)
    (hkept : ∀ j < d.dirSlots lo, Kept (d.dirEntry lo j) (entryAt buf j)) :
    d.AddsEntry now l name d2 k new := by
  have hslots := dirSlots_congr hbpb
  have hrange : ∀ l', d.IsDir l' → ∀ x ∈ l', x ∈ d1.clusterNumbers := fun l' hl' => by
    rw [clusterNumbers_congr hbpb]
    exact hl'.range
  have hother : ∀ l', d.IsDir l' → l' ≠ lo → ∀ j < d.dirSlots l', d2.dirEntry l' j = d1.dirEntry l' j :=
    fun l' hl' hne' j hj => h2.others l' (hrange l' hl') ((ht.apart l' lo hl' hlo).resolve_left hne')
      hne' j (by rwa [hslots])
  refine ⟨h.slot, h.named, ?_, fun l' hl' j hj hne' => ?_, fun l' hl' j hj hvalid f hf => ?_,
    fun l' hl' j hj hregular => ?_⟩
  · rw [hother l hl hne.symm k h.slot.1, h.entry]
  · by_cases heq : l' = lo
    · subst heq
      rw [h2.table j (by rwa [hslots])]
      exact hkept j hj
    · rw [hother l' hl' heq j hj]
      exact h.others l' hl' j hj hne'
  · refine h2.clusters _ f (h.chains l' hl' j hj hvalid f hf) ?_
    cases hdir : (d.dirEntry l' j).isDirectory with
    | true => exact ht.apart f lo (.sub hl' hj hvalid hdir hf) hlo
    | false => exact .inr (ht.files l' lo hl' hlo j hj ⟨hvalid, hdir⟩ f hf)
  · obtain ⟨f, hf⟩ := ht.clusters l' hl' j hj hregular.valid
    rw [h2.reads _ f (h.chains l' hl' j hj hregular.valid f hf) hregular.not_root
      (ht.files l' lo hl' hlo j hj hregular f hf), h.contents l' hl' j hj hregular]

/-- A write that stores what is there. -/
theorem AddsEntry.unchanged (h : d.AddsEntry now l name d1 k new) (hbpb : d1.bpb = d.bpb)
    (hd1 : d1.Sound) (hl : d.IsDir l) (hu : d1.Unchanged d2) : d.AddsEntry now l name d2 k new := by
  have hentry : ∀ l', d.IsDir l' → ∀ j < d.dirSlots l', d2.dirEntry l' j = d1.dirEntry l' j := by
    intro l' hl' j hj
    refine hu.dirEntry ?_ (by rwa [dirSlots_congr hbpb])
    rw [clusterNumbers_congr hbpb]
    exact hl'.range
  refine ⟨h.slot, h.named, ?_, fun l' hl' j hj hne => ?_, fun l' hl' j hj hvalid f hf => ?_,
    fun l' hl' j hj hregular => ?_⟩
  · rw [hentry l hl k h.slot.1, h.entry]
  · rw [hentry l' hl' j hj]
    exact h.others l' hl' j hj hne
  · exact hu.clusters (h.chains l' hl' j hj hvalid f hf)
  · obtain ⟨f, hf⟩ := ht.clusters l' hl' j hj hregular.valid
    rw [hu.readFile hd1 (h.chains l' hl' j hj hregular.valid f hf) hregular.not_root,
      h.contents l' hl' j hj hregular]

end Adds

theorem not_bystander_directory {e : DirEntry} (hvalid : e.isValidFile = true)
    (hdir : e.isDirectory = true) : ¬ Bystander e := by
  rintro ⟨-, hlong | ⟨hnot, -⟩⟩
  · rw [DirEntry.isValidFile, hlong, Bool.not_true, Bool.and_false, Bool.false_and] at hvalid
    cases hvalid
  · rw [hdir] at hnot
    cases hnot

theorem Kept.touched {e t : DirEntry} (h : Bystander e → e.touch t = e) : Kept e (e.touch t) := by
  by_cases hb : Bystander e
  · exact .inl (h hb)
  · exact .inr ⟨hb, t, rfl⟩

theorem DirAt.touch {e : DirEntry} (h : d.DirAt e l) (t : DirEntry) : d.DirAt (e.touch t) l :=
  ⟨h.clusters, h.directory, h.usable⟩

theorem valid_of_not_refused {e : DirEntry} (h : refusesFile e = false) : e.isValidFile = true := by
  rw [refusesFile, Bool.or_eq_false_iff, Bool.not_eq_false'] at h
  exact h.1

theorem size_of_not_refused {e : DirEntry} (h : refusesFile e = false) (hfirst : e.firstCluster = 0) :
    e.fileSize = 0 := by
  rw [refusesFile, valid_of_not_refused h, hfirst] at h
  simpa using h

/-- An empty file without clusters is written without a look at the buffer. -/
theorem writeFileFrom_empty {e : DirEntry} (he : e.Regular) (hfirst : e.firstCluster = 0)
    (hsize : e.fileSize = 0) (size : Nat) (buf : Buffer) :
    d.writeFileFrom size WALK_LIMIT e buf = .ok (true, { d with dirty := true }) := by
  have hok : refusesFile e = false := by
    rw [refusesFile, he.valid, hsize]
    simp
  have hcount : u32 (0 + d.bpb.getClusterSize - 1) / d.bpb.getClusterSize = 0 := by
    have hpos := d.clusterSize_pos
    have hlt := getClusterSize_lt d.bpb
    rw [u32_of_lt (by omega), Nat.zero_add]
    exact Nat.div_eq_of_lt (by omega)
  have hzero : e.fileSize.toNat = 0 := by
    rw [hsize]
    rfl
  have hclusters : d.countClusters WALK_LIMIT e = .ok 0 := by
    rw [countClusters, he.not_root, if_neg Bool.false_ne_true, if_pos hfirst]
  rw [writeFileFrom, writeFileWith, he.not_root, hok, if_neg Bool.false_ne_true, if_neg Bool.false_ne_true,
    getFileSize, he.not_directory, if_neg Bool.false_ne_true, hzero, ok_bind]
  dsimp only
  rw [hclusters, ok_bind, hcount, if_neg (Nat.not_lt_zero _)]
  rfl

/-- The table of the directory above differs in the time stamps of the one below it. -/
theorem OuterAt.kept {o : Outer} {dir new : DirEntry} {lo : List Nat} (h : d.OuterAt host o dir lo)
    (hdir : dir.isDirectory = true) {j : Nat} (hj : j < d.dirSlots lo) :
    Kept (d.dirEntry lo j) (entryAt (storeEntry o.table o.slot (dir.touch new)) j) := by
  rw [entryAt_storeEntry]
  by_cases hslot : j = o.slot
  · rw [if_pos hslot, hslot, h.entry]
    exact .inr ⟨not_bystander_directory h.valid hdir, new, rfl⟩
  · rw [if_neg hslot, h.table, entryAt_tableIn host hj]
    exact .inl rfl

theorem PlaceAt.outer_of_sub {p : Place} (hp : d.PlaceAt host p l) (hne : l ≠ []) :
    ∃ o lo, p.outer = some o ∧ d.OuterAt host o p.dir lo := by
  cases ho : p.outer with
  | none =>
    have hroot := hp.known.not_root hne
    rw [hp.top ho] at hroot
    exact absurd hroot (by decide)
  | some o =>
    obtain ⟨lo, hlo⟩ := hp.outer o ho
    exact ⟨o, lo, rfl, hlo⟩

/-- A file of the root directory that holds already what is stored. -/
theorem WroteDir.rewrites_file {buf0 buf : Buffer} {d1 : FatDisk} {e new : DirEntry} {f : List Nat}
    {n size : Nat} (ht : d.Tree) (hwrote : d.WroteDir [] buf0 d1) (hfirst : e.isRoot = false)
    (hok : refusesFile e = false) (hdir : e.isDirectory = false) (hf : d.Clusters e f)
    (hbytes : d.getFileSize WALK_LIMIT e = .ok n) (hle : n ≤ size)
    (hcount : d.bpb.clustersFor n = f.length) (hspace : f.length ≤ d.countFreeClusters)
    (hdata : ((f.map d.content).flatten).take n = slice buf 0 n) :
    ∃ d2, d1.writeFileFrom size WALK_LIMIT (e.touch new) buf = .ok (true, d2) ∧ d1.Unchanged d2 := by
  have hd1 := hwrote.sound ht.sound
  have hdisj : f.Disjoint [] := List.disjoint_nil_right f
  have hregular : (e.touch new).Regular := ⟨valid_of_not_refused hok, hdir⟩
  by_cases hnil : f = []
  · subst hnil
    have hzero := hf.first_eq_zero
    exact ⟨_, writeFileFrom_empty hregular hzero (size_of_not_refused hok hzero) size buf,
      unchanged_dirty d1⟩
  · have hf1 := hwrote.clusters _ f hf (.inr hdisj)
    have hmark1 : d1.EndMark d1.getClusterNumberEOC := by
      rw [hwrote.mark, endMark_congr hwrote.bpb]
      exact ht.mark
    rw [getFileSize, hdir, if_neg Bool.false_ne_true] at hbytes
    have hbytes1 : d1.getFileSize WALK_LIMIT (e.touch new) = .ok n := by
      rw [getFileSize, hregular.not_directory, if_neg Bool.false_ne_true]
      exact hbytes
    have hn : n < 4294967296 := by
      rw [← Except.ok.inj hbytes]
      exact e.fileSize.isLt
    have hf2 : d1.Clusters (e.touch new) f := hf1
    obtain ⟨d2, hwrite, hrewrote⟩ := hf2.rewrites hd1 hmark1 hfirst hok hnil hbytes1 hn hle
      (by rw [hwrote.bpb, hcount]) (by rwa [hwrote.free]) buf
    have hread := hwrote.reads _ f hf hfirst hdisj
    rw [readFile_chain ht.sound hfirst hok (hf.good hnil).2 ht.sound.count_le_limit,
      readFile_chain hd1 hfirst hok (hf1.good hnil).2 hd1.count_le_limit] at hread
    refine ⟨d2, hwrite, hrewrote.unchanged ?_⟩
    rw [Option.some.inj (Except.ok.inj hread)]
    exact hdata

section Create
variable {p : Place} {new : DirEntry} {k : Nat} (ht : d.Tree) (hp : d.PlaceAt host p l)
  (hnew : ((DirEntry.init host.now).setAttribute ATTR_ARCHIVE).setShortName p.name = some new)
  (hk : slotFor p.table (p.size / DIR_ENTRY_SIZE) = k)
include hp hk

theorem PlaceAt.slot (hfree : ∃ i < d.dirSlots l, (d.dirEntry l i).isFree = true) :
    k < d.dirSlots l ∧ (d.dirEntry l k).isFree = true := by
  rw [hp.size, dirSize_div, hp.table] at hk
  obtain ⟨i, hi, hfree⟩ := hfree
  obtain ⟨hlt, hslot⟩ := slotFor_spec ⟨i, hi, by rwa [entryAt_tableIn host hi]⟩
  rw [hk] at hlt hslot
  rw [entryAt_tableIn host hlt] at hslot
  exact ⟨hlt, hslot⟩

theorem PlaceAt.slot_zero (hpos : 0 < d.dirSlots l) (h : (d.dirEntry l 0).isFree = true) : k = 0 := by
  rw [hp.size, dirSize_div, hp.table] at hk
  rw [← hk]
  exact slotFor_first (by rwa [entryAt_tableIn host hpos]) hpos

omit hk in
/-- The entries of the table that is written. -/
theorem PlaceAt.entryAt_written {i : Nat} (hi : i < d.dirSlots l) :
    entryAt (tableWith p.table k new (p.dir.touch new)) i =
      if i = k then new else if i = 0 then (d.dirEntry l 0).touch new else d.dirEntry l i := by
  rw [entryAt_tableWith, hp.table, entryAt_tableIn host hi, entryAt_tableIn host (by omega)]

include ht hnew

/-- The write of the directory adds the entry, if its first entry keeps its time stamps or stands for
no file. -/
theorem PlaceAt.adds {d1 : FatDisk} (hfree : ∃ i < d.dirSlots l, (d.dirEntry l i).isFree = true)
    (hfirst : k ≠ 0 → Bystander (d.dirEntry l 0) →
      (d.dirEntry l 0).touch (DirEntry.init host.now) = d.dirEntry l 0)
    (hwrote : d.WroteDir l (tableWith p.table k new (p.dir.touch new)) d1) :
    d.AddsEntry host.now l p.name d1 k new := by
  obtain ⟨-, -, -, -, htouch⟩ := new_eq hnew
  obtain ⟨hklt, hkfree⟩ := hp.slot hk hfree
  refine AddsEntry.of_write ht hp.isDir hwrote hklt hkfree hnew
    (by rw [hp.entryAt_written hklt, if_pos rfl]) fun j hj hne => ?_
  rw [hp.entryAt_written hj, if_neg hne]
  by_cases hzero : j = 0
  · subst hzero
    rw [if_pos rfl]
    refine Kept.touched fun hb => ?_
    rw [htouch]
    exact hfirst (Ne.symm hne) hb
  · rw [if_neg hzero]
    exact .inl rfl

omit ht hnew hk in
theorem PlaceAt.writeParent_root {d1 : FatDisk} (hl : l = []) (table : Buffer) :
    d1.writeParent host p (p.dir.touch new) table =
      d1.writeFileFrom (p.upper host.junk (p.dir.touch new)).1 WALK_LIMIT (entryAt table 0)
        (p.upper host.junk (p.dir.touch new)).2 := by
  have hroot : (p.dir.touch new).isRoot = true := (hp.known.touch new).isRoot_iff.mpr hl
  rw [writeParent, Place.upper]
  cases p.outer with
  | none =>
    dsimp only
    rw [if_pos hroot]
  | some o =>
    dsimp only
    rw [if_pos hroot]

/-- Under an entry of the root directory whose file holds what is stored, the second write leaves the
tree alone. -/
theorem StoresAlike.second {d1 : FatDisk} {size : Nat} {buf : Buffer} (hl : l = [])
    (hroot : d.RootFits) (hfree : ∃ i < d.dirSlots l, (d.dirEntry l i).isFree = true)
    (hwrote : d.WroteDir l (tableWith p.table k new (p.dir.touch new)) d1)
    (halike : d.StoresAlike host.now p.name (d.dirEntry [] 0) size buf) :
    ∃ d2, d1.writeFileFrom size WALK_LIMIT ((d.dirEntry [] 0).touch new) buf = .ok (true, d2) ∧
      ∃ i, d.AddsEntry host.now l p.name d2 i new := by
  subst hl
  have hpos : 0 < d.dirSlots [] := by
    obtain ⟨j, hj, -⟩ := hfree
    omega
  have hadds := fun h => hp.adds ht hnew hk hfree h hwrote
  have hd1 := hwrote.sound ht.sound
  rw [StoresAlike] at halike
  split at halike
  · -- the root directory itself
    rename_i hfirst
    obtain ⟨hsize, i, hi, hifree, hinamed, hikept⟩ := halike
    have hat : d.DirAt ((d.dirEntry [] 0).touch new) [] := by
      have hzero := hfirst
      rw [DirEntry.isRoot, Bool.and_eq_true, beq_iff_eq] at hzero
      refine ⟨?_, hzero.1, fun h => ?_⟩
      · rw [Clusters, if_pos]
        exact hzero.2
      · rw [show ((d.dirEntry [] 0).touch new).isRoot = true from hfirst] at h
        cases h
    obtain ⟨d2, hwrite, hagain⟩ := hwrote.again ht.sound ht.mark hroot hat (.inl rfl) (Nat.zero_le _)
      hsize buf
    have hentry : entryAt buf i = new := Option.some.inj (hinamed.symm.trans hnew)
    exact ⟨d2, hwrite, i, AddsEntry.of_write ht .root (hwrote.trans hagain) hi hifree hnew hentry hikept⟩
  · rename_i hfirst
    rw [Bool.not_eq_true] at hfirst
    obtain ⟨hok, f, n, hf, hbytes, hle, hcount, hspace, hcond⟩ := halike
    have hvalid := valid_of_not_refused hok
    have hdisj : f.Disjoint [] := List.disjoint_nil_right f
    cases hdir : (d.dirEntry [] 0).isDirectory with
    | true =>
      rw [if_pos hdir] at hcond
      have hat : d.DirAt (d.dirEntry [] 0) f := ⟨hf, hdir, fun _ => hvalid⟩
      have hne : f ≠ [] := fun hnil => by
        rw [hat.isRoot_iff.mpr hnil] at hfirst
        cases hfirst
      obtain rfl : d.dirSize f = n := Except.ok.inj ((hat.fileSize ht.sound).symm.trans hbytes)
      obtain ⟨d2, hwrite, hagain⟩ := hwrote.again ht.sound ht.mark hroot (hat.touch new) (.inr hdisj)
        hspace hle buf
      exact ⟨d2, hwrite, k, (hadds fun _ hb => absurd hb (not_bystander_directory hvalid hdir)).rewrite ht
        hwrote.bpb .root (.sub .root hpos hvalid hdir hf) hne hagain hcond⟩
    | false =>
      rw [hdir, if_neg Bool.false_ne_true] at hcond
      obtain ⟨hstamps, hdata⟩ := hcond
      obtain ⟨d2, hwrite, hsame⟩ := hwrote.rewrites_file ht hfirst hok hdir hf hbytes hle hcount hspace
        hdata
      exact ⟨d2, hwrite, k, (hadds fun _ _ => hstamps).unchanged ht hwrote.bpb hd1 .root hsame⟩

/-- In the root directory, the first entry stands for the directory above. -/
theorem RootMayGrow.second {d1 : FatDisk} (hl : l = []) (hgrow : d.RootMayGrow host p)
    (hroot : d.RootFits) (hfree : ∃ i < d.dirSlots l, (d.dirEntry l i).isFree = true)
    (hwrote : d.WroteDir l (tableWith p.table k new (p.dir.touch new)) d1) :
    ∃ d2, d1.writeParent host p (p.dir.touch new) (tableWith p.table k new (p.dir.touch new)) =
      .ok (true, d2) ∧ ∃ i, d.AddsEntry host.now l p.name d2 i new := by
  obtain ⟨-, hregular, hfirst, hsize, htouch⟩ := new_eq hnew
  have hpos : 0 < d.dirSlots l := by
    obtain ⟨j, hj, -⟩ := hfree
    omega
  have hentry : entryAt (tableWith p.table k new (p.dir.touch new)) 0 = _ := hp.entryAt_written hpos
  rw [hp.writeParent_root hl]
  by_cases hslot : (d.dirEntry l 0).isFree = true
  · -- the new entry is the first one
    have hk0 := hp.slot_zero hk hpos hslot
    rw [if_pos hk0.symm] at hentry
    rw [hentry]
    exact ⟨_, writeFileFrom_empty hregular hfirst hsize _ _, k,
      (hp.adds ht hnew hk hfree (fun h => absurd hk0 h) hwrote).unchanged ht hwrote.bpb
        (hwrote.sound ht.sound) hp.isDir (unchanged_dirty d1)⟩
  · have hk0 : 0 ≠ k := by
      rintro rfl
      exact hslot (hp.slot hk hfree).2
    rw [if_neg hk0, if_pos rfl] at hentry
    rw [hentry]
    subst hl
    rcases hgrow with hslot' | halike
    · exact absurd hslot' hslot
    · rw [← htouch p.dir] at halike
      exact halike.second ht hp hnew hk rfl hroot hfree hwrote

omit hnew hk in
/-- Below, it is written with the other time stamps of the directory. -/
theorem MayGrow.second {d1 : FatDisk} (hl : l ≠ []) (hgrow : d.MayGrow host.now p l)
    (hroot : d.RootFits) (hwrote : d.WroteDir l (tableWith p.table k new (p.dir.touch new)) d1)
    (hadds : d.AddsEntry host.now l p.name d1 k new) :
    ∃ d2, d1.writeParent host p (p.dir.touch new) (tableWith p.table k new (p.dir.touch new)) =
      .ok (true, d2) ∧ ∃ i, d.AddsEntry host.now l p.name d2 i new := by
  obtain ⟨o, lo, ho, hlo⟩ := hp.outer_of_sub hl
  obtain ⟨hspace, hne⟩ := hgrow.above o ho lo hlo.known.clusters
  obtain ⟨d2, hwrite, hsecond⟩ := hwrote.again ht.sound ht.mark hroot hlo.known
    (ht.apart lo l hlo.isDir hp.isDir) hspace (Nat.le_refl _)
    (storeEntry o.table o.slot (p.dir.touch new))
  refine ⟨d2, ?_, k, hadds.rewrite ht hwrote.bpb hp.isDir hlo.isDir hne hsecond
    fun j hj => hlo.kept hp.known.directory hj⟩
  rw [writeParent, ho]
  dsimp only
  rw [(hp.known.touch new).not_root hl, if_neg Bool.false_ne_true, hlo.size]
  exact hwrite

omit hk in
/-- **`CreateFile` behind its walk** adds the entry where it can be made. -/
theorem Creatable.createIn {path : CString} (hc : d.Creatable host path p l) :
    ∃ dir d' i, d.createIn host p = .ok (some (new, dir), d') ∧
      d.AddsEntry host.now l p.name d' i new := by
  obtain ⟨k, hk⟩ : ∃ k, slotFor p.table (p.size / DIR_ENTRY_SIZE) = k := ⟨_, rfl⟩
  obtain ⟨hklt, hkfree⟩ := hp.slot hk hc.free
  have hwrites := hc.writes
  have hspace : l.length ≤ d.countFreeClusters := by
    split at hwrites
    · rename_i hl
      rw [hl]
      exact Nat.zero_le _
    · exact hwrites.space
  obtain ⟨d1, hwrite, hwrote⟩ := (hp.known.touch new).writeFileFrom ht.sound ht.mark
    (fun _ => hc.root) hspace (Nat.le_refl _) (tableWith p.table k new (p.dir.touch new))
  obtain ⟨d2, hsecond, i, hadded⟩ : ∃ d2, d1.writeParent host p (p.dir.touch new)
      (tableWith p.table k new (p.dir.touch new)) = .ok (true, d2) ∧
        ∃ i, d.AddsEntry host.now l p.name d2 i new := by
    split at hwrites
    · exact hwrites.second ht hp hnew hk ‹_› hc.root hc.free hwrote
    · exact hwrites.second ht hp ‹_› hc.root hwrote
        (hp.adds ht hnew hk hc.free (fun _ => hwrites.first) hwrote)
  refine ⟨p.dir.touch new, d2, i, createIn_true hk ?_ hnew ?_ hsecond, hadded⟩
  · rw [hp.size]
    exact d.slot_le l hklt
  · rw [hp.size]
    exact hwrite

end Create

end FatDisk

end Ohwes.Fatfs

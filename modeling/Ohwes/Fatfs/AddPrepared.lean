import Ohwes.Fatfs.CreateFile
import Ohwes.Fatfs.PathLookup

/-! # What `add` prepares for a path

`FindFile` fills in a parent also where the path breaks off before its last name: the directory that
it breaks off in. `Add` takes that for the directory of the new file. -/

namespace Ohwes.Fatfs
open Library
set_option autoImplicit false

/-- An entry for the file, under the last name of the path. -/
structure AddArgs.Describes (a : AddArgs) (e : DirEntry) : Prop where
  named : ∃ name, (pathTokens a.dst).getLast? = some name ∧ shortLabel name = some e.label
  sized : e.fileSize.toNat = a.data.length

namespace FatDisk
variable (d : FatDisk) (a : AddArgs)

/-- What it takes for `Add` to begin to write a new file, with the directory `dir` for its parent. -/
structure Ready (dir : DirEntry) (size : Nat) (table : Buffer) (k : Nat) : Prop where
  small : a.data.length ≤ UINT32_MAX
  path : a.dst.length < MAX_PATH
  known : d.HasTable a.host dir size table
  slot : firstFree table (size / DIR_ENTRY_SIZE) = .ok (some k)
  named : shortLabel (getFileName a.dst) ≠ none

/-- `Add` fails before it writes: the file is too large, the directory cannot be read or is full, or
the name is not taken. -/
def Refuses (dir : DirEntry) : Prop :=
  UINT32_MAX < a.data.length ∨ a.dst.length < MAX_PATH ∧
    (d.Unreadable dir ∨ ∃ size table r, d.HasTable a.host dir size table ∧
      firstFree table (size / DIR_ENTRY_SIZE) = .ok r ∧
      (r = none ∨ shortLabel (getFileName a.dst) = none))

variable {d a} {dir e : DirEntry} {left : List CString} {size k : Nat} {table : Buffer}

/-! ## What `Add` prepares -/

theorem describe_describes (he : describe a e = some dir) (hsize : a.data.length < 4294967296) :
    a.Describes dir := by
  have hfile := (describe_eq he).2.2.2
  rw [describe, DirEntry.setShortName, Option.map_map] at he
  obtain ⟨label, hlabel, hdir⟩ := Option.map_eq_some_iff.mp he
  have hname : dir.label = label := by
    rw [← hdir]
    rfl
  refine ⟨⟨getFileName a.dst, getFileName_last ?_, hname ▸ hlabel⟩, ?_⟩
  · rw [hlabel]
    exact Option.some_ne_none label
  · rw [hfile, BitVec.toNat_ofNat]
    exact Nat.mod_eq_of_lt hsize

/-- The entry of a new file. -/
def newEntry (d : FatDisk) (a : AddArgs) : DirEntry :=
  { DirEntry.init a.host.now with firstCluster := BitVec.ofNat 16 d.findNextFreeCluster }

theorem describe_newEntry (h : shortLabel (getFileName a.dst) ≠ none) :
    ∃ e, describe a (d.newEntry a) = some e := by
  obtain ⟨label, hlabel⟩ := Option.ne_none_iff_exists'.mp h
  rw [describe, DirEntry.setShortName, hlabel]
  exact ⟨_, rfl⟩

theorem describe_none {e : DirEntry} (h : shortLabel (getFileName a.dst) = none) :
    describe a e = none := by
  rw [describe, DirEntry.setShortName, h]
  rfl

theorem HasTable.prepareIn (ht : d.HasTable a.host dir size table) {r : Option Nat}
    (hr : firstFree table (size / DIR_ENTRY_SIZE) = .ok r) :
    d.prepareIn a none dir = .ok (r.bind fun k =>
      (describe a (d.newEntry a)).map fun e => ⟨dir, table, k, e⟩) := by
  obtain ⟨bs, hread, rfl⟩ := ht.read
  rw [FatDisk.prepareIn, ht.alloc, ok_bind, hread, ok_bind]
  dsimp only
  rw [chooseSlot, hr]
  cases r <;> rfl

section Stopped
variable (h : d.Stops a.host rootDirEntry (pathTokens a.dst) dir left)
include h

theorem Stops.findFile (hpath : a.dst.length < MAX_PATH) :
    d.findFile a.host a.dst = .ok (none, some dir) := by
  rw [FatDisk.findFile, if_neg (Nat.not_le.mpr hpath)]
  exact h.walkPath none

/-- Nothing was found, so a new entry is prepared in the directory where the names stop. -/
theorem Stops.prepareAdd (hsize : a.data.length ≤ UINT32_MAX) (hpath : a.dst.length < MAX_PATH) :
    d.prepareAdd a = d.prepareIn a none dir := by
  rw [FatDisk.prepareAdd, if_neg (Nat.not_lt.mpr hsize), h.findFile hpath]
  rfl

theorem Stops.refuses (hr : d.Refuses a dir) : d.prepareAdd a = .ok none := by
  by_cases hsize : a.data.length ≤ UINT32_MAX
  · obtain ⟨hpath, hr⟩ := hr.resolve_left (Nat.not_lt.mpr hsize)
    rw [h.prepareAdd hsize hpath]
    rcases hr with hr | ⟨size, table, r, ht, hfree, hr⟩
    · obtain ⟨size, halloc⟩ := hr.alloc
      rw [prepareIn, halloc, ok_bind, hr.read]
      rfl
    · rw [ht.prepareIn hfree]
      rcases hr with rfl | hname
      · rfl
      · rw [describe_none hname]
        cases r <;> rfl
  · rw [FatDisk.prepareAdd, if_pos (Nat.not_le.mp hsize)]

theorem Stops.ready (hr : d.Ready a dir size table k) : ∃ e, describe a (d.newEntry a) = some e ∧
    d.prepareAdd a = .ok (some ⟨dir, table, k, e⟩) := by
  obtain ⟨e, he⟩ := describe_newEntry (d := d) hr.named
  refine ⟨e, he, ?_⟩
  rw [h.prepareAdd hr.small hr.path, hr.known.prepareIn hr.slot, he]
  rfl

/-- `Add` refuses, is ready, or leaves the buffers that it has. -/
theorem Stops.outcome : d.Refuses a dir ∨ (∃ size table k, d.Ready a dir size table k) ∨
    d.prepareAdd a = .error .fault := by
  by_cases hsize : a.data.length ≤ UINT32_MAX
  · by_cases hpath : a.dst.length < MAX_PATH
    · rcases h.probed with hr | ⟨size, table, ht⟩
      · exact .inl (.inr ⟨hpath, .inl hr⟩)
      · cases hfree : firstFree table (size / DIR_ENTRY_SIZE) with
        | error e =>
          have hfault : e = .fault := by
            rw [firstFree] at hfree
            split at hfree
            · exact (Except.error.inj hfree).symm
            · cases hfree
          obtain ⟨bs, hread, rfl⟩ := ht.read
          refine .inr (.inr ?_)
          rw [h.prepareAdd hsize hpath, prepareIn, ht.alloc, ok_bind, hread, ok_bind]
          dsimp only
          rw [chooseSlot, hfree, hfault]
          rfl
        | ok r =>
          by_cases hname : shortLabel (getFileName a.dst) = none
          · exact .inl (.inr ⟨hpath, .inr ⟨size, table, r, ht, hfree, .inr hname⟩⟩)
          · cases r with
            | none => exact .inl (.inr ⟨hpath, .inr ⟨size, table, none, ht, hfree, .inl rfl⟩⟩)
            | some k => exact .inr (.inl ⟨size, table, k, hsize, hpath, ht, hfree, hname⟩)
    · refine .inr (.inr ?_)
      rw [FatDisk.prepareAdd, if_neg (Nat.not_lt.mpr hsize), FatDisk.findFile,
        if_pos (Nat.not_lt.mp hpath)]
      rfl
  · exact .inl (.inl (Nat.not_le.mp hsize))

end Stopped

/-- The slot that is chosen is in the table. -/
theorem chooseSlot_lt {found : Option DirEntry}
    (h : d.chooseSlot a found table size = .ok (some (k, e))) : k < size / DIR_ENTRY_SIZE := by
  cases found with
  | some f =>
    rw [chooseSlot] at h
    obtain ⟨r, hfind, h⟩ := bind_ok.mp h
    cases r with
    | none => cases h
    | some j =>
      obtain ⟨-, h⟩ := assert_bind_ok.mp h
      obtain rfl : j = k := (Prod.mk.inj (Option.some.inj (Except.ok.inj h))).1
      exact findLoop_lt hfind
  | none =>
    rw [chooseSlot] at h
    obtain ⟨r, hfree, h⟩ := bind_ok.mp h
    cases r with
    | none => cases h
    | some j =>
      obtain rfl : j = k := (Prod.mk.inj (Option.some.inj (Except.ok.inj h))).1
      obtain ⟨-, hfind⟩ := ok_of_ite_error hfree
      exact List.mem_range.mp (List.mem_of_find?_eq_some (Except.ok.inj hfind))

/-- Where a path breaks off in its last name only, the parent is the directory that it names. -/
theorem findFile_parent {found : Option DirEntry}
    (hb : ∀ dir left, d.Stops a.host rootDirEntry (pathTokens a.dst) dir left → left = [])
    (h : d.findFile a.host a.dst = .ok (found, some dir)) : dir.isDirectory = true ∧
      d.Descends a.host rootDirEntry (pathTokens a.dst).dropLast dir := by
  have hroot : rootDirEntry.isDirectory = true := by decide
  obtain ⟨-, h⟩ := ok_of_ite_error h
  cases found with
  | none =>
    obtain ⟨dir', left, hdir, hstops⟩ := walkPath_none hroot h
    obtain rfl := Option.some.inj hdir
    obtain rfl := hb dir left hstops
    exact ⟨hstops.probed.directory, hstops.descends⟩
  | some f =>
    cases hpath : pathTokens a.dst with
    | nil =>
      rw [hpath] at h
      exact nomatch (Prod.mk.inj (Except.ok.inj h)).2
    | cons name names =>
      rw [hpath] at h
      obtain ⟨dir', hdir, hdirectory, hdescends⟩ := walkPath_some hroot h
      obtain rfl := Option.some.inj hdir
      exact ⟨hdirectory, hdescends⟩

/-- What is prepared is an entry for the directory that the path names. -/
theorem prepareAdd_leads {p : Prepared} (hp : d.prepareAdd a = .ok (some p))
    (hb : ∀ dir left, d.Stops a.host rootDirEntry (pathTokens a.dst) dir left → left = []) :
    d.Descends a.host rootDirEntry (pathTokens a.dst).dropLast p.parent ∧ a.Describes p.entry ∧
      ∃ size, d.HasTable a.host p.parent size p.table ∧ p.slot < size / DIR_ENTRY_SIZE := by
  rw [prepareAdd] at hp
  split at hp
  · cases hp
  · rename_i hsize
    obtain ⟨⟨found, parent⟩, hfind, hp⟩ := bind_ok.mp hp
    dsimp only at hp
    split at hp
    · cases hp
    · cases parent with
      | none => cases hp
      | some dir =>
        obtain ⟨hdir, hdescends⟩ := findFile_parent hb hfind
        obtain ⟨size, halloc, hp⟩ := bind_ok.mp hp
        obtain ⟨read, hread, hp⟩ := bind_ok.mp hp
        cases read with
        | none => cases hp
        | some bs =>
          obtain ⟨r, hchoose, hp⟩ := bind_ok.mp hp
          cases r with
          | none => cases hp
          | some s =>
            obtain ⟨slot, e⟩ := s
            obtain ⟨e', he', rfl⟩ := Option.map_eq_some_iff.mp (Except.ok.inj hp)
            rw [UINT32_MAX] at hsize
            exact ⟨hdescends, describe_describes he' (by omega), size, ⟨hdir, halloc, bs, hread, rfl⟩,
              chooseSlot_lt hchoose⟩

/-- Both writes of a command that succeeds. -/
theorem commitAdd_true {p : Prepared} {d2 : FatDisk} (h : d.commitAdd a p = .ok (true, d2)) :
    ∃ d1, d.writeFile WALK_LIMIT p.entry (filled a.host.junk a.data) = .ok (true, d1) ∧
      d1.writeFile WALK_LIMIT p.parent (storeEntry p.table p.slot p.entry) = .ok (true, d2) := by
  obtain ⟨⟨success, d1⟩, hfile, h⟩ := bind_ok.mp h
  cases success with
  | true => exact ⟨d1, hfile, h⟩
  | false => cases h

end FatDisk

/-! ## The command -/

section Command
variable {img : Image} {a : AddArgs} {d : FatDisk}

theorem add_none (hopen : openDisk a.host img a.sector = .ok (some d))
    (hp : d.prepareAdd a = .ok none) : add img a = .ok (false, ⟨d.close.file, img.size⟩) := by
  rw [add, hopen]
  dsimp only
  rw [hp]

theorem add_some (hopen : openDisk a.host img a.sector = .ok (some d)) {p : Prepared}
    (hp : d.prepareAdd a = .ok (some p)) :
    add img a = (d.commitAdd a p).map fun r => (r.1, ⟨r.2.close.file, img.size⟩) := by
  rw [add, hopen]
  dsimp only
  rw [hp]
  dsimp only
  cases d.commitAdd a p <;> rfl

theorem add_fault (hopen : openDisk a.host img a.sector = .ok (some d))
    (hp : d.prepareAdd a = .error .fault) : add img a = .error .fault := by
  rw [add, hopen]
  dsimp only
  rw [hp]

/-- A command that succeeds has written what it prepared. -/
theorem add_true (hopen : openDisk a.host img a.sector = .ok (some d)) {img' : Image}
    (h : add img a = .ok (true, img')) : ∃ p d2, d.prepareAdd a = .ok (some p) ∧
      d.commitAdd a p = .ok (true, d2) ∧ img' = ⟨d2.close.file, img.size⟩ := by
  cases hp : d.prepareAdd a with
  | error e =>
    rw [add, hopen] at h
    dsimp only at h
    rw [hp] at h
    cases e <;> exact nomatch h
  | ok r =>
    cases r with
    | none =>
      rw [add_none hopen hp] at h
      cases h
    | some p =>
      rw [add_some hopen hp] at h
      cases hc : d.commitAdd a p with
      | error e =>
        rw [hc] at h
        exact nomatch h
      | ok r =>
        rw [hc] at h
        obtain ⟨hsuccess, himg⟩ := Prod.mk.inj (Except.ok.inj h)
        exact ⟨p, r.2, rfl, by rw [hc, ← hsuccess], himg.symm⟩

end Command

end Ohwes.Fatfs

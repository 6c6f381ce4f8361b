import Ohwes.Fatfs.Mount

/-! # `tools/fatfs/Command_Add.cpp`

The command finds a place for the file in its directory, then writes the file and the directory. It
keeps the FAT in memory until the disk is closed. -/

namespace Ohwes.Fatfs
set_option autoImplicit false

def UINT32_MAX : Nat := 4294967295

/-- What `add` is given: the options, the target path, and the contents of the source file. -/
structure AddArgs where
  host : Host
  sector : BitVec 32 := 0
  force : Bool
  dst : CString
  data : List Byte

/-- The variables of `Add` when it begins to write: the parent's entry and table, and the entry of
the file with its slot. -/
structure Prepared where
  parent : DirEntry
  table : Buffer
  slot : Nat
  entry : DirEntry

/-- The search for the next available slot; it looks at the first entry whatever the size. -/
def firstFree (table : Buffer) (count : Nat) : Call (Option Nat) :=
  if count = 0 then .error .fault
  else .ok ((List.range count).find? fun i => (entryAt table i).isFree)

namespace FatDisk
variable (d : FatDisk) (a : AddArgs)

/-- The slot of the file and the entry it starts from. -/
def chooseSlot (found : Option DirEntry) (table : Buffer) (dirSize : Nat) :
    Call (Option (Nat × DirEntry)) :=
  match found with
  | some f => do
    match ← findFileInDir a.host table dirSize (getFileName a.dst) with
    | none => return none
    | some k =>
      assert (entryAt table k == f)
      return some (k, f)
  | none => do
    match ← firstFree table (dirSize / DIR_ENTRY_SIZE) with
    | none => return none
    | some k =>
      return some (k, { DirEntry.init a.host.now with
        firstCluster := BitVec.ofNat 16 d.findNextFreeCluster })

/-- The entry with its times, its name and its size, if the name is taken. -/
def describe (e : DirEntry) : Option DirEntry :=
  ((((e.setCreationTime a.host.now).setModifiedTime a.host.now).setAccessedTime
    a.host.now).setShortName (getFileName a.dst)).map fun e =>
      { e with fileSize := BitVec.ofNat 32 a.data.length }

def prepareIn (found : Option DirEntry) (parent : DirEntry) : Call (Option Prepared) := do
  let dirSize ← d.getFileAllocSize WALK_LIMIT parent
  match ← d.readFile WALK_LIMIT parent with
  | none => return none
  | some bs =>
    let table := filled a.host.junk bs
    match ← d.chooseSlot a found table dirSize with
    | none => return none
    | some (slot, e) => return (describe a e).map fun e => ⟨parent, table, slot, e⟩

/-- `Add` up to its first write. Where the path names nothing, the parent's entry is not set. -/
def prepareAdd : Call (Option Prepared) :=
  if a.data.length > UINT32_MAX then .ok none
  else do
    let (found, parent) ← d.findFile a.host a.dst
    if found.isSome && !a.force then return none
    else
      match parent with
      | none => .error .fault
      | some parent => d.prepareIn a found parent

def commitAdd (p : Prepared) : Call (Bool × FatDisk) := do
  let (success, d) ← d.writeFile WALK_LIMIT p.entry (filled a.host.junk a.data)
  if success then d.writeFile WALK_LIMIT p.parent (storeEntry p.table p.slot p.entry)
  else return (false, d)

end FatDisk

/-- `Add`: whether it succeeds, and the image it leaves. An assertion that fails before the first
write leaves the image alone. -/
def add (img : Image) (a : AddArgs) : Call (Bool × Image) :=
  match openDisk a.host img a.sector with
  | .error h => .error h
  | .ok none => .ok (false, img)
  | .ok (some d) =>
    match d.prepareAdd a with
    | .error .assertion => .ok (false, img)
    | .error h => .error h
    | .ok none => .ok (false, ⟨d.close.file, img.size⟩)
    | .ok (some p) => do
      let (success, d) ← d.commitAdd a p
      return (success, ⟨d.close.file, img.size⟩)

end Ohwes.Fatfs

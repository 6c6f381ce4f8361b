import Ohwes.Fatfs.Add
import Ohwes.Fatfs.CreateFile

/-! # `tools/fatfs/Command_Attr.cpp`

The command changes the attributes of an entry in the table of its directory and writes the table
back. Without an option that changes something it only prints them. -/

namespace Ohwes.Fatfs
set_option autoImplicit false

namespace DirEntry
variable (e : DirEntry) (attr : Byte)

def clearAttribute : DirEntry := { e with attributes := e.attributes &&& ~~~attr }

/-- An option that sets the attribute, clears it, or leaves it. -/
def updateAttribute : Option Bool → DirEntry
  | none => e
  | some true => e.setAttribute attr
  | some false => e.clearAttribute attr

end DirEntry

/-- What `attr` is given: the target path and the options. -/
structure AttrArgs where
  host : Host
  sector : BitVec 32 := 0
  file : CString
  updateArc : Option Bool := none
  updateHid : Option Bool := none
  updateRdo : Option Bool := none
  updateSys : Option Bool := none
  updateDev : Option Bool := none
  updateLab : Option Bool := none

namespace AttrArgs
variable (a : AttrArgs)

def update : Bool :=
  a.updateArc.isSome || a.updateHid.isSome || a.updateRdo.isSome || a.updateSys.isSome ||
    a.updateDev.isSome || a.updateLab.isSome

/-- The entry with the attributes that the options ask for. -/
def apply (e : DirEntry) : DirEntry :=
  (((((e.updateAttribute ATTR_ARCHIVE a.updateArc).updateAttribute ATTR_HIDDEN a.updateHid).updateAttribute
    ATTR_READONLY a.updateRdo).updateAttribute ATTR_SYSTEM a.updateSys).updateAttribute ATTR_DEVICE
    a.updateDev).updateAttribute ATTR_LABEL a.updateLab

end AttrArgs

/-- What `Attr` does once it has looked: it is over, or a table goes back to its directory. -/
inductive AttrPlan
  | done (success : Bool)
  | write (parent : DirEntry) (dirTable : Buffer)

namespace FatDisk
variable (d : FatDisk) (a : AttrArgs)

/-- The table of the directory with the entry `f` changed. -/
def changedTable (f parent : DirEntry) : Call (Option Buffer) := do
  let tableSizeBytes ← d.getFileAllocSize WALK_LIMIT parent
  match ← d.readFile WALK_LIMIT parent with
  | none => return none
  | some bs =>
    let dirTable := filled a.host.junk bs
    match ← findFileInDir a.host dirTable tableSizeBytes (getFileName a.file) with
    | none => return none
    | some k =>
      assert (entryAt dirTable k == f)
      return some (storeEntry dirTable k (a.apply f))

/-- `Attr` on an open disk, up to its write. What is found below the root has a parent. -/
def planAttr : Call AttrPlan := do
  match ← d.findFile a.host a.file with
  | (none, _) => return .done false
  | (some f, parent) =>
    if f.isRoot then return .done false
    else if !a.update then return .done true
    else
      match parent with
      | none => .error .fault
      | some parent => return (← d.changedTable a f parent).elim (.done false) (.write parent)

end FatDisk

/-- `Attr`: whether it succeeds, and the image it leaves. An assertion that fails before the write
leaves the image alone. -/
def attr (img : Image) (a : AttrArgs) : Call (Bool × Image) :=
  match openDisk a.host img a.sector with
  | .error h => .error h
  | .ok none => .ok (false, img)
  | .ok (some d) =>
    match d.planAttr a with
    | .error .assertion => .ok (false, img)
    | .error h => .error h
    | .ok (.done success) => .ok (success, ⟨d.close.file, img.size⟩)
    | .ok (.write parent dirTable) => do
      let (success, d) ← d.writeFile WALK_LIMIT parent dirTable
      return (success, ⟨d.close.file, img.size⟩)

end Ohwes.Fatfs

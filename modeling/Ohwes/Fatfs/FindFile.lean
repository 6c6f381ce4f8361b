import Ohwes.Fatfs.DirTable
import Ohwes.Fatfs.FatDisk

/-! # Looking up names

A name on the command line is compared with the short names of a directory without regard to case,
and with the long names that precede them. -/

namespace Ohwes.Fatfs
open Library
set_option autoImplicit false

/-- What the host supplies to a run of the tool: `mbstowcs` of its locale, what memory holds before
something is stored there, and the time. -/
structure Host where
  wide : CString → List (BitVec 32)
  junk : Buffer
  wideJunk : Nat → BitVec 32
  dirtyJunk : Bool
  now : Tm

def SHORTNAME_LENGTH : Nat := NAME_LENGTH + 1 + EXTENSION_LENGTH
def MAX_SHORTNAME : Nat := SHORTNAME_LENGTH + 1
def LONGNAME_LENGTH : Nat := 255
def MAX_LONGNAME : Nat := LONGNAME_LENGTH + 1
def MAX_PATH : Nat := 512
def ChunkLength : Nat := 13
def MaxChainLength : Nat := 20

/-- `strncasecmp` of the host. -/
def strncasecmp : CString → CString → Nat → Int
  | _, _, 0 => 0
  | lhs, rhs, count + 1 =>
    let diff := ((tolower (lhs.headD 0)).toNat : Int) - (tolower (rhs.headD 0)).toNat
    if diff ≠ 0 ∨ lhs.headD 0 = 0 then diff else strncasecmp lhs.tail rhs.tail count

/-! ## Long names -/

namespace DirEntry
variable (e : DirEntry)

/-- An entry read as a `LongFileName`. -/
def sequenceNumber : Nat := (getElem e.label 0 label_pos &&& 0x3F).toNat

def firstInChain : Bool := getElem e.label 0 label_pos &&& 0x40 != 0

def checksum : Byte := e.reserved2

/-- `Name1`, `Name2` and `Name3`. -/
def linkChars : List (BitVec 16) :=
  [e.label[2] ++ e.label[1], e.label[4] ++ e.label[3], e.label[6] ++ e.label[5],
    e.label[8] ++ e.label[7], e.label[10] ++ e.label[9],
    e.creationTime, e.creationDate, e.accessedDate, e.reserved3, e.modifiedTime, e.modifiedDate,
    e.fileSize.extractLsb' 0 16, e.fileSize.extractLsb' 16 16]

def getShortNameChecksum : Byte :=
  e.label.toList.foldl (fun sum c => (if sum &&& 1 ≠ 0 then 0x80 else 0) + (sum >>> (1 : Nat)) + c) 0

end DirEntry

/-- The local variables of `GetLongName`; the key that `cksum` starts from cancels out. -/
structure LinkScan where
  dst : Nat → BitVec 32
  len : Nat
  count : Nat
  cksum : Byte
  lastsum : Byte

namespace DirEntry
variable (e : DirEntry)

/-- The characters of a link before the first NUL. -/
def yankedChars : List (BitVec 16) := e.linkChars.takeWhile (· != 0)

/-- What a link stores: the NUL as well. -/
def storedChars : List (BitVec 16) := e.linkChars.take (e.yankedChars.length + 1)

def bucket : Nat := (e.sequenceNumber - 1) * ChunkLength

end DirEntry

def LinkScan.yank (s : LinkScan) (e : DirEntry) : LinkScan where
  dst := overlay s.dst e.bucket (e.storedChars.map (·.zeroExtend 32))
  len := s.len + e.yankedChars.length
  count := s.count + 1
  cksum := s.cksum ^^^ e.checksum
  lastsum := e.checksum

/-- The loop of `GetLongName`. It may leave the table; the last link may leave the buffer behind its
end, and a link of number zero before its start. -/
def readLinks (table : Buffer) : Nat → Nat → LinkScan → Call (LinkScan × Nat)
  | 0, _, _ => .error .fault
  | slots + 1, i, s =>
    let e := entryAt table i
    if e.sequenceNumber > MaxChainLength then .error .assertion
    else if e.sequenceNumber = 0 ∨ e.bucket + e.storedChars.length > MAX_LONGNAME then
      .error .fault
    else if e.sequenceNumber > 1 then readLinks table slots (i + 1) (s.yank e)
    else .ok (s.yank e, i + 1)

section Lookup
variable (host : Host) (table : Buffer) (count : Nat)

/-- `GetLongName`: the name, and the index of the entry that it belongs to. -/
def getLongName (i : Nat) : Call (List (BitVec 32) × Nat) :=
  let e := entryAt table i
  if e.isDeleted || !e.isLongFileName || !e.firstInChain then .ok ([], i)
  else do
    let (s, j) ← readLinks table (count - i) i ⟨host.wideJunk, 0, 0, 0, 0⟩
    if j ≥ count then .error .fault
    else
      let cksum := if s.count % 2 = 1 then s.cksum ^^^ s.lastsum else s.cksum
      let matched := cksum == 0 && s.lastsum == (entryAt table j).getShortNameChecksum
      let len := if matched then s.len else 0
      if len ≥ MAX_LONGNAME then .error .fault
      else return ((slice s.dst 0 len).takeWhile (· != 0), j)

/-- A pass of `FindFileInDir`: whether the entry is the one looked for, and its index. -/
def tryEntry (name : CString) (i : Nat) : Call (Bool × Nat) := do
  let (longName, j) ←
    if (entryAt table i).isLongFileName then getLongName host table count i else .ok ([], i)
  return (strncasecmp (entryAt table j).getShortName name MAX_SHORTNAME == 0 ||
    longName != [] && longName.take MAX_LONGNAME == (host.wide name).take MAX_LONGNAME, j)

/-- The loop of `FindFileInDir`, which makes a pass for each entry at most. -/
def findLoop (name : CString) : Nat → Nat → Call (Option Nat)
  | 0, _ => .ok none
  | passes + 1, i =>
    if i ≥ count then .ok none
    else if (entryAt table i).isFree then findLoop name passes (i + 1)
    else do
      let (found, j) ← tryEntry host table count name i
      if found then return some j else findLoop name passes (j + 1)

end Lookup

/-- `FindFileInDir`: the index of the entry. -/
def findFileInDir (host : Host) (table : Buffer) (sizeBytes : Nat) (name : CString) :
    Call (Option Nat) :=
  findLoop host table (sizeBytes / DIR_ENTRY_SIZE) name (sizeBytes / DIR_ENTRY_SIZE) 0

/-! ## Paths -/

/-- What `strtok` finds in a path one after the other. -/
def pathTokens (path : CString) : List CString :=
  (path.splitOnP fun c => c == 0x2F || c == 0x5C).filter (· != [])

def getFileName (path : CString) : CString :=
  let name := path.rtakeWhile (· != 0x2F)
  if name = path then path.rtakeWhile (· != 0x5C) else name

/-- A buffer that was filled with the bytes. -/
def filled (junk : Buffer) (bs : List Byte) : Buffer := overlay junk 0 bs

namespace FatDisk
variable (d : FatDisk) (host : Host)

/-- `WalkPath` from the directory `base` on: the file, if it is found, and the last directory that
was looked into. -/
def walkPath : List CString → Option DirEntry → DirEntry →
    Call (Option DirEntry × Option DirEntry)
  | [], parent, base => .ok (some base, parent)
  | name :: path, parent, base =>
    if !base.isDirectory then .ok (none, parent)
    else do
      let sizeBytes ← d.getFileAllocSize WALK_LIMIT base
      match ← d.readFile WALK_LIMIT base with
      | none => return (none, some base)
      | some bs =>
        match ← findFileInDir host (filled host.junk bs) sizeBytes name with
        | none => return (none, some base)
        | some k => walkPath path (some base) (entryAt (filled host.junk bs) k)

/-- `FindFile`. A path that fills its copy leaves that without an end. -/
def findFile (path : CString) : Call (Option DirEntry × Option DirEntry) :=
  if path.length ≥ MAX_PATH then .error .fault
  else d.walkPath host (pathTokens path) none rootDirEntry

end FatDisk

end Ohwes.Fatfs

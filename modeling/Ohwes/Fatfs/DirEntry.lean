import Mathlib.Data.List.DropRight
import Ohwes.Libc.Ctype
import Ohwes.Fatfs.BootSector

/-! # `tools/fatfs/fat.c`: directory entries and short names

The characters of the host's C locale are those of `libc/ctype.c`: bytes from `0x80` on belong to no
class and have no case. -/

namespace Ohwes.Fatfs
set_option autoImplicit false

/-- `struct tm` of the host, as far as the date functions read it. -/
structure Tm where
  year : Int
  mon : Int
  mday : Int
  hour : Int
  min : Int
  sec : Int
  deriving DecidableEq

structure DirEntry where
  label : Vector Byte 11
  attributes : Byte
  reserved1 : Byte
  reserved2 : Byte
  creationTime : BitVec 16
  creationDate : BitVec 16
  accessedDate : BitVec 16
  reserved3 : BitVec 16
  modifiedTime : BitVec 16
  modifiedDate : BitVec 16
  firstCluster : BitVec 16
  fileSize : BitVec 32
  deriving DecidableEq

def ATTR_READONLY : Byte := 0x01
def ATTR_HIDDEN : Byte := 0x02
def ATTR_SYSTEM : Byte := 0x04
def ATTR_LABEL : Byte := 0x08
def ATTR_DIRECTORY : Byte := 0x10
def ATTR_ARCHIVE : Byte := 0x20
def ATTR_DEVICE : Byte := 0x40
def ATTR_LFN : Byte := ATTR_LABEL ||| ATTR_SYSTEM ||| ATTR_HIDDEN ||| ATTR_READONLY

/-- The bit fields of a `FatDate`. -/
def fatDate (tm : Tm) : BitVec 16 :=
  BitVec.ofInt 7 (tm.year - 80) ++ BitVec.ofInt 4 (tm.mon + 1) ++ BitVec.ofInt 5 tm.mday

/-- The bit fields of a `FatTime`. -/
def fatTime (tm : Tm) : BitVec 16 :=
  BitVec.ofInt 5 tm.hour ++ BitVec.ofInt 6 tm.min ++ BitVec.ofInt 5 (tm.sec / 2)

namespace DirEntry
variable (e : DirEntry)

/-- The 32 bytes of the entry. -/
def bytes : List Byte :=
  e.label.toList ++ [e.attributes, e.reserved1, e.reserved2] ++
  littleEndian 2 e.creationTime ++ littleEndian 2 e.creationDate ++
  littleEndian 2 e.accessedDate ++ littleEndian 2 e.reserved3 ++
  littleEndian 2 e.modifiedTime ++ littleEndian 2 e.modifiedDate ++
  littleEndian 2 e.firstCluster ++ littleEndian 4 e.fileSize

theorem bytes_length : e.bytes.length = DIR_ENTRY_SIZE := by
  simp [bytes, DIR_ENTRY_SIZE]

def zero : DirEntry where
  label := Vector.replicate 11 0
  attributes := 0
  reserved1 := 0
  reserved2 := 0
  creationTime := 0
  creationDate := 0
  accessedDate := 0
  reserved3 := 0
  modifiedTime := 0
  modifiedDate := 0
  firstCluster := 0
  fileSize := 0

def setCreationTime (tm : Tm) : DirEntry :=
  { e with creationDate := fatDate tm, creationTime := fatTime tm }

def setModifiedTime (tm : Tm) : DirEntry :=
  { e with modifiedDate := fatDate tm, modifiedTime := fatTime tm }

def setAccessedTime (tm : Tm) : DirEntry := { e with accessedDate := fatDate tm }

/-- `InitDirEntry`, at the time `now`. -/
def init (now : Tm) : DirEntry :=
  ((zero.setCreationTime now).setModifiedTime now).setAccessedTime now

def setLabel (src : CString) : DirEntry := { e with label := writeFatString src LABEL_LENGTH }

def hasAttribute (attr : Byte) : Bool := e.attributes &&& attr == attr

def isLabel : Bool := e.hasAttribute ATTR_LABEL && !e.hasAttribute ATTR_LFN

def isDirectory : Bool := e.hasAttribute ATTR_DIRECTORY

def isDeviceFile : Bool := e.hasAttribute ATTR_DEVICE

def isLongFileName : Bool := e.hasAttribute ATTR_LFN && e.firstCluster == 0

def isDeleted : Bool := e.label[0] == 0xE5

def isFree : Bool := e.isDeleted || e.label[0] == 0x00

/-- A label has a first character. -/
theorem label_pos : 0 < 11 := by decide

def isValidFile : Bool := !e.isFree && !e.isLongFileName && !e.isDeviceFile && !e.isLabel

def isRoot : Bool := e.isDirectory && e.firstCluster == 0

end DirEntry

/-! ## Short names -/

/-- `ReadFatString`: the string without the spaces around it, up to the first NUL. -/
def readFatString (src : List Byte) : CString :=
  ((src.dropWhile (· == 0x20)).rdropWhile (· == 0x20)).takeWhile (· != 0)

/-- `toupper` of the host. -/
def toupper (c : Byte) : Byte := if islower c then c - 0x20 else c

/-- The name part of a short name: the lead byte `0xE5` is kept as `0x05`, to tell it from the mark
of a deleted entry. -/
def restoreLead (name : CString) : CString :=
  if name.head? = some 0x05 then 0xE5 :: name.tail else name

def guardLead (name : CString) : CString :=
  if name.head? = some 0xE5 then 0x05 :: name.tail else name

/-- The short name that a label of eight and three characters stands for. -/
def labelName (label : Vector Byte 11) : CString :=
  let name := restoreLead (readFatString (label.toList.take NAME_LENGTH))
  let ext := readFatString (label.toList.drop NAME_LENGTH)
  if ext = [] then name else name ++ [0x2E] ++ ext

def DirEntry.getShortName (e : DirEntry) : CString := labelName e.label

/-- The symbols a short name may hold besides letters, digits and bytes above `0x7F`. -/
def shortNameSymbols : List Byte :=
  text ['$', '%', '\'', '-', '_', '@', '~', '\x60', '!', '(', ')', '{', '}', '^', '#', '&']

/-- Whether the loop of `SetShortName` takes the character at `index`. -/
def shortNameChar (dotSeen : Bool) (index : Nat) (c : Byte) : Bool :=
  isalnum c || c > 0x7F || shortNameSymbols.contains c || c == 0x2E && !dotSeen ||
  c == 0x20 && index != 0

/-- The loop of `SetShortName`: the characters before the dot and those after it, in upper case. -/
def splitShortName (name ext : CString) (dotSeen : Bool) (index : Nat) :
    CString → Option (CString × CString)
  | [] => some (name, ext)
  | c :: rest =>
    if !shortNameChar dotSeen index c then none
    else if c = 0x2E then splitShortName name ext true (index + 1) rest
    else if dotSeen then splitShortName name (ext ++ [toupper c]) true (index + 1) rest
    else splitShortName (name ++ [toupper c]) ext false (index + 1) rest

/-- The name without the white space around it. -/
def trimSpace (src : CString) : CString := (src.dropWhile isspace).rdropWhile isspace

/-- The label that `SetShortName` stores for a name, if it takes the name. -/
def shortLabel (src : CString) : Option (Vector Byte 11) :=
  let trimmed := trimSpace src
  if trimmed.length = 0 ∨ trimmed.length > NAME_LENGTH + 1 + EXTENSION_LENGTH then none
  else
    match splitShortName [] [] false 0 trimmed with
    | none => none
    | some (name, ext) =>
      if name.length = 0 ∨ name.length > NAME_LENGTH ∨ ext.length > EXTENSION_LENGTH then none
      else
        some (writeFatString (guardLead name) NAME_LENGTH ++ writeFatString ext EXTENSION_LENGTH)

def DirEntry.setShortName (e : DirEntry) (src : CString) : Option DirEntry :=
  (shortLabel src).map fun label => { e with label := label }

end Ohwes.Fatfs

import Ohwes.Kernel.Basic
import Ohwes.Library.DiskGeometry
import Ohwes.Fatfs.DirTable

/-! # `boot/stage1.S`

The boot sector runs in real mode. Memory is addressed by the linear address of a segment and an
offset. The BIOS call `INT 13h` is what a `Drive` says: it reads one sector, or it sets the carry
flag after it has stored some part of one. A sector is followed only into memory that is free: a load
over the stack, the loader itself or what the BIOS keeps for itself is a fault. -/

namespace Ohwes.Boot
open Library Fatfs
set_option autoImplicit false

abbrev Word := BitVec 16

abbrev Memory := Nat → Byte

/-! ## `x86_boot.h` -/

def ROOTDIR_BASE : Word := 0x2000
def STACK_BASE : Word := 0x7C00
def STAGE2_BASE : Word := 0x7E00
def SEGMENT_SIZE : Nat := 65536
def RETRY_COUNT : Word := 3
def SECTOR_SHIFT : Nat := 9
def SECTOR_SIZE : Nat := 512
def FILENAME_LENGTH : Nat := 11
def DIRENTRY_SHIFT : Nat := 5
def CLUSTER_NUM_OFFSET : Word := 2
def CLUSTER : Word := 26
def FILESIZE : Word := 28

def biosParamBlock : BiosParamBlock where
  sectorSize := 512
  sectorsPerCluster := 1
  reservedSectorCount := 1
  tableCount := 2
  rootDirCapacity := 224
  sectorCount := 2880
  mediaType := 0xF0
  sectorsPerTable := 9
  sectorsPerTrack := 18
  headCount := 2
  hiddenSectorCount := 0
  sectorCountLarge := 0
  driveNumber := 0
  reserved := 0
  signature := 0x29
  volumeId := 0xCA55E77E
  label := writeFatString (text "OH-WES     ".toList) LABEL_LENGTH
  fsType := writeFatString (text "FAT12   ".toList) NAME_LENGTH

/-- `disk_error` prints the message and resets the machine. -/
def diskError : Halt := .panic "\r\nDiskette read error!"

/-! ## The machine -/

def linear (segment offset : Word) : Nat := 16 * segment.toNat + offset.toNat

def loadWord (m : Memory) (a : Word) : Word := m (a + 1).toNat ++ m a.toNat

def loadLong (m : Memory) (a : Word) : BitVec 32 := loadWord m (a + 2) ++ loadWord m a

def storeWord (m : Memory) (a : Nat) (x : Word) : Memory :=
  overlay m a [x.extractLsb' 0 8, x.extractLsb' 8 8]

/-- Where the code of the loader ends, and where the memory ends that the BIOS has left free. -/
structure Workspace where
  codeEnd : Nat
  top : Nat
  stack_le : STACK_BASE.toNat ≤ codeEnd
  le_top : codeEnd ≤ top
  top_le : top ≤ 0xA0000

namespace Workspace
variable (w : Workspace)

/-- The memory below the stack and that behind the loader. -/
def Free (start count : Nat) : Prop :=
  0x500 ≤ start ∧ start + count ≤ 0x7A00 ∨ w.codeEnd ≤ start ∧ start + count ≤ w.top

instance (start count : Nat) : Decidable (w.Free start count) := inferInstanceAs (Decidable (_ ∨ _))

/-- The stack, and what the BIOS keeps for itself: the vectors, its data and the screen. -/
def Scratch (a : Nat) : Prop :=
  a < 0x500 ∨ 0x7A00 ≤ a ∧ a < STACK_BASE.toNat ∨ w.top ≤ a ∧ a < 0x100000

instance (a : Nat) : Decidable (w.Scratch a) := inferInstanceAs (Decidable (_ ∨ _))

/-- What a call of the BIOS does to the stack and to memory of its own. -/
def afterCall (scratch m : Memory) : Memory := fun a => if w.Scratch a then scratch a else m a

end Workspace

/-- A drive with a disk in it. A request fails after some bytes of the sector were stored, or not at
all; where it fails for a reason of its own, `fault` says so. Whatever it comes to, `scratch` is on the
stack and in the memory of the BIOS afterwards. -/
structure Drive where
  geometry : DiskGeometry
  cylinders : Nat
  data : Nat → Byte
  fault : Nat → Bool
  partialData : Nat → List Byte
  scratch : Nat → Memory

/-- Memory, and the number of requests that the drive has had. -/
structure Machine where
  memory : Memory
  requests : Nat

def decodeAddress (cx : Word) (dh : Byte) : SectorAddress where
  cylinder := (cx.extractLsb' 6 2 ++ cx.extractLsb' 8 8).toNat
  head := dh.toNat
  sector := (cx.extractLsb' 0 6).toNat

namespace Drive
variable (v : Drive)

def reads (n : Nat) (a : SectorAddress) : Bool :=
  !v.fault n && decide (v.geometry.OnTrack a) && decide (a.cylinder < v.cylinders)

def sector (block : Nat) : List Byte := slice v.data (SECTOR_SIZE * block) SECTOR_SIZE

def stores (w : Workspace) (m : Machine) (start : Nat) (bytes : List Byte) : Machine :=
  ⟨w.afterCall (v.scratch (m.requests + 1)) (overlay m.memory start bytes), m.requests + 1⟩

/-- `INT 13h` with `AH = 2` and `AL = 1`: the carry flag and the machine. -/
def int13 (w : Workspace) (m : Machine) (cx : Word) (dh : Byte) (es bx : Word) :
    Call (Bool × Machine) :=
  let a := decodeAddress cx dh
  if w.Free (linear es bx) SECTOR_SIZE then
    if v.reads m.requests a then
      .ok (false, v.stores w m (linear es bx) (v.sector (v.geometry.block a)))
    else
      .ok (true, v.stores w m (linear es bx) ((v.partialData m.requests).take SECTOR_SIZE))
  else .error .fault

end Drive

/-- `idivw`: the quotient and the remainder. A quotient that does not fit is a divide error. -/
def idivw (dx ax divisor : Word) : Call (Word × Word) :=
  let dividend := (dx ++ ax).toInt
  let quotient := dividend.tdiv divisor.toInt
  if divisor = 0 ∨ quotient < -32768 ∨ 32767 < quotient then .error .fault
  else .ok (BitVec.ofInt 16 quotient, BitVec.ofInt 16 (dividend.tmod divisor.toInt))

/-! ## `lba2chs` -/

structure Chs where
  cx : Word
  dh : Byte
  dl : Byte

section Loader
variable (w : Workspace) (v : Drive) (b : BiosParamBlock)

def lba2chs (lba : Word) : Call Chs := do
  let (cylinder, _) ← idivw 0 lba (b.sectorsPerTrack * b.headCount)
  let (track, rest) ← idivw 0 lba b.sectorsPerTrack
  let (_, head) ← idivw 0 track b.headCount
  return ⟨cylinder, head.setWidth 8, (rest + 1).setWidth 8⟩

/-- `xchgb`, `rorb` and `orb`. -/
def packAddress (c : Chs) : Word :=
  c.cx.extractLsb' 0 8 ++ ((c.cx.extractLsb' 8 8).rotateRight 2 ||| c.dl)

/-! ## `load_sectors` -/

structure LoadFrame where
  es : Word
  buffer : Word
  lba : Word
  count : Word
  nretries : Word
  machine : Machine

def LoadFrame.advance (f : LoadFrame) (m : Machine) : LoadFrame where
  es := if f.buffer + b.sectorSize < f.buffer then f.es + BitVec.ofNat 16 (SEGMENT_SIZE / 16) else f.es
  buffer := f.buffer + b.sectorSize
  lba := f.lba + 1
  count := f.count - 1
  nretries := RETRY_COUNT
  machine := m

/-- One pass of `_load_sectors_loop`, and whether it was the last. -/
def loadPass (f : LoadFrame) : Call (Bool × LoadFrame) := do
  let nretries := f.nretries - 1
  let chs ← lba2chs b f.lba
  match ← v.int13 w f.machine (packAddress chs) chs.dh f.es f.buffer with
  | (true, m) =>
    if nretries = 0 then .error diskError
    else return (false, { f with nretries := nretries, machine := m })
  | (false, m) =>
    let f := f.advance b m
    return (f.count == 0, f)

def loadLoop : Nat → LoadFrame → Call LoadFrame
  | 0, _ => .error .diverges
  | passes + 1, f => do
    let (done, f) ← loadPass w v b f
    if done then return f else loadLoop passes f

/-- No load takes more passes: a count of zero stands for 65536. -/
def LOAD_PASSES : Nat := 3 * 65536

/-- `load_sectors`: the segment register and the machine it leaves. -/
def loadSectors (m : Machine) (es bx ax cx : Word) : Call (Word × Machine) :=
  (loadLoop w v b LOAD_PASSES ⟨es, bx, ax, cx, RETRY_COUNT, m⟩).map fun f => (f.es, f.machine)

/-! ## `find_file` and `load_file` -/

/-- What `cmpsb` sees at `ds:di`. -/
def bytesAt (m : Memory) (di : Word) (n : Nat) : List Byte :=
  (List.range n).map fun i => m (di + BitVec.ofNat 16 i).toNat

/-- The loop of `find_file`, from the entry at `di` on with `bx` entries to go. -/
def findLoop (m : Memory) (name : List Byte) : Nat → Word → Word → Call Word
  | 0, _, _ => .error .diverges
  | passes + 1, di, bx =>
    if bytesAt m di FILENAME_LENGTH = name then .ok di
    else if bx - 1 = 0 then .error diskError
    else findLoop m name passes (di + BitVec.ofNat 16 (2 ^ DIRENTRY_SHIFT)) (bx - 1)

def findFile (m : Memory) (name : List Byte) : Call Word :=
  findLoop m name 65536 ROOTDIR_BASE b.rootDirCapacity

/-- The sectors that `load_file` asks for. -/
def fileSectors (size : BitVec 32) : Word := ((size - 1) >>> SECTOR_SHIFT).setWidth 16 + 1

/-- The variable `first_cluster` is at the address `label`. -/
def loadFile (label : Word) (m : Machine) (es bx di : Word) : Call (Word × Machine) :=
  let ax := loadWord m.memory (di + CLUSTER) - CLUSTER_NUM_OFFSET + loadWord m.memory label
  loadSectors w v b m es bx ax (fileSectors (loadLong m.memory (di + FILESIZE)))

/-! ## `stage1` -/

/-- The first sector of the root directory; `mulb` multiplies the low bytes. -/
def rootSector : Word :=
  (b.sectorsPerTable.setWidth 8).setWidth 16 * b.tableCount.setWidth 16 + b.reservedSectorCount

def rootSectors : Word := (b.rootDirCapacity <<< DIRENTRY_SHIFT - 1) >>> SECTOR_SHIFT + 1

def firstCluster : Word := rootSector b + rootSectors b

def stage2Filename : List Byte := text "BOOT    SYS".toList

/-- `stage1`, up to its jump to `stage2`: the segment register `es` and the machine. -/
def stage1 (label : Word) (m : Machine) : Call (Word × Machine) := do
  let m := { m with memory := storeWord m.memory label.toNat (firstCluster b) }
  let (es, m) ← loadSectors w v b m 0 ROOTDIR_BASE (rootSector b) (rootSectors b)
  let di ← findFile b m.memory stage2Filename
  loadFile w v b label m es STAGE2_BASE di

end Loader

end Ohwes.Boot

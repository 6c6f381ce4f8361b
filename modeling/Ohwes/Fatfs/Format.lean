import Ohwes.Library.Overlay
import Ohwes.Fatfs.DirEntry
import Ohwes.Fatfs.FatTable

/-! # `FatDisk::CreateNew`

The host's files, and the formatting of an image. Host calls succeed: `malloc` returns a buffer with
some contents `junk`, and `fwrite` writes all it is given. `bytesWritten` and `baseAddr` are of type
`size_t`; every other number of `CreateNew` is a `uint32_t`. -/

namespace Ohwes.Fatfs
open Library
set_option autoImplicit false

/-- A `FILE` of the host. A seek behind the end and a write there leave a hole of zeros. -/
structure HostFile where
  data : Nat → Byte
  size : Nat
  pos : Nat

namespace HostFile

/-- A file just opened with mode `wb`. -/
def truncated : HostFile := ⟨fun _ => 0, 0, 0⟩

def seek (f : HostFile) (pos : Nat) : HostFile := { f with pos := pos }

def write (f : HostFile) (bs : List Byte) : HostFile :=
  if bs = [] then f
  else ⟨overlay f.data f.pos bs, max f.size (f.pos + bs.length), f.pos + bs.length⟩

theorem write_write (f : HostFile) (bs cs : List Byte) :
    (f.write bs).write cs = f.write (bs ++ cs) := by
  by_cases hb : bs = []
  · simp [write, hb]
  · by_cases hc : cs = []
    · simp [write, hc]
    · simp only [write, hb, hc, if_false, overlay_append, List.length_append,
        List.append_eq_nil_iff, false_and, HostFile.mk.injEq, true_and]
      omega

end HostFile

/-! ## The layout -/

/-- `SafeRIF` and `CheckParam`: go on if the condition holds, else leave with the message. -/
def require (cond : Bool) (msg : String) : Except String Unit :=
  if cond then .ok () else .error msg

theorem require_bind_ok {α : Type} {c : Bool} {msg : String} {f : Unit → Except String α} {r : α} :
    (require c msg >>= f) = .ok r ↔ c = true ∧ f () = .ok r := by
  cases c
  · simp [require, bind, Except.bind]
  · simp [require, bind, Except.bind]

def checkNewBpb (bpb : BiosParamBlock) : Except String Unit := do
  require (!(bpb.sectorCount == 0 && bpb.sectorCountLarge == 0))
    "invalid BPB - sector count cannot be zero\n"
  require (!(bpb.sectorCount != 0 && bpb.sectorCountLarge != 0))
    "invalid BPB - only one 'SectorCount' field may be set\n"
  require (!(bpb.sectorsPerTable == 0)) "invalid BPB - need at least one sector per FAT\n"
  require (!(bpb.sectorSize.toNat < MIN_SECTOR_SIZE))
    "invalid BPB - sector size must be at least 512\n"
  require (isPow2 bpb.sectorSize) "invalid BPB - sector size must be a power of 2\n"
  require (isPow2 bpb.sectorsPerCluster) "invalid BPB - sectors per cluster must be a power of 2\n"

/-- The local variables of `CreateNew` that describe the disk. -/
structure Layout where
  baseAddr : Nat
  sectorSize : Nat
  sectorsPerCluster : Nat
  clusterSize : Nat
  diskSize : Nat
  resSectorCount : Nat
  fatSectorCount : Nat
  fatSize : Nat
  fatCount : Nat
  rootSectorCount : Nat
  clusters : Nat
  extraSectors : Nat

/-- The disk size is computed from the 16-bit sector count alone. -/
def layout (bpb : BiosParamBlock) (sector : BitVec 32) : Layout :=
  let baseAddr := u32 (sector.toNat * 512)
  let sectorSize := bpb.sectorSize.toNat
  let sectorCount := bpb.getSectorCount
  let sectorsPerCluster := bpb.sectorsPerCluster.toNat
  let resSectorCount := bpb.reservedSectorCount.toNat
  let fatSectorCount := bpb.sectorsPerTable.toNat
  let fatCount := bpb.tableCount.toNat
  let rootSize := u32 (bpb.rootDirCapacity.toNat * DIR_ENTRY_SIZE)
  let rootSectorCount := ceilDiv rootSize sectorSize
  let dataSectors :=
    u32Sub sectorCount (u32 (resSectorCount + fatSectorCount * fatCount + rootSectorCount))
  let clusters := dataSectors / sectorsPerCluster
  { baseAddr := baseAddr
    sectorSize := sectorSize
    sectorsPerCluster := sectorsPerCluster
    clusterSize := u32 (sectorSize * sectorsPerCluster)
    diskSize := u32 (bpb.sectorCount.toNat * sectorSize) + baseAddr
    resSectorCount := resSectorCount
    fatSectorCount := fatSectorCount
    fatSize := u32 (fatSectorCount * sectorSize)
    fatCount := fatCount
    rootSectorCount := rootSectorCount
    clusters := clusters
    extraSectors := u32Sub dataSectors (u32 (clusters * sectorsPerCluster)) }

/-- The width of the entries that `CreateNew` formats the FAT with. -/
def createNewFat12 (bpb : BiosParamBlock) : Bool := (layout bpb 0).clusters ≤ MAX_CLUSTERS_12

/-! ## The writing -/

/-- The file under construction and the variable `bytesWritten`. -/
structure Writer where
  file : HostFile
  bytesWritten : Nat

/-- One `SafeWrite` after the other. -/
def Writer.writeAll (w : Writer) (chunks : List (List Byte)) : Writer :=
  chunks.foldl (fun w bs => ⟨w.file.write bs, w.bytesWritten + bs.length⟩) w

/-- A sector of `size` bytes that starts with `bs`. -/
def zeroPadded (bs : List Byte) (size : Nat) : List Byte :=
  bs ++ List.replicate (size - bs.length) 0

section Writing
variable (junk : Buffer) (now : Tm) (bpb : BiosParamBlock)

/-- The sector buffer with the boot sector: what of it lies behind the structure is not set. -/
def bootSectorBuf (sectorSize : Nat) : List Byte :=
  initBootSector bpb PROG_NAME ++ slice junk 512 (sectorSize - 512)

def hasCustomLabel : Bool := getElem bpb.label 0 DirEntry.label_pos != 0x20

def volLabel : DirEntry :=
  { DirEntry.init now with attributes := ATTR_LABEL }.setLabel bpb.label.toList

/-- The sectors of the root directory; the first of them holds the volume label. -/
def rootSectors (count sectorSize : Nat) : List (List Byte) :=
  (List.range count).map fun i =>
    zeroPadded (if hasCustomLabel bpb && i == 0 then (volLabel now bpb).bytes else []) sectorSize

def newFat (fatSize : Nat) : Call Buffer :=
  if createNewFat12 bpb then initFat12 junk fatSize bpb.mediaType CLUSTER_EOC_12
  else initFat16 junk fatSize bpb.mediaType CLUSTER_EOC_16

def startWriter (baseAddr : Nat) : Writer :=
  if baseAddr ≠ 0 then ⟨HostFile.truncated.seek baseAddr, baseAddr⟩ else ⟨HostFile.truncated, 0⟩

/-- `CreateNew` after its checks. -/
def writeImage (l : Layout) : Call HostFile := do
  let bootSector := bootSectorBuf junk bpb l.sectorSize
  let w := (startWriter l.baseAddr).writeAll [bootSector]
  let w := w.writeAll (List.replicate (l.resSectorCount - 1) bootSector)
  assert (w.bytesWritten = l.baseAddr + u32 (l.resSectorCount * l.sectorSize))
  let fat ← newFat junk bpb l.fatSize
  let w := w.writeAll (List.replicate l.fatCount (slice fat 0 l.fatSize))
  assert (w.bytesWritten % l.sectorSize = 0)
  assert (w.bytesWritten =
    l.baseAddr + u32 ((l.resSectorCount + l.fatSectorCount * l.fatCount) * l.sectorSize))
  let w := w.writeAll (rootSectors now bpb l.rootSectorCount l.sectorSize)
  assert (w.bytesWritten = l.baseAddr +
    u32 ((l.resSectorCount + l.fatSectorCount * l.fatCount + l.rootSectorCount) * l.sectorSize))
  let w := w.writeAll (List.replicate l.clusters (zeroPadded [] l.clusterSize))
  let w := w.writeAll (List.replicate l.extraSectors (zeroPadded [] l.sectorSize))
  assert (w.bytesWritten % l.sectorSize = 0)
  assert (w.bytesWritten = l.diskSize)
  assert (w.bytesWritten = l.baseAddr + u32 ((l.resSectorCount + l.fatSectorCount * l.fatCount +
    l.rootSectorCount + l.clusters * l.sectorsPerCluster + l.extraSectors) * l.sectorSize))
  return w.file

/-- `CreateNew`. Zero sectors per cluster pass the checks, and the cluster count divides by them. -/
def createNew (sector : BitVec 32) : Call (Except String HostFile) :=
  match checkNewBpb bpb with
  | .error msg => .ok (.error msg)
  | .ok () =>
    if bpb.sectorsPerCluster = 0 then .error .fault
    else (writeImage junk now bpb (layout bpb sector)).map .ok

end Writing

end Ohwes.Fatfs

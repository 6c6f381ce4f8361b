import Ohwes.Fatfs.Format

/-! # `tools/fatfs/Command_Create.cpp`

The geometry that `create` settles on. An `int` is the integer it holds; an operation whose result
does not fit 32 bits is undefined, and so is a division by zero. -/

namespace Ohwes.Fatfs
set_option autoImplicit false

/-- Why a command ends early: with an error message, or not at all. -/
inductive Stop where
  | refused (msg : String)
  | halted (h : Halt)
  deriving DecidableEq

abbrev Command (α : Type) := Except Stop α

theorem command_bind_ok {α β : Type} {x : Command α} {f : α → Command β} {r : β} :
    (x >>= f) = .ok r ↔ ∃ a, x = .ok a ∧ f a = .ok r :=
  Library.except_bind_ok

def checkParam (cond : Bool) (msg : String) : Command Unit :=
  if cond then .ok () else .error (.refused msg)

theorem checkParam_ok {c : Bool} {msg : String} {u : Unit} :
    checkParam c msg = .ok u ↔ c = true := by
  cases c
  · simp [checkParam]
  · simp [checkParam]

/-- The result of an operation on `int`. -/
def int32 (x : Int) : Command Int :=
  if -2147483648 ≤ x ∧ x < 2147483648 then .ok x else .error (.halted .fault)

theorem int32_ok {x y : Int} :
    int32 x = .ok y ↔ -2147483648 ≤ x ∧ x < 2147483648 ∧ x = y := by
  by_cases h : -2147483648 ≤ x ∧ x < 2147483648
  · simp [int32, h]
  · simp only [int32, h, if_false, reduceCtorEq, false_iff]
    omega

/-- `Align` on `int`. -/
def alignInt (x n : Int) : Command Int := do
  let sum ← int32 (x + n)
  let top ← int32 (sum - 1)
  let mask ← int32 (n - 1)
  return (BitVec.ofInt 32 top &&& ~~~(BitVec.ofInt 32 mask)).toInt

/-- The values of the options of `create`. -/
structure CreateArgs where
  volumeId : Int
  sectorSize : Int := 512
  sectorCount : Int := 2880
  headCount : Int := 2
  sectorsPerTrack : Int := 18
  sectorsPerCluster : Int := 1
  mediaType : Int := MEDIATYPE_1440K
  driveNumber : Int := 0
  fatCount : Int := 2
  fatWidth : Int := 0
  rootDirCapacity : Int := 224
  reservedSectorCount : Int := 1
  label : CString := []
  noAlign : Bool := false

def checkArgs (a : CreateArgs) : Command Unit := do
  checkParam (isPow2 (BitVec.ofInt 32 a.sectorSize)) "sector size must be a power of 2\n"
  checkParam (a.sectorSize ≥ MIN_SECTOR_SIZE) "sector size must be at least 512 bytes\n"
  checkParam (a.sectorSize ≤ MAX_SECTOR_SIZE) "sector size is too large\n"
  checkParam (a.sectorCount > 0) "invalid sector count\n"
  checkParam (a.headCount > 0) "invalid head count\n"
  checkParam (a.sectorsPerTrack > 0) "invalid sectors per track\n"
  checkParam (isPow2 (BitVec.ofInt 32 a.sectorsPerCluster)) "sector size must be a power of 2\n"
  checkParam (a.sectorsPerCluster ≤ MAX_SEC_PER_CLUST) "too many sectors per cluster\n"
  checkParam (a.fatCount ≥ 1) "at least one file allocation table is required\n"
  checkParam (a.fatWidth = 0 ∨ a.fatWidth = 12 ∨ a.fatWidth = 16)
    "invalid FAT width, must be 12 or 16\n"
  checkParam (a.rootDirCapacity > 0) "invalid root directory capacity\n"
  checkParam (a.reservedSectorCount ≥ 1) "at least 1 reserved sector is required\n"

/-! ## The size of the FAT -/

def fatCapacity12 (fatSize : Int) : Int := fatSize / 3 * 2 - CLUSTER_FIRST

def fatCapacity16 (fatSize : Int) : Int := fatSize / 2 - CLUSTER_FIRST

/-- `clusters > MAX_CLUSTERS_12 && fatCapacity12 > MAX_CLUSTERS_12`, and the same for FAT16. -/
def tooMany (clusters fatCapacity : Int) (maxClusters : Nat) : Bool :=
  clusters > maxClusters && fatCapacity > maxClusters

/-- What the sizing loop decides for a FAT of `fatSize` bytes: the width, or to try a larger one. -/
def settle (fatWidth clusters fatSize : Int) : Except String (Option Int) :=
  if tooMany clusters (fatCapacity12 fatSize) MAX_CLUSTERS_12 ∧ fatWidth = 12 then
    .error "too many clusters for FAT12\n"
  else if tooMany clusters (fatCapacity16 fatSize) MAX_CLUSTERS_16 then
    .error (if fatWidth = 16 then "too many clusters for FAT16\n" else "disk is too large\n")
  else if (fatWidth = 0 ∨ fatWidth = 12) ∧ ¬ tooMany clusters (fatCapacity12 fatSize)
      MAX_CLUSTERS_12 ∧ clusters ≤ fatCapacity12 fatSize then
    if clusters < MIN_CLUSTERS_12 then .error "not enough clusters for FAT12\n" else .ok (some 12)
  else if (fatWidth = 0 ∨ fatWidth = 16) ∧ clusters ≤ fatCapacity16 fatSize then
    if fatWidth = 16 ∧ clusters < MIN_CLUSTERS_16 then .error "not enough clusters for FAT16\n"
    else .ok (some 16)
  else .ok none

/-- The numbers that the sizing loop works with. -/
structure Sizing where
  sectorSize : Int
  sectorCount : Int
  sectorsPerCluster : Int
  fatCount : Int
  fatWidth : Int

/-- The clusters left over when the used sectors are rounded up to whole clusters. -/
def Sizing.clusters (g : Sizing) (sectorsUsed : Int) : Command Int := do
  let sectorsUsedAligned ← alignInt sectorsUsed g.sectorsPerCluster
  let left ← int32 (g.sectorCount - sectorsUsedAligned)
  if g.sectorsPerCluster = 0 then throw (.halted .fault)
  else return left.tdiv g.sectorsPerCluster

/-- The sizing loop: the size of a FAT in bytes and its width. -/
def sizeFat (g : Sizing) : Nat → Int → Int → Command (Int × Int)
  | 0, _, _ => .error (.halted .diverges)
  | passes + 1, sectorsUsed, fatSize => do
    let sectorsUsed ← int32 (sectorsUsed + g.fatCount)
    let fatSize ← int32 (fatSize + g.sectorSize)
    let clusters ← g.clusters sectorsUsed
    match settle g.fatWidth clusters fatSize with
    | .error msg => .error (.refused msg)
    | .ok (some width) => .ok (fatSize, width)
    | .ok none => sizeFat g passes sectorsUsed fatSize

/-- The loop never makes more passes than this. -/
def SIZING_PASSES : Nat := 256

/-! ## The command -/

/-- Whether sizes are rounded up to whole clusters: not on small disks, nor with `--no-align`. -/
def CreateArgs.aligned (a : CreateArgs) : Bool := !(a.noAlign || a.sectorCount ≤ 4096)

def CreateArgs.rootSectorCount (a : CreateArgs) : Int :=
  (a.rootDirCapacity * DIR_ENTRY_SIZE + a.sectorSize - 1) / a.sectorSize

/-- The sector count and the root directory capacity of the disk. -/
def CreateArgs.geometry (a : CreateArgs) : Command (Int × Int) :=
  if a.aligned then do
    let sectorCount ← alignInt a.sectorCount a.sectorsPerCluster
    let rootSize ← int32 (a.rootSectorCount * a.sectorSize)
    return (sectorCount, rootSize / DIR_ENTRY_SIZE)
  else .ok (a.sectorCount, a.rootDirCapacity)

/-- The block that `create` fills in; each field keeps the low bits of its number. -/
def createBpb (a : CreateArgs) (sectorCount rootDirCapacity fatSize fatWidth : Int) :
    BiosParamBlock :=
  { initBiosParamBlock with
    mediaType := BitVec.ofInt 8 a.mediaType
    headCount := BitVec.ofInt 16 a.headCount
    driveNumber := BitVec.ofInt 8 a.driveNumber
    sectorCount := if sectorCount > 65535 then 0 else BitVec.ofInt 16 sectorCount
    sectorCountLarge := if sectorCount > 65535 then BitVec.ofInt 32 sectorCount else 0
    sectorSize := BitVec.ofInt 16 a.sectorSize
    tableCount := BitVec.ofInt 8 a.fatCount
    sectorsPerTable := BitVec.ofInt 16 (fatSize / a.sectorSize)
    sectorsPerTrack := BitVec.ofInt 16 a.sectorsPerTrack
    sectorsPerCluster := BitVec.ofInt 8 a.sectorsPerCluster
    rootDirCapacity := BitVec.ofInt 16 rootDirCapacity
    reservedSectorCount := BitVec.ofInt 16 a.reservedSectorCount
    hiddenSectorCount := 0
    signature := BPBSIG_DOS41
    volumeId := BitVec.ofInt 32 a.volumeId
    label := writeFatString a.label LABEL_LENGTH
    fsType := writeFatString (text (if fatWidth = 12 then "FAT12" else "FAT16").toList)
      NAME_LENGTH }

/-- `create` up to the call of `CreateNew`: the block it hands over and the width it settled on. -/
def create (a : CreateArgs) : Command (BiosParamBlock × Int) := do
  checkArgs a
  let sectorsUsed ← int32 (a.rootSectorCount + a.reservedSectorCount)
  let (sectorCount, rootDirCapacity) ← a.geometry
  let (fatSize, fatWidth) ← sizeFat
    { sectorSize := a.sectorSize
      sectorCount := sectorCount
      sectorsPerCluster := a.sectorsPerCluster
      fatCount := a.fatCount
      fatWidth := a.fatWidth } SIZING_PASSES sectorsUsed 0
  return (createBpb a sectorCount rootDirCapacity fatSize fatWidth, fatWidth)

end Ohwes.Fatfs

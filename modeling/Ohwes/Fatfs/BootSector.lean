import Ohwes.Libc.String

/-! # `tools/fatfs/fat.c`: FAT strings, the BIOS parameter block and the boot sector

`fatfs` runs on the host: an `int` has 32 bits and a `size_t` 64. A `uint32_t` is the number it
holds, and arithmetic on it keeps the low 32 bits of the result. -/

namespace Ohwes.Fatfs
set_option autoImplicit false

/-- What a `uint32_t` keeps of a number. -/
def u32 (n : Nat) : Nat := n % 4294967296

/-- Subtraction of one `uint32_t` from another. -/
def u32Sub (a b : Nat) : Nat := u32 (a + (4294967296 - b))

theorem u32_lt (n : Nat) : u32 n < 4294967296 := Nat.mod_lt _ (by omega)

theorem u32_of_lt {n : Nat} (h : n < 4294967296) : u32 n = n := Nat.mod_eq_of_lt h

theorem u32Sub_of_le {a b : Nat} (ha : a < 4294967296) (h : b ≤ a) : u32Sub a b = a - b := by
  unfold u32Sub u32
  omega

def ceilDiv (x y : Nat) : Nat := (x + y - 1) / y

/-- `IsPow2` on an unsigned value. It takes zero for a power of two. -/
def isPow2 {w : Nat} (x : BitVec w) : Bool := x &&& (x - 1) == 0

def NAME_LENGTH : Nat := 8
def EXTENSION_LENGTH : Nat := 3
def LABEL_LENGTH : Nat := 11
def BOOTSIG : BitVec 16 := 0xAA55
def BPBSIG_DOS41 : Byte := 0x29
def MEDIATYPE_1440K : Int := 0xF0
def MIN_CLUSTERS_12 : Nat := 1
def MAX_CLUSTERS_12 : Nat := 4084
def MIN_CLUSTERS_16 : Nat := MAX_CLUSTERS_12 + 1
def MAX_CLUSTERS_16 : Nat := 65524
def MIN_SECTOR_SIZE : Nat := 512
def MAX_SECTOR_SIZE : Nat := 32768
def MAX_SEC_PER_CLUST : Nat := 128
def CLUSTER_FREE : Nat := 0
def CLUSTER_RESERVED : Nat := 1
def CLUSTER_FIRST : Nat := 2
def CLUSTER_BAD_12 : Nat := 0xFF7
def CLUSTER_BAD_16 : Nat := 0xFFF7
def CLUSTER_EOC_12_LO : Nat := 0xFF8
def CLUSTER_EOC_12_HI : Nat := 0xFFF
def CLUSTER_EOC_12 : Nat := CLUSTER_EOC_12_HI
def CLUSTER_EOC_16_LO : Nat := 0xFFF8
def CLUSTER_EOC_16_HI : Nat := 0xFFFF
def CLUSTER_EOC_16 : Nat := CLUSTER_EOC_16_HI

/-- `sizeof(DirEntry)`. -/
def DIR_ENTRY_SIZE : Nat := 32

/-- The bytes of a number in memory, the lowest first. -/
def littleEndian {w : Nat} (count : Nat) (x : BitVec w) : List Byte :=
  (List.range count).map fun i => x.extractLsb' (8 * i) 8

@[simp] theorem littleEndian_length {w : Nat} (count : Nat) (x : BitVec w) :
    (littleEndian count x).length = count := by
  simp [littleEndian]

/-- `WriteFatString`: the first `n` characters of the string, padded with spaces. -/
def writeFatString (src : CString) (n : Nat) : Vector Byte n :=
  Vector.ofFn fun i => if i < strnlen src n then src.getD i 0 else 0x20

structure BiosParamBlock where
  sectorSize : BitVec 16
  sectorsPerCluster : BitVec 8
  reservedSectorCount : BitVec 16
  tableCount : BitVec 8
  rootDirCapacity : BitVec 16
  sectorCount : BitVec 16
  mediaType : Byte
  sectorsPerTable : BitVec 16
  sectorsPerTrack : BitVec 16
  headCount : BitVec 16
  hiddenSectorCount : BitVec 32
  sectorCountLarge : BitVec 32
  driveNumber : Byte
  reserved : Byte
  signature : Byte
  volumeId : BitVec 32
  label : Vector Byte 11
  fsType : Vector Byte 8
  deriving DecidableEq

def initBiosParamBlock : BiosParamBlock where
  sectorSize := 0
  sectorsPerCluster := 0
  reservedSectorCount := 0
  tableCount := 0
  rootDirCapacity := 0
  sectorCount := 0
  mediaType := 0
  sectorsPerTable := 0
  sectorsPerTrack := 0
  headCount := 0
  hiddenSectorCount := 0
  sectorCountLarge := 0
  driveNumber := 0
  reserved := 0
  signature := BPBSIG_DOS41
  volumeId := 0
  label := writeFatString [] LABEL_LENGTH
  fsType := writeFatString [] NAME_LENGTH

namespace BiosParamBlock
variable (bpb : BiosParamBlock)

/-- The packed structure. -/
def bytes : List Byte :=
  littleEndian 2 bpb.sectorSize ++ [bpb.sectorsPerCluster] ++
  littleEndian 2 bpb.reservedSectorCount ++ [bpb.tableCount] ++
  littleEndian 2 bpb.rootDirCapacity ++ littleEndian 2 bpb.sectorCount ++ [bpb.mediaType] ++
  littleEndian 2 bpb.sectorsPerTable ++ littleEndian 2 bpb.sectorsPerTrack ++
  littleEndian 2 bpb.headCount ++ littleEndian 4 bpb.hiddenSectorCount ++
  littleEndian 4 bpb.sectorCountLarge ++ [bpb.driveNumber, bpb.reserved, bpb.signature] ++
  littleEndian 4 bpb.volumeId ++ bpb.label.toList ++ bpb.fsType.toList

theorem bytes_length : bpb.bytes.length = 51 := by
  simp [bytes]

/-! ## The geometry, as the methods of `FatDisk` compute it from the block -/

/-- `GetSectorCount`. `Open` refuses a block with both counts zero, so its assertion holds. -/
def getSectorCount : Nat :=
  if bpb.sectorCount = 0 then bpb.sectorCountLarge.toNat else bpb.sectorCount.toNat

def getDiskSize : Nat := u32 (bpb.getSectorCount * bpb.sectorSize.toNat)

def getClusterSize : Nat := bpb.sectorSize.toNat * bpb.sectorsPerCluster.toNat

def rootSectorCount : Nat :=
  ceilDiv (bpb.rootDirCapacity.toNat * DIR_ENTRY_SIZE) bpb.sectorSize.toNat

/-- `fsDataSectors`: the sectors before the first cluster. -/
def fsDataSectors : Nat :=
  u32 (bpb.reservedSectorCount.toNat + bpb.sectorsPerTable.toNat * bpb.tableCount.toNat +
    bpb.rootSectorCount)

/-- `GetClusterCount`. The constructor of `FatDisk` already divides by `SectorsPerCluster`, so no
disk is open with zero of them. -/
def getClusterCount : Nat :=
  u32Sub bpb.getSectorCount bpb.fsDataSectors / bpb.sectorsPerCluster.toNat

def isFat12 : Bool := bpb.getClusterCount ≤ MAX_CLUSTERS_12

theorem isFat12_iff : bpb.isFat12 = true ↔ bpb.getClusterCount ≤ MAX_CLUSTERS_12 :=
  decide_eq_true_iff

def isFat16 : Bool :=
  bpb.getClusterCount ≥ MIN_CLUSTERS_16 && bpb.getClusterCount ≤ MAX_CLUSTERS_16

def getFatCapacity : Nat :=
  let fatSize := bpb.sectorsPerTable.toNat * bpb.sectorSize.toNat
  if bpb.isFat12 then u32Sub (fatSize / 3 * 2) CLUSTER_FIRST else u32Sub (fatSize / 2) CLUSTER_FIRST

def getRootCapacity : Nat := bpb.rootDirCapacity.toNat

end BiosParamBlock

/-! ## `InitBootSector` -/

def jumpCode : List Byte := [0xEB, 0x3C, 0x90]

def bootCode : List Byte :=
  [0xFC, 0x31, 0xC0, 0x8E, 0xD8, 0x8D, 0x36, 0x5D, 0x7C, 0xB4, 0x0E, 0xBB, 0x07, 0x00, 0xAC, 0x20,
    0xC0, 0x74, 0x04, 0xCD, 0x10, 0xEB, 0xF2, 0x30, 0xE4, 0xCD, 0x16, 0xCD, 0x19, 0xEB, 0xFE] ++
  text "\r\nThis disk is not bootable!".toList ++
  text "\r\nPlease insert a bootable disk, ".toList ++
  text "then press any key to try again...\r\n".toList ++ [0]

def PROG_NAME : CString := text "fatfs".toList

/-- The boot sector that `InitBootSector` builds. -/
def initBootSector (bpb : BiosParamBlock) (oemName : CString) : List Byte :=
  jumpCode ++ (writeFatString oemName NAME_LENGTH).toList ++ bpb.bytes ++
  (bootCode ++ List.replicate (448 - bootCode.length) 0) ++ littleEndian 2 BOOTSIG

theorem bootCode_length_le : bootCode.length ≤ 448 := by
  simp only [bootCode, text, List.length_append, List.length_map, String.length_toList]
  decide

theorem initBootSector_length (bpb : BiosParamBlock) (oemName : CString) :
    (initBootSector bpb oemName).length = 512 := by
  have h := bootCode_length_le
  simp only [initBootSector, List.length_append, bpb.bytes_length, List.length_replicate,
    Vector.length_toList, littleEndian_length, jumpCode, NAME_LENGTH, List.length_cons,
    List.length_nil]
  omega

end Ohwes.Fatfs

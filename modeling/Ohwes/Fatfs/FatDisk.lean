import Ohwes.Library.Chain
import Ohwes.Library.Overlay
import Ohwes.Fatfs.DirEntry
import Ohwes.Fatfs.FatTable

/-! # `tools/fatfs/FatDisk.cpp`: an open disk

The image file holds the whole volume, and host reads and writes succeed. A loop along a chain may
run for ever; it is given the number of steps it may take and is `diverges` if it takes more. -/

namespace Ohwes.Fatfs
open Library
set_option autoImplicit false

/-- What `Open` checks of the block, and what the constructor divides by. -/
structure Mountable (bpb : BiosParamBlock) : Prop where
  sectorSize_pow2 : isPow2 bpb.sectorSize = true
  sectorSize_ge : MIN_SECTOR_SIZE ≤ bpb.sectorSize.toNat
  sectorSize_le : bpb.sectorSize.toNat ≤ MAX_SECTOR_SIZE
  sectorCount_pos : bpb.getSectorCount ≠ 0
  reserved_pos : bpb.reservedSectorCount ≠ 0
  rootDirCapacity_pos : bpb.rootDirCapacity ≠ 0
  sectorsPerTable_pos : bpb.sectorsPerTable ≠ 0
  tableCount_pos : bpb.tableCount ≠ 0
  sectorsPerCluster_pos : bpb.sectorsPerCluster ≠ 0

structure FatDisk where
  bpb : BiosParamBlock
  mountable : Mountable bpb
  /-- The byte offset of the volume in the image file. -/
  base : Nat
  fat : Buffer
  /-- The image file. -/
  file : Nat → Byte
  dirty : Bool

/-- `GetRootDirEntry`. -/
def rootDirEntry : DirEntry := { DirEntry.zero with attributes := ATTR_DIRECTORY }

/-- A buffer that is large enough for every access. -/
def anyBuffer (_ _ : Nat) : Call Unit := .ok ()

/-- A walk along 16-bit cluster numbers that has not ended after so many steps never ends. -/
def WALK_LIMIT : Nat := 65537

namespace FatDisk
variable (d : FatDisk)

/-! ## The entries of the FAT -/

def getClusterNumberEOC : Nat :=
  if d.bpb.isFat12 then getCluster12 d.fat 1 else getCluster16 d.fat 1 ||| 0xC000

def getClusterNumberBad : Nat := if d.bpb.isFat12 then CLUSTER_BAD_12 else CLUSTER_BAD_16

/-- Clusters 0 and 1 may be read, and so may the number behind the last cluster. -/
def getCluster (index : Nat) : Nat :=
  if CLUSTER_FIRST ≤ index ∧ index - CLUSTER_FIRST > d.bpb.getClusterCount then
    d.getClusterNumberEOC
  else if d.bpb.isFat12 then getCluster12 d.fat index
  else getCluster16 d.fat index

/-- `SetCluster`: what it returns, and the disk with the new entry. -/
def setCluster (index value : Nat) : Nat × FatDisk :=
  if index < CLUSTER_FIRST ∨ index - CLUSTER_FIRST > d.bpb.getClusterCount then
    (d.getClusterNumberEOC, d)
  else
    let (oldValue, fat) :=
      if d.bpb.isFat12 then setCluster12 d.fat index value else setCluster16 d.fat index value
    (oldValue, { d with fat := fat })

/-- Clusters 0 and 1 and the mark of a bad cluster end a chain like the end marks do. -/
def isClusterNumberEOC (clustNum : Nat) : Bool :=
  if clustNum < CLUSTER_FIRST ∨ clustNum = d.getClusterNumberBad then true
  else if d.bpb.isFat12 then CLUSTER_EOC_12_LO ≤ clustNum && clustNum ≤ CLUSTER_EOC_12_HI
  else CLUSTER_EOC_16_LO ≤ clustNum && clustNum ≤ CLUSTER_EOC_16_HI

def isClusterFree (index : Nat) : Bool := d.getCluster index == CLUSTER_FREE

/-- The cluster numbers, in the order the searches go through them. -/
def clusterNumbers : List Nat := List.range' CLUSTER_FIRST d.bpb.getClusterCount

def countFreeClusters : Nat := d.clusterNumbers.countP d.isClusterFree

def findNextFreeCluster : Nat :=
  (d.clusterNumbers.find? d.isClusterFree).getD d.getClusterNumberEOC

/-- The loop of `CountClusters`, which counts a cluster before it looks for the next one. -/
def countLoop : Nat → Nat → Nat → Call Nat
  | 0, _, _ => .error .diverges
  | steps + 1, count, cluster =>
    let cluster := d.getCluster cluster
    if d.isClusterNumberEOC cluster then .ok (count + 1) else countLoop steps (count + 1) cluster

def countClusters (steps : Nat) (e : DirEntry) : Call Nat :=
  if e.isRoot then .ok 0
  else if e.firstCluster = 0 then .ok 0
  else d.countLoop steps 0 e.firstCluster.toNat

def getFileAllocSize (steps : Nat) (e : DirEntry) : Call Nat :=
  if e.isRoot then .ok (d.bpb.getRootCapacity * DIR_ENTRY_SIZE)
  else if !e.isValidFile || e.firstCluster == 0 then .ok 0
  else do
    let count ← d.countClusters steps e
    return u32 (count * d.bpb.getClusterSize)

/-- `GetFileSize`, which `WriteFile` repeats in its own words. -/
def getFileSize (steps : Nat) (e : DirEntry) : Call Nat :=
  if e.isDirectory then d.getFileAllocSize steps e else .ok e.fileSize.toNat

/-! ## Sectors and clusters -/

def sectorAddr (index : Nat) : Nat := u32 (d.base + u32 (index * d.bpb.sectorSize.toNat))

/-- Whether the bounds check of `ReadSector` and `WriteSector` lets the sector through. -/
def sectorInside (index : Nat) : Bool :=
  u32 (d.sectorAddr index + d.bpb.sectorSize.toNat) ≤ d.bpb.getDiskSize

def readSector (index : Nat) : Option (List Byte) :=
  if d.sectorInside index then some (slice d.file (d.sectorAddr index) d.bpb.sectorSize.toNat)
  else none

def writeSector (index : Nat) (bs : List Byte) : Option FatDisk :=
  if d.sectorInside index then some { d with file := overlay d.file (d.sectorAddr index) bs }
  else none

def clusterAddr (index : Nat) : Nat :=
  u32 (d.base + u32 (d.bpb.fsDataSectors * d.bpb.sectorSize.toNat) +
    u32 (u32Sub index CLUSTER_FIRST * d.bpb.getClusterSize))

/-- The check and the assertion of `ReadCluster` and `WriteCluster`. -/
def clusterInside (index : Nat) : Call Bool :=
  if u32Sub index CLUSTER_FIRST > d.bpb.getClusterCount then .ok false
  else do
    assert (u32 (d.clusterAddr index + d.bpb.getClusterSize) ≤ d.bpb.getDiskSize)
    return true

def readCluster (index : Nat) : Call (Option (List Byte)) := do
  let inside ← d.clusterInside index
  return if inside then some (slice d.file (d.clusterAddr index) d.bpb.getClusterSize) else none

def writeCluster (index : Nat) (bs : List Byte) : Call (Option FatDisk) := do
  let inside ← d.clusterInside index
  return if inside then some { d with file := overlay d.file (d.clusterAddr index) bs } else none

/-! ## Files

The callers of `ReadFile` and `WriteFile` hand over a buffer. `touch start count` is what an access to
`count` bytes of it comes to, from `start` on. -/

def rootBase : Nat :=
  d.bpb.reservedSectorCount.toNat + d.bpb.sectorsPerTable.toNat * d.bpb.tableCount.toNat

def readRoot : Option (List Byte) :=
  ((List.range d.bpb.rootSectorCount).mapM fun i => d.readSector (d.rootBase + i)).map List.flatten

/-- Whether `ReadFile` and `WriteFile` refuse the entry. -/
def refusesFile (e : DirEntry) : Bool :=
  !e.isValidFile || e.firstCluster == 0 && e.fileSize != 0

section Read
variable (touch : Nat → Nat → Call Unit)

/-- The accesses of `ReadRoot` and `WriteRoot`, which end at the first sector that is refused. -/
def touchRoot : Call Unit :=
  ((List.range d.bpb.rootSectorCount).takeWhile fun i => d.sectorInside (d.rootBase + i)).forM
    fun i => touch (i * d.bpb.sectorSize.toNat) d.bpb.sectorSize.toNat

/-- The loop of `ReadFile` with `i` clusters read: it ends where a cluster cannot be read. -/
def readLoopWith : Nat → Nat → Nat → Call (Option (List Byte))
  | 0, _, cluster => if d.isClusterNumberEOC cluster then .ok (some []) else .error .diverges
  | steps + 1, i, cluster =>
    if d.isClusterNumberEOC cluster then .ok (some [])
    else do
      match ← d.readCluster cluster with
      | none => return none
      | some bs =>
        touch (u32 (i * d.bpb.getClusterSize)) d.bpb.getClusterSize
        let rest ← readLoopWith steps (i + 1) (d.getCluster cluster)
        return rest.map (bs ++ ·)

def readFileWith (steps : Nat) (e : DirEntry) : Call (Option (List Byte)) :=
  if e.isRoot then do
    d.touchRoot touch
    return d.readRoot
  else if refusesFile e then .ok none
  else d.readLoopWith touch steps 0 e.firstCluster.toNat

end Read

def readLoop (steps cluster : Nat) : Call (Option (List Byte)) := d.readLoopWith anyBuffer steps 0 cluster

def readFile (steps : Nat) (e : DirEntry) : Call (Option (List Byte)) := d.readFileWith anyBuffer steps e

/-- The loop of `WriteRoot`, and the inner one of `WriteFAT`. -/
def writeSectors (base count : Nat) (buf : Buffer) : Bool × FatDisk :=
  (List.range count).foldl (fun (r : Bool × FatDisk) i =>
    let sectorSize := d.bpb.sectorSize.toNat
    if r.1 then
      match r.2.writeSector (base + i) (slice buf (i * sectorSize) sectorSize) with
      | some d' => (true, d')
      | none => (false, r.2)
    else r) (true, d)

def writeRoot (buf : Buffer) : Bool × FatDisk :=
  d.writeSectors d.rootBase d.bpb.rootSectorCount buf

end FatDisk

/-! ## `WriteFile` -/

/-- The local variables of the loop of `WriteFile` that change. -/
structure Writing where
  disk : FatDisk
  cluster : Nat
  bytesWritten : Nat

/-- The end of a pass: the cluster to go on with, and the disk with the entry of the cluster just
written. Its old entry `oldValue` is preserved at the last pass, to free the clusters behind. -/
def linkNext (newCount i oldValue next : Nat) (d : FatDisk) (cluster : Nat) : Nat × FatDisk :=
  if i = newCount - 1 then (oldValue, (d.setCluster cluster d.getClusterNumberEOC).2)
  else if d.isClusterNumberEOC next || next == CLUSTER_FREE then
    (d.findNextFreeCluster, (d.setCluster cluster d.findNextFreeCluster).2)
  else (next, (d.setCluster cluster next).2)

section Write
variable (touch : Nat → Nat → Call Unit) (fileSize newCount : Nat) (buf : Buffer)

/-- A pass of the loop for a cluster the file keeps or gains. A failed read or write leaves the
cluster marked as reserved. -/
def writePassWith (i oldValue : Nat) (w : Writing) : Call (Bool × Writing) := do
  assert (!w.disk.isClusterNumberEOC w.cluster)
  let reserved := w.disk.setCluster w.cluster CLUSTER_RESERVED
  match ← reserved.2.readCluster w.cluster with
  | none => return (false, { w with disk := reserved.2 })
  | some old =>
    let size := min (u32Sub fileSize w.bytesWritten) w.disk.bpb.getClusterSize
    touch w.bytesWritten size
    match ← reserved.2.writeCluster w.cluster (slice buf w.bytesWritten size ++ old.drop size) with
    | none => return (false, { w with disk := reserved.2 })
    | some d =>
      let linked := linkNext newCount i oldValue reserved.1 d w.cluster
      return (true, ⟨linked.2, linked.1, u32 (w.bytesWritten + size)⟩)

/-- The loop of `WriteFile` from pass `i` on; clusters beyond the new count are freed. -/
def writeLoopWith : Nat → Nat → Writing → Call (Bool × Writing)
  | 0, _, w => .ok (true, w)
  | passes + 1, i, w => do
    let oldValue := w.disk.getCluster w.cluster
    if i ≥ newCount then
      let d := (w.disk.setCluster w.cluster CLUSTER_FREE).2
      writeLoopWith passes (i + 1) ⟨d, oldValue, w.bytesWritten⟩
    else
      match ← writePassWith touch fileSize newCount buf i oldValue w with
      | (false, w) => return (false, w)
      | (true, w) => writeLoopWith passes (i + 1) w

end Write

/-- `WriteFile`: whether it succeeds, and the disk it leaves. -/
def FatDisk.writeFileWith (touch : Nat → Nat → Call Unit) (d : FatDisk) (steps : Nat) (e : DirEntry)
    (buf : Buffer) : Call (Bool × FatDisk) :=
  if e.isRoot then do
    d.touchRoot touch
    return d.writeRoot buf
  else if refusesFile e then .ok (false, d)
  else do
    let fileSize ← d.getFileSize steps e
    let clusterSize := d.bpb.getClusterSize
    let newCount := u32 (fileSize + clusterSize - 1) / clusterSize
    let existingCount ← d.countClusters steps e
    if newCount > d.countFreeClusters then return (false, d)
    else
      match ← writeLoopWith touch fileSize newCount buf (max newCount existingCount) 0
        ⟨d, e.firstCluster.toNat, 0⟩ with
      | (false, w) => return (false, w.disk)
      | (true, w) => return (true, { w.disk with dirty := true })

/-! ## Buffers that are large enough -/

section Write
variable (fileSize newCount : Nat) (buf : Buffer)

def writePass (i oldValue : Nat) (w : Writing) : Call (Bool × Writing) :=
  writePassWith anyBuffer fileSize newCount buf i oldValue w

def writeLoop (passes i : Nat) (w : Writing) : Call (Bool × Writing) :=
  writeLoopWith anyBuffer fileSize newCount buf passes i w

theorem writePass_def (i oldValue : Nat) (w : Writing) :
    writePass fileSize newCount buf i oldValue w = (do
      assert (!w.disk.isClusterNumberEOC w.cluster)
      let reserved := w.disk.setCluster w.cluster CLUSTER_RESERVED
      match ← reserved.2.readCluster w.cluster with
      | none => return (false, { w with disk := reserved.2 })
      | some old =>
        let size := min (u32Sub fileSize w.bytesWritten) w.disk.bpb.getClusterSize
        match ← reserved.2.writeCluster w.cluster
          (slice buf w.bytesWritten size ++ old.drop size) with
        | none => return (false, { w with disk := reserved.2 })
        | some d =>
          let linked := linkNext newCount i oldValue reserved.1 d w.cluster
          return (true, ⟨linked.2, linked.1, u32 (w.bytesWritten + size)⟩)) := by
  rw [writePass, writePassWith]
  refine bind_congr fun _ => bind_congr fun old => ?_
  cases old with
  | none => rfl
  | some old =>
    dsimp only
    rewrite [anyBuffer, ok_bind]
    refine bind_congr fun d' => ?_
    cases d' with
    | none => rfl
    | some d' => rfl

theorem writeLoop_succ (passes i : Nat) (w : Writing) :
    writeLoop fileSize newCount buf (passes + 1) i w =
      if i ≥ newCount then
        writeLoop fileSize newCount buf passes (i + 1)
          ⟨(w.disk.setCluster w.cluster CLUSTER_FREE).2, w.disk.getCluster w.cluster, w.bytesWritten⟩
      else (do
        match ← writePass fileSize newCount buf i (w.disk.getCluster w.cluster) w with
        | (false, w) => return (false, w)
        | (true, w) => writeLoop fileSize newCount buf passes (i + 1) w) := rfl

end Write

namespace FatDisk
variable (d : FatDisk)

def writeFile (steps : Nat) (e : DirEntry) (buf : Buffer) : Call (Bool × FatDisk) :=
  d.writeFileWith anyBuffer steps e buf

theorem touchRoot_any : d.touchRoot anyBuffer = .ok () := by
  unfold touchRoot
  induction (List.range d.bpb.rootSectorCount).takeWhile fun i => d.sectorInside (d.rootBase + i) with
  | nil => rfl
  | cons i is ih => exact ih

theorem readFile_def (steps : Nat) (e : DirEntry) :
    d.readFile steps e =
      if e.isRoot then .ok d.readRoot
      else if refusesFile e then .ok none
      else d.readLoop steps e.firstCluster.toNat := by
  rw [readFile, readFileWith, touchRoot_any]
  rfl

/-- Where the data go to does not matter. -/
theorem readLoopWith_any (steps i j cluster : Nat) :
    d.readLoopWith anyBuffer steps i cluster = d.readLoopWith anyBuffer steps j cluster := by
  induction steps generalizing i j cluster with
  | zero => rfl
  | succ steps ih =>
    rw [readLoopWith, readLoopWith, ih (i + 1) (j + 1)]
    rfl

theorem readLoop_zero (cluster : Nat) :
    d.readLoop 0 cluster =
      if d.isClusterNumberEOC cluster then .ok (some []) else .error .diverges := rfl

theorem readLoop_succ (steps cluster : Nat) :
    d.readLoop (steps + 1) cluster =
      if d.isClusterNumberEOC cluster then .ok (some [])
      else do
        match ← d.readCluster cluster with
        | none => return none
        | some bs =>
          let rest ← d.readLoop steps (d.getCluster cluster)
          return rest.map (bs ++ ·) := by
  rw [readLoop, readLoopWith, d.readLoopWith_any steps (0 + 1) 0]
  rfl

theorem writeFile_def (steps : Nat) (e : DirEntry) (buf : Buffer) :
    d.writeFile steps e buf =
      if e.isRoot then .ok (d.writeRoot buf)
      else if refusesFile e then .ok (false, d)
      else do
        let fileSize ← d.getFileSize steps e
        let clusterSize := d.bpb.getClusterSize
        let newCount := u32 (fileSize + clusterSize - 1) / clusterSize
        let existingCount ← d.countClusters steps e
        if newCount > d.countFreeClusters then return (false, d)
        else
          match ← writeLoop fileSize newCount buf (max newCount existingCount) 0
            ⟨d, e.firstCluster.toNat, 0⟩ with
          | (false, w) => return (false, w.disk)
          | (true, w) => return (true, { w.disk with dirty := true }) := by
  rw [writeFile, writeFileWith, touchRoot_any]
  rfl

end FatDisk

end Ohwes.Fatfs

import Ohwes.Fatfs.Add
import Ohwes.Fatfs.WriteFile

/-! # The root directory of a sound disk -/

namespace Ohwes.Fatfs
open Library
set_option autoImplicit false

namespace FatDisk
variable {d : FatDisk}

def rootBytes (d : FatDisk) : Nat := d.bpb.rootSectorCount * d.bpb.sectorSize.toNat

def rootCapacity (d : FatDisk) : Nat := d.bpb.getRootCapacity

def rootEntry (d : FatDisk) (i : Nat) : DirEntry := entryAt (fun a => d.file (d.rootStart + a)) i

theorem mapM_some {α β : Type} (f : α → β) (xs : List α) :
    (xs.mapM fun x => some (f x)) = some (xs.map f) := by
  induction xs with
  | nil => rfl
  | cons x xs ih =>
    rw [List.mapM_cons, ih]
    rfl

theorem flatten_slices (m : Nat → Byte) (start size n : Nat) :
    ((List.range n).map fun i => slice m (start + i * size) size).flatten =
      slice m start (n * size) := by
  induction n with
  | zero => simp
  | succ n ih =>
    rw [List.range_succ, List.map_append, List.flatten_append, ih, Nat.succ_mul, slice_add]
    simp

theorem Sound.readRoot_eq (hd : d.Sound) :
    d.readRoot = some (slice d.file d.rootStart d.rootBytes) := by
  have hsum := (fsDataSectors_sum d.bpb).1
  have hall : ∀ i ∈ List.range d.bpb.rootSectorCount, d.readSector (d.rootBase + i) =
      some (slice d.file (d.rootStart + i * d.bpb.sectorSize.toNat) d.bpb.sectorSize.toNat) := by
    intro i hi
    rw [List.mem_range] at hi
    rw [hd.readSector_eq (by rw [rootBase]; omega), rootStart, Nat.add_mul]
  rw [readRoot, mapM_congr hall, mapM_some, Option.map_some, flatten_slices, rootBytes]

/-- The entries of the root directory lie in its sectors. -/
theorem rootCapacity_le (d : FatDisk) : DIR_ENTRY_SIZE * d.rootCapacity ≤ d.rootBytes := by
  have hpos : 0 < d.bpb.sectorSize.toNat := by
    have := d.sectorSize_ge
    omega
  have hlt := Nat.lt_mul_of_div_lt (Nat.lt_succ_self
    ((d.bpb.rootDirCapacity.toNat * DIR_ENTRY_SIZE + d.bpb.sectorSize.toNat - 1) /
      d.bpb.sectorSize.toNat)) hpos
  rw [Nat.succ_mul] at hlt
  rw [rootBytes, BiosParamBlock.rootSectorCount, ceilDiv, rootCapacity,
    BiosParamBlock.getRootCapacity, Nat.mul_comm DIR_ENTRY_SIZE]
  omega

theorem rootCapacity_pos (d : FatDisk) : 0 < d.rootCapacity := by
  refine Nat.pos_of_ne_zero fun h => d.mountable.rootDirCapacity_pos (BitVec.eq_of_toNat_eq ?_)
  rw [rootCapacity, BiosParamBlock.getRootCapacity] at h
  rw [h]
  rfl

theorem entryAt_filled (junk : Buffer) (m : Nat → Byte) (start : Nat) {n i : Nat}
    (h : DIR_ENTRY_SIZE * (i + 1) ≤ n) :
    entryAt (filled junk (slice m start n)) i = entryAt (fun a => m (start + a)) i := by
  refine entryAt_congr fun a _ ha => ?_
  have hlt : a < (slice m start n).length := by
    rw [slice_length]
    omega
  have hget := slice_getElem? m start n a
  rw [if_pos (by omega), List.getElem?_eq_getElem hlt] at hget
  have hin := overlay_inside junk 0 hlt
  rw [Nat.zero_add] at hin
  rw [filled, hin, Option.some.inj hget]

theorem Sound.entryAt_root (junk : Buffer) {i : Nat} (hi : i < d.rootCapacity) :
    entryAt (filled junk (slice d.file d.rootStart d.rootBytes)) i = d.rootEntry i := by
  refine entryAt_filled junk d.file d.rootStart ?_
  exact (Nat.mul_le_mul_left _ hi).trans d.rootCapacity_le

theorem rootDirEntry_isRoot : rootDirEntry.isRoot = true := by
  decide

theorem readFile_root (steps : Nat) {e : DirEntry} (h : e.isRoot = true) :
    d.readFile steps e = .ok d.readRoot := by
  rw [readFile_def, if_pos h]

theorem getFileAllocSize_root (steps : Nat) {e : DirEntry} (h : e.isRoot = true) :
    d.getFileAllocSize steps e = .ok (d.rootCapacity * DIR_ENTRY_SIZE) := if_pos h

/-- Writing the root directory stores the sectors of its table. -/
theorem Sound.writeFile_root (hd : d.Sound) (steps : Nat) {e : DirEntry} (h : e.isRoot = true)
    (buf : Buffer) :
    d.writeFile steps e buf = .ok (true, d.put d.rootStart (slice buf 0 d.rootBytes)) := by
  have hsum := (fsDataSectors_sum d.bpb).1
  have hw := hd.writeSectors_eq d.rootBase d.bpb.rootSectorCount
    (by rw [rootBase]; omega) buf
  rw [writeFile_def, if_pos h, writeRoot, hw]
  rfl

theorem rootEntry_put (d : FatDisk) (table : Buffer) {i : Nat} (hi : i < d.rootCapacity) :
    (d.put d.rootStart (slice table 0 d.rootBytes)).rootEntry i = entryAt table i := by
  refine entryAt_congr fun a _ ha => ?_
  have hle : DIR_ENTRY_SIZE * (i + 1) ≤ d.rootBytes :=
    (Nat.mul_le_mul_left DIR_ENTRY_SIZE hi).trans d.rootCapacity_le
  have hlt : a < (slice table 0 d.rootBytes).length := by
    rw [slice_length]
    omega
  have hget := slice_getElem? table 0 d.rootBytes a
  rw [if_pos (by omega), List.getElem?_eq_getElem hlt, Nat.zero_add] at hget
  show overlay d.file d.rootStart (slice table 0 d.rootBytes) (d.rootStart + a) = table a
  rw [overlay_inside d.file d.rootStart hlt, Option.some.inj hget]

end FatDisk

end Ohwes.Fatfs

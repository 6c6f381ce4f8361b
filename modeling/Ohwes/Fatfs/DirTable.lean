import Ohwes.Library.Overlay
import Ohwes.Fatfs.DirEntry
import Ohwes.Fatfs.FatTable

/-! # Structures in a buffer

The tool reads the BIOS parameter block and the entries of a directory by casting the address of
their bytes. What was stored at an address is what is read there. -/

namespace Ohwes.Fatfs
open Library
set_option autoImplicit false

/-- The 32 bits at a byte of a buffer. -/
def getLong (b : Buffer) (i : Nat) : BitVec 32 := getPair b (i + 2) ++ getPair b i

/-- The directory entry at an address. -/
def DirEntry.ofBytes (b : Buffer) (start : Nat) : DirEntry where
  label := Vector.ofFn fun i => b (start + i)
  attributes := b (start + 11)
  reserved1 := b (start + 12)
  reserved2 := b (start + 13)
  creationTime := getPair b (start + 14)
  creationDate := getPair b (start + 16)
  accessedDate := getPair b (start + 18)
  reserved3 := getPair b (start + 20)
  modifiedTime := getPair b (start + 22)
  modifiedDate := getPair b (start + 24)
  firstCluster := getPair b (start + 26)
  fileSize := getLong b (start + 28)

/-- The parameter block at an address. -/
def BiosParamBlock.ofBytes (b : Buffer) (start : Nat) : BiosParamBlock where
  sectorSize := getPair b (start + 0)
  sectorsPerCluster := b (start + 2)
  reservedSectorCount := getPair b (start + 3)
  tableCount := b (start + 5)
  rootDirCapacity := getPair b (start + 6)
  sectorCount := getPair b (start + 8)
  mediaType := b (start + 10)
  sectorsPerTable := getPair b (start + 11)
  sectorsPerTrack := getPair b (start + 13)
  headCount := getPair b (start + 15)
  hiddenSectorCount := getLong b (start + 17)
  sectorCountLarge := getLong b (start + 21)
  driveNumber := b (start + 25)
  reserved := b (start + 26)
  signature := b (start + 27)
  volumeId := getLong b (start + 28)
  label := Vector.ofFn fun i => b (start + (32 + i))
  fsType := Vector.ofFn fun i => b (start + (43 + i))

/-! ## What was stored is read back -/

theorem byte_of_pair (x : BitVec 32) (s k : Nat) (h : k + 8 ≤ 16) :
    (x.extractLsb' s 16).extractLsb' k 8 = x.extractLsb' (s + k) 8 := by
  refine BitVec.eq_of_getLsbD_eq fun i hi => ?_
  have hk : k + i < 16 := by omega
  simp [hi, hk, Nat.add_assoc]

section Held
variable {b : Buffer} {start : Nat} {xs : List Byte}
  (h : ∀ i (hi : i < xs.length), b (start + i) = xs[i])
include h

theorem getPair_held (i : Nat) (x : BitVec 16) (hi : i + 1 < xs.length)
    (h0 : xs[i] = x.extractLsb' 0 8) (h1 : xs[i + 1] = x.extractLsb' 8 8) :
    getPair b (start + i) = x := by
  rw [getPair, h i (by omega), Nat.add_assoc, h (i + 1) hi, h0, h1,
    BitVec.extractLsb'_append_extractLsb']

theorem getLong_held (i : Nat) (x : BitVec 32) (hi : i + 3 < xs.length)
    (h0 : xs[i] = x.extractLsb' 0 8) (h1 : xs[i + 1] = x.extractLsb' 8 8)
    (h2 : xs[i + 2] = x.extractLsb' 16 8) (h3 : xs[i + 3] = x.extractLsb' 24 8) :
    getLong b (start + i) = x := by
  rw [getLong, getPair_held h i (x.extractLsb' 0 16) (by omega), Nat.add_assoc,
    getPair_held h (i + 2) (x.extractLsb' 16 16) hi,
    BitVec.extractLsb'_append_extractLsb']
  · rw [h2, byte_of_pair x 16 0 (by omega)]
  · rw [h3, byte_of_pair x 16 8 (by omega)]
  · rw [h0, byte_of_pair x 0 0 (by omega)]
  · rw [h1, byte_of_pair x 0 8 (by omega)]

end Held

theorem DirEntry.ofBytes_held {b : Buffer} {start : Nat} {e : DirEntry}
    (h : ∀ i (hi : i < e.bytes.length), b (start + i) = e.bytes[i]) :
    DirEntry.ofBytes b start = e := by
  have hlen : e.bytes.length = 32 := e.bytes_length
  have hlabel : (Vector.ofFn fun i : Fin 11 => b (start + i)) = e.label := by
    refine Vector.ext fun i hi => ?_
    rw [Vector.getElem_ofFn, h i (by omega)]
    simp [DirEntry.bytes, hi]
  rw [DirEntry.ofBytes, hlabel, h 11 (by omega), h 12 (by omega), h 13 (by omega),
    getPair_held h 14 e.creationTime, getPair_held h 16 e.creationDate,
    getPair_held h 18 e.accessedDate, getPair_held h 20 e.reserved3,
    getPair_held h 22 e.modifiedTime, getPair_held h 24 e.modifiedDate,
    getPair_held h 26 e.firstCluster, getLong_held h 28 e.fileSize]
  all_goals simp [DirEntry.bytes, littleEndian]

theorem BiosParamBlock.ofBytes_held {b : Buffer} {start : Nat} {bpb : BiosParamBlock}
    (h : ∀ i (hi : i < bpb.bytes.length), b (start + i) = bpb.bytes[i]) :
    BiosParamBlock.ofBytes b start = bpb := by
  have hlen := bpb.bytes_length
  obtain ⟨pre, hpre, hsplit⟩ : ∃ pre : List Byte, pre.length = 32 ∧
      bpb.bytes = pre ++ bpb.label.toList ++ bpb.fsType.toList := ⟨_, by simp, rfl⟩
  have hlabel : (Vector.ofFn fun i : Fin 11 => b (start + (32 + i))) = bpb.label := by
    refine Vector.ext fun i hi => ?_
    rw [Vector.getElem_ofFn, h (32 + i) (by omega)]
    simp [hsplit, hpre, hi]
  have hfs : (Vector.ofFn fun i : Fin 8 => b (start + (43 + i))) = bpb.fsType := by
    refine Vector.ext fun i hi => ?_
    have h1 : ¬ 43 + i < 32 := by omega
    have h2 : ¬ 43 + i - 32 < 11 := by omega
    have h3 : 43 + i - 32 - 11 = i := by omega
    rw [Vector.getElem_ofFn, h (43 + i) (by omega)]
    simp [hsplit, List.getElem_append, hpre, h1, h2, h3]
  rw [BiosParamBlock.ofBytes, hlabel, hfs, getPair_held h 0 bpb.sectorSize,
    h 2 (by omega), getPair_held h 3 bpb.reservedSectorCount, h 5 (by omega),
    getPair_held h 6 bpb.rootDirCapacity, getPair_held h 8 bpb.sectorCount, h 10 (by omega),
    getPair_held h 11 bpb.sectorsPerTable, getPair_held h 13 bpb.sectorsPerTrack,
    getPair_held h 15 bpb.headCount, getLong_held h 17 bpb.hiddenSectorCount,
    getLong_held h 21 bpb.sectorCountLarge, h 25 (by omega), h 26 (by omega), h 27 (by omega),
    getLong_held h 28 bpb.volumeId]
  all_goals simp [BiosParamBlock.bytes, littleEndian]

theorem BiosParamBlock.ofBytes_congr {b b' : Buffer} {start : Nat}
    (h : ∀ k < 51, b (start + k) = b' (start + k)) :
    BiosParamBlock.ofBytes b start = BiosParamBlock.ofBytes b' start := by
  have hp : ∀ k, k + 1 < 51 → getPair b (start + k) = getPair b' (start + k) := by
    intro k hk
    rw [getPair, getPair, Nat.add_assoc, h k (by omega), h (k + 1) hk]
  have hl : ∀ k, k + 3 < 51 → getLong b (start + k) = getLong b' (start + k) := by
    intro k hk
    rw [getLong, getLong, Nat.add_assoc, hp (k + 2) (by omega), hp k (by omega)]
  have hlabel : (fun k : Fin 11 => b (start + (32 + k))) = fun k : Fin 11 => b' (start + (32 + k)) :=
    funext fun k => h _ (by omega)
  have hfs : (fun k : Fin 8 => b (start + (43 + k))) = fun k : Fin 8 => b' (start + (43 + k)) :=
    funext fun k => h _ (by omega)
  rw [ofBytes, ofBytes, hlabel, hfs, hp 0 (by omega), h 2 (by omega), hp 3 (by omega), h 5 (by omega),
    hp 6 (by omega), hp 8 (by omega), h 10 (by omega), hp 11 (by omega), hp 13 (by omega),
    hp 15 (by omega), hl 17 (by omega), hl 21 (by omega), h 25 (by omega), h 26 (by omega),
    h 27 (by omega), hl 28 (by omega)]

/-! ## Tables of entries -/

def entryAt (table : Buffer) (i : Nat) : DirEntry := DirEntry.ofBytes table (DIR_ENTRY_SIZE * i)

def storeEntry (table : Buffer) (i : Nat) (e : DirEntry) : Buffer :=
  overlay table (DIR_ENTRY_SIZE * i) e.bytes

theorem entryAt_congr {table table' : Buffer} {i : Nat}
    (h : ∀ a, DIR_ENTRY_SIZE * i ≤ a → a < DIR_ENTRY_SIZE * (i + 1) → table a = table' a) :
    entryAt table i = entryAt table' i := by
  rw [DIR_ENTRY_SIZE] at h
  have hb : ∀ k < 32, table (DIR_ENTRY_SIZE * i + k) = table' (DIR_ENTRY_SIZE * i + k) :=
    fun k hk => h _ (by rw [DIR_ENTRY_SIZE]; omega) (by rw [DIR_ENTRY_SIZE]; omega)
  have hp : ∀ k, k + 1 < 32 →
      getPair table (DIR_ENTRY_SIZE * i + k) = getPair table' (DIR_ENTRY_SIZE * i + k) := by
    intro k hk
    rw [getPair, getPair, Nat.add_assoc, hb k (by omega), hb (k + 1) hk]
  have hlabel : (fun k : Fin 11 => table (DIR_ENTRY_SIZE * i + k)) =
      fun k : Fin 11 => table' (DIR_ENTRY_SIZE * i + k) := funext fun k => hb k (by omega)
  rw [entryAt, entryAt, DirEntry.ofBytes, DirEntry.ofBytes, hlabel, hb 11 (by omega),
    hb 12 (by omega), hb 13 (by omega), hp 14 (by omega), hp 16 (by omega), hp 18 (by omega),
    hp 20 (by omega), hp 22 (by omega), hp 24 (by omega), hp 26 (by omega), getLong, getLong,
    Nat.add_assoc, hp (28 + 2) (by omega), hp 28 (by omega)]

theorem entryAt_storeEntry (table : Buffer) (i k : Nat) (e : DirEntry) :
    entryAt (storeEntry table k e) i = if i = k then e else entryAt table i := by
  have hlen : e.bytes.length = DIR_ENTRY_SIZE := e.bytes_length
  split
  · rename_i h
    subst h
    exact DirEntry.ofBytes_held fun j hj => overlay_inside table _ hj
  · rename_i h
    refine entryAt_congr fun a ha hlt => ?_
    rcases Nat.lt_or_gt_of_ne h with hik | hik
    · have := Nat.mul_le_mul_left DIR_ENTRY_SIZE (by omega : i + 1 ≤ k)
      exact overlay_before table e.bytes (by omega)
    · have := Nat.mul_le_mul_left DIR_ENTRY_SIZE (by omega : k + 1 ≤ i)
      rw [Nat.mul_add, Nat.mul_one] at this
      exact overlay_after table e.bytes (by omega)

end Ohwes.Fatfs

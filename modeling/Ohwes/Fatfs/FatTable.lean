import Mathlib.Tactic.IntervalCases
import Ohwes.Fatfs.BootSector

/-! # `tools/fatfs/fat.c`: the file allocation table

A table is its bytes; an index behind the buffer reads and writes the memory that follows it. Two
12-bit entries share three bytes, so that storing one of them rewrites a byte of its neighbour. -/

namespace Ohwes.Fatfs
set_option autoImplicit false

abbrev Buffer := Nat → Byte

/-- The 16 bits at a byte of the table. -/
def getPair (fat : Buffer) (i : Nat) : BitVec 16 := fat (i + 1) ++ fat i

def setPair (fat : Buffer) (i : Nat) (pair : BitVec 16) : Buffer :=
  Function.update (Function.update fat i (pair.extractLsb' 0 8)) (i + 1) (pair.extractLsb' 8 8)

def getCluster12 (fat : Buffer) (index : Nat) : Nat :=
  let pair := getPair fat (u32 (index + index / 2))
  if index % 2 = 1 then (pair >>> (4 : Nat)).toNat else (pair &&& 0x0FFF).toNat

def getCluster16 (fat : Buffer) (index : Nat) : Nat := (getPair fat (u32 (index * 2))).toNat

/-- `SetCluster12`: the old value and the table with the new one. -/
def setCluster12 (fat : Buffer) (index value : Nat) : Nat × Buffer :=
  let oldValue := getCluster12 fat index
  let i := u32 (index + index / 2)
  let pair := getPair fat i
  let pair :=
    if index % 2 = 1 then pair &&& 0x000F ||| BitVec.ofNat 16 (u32 (value * 16))
    else pair &&& 0xF000 ||| BitVec.ofNat 16 (value % 4096)
  (oldValue, setPair fat i pair)

def setCluster16 (fat : Buffer) (index value : Nat) : Nat × Buffer :=
  (getCluster16 fat index, setPair fat (u32 (index * 2)) (BitVec.ofNat 16 value))

/-- `memset` of the first `size` bytes to zero. -/
def zeroFill (b : Buffer) (size : Nat) : Buffer := fun a => if a < size then 0 else b a

def initFat12 (fat : Buffer) (sizeBytes : Nat) (mediaType : Byte) (eoc : Nat) : Call Buffer := do
  let fat := zeroFill fat sizeBytes
  assert (CLUSTER_EOC_12_LO ≤ eoc % 4096)
  assert (eoc % 4096 ≤ CLUSTER_EOC_12_HI)
  let fat := (setCluster12 fat 0 (0x0F00 + mediaType.toNat)).2
  return (setCluster12 fat 1 eoc).2

def initFat16 (fat : Buffer) (sizeBytes : Nat) (mediaType : Byte) (eoc : Nat) : Call Buffer := do
  let fat := zeroFill fat sizeBytes
  assert (CLUSTER_EOC_16_LO ≤ eoc % 65536)
  assert (eoc % 65536 ≤ CLUSTER_EOC_16_HI)
  let fat := (setCluster16 fat 0 (0xFF00 + mediaType.toNat)).2
  return (setCluster16 fat 1 eoc).2

/-! ## Reading back what was stored -/

theorem getPair_toNat (fat : Buffer) (i : Nat) :
    (getPair fat i).toNat = (fat (i + 1)).toNat * 256 + (fat i).toNat := by
  have h := (fat i).isLt
  rw [getPair, BitVec.toNat_append, ← Nat.shiftLeft_add_eq_or_of_lt h, Nat.shiftLeft_eq]

theorem setPair_low (fat : Buffer) (i : Nat) (pair : BitVec 16) :
    (setPair fat i pair i).toNat = pair.toNat % 256 := by
  rw [setPair, Function.update_of_ne (by omega), Function.update_self, BitVec.extractLsb'_toNat]
  simp

theorem setPair_high (fat : Buffer) (i : Nat) (pair : BitVec 16) :
    (setPair fat i pair (i + 1)).toNat = pair.toNat / 256 := by
  rw [setPair, Function.update_self, BitVec.extractLsb'_toNat, Nat.shiftRight_eq_div_pow]
  have h := pair.isLt
  omega

theorem setPair_other (fat : Buffer) (i : Nat) (pair : BitVec 16) {a : Nat} (h : a ≠ i)
    (h' : a ≠ i + 1) : setPair fat i pair a = fat a := by
  rw [setPair, Function.update_of_ne h', Function.update_of_ne h]

theorem and_high_nibble (pair : BitVec 16) :
    (pair &&& 0xF000).toNat = pair.toNat / 4096 * 4096 := by
  have h : pair &&& 0xF000 = pair >>> (12 : Nat) <<< (12 : Nat) := by
    refine BitVec.eq_of_getLsbD_eq fun i hi => ?_
    interval_cases i <;> simp
  have hp := pair.isLt
  rw [h, BitVec.toNat_shiftLeft, BitVec.toNat_ushiftRight, Nat.shiftRight_eq_div_pow,
    Nat.shiftLeft_eq]
  omega

theorem and_low_bits (pair : BitVec 16) (k : Nat) (hk : k ≤ 16) :
    (pair &&& BitVec.ofNat 16 (2 ^ k - 1)).toNat = pair.toNat % 2 ^ k := by
  have h : 2 ^ k ≤ 2 ^ 16 := Nat.pow_le_pow_right (by omega) hk
  rw [BitVec.toNat_and, BitVec.toNat_ofNat, Nat.mod_eq_of_lt (by omega),
    Nat.and_two_pow_sub_one_eq_mod]

/-- The pair that `SetCluster12` stores: the nibble of the neighbour stays. -/
theorem mergePair_toNat (pair : BitVec 16) (index value : Nat) :
    (if index % 2 = 1 then pair &&& 0x000F ||| BitVec.ofNat 16 (u32 (value * 16))
      else pair &&& 0xF000 ||| BitVec.ofNat 16 (value % 4096)).toNat =
    if index % 2 = 1 then value % 4096 * 16 + pair.toNat % 16
    else pair.toNat / 4096 * 4096 + value % 4096 := by
  split
  · have hv : (BitVec.ofNat 16 (u32 (value * 16))).toNat = (value % 4096) <<< 4 := by
      rw [BitVec.toNat_ofNat, Nat.shiftLeft_eq, u32]
      omega
    have hlow := and_low_bits pair 4 (by omega)
    have hlt : pair.toNat % 16 < 2 ^ 4 := Nat.mod_lt _ (by omega)
    rw [BitVec.toNat_or, hv, Nat.or_comm]
    rw [show (pair &&& 0x000F).toNat = pair.toNat % 16 from hlow,
      ← Nat.shiftLeft_add_eq_or_of_lt hlt, Nat.shiftLeft_eq]
  · have hv : (BitVec.ofNat 16 (value % 4096)).toNat = value % 4096 := by
      rw [BitVec.toNat_ofNat]
      omega
    have hlt : value % 4096 < 2 ^ 12 := Nat.mod_lt _ (by omega)
    have hhigh : pair.toNat / 4096 * 4096 = (pair.toNat / 4096) <<< 12 := by
      rw [Nat.shiftLeft_eq]
    rw [BitVec.toNat_or, hv, and_high_nibble, hhigh, ← Nat.shiftLeft_add_eq_or_of_lt hlt]

/-- An entry of 12 bits as a number of its three bytes' pairs. -/
theorem getCluster12_eq (fat : Buffer) {index : Nat} (h : index + index / 2 < 4294967296) :
    getCluster12 fat index =
      if index % 2 = 1 then
        ((fat (index + index / 2 + 1)).toNat * 256 + (fat (index + index / 2)).toNat) / 16
      else ((fat (index + index / 2 + 1)).toNat * 256 + (fat (index + index / 2)).toNat) % 4096 := by
  have hi : u32 (index + index / 2) = index + index / 2 := u32_of_lt h
  have hlow := and_low_bits (getPair fat (index + index / 2)) 12 (by omega)
  simp only [getCluster12, hi]
  split
  · rw [BitVec.toNat_ushiftRight, Nat.shiftRight_eq_div_pow, getPair_toNat]
  · rw [show (getPair fat (index + index / 2) &&& 0x0FFF).toNat =
      (getPair fat (index + index / 2)).toNat % 4096 from hlow, getPair_toNat]

theorem getCluster16_eq (fat : Buffer) {index : Nat} (h : index < 2147483648) :
    getCluster16 fat index = (fat (2 * index + 1)).toNat * 256 + (fat (2 * index)).toNat := by
  have hi : u32 (index * 2) = 2 * index := by
    rw [u32_of_lt (by omega)]
    omega
  rw [getCluster16, hi, getPair_toNat]

/-- An entry is as before where the bytes of the table are. -/
theorem getCluster_table_congr {fat fat' : Buffer} {size : Nat} (hfat : ∀ i < size, fat' i = fat i)
    {fat12 : Bool} {index : Nat} (h : index < 2147483648)
    (hroom : if fat12 then index + index / 2 + 1 < size else 2 * index + 1 < size) :
    (if fat12 then getCluster12 fat' index else getCluster16 fat' index) =
      if fat12 then getCluster12 fat index else getCluster16 fat index := by
  split
  · rw [if_pos ‹_›] at hroom
    rw [getCluster12_eq _ (by omega), getCluster12_eq _ (by omega), hfat _ hroom, hfat _ (by omega)]
  · rw [if_neg ‹_›] at hroom
    rw [getCluster16_eq _ h, getCluster16_eq _ h, hfat _ hroom, hfat _ (by omega)]

theorem getCluster12_lt (fat : Buffer) (index : Nat) : getCluster12 fat index < 4096 := by
  have hlow := and_low_bits (getPair fat (u32 (index + index / 2))) 12 (by omega)
  have h := (getPair fat (u32 (index + index / 2))).isLt
  simp only [getCluster12]
  split
  · rw [BitVec.toNat_ushiftRight, Nat.shiftRight_eq_div_pow]
    omega
  · rw [show (getPair fat (u32 (index + index / 2)) &&& 0x0FFF).toNat = _ from hlow]
    omega

theorem getCluster16_lt (fat : Buffer) (index : Nat) : getCluster16 fat index < 65536 :=
  (getPair fat (u32 (index * 2))).isLt

/-- After a store of 12 bits, every entry but the one stored has its old value. -/
theorem getCluster12_setCluster12 (fat : Buffer) {i j : Nat} (value : Nat)
    (hi : i + i / 2 < 4294967296) (hj : j + j / 2 < 4294967296) :
    getCluster12 (setCluster12 fat i value).2 j =
      if j = i then value % 4096 else getCluster12 fat j := by
  have hu : u32 (i + i / 2) = i + i / 2 := u32_of_lt hi
  have hm := mergePair_toNat (getPair fat (i + i / 2)) i value
  rw [getPair_toNat] at hm
  rw [getCluster12_eq _ hj, getCluster12_eq _ hj]
  simp only [setCluster12, hu]
  generalize (if i % 2 = 1 then
      getPair fat (i + i / 2) &&& 0x000F ||| BitVec.ofNat 16 (u32 (value * 16))
    else getPair fat (i + i / 2) &&& 0xF000 ||| BitVec.ofNat 16 (value % 4096)) = pair at hm ⊢
  have hlow := setPair_low fat (i + i / 2) pair
  have hhigh := setPair_high fat (i + i / 2) pair
  have hother := fun a => setPair_other fat (i + i / 2) pair (a := a)
  have hb0 := (fat (i + i / 2)).isLt
  have hb1 := (fat (i + i / 2 + 1)).isLt
  by_cases hji : j = i
  · subst hji
    rw [if_pos rfl, hlow, hhigh]
    split at hm <;> rename_i hodd
    · rw [if_pos hodd]
      omega
    · rw [if_neg hodd]
      omega
  · rw [if_neg hji]
    by_cases hnext : j = i + 1 ∧ i % 2 = 0
    -- the odd neighbour shares the byte that holds this entry's high nibble
    · obtain ⟨rfl, heven⟩ := hnext
      have hstart : i + 1 + (i + 1) / 2 = i + i / 2 + 1 := by omega
      rw [hstart, hhigh, hother (i + i / 2 + 1 + 1) (by omega) (by omega)]
      rw [if_neg (by omega)] at hm
      rw [if_pos (by omega), if_pos (by omega)]
      omega
    · by_cases hprev : i = j + 1 ∧ j % 2 = 0
      · obtain ⟨rfl, heven⟩ := hprev
        have hstart : j + 1 + (j + 1) / 2 = j + j / 2 + 1 := by omega
        rw [hstart] at hlow hm hother hb0 ⊢
        rw [if_pos (by omega)] at hm
        rw [if_neg (by omega), if_neg (by omega), hlow, hother (j + j / 2) (by omega) (by omega)]
        omega
      · rw [hother (j + j / 2) (by omega) (by omega), hother (j + j / 2 + 1) (by omega) (by omega)]

theorem getCluster16_setCluster16 (fat : Buffer) {i j : Nat} (value : Nat)
    (hi : i < 2147483648) (hj : j < 2147483648) :
    getCluster16 (setCluster16 fat i value).2 j =
      if j = i then value % 65536 else getCluster16 fat j := by
  have hu : u32 (i * 2) = 2 * i := by
    rw [u32_of_lt (by omega)]
    omega
  have hlow := setPair_low fat (2 * i) (BitVec.ofNat 16 value)
  have hhigh := setPair_high fat (2 * i) (BitVec.ofNat 16 value)
  rw [BitVec.toNat_ofNat] at hlow hhigh
  rw [getCluster16_eq _ hj, getCluster16_eq _ hj]
  simp only [setCluster16, hu]
  split
  · subst j
    rw [hlow, hhigh]
    omega
  · rw [setPair_other _ _ _ (by omega) (by omega), setPair_other _ _ _ (by omega) (by omega)]

/-! ## Storing what an entry holds -/

theorem setPair_self (fat : Buffer) (i : Nat) : setPair fat i (getPair fat i) = fat := by
  have hb0 := (fat i).isLt
  have hpair := getPair_toNat fat i
  funext a
  refine BitVec.eq_of_toNat_eq ?_
  by_cases hlow : a = i
  · rw [hlow, setPair_low, hpair]
    omega
  · by_cases hhigh : a = i + 1
    · rw [hhigh, setPair_high, hpair]
      omega
    · rw [setPair_other fat i _ hlow hhigh]

theorem setCluster12_self (fat : Buffer) (index : Nat) :
    (setCluster12 fat index (getCluster12 fat index)).2 = fat := by
  have hlow := and_low_bits (getPair fat (u32 (index + index / 2))) 12 (by omega)
  have hmerge : (if index % 2 = 1 then getPair fat (u32 (index + index / 2)) &&& 0x000F |||
        BitVec.ofNat 16 (u32 (getCluster12 fat index * 16))
      else getPair fat (u32 (index + index / 2)) &&& 0xF000 |||
        BitVec.ofNat 16 (getCluster12 fat index % 4096)) = getPair fat (u32 (index + index / 2)) := by
    refine BitVec.eq_of_toNat_eq ?_
    rw [mergePair_toNat, Nat.mod_eq_of_lt (getCluster12_lt fat index), getCluster12]
    split
    · rw [BitVec.toNat_ushiftRight, Nat.shiftRight_eq_div_pow]
      omega
    · rw [show (getPair fat (u32 (index + index / 2)) &&& 0x0FFF).toNat = _ from hlow]
      omega
  rw [setCluster12]
  dsimp only
  rw [hmerge]
  exact setPair_self fat _

theorem setCluster16_self (fat : Buffer) (index : Nat) :
    (setCluster16 fat index (getCluster16 fat index)).2 = fat := by
  rw [setCluster16, getCluster16, BitVec.ofNat_toNat, BitVec.setWidth_eq]
  exact setPair_self fat _

/-! ## The entries of a table -/

/-- The bytes of the entry are among the first `size`. -/
def InTable12 (size index : Nat) : Prop := index + index / 2 + 1 < size

def InTable16 (size index : Nat) : Prop := index * 2 + 1 < size

/-- A store hands back the old value of an entry, cuts the new one to the width of the entry, and
keeps every other entry of the table. -/
theorem cluster_entries_independent (fat : Buffer) (size : Nat) (hsize : size ≤ 4294967296)
    (v : BitVec 32) :
    (∀ i, InTable12 size i →
      (setCluster12 fat i v.toNat).1 = getCluster12 fat i ∧
      getCluster12 (setCluster12 fat i v.toNat).2 i = v.toNat % 2 ^ 12 ∧
      ∀ j, InTable12 size j → j ≠ i →
        getCluster12 (setCluster12 fat i v.toNat).2 j = getCluster12 fat j) ∧
    ∀ i, InTable16 size i →
      (setCluster16 fat i v.toNat).1 = getCluster16 fat i ∧
      getCluster16 (setCluster16 fat i v.toNat).2 i = v.toNat % 2 ^ 16 ∧
      ∀ j, InTable16 size j → j ≠ i →
        getCluster16 (setCluster16 fat i v.toNat).2 j = getCluster16 fat j := by
  have h12 : ∀ i, InTable12 size i → i + i / 2 < 4294967296 := fun i hi =>
    Nat.lt_of_lt_of_le (Nat.lt_of_succ_lt hi) hsize
  have h16 : ∀ i, InTable16 size i → i < 2147483648 := by
    intro i hi
    have hlt : i * 2 + 1 < 4294967296 := Nat.lt_of_lt_of_le hi hsize
    omega
  constructor
  · intro i hi
    refine ⟨rfl, ?_, fun j hj hji => ?_⟩
    · rw [getCluster12_setCluster12 fat v.toNat (h12 i hi) (h12 i hi), if_pos rfl]
      rfl
    · rw [getCluster12_setCluster12 fat v.toNat (h12 i hi) (h12 j hj), if_neg hji]
  · intro i hi
    refine ⟨rfl, ?_, fun j hj hji => ?_⟩
    · rw [getCluster16_setCluster16 fat v.toNat (h16 i hi) (h16 i hi), if_pos rfl]
      rfl
    · rw [getCluster16_setCluster16 fat v.toNat (h16 i hi) (h16 j hj), if_neg hji]

/-- A value wider than the entry, between two neighbours that stay. -/
theorem cluster_entries_independent_wide :
    getCluster12 (setCluster12 (fun _ => 0xA5) 3 0x12345).2 3 = 0x345 ∧
      getCluster12 (setCluster12 (fun _ => 0xA5) 3 0x12345).2 2 = 0x5A5 ∧
      getCluster12 (setCluster12 (fun _ => 0xA5) 3 0x12345).2 4 = 0x5A5 := by
  have h := ((cluster_entries_independent (fun _ => 0xA5) 512 (by decide) 0x12345).1 3
    (by rw [InTable12]; decide)).2
  exact ⟨h.1, (h.2 2 (by rw [InTable12]; decide) (by decide)).trans (by decide),
    (h.2 4 (by rw [InTable12]; decide) (by decide)).trans (by decide)⟩

end Ohwes.Fatfs

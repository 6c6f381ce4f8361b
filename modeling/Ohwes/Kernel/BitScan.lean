import Ohwes.Kernel.Bitops
import Ohwes.Library.Runs

/-! # `i386/bitops.h`: the bit instructions

`btsl`, `btrl`, `btcl` and `btl` take their index from a 32-bit register, as a signed number of bits
from the start of the string. `bit_scan_forward` keeps its counters in registers and returns an
`int`. -/

namespace Ohwes
set_option autoImplicit false
open Library

/-- A bit string in memory; its size in bytes, a multiple of 4, is an `unsigned int`. -/
structure BitArea where
  dwords : List (BitVec 32)
  fits : 4 * dwords.length < 2 ^ 32

namespace BitArea

/-- Size in bytes. -/
def size (a : BitArea) : BitVec 32 := BitVec.ofNat 32 (4 * a.dwords.length)

/-- Number of bits. -/
def bits (a : BitArea) : Nat := 32 * a.dwords.length

/-- The bit a bit instruction reaches: bit `index mod 32` of the dword at the signed quotient, at an
address that wraps at 4 GiB. -/
def place (index : BitVec 32) : Nat :=
  32 * ((index.sshiftRight 5).toNat % 2 ^ 30) + index.toNat % 32

def setBit (a : BitArea) (index : BitVec 32) : Call BitArea :=
  if place index < a.bits then
    .ok ⟨setAt a.dwords (place index), by rw [setAt_length]; exact a.fits⟩
  else .error .fault

def clearBit (a : BitArea) (index : BitVec 32) : Call BitArea :=
  if place index < a.bits then
    .ok ⟨clearAt a.dwords (place index), by rw [clearAt_length]; exact a.fits⟩
  else .error .fault

def flipBit (a : BitArea) (index : BitVec 32) : Call BitArea :=
  if place index < a.bits then
    .ok ⟨flipAt a.dwords (place index), by rw [flipAt_length]; exact a.fits⟩
  else .error .fault

/-- `sbb` spreads the carry over the register: all ones if the bit is set. -/
def testBit (a : BitArea) (index : BitVec 32) : Call Int :=
  if place index < a.bits then .ok (if bitAt a.dwords (place index) then -1 else 0)
  else .error .fault

/-! ## The scan -/

/-- `%ecx`, `%edx` and `%eax` of the loop. -/
structure ScanRegs where
  dwordIndex : BitVec 32
  dwordCount : BitVec 32
  bitIndex : BitVec 32
deriving DecidableEq, Repr

/-- The loop, for at most so many rounds. `bsfl` of a zero dword sets the zero flag and leaves its
destination as it was. -/
def scanLoop (a : BitArea) : Nat → ScanRegs → Call ScanRegs
  | 0, _ => .error .diverges
  | fuel + 1, r =>
    let dwordIndex := r.dwordIndex + 1
    let dwordCount := r.dwordCount - 1
    -- `js 2f`
    if dwordCount.msb then .ok ⟨dwordIndex, dwordCount, r.bitIndex⟩
    else match a.dwords[dwordIndex.toNat % 2 ^ 30]? with
      | none => .error .fault
      | some dword => match leastBit dword with
        -- `jz 1b`
        | none => a.scanLoop fuel ⟨dwordIndex, dwordCount, r.bitIndex⟩
        | some bit => .ok ⟨dwordIndex, dwordCount, BitVec.ofNat 32 bit⟩

/-- What is returned: the registers of the loop's end are `int`s. -/
def ScanRegs.result (r : ScanRegs) : Int :=
  if r.dwordCount.msb then -1 else ((r.dwordIndex <<< 5) + r.bitIndex).toInt

/-- `bit_scan_forward`. The uninitialised `bit_index` is in `%eax` on entry. -/
def bitScanForward (a : BitArea) (size eax : BitVec 32) (fuel : Nat) : Call Int := do
  let r ← a.scanLoop fuel ⟨-1, size >>> 2, eax⟩
  .ok r.result

/-! ## Runs -/

inductive BitOp where
  | set (index : BitVec 32)
  | clear (index : BitVec 32)
  | flip (index : BitVec 32)
deriving DecidableEq, Repr

def BitOp.index : BitOp → BitVec 32
  | .set index | .clear index | .flip index => index

def step (a : BitArea) : BitOp → Call BitArea
  | .set index => a.setBit index
  | .clear index => a.clearBit index
  | .flip index => a.flipBit index

def InRange (a : BitArea) (index : BitVec 32) : Prop := index.toNat < a.bits

/-- `r` is the least index whose bit `test_bit` reports set, or -1 if there is none. Reading any
bit stays inside the string. -/
def LeastReported (a : BitArea) (r : Int) : Prop :=
  (r = -1 ∧ ∀ i, a.InRange i → a.testBit i = .ok 0) ∨
  ∃ i, a.InRange i ∧ r = i.toNat ∧ (∃ v, a.testBit i = .ok v ∧ v ≠ 0) ∧
    ∀ j, j.toNat < i.toNat → a.testBit j = .ok 0

/-- The scan comes back, has read inside the string only, and returns the least bit reported set. -/
def ScansRight (a : BitArea) : Prop :=
  ∃ r, (∀ eax, ∃ n, ∀ fuel ≥ n, a.bitScanForward a.size eax fuel = .ok r) ∧ a.LeastReported r

/-- Whatever is done to the bits in range, the scan is right afterwards. -/
def AlwaysScansRight (a : BitArea) : Prop :=
  ∀ ops : List BitOp, (∀ op ∈ ops, a.InRange op.index) → ∃ b, run step a ops = .ok b ∧ b.ScansRight

/-! ## Where the instructions reach -/

theorem length_lt (a : BitArea) : a.dwords.length < 2 ^ 30 := by
  have := a.fits
  omega

theorem toNat_index {k : Nat} (h : k < 2 ^ 31) : (BitVec.ofNat 32 k).toNat = k := by
  rw [BitVec.toNat_ofNat]
  omega

theorem place_of_lt {index : BitVec 32} (h : index.toNat < 2 ^ 31) : place index = index.toNat := by
  have hmsb : index.msb = false := BitVec.msb_eq_false_iff_two_mul_lt.2 (by omega)
  rw [place, BitVec.sshiftRight_eq_of_msb_false hmsb, BitVec.toNat_ushiftRight,
    Nat.shiftRight_eq_div_pow, Nat.mod_eq_of_lt (by omega)]
  omega

/-- An index with the top bit set is a negative number of bits. -/
theorem le_place {index : BitVec 32} (h : 2 ^ 31 ≤ index.toNat) : 2 ^ 31 ≤ place index := by
  have hlt := index.isLt
  have hquot : (index.sshiftRight 5).toNat = 2 ^ 32 - 2 ^ 27 + index.toNat / 32 := by
    have hmsb : index.msb = true := BitVec.msb_eq_true_iff_two_mul_ge.2 (by omega)
    have hnot : (~~~index).toNat = 2 ^ 32 - 1 - index.toNat := BitVec.toNat_not
    rw [BitVec.sshiftRight_eq_of_msb_true hmsb, BitVec.toNat_not, BitVec.toNat_ushiftRight, hnot,
      Nat.shiftRight_eq_div_pow]
    omega
  rw [place, hquot]
  omega

theorem testBit_eq {a : BitArea} {i : BitVec 32} (h : place i < a.bits) :
    a.testBit i = .ok (if bitAt a.dwords (place i) then -1 else 0) := if_pos h

theorem testBit_of_lt {a : BitArea} {i : BitVec 32} (h : i.toNat < 2 ^ 31) (hi : a.InRange i) :
    a.testBit i = .ok (if bitAt a.dwords i.toNat then -1 else 0) := by
  have hplace := place_of_lt h
  rw [testBit_eq (hplace.symm ▸ hi), hplace]

/-- In a string of at most 2³¹ bits every index in range is a bit of its own. -/
theorem InRange.lt {a : BitArea} {i : BitVec 32} (hi : a.InRange i)
    (h : 4 * a.dwords.length ≤ 2 ^ 28) : i.toNat < 2 ^ 31 := by
  rw [InRange, bits] at hi
  omega

/-! ## Sequences of operations -/

/-- What an operation makes of the bit it names. -/
def BitOp.newValue : BitOp → Bool → Bool
  | .set _, _ => true
  | .clear _, _ => false
  | .flip _, v => !v

/-- What a sequence of operations makes of bit `j`. -/
def bitAfter (ops : List BitOp) (j : Nat) (v : Bool) : Bool :=
  ops.foldl (fun v op => if j = op.index.toNat then op.newValue v else v) v

theorem reach_of_step {a b : BitArea} {op : BitOp} (h : a.step op = .ok b) :
    place op.index < a.bits := by
  by_contra hout
  have hfault : a.step op = .error .fault := by cases op <;> exact if_neg hout
  rw [hfault] at h
  cases h

/-- An operation that reaches a bit of the string changes that bit and no other. -/
theorem step_ok {a : BitArea} {op : BitOp} (h : place op.index < a.bits) :
    ∃ b, a.step op = .ok b ∧ b.dwords.length = a.dwords.length ∧
      ∀ j, bitAt b.dwords j =
        if j = place op.index then op.newValue (bitAt a.dwords j) else bitAt a.dwords j := by
  cases op with
  | set i =>
    rw [BitOp.index] at h ⊢
    refine ⟨_, if_pos h, setAt_length .., fun j => ?_⟩
    simp only [bitAt_setAt h]
    by_cases hj : j = place i <;> simp [hj, BitOp.newValue]
  | clear i =>
    rw [BitOp.index] at h ⊢
    refine ⟨_, if_pos h, clearAt_length .., fun j => ?_⟩
    simp only [bitAt_clearAt h]
    by_cases hj : j = place i <;> simp [hj, BitOp.newValue]
  | flip i =>
    rw [BitOp.index] at h ⊢
    refine ⟨_, if_pos h, flipAt_length .., fun j => ?_⟩
    simp only [bitAt_flipAt h]
    by_cases hj : j = place i <;> simp [hj, BitOp.newValue]

/-- Below index 2³¹ the operations stay inside the string and do what their names say. -/
theorem run_ok {a : BitArea} {ops : List BitOp}
    (h : ∀ op ∈ ops, op.index.toNat < 2 ^ 31 ∧ a.InRange op.index) :
    ∃ b, run step a ops = .ok b ∧ b.dwords.length = a.dwords.length ∧
      ∀ j, bitAt b.dwords j = bitAfter ops j (bitAt a.dwords j) := by
  induction ops generalizing a with
  | nil => exact ⟨a, rfl, rfl, fun _ => rfl⟩
  | cons op ops ih =>
    obtain ⟨hlt, hin⟩ := h op (List.mem_cons_self ..)
    have hplace : place op.index = op.index.toNat := place_of_lt hlt
    have hreach : place op.index < a.bits := hplace.symm ▸ hin
    obtain ⟨m, hm, hmlen, hmbits⟩ := step_ok hreach
    have hrest : ∀ o ∈ ops, o.index.toNat < 2 ^ 31 ∧ m.InRange o.index := by
      intro o ho
      have := h o (List.mem_cons_of_mem _ ho)
      rwa [InRange, bits, hmlen]
    obtain ⟨b, hb, hblen, hbbits⟩ := ih hrest
    refine ⟨b, ?_, hblen.trans hmlen, fun j => ?_⟩
    · exact (run_cons_ok step).mpr ⟨m, hm, hb⟩
    · rw [hbbits j, hmbits j, hplace]
      rfl

/-! ## The loop -/

/-- The first bit set, as the `int` that is returned. -/
def scanned (a : BitArea) : Int :=
  match (setBits a.dwords).head? with
  | none => -1
  | some i => (BitVec.ofNat 32 i).toInt

theorem ofNat_succ_sub_one (n : Nat) : BitVec.ofNat 32 (n + 1) - 1 = BitVec.ofNat 32 n := by
  rw [BitVec.ofNat_add]
  exact BitVec.add_sub_cancel ..

theorem index_of_dword (n b : Nat) :
    (BitVec.ofNat 32 n <<< 5) + BitVec.ofNat 32 b = BitVec.ofNat 32 (32 * n + b) := by
  apply BitVec.eq_of_toNat_eq
  simp only [BitVec.toNat_add, BitVec.toNat_shiftLeft, BitVec.toNat_ofNat, Nat.shiftLeft_eq]
  omega

/-- With the dwords of `pre` behind it the loop finds the first bit set in those ahead. -/
theorem scanLoop_eq {a : BitArea} (pre ws : List (BitVec 32)) (h : a.dwords = pre ++ ws)
    (eax : BitVec 32) {fuel : Nat} (hfuel : ws.length < fuel) :
    ∃ r, a.scanLoop fuel ⟨BitVec.ofNat 32 pre.length - 1, BitVec.ofNat 32 ws.length, eax⟩ = .ok r ∧
      r.result = match (setBits ws).head? with
        | none => -1
        | some i => (BitVec.ofNat 32 (32 * pre.length + i)).toInt := by
  have hlen := a.length_lt
  rw [h, List.length_append] at hlen
  induction ws generalizing pre fuel with
  | nil =>
    obtain ⟨fuel, rfl⟩ := Nat.exists_eq_succ_of_ne_zero (Nat.ne_of_gt hfuel)
    have hmsb : (-1 : BitVec 32).msb = true := by decide
    refine ⟨⟨BitVec.ofNat 32 pre.length - 1 + 1, -1, eax⟩, if_pos hmsb, ?_⟩
    rw [ScanRegs.result, if_pos hmsb]
    simp [setBits]
  | cons x ws ih =>
    obtain ⟨fuel, rfl⟩ := Nat.exists_eq_succ_of_ne_zero (Nat.ne_of_gt (Nat.zero_lt_of_lt hfuel))
    rw [List.length_cons] at hfuel hlen
    have hindex : BitVec.ofNat 32 pre.length - 1 + 1 = BitVec.ofNat 32 pre.length := by
      rw [BitVec.sub_add_cancel]
    have hcount := ofNat_succ_sub_one ws.length
    have hmsb : (BitVec.ofNat 32 ws.length).msb = false := by
      apply BitVec.msb_eq_false_iff_two_mul_lt.2
      rw [BitVec.toNat_ofNat]
      omega
    have hget : a.dwords[(BitVec.ofNat 32 pre.length).toNat % 2 ^ 30]? = some x := by
      have hat : (BitVec.ofNat 32 pre.length).toNat % 2 ^ 30 = pre.length := by
        rw [BitVec.toNat_ofNat]
        omega
      rw [hat, h]
      simp
    rw [List.length_cons, scanLoop]
    simp only [hindex, hcount, hmsb, Bool.false_eq_true, if_false, hget]
    rw [setBits_cons (by omega), List.head?_append, ← leastBit_eq]
    cases hx : leastBit x with
    | some b =>
      refine ⟨_, rfl, ?_⟩
      rw [ScanRegs.result, hmsb, Option.some_or]
      simp only [Bool.false_eq_true, if_false, index_of_dword]
    | none =>
      have hsplit : a.dwords = (pre ++ [x]) ++ ws := by simp [h]
      have hnext := ih (pre ++ [x]) hsplit (by omega : ws.length < fuel) (by simp; omega)
      have hpre : BitVec.ofNat 32 (pre ++ [x]).length - 1 = BitVec.ofNat 32 pre.length := by
        rw [List.length_append, List.length_singleton, ofNat_succ_sub_one]
      rw [hpre] at hnext
      obtain ⟨r, hr, hresult⟩ := hnext
      refine ⟨r, hr, ?_⟩
      rw [hresult, Option.none_or, List.head?_map]
      cases (setBits ws).head? with
      | none => rfl
      | some i =>
        simp only [Option.map_some, List.length_append, List.length_singleton]
        congr 2
        omega

theorem scanned_lt (a : BitArea) : a.scanned < 2 ^ 31 := by
  rw [scanned]
  cases (setBits a.dwords).head? with
  | none => decide
  | some i => exact BitVec.toInt_lt

theorem bitScanForward_eq (a : BitArea) (eax : BitVec 32) {fuel : Nat}
    (hfuel : a.dwords.length < fuel) : a.bitScanForward a.size eax fuel = .ok a.scanned := by
  have hlen := a.length_lt
  have hsize : a.size >>> 2 = BitVec.ofNat 32 a.dwords.length := by
    apply BitVec.eq_of_toNat_eq
    rw [size, BitVec.toNat_ushiftRight, BitVec.toNat_ofNat, BitVec.toNat_ofNat,
      Nat.shiftRight_eq_div_pow]
    omega
  obtain ⟨r, hr, hresult⟩ := scanLoop_eq [] a.dwords rfl eax hfuel
  have hstart : BitVec.ofNat 32 ([] : List (BitVec 32)).length - 1 = -1 := rfl
  rw [hstart] at hr
  rw [bitScanForward, hsize, hr, ok_bind, hresult, scanned]
  simp

/-- What the scan returns with fuel enough is the first bit set. -/
theorem eq_scanned {a : BitArea} {r : Int}
    (h : ∀ eax, ∃ n, ∀ fuel ≥ n, a.bitScanForward a.size eax fuel = .ok r) : r = a.scanned := by
  obtain ⟨n, hn⟩ := h 0
  have hscan := hn (n + (a.dwords.length + 1)) (Nat.le_add_right ..)
  have hfuel : a.dwords.length < n + (a.dwords.length + 1) := by omega
  rw [bitScanForward_eq a 0 hfuel] at hscan
  exact (Except.ok.inj hscan).symm

/-! ## The bit strings of the pools

Below index 2³¹ the instructions do what the operations on a `BitString` do. -/

section Agreement
variable {a : BitArea} {i : BitVec 32}

theorem place_lt_iff (h : i.toNat < 2 ^ 31) :
    place i < a.bits ↔ i.toNat / 32 < a.dwords.length := by
  rw [place_of_lt h, bits]
  omega

theorem write_agrees {write : List (BitVec 32) → Nat → List (BitVec 32)}
    (hlen : ∀ ws k, (write ws k).length = ws.length) (h : i.toNat < 2 ^ 31) :
    (if place i < a.bits then
        .ok ⟨write a.dwords (place i), by rw [hlen]; exact a.fits⟩
      else .error .fault : Call BitArea).map dwords =
    (if i.toNat / 32 < a.dwords.length then .ok ⟨write a.dwords i.toNat, hlen ..⟩
      else .error .fault : Call (BitString a.dwords.length)).map Subtype.val := by
  by_cases hin : i.toNat / 32 < a.dwords.length
  · rw [if_pos ((place_lt_iff h).2 hin), if_pos hin]
    simp [Except.map, place_of_lt h]
  · rw [if_neg (mt (place_lt_iff h).1 hin), if_neg hin]
    rfl

theorem setBit_agrees (h : i.toNat < 2 ^ 31) :
    (a.setBit i).map dwords =
      (Ohwes.setBit (⟨a.dwords, rfl⟩ : BitString _) i.toNat).map Subtype.val :=
  write_agrees setAt_length h

theorem clearBit_agrees (h : i.toNat < 2 ^ 31) :
    (a.clearBit i).map dwords =
      (Ohwes.clearBit (⟨a.dwords, rfl⟩ : BitString _) i.toNat).map Subtype.val :=
  write_agrees clearAt_length h

theorem testBit_agrees (h : i.toNat < 2 ^ 31) :
    (a.testBit i).map (· != 0) = Ohwes.testBit (⟨a.dwords, rfl⟩ : BitString _) i.toNat := by
  rw [testBit, Ohwes.testBit]
  by_cases hin : i.toNat / 32 < a.dwords.length
  · rw [if_pos ((place_lt_iff h).2 hin), if_pos hin, place_of_lt h]
    cases hbit : bitAt a.dwords i.toNat <;> simp [Except.map]
  · rw [if_neg (mt (place_lt_iff h).1 hin), if_neg hin]
    rfl

/-- In a string of at most 2³¹ bits every index of a bit is an `int`. -/
theorem scan_agrees (h : 4 * a.dwords.length ≤ 2 ^ 28) :
    Ohwes.bitScanForward (⟨a.dwords, rfl⟩ : BitString _) (4 * a.dwords.length) = .ok a.scanned := by
  have hsize : (4 * a.dwords.length) >>> 2 = a.dwords.length := by
    rw [Nat.shiftRight_eq_div_pow]
    omega
  rw [Ohwes.bitScanForward_eq hsize, scanned]
  cases hhead : (setBits a.dwords).head? with
  | none => rfl
  | some k =>
    have hk := bitAt_lt (by omega) ((setBits_head? (by omega)).1 hhead).1
    have htoNat : (BitVec.ofNat 32 k).toNat = k := toNat_index (by omega)
    have hint : (BitVec.ofNat 32 k).toInt = k := by
      rw [BitVec.toInt_eq_toNat_of_lt (by omega), htoNat]
    simp only [hint]

end Agreement

/-! ## When the scan is right -/

/-- In a string of at most 2³¹ bits the index of the first bit set is an `int`. -/
theorem scanned_least {a : BitArea} (h : 4 * a.dwords.length ≤ 2 ^ 28) :
    a.LeastReported a.scanned := by
  rw [scanned]
  cases hhead : (setBits a.dwords).head? with
  | none =>
    refine .inl ⟨rfl, fun i hi => ?_⟩
    have hclear : bitAt a.dwords i.toNat = false := by
      by_contra hset
      have hmem := (mem_setBits (by omega)).2 (Bool.not_eq_false _ ▸ hset)
      simp [List.head?_eq_none_iff.1 hhead] at hmem
    rw [testBit_of_lt (hi.lt h) hi, hclear]
    rfl
  | some k =>
    obtain ⟨hset, hleast⟩ := (setBits_head? (by omega)).1 hhead
    have hk : k < a.bits := bitAt_lt (by omega) hset
    have hk31 : k < 2 ^ 31 := by
      rw [bits] at hk
      omega
    have htoNat := toNat_index hk31
    have hin : a.InRange (BitVec.ofNat 32 k) := by rwa [InRange, htoNat]
    refine .inr ⟨BitVec.ofNat 32 k, hin, ?_, ⟨-1, ?_, by decide⟩, fun j hj => ?_⟩
    · apply BitVec.toInt_eq_toNat_of_lt
      omega
    · rw [testBit_of_lt (hin.lt h) hin, htoNat, hset]
      rfl
    · rw [htoNat] at hj
      have hj' : a.InRange j := Nat.lt_trans hj hk
      rw [testBit_of_lt (hj'.lt h) hj', hleast _ hj]
      rfl

theorem scansRight_of_small {a : BitArea} (h : 4 * a.dwords.length ≤ 2 ^ 28) : a.ScansRight := by
  refine ⟨a.scanned, fun eax => ⟨a.dwords.length + 1, fun fuel hfuel => ?_⟩, scanned_least h⟩
  exact bitScanForward_eq a eax hfuel

/-- The operations that clear the bits below index `k`. -/
def clears (k : Nat) : List BitOp := (List.range k).map fun i => .clear (BitVec.ofNat 32 i)

theorem bitAfter_clears {k j : Nat} (hk : k ≤ 2 ^ 31) (hj : j < k) (v : Bool) :
    bitAfter (clears k) j v = false := by
  induction k with
  | zero => omega
  | succ k ih =>
    have htoNat : (BitVec.ofNat 32 k).toNat = k := toNat_index (by omega)
    have hlast : bitAfter (clears (k + 1)) j v =
        if j = k then false else bitAfter (clears k) j v := by
      rw [bitAfter, clears, List.range_succ, List.map_append, List.foldl_append]
      simp only [List.map_cons, List.map_nil, List.foldl_cons, List.foldl_nil, BitOp.index, htoNat]
      rfl
    rw [hlast]
    by_cases h : j = k
    · rw [if_pos h]
    · rw [if_neg h]
      exact ih (by omega) (by omega)

/-- The first index that is a negative `int`. -/
def top : BitVec 32 := BitVec.ofNat 32 (2 ^ 31)

theorem top_toNat : top.toNat = 2 ^ 31 := by decide

section Long
variable {a b : BitArea}

theorem clears_inRange (h : 2 ^ 28 < 4 * a.dwords.length) :
    ∀ op ∈ clears (2 ^ 31), op.index.toNat < 2 ^ 31 ∧ a.InRange op.index := by
  intro op hop
  obtain ⟨i, hi, rfl⟩ := List.mem_map.1 hop
  have hi := List.mem_range.1 hi
  rw [BitOp.index, InRange, toNat_index hi, bits]
  omega

theorem top_inRange (h : 2 ^ 28 < 4 * a.dwords.length) : a.InRange top := by
  rw [InRange, top_toNat, bits]
  omega

/-- Where the instruction reaches the string at all with the top index, `test_bit` reports that bit
and none below. -/
theorem testBit_of_clears_set (h : 2 ^ 28 < 4 * a.dwords.length)
    (hb : run step a (clears (2 ^ 31) ++ [.set top]) = .ok b) :
    b.dwords.length = a.dwords.length ∧ b.testBit top = .ok (-1) ∧
      ∀ i : BitVec 32, i.toNat < 2 ^ 31 → b.testBit i = .ok 0 := by
  obtain ⟨c, hc, hclen, hcbits⟩ := run_ok (clears_inRange h)
  obtain ⟨c', hc', hlast⟩ := (run_append_ok step).mp hb
  cases hc.symm.trans hc'
  obtain ⟨m, hm, hmb⟩ := (run_cons_ok step).mp hlast
  cases hmb
  have hreach : place (BitOp.set top).index < c.bits := reach_of_step hm
  have hplace : 2 ^ 31 ≤ place top := le_place (Nat.le_of_eq top_toNat.symm)
  obtain ⟨b', hb', hblen, hbbits⟩ := step_ok hreach
  cases hm.symm.trans hb'
  rw [BitOp.index] at hreach hbbits
  have hbits : b.bits = c.bits := by rw [bits, bits, hblen]
  refine ⟨hblen.trans hclen, ?_, fun i hi => ?_⟩
  · rw [testBit_eq (hbits ▸ hreach), hbbits, if_pos rfl]
    rfl
  · have hat := place_of_lt hi
    have hin : place i < b.bits := by
      rw [hbits]
      omega
    have hclear : bitAt b.dwords (place i) = false := by
      rw [hbbits, if_neg (by omega), hcbits, hat, bitAfter_clears (Nat.le_refl _) hi]
    rw [testBit_eq hin, hclear]
    rfl

/-- Of a longer string all bits below index 2³¹ can be cleared and the bit of index 2³¹ set; an
`int` cannot tell its index. -/
theorem not_alwaysScansRight (h : 2 ^ 28 < 4 * a.dwords.length) : ¬ a.AlwaysScansRight := by
  intro hright
  have hops : ∀ op ∈ clears (2 ^ 31) ++ [.set top], a.InRange op.index := by
    intro op hop
    rcases List.mem_append.1 hop with hop | hop
    · exact (clears_inRange h op hop).2
    · rw [List.mem_singleton.1 hop]
      exact top_inRange h
  obtain ⟨b, hb, r, hscan, hleast⟩ := hright _ hops
  obtain ⟨hlen, hset, hzero⟩ := testBit_of_clears_set h hb
  have hr : r = b.scanned := eq_scanned hscan
  rcases hleast with ⟨-, hnone⟩ | ⟨i, -, hi, ⟨v, hv, hne⟩, -⟩
  · have hin : b.InRange top := top_inRange (hlen.symm ▸ h)
    have hboth := hset.symm.trans (hnone _ hin)
    exact absurd hboth (by decide)
  · have hlow : i.toNat < 2 ^ 31 := by
      have := b.scanned_lt
      omega
    have hboth := hv.symm.trans (hzero i hlow)
    exact hne (Except.ok.inj hboth)

end Long

/-- The scan is right after all sequences of operations exactly on strings of at most 2²⁸ bytes. -/
theorem alwaysScansRight_iff (a : BitArea) :
    a.AlwaysScansRight ↔ 4 * a.dwords.length ≤ 2 ^ 28 := by
  constructor
  · intro hright
    by_contra hlong
    exact not_alwaysScansRight (Nat.lt_of_not_le hlong) hright
  · intro hsmall ops hops
    have hlow : ∀ op ∈ ops, op.index.toNat < 2 ^ 31 ∧ a.InRange op.index :=
      fun op hop => ⟨(hops op hop).lt hsmall, hops op hop⟩
    obtain ⟨b, hb, hlen, -⟩ := run_ok hlow
    exact ⟨b, hb, scansRight_of_small (by rwa [hlen])⟩

/-! ## A string of 2²⁸ + 4 bytes -/

/-- Only the last dword has a bit set, its first. -/
def longArea : BitArea where
  dwords := List.replicate (2 ^ 26) 0 ++ [1]
  fits := by rw [List.length_append, List.length_replicate]; decide

theorem longArea_head : (setBits longArea.dwords).head? = some (2 ^ 31) := by
  rw [setBits_head? (by omega)]
  constructor
  · have hlast : longArea.dwords[2 ^ 31 / 32]? = some 1 := by
      have hlen : (List.replicate (2 ^ 26) (0 : BitVec 32)).length = 2 ^ 31 / 32 :=
        List.length_replicate.trans (by decide)
      rw [longArea, List.getElem?_append_right (Nat.le_of_eq hlen), hlen]
      rfl
    rw [bitAt, List.getD_eq_getElem?_getD, hlast]
    rfl
  · intro j hj
    have hzero : longArea.dwords[j / 32]? = some 0 := by
      have hlt : j / 32 < 2 ^ 26 := by omega
      rw [longArea, List.getElem?_append_left (by rwa [List.length_replicate]),
        List.getElem?_replicate, if_pos hlt]
    rw [bitAt, List.getD_eq_getElem?_getD, hzero]
    simp

/-- There the scan returns the least `int`, which is no index. -/
theorem scan_overflows :
    (∀ eax, ∀ fuel > longArea.dwords.length,
      longArea.bitScanForward longArea.size eax fuel = .ok (-2147483648)) ∧
    ¬ ∀ a : BitArea, a.AlwaysScansRight := by
  have hvalue : longArea.scanned = -2147483648 := by
    rw [scanned, longArea_head]
    rfl
  constructor
  · intro eax fuel hfuel
    rw [bitScanForward_eq longArea eax hfuel, hvalue]
  · intro hright
    obtain ⟨b, hb, r, hscan, hleast⟩ := hright longArea [] (fun _ h => absurd h List.not_mem_nil)
    cases hb
    have hr : r = -2147483648 := (eq_scanned hscan).trans hvalue
    rcases hleast with ⟨h, -⟩ | ⟨i, -, h, -⟩
    · omega
    · omega

end BitArea

end Ohwes

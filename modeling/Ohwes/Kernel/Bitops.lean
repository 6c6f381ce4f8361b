import Ohwes.Kernel.Basic
import Ohwes.Library.BitString

/-! # `i386/bitops.h`: bit strings

A bit string is a fixed number of dwords. The bit instructions take an `unsigned int` index and reach
any dword of the address space; an index outside the string is a `fault` here. `bitScanForward` is
the loop of the inline assembly; `bitScanForward_eq` says that it finds the first set bit. -/

namespace Ohwes
set_option autoImplicit false
open Library

/-- A bit string of `n` dwords. -/
abbrev BitString (n : Nat) := { ws : List (BitVec 32) // ws.length = n }

/-- Conversion of an `int` to `unsigned int`. -/
def toUnsigned (i : Int) : Nat := (i % 2 ^ 32).toNat

section BitString
variable {n : Nat}

/-- All ones, as `memset` with `0xFF` leaves it. -/
def BitString.ones (n : Nat) : BitString n :=
  ⟨List.replicate n (BitVec.allOnes 32), List.length_replicate⟩

def setBit (bits : BitString n) (index : Nat) : Call (BitString n) :=
  if index / 32 < n then .ok ⟨setAt bits.1 index, by rw [setAt_length, bits.2]⟩ else .error .fault

def clearBit (bits : BitString n) (index : Nat) : Call (BitString n) :=
  if index / 32 < n then .ok ⟨clearAt bits.1 index, by rw [clearAt_length, bits.2]⟩
  else .error .fault

def testBit (bits : BitString n) (index : Nat) : Call Bool :=
  if index / 32 < n then .ok (bitAt bits.1 index) else .error .fault

/-- The loop of `bit_scan_forward`: `count` dwords are left, the next is `dwordIndex`. -/
def scanDwords (ws : List (BitVec 32)) : Nat → Nat → Call Int
  | 0, _ => .ok (-1)
  | count + 1, dwordIndex =>
    match ws[dwordIndex]? with
    | none => .error .fault
    | some dword =>
      match leastBit dword with
      | none => scanDwords ws count (dwordIndex + 1)
      | some bitIndex => .ok ((dwordIndex <<< 5) + bitIndex : Nat)

def bitScanForward (bits : BitString n) (size : Nat) : Call Int := scanDwords bits.1 (size >>> 2) 0

end BitString

/-! ## What they compute -/

section Meaning
variable {n : Nat} (bits : BitString n)

theorem lt_bits {i : Nat} : i < 32 * bits.1.length ↔ i / 32 < n := by
  rw [bits.2]
  omega

theorem setBit_ok {i : Nat} (h : i / 32 < n) :
    ∃ b, setBit bits i = .ok b ∧ ∀ j, bitAt b.1 j = (bitAt bits.1 j || decide (j = i)) := by
  refine ⟨_, if_pos h, fun j => ?_⟩
  exact bitAt_setAt ((lt_bits bits).mpr h) j

theorem clearBit_ok {i : Nat} (h : i / 32 < n) :
    ∃ b, clearBit bits i = .ok b ∧ b.1 = clearAt bits.1 i :=
  ⟨_, if_pos h, rfl⟩

variable {bits}

theorem mem_setBits_lt {i : Nat} (h : i ∈ setBits bits.1) : i < 32 * n := by
  have := bitAt_lt (by omega) ((mem_setBits (by omega)).mp h)
  rwa [bits.2] at this

/-- Scanning from dword `k` finds the first bit set in the dwords from `k` on. -/
theorem scanDwords_eq (pre ws : List (BitVec 32)) :
    scanDwords (pre ++ ws) ws.length pre.length =
      .ok (match (setBits ws).head? with
        | none => -1
        | some i => ((32 * pre.length + i : Nat) : Int)) := by
  induction ws generalizing pre with
  | nil => simp [scanDwords, setBits]
  | cons x ws ih =>
    have hget : (pre ++ x :: ws)[pre.length]? = some x := by simp
    rw [List.length_cons, scanDwords, hget, setBits_cons (by omega), List.head?_append,
      ← leastBit_eq]
    dsimp only
    cases hx : leastBit x with
    | some b =>
      simp only [Option.some_or]
      rw [Nat.shiftLeft_eq, Nat.mul_comm]
    | none =>
      have h1 := ih (pre ++ [x])
      simp only [List.append_assoc, List.cons_append, List.nil_append, List.length_append,
        List.length_cons, List.length_nil] at h1
      rw [Nat.zero_add] at h1
      rw [h1, Option.none_or, List.head?_map]
      cases (setBits ws).head? with
      | none => rfl
      | some i =>
        simp only [Option.map_some]
        congr 2
        omega

theorem bitScanForward_eq {size : Nat} (h : size >>> 2 = n) :
    bitScanForward bits size =
      .ok (match (setBits bits.1).head? with
        | none => -1
        | some i => (i : Int)) := by
  have h1 := scanDwords_eq [] bits.1
  rw [bits.2] at h1
  rw [bitScanForward, h]
  simpa using h1

end Meaning

end Ohwes

import Ohwes.Libc.Memmove
import Ohwes.Libc.String

/-! # `libc/string.c`: `memmove` on addresses

An address has 32 bits, and so has the end of an area: an area that goes up to the end of the address
space ends at address 0. The tests for an overlap fail there, but only where copying forwards is right
anyway. The loops do what they do on numbered bytes as long as no area wraps around. -/

namespace Ohwes
set_option autoImplicit false
open Library

/-- The loop that copies from the tail: `d` and `s` are the ends of what is left. -/
def copyBackwards (m : Memory) (d s : Ptr) : Nat → Memory
  | 0 => m
  | count + 1 => copyBackwards (Function.update m (d - 1) (m (s - 1))) (d - 1) (s - 1) count

def memmove (m : Memory) (dst src count : Ptr) : Memory :=
  if src = dst then m
  else if dst < src ∧ dst + count > src then memcpy ram m dst src count.toNat
  else if src < dst ∧ src + count > dst then
    copyBackwards m (dst + count) (src + count) count.toNat
  else memcpy ram m dst src count.toNat

/-! ## Numbered bytes -/

/-- The bytes of a memory by number. -/
def Numbers (m : Memory) (f : Nat → Byte) : Prop := ∀ a : Ptr, m a = f a.toNat

theorem ofNat_toNat_ptr (a : Ptr) : BitVec.ofNat 32 a.toNat = a := by
  rw [BitVec.ofNat_toNat, BitVec.setWidth_eq]

theorem numbers_self (m : Memory) : Numbers m fun n => m (BitVec.ofNat 32 n) := by
  intro a
  exact congrArg m (ofNat_toNat_ptr a).symm

section Numbered
variable {m : Memory} {f : Nat → Byte}

theorem Numbers.ofNat (h : Numbers m f) {n : Nat} (hn : n < 2 ^ 32) : m (BitVec.ofNat 32 n) = f n := by
  rw [h, BitVec.toNat_ofNat, Nat.mod_eq_of_lt hn]

theorem Numbers.update (h : Numbers m f) {n : Nat} (hn : n < 2 ^ 32) (b : Byte) :
    Numbers (Function.update m (BitVec.ofNat 32 n) b) (Function.update f n b) := by
  intro a
  have heq : a = BitVec.ofNat 32 n ↔ a.toNat = n := by
    rw [← BitVec.toNat_inj, BitVec.toNat_ofNat, Nat.mod_eq_of_lt hn]
  by_cases ha : a = BitVec.ofNat 32 n
  · rw [Function.update_apply, Function.update_apply, if_pos ha, if_pos (heq.mp ha)]
  · rw [Function.update_apply, Function.update_apply, if_neg ha, if_neg (heq.not.mp ha), h a]

theorem Numbers.memcpy (h : Numbers m f) {d s count : Nat} (hd : d + count ≤ 2 ^ 32)
    (hs : s + count ≤ 2 ^ 32) :
    Numbers (memcpy ram m (BitVec.ofNat 32 d) (BitVec.ofNat 32 s) count)
      (Flat.memcpy f d s count) := by
  induction count generalizing m f d s with
  | zero => exact h
  | succ count ih =>
    have hnext : ∀ n, BitVec.ofNat 32 n + 1 = BitVec.ofNat 32 (n + 1) :=
      fun n => (BitVec.ofNat_add n 1).symm
    have hbyte : m (BitVec.ofNat 32 s) = f s := h.ofNat (by omega)
    have hput := h.update (n := d) (by omega) (f s)
    rw [Ohwes.memcpy, Flat.memcpy, hnext, hnext]
    apply ih
    · show Numbers (Function.update m (BitVec.ofNat 32 d) (m (BitVec.ofNat 32 s))) _
      rw [hbyte]
      exact hput
    · omega
    · omega

theorem Numbers.copyBackwards (h : Numbers m f) {d s count : Nat} (hd : count ≤ d) (hs : count ≤ s)
    (hd' : d ≤ 2 ^ 32) (hs' : s ≤ 2 ^ 32) :
    Numbers (copyBackwards m (BitVec.ofNat 32 d) (BitVec.ofNat 32 s) count)
      (Flat.copyBackwards f d s count) := by
  induction count generalizing m f d s with
  | zero => exact h
  | succ count ih =>
    have hlast : ∀ n, 0 < n → BitVec.ofNat 32 n - 1 = BitVec.ofNat 32 (n - 1) := by
      intro n hn
      have hback : BitVec.ofNat 32 (n - 1 + 1) = BitVec.ofNat 32 (n - 1) + 1 := BitVec.ofNat_add _ _
      rw [Nat.sub_add_cancel hn] at hback
      rw [hback]
      exact BitVec.add_sub_cancel _ _
    have hbyte : m (BitVec.ofNat 32 (s - 1)) = f (s - 1) := h.ofNat (by omega)
    rw [Ohwes.copyBackwards, Flat.copyBackwards, hlast d (by omega), hlast s (by omega), hbyte]
    apply ih
    · exact h.update (by omega) (f (s - 1))
    · omega
    · omega
    · omega
    · omega

end Numbered

/-! ## What is left in memory -/

/-- Reading all bytes first, and laying them over the destination then. -/
theorem memmove_numbers (m : Memory) (dst src count : Ptr)
    (hdst : dst.toNat + count.toNat ≤ 2 ^ 32) (hsrc : src.toNat + count.toNat ≤ 2 ^ 32) :
    Numbers (memmove m dst src count)
      (overlay (fun n => m (BitVec.ofNat 32 n)) dst.toNat
        (slice (fun n => m (BitVec.ofNat 32 n)) src.toNat count.toNat)) := by
  have hm := numbers_self m
  have hend : ∀ a : Ptr, a + count = BitVec.ofNat 32 (a.toNat + count.toNat) := fun a => by
    rw [BitVec.ofNat_add, ofNat_toNat_ptr, ofNat_toNat_ptr]
  have hforward := hm.memcpy hdst hsrc
  have hbackward := hm.copyBackwards (Nat.le_add_left count.toNat dst.toNat)
    (Nat.le_add_left count.toNat src.toNat) hdst hsrc
  rw [ofNat_toNat_ptr, ofNat_toNat_ptr] at hforward
  rw [← hend, ← hend] at hbackward
  unfold memmove
  by_cases heq : src = dst
  · rw [if_pos heq, heq]
    rw [overlay_eq_self_iff.mpr (by rw [slice_length])]
    exact hm
  · rw [if_neg heq]
    by_cases hleft : dst < src ∧ dst + count > src
    · rw [if_pos hleft, ← Flat.memcpy_eq_overlay (Or.inl (by bv_omega))]
      exact hforward
    · rw [if_neg hleft]
      by_cases hright : src < dst ∧ src + count > dst
      · rw [if_pos hright, ← Flat.copyBackwards_eq_overlay (by bv_omega)]
        exact hbackward
      · rw [if_neg hright, ← Flat.memcpy_eq_overlay (by bv_omega)]
        exact hforward

/-- Whatever the two areas have in common, the destination gets the bytes the source held, and no
other byte changes. -/
theorem memmove_moves (m : Memory) (dst src count : Ptr)
    (hdst : dst.toNat + count.toNat ≤ 2 ^ 32) (hsrc : src.toNat + count.toNat ≤ 2 ^ 32) :
    (∀ i < count.toNat, memmove m dst src count (dst + BitVec.ofNat 32 i) =
        m (src + BitVec.ofNat 32 i)) ∧
      ∀ a : Ptr, a.toNat < dst.toNat ∨ dst.toNat + count.toNat ≤ a.toNat →
        memmove m dst src count a = m a := by
  have hnum := memmove_numbers m dst src count hdst hsrc
  have hat : ∀ (a : Ptr) {i : Nat}, i < count.toNat → a.toNat + count.toNat ≤ 2 ^ 32 →
      (a + BitVec.ofNat 32 i).toNat = a.toNat + i := by
    intro a i hi ha
    rw [BitVec.toNat_add, BitVec.toNat_ofNat]
    omega
  constructor
  · intro i hi
    rw [hnum, hat dst hi hdst, overlay_inside _ _ (by rw [slice_length]; exact hi)]
    have hbyte := slice_getElem? (fun n => m (BitVec.ofNat 32 n)) src.toNat count.toNat i
    rw [if_pos hi, List.getElem?_eq_some_iff] at hbyte
    obtain ⟨_, hbyte⟩ := hbyte
    rw [hbyte, ← hat src hi hsrc, ofNat_toNat_ptr]
  · rintro a (ha | ha)
    · rw [hnum, overlay_before _ _ ha, ofNat_toNat_ptr]
    · rw [hnum, overlay_after _ _ (by rw [slice_length]; exact ha), ofNat_toNat_ptr]

/-- Two bytes move up by one at the end of the address space. -/
def MovesUp (m : Memory) : Prop :=
  (∀ i < (2 : Ptr).toNat, memmove m 0xFFFFFFFE 0xFFFFFFFD 2 (0xFFFFFFFE + BitVec.ofNat 32 i) =
      m (0xFFFFFFFD + BitVec.ofNat 32 i)) ∧
    ∀ a : Ptr, a.toNat < (0xFFFFFFFE : Ptr).toNat ∨
        (0xFFFFFFFE : Ptr).toNat + (2 : Ptr).toNat ≤ a.toNat →
      memmove m 0xFFFFFFFE 0xFFFFFFFD 2 a = m a

theorem memmove_moves_up : MovesUp fun a => a.truncate 8 :=
  memmove_moves _ 0xFFFFFFFE 0xFFFFFFFD 2 (by decide) (by decide)

end Ohwes

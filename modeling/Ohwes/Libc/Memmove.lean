import Mathlib.Logic.Function.Basic
import Ohwes.Kernel.Basic
import Ohwes.Library.Overlay

/-! # `libc/string.c`: `memmove`

Copying within one object, whose bytes are numbered from 0 on: an address is a number and the end of
an area is never below its start. Where the areas overlap, the direction of the copy is chosen so that
no byte is read after it has been written; the result is then that of reading all bytes first. -/

namespace Ohwes.Flat
set_option autoImplicit false
open Library

def memcpy (m : Nat → Byte) (d s : Nat) : Nat → Nat → Byte
  | 0 => m
  | count + 1 => memcpy (Function.update m d (m s)) (d + 1) (s + 1) count

/-- The loop that copies from the tail: `d` and `s` are the ends of what is left. -/
def copyBackwards (m : Nat → Byte) (d s : Nat) : Nat → Nat → Byte
  | 0 => m
  | count + 1 => copyBackwards (Function.update m (d - 1) (m (s - 1))) (d - 1) (s - 1) count

def memmove (m : Nat → Byte) (dst src count : Nat) : Nat → Byte :=
  if src = dst then m
  else if dst < src ∧ dst + count > src then memcpy m dst src count
  else if src < dst ∧ src + count > dst then copyBackwards m (dst + count) (src + count) count
  else memcpy m dst src count

/-- Copying forwards, unless the destination starts inside the source. -/
theorem memcpy_eq_overlay {m : Nat → Byte} {d s count : Nat} (h : d ≤ s ∨ s + count ≤ d) :
    memcpy m d s count = overlay m d (slice m s count) := by
  induction count generalizing m d s with
  | zero => rw [memcpy, slice_zero, overlay_nil]
  | succ count ih =>
    have hkept : slice (overlay m d [m s]) (s + 1) count = slice m (s + 1) count :=
      slice_overlay_apart m [m s] (by rw [List.length_singleton]; omega)
    have hjoin : overlay (overlay m d [m s]) (d + 1) (slice m (s + 1) count) =
        overlay m d ([m s] ++ slice m (s + 1) count) :=
      overlay_append m d [m s] (slice m (s + 1) count)
    have hslice : slice m s (count + 1) = [m s] ++ slice m (s + 1) count := by
      rw [Nat.add_comm count 1, slice_add]
      rfl
    rw [memcpy, ih (by omega), ← overlay_singleton, hkept, hjoin, hslice]

/-- Copying backwards, unless the destination ends inside the source. -/
theorem copyBackwards_eq_overlay {m : Nat → Byte} {d s count : Nat} (h : s ≤ d) :
    copyBackwards m (d + count) (s + count) count = overlay m d (slice m s count) := by
  induction count generalizing m with
  | zero => rw [copyBackwards, slice_zero, overlay_nil]
  | succ count ih =>
    have hlen : (slice m s count).length = count := slice_length m s count
    have hkept : slice (overlay m (d + count) [m (s + count)]) s count = slice m s count :=
      slice_overlay_apart m [m (s + count)] (by omega)
    have hjoin : overlay (overlay m (d + count) [m (s + count)]) d (slice m s count) =
        overlay m d (slice m s count ++ [m (s + count)]) := by
      rw [← overlay_prepend, hlen]
    have hslice : slice m s (count + 1) = slice m s count ++ [m (s + count)] := by
      rw [slice_add]
      rfl
    have hd : d + (count + 1) - 1 = d + count := rfl
    have hs : s + (count + 1) - 1 = s + count := rfl
    rw [copyBackwards, hd, hs, ih, ← overlay_singleton, hkept, hjoin, hslice]

theorem memmove_eq_overlay (m : Nat → Byte) (dst src count : Nat) :
    memmove m dst src count = overlay m dst (slice m src count) := by
  unfold memmove
  by_cases heq : src = dst
  · rw [if_pos heq, heq]
    exact (overlay_eq_self_iff.mpr (by rw [slice_length])).symm
  · rw [if_neg heq]
    by_cases hleft : dst < src ∧ dst + count > src
    · rw [if_pos hleft]
      exact memcpy_eq_overlay (Or.inl (by omega))
    · rw [if_neg hleft]
      by_cases hright : src < dst ∧ src + count > dst
      · rw [if_pos hright]
        exact copyBackwards_eq_overlay (by omega)
      · rw [if_neg hright]
        exact memcpy_eq_overlay (by omega)

end Ohwes.Flat

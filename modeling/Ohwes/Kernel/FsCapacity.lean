import Ohwes.Kernel.DescriptorRuns
import Ohwes.Kernel.IoRegistry

/-! # What the pools of `fs.c` can hold

`init_fs` makes a pool over each of its three arrays, with the array length as item size and the
structure size as capacity. Items are then at least as far apart as the structures are long, and the
last one ends with the array, but there are only as many of them as a structure has bytes: 20 inodes,
44 directory entries and 16 files (`fs_pools_exact_iff`).

`FsWorld.live` records what a pool has handed out and not taken back. A pointer anywhere into the slot
of an object takes it back, as `pool_free` rounds addresses down. -/

namespace Ohwes
set_option autoImplicit false
open Library

namespace FsPool

/-- The length of the array. -/
def maxNr : FsPool → BitVec 32
  | inodes => MAX_NR_INODES
  | dentries => MAX_NR_DENTRIES
  | files => MAX_NR_TOTAL_OPEN

def size : FsPool → BitVec 32
  | inodes => SIZEOF_INODE
  | dentries => SIZEOF_DENTRY
  | files => SIZEOF_FILE

end FsPool

/-- All three arrays are objects of the address space. -/
structure FsArrays extends FsLayout where
  inodes_ne : inodes ≠ 0
  inodes_fits : inodes.toNat + 64 * 20 ≤ 2 ^ 32
  dentries_ne : dentries ≠ 0
  dentries_fits : dentries.toNat + 64 * 44 ≤ 2 ^ 32

namespace FsArrays

def base (L : FsArrays) : FsPool → Ptr
  | .inodes => L.inodes
  | .dentries => L.dentries
  | .files => L.files

def area (L : FsArrays) (k : FsPool) : Area where
  base := L.base k
  itemSize := k.maxNr
  capacity := k.size

theorem area_fits (L : FsArrays) (k : FsPool) : (L.area k).Fits where
  itemSize := by
    show 0 < k.maxNr.toNat
    cases k <;> decide
  capacity := by
    show 0 < k.size.toNat
    cases k <;> decide
  bound := by
    cases k
    · exact L.inodes_fits
    · exact L.dentries_fits
    · exact L.files_fits

end FsArrays

section World
variable (δ φ : Type)

structure FsWorld where
  fs : FsState δ φ
  poolOf : FsPool → Option Nat
  live : FsPool → List Ptr

end World

section Model
variable {δ φ : Type}

/-- `init_pool`, `init_io` and `init_fs`, as `kmain` calls them. -/
def bootFs (mem : Memory) (io : IoLayout) (L : FsLayout) (chdevOps : φ) (dev : δ) :
    Call (FsWorld δ φ) := do
  let s ← initIo io (initPool (.bss mem))
  let x ← initFsPools L chdevOps dev s.pool
  let live : FsPool → List Ptr := fun k =>
    match x.2 k with
    | none => []
    | some p => poolItems x.1.pool p
  .ok { fs := x.1, poolOf := x.2, live }

inductive FsPoolOp where
  | alloc (pool : FsPool)
  | free (pool : FsPool) (item : Ptr)

namespace FsWorld

def withPool (w : FsWorld δ φ) (s : PoolState) : FsWorld δ φ := { w with fs.pool := s }

/-- An object handed out. -/
def handedOut (w : FsWorld δ φ) (k : FsPool) : Option Ptr → FsWorld δ φ
  | none => w
  | some x => { w with live := Function.update w.live k (x :: w.live k) }

/-- `x` points into the slot of the object at `y`. -/
def InSlot (k : FsPool) (x y : Ptr) : Prop := y.toNat ≤ x.toNat ∧ x.toNat < y.toNat + k.maxNr.toNat

instance (k : FsPool) (x y : Ptr) : Decidable (InSlot k x y) := inferInstanceAs (Decidable (_ ∧ _))

def takenBack (w : FsWorld δ φ) (k : FsPool) (x : Ptr) : FsWorld δ φ :=
  { w with live := Function.update w.live k ((w.live k).filter fun y => ¬ InSlot k x y) }

end FsWorld

/-- Files are allocated and freed by `alloc_fd` and `free_fd`, the rest from their pools. -/
def fsPoolStep (w : FsWorld δ φ) : FsPoolOp → Call (FsWorld δ φ)
  | .alloc .files => do
    let x ← allocFd w.fs
    .ok ({ w with fs := x.2.2 }.handedOut .files x.2.1)
  | .alloc k => do
    let x ← poolAlloc w.fs.pool (w.poolOf k)
    .ok ((w.withPool x.2).handedOut k (if x.1 = 0 then none else some x.1))
  | .free .files item => do
    let fs ← freeFd w.fs item
    .ok ({ w with fs }.takenBack .files item)
  | .free k item => do
    let x ← poolFree w.fs.pool (w.poolOf k) item
    .ok ((w.withPool x.2).takenBack k item)

namespace FsWorld

/-- The live objects of each pool are pairwise disjoint and lie in its array. -/
def LiveDisjoint (L : FsArrays) (w : FsWorld δ φ) : Prop :=
  ∀ k, ((w.live k).Pairwise fun x y =>
      x.toNat + k.size.toNat ≤ y.toNat ∨ y.toNat + k.size.toNat ≤ x.toNat) ∧
    ∀ x ∈ w.live k, (L.base k).toNat ≤ x.toNat ∧
      x.toNat + k.size.toNat ≤ (L.base k).toNat + k.maxNr.toNat * k.size.toNat

/-- An allocation succeeds exactly when fewer objects are live than the array has elements. -/
def AllocExact (w : FsWorld δ φ) : FsPoolOp → Prop
  | .alloc .files => ∃ r file t, allocFd w.fs = .ok (r, file, t) ∧
      (r = 0 ↔ (w.live .files).length < MAX_NR_TOTAL_OPEN.toNat)
  | .alloc k => ∃ x t, poolAlloc w.fs.pool (w.poolOf k) = .ok (x, t) ∧
      (x ≠ 0 ↔ (w.live k).length < k.maxNr.toNat)
  | .free _ _ => True

/-- An allocation comes with fewer objects live than a structure has bytes. -/
def HasSlot (w : FsWorld δ φ) : FsPoolOp → Prop
  | .alloc k => (w.live k).length < k.size.toNat
  | .free _ _ => True

instance (w : FsWorld δ φ) : (op : FsPoolOp) → Decidable (w.HasSlot op)
  | .alloc k => inferInstanceAs (Decidable ((w.live k).length < k.size.toNat))
  | .free _ _ => .isTrue trivial

end FsWorld

end Model

end Ohwes

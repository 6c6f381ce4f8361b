import Ohwes.Kernel.PoolArea
import Ohwes.Library.Intervals

/-! # `kernel/io.c`: the registry of I/O port ranges

Every reserved range has a `struct io_range` from the pool `io_ranges_pool`, chained through the list
`io_ranges_list`. A record lives at the address the pool gave out: `rangeAt` holds its contents, and
its chain is the list node of that address. The `uint16_t` and `uint8_t` of a call are promoted to
`int` in the comparisons, so no sum of a base and a count overflows.

`init_io` passes `pool_create` the array length as item size and the structure size as capacity. -/

namespace Ohwes
set_option autoImplicit false
open Library

def MAX_NR_IO_RANGES : BitVec 32 := 32

/-- `sizeof(struct io_range)`. -/
def SIZEOF_IO_RANGE : BitVec 32 := 16

structure IoRange where
  name : CString
  base : BitVec 16
  count : BitVec 8
  deriving DecidableEq, Repr

inductive IoNode where
  | null
  | list
  | range (item : Ptr)
  deriving DecidableEq, Repr

/-- The static data of `io.c`. -/
structure IoState where
  pool : PoolState
  rangesPool : Option Nat
  rangeAt : Ptr → IoRange
  links : Links IoNode

namespace IoState

/-- `pool_alloc` has zeroed the record, its chain included, and the call fills in its fields. -/
def setRange (s : IoState) (item : Ptr) (v : IoRange) : IoState :=
  { s with
    rangeAt := Function.update s.rangeAt item v
    links := (s.links.setPrev (.range item) .null).setNext (.range item) .null }

def withLinks (s : IoState) (links : Links IoNode) : IoState := { s with links }

end IoState

/-- Where the linker puts `_io_ranges_pool`. -/
structure IoLayout where
  ranges : Ptr
  ranges_ne : ranges ≠ 0
  ranges_fits : ranges.toNat + 32 * 16 ≤ 2 ^ 32

def initIo (L : IoLayout) (s : PoolState) : Call IoState := do
  let x ← poolCreate s L.ranges
    (some (text ['i', 'o', '\x5f', 'r', 'a', 'n', 'g', 'e', 's'])) MAX_NR_IO_RANGES SIZEOF_IO_RANGE
  if x.1 = none then .error (.panic "failed to create io_ranges_pool!")
  else do
    let links := { prev := fun _ => .list, next := fun _ => .list }
    .ok { pool := x.2, rangesPool := x.1, rangeAt := fun _ => ⟨[], 0, 0⟩, links }

/-- No list is longer than the number of items of all pools. -/
def listFuel : Nat := MAX_NR_POOL_ITEMS + 1

/-- The loop of `reserve_io_range` from position `e` on, for the record at `new`. -/
def reserveWalk (s : IoState) (base : BitVec 16) (count : BitVec 8) (new : Ptr) :
    Nat → IoNode → Call (Int × IoState)
  | 0, _ => .error .diverges
  | _ + 1, .null => .error .fault
  | _ + 1, .list => .ok (0, s.withLinks (listAdd s.links .list (.range new)))
  | fuel + 1, .range e =>
    let curr := s.rangeAt e
    if base.toNat < curr.base.toNat ∧ base.toNat + count.toNat ≤ curr.base.toNat then
      .ok (0, s.withLinks (listAdd s.links (.range e) (.range new)))
    else if curr.base.toNat ≤ base.toNat ∧ base.toNat < curr.base.toNat + curr.count.toNat then
      .ok (-EBUSY, s)
    else reserveWalk s base count new fuel (s.links.next (.range e))

def reserveIoRange (s : IoState) (base : BitVec 16) (count : BitVec 8) (name : CString) :
    Call (Int × IoState) :=
  if s.rangesPool = none then .error (.panic "I/O ranges not initialized!")
  else do
    let x ← poolAlloc s.pool s.rangesPool
    let s := { s with pool := x.2 }
    if x.1 = 0 then .ok (-ENOMEM, s)
    else
      let s := s.setRange x.1 { name, base, count }
      if listEmpty s.links .list then .ok (0, s.withLinks (listAdd s.links .list (.range x.1)))
      else reserveWalk s base count x.1 listFuel (s.links.next .list)

/-- The loop of `release_io_range` from position `e` on. -/
def releaseWalk (s : IoState) (base : BitVec 16) (count : BitVec 8) : Nat → IoNode → Call IoState
  | 0, _ => .error .diverges
  | _ + 1, .null => .error .fault
  | _ + 1, .list => .ok s
  | fuel + 1, .range e =>
    let curr := s.rangeAt e
    if curr.base = base ∧ curr.count = count then
      .ok (s.withLinks (listRemove s.links (.range e)))
    else releaseWalk s base count fuel (s.links.next (.range e))

def releaseIoRange (s : IoState) (base : BitVec 16) (count : BitVec 8) : Call IoState :=
  releaseWalk s base count listFuel (s.links.next .list)

/-! ## What is held -/

namespace IoRange

/-- The first port of the range, and the first one after it. -/
def first (r : IoRange) : Nat := r.base.toNat

def limit (r : IoRange) : Nat := r.base.toNat + r.count.toNat

end IoRange

namespace IoState

def record : IoNode → Option Ptr
  | .range item => some item
  | _ => none

/-- The addresses of the records on the list, in its order. -/
def records (s : IoState) : List Ptr := (listIterator s.links .list listFuel).filterMap record

/-- The ranges held. -/
def held (s : IoState) : List IoRange := s.records.map s.rangeAt

/-- The slots of the pool, those on its free list, and the others. -/
def slots (s : IoState) : Nat :=
  match s.rangesPool with
  | none => 0
  | some p => (s.pool.pools p).capacity.toNat

def freeSlots (s : IoState) : Nat :=
  match s.rangesPool with
  | none => 0
  | some p => (freeList s.pool p).length

def slotsInUse (s : IoState) : Nat := s.slots - s.freeSlots

end IoState

end Ohwes

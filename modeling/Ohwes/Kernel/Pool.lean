import Ohwes.Kernel.Bitops
import Ohwes.Kernel.List
import Ohwes.Libc.String

/-! # `kernel/pool.c`: fixed-size item pools

A pool hands out items of `itemSize` bytes from an area its creator gives it. Every item has a
`Chunk` in the global array `_chunks`; `pool_create` takes the first `capacity` chunks whose bit is
set in `_chunk_mask`, and the free chunks of a pool are chained in a circular list through its head.

A `pool_t` is `NULL` (`none`) or the address of an entry of `_pools` (its index). A list node is the
chain of a chunk or the head of a pool, and `Pool.alloc` is the node whose enclosing chunk the
pointer `alloc` names. The items themselves live in `mem`. Boot messages are left out. -/

namespace Ohwes
set_option autoImplicit false
open Library

def MAX_NR_POOLS : Nat := 32
def MAX_NR_POOL_ITEMS : Nat := 256
def POOL_MAGIC : BitVec 32 := 0x6c776570
def CHUNK_MAGIC : BitVec 32 := 0x6e756863
def POOL_NAME_LENGTH : Nat := 32

inductive Node where
  | null
  | head (pool : Nat)
  | chunk (c : Nat)
  deriving DecidableEq, Repr

structure Chunk where
  magic : BitVec 32
  index : Nat
  pool : Option Nat
  data : Ptr
  deriving DecidableEq, Repr

def Chunk.zero : Chunk := { magic := 0, index := 0, pool := none, data := 0 }

structure Pool where
  magic : BitVec 32
  name : List Byte
  index : Nat
  base : Ptr
  itemSize : BitVec 32
  capacity : BitVec 32
  chunkBase : Option Nat
  alloc : Node
  deriving DecidableEq, Repr

def Pool.zero : Pool where
  magic := 0
  name := List.replicate (POOL_NAME_LENGTH + 1) 0
  index := 0
  base := 0
  itemSize := 0
  capacity := 0
  chunkBase := none
  alloc := .null

/-- The static data of `pool.c`, and the memory the items live in. -/
structure PoolState where
  mem : Memory
  pools : Nat → Pool
  chunks : Nat → Chunk
  links : Links Node
  poolsInitialized : Bool
  poolMask : BitString 1
  chunkMask : BitString 8

namespace PoolState

def setPool (s : PoolState) (p : Nat) (v : Pool) : PoolState :=
  { s with pools := Function.update s.pools p v }

def setChunk (s : PoolState) (c : Nat) (v : Chunk) : PoolState :=
  { s with chunks := Function.update s.chunks c v }

/-- `zeromem` of a whole chunk: its fields and its links. -/
def zeroChunk (s : PoolState) (c : Nat) : PoolState :=
  { s.setChunk c Chunk.zero with
    links := (s.links.setPrev (.chunk c) .null).setNext (.chunk c) .null }

/-- `zeromem` of a whole pool: its fields and the links of its head. -/
def zeroPool (s : PoolState) (p : Nat) : PoolState :=
  { s.setPool p Pool.zero with
    links := (s.links.setPrev (.head p) .null).setNext (.head p) .null }

end PoolState

/-- The static data before `init_pool`: everything is zero. -/
def PoolState.bss (mem : Memory) : PoolState where
  mem := mem
  pools := fun _ => Pool.zero
  chunks := fun _ => Chunk.zero
  links := { prev := fun _ => .null, next := fun _ => .null }
  poolsInitialized := false
  poolMask := ⟨[0], rfl⟩
  chunkMask := ⟨List.replicate 8 0, rfl⟩

def initPool (s : PoolState) : PoolState :=
  { s with poolMask := BitString.ones 1, chunkMask := BitString.ones 8, poolsInitialized := true }

/-! ## Helpers -/

def ensureCapacity (s : PoolState) (capacity : BitVec 32) : Bool :=
  capacity.toNat ≤ (s.chunkMask.1.map popcount).sum

def getBase (s : PoolState) (p : Nat) : Ptr := (s.pools p).base

def getLimit (s : PoolState) (p : Nat) : Ptr :=
  getBase s p + (s.pools p).itemSize * (s.pools p).capacity - 1

def poolValid (s : PoolState) (p : Nat) : Bool :=
  p < MAX_NR_POOLS && (s.pools p).index = p && (s.pools p).magic = POOL_MAGIC &&
    (s.pools p).base ≠ 0

def addrValid (s : PoolState) (p : Nat) (addr : Ptr) : Bool :=
  getBase s p ≤ addr && addr ≤ getLimit s p

/-! ## The interface -/

/-- The body of the loop of `pool_create`: chunk `c` becomes that of item `i`. -/
def addChunk (s : PoolState) (p i c : Nat) : PoolState :=
  let s := s.setChunk c { magic := CHUNK_MAGIC, index := i, pool := some p, data := 0 }
  let s := if i = 0 then s.setPool p { s.pools p with chunkBase := some c, alloc := .chunk c } else s
  { s with links := listAdd s.links (.head p) (.chunk c) }

/-- The loop of `pool_create`, with `n` items to go, the next of them item `i`. -/
def createFreeList (p : Nat) : Nat → Nat → PoolState → Call PoolState
  | 0, _, s => .ok s
  | n + 1, i, s => do
    let chunkIndex ← bitScanForward s.chunkMask (MAX_NR_POOL_ITEMS >>> 3)
    let chunkMask ← clearBit s.chunkMask (toUnsigned chunkIndex)
    createFreeList p n (i + 1) (addChunk { s with chunkMask } p i chunkIndex.toNat)

/-- The descriptor of pool `p` and its empty free list. -/
def setupPool (s : PoolState) (p : Nat) (addr : Ptr) (name : CString)
    (itemSize capacity : BitVec 32) : PoolState :=
  let s := s.setPool p
    { s.pools p with
      magic := POOL_MAGIC
      index := p
      base := addr
      itemSize := itemSize
      capacity := capacity
      name := strncpy (s.pools p).name name POOL_NAME_LENGTH }
  { s with links := listInit s.links (.head p) }

def poolCreate (s : PoolState) (addr : Ptr) (name : Option CString) (itemSize capacity : BitVec 32) :
    Call (Option Nat × PoolState) :=
  if !s.poolsInitialized then .error (.panic "pools not yet initialized!")
  else match name with
  | none => .ok (none, s)
  | some name =>
    if addr = 0 then .ok (none, s)
    else if !ensureCapacity s capacity then
      .error (.panic "not enough pool memory to create pool")
    else do
      let poolIndex ← bitScanForward s.poolMask (MAX_NR_POOLS >>> 3)
      if poolIndex = -1 then .error (.panic "max number of pools reached!")
      else do
        let poolMask ← clearBit s.poolMask (toUnsigned poolIndex)
        let p := poolIndex.toNat
        let s := setupPool { s with poolMask } p addr name itemSize capacity
        let s ← createFreeList p capacity.toNat 0 s
        .ok (some p, s)

/-- The loop of `pool_destroy`, from item `i` on; the chunk it clears is the first one each time. -/
def releaseChunks (p : Nat) : Nat → Nat → PoolState → Call PoolState
  | 0, _, s => .ok s
  | n + 1, i, s =>
    match (s.pools p).chunkBase with
    | none => .error .fault
    | some chunkIndex => do
      let chunkMask ← setBit s.chunkMask (chunkIndex + i)
      releaseChunks p n (i + 1) ({ s with chunkMask }.zeroChunk chunkIndex)

def poolDestroy (s : PoolState) : Option Nat → Call PoolState
  | none => .ok s
  | some p =>
    if poolValid s p then do
      let s ← releaseChunks p (s.pools p).capacity.toNat 0 s
      let poolMask ← setBit s.poolMask (s.pools p).index
      .ok ({ s with poolMask }.zeroPool p)
    else .ok s

/-- Item `i` of pool `p`. -/
def itemAddr (s : PoolState) (p i : Nat) : Ptr :=
  (s.pools p).base + (s.pools p).itemSize * BitVec.ofNat 32 i

/-- Chunk `c` leaves the free list of pool `p` and gets the address of its item, which is zeroed. -/
def allocChunk (s : PoolState) (p c : Nat) : PoolState :=
  let s := s.setPool p { s.pools p with alloc := s.links.next (.chunk c) }
  let s := { s with links := listRemove s.links (.chunk c) }
  let data := itemAddr s p (s.chunks c).index
  let s := s.setChunk c { s.chunks c with data := data }
  { s with mem := zeromem s.mem data (s.pools p).itemSize.toNat }

def poolAlloc (s : PoolState) : Option Nat → Call (Ptr × PoolState)
  | none => .ok (0, s)
  | some p =>
    if !poolValid s p then .ok (0, s)
    else if listEmpty s.links (.head p) then .ok (0, s)
    else match (s.pools p).alloc with
      | .chunk c => do
        assert ((s.chunks c).data = 0)
        let s := allocChunk s p c
        .ok ((s.chunks c).data, s)
      | _ => .error .fault

/-- The number of the item of pool `p` that `item` points into. -/
def itemIndex (s : PoolState) (p : Nat) (item : Ptr) : Nat :=
  (item - (s.pools p).base).toNat / (s.pools p).itemSize.toNat

/-- Chunk `c` becomes the first of the free list of pool `p`. -/
def freeChunk (s : PoolState) (p c : Nat) : PoolState :=
  let s := s.setChunk c { s.chunks c with data := 0 }
  let s := { s with links := listAddTail s.links (.head p) (.chunk c) }
  s.setPool p { s.pools p with alloc := .chunk c }

def poolFree (s : PoolState) (pool : Option Nat) (item : Ptr) : Call (Int × PoolState) :=
  match pool with
  | none => .ok (-EINVAL, s)
  | some p =>
    if !poolValid s p || item = 0 then .ok (-EINVAL, s)
    else if !addrValid s p item then .ok (-EPERM, s)
    else if (s.pools p).itemSize = 0 then .error .fault
    else do
      let index := itemIndex s p item
      assert (index < 2 ^ 31 && index < (s.pools p).capacity.toNat)
      match (s.pools p).chunkBase with
      | none => .error .fault
      | some base =>
        if base + index < MAX_NR_POOL_ITEMS then do
          assert ((s.chunks (base + index)).index = index)
          assert ((s.chunks (base + index)).data ≠ 0)
          .ok (0, freeChunk s p (base + index))
        else .error .fault

end Ohwes

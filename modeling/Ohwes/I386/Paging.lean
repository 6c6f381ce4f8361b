import Ohwes.Libc.String

/-! # `i386/paging.h`, `i386/kernel/pgtbl.c`: page tables

Entries and addresses are 32-bit words. The kernel sees the physical memory from `KERNEL_VA` on,
page directory and page tables included. -/

namespace Ohwes
set_option autoImplicit false

def KERNEL_VA : Ptr := 0xC0000000

/-- `PHYSICAL_ADDR`. -/
def physicalAddr (v : Ptr) : Ptr := if v ≥ KERNEL_VA then v - KERNEL_VA else v

/-- `KERNEL_ADDR`. -/
def kernelAddr (p : Ptr) : Ptr := if p ≥ -KERNEL_VA then p else p + KERNEL_VA

def PAGE_SHIFT : Nat := 12
def PGDIR_SHIFT : Nat := 22
def PAGE_SIZE : BitVec 32 := 1 <<< PAGE_SHIFT
def PAGE_MASK : BitVec 32 := ~~~(PAGE_SIZE - 1)
def PTE_COUNT : BitVec 32 := 1024

/-- Number of a page in its page table. -/
def ptn (addr : Ptr) : BitVec 32 := (addr >>> PAGE_SHIFT) &&& (PTE_COUNT - 1)

/-- Number of a page table in the page directory. -/
def pdn (addr : Ptr) : BitVec 32 := (addr >>> PGDIR_SHIFT) &&& (PTE_COUNT - 1)

def pageAlign (addr : Ptr) : Ptr := (addr + (PAGE_SIZE - 1)) &&& PAGE_MASK

def PAGE_PRESENT : BitVec 32 := 1
def PAGE_RW : BitVec 32 := 2

def mkpte (addr flags : BitVec 32) : BitVec 32 := pageAlign addr ||| (flags ||| PAGE_PRESENT)

def pdePage (pde : BitVec 32) : Ptr := pde &&& PAGE_MASK

def ptePage (pte : BitVec 32) : Ptr := pte &&& PAGE_MASK

def pdePresent (pde : BitVec 32) : Bool := pde &&& PAGE_PRESENT == PAGE_PRESENT

def ptePresent (pte : BitVec 32) : Bool := pte &&& PAGE_PRESENT == PAGE_PRESENT

/-- Where the directory entry for `va` is. -/
def pdeOffset (pgdir va : Ptr) : Ptr := pgdir + 4 * pdn va

/-- Where the table entry for `va` is, in the page table that a directory entry names. -/
def pteOffset (pde : BitVec 32) (va : Ptr) : Ptr := pdePage pde + 4 * ptn va

/-- A 32-bit word in memory. -/
def load32 (m : Memory) (a : Ptr) : BitVec 32 :=
  m (a + 3) ++ m (a + 2) ++ m (a + 1) ++ m a

def walkPageTable (m : Memory) (pgdir va : Ptr) : Option Ptr :=
  let pde := load32 m (kernelAddr (pdeOffset pgdir va))
  if !pdePresent pde then none else some (kernelAddr (pteOffset pde va))

def virtAddrValid (m : Memory) (pgdir va : Ptr) : Bool :=
  match walkPageTable m pgdir va with
  | none => false
  | some pte => ptePresent (load32 m pte)

end Ohwes

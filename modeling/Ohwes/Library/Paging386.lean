import Ohwes.Library.Cpu386

/-! # Paging of a 32-bit x86 processor

A directory and tables of 1024 entries, for pages of 4 KiB. The marks that the processor leaves in the
entries it uses are left out. -/

namespace Ohwes.Library
set_option autoImplicit false

/-- Where an address leads, and what can be done there. -/
structure Page386 where
  phys : BitVec 32
  writable : Bool
  user : Bool
  deriving DecidableEq

def entryAddr (base : BitVec 32) (i : Nat) : BitVec 32 := base + BitVec.ofNat 32 (4 * i)

def directoryIndex (va : BitVec 32) : Nat := va.toNat / 4194304

def tableIndex (va : BitVec 32) : Nat := va.toNat / 4096 % 1024

/-- The address in an entry. -/
def frame (entry : BitVec 32) : BitVec 32 := entry &&& 0xFFFFF000

def presentEntry (entry : BitVec 32) : Bool := entry.getLsbD 0

def writableEntry (entry : BitVec 32) : Bool := entry.getLsbD 1

def userEntry (entry : BitVec 32) : Bool := entry.getLsbD 2

/-- What a pair of entries says of an address. -/
def pageOf (pde pte va : BitVec 32) : Page386 :=
  ⟨frame pte + (va &&& 0xFFF), writableEntry pde && writableEntry pte, userEntry pde && userEntry pte⟩

def translate386 (m : Memory386) (cr3 va : BitVec 32) : Option Page386 :=
  let pde := readWord m (entryAddr (frame cr3) (directoryIndex va))
  if presentEntry pde = false then none
  else
    let pte := readWord m (entryAddr (frame pde) (tableIndex va))
    if presentEntry pte = false then none else some (pageOf pde pte va)

theorem directoryIndex_lt (va : BitVec 32) : directoryIndex va < 1024 := by
  have hlt := va.isLt
  rw [directoryIndex]
  omega

theorem tableIndex_lt (va : BitVec 32) : tableIndex va < 1024 := Nat.mod_lt _ (by decide)

/-! ## Tables in memory -/

theorem toNat_entryAddr {base : BitVec 32} (h : base.toNat % 4096 = 0) {i : Nat} (hi : i < 1024) :
    (entryAddr base i).toNat = base.toNat + 4 * i := by
  have hlt := base.isLt
  rw [entryAddr, BitVec.toNat_add, BitVec.toNat_ofNat]
  omega

/-- Entries of a page do not run into each other. -/
theorem entryAddr_apart {a b : BitVec 32} (ha : a.toNat % 4096 = 0) (hb : b.toNat % 4096 = 0) {i j : Nat}
    (hi : i < 1024) (hj : j < 1024) (h : a = b → i ≠ j) : 4 ≤ (entryAddr a i - entryAddr b j).toNat := by
  have hsame : a.toNat = b.toNat → i ≠ j := fun he => h (BitVec.eq_of_toNat_eq he)
  rw [BitVec.toNat_sub, toNat_entryAddr ha hi, toNat_entryAddr hb hj]
  have hlt := a.isLt
  have hlt' := b.isLt
  omega

/-- The page at `base` holds a table. -/
def Tabled (m : Memory386) (base : BitVec 32) (f : Nat → BitVec 32) : Prop :=
  ∀ i < 1024, readWord m (entryAddr base i) = f i

section Tabled
variable {m : Memory386} {base other : BitVec 32} {f : Nat → BitVec 32}

theorem Tabled.write (h : Tabled m base f) (hbase : base.toNat % 4096 = 0) {j : Nat} (hj : j < 1024)
    (v : BitVec 32) : Tabled (writeWord m (entryAddr base j) v) base (Function.update f j v) := by
  intro i hi
  by_cases hsame : i = j
  · rw [hsame, readWord_writeWord, Function.update_self]
  · rw [readWord_writeWord_apart m v (entryAddr_apart hbase hbase hi hj fun _ => hsame)
      (entryAddr_apart hbase hbase hj hi fun _ => Ne.symm hsame), Function.update_of_ne hsame, h i hi]

theorem Tabled.write_apart (h : Tabled m base f) (hbase : base.toNat % 4096 = 0)
    (hother : other.toNat % 4096 = 0) (hne : other ≠ base) {j : Nat} (hj : j < 1024) (v : BitVec 32) :
    Tabled (writeWord m (entryAddr other j) v) base f := by
  intro i hi
  rw [readWord_writeWord_apart m v (entryAddr_apart hbase hother hi hj fun he => absurd he.symm hne)
    (entryAddr_apart hother hbase hj hi fun he => absurd he hne), h i hi]

theorem Tabled.congr {g : Nat → BitVec 32} (h : Tabled m base f) (hfg : ∀ i < 1024, f i = g i) :
    Tabled m base g := fun i hi => (h i hi).trans (hfg i hi)

/-- With a directory and the table of an entry in memory. -/
theorem translate386_tabled {g : Nat → BitVec 32} {va : BitVec 32} (hdir : Tabled m (frame base) f)
    (htbl : Tabled m (frame (f (directoryIndex va))) g) :
    translate386 m base va =
      if presentEntry (f (directoryIndex va)) = false then none
      else if presentEntry (g (tableIndex va)) = false then none
      else some (pageOf (f (directoryIndex va)) (g (tableIndex va)) va) := by
  rw [translate386, hdir _ (directoryIndex_lt va), htbl _ (tableIndex_lt va)]

/-- An entry of the directory that is not present. -/
theorem translate386_absent {va : BitVec 32} (hdir : Tabled m (frame base) f)
    (h : presentEntry (f (directoryIndex va)) = false) : translate386 m base va = none := by
  rw [translate386, hdir _ (directoryIndex_lt va), if_pos h]

end Tabled

end Ohwes.Library

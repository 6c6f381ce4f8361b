import Mathlib.Logic.Function.Basic
import Ohwes.I386.Paging
import Ohwes.Kernel.Basic
import Ohwes.Library.Overlay

/-! # Memory behind the page table

The kernel has one page table, `__page_tbl`, for the low memory; entries of the page directory lead to
it or nowhere. A change of an entry counts at once: the source flushes the TLB before the next access.
All entries are writable. -/

namespace Ohwes
open Library
set_option autoImplicit false

def PAGE_PDE : BitVec 32 := 1 <<< 9

def mkpde (addr flags : BitVec 32) : BitVec 32 :=
  pageAlign addr ||| (flags ||| PAGE_PRESENT ||| PAGE_PDE)

/-- `__page_tbl`, which the linker aligns to a page. -/
structure PageTable where
  addr : Ptr
  aligned : addr &&& PAGE_MASK = addr

/-- The entries are numbered, and physical addresses are numbers. -/
structure PagedMemory where
  pgdir : Nat → BitVec 32
  pgtbl : Nat → BitVec 32
  ram : Nat → Byte

def leadsToTable (tbl : PageTable) (pde : BitVec 32) : Bool :=
  pdePresent pde && pdePage pde == tbl.addr

namespace PagedMemory
variable (tbl : PageTable) (p : PagedMemory)

def translate (va : Ptr) : Option Nat :=
  let pte := p.pgtbl (ptn va).toNat
  if leadsToTable tbl (p.pgdir (pdn va).toNat) && ptePresent pte then
    some ((ptePage pte).toNat + (va &&& (PAGE_SIZE - 1)).toNat)
  else none

def load (va : Ptr) : Call Byte :=
  match translate tbl p va with
  | none => .error .fault
  | some a => .ok (p.ram a)

def store (va : Ptr) (b : Byte) : Call PagedMemory :=
  match translate tbl p va with
  | none => .error .fault
  | some a => .ok { p with ram := Function.update p.ram a b }

def loadBytes : Nat → Ptr → Call (List Byte)
  | 0, _ => .ok []
  | n + 1, va => do
    let b ← load tbl p va
    let bs ← loadBytes n (va + 1)
    .ok (b :: bs)

def storeBytes : List Byte → Ptr → PagedMemory → Call PagedMemory
  | [], _, p => .ok p
  | b :: bs, va, p => do
    let p ← store tbl p va b
    storeBytes bs (va + 1) p

def memcpy : Nat → Ptr → Ptr → PagedMemory → Call PagedMemory
  | 0, _, _, p => .ok p
  | n + 1, dst, src, p => do
    let b ← load tbl p src
    let p ← store tbl p dst b
    memcpy n (dst + 1) (src + 1) p

/-- Where the areas overlap, nothing is read that has been written: the bytes are as if they were read
first. -/
def memmove (dst src : Ptr) (n : Nat) : Call PagedMemory := do
  let bs ← loadBytes tbl p n src
  storeBytes tbl bs dst p

/-- `*pte_offset(pgdir, va) = pte`: the page table is found through the first entry of the directory,
and accessed at its physical address. -/
def setPte (va : Ptr) (pte : BitVec 32) : Call PagedMemory :=
  if leadsToTable tbl (p.pgdir 0) then
    .ok { p with pgtbl := Function.update p.pgtbl (ptn va).toNat pte }
  else .error .fault

/-- `count` pages from `va` on become the physical pages of those from `target` on. -/
def mapPages (va target : Ptr) : Nat → PagedMemory → Call PagedMemory
  | 0, p => .ok p
  | i + 1, p => do
    let p ← mapPages va target i p
    let offset : Ptr := BitVec.ofNat 32 i <<< PAGE_SHIFT
    setPte tbl p (va + offset) (mkpte (physicalAddr (target + offset)) PAGE_RW)

end PagedMemory

/-! ## Entries -/

theorem toNat_and_low (x : BitVec 32) : (x &&& (PAGE_SIZE - 1)).toNat = x.toNat % 4096 :=
  Nat.and_two_pow_sub_one_eq_mod x.toNat 12

theorem toNat_and_mask (x : BitVec 32) : (x &&& PAGE_MASK).toNat = x.toNat / 4096 * 4096 := by
  have hdisj : (x &&& PAGE_MASK) &&& (x &&& (PAGE_SIZE - 1)) = 0#32 := by
    rw [BitVec.and_comm x, BitVec.and_assoc, ← BitVec.and_assoc x, BitVec.and_self,
      BitVec.and_comm x, ← BitVec.and_assoc, show PAGE_MASK &&& (PAGE_SIZE - 1) = 0#32 by decide,
      BitVec.zero_and]
  have hsplit : (x &&& PAGE_MASK) + (x &&& (PAGE_SIZE - 1)) = x := by
    rw [BitVec.add_eq_or_of_and_eq_zero _ _ hdisj, ← BitVec.and_or_distrib_left,
      show PAGE_MASK ||| (PAGE_SIZE - 1) = BitVec.allOnes 32 by decide, BitVec.and_allOnes]
  have hlow := toNat_and_low x
  have hle : (x &&& PAGE_MASK).toNat ≤ x.toNat := Nat.and_le_left
  have hsum := congrArg BitVec.toNat hsplit
  rw [BitVec.toNat_add] at hsum
  have := x.isLt
  omega

theorem aligned_iff (x : BitVec 32) : x &&& PAGE_MASK = x ↔ x.toNat % 4096 = 0 := by
  rw [← BitVec.toNat_inj, toNat_and_mask]
  omega

theorem pageAlign_of_aligned {x : Ptr} (h : x.toNat % 4096 = 0) : pageAlign x = x := by
  have hlt := x.isLt
  rw [pageAlign, ← BitVec.toNat_inj, toNat_and_mask, BitVec.toNat_add,
    show (PAGE_SIZE - 1).toNat = 4095 from rfl]
  omega

theorem or_flags_page {x flags : BitVec 32} (h : x.toNat % 4096 = 0) (hf : flags &&& PAGE_MASK = 0#32) :
    (x ||| flags) &&& PAGE_MASK = x := by
  rw [BitVec.and_comm, BitVec.and_or_distrib_left, BitVec.and_comm PAGE_MASK flags, hf,
    BitVec.or_zero, BitVec.and_comm]
  exact (aligned_iff x).mpr h

theorem or_flags_present {x flags : BitVec 32} (h : x.toNat % 4096 = 0)
    (hf : flags &&& PAGE_PRESENT = PAGE_PRESENT) : (x ||| flags) &&& PAGE_PRESENT = PAGE_PRESENT := by
  have hmask : x &&& PAGE_PRESENT = 0#32 := by
    rw [← (aligned_iff x).mpr h, BitVec.and_assoc, show PAGE_MASK &&& PAGE_PRESENT = 0#32 by decide,
      BitVec.and_zero]
  rw [BitVec.and_comm, BitVec.and_or_distrib_left, BitVec.and_comm _ x, hmask, BitVec.zero_or,
    BitVec.and_comm, hf]

theorem mkpte_page {pa : Ptr} (h : pa.toNat % 4096 = 0) : ptePage (mkpte pa PAGE_RW) = pa := by
  rw [ptePage, mkpte, pageAlign_of_aligned h]
  exact or_flags_page h (by decide)

theorem mkpte_present {pa : Ptr} (h : pa.toNat % 4096 = 0) :
    ptePresent (mkpte pa PAGE_RW) = true := by
  rw [ptePresent, mkpte, pageAlign_of_aligned h, or_flags_present h (by decide), beq_self_eq_true]

/-- The entry is present and names the page `P`. -/
def Names (pte : BitVec 32) (P : Ptr) : Prop := ptePresent pte = true ∧ ptePage pte = P

theorem names_mkpte {pa : Ptr} (h : pa.toNat % 4096 = 0) : Names (mkpte pa PAGE_RW) pa :=
  ⟨mkpte_present h, mkpte_page h⟩

theorem PageTable.offset (tbl : PageTable) : tbl.addr.toNat % 4096 = 0 := (aligned_iff _).mp tbl.aligned

theorem leadsToTable_mkpde (tbl : PageTable) : leadsToTable tbl (mkpde tbl.addr PAGE_RW) = true := by
  have hpage : pdePage (mkpde tbl.addr PAGE_RW) = tbl.addr := by
    rw [pdePage, mkpde, pageAlign_of_aligned tbl.offset]
    exact or_flags_page tbl.offset (by decide)
  have hpresent : pdePresent (mkpde tbl.addr PAGE_RW) = true := by
    rw [pdePresent, mkpde, pageAlign_of_aligned tbl.offset, or_flags_present tbl.offset (by decide),
      beq_self_eq_true]
  rw [leadsToTable, hpage, hpresent, beq_self_eq_true, Bool.and_self]

theorem toNat_ptn (va : Ptr) : (ptn va).toNat = va.toNat / 4096 % 1024 := by
  rw [ptn, BitVec.toNat_and, show (PTE_COUNT - 1).toNat = 2 ^ 10 - 1 from rfl,
    Nat.and_two_pow_sub_one_eq_mod, BitVec.toNat_ushiftRight, Nat.shiftRight_eq_div_pow]
  rfl

theorem toNat_pdn (va : Ptr) : (pdn va).toNat = va.toNat / 4194304 % 1024 := by
  rw [pdn, BitVec.toNat_and, show (PTE_COUNT - 1).toNat = 2 ^ 10 - 1 from rfl,
    Nat.and_two_pow_sub_one_eq_mod, BitVec.toNat_ushiftRight, Nat.shiftRight_eq_div_pow]
  rfl

/-! ## Areas -/

/-- The `n` bytes from `va` on are those at the physical address `pa`. -/
def MapsTo (tbl : PageTable) (p : PagedMemory) (va : Ptr) (pa n : Nat) : Prop :=
  ∀ k < n, p.translate tbl (va + BitVec.ofNat 32 k) = some (pa + k)

section Areas
variable {tbl : PageTable} {p q : PagedMemory} {va va' : Ptr} {pa pa' n : Nat}

theorem translate_page {P : Ptr} (hpde : leadsToTable tbl (p.pgdir (pdn va).toNat) = true)
    (hpte : Names (p.pgtbl (ptn va).toNat) P) :
    p.translate tbl va = some (P.toNat + va.toNat % 4096) := by
  rw [PagedMemory.translate]
  simp only [hpte.1, hpte.2, hpde, Bool.and_self, if_true, toNat_and_low]

/-- Only the entries for an area matter for where it leads. -/
theorem MapsTo.congr
    (hdir : ∀ k < n, q.pgdir (pdn (va + BitVec.ofNat 32 k)).toNat =
      p.pgdir (pdn (va + BitVec.ofNat 32 k)).toNat)
    (htbl : ∀ k < n, q.pgtbl (ptn (va + BitVec.ofNat 32 k)).toNat =
      p.pgtbl (ptn (va + BitVec.ofNat 32 k)).toNat)
    (h : MapsTo tbl p va pa n) : MapsTo tbl q va pa n := by
  intro k hk
  rw [← h k hk, PagedMemory.translate, PagedMemory.translate, hdir k hk, htbl k hk]

/-- Contents do not. -/
theorem MapsTo.with_ram (ram : Nat → Byte) (h : MapsTo tbl p va pa n) :
    MapsTo tbl { p with ram := ram } va pa n :=
  h.congr (fun _ _ => rfl) fun _ _ => rfl

theorem MapsTo.head (h : MapsTo tbl p va pa (n + 1)) : p.translate tbl va = some pa := by
  have hzero := h 0 (Nat.succ_pos n)
  rwa [BitVec.add_zero] at hzero

theorem MapsTo.tail (h : MapsTo tbl p va pa (n + 1)) : MapsTo tbl p (va + 1) (pa + 1) n := by
  intro k hk
  have hnext := h (k + 1) (Nat.succ_lt_succ hk)
  rw [Nat.add_comm k 1, BitVec.ofNat_add, ← BitVec.add_assoc, ← Nat.add_assoc] at hnext
  exact hnext

theorem MapsTo.part {i m : Nat} (h : MapsTo tbl p va pa n) (hi : i + m ≤ n) :
    MapsTo tbl p (va + BitVec.ofNat 32 i) (pa + i) m := by
  intro k hk
  have hpart := h (i + k) (by omega)
  rwa [BitVec.ofNat_add, ← BitVec.add_assoc, ← Nat.add_assoc] at hpart

theorem loadBytes_of_mapsTo (h : MapsTo tbl p va pa n) :
    p.loadBytes tbl n va = .ok (slice p.ram pa n) := by
  induction n generalizing va pa with
  | zero => rfl
  | succ n ih =>
    rw [PagedMemory.loadBytes, PagedMemory.load, h.head, ih h.tail, Nat.add_comm n 1, slice_add]
    rfl

theorem store_of_mapsTo (h : MapsTo tbl p va pa (n + 1)) (b : Byte) :
    p.store tbl va b = .ok { p with ram := overlay p.ram pa [b] } := by
  rw [PagedMemory.store, h.head, overlay_singleton]

theorem storeBytes_of_mapsTo {bs : List Byte} (h : MapsTo tbl p va pa bs.length) :
    PagedMemory.storeBytes tbl bs va p = .ok { p with ram := overlay p.ram pa bs } := by
  induction bs generalizing p va pa with
  | nil => rw [PagedMemory.storeBytes, overlay_nil]
  | cons b bs ih =>
    have hrest := ih (h.tail.with_ram (overlay p.ram pa [b]))
    rw [PagedMemory.storeBytes, store_of_mapsTo h, ok_bind, hrest]
    have hjoin : overlay (overlay p.ram pa [b]) (pa + 1) bs = overlay p.ram pa (b :: bs) :=
      overlay_append p.ram pa [b] bs
    rw [hjoin]

theorem memmove_of_mapsTo (hdst : MapsTo tbl p va pa n) (hsrc : MapsTo tbl p va' pa' n) :
    p.memmove tbl va va' n = .ok { p with ram := overlay p.ram pa (slice p.ram pa' n) } := by
  rw [PagedMemory.memmove, loadBytes_of_mapsTo hsrc, ok_bind]
  exact storeBytes_of_mapsTo (by rwa [slice_length])

/-- Areas that are apart are copied as a whole. -/
theorem memcpy_of_mapsTo (hdst : MapsTo tbl p va pa n) (hsrc : MapsTo tbl p va' pa' n)
    (hapart : pa + n ≤ pa' ∨ pa' + n ≤ pa) :
    PagedMemory.memcpy tbl n va va' p =
      .ok { p with ram := overlay p.ram pa (slice p.ram pa' n) } := by
  induction n generalizing p va va' pa pa' with
  | zero => rw [PagedMemory.memcpy, slice_zero, overlay_nil]
  | succ n ih =>
    have hload : p.load tbl va' = .ok (p.ram pa') := by rw [PagedMemory.load, hsrc.head]
    have hrest := ih (hdst.tail.with_ram (overlay p.ram pa [p.ram pa']))
      (hsrc.tail.with_ram (overlay p.ram pa [p.ram pa'])) (by omega)
    have hkept : slice (overlay p.ram pa [p.ram pa']) (pa' + 1) n = slice p.ram (pa' + 1) n :=
      slice_overlay_apart p.ram [p.ram pa'] (by rw [List.length_singleton]; omega)
    have hjoin : overlay (overlay p.ram pa [p.ram pa']) (pa + 1) (slice p.ram (pa' + 1) n) =
        overlay p.ram pa ([p.ram pa'] ++ slice p.ram (pa' + 1) n) :=
      overlay_append p.ram pa [p.ram pa'] (slice p.ram (pa' + 1) n)
    have hslice : slice p.ram pa' (n + 1) = [p.ram pa'] ++ slice p.ram (pa' + 1) n := by
      rw [Nat.add_comm n 1, slice_add]
      rfl
    rw [PagedMemory.memcpy, hload, ok_bind, store_of_mapsTo hdst, ok_bind, hrest, hkept, hjoin, hslice]

end Areas

/-! ## Mapping -/

section Mapping
variable {tbl : PageTable} {p q : PagedMemory} {va target : Ptr} {count : Nat}

theorem toNat_pageOffset {i : Nat} (h : i < 1024) :
    (BitVec.ofNat 32 i <<< PAGE_SHIFT).toNat = i * 4096 := by
  rw [BitVec.toNat_shiftLeft, BitVec.toNat_ofNat, Nat.shiftLeft_eq,
    show 2 ^ PAGE_SHIFT = 4096 from rfl]
  omega

theorem toNat_ptn_page (va : Ptr) {i : Nat} (h : i < 1024) :
    (ptn (va + BitVec.ofNat 32 i <<< PAGE_SHIFT)).toNat = (va.toNat / 4096 + i) % 1024 := by
  rw [toNat_ptn, BitVec.toNat_add, toNat_pageOffset h]
  omega

variable (va) in
theorem setPte_page (hdir : leadsToTable tbl (p.pgdir 0) = true) {i : Nat} (hi : i < 1024)
    (pte : BitVec 32) :
    p.setPte tbl (va + BitVec.ofNat 32 i <<< PAGE_SHIFT) pte =
      .ok { p with pgtbl := Function.update p.pgtbl ((va.toNat / 4096 + i) % 1024) pte } := by
  rw [PagedMemory.setPte, hdir, if_pos rfl, toNat_ptn_page va hi]

variable (va target) in
/-- Each of the pages gets its entry, and the others keep theirs. -/
theorem mapPages_spec (hdir : leadsToTable tbl (p.pgdir 0) = true) (hcount : count ≤ 1024) :
    ∃ q, p.mapPages tbl va target count = .ok q ∧ q.pgdir = p.pgdir ∧ q.ram = p.ram ∧
      (∀ i < count, q.pgtbl ((va.toNat / 4096 + i) % 1024) =
        mkpte (physicalAddr (target + BitVec.ofNat 32 i <<< PAGE_SHIFT)) PAGE_RW) ∧
      ∀ j, (∀ i < count, j ≠ (va.toNat / 4096 + i) % 1024) → q.pgtbl j = p.pgtbl j := by
  induction count with
  | zero => exact ⟨p, rfl, rfl, rfl, fun i hi => absurd hi (Nat.not_lt_zero i), fun _ _ => rfl⟩
  | succ n ih =>
    obtain ⟨q, hq, hqdir, hqram, hset, hkept⟩ := ih (Nat.le_of_succ_le hcount)
    have hstep := setPte_page va (by rw [hqdir, hdir]) hcount
      (mkpte (physicalAddr (target + BitVec.ofNat 32 n <<< PAGE_SHIFT)) PAGE_RW)
    rw [PagedMemory.mapPages, hq, ok_bind]
    refine ⟨_, hstep, hqdir, hqram, fun i hi => ?_,
      fun j hj => ?_⟩
    · rcases Nat.lt_succ_iff_lt_or_eq.mp hi with hlt | rfl
      · have hne : (va.toNat / 4096 + i) % 1024 ≠ (va.toNat / 4096 + n) % 1024 := by omega
        exact (Function.update_of_ne hne _ _).trans (hset i hlt)
      · exact Function.update_self ..
    · have hne : j ≠ (va.toNat / 4096 + n) % 1024 := hj n (Nat.lt_succ_self n)
      exact (Function.update_of_ne hne _ _).trans (hkept j fun i hi => hj i (Nat.lt_succ_of_lt hi))

/-- An area of pages whose entries name one page after the other. -/
theorem mapsTo_of_pages {P : Ptr} (hva : va.toNat % 4096 = 0) (hcount : count ≤ 1024)
    (hend : va.toNat + count * 4096 ≤ 2 ^ 32)
    (hPend : P.toNat + count * 4096 ≤ 2 ^ 32)
    (hdir : ∀ k < count * 4096, leadsToTable tbl (q.pgdir (pdn (va + BitVec.ofNat 32 k)).toNat) = true)
    (hpte : ∀ i < count, Names (q.pgtbl ((va.toNat / 4096 + i) % 1024))
      (P + BitVec.ofNat 32 i <<< PAGE_SHIFT)) :
    MapsTo tbl q va P.toNat (count * 4096) := by
  intro k hk
  have hi : k / 4096 < count := by omega
  have hsum : (va + BitVec.ofNat 32 k).toNat = va.toNat + k := by
    rw [BitVec.toNat_add, BitVec.toNat_ofNat]
    omega
  have hpage : (P + BitVec.ofNat 32 (k / 4096) <<< PAGE_SHIFT).toNat = P.toNat + k / 4096 * 4096 := by
    rw [BitVec.toNat_add, toNat_pageOffset (by omega)]
    omega
  have hentry : Names (q.pgtbl (ptn (va + BitVec.ofNat 32 k)).toNat)
      (P + BitVec.ofNat 32 (k / 4096) <<< PAGE_SHIFT) := by
    have hnumber : (va.toNat + k) / 4096 % 1024 = (va.toNat / 4096 + k / 4096) % 1024 := by omega
    rw [toNat_ptn, hsum, hnumber]
    exact hpte _ hi
  rw [translate_page (hdir k hk) hentry, hsum, hpage]
  congr 1
  omega

end Mapping

end Ohwes

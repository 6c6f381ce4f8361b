import Mathlib.Tactic.IntervalCases
import Mathlib.Tactic.SplitIfs
import Ohwes.Char.TerminalSwitch

/-! # Virtual terminals are isolated

The frame buffers lie one behind the other in the VGA's memory, that of the display first. The screen of
a terminal is in the frame buffer of its number, or on display (`Slots`); a switch moves two screens
and the entries of the page table with them, so that each terminal still sees its own. -/

namespace Ohwes
open Library
set_option autoImplicit false

/-! ## The frame buffers -/

/-- Where frame buffer `k` begins in the memory. -/
def slotBase (k : Nat) : Nat := 0xA0000 + k * FB_SIZE

def slotAddr (k : Nat) : Ptr := 0xA0000 + BitVec.ofNat 32 ((k * FB_SIZE_PAGES) <<< PAGE_SHIFT)

/-- The frame buffer of a terminal. -/
def terminalFb (t : Nat) : Ptr :=
  kernelAddr 0xA0000 + BitVec.ofNat 32 ((t * FB_SIZE_PAGES) <<< PAGE_SHIFT)

/-- The frame buffer that the screen of terminal `t` is in, with terminal `curr` on display. -/
def slotOf (curr t : Nat) : Nat := if t = curr then 0 else t

/-- The pages of terminal `t` are those of frame buffer `slot t`. -/
structure Slots (tbl : PageTable) (p : PagedMemory) (slot : Nat → Nat) : Prop where
  kernel : leadsToTable tbl (p.pgdir 768) = true
  entries : ∀ t ≤ NR_TERMINAL, ∀ i < FB_SIZE_PAGES,
    Names (p.pgtbl (160 + t * FB_SIZE_PAGES + i)) (slotAddr (slot t) + BitVec.ofNat 32 i <<< PAGE_SHIFT)

theorem FB_SIZE_eq : FB_SIZE = FB_SIZE_PAGES * 4096 := rfl

theorem toNat_slotAddr {k : Nat} (h : k ≤ NR_TERMINAL) : (slotAddr k).toNat = slotBase k := by
  have hk : k ≤ 7 := h
  rw [slotAddr, slotBase, FB_SIZE_eq, FB_SIZE_PAGES, BitVec.toNat_add, BitVec.toNat_ofNat,
    Nat.shiftLeft_eq, show 2 ^ PAGE_SHIFT = 4096 from rfl,
    show (0xA0000 : BitVec 32).toNat = 655360 from rfl]
  omega

theorem toNat_terminalFb {t : Nat} (h : t ≤ NR_TERMINAL) :
    (terminalFb t).toNat = 3221880832 + t * 8192 := by
  have ht : t ≤ 7 := h
  rw [terminalFb, FB_SIZE_PAGES, BitVec.toNat_add, BitVec.toNat_ofNat, Nat.shiftLeft_eq,
    show 2 ^ PAGE_SHIFT = 4096 from rfl, show (kernelAddr 0xA0000).toNat = 3221880832 from rfl]
  omega

theorem slotBase_apart {i j : Nat} (h : i ≠ j) :
    slotBase i + FB_SIZE ≤ slotBase j ∨ slotBase j + FB_SIZE ≤ slotBase i := by
  rw [slotBase, slotBase, FB_SIZE_eq, FB_SIZE_PAGES]
  omega

theorem slotOf_le {curr t : Nat} (h : t ≤ NR_TERMINAL) : slotOf curr t ≤ NR_TERMINAL := by
  rw [slotOf]
  split
  · exact Nat.zero_le _
  · exact h

theorem slotOf_inj {curr t t' : Nat} (ht : t ≠ 0) (ht' : t' ≠ 0) (h : slotOf curr t = slotOf curr t') :
    t = t' := by
  rw [slotOf, slotOf] at h
  split_ifs at h with h1 h2 h3
  · rw [h1, h2]
  · exact absurd h.symm ht'
  · exact absurd h ht
  · exact h

section Slots
variable {tbl : PageTable} {p : PagedMemory} {slot : Nat → Nat} {t : Nat}

theorem Slots.congr {slot' : Nat → Nat} (h : Slots tbl p slot) (heq : ∀ t ≤ NR_TERMINAL, slot' t = slot t) :
    Slots tbl p slot' where
  kernel := h.kernel
  entries := fun t ht i hi => by
    rw [heq t ht]
    exact h.entries t ht i hi

theorem Slots.with_memory {q : PagedMemory} (hdir : q.pgdir 768 = p.pgdir 768) (htbl : q.pgtbl = p.pgtbl)
    (h : Slots tbl p slot) : Slots tbl q slot where
  kernel := by rw [hdir, h.kernel]
  entries := by rw [htbl]; exact h.entries

/-- Through its frame buffer a terminal sees the memory of its slot. -/
theorem Slots.mapsTo (h : Slots tbl p slot) (ht : t ≤ NR_TERMINAL) (hs : slot t ≤ NR_TERMINAL) :
    MapsTo tbl p (terminalFb t) (slotBase (slot t)) FB_SIZE := by
  have hfb := toNat_terminalFb ht
  have haddr := toNat_slotAddr hs
  have hlow : slotBase (slot t) ≤ 655360 + 7 * 8192 := by
    have : slot t ≤ 7 := hs
    rw [slotBase, FB_SIZE_eq, FB_SIZE_PAGES]
    omega
  have ht7 : t ≤ 7 := ht
  rw [← haddr, FB_SIZE_eq]
  refine mapsTo_of_pages (by omega) (by decide) (by rw [FB_SIZE_PAGES]; omega)
    (by rw [FB_SIZE_PAGES]; omega) (fun k hk => ?_) (fun i hi => ?_)
  · have hsum : (terminalFb t + BitVec.ofNat 32 k).toNat = 3221880832 + t * 8192 + k := by
      rw [FB_SIZE_PAGES] at hk
      rw [BitVec.toNat_add, BitVec.toNat_ofNat, hfb]
      omega
    have hnumber : (3221880832 + t * 8192 + k) / 4194304 % 1024 = 768 := by
      rw [FB_SIZE_PAGES] at hk
      omega
    rw [toNat_pdn, hsum, hnumber]
    exact h.kernel
  · have hnumber : ((terminalFb t).toNat / 4096 + i) % 1024 = 160 + t * FB_SIZE_PAGES + i := by
      rw [FB_SIZE_PAGES] at hi ⊢
      omega
    rw [hnumber]
    exact h.entries t ht i hi

/-- The identity mapping reaches what is on display. -/
theorem Slots.mapsTo_vga (h : Slots tbl p slot) (hident : leadsToTable tbl (p.pgdir 0) = true)
    (hs : slot 0 = 0) : MapsTo tbl p 0xA0000 (slotBase 0) FB_SIZE := by
  have haddr := toNat_slotAddr (Nat.zero_le NR_TERMINAL)
  have hvga : (0xA0000 : Ptr).toNat = 655360 := rfl
  rw [← haddr, FB_SIZE_eq]
  have hbase : slotBase 0 = 655360 := rfl
  refine mapsTo_of_pages (by decide) (by decide) (by decide) (by rw [haddr, hbase]; decide)
    (fun k hk => ?_) (fun i hi => ?_)
  · have hsum : (0xA0000 + BitVec.ofNat 32 k : Ptr).toNat = 655360 + k := by
      rw [FB_SIZE_PAGES] at hk
      rw [BitVec.toNat_add, BitVec.toNat_ofNat, hvga]
      omega
    have hnumber : (655360 + k) / 4194304 % 1024 = 0 := by
      rw [FB_SIZE_PAGES] at hk
      omega
    rw [toNat_pdn, hsum, hnumber]
    exact hident
  · have hentry := h.entries 0 (Nat.zero_le _) i hi
    rw [hs] at hentry
    have hnumber : ((0xA0000 : Ptr).toNat / 4096 + i) % 1024 = 160 + 0 * FB_SIZE_PAGES + i := by
      rw [FB_SIZE_PAGES] at hi ⊢
      omega
    rw [hnumber]
    exact hentry

variable (target : Ptr) in
/-- The pages of terminal `t` become those of frame buffer `s`. -/
theorem Slots.mapPages {s : Nat} (h : Slots tbl p slot)
    (hident : leadsToTable tbl (p.pgdir 0) = true) (ht : t ≤ NR_TERMINAL) (hs : s ≤ NR_TERMINAL)
    (htarget : ∀ i < FB_SIZE_PAGES, physicalAddr (target + BitVec.ofNat 32 i <<< PAGE_SHIFT) =
      slotAddr s + BitVec.ofNat 32 i <<< PAGE_SHIFT) :
    ∃ q, p.mapPages tbl (terminalFb t) target FB_SIZE_PAGES = .ok q ∧ q.pgdir = p.pgdir ∧
      q.ram = p.ram ∧ Slots tbl q (Function.update slot t s) := by
  obtain ⟨q, hq, hdir, hram, hset, hkept⟩ :=
    mapPages_spec (terminalFb t) target hident (by decide : FB_SIZE_PAGES ≤ 1024)
  have hfb := toNat_terminalFb ht
  have haddr := toNat_slotAddr hs
  have ht7 : t ≤ 7 := ht
  have hnumber : ∀ i < FB_SIZE_PAGES,
      ((terminalFb t).toNat / 4096 + i) % 1024 = 160 + t * FB_SIZE_PAGES + i := by
    intro i hi
    rw [FB_SIZE_PAGES] at hi ⊢
    omega
  refine ⟨q, hq, hdir, hram, ⟨by rw [hdir, h.kernel], fun u hu i hi => ?_⟩⟩
  by_cases hut : u = t
  · have hpage : (slotAddr s + BitVec.ofNat 32 i <<< PAGE_SHIFT).toNat % 4096 = 0 := by
      have hbase : slotBase s = 655360 + s * 8192 := rfl
      rw [FB_SIZE_PAGES] at hi
      rw [BitVec.toNat_add, toNat_pageOffset (by omega), haddr, hbase]
      omega
    rw [hut, Function.update_self, ← hnumber i hi, hset i hi, htarget i hi]
    exact names_mkpte hpage
  · rw [Function.update_of_ne hut, hkept]
    · exact h.entries u hu i hi
    · intro j hj
      rw [hnumber j hj]
      rw [FB_SIZE_PAGES] at hi hj ⊢
      omega

end Slots

/-! ## The swap -/

section Swap
variable {tbl : PageTable} {p : PagedMemory} {slot : Nat → Nat} {curr next : Nat}

/-- A page of a frame buffer at its physical address. -/
theorem physicalAddr_terminalFb {t i : Nat} (ht : t ≤ NR_TERMINAL) (hi : i < FB_SIZE_PAGES) :
    physicalAddr (terminalFb t + BitVec.ofNat 32 i <<< PAGE_SHIFT) =
      slotAddr t + BitVec.ofNat 32 i <<< PAGE_SHIFT := by
  have hfb := toNat_terminalFb ht
  have haddr := toNat_slotAddr ht
  have hbase : slotBase t = 655360 + t * 8192 := rfl
  have ht7 : t ≤ 7 := ht
  rw [FB_SIZE_PAGES] at hi
  have hoff := toNat_pageOffset (show i < 1024 by omega)
  have hva : (terminalFb t + BitVec.ofNat 32 i <<< PAGE_SHIFT).toNat =
      3221880832 + t * 8192 + i * 4096 := by
    rw [BitVec.toNat_add, hfb, hoff]
    omega
  have hkernel : KERNEL_VA.toNat = 3221225472 := rfl
  have hge : terminalFb t + BitVec.ofNat 32 i <<< PAGE_SHIFT ≥ KERNEL_VA := by
    show KERNEL_VA.toNat ≤ _
    omega
  rw [physicalAddr, if_pos hge]
  refine BitVec.eq_of_toNat_eq ?_
  rw [BitVec.toNat_sub, BitVec.toNat_add (slotAddr t), hva, hkernel, haddr, hoff]
  omega

theorem physicalAddr_vga {i : Nat} (hi : i < FB_SIZE_PAGES) :
    physicalAddr (0xA0000 + BitVec.ofNat 32 i <<< PAGE_SHIFT) =
      slotAddr 0 + BitVec.ofNat 32 i <<< PAGE_SHIFT := by
  rw [FB_SIZE_PAGES] at hi
  interval_cases i
  · rfl
  · rfl

theorem update_slotOf (curr : Nat) : Function.update (slotOf curr) curr curr = fun t => t := by
  funext t
  by_cases h : t = curr
  · rw [h, Function.update_self]
  · rw [Function.update_of_ne h, slotOf, if_neg h]

theorem update_slot_zero (next : Nat) : Function.update (fun t => t) next 0 = slotOf next := by
  funext t
  by_cases h : t = next
  · rw [h, Function.update_self, slotOf, if_pos rfl]
  · rw [Function.update_of_ne h, slotOf, if_neg h]

/-- The memory after the outgoing screen is copied to its own frame buffer. -/
def savedRam (ram : Nat → Byte) (curr : Nat) : Nat → Byte :=
  overlay ram (slotBase curr) (slice ram (slotBase 0) FB_SIZE)

/-- The memory after the incoming screen is copied onto the display. -/
def swappedRam (ram : Nat → Byte) (curr next : Nat) : Nat → Byte :=
  overlay (savedRam ram curr) (slotBase 0) (slice (savedRam ram curr) (slotBase next) FB_SIZE)

theorem slice_savedRam (ram : Nat → Byte) (t : Nat) :
    slice (savedRam ram curr) (slotBase t) FB_SIZE = slice ram (slotBase (slotOf curr t)) FB_SIZE := by
  have hlen := slice_length ram (slotBase 0) FB_SIZE
  by_cases htc : t = curr
  · have hread := slice_overlay ram (slotBase curr) (slice ram (slotBase 0) FB_SIZE)
    rw [hlen] at hread
    rw [savedRam, slotOf, if_pos htc, htc, hread]
  · rw [savedRam, slotOf, if_neg htc]
    refine slice_overlay_apart ram _ ?_
    rw [hlen]
    exact slotBase_apart htc

/-- Each terminal still sees what it saw. -/
theorem slice_swappedRam (ram : Nat → Byte) {t : Nat} (ht : 1 ≤ t) :
    slice (swappedRam ram curr next) (slotBase (slotOf next t)) FB_SIZE =
      slice ram (slotBase (slotOf curr t)) FB_SIZE := by
  have hlen := slice_length (savedRam ram curr) (slotBase next) FB_SIZE
  rw [← slice_savedRam ram t]
  by_cases htn : t = next
  · have hread := slice_overlay (savedRam ram curr) (slotBase 0)
      (slice (savedRam ram curr) (slotBase next) FB_SIZE)
    rw [hlen] at hread
    rw [swappedRam, slotOf, if_pos htn, htn, hread]
  · rw [swappedRam, slotOf, if_neg htn]
    refine slice_overlay_apart _ _ ?_
    rw [hlen]
    exact slotBase_apart (Nat.ne_of_gt ht)

/-- A switch changes which frame buffer is on display. -/
theorem Slots.swap (h : Slots tbl p slot)
    (hslot : Function.update slot curr curr = fun t => t) (hc : 1 ≤ curr) (hc7 : curr ≤ NR_TERMINAL)
    (hn : 1 ≤ next) (hn7 : next ≤ NR_TERMINAL) :
    ∃ q, swapScreens tbl 0xA0000 (terminalFb curr) (terminalFb next) p = .ok q ∧
      Slots tbl q (slotOf next) ∧ q.ram = swappedRam p.ram curr next := by
  have hident := leadsToTable_mkpde tbl
  have hkernel : (768 : Nat) ≠ 0 := by decide
  generalize hp0 : { p with pgdir := Function.update p.pgdir 0 (mkpde tbl.addr PAGE_RW) } = p0
  have hdir0 : p0.pgdir 768 = p.pgdir 768 := by
    rw [← hp0]
    exact Function.update_of_ne hkernel (mkpde tbl.addr PAGE_RW) p.pgdir
  have htbl0 : p0.pgtbl = p.pgtbl := by rw [← hp0]
  have hram0 : p0.ram = p.ram := by rw [← hp0]
  have hs0 : Slots tbl p0 slot := h.with_memory hdir0 htbl0
  have hident0 : leadsToTable tbl (p0.pgdir 0) = true := by
    rw [← hp0]
    show leadsToTable tbl (Function.update p.pgdir 0 (mkpde tbl.addr PAGE_RW) 0) = true
    rw [Function.update_self, hident]
  -- the old frame buffer gets its own pages back
  obtain ⟨p1, hmap1, hdir1, hram1, h1⟩ := hs0.mapPages (terminalFb curr) hident0 hc7 hc7
    fun i hi => physicalAddr_terminalFb hc7 hi
  rw [hslot] at h1
  have hident1 : leadsToTable tbl (p1.pgdir 0) = true := by rw [hdir1, hident0]
  have hcopy1 := memcpy_of_mapsTo (h1.mapsTo hc7 hc7) (h1.mapsTo_vga hident1 rfl)
    (slotBase_apart (Nat.ne_of_gt hc))
  rw [hram1, hram0, ← savedRam] at hcopy1
  generalize hp2 : { p1 with ram := savedRam p.ram curr } = p2 at hcopy1
  have hram2 : p2.ram = savedRam p.ram curr := by rw [← hp2]
  have hident2 : leadsToTable tbl (p2.pgdir 0) = true := by rw [← hp2, hident1]
  have h2 : Slots tbl p2 fun t => t := h1.with_memory (by rw [← hp2]) (by rw [← hp2])
  have hcopy2 := memcpy_of_mapsTo (h2.mapsTo_vga hident2 rfl) (h2.mapsTo hn7 hn7)
    (slotBase_apart (Nat.ne_of_lt hn))
  rw [hram2, ← swappedRam] at hcopy2
  generalize hp3 : { p2 with ram := swappedRam p.ram curr next } = p3 at hcopy2
  have hident3 : leadsToTable tbl (p3.pgdir 0) = true := by rw [← hp3, hident2]
  have h3 : Slots tbl p3 fun t => t := h2.with_memory (by rw [← hp3]) (by rw [← hp3])
  -- the new one goes on display
  obtain ⟨p4, hmap4, hdir4, hram4, h4⟩ := h3.mapPages 0xA0000 hident3 hn7
    (Nat.zero_le _) fun i hi => physicalAddr_vga hi
  rw [update_slot_zero] at h4
  have hdir5 : Function.update p4.pgdir 0 0 768 = p4.pgdir 768 :=
    Function.update_of_ne hkernel 0 p4.pgdir
  refine ⟨{ p4 with pgdir := Function.update p4.pgdir 0 0 }, ?_, ?_, ?_⟩
  · rw [swapScreens, hp0, hmap1, ok_bind, hcopy1, ok_bind, hcopy2, ok_bind, hmap4, ok_bind]
  · exact h4.with_memory hdir5 rfl
  · show p4.ram = _
    rw [hram4, ← hp3]

end Swap

end Ohwes

import Ohwes.I386.PagedMemory
import Ohwes.I386.PageFlags
import Ohwes.Library.Paging386

/-! # `kernel/setup.S`: the address space of the kernel

`setup_paging` maps the low two megabytes twice, at their own addresses and from `KERNEL_VA` on, and
`ksetup` takes the first of these mappings away through itself. What else `ksetup` does in between is
left out. -/

namespace Ohwes
open Library
set_option autoImplicit false

/-- `__page_dir` and `__page_tbl`, as the linker places them: on pages of their own in the low two
megabytes, and not on the first. -/
structure PageLabels where
  pageDir : BitVec 32
  pageTbl : BitVec 32
  dir_aligned : pageDir.toNat % 4096 = 0
  tbl_aligned : pageTbl.toNat % 4096 = 0
  apart : pageDir ≠ pageTbl
  dir_low : 4096 ≤ pageDir.toNat ∧ pageDir.toNat < 0x200000
  tbl_low : 4096 ≤ pageTbl.toNat ∧ pageTbl.toNat < 0x200000

instance : Inhabited PageLabels :=
  ⟨⟨0x00130000, 0x00131000, by decide, by decide, by decide, by decide, by decide⟩⟩

def PAGE_FLAGS : BitVec 32 := PAGE_PRESENT ||| PAGE_RW ||| PAGE_USER
def KERNEL_PDN : BitVec 32 := KERNEL_VA >>> (PGDIR_SHIFT - 2)
def NR_ENTRIES : Nat := 1024
def NR_PAGES : BitVec 32 := 0x200

/-- `rep stosl`. -/
def repStosl (eax : BitVec 32) : Nat → BitVec 32 → Memory386 → Memory386
  | 0, _, m => m
  | ecx + 1, edi, m => repStosl eax ecx (edi + 4) (writeWord m edi eax)

def mapLowLoop (edi : BitVec 32) : Nat → BitVec 32 → BitVec 32 → Memory386 → Call Memory386
  | 0, _, _, _ => .error .diverges
  | passes + 1, ebx, ecx, m =>
    let eax := (ebx <<< PAGE_SHIFT) ||| PAGE_FLAGS
    let m := writeWord m (edi + 4 * ebx) eax
    let ebx := ebx + 1
    let ecx := ecx + 1
    if ecx < NR_PAGES then mapLowLoop edi passes ebx ecx m else .ok m

section Setup
variable (L : PageLabels)

def setupPaging (m : Memory386) : Call Memory386 := do
  let m := repStosl 0 NR_ENTRIES L.pageDir m
  let m := repStosl 0 NR_ENTRIES L.pageTbl m
  let m ← mapLowLoop L.pageTbl NR_PAGES.toNat 0 0 m
  let m := writeWord m L.pageTbl (readWord m L.pageTbl &&& ~~~PAGE_PRESENT)
  let pde := L.pageTbl ||| PAGE_FLAGS ||| PAGE_PDE
  let m := writeWord m L.pageDir pde
  .ok (writeWord m (L.pageDir + KERNEL_PDN) pde)

/-- A store of a word that is on one page, with `CR0_WP`. -/
def storePaged (m : Memory386) (cr3 va v : BitVec 32) : Call Memory386 :=
  match translate386 m cr3 va with
  | none => .error .fault
  | some p => if p.writable then .ok (writeWord m p.phys v) else .error .fault

/-- The end of the identity mapping. -/
def clearIdentity (m : Memory386) : Call Memory386 := storePaged m L.pageDir L.pageDir 0

def kernelSpace (m : Memory386) : Call Memory386 := do
  let m ← setupPaging L m
  clearIdentity L m

end Setup

/-! ## The tables -/

theorem frame_of_aligned {x : BitVec 32} (h : x.toNat % 4096 = 0) : frame x = x := (aligned_iff x).mpr h

theorem entryAddr_succ (base : BitVec 32) (i : Nat) : entryAddr base i + 4 = entryAddr base (i + 1) := by
  rw [entryAddr, entryAddr, BitVec.add_assoc, Nat.mul_succ, BitVec.ofNat_add]
  rfl

theorem entryAddr_zero (base : BitVec 32) : entryAddr base 0 = base := by
  rw [entryAddr, Nat.mul_zero, BitVec.add_zero]

/-- What holds after each of the stores of `rep stosl` holds in the end. -/
theorem repStosl_run {base v : BitVec 32} {P : Nat → Memory386 → Prop} {m : Memory386} (hstart : P 0 m)
    (hstep : ∀ i m, i < 1024 → P i m → P (i + 1) (writeWord m (entryAddr base i) v)) :
    P 1024 (repStosl v NR_ENTRIES base m) := by
  have hall : ∀ n i (m : Memory386), i + n = 1024 → P i m → P 1024 (repStosl v n (entryAddr base i) m) := by
    intro n
    induction n with
    | zero =>
      intro i m hsum hm
      have hi : i = 1024 := hsum
      rwa [← hi]
    | succ n ih =>
      intro i m hsum hm
      rw [repStosl, entryAddr_succ]
      exact ih (i + 1) _ (by omega) (hstep i m (by omega) hm)
  have hfirst := hall 1024 0 m rfl hstart
  rwa [entryAddr_zero] at hfirst

theorem repStosl_tabled {base : BitVec 32} (hbase : base.toNat % 4096 = 0) (v : BitVec 32) (m : Memory386) :
    Tabled (repStosl v NR_ENTRIES base m) base fun _ => v := by
  refine repStosl_run (P := fun i m => ∀ k < i, readWord m (entryAddr base k) = v)
    (fun k hk => absurd hk (Nat.not_lt_zero k)) fun i m hi hm k hk => ?_
  by_cases hsame : k = i
  · rw [hsame, readWord_writeWord]
  · rw [readWord_writeWord_apart m v (entryAddr_apart hbase hbase (by omega) hi fun _ => hsame)
      (entryAddr_apart hbase hbase hi (by omega) fun _ => Ne.symm hsame)]
    exact hm k (by omega)

/-- Other pages are left alone. -/
theorem repStosl_apart {base other : BitVec 32} (hbase : base.toNat % 4096 = 0)
    (hother : other.toNat % 4096 = 0) (hne : other ≠ base) (v : BitVec 32) {f : Nat → BitVec 32}
    {m : Memory386} (h : Tabled m base f) : Tabled (repStosl v NR_ENTRIES other m) base f :=
  repStosl_run (P := fun _ m => Tabled m base f) h fun _ _ hi hm =>
    hm.write_apart hbase hother hne hi v

/-- The entry that `_map_low_loop` makes. -/
def lowEntry (i : Nat) : BitVec 32 := (BitVec.ofNat 32 i <<< PAGE_SHIFT) ||| PAGE_FLAGS

theorem mapLowLoop_run (base : BitVec 32) {P : Nat → Memory386 → Prop} {m : Memory386} (hstart : P 0 m)
    (hstep : ∀ i m, i < 512 → P i m → P (i + 1) (writeWord m (entryAddr base i) (lowEntry i))) :
    ∃ m', mapLowLoop base NR_PAGES.toNat 0 0 m = .ok m' ∧ P 512 m' := by
  have hall : ∀ n i (m : Memory386), i + (n + 1) = 512 → P i m →
      ∃ m', mapLowLoop base (n + 1) (BitVec.ofNat 32 i) (BitVec.ofNat 32 i) m = .ok m' ∧ P 512 m' := by
    intro n
    induction n with
    | zero =>
      intro i m hsum hm
      have hi : i = 511 := by omega
      subst hi
      refine ⟨_, ?_, hstep 511 m (by decide) hm⟩
      rw [mapLowLoop, if_neg (by decide)]
      rfl
    | succ n ih =>
      intro i m hsum hm
      have hnext : BitVec.ofNat 32 i + 1 = BitVec.ofNat 32 (i + 1) := by
        rw [BitVec.ofNat_add]
        rfl
      have hmore : BitVec.ofNat 32 (i + 1) < NR_PAGES := by
        rw [NR_PAGES]
        bv_omega
      have haddr : base + 4 * BitVec.ofNat 32 i = entryAddr base i := by
        rw [entryAddr]
        bv_omega
      obtain ⟨m', hm', hP⟩ := ih (i + 1) _ (by omega) (hstep i m (by omega) hm)
      refine ⟨m', ?_, hP⟩
      rw [mapLowLoop, hnext, if_pos hmore, haddr]
      exact hm'
  exact hall 511 0 m rfl hstart

/-- What `setup_paging` leaves in the table, -/
def kernelTable (i : Nat) : BitVec 32 :=
  if i = 0 then lowEntry 0 &&& ~~~PAGE_PRESENT else if i < 512 then lowEntry i else 0

def kernelPde (L : PageLabels) : BitVec 32 := L.pageTbl ||| PAGE_FLAGS ||| PAGE_PDE

/-- and what is in the directory in the end. -/
def kernelDirectory (L : PageLabels) (i : Nat) : BitVec 32 := if i = 768 then kernelPde L else 0

section Tables
variable (L : PageLabels) (m : Memory386)

theorem setupPaging_tables : ∃ m', setupPaging L m = .ok m' ∧ Tabled m' L.pageTbl kernelTable ∧
    Tabled m' L.pageDir (Function.update (kernelDirectory L) 0 (kernelPde L)) := by
  have hdir : Tabled (repStosl 0 NR_ENTRIES L.pageTbl (repStosl 0 NR_ENTRIES L.pageDir m)) L.pageDir
      fun _ => 0 :=
    repStosl_apart L.dir_aligned L.tbl_aligned L.apart.symm 0 (repStosl_tabled L.dir_aligned 0 m)
  have htbl : Tabled (repStosl 0 NR_ENTRIES L.pageTbl (repStosl 0 NR_ENTRIES L.pageDir m)) L.pageTbl
      fun _ => 0 := repStosl_tabled L.tbl_aligned 0 _
  obtain ⟨m', hloop, hdir', htbl'⟩ := mapLowLoop_run L.pageTbl
    (P := fun i m => Tabled m L.pageDir (fun _ => 0) ∧
      Tabled m L.pageTbl fun k => if k < i then lowEntry k else 0)
    ⟨hdir, htbl.congr fun k _ => (if_neg (Nat.not_lt_zero k)).symm⟩ fun i m hi hm => by
      refine ⟨hm.1.write_apart L.dir_aligned L.tbl_aligned L.apart.symm (by omega) _, ?_⟩
      refine (hm.2.write L.tbl_aligned (by omega) _).congr fun k _ => ?_
      by_cases hsame : k = i
      · rw [hsame, Function.update_self, if_pos (Nat.lt_succ_self i)]
      · rw [Function.update_of_ne hsame]
        exact if_congr (by omega) rfl rfl
  have hzero : readWord m' L.pageTbl = lowEntry 0 := by
    have hat := htbl' 0 (by decide)
    rwa [entryAddr_zero] at hat
  have hnull := htbl'.write L.tbl_aligned (j := 0) (by decide) (lowEntry 0 &&& ~~~PAGE_PRESENT)
  have hhigh : L.pageDir + KERNEL_PDN = entryAddr L.pageDir 768 := rfl
  rw [entryAddr_zero] at hnull
  refine ⟨_, by rw [setupPaging, hloop, ok_bind, hzero], ?_, ?_⟩
  · rw [hhigh]
    have hboth := (hnull.write_apart (j := 0) L.tbl_aligned L.dir_aligned L.apart (by decide)
      (kernelPde L)).write_apart (j := 768) L.tbl_aligned L.dir_aligned L.apart (by decide) (kernelPde L)
    rw [entryAddr_zero] at hboth
    refine hboth.congr fun k _ => ?_
    by_cases hk : k = 0
    · rw [hk, Function.update_self, kernelTable, if_pos rfl]
    · rw [Function.update_of_ne hk, kernelTable, if_neg hk]
  · rw [hhigh]
    have hkept := hdir'.write_apart (j := 0) L.dir_aligned L.tbl_aligned L.apart.symm (by decide)
      (lowEntry 0 &&& ~~~PAGE_PRESENT)
    have hboth := (hkept.write (j := 0) L.dir_aligned (by decide) (kernelPde L)).write (j := 768)
      L.dir_aligned (by decide) (kernelPde L)
    rw [entryAddr_zero, entryAddr_zero] at hboth
    refine hboth.congr fun k _ => ?_
    by_cases hk : k = 0
    · rw [hk, Function.update_of_ne (by decide), Function.update_self, Function.update_self]
    · rw [Function.update_of_ne hk]
      by_cases hhigh : k = 768
      · rw [hhigh, Function.update_self, kernelDirectory, if_pos rfl]
      · rw [Function.update_of_ne hhigh, Function.update_of_ne hk, kernelDirectory, if_neg hhigh]

end Tables

/-! ## The address space -/

theorem or_flags_bit {x flags : BitVec 32} (h : x.toNat % 4096 = 0) {k : Nat} (hk : k < 12) :
    (x ||| flags).getLsbD k = flags.getLsbD k := by
  have hmask : ∀ k < 12, PAGE_MASK.getLsbD k = false := by decide
  rw [BitVec.getLsbD_or, ← (aligned_iff x).mpr h, BitVec.getLsbD_and, hmask k hk, Bool.and_false,
    Bool.false_or]

/-- Two megabytes of memory as they are seen from `base` on, without their first page. -/
def lowWindow (base va : BitVec 32) : Option Page386 :=
  if base.toNat + 4096 ≤ va.toNat ∧ va.toNat < base.toNat + 0x200000 then some ⟨va - base, true, true⟩
  else none

section Spaces
variable (L : PageLabels) {m : Memory386} {f : Nat → BitVec 32}

theorem frame_kernelPde : frame (kernelPde L) = L.pageTbl := by
  rw [kernelPde, BitVec.or_assoc]
  exact or_flags_page L.tbl_aligned (by decide)

theorem kernelPde_present : presentEntry (kernelPde L) = true := by
  rw [presentEntry, kernelPde, BitVec.or_assoc, or_flags_bit L.tbl_aligned (by decide)]
  rfl

/-- A page of the table: the processor finds the page itself behind its number. -/
theorem pageOf_lowEntry {va : BitVec 32} {i : Nat} (hi : i < 1024) :
    pageOf (kernelPde L) (lowEntry i) va =
      ⟨(BitVec.ofNat 32 i <<< PAGE_SHIFT) + (va &&& 0xFFF), true, true⟩ := by
  have haligned : (BitVec.ofNat 32 i <<< PAGE_SHIFT).toNat % 4096 = 0 := by
    rw [toNat_pageOffset hi]
    omega
  have hframe : frame (lowEntry i) = BitVec.ofNat 32 i <<< PAGE_SHIFT :=
    or_flags_page haligned (by decide)
  rw [pageOf, hframe, writableEntry, writableEntry, userEntry, userEntry, kernelPde, BitVec.or_assoc,
    lowEntry, or_flags_bit L.tbl_aligned (by decide), or_flags_bit haligned (by decide),
    or_flags_bit L.tbl_aligned (by decide), or_flags_bit haligned (by decide)]
  rfl

theorem kernelTable_present {i : Nat} : presentEntry (kernelTable i) = true ↔ i ≠ 0 ∧ i < 512 := by
  rw [kernelTable]
  split_ifs with hzero hlow
  · exact ⟨fun h => absurd h (by decide), fun h => absurd hzero h.1⟩
  · have haligned : (BitVec.ofNat 32 i <<< PAGE_SHIFT).toNat % 4096 = 0 := by
      rw [toNat_pageOffset (by omega)]
      omega
    rw [presentEntry, lowEntry, or_flags_bit haligned (by decide)]
    exact ⟨fun _ => ⟨hzero, hlow⟩, fun _ => rfl⟩
  · exact ⟨fun h => absurd h (by decide), fun h => absurd h.2 hlow⟩

/-- Where an entry of the directory names the table, its four megabytes are a window. -/
theorem translate_lowWindow (hdir : Tabled m L.pageDir f) (htbl : Tabled m L.pageTbl kernelTable)
    {base va : BitVec 32} (hbase : base.toNat % 0x400000 = 0)
    (hva : directoryIndex va = directoryIndex base) (hpde : f (directoryIndex va) = kernelPde L) :
    translate386 m L.pageDir va = lowWindow base va := by
  have hframe : frame L.pageDir = L.pageDir := frame_of_aligned L.dir_aligned
  have htable : frame (f (directoryIndex va)) = L.pageTbl := by rw [hpde, frame_kernelPde]
  have hbits := va.isLt
  rw [directoryIndex, directoryIndex] at hva
  rw [translate386_tabled (hframe.symm ▸ hdir) (htable.symm ▸ htbl), hpde, kernelPde_present L,
    if_neg (by decide), lowWindow]
  by_cases hin : base.toNat + 4096 ≤ va.toNat ∧ va.toNat < base.toNat + 0x200000
  · have hpage : tableIndex va ≠ 0 ∧ tableIndex va < 512 := by
      rw [tableIndex]
      omega
    rw [if_pos hin, kernelTable_present.mpr hpage, if_neg (by decide), kernelTable, if_neg hpage.1,
      if_pos hpage.2, pageOf_lowEntry L (by omega)]
    have hlow : (va &&& 0xFFF).toNat = va.toNat % 4096 := toNat_and_low va
    have hphys : (BitVec.ofNat 32 (tableIndex va) <<< PAGE_SHIFT) + (va &&& 0xFFF) = va - base := by
      apply BitVec.eq_of_toNat_eq
      rw [BitVec.toNat_add, toNat_pageOffset (by omega), hlow, BitVec.toNat_sub, tableIndex]
      omega
    rw [hphys]
  · have hpage : ¬ (tableIndex va ≠ 0 ∧ tableIndex va < 512) := by
      rw [tableIndex]
      omega
    rw [if_neg hin, if_pos (Bool.not_eq_true _ ▸ fun h => hpage (kernelTable_present.mp h))]

end Spaces

section Space
variable (L : PageLabels) {m : Memory386}

theorem lowWindow_none {base va : BitVec 32} (hbase : base.toNat % 0x400000 = 0)
    (hva : directoryIndex va ≠ directoryIndex base) : lowWindow base va = none := by
  rw [directoryIndex, directoryIndex] at hva
  rw [lowWindow, if_neg (by omega)]

/-- With the table in two places of the directory, -/
theorem setup_space (htbl : Tabled m L.pageTbl kernelTable)
    (hdir : Tabled m L.pageDir (Function.update (kernelDirectory L) 0 (kernelPde L))) (va : BitVec 32) :
    translate386 m L.pageDir va = (lowWindow 0 va).or (lowWindow KERNEL_VA va) := by
  by_cases hlow : directoryIndex va = 0
  · have hhigh : lowWindow KERNEL_VA va = none := lowWindow_none (by decide) (by rw [hlow]; decide)
    rw [hhigh, Option.or_none]
    exact translate_lowWindow L hdir htbl (by decide) (hlow.trans (by decide))
      (by rw [hlow, Function.update_self])
  have hnull : lowWindow 0 va = none := lowWindow_none (by decide) hlow
  rw [hnull, Option.none_or]
  by_cases hkernel : directoryIndex va = 768
  · exact translate_lowWindow L hdir htbl (by decide) (hkernel.trans (by decide))
      (by rw [Function.update_of_ne hlow, kernelDirectory, if_pos hkernel])
  · have hhigh : lowWindow KERNEL_VA va = none := lowWindow_none (by decide) hkernel
    have habsent : presentEntry (Function.update (kernelDirectory L) 0 (kernelPde L)
        (directoryIndex va)) = false := by
      rw [Function.update_of_ne hlow, kernelDirectory, if_neg hkernel]
      rfl
    rw [hhigh]
    exact translate386_absent ((frame_of_aligned L.dir_aligned).symm ▸ hdir) habsent

/-- and with the table in one. -/
theorem kernel_space (htbl : Tabled m L.pageTbl kernelTable)
    (hdir : Tabled m L.pageDir (kernelDirectory L)) (va : BitVec 32) :
    translate386 m L.pageDir va = lowWindow KERNEL_VA va := by
  by_cases hkernel : directoryIndex va = 768
  · exact translate_lowWindow L hdir htbl (by decide) (hkernel.trans (by decide))
      (by rw [kernelDirectory, if_pos hkernel])
  · have habsent : presentEntry (kernelDirectory L (directoryIndex va)) = false := by
      rw [kernelDirectory, if_neg hkernel]
      rfl
    rw [lowWindow_none (by decide) hkernel]
    exact translate386_absent ((frame_of_aligned L.dir_aligned).symm ▸ hdir) habsent

/-- The store that ends the identity mapping goes through that mapping. -/
theorem clearIdentity_tables (htbl : Tabled m L.pageTbl kernelTable)
    (hdir : Tabled m L.pageDir (Function.update (kernelDirectory L) 0 (kernelPde L))) :
    ∃ m', clearIdentity L m = .ok m' ∧ Tabled m' L.pageTbl kernelTable ∧
      Tabled m' L.pageDir (kernelDirectory L) := by
  have hself : translate386 m L.pageDir L.pageDir = some ⟨L.pageDir, true, true⟩ := by
    have hlow := L.dir_low
    have hin : (0 : BitVec 32).toNat + 4096 ≤ L.pageDir.toNat ∧
        L.pageDir.toNat < (0 : BitVec 32).toNat + 0x200000 := by
      rw [show (0 : BitVec 32).toNat = 0 from rfl]
      omega
    have hsub : L.pageDir - 0 = L.pageDir := BitVec.sub_zero L.pageDir
    rw [setup_space L htbl hdir, lowWindow, if_pos hin, hsub, Option.some_or]
  have htbl' := htbl.write_apart (j := 0) L.tbl_aligned L.dir_aligned L.apart (by decide) 0
  have hdir' := hdir.write (j := 0) L.dir_aligned (by decide) 0
  rw [entryAddr_zero] at htbl' hdir'
  refine ⟨writeWord m L.pageDir 0, by rw [clearIdentity, storePaged, hself]; rfl, htbl',
    hdir'.congr fun k _ => ?_⟩
  by_cases hk : k = 0
  · rw [hk, Function.update_self, kernelDirectory, if_neg (by decide)]
  · rw [Function.update_of_ne hk, Function.update_of_ne hk]

theorem kernelSpace_tables (m : Memory386) : ∃ m', kernelSpace L m = .ok m' ∧
    Tabled m' L.pageTbl kernelTable ∧ Tabled m' L.pageDir (kernelDirectory L) := by
  obtain ⟨m₁, hm₁, htbl, hdir⟩ := setupPaging_tables L m
  obtain ⟨m₂, hm₂, htbl', hdir'⟩ := clearIdentity_tables L htbl hdir
  exact ⟨m₂, by rw [kernelSpace, hm₁, ok_bind, hm₂], htbl', hdir'⟩

/-- `setup_paging` maps the low two megabytes twice, each time without the first page; after `ksetup` the
kernel's half is all that is mapped. -/
theorem address_space (m : Memory386) : ∃ m₁ m₂, setupPaging L m = .ok m₁ ∧
    (∀ va, translate386 m₁ L.pageDir va = (lowWindow 0 va).or (lowWindow KERNEL_VA va)) ∧
    clearIdentity L m₁ = .ok m₂ ∧ ∀ va, translate386 m₂ L.pageDir va = lowWindow KERNEL_VA va := by
  obtain ⟨m₁, hm₁, htbl, hdir⟩ := setupPaging_tables L m
  obtain ⟨m₂, hm₂, htbl', hdir'⟩ := clearIdentity_tables L htbl hdir
  exact ⟨m₁, m₂, hm₁, setup_space L htbl hdir, hm₂, kernel_space L htbl' hdir'⟩

end Space

-- the memory of the VGA
example : lowWindow KERNEL_VA 0xC00B8000 = some ⟨0x000B8000, true, true⟩ := by decide

/-! ## The walk of the kernel through its own tables -/

/-- `get_pgdir`, with `__page_dir` in `CR3`. -/
def getPgdir (L : PageLabels) : Ptr := kernelAddr L.pageDir

theorem kernelAddr_low {p : Ptr} (h : p.toNat < 0x40000000) : kernelAddr p = p + KERNEL_VA := by
  refine if_neg fun hle => ?_
  have hle : (-KERNEL_VA).toNat ≤ p.toNat := hle
  rw [show (-KERNEL_VA).toNat = 1073741824 from rfl] at hle
  omega

/-- Memory as the kernel sees it. Where nothing is mapped a read is a fault, and what it returns is of no
account. -/
def kernelView (m : Memory386) (cr3 : BitVec 32) (junk : Memory) : Memory := fun va =>
  match translate386 m cr3 va with
  | some p => m p.phys
  | none => junk va

theorem ptePresent_eq (pte : BitVec 32) : ptePresent pte = presentEntry pte := by
  rw [ptePresent, presentEntry, PAGE_PRESENT, Bool.eq_iff_iff, beq_iff_eq,
    show (1 : BitVec 32) = 1#32 from rfl, BitVec.and_one_eq_setWidth_ofBool_getLsbD]
  cases pte.getLsbD 0 with
  | false => decide
  | true => decide

section Walk
variable {m : Memory386} {cr3 : BitVec 32} {junk : Memory}

theorem kernelView_low (hspace : ∀ va, translate386 m cr3 va = lowWindow KERNEL_VA va) {p : BitVec 32}
    (hlow : 4096 ≤ p.toNat ∧ p.toNat < 0x200000) : kernelView m cr3 junk (p + KERNEL_VA) = m p := by
  have hsum : (p + KERNEL_VA).toNat = 3221225472 + p.toNat := by
    rw [BitVec.toNat_add, show KERNEL_VA.toNat = 3221225472 from rfl]
    omega
  have hin : KERNEL_VA.toNat + 4096 ≤ (p + KERNEL_VA).toNat ∧
      (p + KERNEL_VA).toNat < KERNEL_VA.toNat + 0x200000 := by
    rw [hsum, show KERNEL_VA.toNat = 3221225472 from rfl]
    omega
  rw [kernelView, hspace, lowWindow, if_pos hin]
  exact congrArg m (BitVec.add_sub_cancel p KERNEL_VA)

/-- An entry of a table is found at its kernel address. -/
theorem load32_kernelView (hspace : ∀ va, translate386 m cr3 va = lowWindow KERNEL_VA va) {base : BitVec 32}
    (haligned : base.toNat % 4096 = 0) (hlow : 4096 ≤ base.toNat ∧ base.toNat < 0x200000) {i : Nat}
    (hi : i < 1024) :
    load32 (kernelView m cr3 junk) (kernelAddr (entryAddr base i)) = readWord m (entryAddr base i) := by
  have hsum := toNat_entryAddr haligned hi
  have hbyte : ∀ j : BitVec 32, j.toNat ≤ 3 →
      kernelView m cr3 junk (entryAddr base i + KERNEL_VA + j) = m (entryAddr base i + j) := by
    intro j hj
    have hcomm : entryAddr base i + KERNEL_VA + j = entryAddr base i + j + KERNEL_VA := by
      rw [BitVec.add_assoc, BitVec.add_comm KERNEL_VA, ← BitVec.add_assoc]
    have hat : (entryAddr base i + j).toNat = base.toNat + 4 * i + j.toNat := by
      rw [BitVec.toNat_add, hsum]
      omega
    rw [hcomm]
    exact kernelView_low hspace (by omega)
  rw [kernelAddr_low (by omega), load32, readWord, hbyte 3 (by decide), hbyte 2 (by decide), hbyte 1 (by decide),
    kernelView_low hspace (by omega)]

end Walk

theorem toNat_pdn_eq (va : Ptr) : (pdn va).toNat = directoryIndex va := by
  have hlt := directoryIndex_lt va
  rw [toNat_pdn]
  exact Nat.mod_eq_of_lt hlt

theorem pteOffset_eq {pde base : Ptr} (h : frame pde = base) (va : Ptr) :
    pteOffset pde va = entryAddr base (tableIndex va) := by
  have hpage : pdePage pde = base := h
  have hptn := toNat_ptn va
  have hlt := tableIndex_lt va
  rw [pteOffset, hpage, entryAddr]
  rw [tableIndex] at hlt ⊢
  bv_omega

section Valid
variable (L : PageLabels)

/-- The directory is at a kernel address, which `KERNEL_ADDR` leaves as it is. -/
theorem kernelAddr_pdeOffset (va : Ptr) : kernelAddr (pdeOffset (getPgdir L) va) =
    kernelAddr (entryAddr L.pageDir (directoryIndex va)) := by
  have hlow := L.dir_low
  have hlt := directoryIndex_lt va
  have hentry := toNat_entryAddr L.dir_aligned hlt
  have hsum : pdeOffset (getPgdir L) va = entryAddr L.pageDir (directoryIndex va) + KERNEL_VA := by
    apply BitVec.eq_of_toNat_eq
    rw [pdeOffset, getPgdir, kernelAddr_low (by omega), BitVec.toNat_add, BitVec.toNat_add,
      BitVec.toNat_add, hentry, BitVec.toNat_mul, toNat_pdn_eq, show KERNEL_VA.toNat = 3221225472 from rfl,
      show (4 : BitVec 32).toNat = 4 from rfl]
    omega
  rw [kernelAddr_low (p := entryAddr _ _) (by omega), hsum]
  refine if_pos ?_
  change (-KERNEL_VA).toNat ≤ (entryAddr L.pageDir (directoryIndex va) + KERNEL_VA).toNat
  rw [BitVec.toNat_add, hentry, show (-KERNEL_VA).toNat = 1073741824 from rfl,
    show KERNEL_VA.toNat = 3221225472 from rfl]
  omega

/-- With the tables of the kernel in memory. -/
theorem virtAddrValid_tabled {m : Memory386} (htbl : Tabled m L.pageTbl kernelTable)
    (hdir : Tabled m L.pageDir (kernelDirectory L)) (junk : Memory) (va : Ptr) :
    virtAddrValid (kernelView m L.pageDir junk) (getPgdir L) va =
      (translate386 m L.pageDir va).isSome := by
  have hspace := kernel_space L htbl hdir
  rw [virtAddrValid, walkPageTable, kernelAddr_pdeOffset,
    load32_kernelView hspace L.dir_aligned L.dir_low (directoryIndex_lt va), hdir _ (directoryIndex_lt va)]
  by_cases hkernel : directoryIndex va = 768
  · have hentry : kernelDirectory L (directoryIndex va) = kernelPde L := if_pos hkernel
    have hpte := pteOffset_eq (frame_kernelPde L) va
    have hpresent : pdePresent (kernelPde L) = true := (ptePresent_eq _).trans (kernelPde_present L)
    simp only [hentry, hpresent, Bool.not_true, Bool.false_eq_true, if_false, hpte,
      load32_kernelView hspace L.tbl_aligned L.tbl_low (tableIndex_lt va), htbl _ (tableIndex_lt va)]
    rw [ptePresent_eq, Bool.eq_iff_iff, kernelTable_present, hspace, lowWindow, Option.isSome_ite,
      show KERNEL_VA.toNat = 3221225472 from rfl, tableIndex]
    rw [directoryIndex] at hkernel
    omega
  · have hentry : kernelDirectory L (directoryIndex va) = 0 := if_neg hkernel
    rw [hspace, lowWindow_none (by decide) hkernel, hentry]
    rfl

/-- In the address space of the kernel `virt_addr_valid` says of every address whether an access to it
goes through. -/
theorem virtAddrValid_exact (m : Memory386) : ∃ m', kernelSpace L m = .ok m' ∧ ∀ junk va,
    virtAddrValid (kernelView m' L.pageDir junk) (getPgdir L) va =
      (translate386 m' L.pageDir va).isSome := by
  obtain ⟨m', hm', htbl, hdir⟩ := kernelSpace_tables L m
  exact ⟨m', hm', virtAddrValid_tabled L htbl hdir⟩

end Valid

end Ohwes

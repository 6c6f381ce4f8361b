import Ohwes.Char.TerminalInit
import Ohwes.I386.Setup

/-! # The page tables that the terminals find

`switch_terminal` works on the tables that `ksetup` leaves. Read off memory, they are the paged memory that
the frame buffers are mapped in. -/

namespace Ohwes
open Library
set_option autoImplicit false

def PageLabels.table (L : PageLabels) : PageTable := ⟨L.pageTbl, (aligned_iff _).mpr L.tbl_aligned⟩

/-- The directory, the table and the bytes of memory. -/
def pagedOf (L : PageLabels) (m : Memory386) : PagedMemory where
  pgdir i := readWord m (entryAddr L.pageDir i)
  pgtbl i := readWord m (entryAddr L.pageTbl i)
  ram a := m (BitVec.ofNat 32 a)

section Paged
variable (L : PageLabels) {m : Memory386}

theorem pagedOf_pgdir (va : Ptr) :
    (pagedOf L m).pgdir (pdn va).toNat = readWord m (entryAddr L.pageDir (directoryIndex va)) := by
  rw [toNat_pdn_eq]
  rfl

theorem pagedOf_pgtbl (va : Ptr) :
    (pagedOf L m).pgtbl (ptn va).toNat = readWord m (entryAddr L.pageTbl (tableIndex va)) := by
  rw [toNat_ptn]
  rfl

/-- Where all entries of the directory lead to the table, the processor finds the same byte. -/
theorem translate_pagedOf (hlead : ∀ i < 1024, presentEntry (readWord m (entryAddr L.pageDir i)) = true →
    Library.frame (readWord m (entryAddr L.pageDir i)) = L.pageTbl) (va : Ptr) :
    (pagedOf L m).translate L.table va =
      (translate386 m L.pageDir va).map fun page => page.phys.toNat := by
  rw [PagedMemory.translate, translate386, frame_of_aligned L.dir_aligned, pagedOf_pgdir, pagedOf_pgtbl]
  have hlead := hlead (directoryIndex va) (directoryIndex_lt va)
  generalize readWord m (entryAddr L.pageDir (directoryIndex va)) = pde at hlead
  have hpresent : pdePresent pde = presentEntry pde := ptePresent_eq pde
  dsimp only
  rw [leadsToTable, hpresent, ptePresent_eq]
  cases hpde : presentEntry pde with
  | false => rfl
  | true =>
    have hpage : (pdePage pde == L.table.addr) = true := beq_iff_eq.mpr (hlead hpde)
    rw [hlead hpde, hpage, Bool.true_and, Bool.true_and]
    generalize readWord m (entryAddr L.pageTbl (tableIndex va)) = pte
    cases presentEntry pte with
    | false => rfl
    | true =>
      have hphys : (Library.frame pte + (va &&& 0xFFF)).toNat =
          (ptePage pte).toNat + (va &&& (PAGE_SIZE - 1)).toNat := by
        have hframe : (Library.frame pte).toNat = pte.toNat / 4096 * 4096 := toNat_and_mask pte
        have hsame : (ptePage pte).toNat = pte.toNat / 4096 * 4096 := toNat_and_mask pte
        have hlow : (va &&& 0xFFF).toNat = va.toNat % 4096 := toNat_and_low va
        have hlt := pte.isLt
        rw [BitVec.toNat_add, hframe, hsame, hlow, toNat_and_low]
        omega
      exact congrArg some hphys.symm

/-- The pages of the frame buffers are mapped onto themselves. -/
theorem slots_of_tables (htbl : Tabled m L.pageTbl kernelTable)
    (hdir : Tabled m L.pageDir (kernelDirectory L)) : Slots L.table (pagedOf L m) fun t => t where
  kernel := by
    have hpde : (pagedOf L m).pgdir 768 = kernelPde L := (hdir 768 (by decide)).trans (if_pos rfl)
    have hpage : pdePage (kernelPde L) = L.table.addr := frame_kernelPde L
    have hpresent : pdePresent (kernelPde L) = true := (ptePresent_eq _).trans (kernelPde_present L)
    rw [hpde, leadsToTable, hpresent, hpage, beq_self_eq_true, Bool.and_self]
  entries := by
    have hpage : ∀ t ≤ NR_TERMINAL, ∀ i < FB_SIZE_PAGES,
        ptePage (kernelTable (160 + t * FB_SIZE_PAGES + i)) =
          slotAddr t + BitVec.ofNat 32 i <<< PAGE_SHIFT := by decide +kernel
    intro t ht i hi
    have hlow : 160 + t * FB_SIZE_PAGES + i < 512 := by
      rw [FB_SIZE_PAGES] at hi ⊢
      rw [NR_TERMINAL] at ht
      omega
    have hpte : (pagedOf L m).pgtbl (160 + t * FB_SIZE_PAGES + i) =
        kernelTable (160 + t * FB_SIZE_PAGES + i) := htbl _ (by omega)
    rw [hpte]
    exact ⟨(ptePresent_eq _).trans (kernelTable_present.mpr ⟨by omega, hlow⟩), hpage t ht i hi⟩

end Paged

/-- **From the boot code to the terminals.** From any contents of memory, the tables that `ksetup` leaves
are the paged memory that the terminals start in, and the processor finds every byte where that has it. -/
theorem terminals_find_tables (L : PageLabels) (m : Memory386) : ∃ m', kernelSpace L m = .ok m' ∧
    (∀ va, (pagedOf L m').translate L.table va =
      (translate386 m' L.pageDir va).map fun page => page.phys.toNat) ∧
    ∀ w, w.paged = pagedOf L m' → w.currterm = DEFAULT_VT → (∀ t, w.initialized t = false) →
      Booted L.table w := by
  obtain ⟨m', hm', htbl, hdir⟩ := kernelSpace_tables L m
  refine ⟨m', hm', translate_pagedOf L fun i hi hpresent => ?_, fun w hpaged hshown hearly => ?_⟩
  · rw [hdir i hi, kernelDirectory] at hpresent ⊢
    split at hpresent
    · next hkernel =>
      rw [if_pos hkernel]
      exact frame_kernelPde L
    · exact absurd hpresent (by decide)
  · refine ⟨hshown, fun t _ _ hinit => ?_, ?_⟩
    · rw [hearly t] at hinit
      exact Bool.noConfusion hinit
    · rw [hpaged]
      exact slots_of_tables L htbl hdir

/-- The terminals on the tables that are made in a memory of ones. -/
theorem terminals_find_tables_ones : ∃ m', kernelSpace default (fun _ => 0xFF) = .ok m' ∧
    Booted (default : PageLabels).table { bootWorld with paged := pagedOf default m' } := by
  obtain ⟨m', hm', -, hbooted⟩ := terminals_find_tables default fun _ => 0xFF
  exact ⟨m', hm', hbooted _ rfl rfl fun _ => rfl⟩

end Ohwes

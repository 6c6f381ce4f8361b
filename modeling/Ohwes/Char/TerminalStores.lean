import Ohwes.Char.TerminalSetup

/-! # The terminals in the memory of the processor

The directory and the table lie in the memory that they map, behind the kernel's base. What the terminals
draw and what `switch_terminal` stores through the tables, into the tables themselves too, is what happens
to the paged memory. -/

namespace Ohwes
open Library
set_option autoImplicit false

/-! ## Accesses of the kernel -/

section Accesses
variable (L : PageLabels)

def loadPaged (m : Memory386) (va : Ptr) : Call (BitVec 32) :=
  match translate386 m L.pageDir va with
  | none => .error .fault
  | some p => .ok (readWord m p.phys)

def loadBytePaged (m : Memory386) (va : Ptr) : Call Byte :=
  match translate386 m L.pageDir va with
  | none => .error .fault
  | some p => .ok (m p.phys)

def storeBytePaged (m : Memory386) (va : Ptr) (b : Byte) : Call Memory386 :=
  match translate386 m L.pageDir va with
  | none => .error .fault
  | some p => if p.writable then .ok (Function.update m p.phys b) else .error .fault

def loadBytesPaged (m : Memory386) : Nat → Ptr → Call (List Byte)
  | 0, _ => .ok []
  | n + 1, va => do
    let b ← loadBytePaged L m va
    let bs ← loadBytesPaged m n (va + 1)
    .ok (b :: bs)

def storeBytesPaged : List Byte → Ptr → Memory386 → Call Memory386
  | [], _, m => .ok m
  | b :: bs, va, m => do
    let m ← storeBytePaged L m va b
    storeBytesPaged bs (va + 1) m

def memmovePaged (dst src : Ptr) (n : Nat) (m : Memory386) : Call Memory386 := do
  let bs ← loadBytesPaged L m n src
  storeBytesPaged L bs dst m

def memcpyPaged : Nat → Ptr → Ptr → Memory386 → Call Memory386
  | 0, _, _, m => .ok m
  | n + 1, dst, src, m => do
    let b ← loadBytePaged L m src
    let m ← storeBytePaged L m dst b
    memcpyPaged n (dst + 1) (src + 1) m

/-- `*pte_offset(pgdir, va) = pte`. -/
def setPtePaged (va : Ptr) (pte : BitVec 32) (m : Memory386) : Call Memory386 := do
  let pde ← loadPaged L m (getPgdir L)
  storePaged m L.pageDir (pteOffset pde va) pte

def mapPagesPaged (va target : Ptr) : Nat → Memory386 → Call Memory386
  | 0, m => .ok m
  | i + 1, m => do
    let m ← mapPagesPaged va target i m
    let offset : Ptr := BitVec.ofNat 32 i <<< PAGE_SHIFT
    setPtePaged L (va + offset) (mkpte (physicalAddr (target + offset)) PAGE_RW) m

def swapScreensPaged (vga currFb nextFb : Ptr) (m : Memory386) : Call Memory386 := do
  let m ← storePaged m L.pageDir (getPgdir L) (mkpde L.pageTbl PAGE_RW)
  let m ← mapPagesPaged L currFb currFb FB_SIZE_PAGES m
  let m ← memcpyPaged L FB_SIZE currFb vga m
  let m ← memcpyPaged L FB_SIZE vga nextFb m
  let m ← mapPagesPaged L nextFb vga FB_SIZE_PAGES m
  storePaged m L.pageDir (getPgdir L) 0

def drawOpPaged (fb : Ptr) (m : Memory386) : FbOp → Call Memory386
  | .setChar pos ch => storeBytePaged L m (fb + BitVec.ofNat 32 (2 * pos.toNat)) ch
  | .setAttr pos attr => storeBytePaged L m (fb + BitVec.ofNat 32 (2 * pos.toNat + 1)) attr
  | .move dst src n =>
    memmovePaged L (fb + BitVec.ofNat 32 (2 * dst)) (fb + BitVec.ofNat 32 (2 * src)) (2 * n) m

end Accesses

/-! ## Pages that are apart -/

theorem toNat_frame (x : BitVec 32) : (frame x).toNat = x.toNat / 4096 * 4096 := toNat_and_mask x

theorem frame_eq {base x : BitVec 32} (h : base.toNat % 4096 = 0)
    (hx : base.toNat ≤ x.toNat ∧ x.toNat < base.toNat + 4096) : frame x = base := by
  apply BitVec.eq_of_toNat_eq
  rw [toNat_frame]
  omega

section Apart
variable {m : Memory386} {base a : BitVec 32} {j : Nat}

/-- A store into a table leaves other pages alone, -/
theorem writeWord_other (hbase : base.toNat % 4096 = 0) (hj : j < 1024) (v : BitVec 32)
    (ha : frame a ≠ base) : writeWord m (entryAddr base j) v a = m a := by
  refine writeWord_apart m v (Nat.le_of_not_lt fun hin => ha (frame_eq hbase ?_))
  have hentry := toNat_entryAddr hbase hj
  have hlt := base.isLt
  have hlt' := a.isLt
  rw [BitVec.toNat_sub, hentry] at hin
  omega

/-- and a store into another page leaves the table alone. -/
theorem tabled_update {f : Nat → BitVec 32} (h : Tabled m base f) (hbase : base.toNat % 4096 = 0)
    (ha : frame a ≠ base) (b : Byte) : Tabled (Function.update m a b) base f := by
  intro i hi
  have hentry := toNat_entryAddr hbase hi
  have hbyte : ∀ k : BitVec 32, k.toNat ≤ 3 →
      Function.update m a b (entryAddr base i + k) = m (entryAddr base i + k) := by
    intro k hk
    have hpage : frame (entryAddr base i + k) = base := by
      refine frame_eq hbase ?_
      have hlt := base.isLt
      rw [BitVec.toNat_add, hentry]
      omega
    have hne : entryAddr base i + k ≠ a := fun he => ha (by rw [← he, hpage])
    exact Function.update_of_ne hne b m
  have hfirst : Function.update m a b (entryAddr base i) = m (entryAddr base i) := by
    have hzero := hbyte 0#32 (by decide)
    rwa [BitVec.add_zero] at hzero
  rw [← h i hi, readWord, readWord, hbyte 3 (by decide), hbyte 2 (by decide), hbyte 1 (by decide), hfirst]

end Apart

/-! ## The paged memory in memory -/

/-- The kernel is loaded behind its base, and so are its tables. -/
structure HighLabels extends PageLabels where
  dir_high : 0x100000 ≤ pageDir.toNat
  tbl_high : 0x100000 ≤ pageTbl.toNat

instance : Inhabited HighLabels := ⟨⟨default, by decide, by decide⟩⟩

/-- Accesses that this entry allows, stores among them, go to the page at `base`. -/
structure EntryTo (entry base : BitVec 32) : Prop where
  present : presentEntry entry = true
  writable : writableEntry entry = true
  page : frame entry = base

/-- The directory and the table are in memory, which holds the bytes of the other pages. The first
megabyte of what they map has no page of the kernel, and their own pages are mapped onto themselves. -/
structure Embeds (L : HighLabels) (m : Memory386) (p : PagedMemory) : Prop where
  dir : Tabled m L.pageDir p.pgdir
  tbl : Tabled m L.pageTbl p.pgtbl
  ram : ∀ a : Ptr, frame a ≠ L.pageDir → frame a ≠ L.pageTbl → m a = p.ram a.toNat
  leads : ∀ i < 1024, presentEntry (p.pgdir i) = true → EntryTo (p.pgdir i) L.pageTbl
  kernel : presentEntry (p.pgdir 768) = true
  stores : ∀ i < 1024, presentEntry (p.pgtbl i) = true → writableEntry (p.pgtbl i) = true
  low : ∀ i < 256, presentEntry (p.pgtbl i) = true → (frame (p.pgtbl i)).toNat < 0x100000
  dirPage : EntryTo (p.pgtbl (L.pageDir.toNat / 4096)) L.pageDir
  tblPage : EntryTo (p.pgtbl (L.pageTbl.toNat / 4096)) L.pageTbl

section Steps
variable {L : HighLabels} {m : Memory386} {p q : PagedMemory} {va : Ptr}

variable (va) in
theorem Embeds.translate (h : Embeds L m p) {base : Ptr}
    (hpde : presentEntry (p.pgdir (directoryIndex va)) = true) (hpte : EntryTo (p.pgtbl (tableIndex va)) base) :
    ∃ user, translate386 m L.pageDir va = some ⟨base + (va &&& 0xFFF), true, user⟩ := by
  have hlead := h.leads _ (directoryIndex_lt va) hpde
  have hdir : Tabled m (frame L.pageDir) p.pgdir := (frame_of_aligned L.dir_aligned).symm ▸ h.dir
  have htbl : Tabled m (frame (p.pgdir (directoryIndex va))) p.pgtbl := hlead.page.symm ▸ h.tbl
  rw [translate386_tabled hdir htbl, hpde, if_neg Bool.true_eq_false.mp, hpte.present,
    if_neg Bool.true_eq_false.mp, pageOf, hlead.writable, hpte.writable, hpte.page]
  exact ⟨_, rfl⟩

/-- In the first megabyte of what the table maps, the processor finds the same byte. -/
theorem Embeds.translate_low (h : Embeds L m p) {a : Nat} (hlow : tableIndex va < 256)
    (hva : p.translate L.table va = some a) : ∃ phys user,
      translate386 m L.pageDir va = some ⟨phys, true, user⟩ ∧ phys.toNat = a ∧
      frame phys ≠ L.pageDir ∧ frame phys ≠ L.pageTbl := by
  have htable : (ptn va).toNat = tableIndex va := toNat_ptn va
  rw [PagedMemory.translate, toNat_pdn_eq, htable] at hva
  split at hva
  · next hboth =>
    have hpresent : pdePresent (p.pgdir (directoryIndex va)) =
        presentEntry (p.pgdir (directoryIndex va)) := ptePresent_eq _
    rw [leadsToTable, hpresent, ptePresent_eq, Bool.and_eq_true, Bool.and_eq_true] at hboth
    have hframe := h.low _ hlow hboth.2
    have hpage : (frame (p.pgtbl (tableIndex va))).toNat % 4096 = 0 := by
      rw [toNat_frame]
      omega
    obtain ⟨user, hat⟩ := h.translate va hboth.1.1
      ⟨hboth.2, h.stores _ (tableIndex_lt va) hboth.2, rfl⟩
    have hsum : (frame (p.pgtbl (tableIndex va)) + (va &&& 0xFFF)).toNat =
        (frame (p.pgtbl (tableIndex va))).toNat + va.toNat % 4096 := by
      have hrest : (va &&& 0xFFF).toNat = va.toNat % 4096 := toNat_and_low va
      rw [BitVec.toNat_add, hrest]
      omega
    have hdir := L.dir_high
    have htbl := L.tbl_high
    refine ⟨_, user, hat, ?_, fun he => ?_, fun he => ?_⟩
    · rw [hsum, ← toNat_and_low va]
      exact Option.some.inj hva
    · have hnat := congrArg BitVec.toNat he
      rw [toNat_frame, hsum] at hnat
      omega
    · have hnat := congrArg BitVec.toNat he
      rw [toNat_frame, hsum] at hnat
      omega
  · cases hva

theorem Embeds.loadByte (h : Embeds L m p) (hlow : tableIndex va < 256) {b : Byte}
    (hload : p.load L.table va = .ok b) : loadBytePaged L.toPageLabels m va = .ok b := by
  rw [PagedMemory.load] at hload
  cases hva : p.translate L.table va with
  | none =>
    rw [hva] at hload
    cases hload
  | some a =>
    obtain ⟨phys, user, hat, hphys, hdir, htbl⟩ := h.translate_low hlow hva
    rw [hva] at hload
    rw [loadBytePaged, hat, ← hload]
    exact congrArg _ ((h.ram phys hdir htbl).trans (congrArg p.ram hphys))

theorem Embeds.storeByte (h : Embeds L m p) (hlow : tableIndex va < 256) {b : Byte}
    (hstore : p.store L.table va b = .ok q) :
    ∃ m', storeBytePaged L.toPageLabels m va b = .ok m' ∧ Embeds L m' q := by
  rw [PagedMemory.store] at hstore
  cases hva : p.translate L.table va with
  | none =>
    rw [hva] at hstore
    cases hstore
  | some a =>
    obtain ⟨phys, user, hat, hphys, hdir, htbl⟩ := h.translate_low hlow hva
    rw [hva] at hstore
    cases hstore
    refine ⟨Function.update m phys b, by rw [storeBytePaged, hat]; rfl, ?_⟩
    refine { h with
      dir := tabled_update h.dir L.dir_aligned hdir b
      tbl := tabled_update h.tbl L.tbl_aligned htbl b
      ram := fun x hxdir hxtbl => ?_ }
    show Function.update m phys b x = Function.update p.ram a b x.toNat
    by_cases hx : x = phys
    · rw [hx, hphys, Function.update_self, Function.update_self]
    · have hne : x.toNat ≠ a := fun he => hx (BitVec.eq_of_toNat_eq (he.trans hphys.symm))
      rw [Function.update_of_ne hx, Function.update_of_ne hne, h.ram x hxdir hxtbl]

/-- An area in the first megabyte of what the table maps. -/
def LowArea (va : Ptr) (n : Nat) : Prop := va.toNat % 0x400000 + n ≤ 0x100000

theorem LowArea.head {n : Nat} (h : LowArea va (n + 1)) : tableIndex va < 256 := by
  rw [LowArea] at h
  rw [tableIndex]
  omega

theorem LowArea.part {n i k : Nat} (h : LowArea va n) (hin : i + k ≤ n) :
    LowArea (va + BitVec.ofNat 32 i) k := by
  rw [LowArea] at h ⊢
  rw [BitVec.toNat_add, BitVec.toNat_ofNat]
  omega

theorem LowArea.tail {n : Nat} (h : LowArea va (n + 1)) : LowArea (va + 1) n :=
  h.part (i := 1) (by omega)

theorem Embeds.loadBytes {n : Nat} {bs : List Byte} (h : Embeds L m p) (hva : LowArea va n)
    (hload : p.loadBytes L.table n va = .ok bs) : loadBytesPaged L.toPageLabels m n va = .ok bs := by
  induction n generalizing va bs with
  | zero => exact hload
  | succ n ih =>
    obtain ⟨b, hb, hload⟩ := bind_ok.mp hload
    obtain ⟨rest, hrest, hload⟩ := bind_ok.mp hload
    rw [loadBytesPaged, h.loadByte hva.head hb, ok_bind, ih hva.tail hrest, ok_bind, ← hload]

theorem Embeds.storeBytes {bs : List Byte} (h : Embeds L m p) (hva : LowArea va bs.length)
    (hstore : PagedMemory.storeBytes L.table bs va p = .ok q) :
    ∃ m', storeBytesPaged L.toPageLabels bs va m = .ok m' ∧ Embeds L m' q := by
  induction bs generalizing va m p with
  | nil =>
    cases hstore
    exact ⟨m, rfl, h⟩
  | cons b bs ih =>
    obtain ⟨p₁, hp₁, hrest⟩ := bind_ok.mp hstore
    obtain ⟨m₁, hm₁, h₁⟩ := h.storeByte hva.head hp₁
    obtain ⟨m', hm', h'⟩ := ih h₁ hva.tail hrest
    exact ⟨m', by rw [storeBytesPaged, hm₁, ok_bind, hm'], h'⟩

theorem loadBytes_length {tbl : PageTable} {n : Nat} {bs : List Byte}
    (h : p.loadBytes tbl n va = .ok bs) : bs.length = n := by
  induction n generalizing va bs with
  | zero =>
    cases h
    rfl
  | succ n ih =>
    obtain ⟨b, -, h⟩ := bind_ok.mp h
    obtain ⟨rest, hrest, h⟩ := bind_ok.mp h
    cases h
    rw [List.length_cons, ih hrest]

theorem Embeds.memmove {n : Nat} {dst src : Ptr} (h : Embeds L m p) (hdst : LowArea dst n)
    (hsrc : LowArea src n) (hmove : p.memmove L.table dst src n = .ok q) :
    ∃ m', memmovePaged L.toPageLabels dst src n m = .ok m' ∧ Embeds L m' q := by
  obtain ⟨bs, hbs, hstore⟩ := bind_ok.mp hmove
  obtain ⟨m', hm', h'⟩ := h.storeBytes ((loadBytes_length hbs).symm ▸ hdst) hstore
  exact ⟨m', by rw [memmovePaged, h.loadBytes hsrc hbs, ok_bind, hm'], h'⟩

theorem Embeds.memcpy {n : Nat} {dst src : Ptr} (h : Embeds L m p)
    (hdst : LowArea dst n) (hsrc : LowArea src n)
    (hcopy : PagedMemory.memcpy L.table n dst src p = .ok q) :
    ∃ m', memcpyPaged L.toPageLabels n dst src m = .ok m' ∧ Embeds L m' q := by
  induction n generalizing dst src m p with
  | zero =>
    cases hcopy
    exact ⟨m, rfl, h⟩
  | succ n ih =>
    obtain ⟨b, hload, hrest⟩ := bind_ok.mp hcopy
    obtain ⟨p₁, hstore, hrest⟩ := bind_ok.mp hrest
    obtain ⟨m₁, hm₁, h₁⟩ := h.storeByte hdst.head hstore
    obtain ⟨m', hm', h'⟩ := ih h₁ hdst.tail hsrc.tail hrest
    exact ⟨m', by rw [memcpyPaged, h.loadByte hsrc.head hload, ok_bind, hm₁, ok_bind, hm'], h'⟩

theorem and_low_zero {x : Ptr} (h : x.toNat % 4096 = 0) : x &&& 0xFFF = 0#32 := by
  apply BitVec.eq_of_toNat_eq
  have hlow : (x &&& 0xFFF).toNat = x.toNat % 4096 := toNat_and_low x
  rw [hlow, h]
  rfl

theorem toNat_getPgdir (L : PageLabels) : (getPgdir L).toNat = L.pageDir.toNat + 3221225472 := by
  have hlow := L.dir_low
  rw [getPgdir, kernelAddr_low (by omega), BitVec.toNat_add, show KERNEL_VA.toNat = 3221225472 from rfl]
  omega

/-- The directory at its kernel address. -/
theorem Embeds.translate_pgdir (h : Embeds L m p) : ∃ user,
    translate386 m L.pageDir (getPgdir L.toPageLabels) = some ⟨L.pageDir, true, user⟩ := by
  have haddr := toNat_getPgdir L.toPageLabels
  have hlow := L.dir_low
  have haligned := L.dir_aligned
  have hdir : directoryIndex (getPgdir L.toPageLabels) = 768 := by
    rw [directoryIndex]
    omega
  have htbl : tableIndex (getPgdir L.toPageLabels) = L.pageDir.toNat / 4096 := by
    rw [tableIndex]
    omega
  obtain ⟨user, hat⟩ := h.translate (getPgdir L.toPageLabels) (hdir ▸ h.kernel) (htbl ▸ h.dirPage)
  rw [and_low_zero (by omega), BitVec.add_zero] at hat
  exact ⟨user, hat⟩

/-- An entry of the table at its own address, while the first entry of the directory leads there. -/
theorem Embeds.translate_pte (h : Embeds L m p) (hident : presentEntry (p.pgdir 0) = true) {i : Nat}
    (hi : i < 1024) : ∃ user,
      translate386 m L.pageDir (entryAddr L.pageTbl i) = some ⟨entryAddr L.pageTbl i, true, user⟩ := by
  have haddr := toNat_entryAddr L.tbl_aligned hi
  have hlow := L.tbl_low
  have haligned := L.tbl_aligned
  have hdir : directoryIndex (entryAddr L.pageTbl i) = 0 := by
    rw [directoryIndex]
    omega
  have htbl : tableIndex (entryAddr L.pageTbl i) = L.pageTbl.toNat / 4096 := by
    rw [tableIndex]
    omega
  obtain ⟨user, hat⟩ := h.translate (entryAddr L.pageTbl i) (hdir ▸ hident) (htbl ▸ h.tblPage)
  have hsum : L.pageTbl + (entryAddr L.pageTbl i &&& 0xFFF) = entryAddr L.pageTbl i := by
    apply BitVec.eq_of_toNat_eq
    have hrest : (entryAddr L.pageTbl i &&& 0xFFF).toNat = (entryAddr L.pageTbl i).toNat % 4096 :=
      toNat_and_low _
    rw [BitVec.toNat_add, hrest]
    omega
  rw [hsum] at hat
  exact ⟨user, hat⟩

/-- The first entry of the directory. -/
theorem Embeds.setIdent (h : Embeds L m p) {v : BitVec 32}
    (hv : presentEntry v = true → EntryTo v L.pageTbl) :
    ∃ m', storePaged m L.pageDir (getPgdir L.toPageLabels) v = .ok m' ∧
      Embeds L m' { p with pgdir := Function.update p.pgdir 0 v } := by
  obtain ⟨user, hat⟩ := h.translate_pgdir
  have hfirst := entryAddr_zero L.pageDir
  have hdir := h.dir.write (j := 0) L.dir_aligned (by decide) v
  have htbl := h.tbl.write_apart (j := 0) L.tbl_aligned L.dir_aligned L.apart (by decide) v
  rw [hfirst] at hdir htbl
  refine ⟨writeWord m L.pageDir v, by rw [storePaged, hat]; rfl, ?_⟩
  refine { h with
    dir := hdir
    tbl := htbl
    ram := fun x hxdir hxtbl => ?_
    leads := fun i hi hpresent => ?_
    kernel := h.kernel }
  · have hkept := writeWord_other (m := m) (j := 0) L.dir_aligned (by decide) v hxdir
    rw [hfirst] at hkept
    exact hkept.trans (h.ram x hxdir hxtbl)
  · change presentEntry (Function.update p.pgdir 0 v i) = true at hpresent
    change EntryTo (Function.update p.pgdir 0 v i) L.pageTbl
    by_cases hzero : i = 0
    · rw [hzero, Function.update_self] at hpresent ⊢
      exact hv hpresent
    · rw [Function.update_of_ne hzero] at hpresent ⊢
      exact h.leads i hi hpresent

/-- An entry of the first megabyte, for a page of the first megabyte. -/
theorem Embeds.setPte (h : Embeds L m p) (hva : tableIndex va < 256) {pte page : Ptr} (hpte : EntryTo pte page)
    (hpage : page.toNat < 0x100000) (hset : p.setPte L.table va pte = .ok q) :
    ∃ m', setPtePaged L.toPageLabels va pte m = .ok m' ∧ Embeds L m' q := by
  have htable : (ptn va).toNat = tableIndex va := toNat_ptn va
  rw [PagedMemory.setPte, htable] at hset
  split at hset
  · next hlead =>
    cases hset
    have hpresent : presentEntry (p.pgdir 0) = true := by
      have hsame : pdePresent (p.pgdir 0) = presentEntry (p.pgdir 0) := ptePresent_eq _
      rw [leadsToTable, hsame, Bool.and_eq_true] at hlead
      exact hlead.1
    obtain ⟨user, hdirAt⟩ := h.translate_pgdir
    have hfirst : readWord m L.pageDir = p.pgdir 0 := by
      have hread := h.dir 0 (by decide)
      rwa [entryAddr_zero] at hread
    have hoffset := pteOffset_eq (h.leads 0 (by decide) hpresent).page va
    obtain ⟨user', htblAt⟩ := h.translate_pte hpresent (tableIndex_lt va)
    refine ⟨writeWord m (entryAddr L.pageTbl (tableIndex va)) pte, ?_, ?_⟩
    · rw [setPtePaged, loadPaged, hdirAt]
      show storePaged m L.pageDir (pteOffset (readWord m L.pageDir) va) pte = _
      rw [hfirst, hoffset, storePaged, htblAt]
      rfl
    · have hdirHigh := L.dir_high
      have htblHigh := L.tbl_high
      have hother : ∀ {i}, i ≠ tableIndex va →
          Function.update p.pgtbl (tableIndex va) pte i = p.pgtbl i := fun hne =>
        Function.update_of_ne hne pte p.pgtbl
      have hkept : ∀ {i base}, i ≠ tableIndex va → EntryTo (p.pgtbl i) base →
          EntryTo (Function.update p.pgtbl (tableIndex va) pte i) base := by
        intro i base hne hentry
        rwa [hother hne]
      refine { h with
        dir := h.dir.write_apart L.dir_aligned L.tbl_aligned L.apart.symm (tableIndex_lt va) pte
        tbl := h.tbl.write L.tbl_aligned (tableIndex_lt va) pte
        ram := fun x hxdir hxtbl =>
          (writeWord_other L.tbl_aligned (tableIndex_lt va) pte hxtbl).trans (h.ram x hxdir hxtbl)
        stores := fun i hi => ?_
        low := fun i hi => ?_
        dirPage := ?_
        tblPage := ?_ }
      · change presentEntry (Function.update p.pgtbl (tableIndex va) pte i) = true →
          writableEntry (Function.update p.pgtbl (tableIndex va) pte i) = true
        by_cases hsame : i = tableIndex va
        · rw [hsame, Function.update_self]
          exact fun _ => hpte.writable
        · rw [hother hsame]
          exact h.stores i hi
      · change presentEntry (Function.update p.pgtbl (tableIndex va) pte i) = true →
          (frame (Function.update p.pgtbl (tableIndex va) pte i)).toNat < 0x100000
        by_cases hsame : i = tableIndex va
        · rw [hsame, Function.update_self, hpte.page]
          exact fun _ => hpage
        · rw [hother hsame]
          exact h.low i hi
      · exact hkept (by omega) h.dirPage
      · exact hkept (by omega) h.tblPage
  · cases hset

theorem entryTo_mkpte {page : Ptr} (h : page.toNat % 4096 = 0) : EntryTo (mkpte page PAGE_RW) page where
  present := (ptePresent_eq _).symm.trans (mkpte_present h)
  writable := by
    rw [writableEntry, mkpte, pageAlign_of_aligned h, or_flags_bit h (by decide)]
    rfl
  page := mkpte_page h

theorem entryTo_mkpde (L : HighLabels) : EntryTo (mkpde L.pageTbl PAGE_RW) L.pageTbl where
  present := by
    rw [presentEntry, mkpde, pageAlign_of_aligned L.tbl_aligned, or_flags_bit L.tbl_aligned (by decide)]
    rfl
  writable := by
    rw [writableEntry, mkpde, pageAlign_of_aligned L.tbl_aligned, or_flags_bit L.tbl_aligned (by decide)]
    rfl
  page := by
    rw [mkpde, pageAlign_of_aligned L.tbl_aligned]
    exact or_flags_page L.tbl_aligned (by decide)

theorem Embeds.mapPages {count : Nat} {target : Ptr} (h : Embeds L m p)
    (hva : ∀ i < count, tableIndex (va + BitVec.ofNat 32 i <<< PAGE_SHIFT) < 256)
    (hpage : ∀ i < count, (physicalAddr (target + BitVec.ofNat 32 i <<< PAGE_SHIFT)).toNat % 4096 = 0 ∧
      (physicalAddr (target + BitVec.ofNat 32 i <<< PAGE_SHIFT)).toNat < 0x100000)
    (hmap : p.mapPages L.table va target count = .ok q) :
    ∃ m', mapPagesPaged L.toPageLabels va target count m = .ok m' ∧ Embeds L m' q := by
  induction count generalizing q with
  | zero =>
    cases hmap
    exact ⟨m, rfl, h⟩
  | succ n ih =>
    obtain ⟨p₁, hp₁, hset⟩ := bind_ok.mp hmap
    obtain ⟨m₁, hm₁, h₁⟩ := ih (fun i hi => hva i (Nat.lt_succ_of_lt hi))
      (fun i hi => hpage i (Nat.lt_succ_of_lt hi)) hp₁
    have hlast := hpage n (Nat.lt_succ_self n)
    obtain ⟨m', hm', h'⟩ := h₁.setPte (hva n (Nat.lt_succ_self n)) (entryTo_mkpte hlast.1) hlast.2 hset
    exact ⟨m', by rw [mapPagesPaged, hm₁, ok_bind]; exact hm', h'⟩

end Steps

/-! ## Switches -/

section Switches
variable {L : HighLabels} {m : Memory386} {p q : PagedMemory} {curr next : Nat}

/-- What is mapped where in a switch stays in the first megabyte. -/
theorem fb_low {t i : Nat} (ht : t ≤ NR_TERMINAL) (hi : i < FB_SIZE_PAGES) :
    tableIndex (terminalFb t + BitVec.ofNat 32 i <<< PAGE_SHIFT) < 256 ∧
      (slotAddr t + BitVec.ofNat 32 i <<< PAGE_SHIFT).toNat % 4096 = 0 ∧
      (slotAddr t + BitVec.ofNat 32 i <<< PAGE_SHIFT).toNat < 0x100000 := by
  have hfb := toNat_terminalFb ht
  have haddr := toNat_slotAddr ht
  have hbase : slotBase t = 655360 + t * 8192 := rfl
  have ht7 : t ≤ 7 := ht
  rw [FB_SIZE_PAGES] at hi
  have hoff := toNat_pageOffset (show i < 1024 by omega)
  rw [tableIndex, BitVec.toNat_add, BitVec.toNat_add, hfb, haddr, hoff]
  omega

theorem fb_area {t : Nat} (ht : t ≤ NR_TERMINAL) : LowArea (terminalFb t) FB_SIZE := by
  have ht7 : t ≤ 7 := ht
  rw [LowArea, toNat_terminalFb ht, show FB_SIZE = 8192 from rfl]
  omega

theorem Embeds.swapScreens (h : Embeds L m p) (hc : curr ≤ NR_TERMINAL) (hn : next ≤ NR_TERMINAL)
    (hswap : swapScreens L.table 0xA0000 (terminalFb curr) (terminalFb next) p = .ok q) :
    ∃ m', swapScreensPaged L.toPageLabels 0xA0000 (terminalFb curr) (terminalFb next) m = .ok m' ∧
      Embeds L m' q := by
  have hvga : LowArea 0xA0000 FB_SIZE := show (0xA0000 : Ptr).toNat % 0x400000 + FB_SIZE ≤ 0x100000 by decide
  obtain ⟨p₁, hp₁, hswap⟩ := bind_ok.mp hswap
  obtain ⟨p₂, hp₂, hswap⟩ := bind_ok.mp hswap
  obtain ⟨p₃, hp₃, hswap⟩ := bind_ok.mp hswap
  obtain ⟨p₄, hp₄, hswap⟩ := bind_ok.mp hswap
  cases hswap
  -- the identity mapping
  obtain ⟨m₀, hm₀, h₀⟩ := h.setIdent fun _ => entryTo_mkpde L
  -- the old frame buffer
  obtain ⟨m₁, hm₁, h₁⟩ := h₀.mapPages (fun i hi => (fb_low hc hi).1)
    (fun i hi => by rw [physicalAddr_terminalFb hc hi]; exact (fb_low hc hi).2) hp₁
  obtain ⟨m₂, hm₂, h₂⟩ := h₁.memcpy (fb_area hc) hvga hp₂
  obtain ⟨m₃, hm₃, h₃⟩ := h₂.memcpy hvga (fb_area hn) hp₃
  -- the new one
  obtain ⟨m₄, hm₄, h₄⟩ := h₃.mapPages (fun i hi => (fb_low hn hi).1)
    (fun i hi => by rw [physicalAddr_vga hi]; exact (fb_low (Nat.zero_le _) hi).2) hp₄
  obtain ⟨m', hm', h'⟩ := h₄.setIdent (v := 0) fun hpresent => absurd hpresent (by decide)
  exact ⟨m', by rw [swapScreensPaged, hm₀, ok_bind, hm₁, ok_bind, hm₂, ok_bind, hm₃, ok_bind, hm₄,
    ok_bind, hm'], h'⟩

theorem Embeds.drawOp {t : Nat} {op : FbOp} (h : Embeds L m p) (ht : t ≤ NR_TERMINAL)
    (hin : op.Within (FB_SIZE / 2)) (hdraw : drawOp L.table (terminalFb t) p op = .ok q) :
    ∃ m', drawOpPaged L.toPageLabels (terminalFb t) m op = .ok m' ∧ Embeds L m' q := by
  have harea := fb_area ht
  have hsize : FB_SIZE = 2 * (FB_SIZE / 2) := by decide
  cases op with
  | setChar pos ch =>
    have hpos : pos.toNat < FB_SIZE / 2 := hin
    exact h.storeByte (harea.part (k := 0 + 1) (by omega)).head hdraw
  | setAttr pos attr =>
    have hpos : pos.toNat < FB_SIZE / 2 := hin
    exact h.storeByte (harea.part (k := 0 + 1) (by omega)).head hdraw
  | move dst src n =>
    have hmove : dst + n ≤ FB_SIZE / 2 ∧ src + n ≤ FB_SIZE / 2 := hin
    exact h.memmove (harea.part (by omega)) (harea.part (by omega)) hdraw

end Switches

/-! ## Runs -/

/-- Terminal `t` draws in its frame buffer, or another terminal is switched to. -/
inductive ScreenOp where
  | draw (t : Nat) (op : FbOp)
  | switchTo (next : Nat)

def ScreenOp.Fits : ScreenOp → Prop
  | .draw t op => t ≤ NR_TERMINAL ∧ op.Within (FB_SIZE / 2)
  | .switchTo next => 1 ≤ next ∧ next ≤ NR_TERMINAL

/-- With the number of the current terminal. -/
def screenStep (tbl : PageTable) (x : Nat × PagedMemory) : ScreenOp → Call (Nat × PagedMemory)
  | .draw t op => do
    let p ← drawOp tbl (terminalFb t) x.2 op
    .ok (x.1, p)
  | .switchTo next => do
    let p ← swapScreens tbl 0xA0000 (terminalFb x.1) (terminalFb next) x.2
    .ok (next, p)

def screenStepPaged (L : PageLabels) (x : Nat × Memory386) : ScreenOp → Call (Nat × Memory386)
  | .draw t op => do
    let m ← drawOpPaged L (terminalFb t) x.2 op
    .ok (x.1, m)
  | .switchTo next => do
    let m ← swapScreensPaged L 0xA0000 (terminalFb x.1) (terminalFb next) x.2
    .ok (next, m)

/-- The frame buffers are mapped, and a switch from `curr` can be made. -/
structure ScreensMapped (tbl : PageTable) (curr : Nat) (p : PagedMemory) : Prop where
  shown : 1 ≤ curr ∧ curr ≤ NR_TERMINAL
  slots : ∃ slot, Slots tbl p slot ∧ Function.update slot curr curr = (fun t => t) ∧
    ∀ t ≤ NR_TERMINAL, slot t ≤ NR_TERMINAL

theorem ScreensMapped.early {tbl : PageTable} {p : PagedMemory} (h : Slots tbl p fun t => t) :
    ScreensMapped tbl DEFAULT_VT p :=
  ⟨by decide, fun t => t, h, Function.update_eq_self DEFAULT_VT fun t => t, fun _ ht => ht⟩

section Runs
variable {L : HighLabels} {m : Memory386} {curr : Nat} {p : PagedMemory}

/-- One step, in memory and in the paged memory. -/
theorem Embeds.screenStep (h : Embeds L m p) (hmap : ScreensMapped L.table curr p) {op : ScreenOp}
    (hop : op.Fits) : ∃ m' curr' q, screenStepPaged L.toPageLabels (curr, m) op = .ok (curr', m') ∧
      Ohwes.screenStep L.table (curr, p) op = .ok (curr', q) ∧ Embeds L m' q ∧
      ScreensMapped L.table curr' q := by
  obtain ⟨slot, hslots, hslot, hle⟩ := hmap.slots
  cases op with
  | draw t op =>
    obtain ⟨ht, hin⟩ : t ≤ NR_TERMINAL ∧ op.Within (FB_SIZE / 2) := hop
    have hdraw := drawOp_of_mapsTo (hslots.mapsTo ht (hle t ht)) hin
    obtain ⟨m', hm', h'⟩ := h.drawOp ht hin hdraw
    exact ⟨m', curr, _, by rw [screenStepPaged, hm', ok_bind], by rw [Ohwes.screenStep, hdraw, ok_bind], h',
      hmap.shown, slot, Slots.with_memory (p := p) rfl rfl hslots, hslot, hle⟩
  | switchTo next =>
    obtain ⟨hn, hn7⟩ : 1 ≤ next ∧ next ≤ NR_TERMINAL := hop
    obtain ⟨q, hq, hslots', -⟩ := hslots.swap hslot hmap.shown.1 hmap.shown.2 hn hn7
    obtain ⟨m', hm', h'⟩ := h.swapScreens hmap.shown.2 hn7 hq
    exact ⟨m', next, q, by rw [screenStepPaged, hm', ok_bind], by rw [Ohwes.screenStep, hq, ok_bind], h',
      ⟨hn, hn7⟩, slotOf next, hslots', update_slotOf next, fun _ => slotOf_le⟩

theorem Embeds.run {ops : List ScreenOp} (h : Embeds L m p) (hmap : ScreensMapped L.table curr p)
    (hops : ∀ op ∈ ops, op.Fits) : ∃ m' curr' q,
      run (screenStepPaged L.toPageLabels) (curr, m) ops = .ok (curr', m') ∧
      run (Ohwes.screenStep L.table) (curr, p) ops = .ok (curr', q) ∧ Embeds L m' q ∧
      ScreensMapped L.table curr' q := by
  induction ops generalizing curr m p with
  | nil => exact ⟨m, curr, p, rfl, rfl, h, hmap⟩
  | cons op ops ih =>
    obtain ⟨m₁, curr₁, p₁, hm₁, hp₁, h₁, hmap₁⟩ := h.screenStep hmap (hops op (List.mem_cons_self ..))
    obtain ⟨m', curr', q, hm', hq, hlast⟩ := ih h₁ hmap₁ fun o ho => hops o (List.mem_cons_of_mem op ho)
    exact ⟨m', curr', q, (run_cons_ok _).mpr ⟨_, hm₁, hm'⟩, (run_cons_ok _).mpr ⟨_, hp₁, hq⟩, hlast⟩

end Runs

/-! ## From the boot code on -/

section Boot
variable (L : HighLabels)

theorem entryTo_kernelPde : EntryTo (kernelPde L.toPageLabels) L.pageTbl where
  present := kernelPde_present L.toPageLabels
  writable := by
    rw [writableEntry, kernelPde, BitVec.or_assoc, or_flags_bit L.tbl_aligned (by decide)]
    rfl
  page := frame_kernelPde L.toPageLabels

theorem entryTo_kernelTable (page : Ptr) (haligned : page.toNat % 4096 = 0)
    (hpage : 4096 ≤ page.toNat ∧ page.toNat < 0x200000) :
    EntryTo (kernelTable (page.toNat / 4096)) page := by
  have hnumber : BitVec.ofNat 32 (page.toNat / 4096) <<< PAGE_SHIFT = page := by
    apply BitVec.eq_of_toNat_eq
    rw [toNat_pageOffset (by omega)]
    omega
  have hentry : kernelTable (page.toNat / 4096) = page ||| PAGE_FLAGS := by
    rw [kernelTable, if_neg (by omega), if_pos (by omega), lowEntry, hnumber]
  rw [hentry]
  refine ⟨?_, ?_, or_flags_page haligned (by decide)⟩
  · rw [presentEntry, or_flags_bit haligned (by decide)]
    rfl
  · rw [writableEntry, or_flags_bit haligned (by decide)]
    rfl

theorem embeds_pagedOf {m : Memory386} (htbl : Tabled m L.pageTbl kernelTable)
    (hdir : Tabled m L.pageDir (kernelDirectory L.toPageLabels)) : Embeds L m (pagedOf L.toPageLabels m) := by
  have hpgdir : ∀ i < 1024, (pagedOf L.toPageLabels m).pgdir i = kernelDirectory L.toPageLabels i := hdir
  have hpgtbl : ∀ i < 1024, (pagedOf L.toPageLabels m).pgtbl i = kernelTable i := htbl
  have hentry : ∀ i < 1024, presentEntry (kernelTable i) = true →
      EntryTo (kernelTable i) (BitVec.ofNat 32 i <<< PAGE_SHIFT) := by
    intro i hi hpresent
    have hin := kernelTable_present.mp hpresent
    have hpage := toNat_pageOffset hi
    have hsame : (BitVec.ofNat 32 i <<< PAGE_SHIFT).toNat / 4096 = i := by omega
    have hat := entryTo_kernelTable (BitVec.ofNat 32 i <<< PAGE_SHIFT) (by omega) (by omega)
    rwa [hsame] at hat
  have hdirLow := L.dir_low
  have htblLow := L.tbl_low
  refine ⟨fun _ _ => rfl, fun _ _ => rfl, fun a _ _ => ?_, fun i hi => ?_, ?_, fun i hi => ?_,
    fun i hi => ?_, ?_, ?_⟩
  · show m a = m (BitVec.ofNat 32 a.toNat)
    rw [BitVec.ofNat_toNat, BitVec.setWidth_eq]
  · rw [hpgdir i hi, kernelDirectory]
    split
    · exact fun _ => entryTo_kernelPde L
    · exact fun hpresent => absurd hpresent (by decide)
  · rw [hpgdir 768 (by decide)]
    exact kernelPde_present L.toPageLabels
  · rw [hpgtbl i hi]
    exact fun hpresent => (hentry i hi hpresent).writable
  · rw [hpgtbl i (by omega)]
    intro hpresent
    rw [(hentry i (by omega) hpresent).page, toNat_pageOffset (by omega)]
    omega
  · rw [hpgtbl _ (by omega)]
    exact entryTo_kernelTable L.pageDir L.dir_aligned L.dir_low
  · rw [hpgtbl _ (by omega)]
    exact entryTo_kernelTable L.pageTbl L.tbl_aligned L.tbl_low

/-- **The terminals in memory.** From any contents of memory, after `ksetup`, no access of any run of
drawing and of switching is a fault: each goes to a frame buffer or, through the tables themselves, to the
tables, and memory afterwards is the paged memory after the same run. -/
theorem screens_in_memory (m : Memory386) (ops : List ScreenOp) (hops : ∀ op ∈ ops, op.Fits) :
    ∃ m₁ m₂ curr q, kernelSpace L.toPageLabels m = .ok m₁ ∧
      run (screenStepPaged L.toPageLabels) (DEFAULT_VT, m₁) ops = .ok (curr, m₂) ∧
      run (screenStep L.table) (DEFAULT_VT, pagedOf L.toPageLabels m₁) ops = .ok (curr, q) ∧
      Embeds L m₂ q := by
  obtain ⟨m₁, hm₁, htbl, hdir⟩ := kernelSpace_tables L.toPageLabels m
  have hmap := ScreensMapped.early (slots_of_tables L.toPageLabels htbl hdir)
  obtain ⟨m₂, curr, q, hm₂, hq, hembeds, -⟩ := (embeds_pagedOf L htbl hdir).run hmap hops
  exact ⟨m₁, m₂, curr, q, hm₁, hm₂, hq, hembeds⟩

end Boot

/-- A character for the first terminal, which then scrolls while the second one is on display. -/
def hiddenScroll : List ScreenOp :=
  [.draw 1 (.setChar 0 0x41), .switchTo 2, .draw 1 (.move 0 80 1920), .switchTo 1]

theorem hiddenScroll_fits : ∀ op ∈ hiddenScroll, op.Fits :=
  List.forall_mem_cons.mpr ⟨⟨by decide, show 0 < FB_SIZE / 2 by decide⟩,
    List.forall_mem_cons.mpr ⟨⟨by decide, by decide⟩,
      List.forall_mem_cons.mpr ⟨⟨by decide, show 0 + 1920 ≤ FB_SIZE / 2 ∧ 80 + 1920 ≤ FB_SIZE / 2 by decide⟩,
        List.forall_mem_cons.mpr ⟨⟨by decide, by decide⟩, List.forall_mem_nil _⟩⟩⟩⟩

theorem screens_in_memory_scroll : (∀ op ∈ hiddenScroll, op.Fits) ∧ ∃ m₁ m₂ curr q,
    kernelSpace (default : HighLabels).toPageLabels (fun _ => 0) = .ok m₁ ∧
    run (screenStepPaged (default : HighLabels).toPageLabels) (DEFAULT_VT, m₁) hiddenScroll = .ok (curr, m₂) ∧
    run (screenStep (default : HighLabels).table) (DEFAULT_VT, pagedOf (default : HighLabels).toPageLabels m₁)
      hiddenScroll = .ok (curr, q) ∧ Embeds default m₂ q :=
  ⟨hiddenScroll_fits, screens_in_memory default (fun _ => 0) hiddenScroll hiddenScroll_fits⟩

end Ohwes

import Ohwes.Kernel.Descriptors

/-! # The descriptor table by contents

Seen from outside, a descriptor is the contents of its file struct: `slot` is that view of the
table. As long as every slot has an allocated struct of its own (`TableOk`), a system call changes
one entry of the view: `open` and `dup` fill one, `close` empties one. Structs that a failing call
has lost are allocated and in no slot; they do not show in the view. -/

namespace Ohwes
set_option autoImplicit false
open Library

section View
variable {δ φ : Type}

/-- The contents of the file a descriptor refers to. -/
def slot (s : FsState δ φ) (fd : Nat) : Option (File φ) :=
  if fd < MAX_OPEN ∧ s.files fd ≠ 0 then some (s.fileAt (s.files fd)) else none

/-- Every slot in use has an allocated file struct of its own. -/
structure TableOk (a : Area) (s : FsState δ φ) : Prop where
  pool : FilePoolOk a s (allocatedFiles s)
  allocated : ∀ fd, fd < MAX_OPEN → s.files fd ≠ 0 → s.files fd ∈ allocatedFiles s
  inj : ∀ i j, i < MAX_OPEN → j < MAX_OPEN → s.files i ≠ 0 → s.files i = s.files j → i = j

/-- There is a file struct left. -/
def HasRoom (a : Area) (s : FsState δ φ) : Prop := (allocatedFiles s).length < a.capacity.toNat

instance decidableHasRoom (a : Area) (s : FsState δ φ) : Decidable (HasRoom a s) := Nat.decLt _ _

variable {a : Area} {s t u : FsState δ φ}

theorem FilesOk.tableOk (h : FilesOk a s) : TableOk a s where
  pool := h.pool
  allocated := h.table.allocated
  inj _ _ hi hj h0 heq := (h.table.slot_inj hi hj h0 heq.symm).symm

theorem slot_of_lt {fd : Nat} (hlt : fd < MAX_OPEN) (h0 : s.files fd ≠ 0) :
    slot s fd = some (s.fileAt (s.files fd)) := if_pos ⟨hlt, h0⟩

theorem slot_eq_some {fd : Nat} {f : File φ} (h : slot s fd = some f) :
    fd < MAX_OPEN ∧ s.files fd ≠ 0 ∧ f = s.fileAt (s.files fd) := by
  unfold slot at h
  split at h
  · next hc => exact ⟨hc.1, hc.2, (Option.some.inj h).symm⟩
  · cases h

/-! ## States with one file struct more -/

/-- `u` has one more file struct than `s`, with contents `v`. -/
structure Grown (a : Area) (s u : FsState δ φ) (v : File φ) : Prop where
  ne : nextFile s ≠ 0
  fresh : nextFile s ∉ allocatedFiles s
  pool : FilePoolOk a u (nextFile s :: allocatedFiles s)
  fileAt : u.fileAt = Function.update s.fileAt (nextFile s) v
  dentries : u.dentries = s.dentries

theorem TableOk.grown (h : TableOk a s) (hf : a.Fits) (hroom : HasRoom a s) :
    ∃ t, allocFd s = .ok (0, some (nextFile s), t) ∧ Grown a s t File.zero ∧ t.files = s.files ∧
      t.dev = s.dev := by
  obtain ⟨t, halloc, hne, hfresh, hpool, hfiles, hdentries, hdev, hat⟩ :=
    allocFd_ok h.pool hf hroom
  exact ⟨t, halloc, ⟨hne, hfresh, hpool, hat, hdentries⟩, hfiles, hdev⟩

section Grown
variable {v : File φ}

theorem Grown.mem (hg : Grown a s u v) (hf : a.Fits) {x : Ptr} (hx : x ∈ allocatedFiles s) :
    x ∈ allocatedFiles u :=
  (hg.pool.perm hf).mem_iff.mpr (List.mem_cons_of_mem _ hx)

/-- The new struct is nobody's. -/
theorem Grown.fileAt_slot (hg : Grown a s u v) (h : TableOk a s) {fd : Nat} (hlt : fd < MAX_OPEN)
    (h0 : s.files fd ≠ 0) : u.fileAt (s.files fd) = s.fileAt (s.files fd) := by
  rw [hg.fileAt, Function.update_of_ne]
  intro heq
  exact hg.fresh (heq ▸ h.allocated fd hlt h0)

/-- The struct stays outside the table. -/
theorem Grown.same (hg : Grown a s u v) (h : TableOk a s) (hf : a.Fits)
    (hfiles : u.files = s.files) : TableOk a u ∧ slot u = slot s := by
  refine ⟨⟨hg.pool.own hf, ?_, ?_⟩, ?_⟩
  · rw [hfiles]
    exact fun fd hlt h0 => hg.mem hf (h.allocated fd hlt h0)
  · rw [hfiles]
    exact h.inj
  · funext fd
    unfold slot
    rw [hfiles]
    split
    · next hc => rw [hg.fileAt_slot h hc.1 hc.2]
    · rfl

/-- The struct goes into a slot. -/
theorem Grown.fill (hg : Grown a s u v) (h : TableOk a s) (hf : a.Fits) {fd : Nat}
    (hlt : fd < MAX_OPEN) (hfiles : u.files = Function.update s.files fd (nextFile s)) :
    TableOk a u ∧ slot u = Function.update (slot s) fd (some v) := by
  have hold : ∀ k, k < MAX_OPEN → s.files k ≠ 0 → s.files k ≠ nextFile s :=
    fun k hk h0 heq => hg.fresh (heq ▸ h.allocated k hk h0)
  refine ⟨⟨hg.pool.own hf, ?_, ?_⟩, ?_⟩
  · intro k hk h0
    rw [hfiles] at h0 ⊢
    by_cases hkf : k = fd
    · subst hkf
      rw [Function.update_self]
      exact (hg.pool.perm hf).mem_iff.mpr (List.mem_cons_self ..)
    · rw [Function.update_of_ne hkf] at h0 ⊢
      exact hg.mem hf (h.allocated k hk h0)
  · intro i j hi hj h0 heq
    rw [hfiles] at h0 heq
    by_cases hif : i = fd
    · by_cases hjf : j = fd
      · rw [hif, hjf]
      · rw [hif, Function.update_self, Function.update_of_ne hjf] at heq
        exact absurd heq.symm (hold j hj fun hz => hg.ne (heq.trans hz))
    · rw [Function.update_of_ne hif] at h0 heq
      by_cases hjf : j = fd
      · rw [hjf, Function.update_self] at heq
        exact absurd heq (hold i hi h0)
      · rw [Function.update_of_ne hjf] at heq
        exact h.inj i j hi hj h0 heq
  · funext k
    by_cases hkf : k = fd
    · subst hkf
      have h0 : u.files k ≠ 0 := by
        rw [hfiles, Function.update_self]
        exact hg.ne
      rw [Function.update_self, slot_of_lt hlt h0, hfiles, Function.update_self, hg.fileAt,
        Function.update_self]
    · rw [Function.update_of_ne hkf]
      unfold slot
      rw [hfiles, Function.update_of_ne hkf]
      split
      · next hc => rw [hg.fileAt_slot h hc.1 hc.2]
      · rfl

end Grown

/-! ## `alloc_fd` and `free_fd` -/

theorem TableOk.length_le (h : TableOk a s) :
    (allocatedFiles s).length ≤ a.capacity.toNat := by
  obtain ⟨p, cs, _, _, hw⟩ := h.pool
  obtain ⟨free, hok⟩ := hw.pool
  rw [hw.live.length_eq, heldItems]
  refine (List.length_filter_le _ _).trans ?_
  rw [List.length_map, hok.length, hw.geometry.2.2]

/-- With no file struct left, `alloc_fd` sets no pointer. -/
theorem TableOk.allocFd_full (h : TableOk a s) (hf : a.Fits) (hfull : ¬ HasRoom a s) :
    allocFd s = .ok (-ENOMEM, none, s) := by
  obtain ⟨p, cs, hp, _, hw⟩ := h.pool
  obtain ⟨free, hok⟩ := hw.pool
  have hfree : free = [] := by
    refine (hw.full_iff hf hok).mp ?_
    have hle := h.length_le
    unfold HasRoom at hfull
    show (allocatedFiles s).length = _
    omega
  subst hfree
  have halloc : poolAlloc s.pool s.filePool = .ok (0, s.pool) := by
    rw [hp]
    exact hok.poolAlloc_nil
  unfold allocFd
  rw [halloc]
  rfl

/-- The struct that is freed is the one that is handed out next. -/
theorem FilePoolOk.free_reuse {live : List Ptr} (h : FilePoolOk a s live) (hf : a.Fits) {x : Ptr}
    (hx : x ∈ live) :
    ∃ pool, freeFd s x = .ok { s with pool := pool } ∧
      FilePoolOk a { s with pool := pool } (live.erase x) ∧
      nextFile { s with pool := pool } = x := by
  obtain ⟨p, cs, hp, hcons, hw⟩ := h
  obtain ⟨free, hok⟩ := hw.pool
  obtain ⟨c, hc, hcx, hloc⟩ := hw.located hf hcons hx
  have hx0 := (hw.live_inside hf hx).1
  obtain ⟨hused, hfree⟩ := hok.poolFree_located hx0 hc hcx hloc
  obtain ⟨i, hi⟩ := List.getElem?_of_mem hc
  have hcall : freeFd s x = .ok { s with pool := freeChunk s.pool p c } := by
    rw [freeFd, if_neg hx0, hp, hfree]
    rfl
  refine ⟨freeChunk s.pool p c, hcall, ⟨p, cs, hp, hcons, hw.free hok hx0 hc hused hcx⟩, ?_⟩
  have hpool : (freeChunk s.pool p c).pools p = { s.pool.pools p with alloc := .chunk c } := by
    rw [freeChunk_pools, if_pos rfl]
  have hchunk : ((freeChunk s.pool p c).chunks c).index = i := by
    rw [freeChunk_chunks, if_pos rfl]
    exact hok.index i c hi
  have hx : x = itemAddr s.pool p i := by
    rw [← hcx]
    exact hok.usedData i c hi hused
  unfold nextFile
  simp only [hp, hpool, hchunk]
  rw [hx]
  exact itemAddr_congr (s := s.pool) (by rw [hpool]) (by rw [hpool]) i

/-! ## States with one file struct less -/

/-- `u` has neither the descriptor `fd` of `s` nor its file struct. -/
structure Shrunk (a : Area) (s u : FsState δ φ) (fd : Nat) : Prop where
  lt : fd < MAX_OPEN
  ne : s.files fd ≠ 0
  pool : FilePoolOk a u ((allocatedFiles s).erase (s.files fd))
  files : u.files = Function.update s.files fd 0
  fileAt : ∀ x, x ≠ s.files fd → u.fileAt x = s.fileAt x

namespace Shrunk
variable {fd : Nat} (hs : Shrunk a s u fd) (h : TableOk a s)
include hs

theorem files_of_ne {k : Nat} (h0 : u.files k ≠ 0) : k ≠ fd ∧ u.files k = s.files k := by
  rw [hs.files] at h0 ⊢
  have hne : k ≠ fd := by
    rintro rfl
    exact h0 (Function.update_self ..)
  exact ⟨hne, Function.update_of_ne hne ..⟩

include h

theorem tableOk (hf : a.Fits) : TableOk a u where
  pool := hs.pool.own hf
  allocated k hk hk0 := by
    obtain ⟨hne, hkeep⟩ := hs.files_of_ne hk0
    rw [hkeep] at hk0 ⊢
    rw [(hs.pool.perm hf).mem_iff, (h.pool.nodup hf).mem_erase_iff]
    exact ⟨fun heq => hne (h.inj k fd hk hs.lt hk0 heq), h.allocated k hk hk0⟩
  inj i j hi hj hi0 heq := by
    have hj0 : u.files j ≠ 0 := fun hz => hi0 (heq.trans hz)
    have hif := (hs.files_of_ne hi0).2
    have hjf := (hs.files_of_ne hj0).2
    exact h.inj i j hi hj (fun hz => hi0 (hif.trans hz)) (hif.symm.trans (heq.trans hjf))

theorem slots : slot u = Function.update (slot s) fd none := by
  funext k
  by_cases hk : k = fd
  · subst hk
    have hfree : u.files k = 0 := by rw [hs.files, Function.update_self]
    rw [Function.update_self]
    exact if_neg fun hc => hc.2 hfree
  · rw [Function.update_of_ne hk]
    unfold slot
    rw [hs.files, Function.update_of_ne hk]
    split
    · next hc => rw [hs.fileAt _ fun heq => hk (h.inj k fd hc.1 hs.lt hc.2 heq)]
    · rfl

theorem room (hf : a.Fits) : HasRoom a u := by
  have hmem := h.allocated fd hs.lt hs.ne
  have hlen := (hs.pool.perm hf).length_eq
  rw [List.length_erase_of_mem hmem] at hlen
  have hpos := List.length_pos_of_mem hmem
  have hle := h.length_le
  unfold HasRoom
  omega

end Shrunk

/-! ## `sys_open` -/

section Calls
variable {ops : φ → FileOps δ φ}

/-- A call that is refused before it looks at the name. -/
theorem sysOpen_early (ops : φ → FileOps δ φ) {name : CString} {oflag : BitVec 32}
    (h : badMode oflag = true ∨ findNextFd s = none) :
    ∃ r, sysOpen ops s name oflag = .ok (r, s) := by
  unfold sysOpen
  by_cases hmode : badMode oflag = true
  · exact ⟨_, if_pos hmode⟩
  · rw [if_neg hmode, h.resolve_left hmode]
    exact ⟨_, rfl⟩

theorem TableOk.sysOpen_full (h : TableOk a s) (hf : a.Fits) {name : CString} {oflag : BitVec 32}
    {fd : Nat} (hmode : badMode oflag = false) (hfd : findNextFd s = some fd)
    (hfull : ¬ HasRoom a s) : sysOpen ops s name oflag = .error .fault := by
  have hne : ¬ (-ENOMEM = ENOMEM) := by decide
  unfold sysOpen
  simp only [hmode, hfd, h.allocFd_full hf hfull, ok_bind, hne, Bool.false_eq_true, if_false]

/-- With a struct in hand, the driver decides. -/
theorem TableOk.sysOpen_alloc (h : TableOk a s) (hf : a.Fits) (ops : φ → FileOps δ φ)
    (name : CString) {oflag : BitVec 32} {fd : Nat} (hmode : badMode oflag = false) (hfd : findNextFd s = some fd)
    (hroom : HasRoom a s) :
    ∃ t, sysOpen ops s name oflag = openFile ops t fd (nextFile s) name oflag ∧
      Grown a s t File.zero ∧ t.files = s.files ∧ t.dev = s.dev := by
  obtain ⟨t, halloc, hg, hfiles, hdev⟩ := h.grown hf hroom
  have hne : ¬ (0 : Int) = ENOMEM := by decide
  refine ⟨t, ?_, hg, hfiles, hdev⟩
  unfold sysOpen
  simp only [hmode, hfd, halloc, ok_bind, hne, Bool.false_eq_true, if_false]

/-- What `openFile` leaves behind, by what the driver's open function does. -/
theorem openFile_driver {t : FsState δ φ} {fd : Nat} {name : CString} {oflag : BitVec 32}
    (hg : Grown a s t File.zero) (hfiles : t.files = s.files) (hdev : t.dev = s.dev) :
    (openResult ops s name oflag = none → ∀ r u,
      openFile ops t fd (nextFile s) name oflag = .ok (r, u) →
        (∃ v, Grown a s u v) ∧ u.files = s.files ∧ u.dev = s.dev) ∧
    (∀ e, openResult ops s name oflag = some (.error e) →
      openFile ops t fd (nextFile s) name oflag = .error e) ∧
    (∀ ret v dev, openResult ops s name oflag = some (.ok (ret, v, dev)) →
      ∃ u, openFile ops t fd (nextFile s) name oflag = .ok (if ret < 0 then ret else fd, u) ∧
        Grown a s u v ∧ u.dev = dev ∧
        u.files = if ret < 0 then s.files else Function.update s.files fd (nextFile s)) := by
  have hz : t.fileAt (nextFile s) = File.zero := by rw [hg.fileAt, Function.update_self]
  have hlook : findDentry t name = findDentry s name := by
    unfold findDentry
    rw [hg.dentries]
  -- Setting the new struct keeps what is known of the rest.
  have hset : ∀ w, Grown a s (t.setFile (nextFile s) w) w := by
    intro w
    refine ⟨hg.ne, hg.fresh, hg.pool.congr rfl rfl, ?_, hg.dentries⟩
    show Function.update t.fileAt (nextFile s) w = _
    rw [hg.fileAt, Function.update_idem]
  unfold openFile findInode openResult
  simp only [findDentry_setFile, hz, hlook, FsState.setFile_fileAt_self, FsState.setFile_setFile]
  cases hdentry : findDentry s name with
  | none =>
    refine ⟨fun _ r u h => ?_, fun e h => by simp [driverOpen] at h,
      fun ret v dev h => by simp [driverOpen] at h⟩
    cases h
    exact ⟨⟨_, hset _⟩, hfiles, hdev⟩
  | some dentry =>
    dsimp only
    cases hinode : dentry.inode with
    | none =>
      refine ⟨fun _ r u h => by simp [bind, Except.bind] at h,
        fun e h => by simp [driverOpen, hinode] at h,
        fun ret v dev h => by simp [driverOpen, hinode] at h⟩
    | some inode =>
      simp only [ok_bind, FsState.setFile_fileAt_self, FsState.setFile_dev]
      cases hfops : inode.fops with
      | none =>
        refine ⟨fun _ r u h => ?_, fun e h => by simp [driverOpen, hinode, hfops] at h,
          fun ret v dev h => by simp [driverOpen, hinode, hfops] at h⟩
        cases h
        exact ⟨⟨_, hset _⟩, hfiles, hdev⟩
      | some fops =>
        dsimp only
        cases hopen : (ops fops).openFn with
        | none =>
          refine ⟨fun _ r u h => ?_, fun e h => by simp [driverOpen, hinode, hfops, hopen] at h,
            fun ret v dev h => by simp [driverOpen, hinode, hfops, hopen] at h⟩
          cases h
          exact ⟨⟨_, hset _⟩, hfiles, hdev⟩
        | some openFn =>
          dsimp only
          have hres : driverOpen ops (some dentry) (nextFile s) oflag s.dev = some (openFn inode
              (nextFile s) { File.zero with oflag, fops := some fops } s.dev) := by
            simp [driverOpen, hinode, hfops, hopen]
          rw [hres, hdev]
          refine ⟨fun h => (by cases h), fun e h => ?_, fun ret v dev h => ?_⟩
          · rw [Option.some.inj h]
            rfl
          · rw [Option.some.inj h]
            have hv := hset v
            simp only [ok_bind, FsState.setFile_setFile]
            by_cases hneg : ret < 0
            · simp only [if_pos hneg]
              exact ⟨_, rfl, ⟨hv.ne, hv.fresh, hv.pool.congr rfl rfl, hv.fileAt, hv.dentries⟩,
                rfl, hfiles⟩
            · simp only [if_neg hneg]
              refine ⟨_, rfl, ⟨hv.ne, hv.fresh, hv.pool.congr rfl rfl, hv.fileAt, hv.dentries⟩,
                rfl, ?_⟩
              show Function.update t.files fd (nextFile s) = _
              rw [hfiles]

/-- Seen from `s`, the state `u` has these descriptors and devices. -/
structure Leads (a : Area) (s u : FsState δ φ) (slots : Nat → Option (File φ)) (dev : δ) : Prop where
  table : TableOk a u
  slots : slot u = slots
  dev : u.dev = dev
  dentries : u.dentries = s.dentries

theorem TableOk.leads_refl (h : TableOk a s) : Leads a s s (slot s) s.dev := ⟨h, rfl, rfl, rfl⟩

/-- With a driver that opens the device the call fills a slot, or fails with the driver's error. -/
theorem TableOk.sysOpen_ok (h : TableOk a s) (hf : a.Fits) {name : CString} {oflag : BitVec 32}
    {fd : Nat} (hmode : badMode oflag = false) (hfd : findNextFd s = some fd) (hroom : HasRoom a s)
    {ret : Int} {v : File φ} {dev : δ}
    (hres : openResult ops s name oflag = some (.ok (ret, v, dev))) :
    ∃ u, sysOpen ops s name oflag = .ok (if ret < 0 then ret else fd, u) ∧
      Leads a s u (if ret < 0 then slot s else Function.update (slot s) fd (some v)) dev := by
  obtain ⟨t, hcall, hg, hfiles, hdev⟩ := h.sysOpen_alloc hf ops name hmode hfd hroom
  obtain ⟨u, hu, hgu, hudev, hufiles⟩ := (openFile_driver hg hfiles hdev).2.2 ret v dev hres
  refine ⟨u, hcall.trans hu, ?_⟩
  by_cases hneg : ret < 0
  · rw [if_pos hneg] at hufiles ⊢
    obtain ⟨htable, hslot⟩ := hgu.same h hf hufiles
    exact ⟨htable, hslot, hudev, hgu.dentries⟩
  · rw [if_neg hneg] at hufiles ⊢
    obtain ⟨htable, hslot⟩ := hgu.fill h hf (findNextFd_some hfd).1 hufiles
    exact ⟨htable, hslot, hudev, hgu.dentries⟩

/-- **`sys_open`.** A call that comes back has changed nothing that shows, or has had an answer from
the driver. -/
theorem TableOk.sysOpen_view (h : TableOk a s) (hf : a.Fits) {name : CString} {oflag : BitVec 32}
    {r : Int} (hc : sysOpen ops s name oflag = .ok (r, t)) :
    Leads a s t (slot s) s.dev ∨
      ∃ fd ret v dev, badMode oflag = false ∧ findNextFd s = some fd ∧ HasRoom a s ∧
        openResult ops s name oflag = some (.ok (ret, v, dev)) ∧
        Leads a s t (if ret < 0 then slot s else Function.update (slot s) fd (some v)) dev := by
  by_cases hearly : badMode oflag = true ∨ findNextFd s = none
  · obtain ⟨r', hr⟩ := sysOpen_early ops hearly
    rw [hr] at hc
    cases hc
    exact Or.inl h.leads_refl
  rw [not_or] at hearly
  have hmode : badMode oflag = false := by simpa using hearly.1
  obtain ⟨fd, hfd⟩ := Option.ne_none_iff_exists'.mp hearly.2
  by_cases hroom : HasRoom a s
  swap
  · rw [h.sysOpen_full hf hmode hfd hroom] at hc
    cases hc
  cases hres : openResult ops s name oflag with
  | none =>
    obtain ⟨m, hcall, hg, hfiles, hdev⟩ := h.sysOpen_alloc hf ops name hmode hfd hroom
    rw [hcall] at hc
    obtain ⟨⟨v, hgt⟩, htfiles, htdev⟩ := (openFile_driver hg hfiles hdev).1 hres r t hc
    obtain ⟨htable, hslot⟩ := hgt.same h hf htfiles
    exact Or.inl ⟨htable, hslot, htdev, hgt.dentries⟩
  | some x =>
    cases x with
    | error e =>
      obtain ⟨m, hcall, hg, hfiles, hdev⟩ := h.sysOpen_alloc hf ops name hmode hfd hroom
      rw [hcall, (openFile_driver hg hfiles hdev).2.1 e hres] at hc
      cases hc
    | ok x =>
      obtain ⟨ret, v, dev⟩ := x
      obtain ⟨u, hu, hleads⟩ := h.sysOpen_ok hf hmode hfd hroom hres
      rw [hu] at hc
      cases hc
      exact Or.inr ⟨fd, ret, v, dev, hmode, hfd, hroom, rfl, hleads⟩

/-! ## `sys_close` -/

/-- A descriptor that is not in use, or whose file has no close function, stays as it is. -/
theorem sysClose_refused {fd : Int}
    (h : validFd fd = true → slot s fd.toNat ≠ none → closeResult ops s fd = none) :
    ∃ r, sysClose ops s fd = .ok (r, s) := by
  by_cases hunused : validFd fd = true → s.files fd.toNat = 0
  · exact ⟨-EBADF, sysClose_unused hunused⟩
  obtain ⟨hv, h0⟩ := Classical.not_imp.mp hunused
  refine ⟨-ENOSYS, sysClose_none hv h0 (h hv ?_)⟩
  rw [slot_of_lt (validFd_lt hv).2 h0]
  exact Option.some_ne_none _

/-- With a driver that closes the file, the descriptor is gone, and its struct is the next one to be
handed out. -/
theorem TableOk.sysClose_ok (h : TableOk a s) (hf : a.Fits) {fd : Int} (hv : validFd fd = true)
    (hs : slot s fd.toNat ≠ none) {ret : Int} {v : File φ} {dev : δ}
    (hres : closeResult ops s fd = some (.ok (ret, v, dev))) (hret : 0 ≤ ret) :
    ∃ t, sysClose ops s fd = .ok (ret, t) ∧
      Leads a s t (Function.update (slot s) fd.toNat none) dev ∧
      t.files = Function.update s.files fd.toNat 0 ∧ nextFile t = s.files fd.toNat ∧
      HasRoom a t := by
  obtain ⟨f, hfile⟩ := Option.ne_none_iff_exists'.mp hs
  obtain ⟨hlt, h0, _⟩ := slot_eq_some hfile
  have hmem := h.allocated fd.toNat hlt h0
  have hpool : FilePoolOk a { s.setFile (s.files fd.toNat) v with dev := dev }
      (allocatedFiles s) := h.pool.congr rfl rfl
  obtain ⟨pool, hfree, hpool', hnext⟩ := hpool.free_reuse hf hmem
  have hshrunk : Shrunk a s
      (({ s.setFile (s.files fd.toNat) v with dev := dev, pool := pool }).setFd fd.toNat 0) fd.toNat :=
    ⟨hlt, h0, hpool'.congr rfl rfl, rfl, fun x hx => Function.update_of_ne hx ..⟩
  refine ⟨_, ?_, ⟨hshrunk.tableOk h hf, hshrunk.slots h, rfl, rfl⟩, rfl, hnext, hshrunk.room h hf⟩
  rw [sysClose_eq hv h0 hres, ok_bind, if_neg (by omega), hfree, ok_bind]

/-! ## `dup` -/

/-- The copy fills a slot. The struct it gets is zeroed first, so the copy of a file that has just
been freed, and whose struct it gets, is blank. -/
theorem TableOk.copyFd_ok (h : TableOk a s) (hf : a.Fits) (hroom : HasRoom a s) (file : Ptr)
    {newfd : Nat} (hlt : newfd < MAX_OPEN) :
    ∃ u, copyFd s file newfd = .ok ((newfd : Int), u) ∧
      Leads a s u (Function.update (slot s) newfd
        (some (Function.update s.fileAt (nextFile s) File.zero file))) s.dev := by
  obtain ⟨t, halloc, hg, hfiles, hdev⟩ := h.grown hf hroom
  have hne : ¬ (0 : Int) = ENOMEM := by decide
  have hu : Grown a s ((t.setFile (nextFile s) (t.fileAt file)).setFd newfd (nextFile s))
      (t.fileAt file) := by
    refine ⟨hg.ne, hg.fresh, hg.pool.congr rfl rfl, ?_, hg.dentries⟩
    show Function.update t.fileAt (nextFile s) _ = _
    rw [hg.fileAt, Function.update_idem]
  refine ⟨(t.setFile (nextFile s) (t.fileAt file)).setFd newfd (nextFile s), ?_, ?_⟩
  · simp only [copyFd, halloc, ok_bind, hne, if_false]
  rw [← hg.fileAt]
  obtain ⟨htable, hslots⟩ := hu.fill h hf hlt (by
    show Function.update t.files newfd (nextFile s) = _
    rw [hfiles])
  exact ⟨htable, hslots, hdev, hg.dentries⟩

theorem TableOk.copyFd_full (h : TableOk a s) (hf : a.Fits) (hfull : ¬ HasRoom a s) (file : Ptr)
    (newfd : Nat) : copyFd s file newfd = .error .fault := by
  have hne : ¬ (-ENOMEM = ENOMEM) := by decide
  unfold copyFd
  simp only [h.allocFd_full hf hfull, ok_bind, hne, if_false]

/-- Both descriptors are in range, and the first is in use. -/
def CanDup (s : FsState δ φ) (fd newfd : Int) : Prop :=
  validFd fd = true ∧ validFd newfd = true ∧ s.files fd.toNat ≠ 0

instance decidableCanDup (s : FsState δ φ) (fd newfd : Int) : Decidable (CanDup s fd newfd) :=
  inferInstanceAs (Decidable (_ ∧ _ ∧ _))

theorem dupfd_refused (ops : φ → FileOps δ φ) {fd newfd : Int} (h : ¬ CanDup s fd newfd) :
    ∃ r, dupfd ops s fd newfd = .ok (r, s) := by
  unfold dupfd
  by_cases hv : validFd fd = true
  swap
  · exact ⟨-EBADF, if_pos (by simpa using hv)⟩
  by_cases hnv : validFd newfd = true
  swap
  · exact ⟨-EBADF, by simp [hv, hnv]⟩
  have h0 : s.files fd.toNat = 0 := by
    by_contra h0
    exact h ⟨hv, hnv, h0⟩
  exact ⟨-EBADF, by simp [hv, hnv, h0]⟩

theorem dupfd_dup {fd : Int} (h : CanDup s fd 0) :
    dupfd ops s fd 0 = match findNextFd s with
      | none => .ok (-EMFILE, s)
      | some k => copyFd s (s.files fd.toNat) k := by
  obtain ⟨hv, hnv, h0⟩ := h
  unfold dupfd
  cases findNextFd s with
  | none =>
    simp only [hv, hnv, h0, Bool.not_true, Bool.false_eq_true, if_false, ne_eq, not_true_eq_false]
  | some k =>
    simp only [hv, hnv, h0, Bool.not_true, Bool.false_eq_true, if_false, ne_eq, not_true_eq_false]

theorem dupfd_dup2 {fd newfd : Int} (h : CanDup s fd newfd) (hz : newfd ≠ 0) :
    dupfd ops s fd newfd =
      sysClose ops s newfd >>= fun x => copyFd x.2 (s.files fd.toNat) newfd.toNat := by
  obtain ⟨hv, hnv, h0⟩ := h
  unfold dupfd
  simp only [hv, hnv, h0, hz, Bool.not_true, Bool.false_eq_true, if_false, ne_eq,
    not_false_eq_true, if_true]

end Calls

end View

end Ohwes

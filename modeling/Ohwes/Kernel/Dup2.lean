import Ohwes.Kernel.DescriptorRuns
import Ohwes.Kernel.DescriptorView

/-! # `dup2`

`dup2` closes its target and copies the file, whatever the close answers, and a target of zero stands
for no target. `dup2_duplicates_iff` says which calls copy a descriptor to where they were asked to. -/

namespace Ohwes
open Library
set_option autoImplicit false

section Dup2
variable {δ φ : Type} {ops : φ → FileOps δ φ} {a : Area} {s t u : FsState δ φ}

/-! ## Every call keeps the table -/

theorem TableOk.congr (h : TableOk a s) (hst : SameFiles s t) : TableOk a t where
  pool := by
    rw [allocatedFiles_congr hst.pool hst.filePool]
    exact h.pool.congr hst.pool hst.filePool
  allocated := by
    rw [allocatedFiles_congr hst.pool hst.filePool, hst.files]
    exact h.allocated
  inj := by
    rw [hst.files]
    exact h.inj

theorem TableOk.nextFile_fresh (h : TableOk a s) (hf : a.Fits) (hroom : HasRoom a s) :
    nextFile s ≠ 0 ∧ nextFile s ∉ allocatedFiles s := by
  obtain ⟨_, _, hg, _⟩ := h.grown hf hroom
  exact ⟨hg.ne, hg.fresh⟩

theorem slot_congr {k : Nat} (hfiles : t.files k = s.files k)
    (hat : k < MAX_OPEN → s.files k ≠ 0 → t.fileAt (s.files k) = s.fileAt (s.files k)) :
    slot t k = slot s k := by
  unfold slot
  rw [hfiles]
  by_cases hk : k < MAX_OPEN ∧ s.files k ≠ 0
  · rw [if_pos hk, if_pos hk, hat hk.1 hk.2]
  · rw [if_neg hk, if_neg hk]

/-- After `sys_close` the other descriptors are as they were. The one it was called for is too, with
its file, or it is gone, and its file struct is the next one to be handed out. -/
structure Closes (a : Area) (s t : FsState δ φ) (fd : Nat) : Prop where
  table : TableOk a t
  files : ∀ k, k ≠ fd → t.files k = s.files k
  slots : ∀ k, k ≠ fd → slot t k = slot s k
  outcome : SameFiles s t ∨ (∃ f, slot s fd = some f ∧ f.fops ≠ none) ∧ t.files fd = 0 ∧
    nextFile t = s.files fd ∧ HasRoom a t

theorem TableOk.closes_refl (h : TableOk a s) (fd : Nat) : Closes a s s fd :=
  ⟨h, fun _ _ => rfl, fun _ _ => rfl, Or.inl ⟨rfl, rfl, rfl⟩⟩

/-- A close function that returns an error has changed its own file at most. -/
theorem TableOk.sysClose_failed (h : TableOk a s) {fd : Int} (hv : validFd fd = true)
    (h0 : s.files fd.toNat ≠ 0) {ret : Int} {v : File φ} {dev : δ}
    (hres : closeResult ops s fd = some (.ok (ret, v, dev))) (hret : ret < 0) :
    ∃ t, sysClose ops s fd = .ok (ret, t) ∧ Closes a s t fd.toNat := by
  have hlt := (validFd_lt hv).2
  have hsame : SameFiles s { s.setFile (s.files fd.toNat) v with dev := dev } := ⟨rfl, rfl, rfl⟩
  refine ⟨{ s.setFile (s.files fd.toNat) v with dev := dev }, ?_, h.congr hsame, fun _ _ => rfl,
    fun k hk => ?_, Or.inl hsame⟩
  · rw [sysClose_eq hv h0 hres, ok_bind, if_pos hret]
  · refine slot_congr rfl fun hklt hk0 => ?_
    have hne : s.files k ≠ s.files fd.toNat := fun heq => hk (h.inj k fd.toNat hklt hlt hk0 heq)
    exact Function.update_of_ne hne ..

theorem sysClose_halts {fd : Int} (hv : validFd fd = true) (h0 : s.files fd.toNat ≠ 0) {e : Halt}
    (hres : closeResult ops s fd = some (.error e)) : sysClose ops s fd = .error e := by
  rw [sysClose_eq hv h0 hres]
  rfl

theorem TableOk.sysClose_closes (h : TableOk a s) (hf : a.Fits) {fd : Int} {r : Int}
    (hc : sysClose ops s fd = .ok (r, t)) : Closes a s t fd.toNat := by
  by_cases hrefused : validFd fd = true → slot s fd.toNat ≠ none → closeResult ops s fd = none
  · obtain ⟨r', hr⟩ := sysClose_refused hrefused
    cases hr.symm.trans hc
    exact h.closes_refl _
  simp only [not_forall] at hrefused
  obtain ⟨hv, hs, hres⟩ := hrefused
  obtain ⟨f, hfile⟩ := Option.ne_none_iff_exists'.mp hs
  obtain ⟨hlt, h0, rfl⟩ := slot_eq_some hfile
  obtain ⟨x, hx⟩ := Option.ne_none_iff_exists'.mp hres
  cases x with
  | error e =>
    rw [sysClose_halts hv h0 hx] at hc
    cases hc
  | ok x =>
    obtain ⟨ret, v, dev⟩ := x
    by_cases hret : ret < 0
    · obtain ⟨m, hm, hcloses⟩ := h.sysClose_failed hv h0 hx hret
      cases hm.symm.trans hc
      exact hcloses
    · obtain ⟨m, hm, hleads, hfiles, hnext, hroom⟩ := h.sysClose_ok hf hv hs hx (by omega)
      cases hm.symm.trans hc
      refine ⟨hleads.table, fun k hk => ?_, fun k hk => ?_, Or.inr ⟨⟨_, hfile, ?_⟩, ?_, hnext, hroom⟩⟩
      · rw [hfiles, Function.update_of_ne hk]
      · rw [hleads.slots, Function.update_of_ne hk]
      · intro hnone
        rw [closeResult, hnone] at hx
        cases hx
      · rw [hfiles, Function.update_self]

/-- A copy that is made. -/
structure Copies (a : Area) (s t : FsState δ φ) (file : Ptr) (newfd : Nat) : Prop where
  table : TableOk a t
  room : HasRoom a s
  files : t.files = Function.update s.files newfd (nextFile s)
  slots : slot t = Function.update (slot s) newfd
    (some (Function.update s.fileAt (nextFile s) File.zero file))
  dev : t.dev = s.dev

theorem TableOk.copyFd_copies (h : TableOk a s) (hf : a.Fits) {file : Ptr} {newfd : Nat}
    (hlt : newfd < MAX_OPEN) {r : Int} (hc : copyFd s file newfd = .ok (r, t)) :
    r = newfd ∧ Copies a s t file newfd := by
  by_cases hroom : HasRoom a s
  swap
  · rw [h.copyFd_full hf hroom] at hc
    cases hc
  obtain ⟨u, hu, hleads⟩ := h.copyFd_ok hf hroom file hlt
  cases hu.symm.trans hc
  refine ⟨rfl, hleads.table, hroom, ?_, hleads.slots, hleads.dev⟩
  obtain ⟨m, halloc, -, hfiles, -⟩ := h.grown hf hroom
  have hne : ¬ (0 : Int) = ENOMEM := by decide
  simp only [copyFd, halloc, ok_bind, hne, if_false] at hc
  cases hc
  show Function.update m.files newfd (nextFile s) = _
  rw [hfiles]

theorem TableOk.dupfd_keeps (h : TableOk a s) (hf : a.Fits) {fd newfd : Int} {r : Int}
    (hc : dupfd ops s fd newfd = .ok (r, t)) : TableOk a t := by
  by_cases hcan : CanDup s fd newfd
  swap
  · obtain ⟨r', hr⟩ := dupfd_refused ops hcan
    cases hr.symm.trans hc
    exact h
  by_cases hz : newfd = 0
  · subst hz
    rw [dupfd_dup hcan] at hc
    split at hc
    · cases hc
      exact h
    · next k hk => exact (h.copyFd_copies hf (findNextFd_some hk).1 hc).2.table
  · rw [dupfd_dup2 hcan hz] at hc
    obtain ⟨⟨r', m⟩, hm, hc⟩ := bind_ok.mp hc
    exact ((h.sysClose_closes hf hm).table.copyFd_copies hf (validFd_lt hcan.2.1).2 hc).2.table

theorem TableOk.step (h : TableOk a s) (hf : a.Fits) {op : FsOp} (hs : fsStep ops s op = .ok t) :
    TableOk a t := by
  obtain ⟨r, hcall⟩ := fsStep_ok hs
  cases op with
  | sysOpen name oflag =>
    obtain hleads | ⟨_, _, _, _, _, _, _, _, hleads⟩ := h.sysOpen_view hf hcall
    · exact hleads.table
    · exact hleads.table
  | sysClose fd => exact (h.sysClose_closes hf hcall).table
  | sysDup fd => exact h.dupfd_keeps hf hcall
  | sysDup2 fd newfd => exact h.dupfd_keeps hf hcall

/-- From `init_fs` on, whatever the calls and the drivers. -/
theorem TableOk.of_run {L : FsLayout} {chdevOps : φ} {dev : δ} {p : PoolState} {fs : FsState δ φ}
    {calls : List FsOp} (hmask : Consecutive (setBits p.chunkMask.1))
    (hinit : initFs L chdevOps dev p = .ok fs) (hrun : run (fsStep ops) fs calls = .ok s) :
    TableOk L.area s :=
  invariant_reached (fun _ _ _ ht hstep => ht.step L.area_fits hstep) (initFs_ok hmask hinit).tableOk
    (Reaches.of_run hrun)

/-! ## The copy -/

/-- `newfd` now refers to a file like the one of `fd`, and nothing else has changed. -/
structure Duplicates (s t : FsState δ φ) (fd newfd r : Int) : Prop where
  returns : r = newfd
  copied : slot t newfd.toNat = slot s fd.toNat
  files : ∀ k, k ≠ newfd.toNat → t.files k = s.files k
  slots : ∀ k, k ≠ newfd.toNat → slot t k = slot s k
  same : newfd = fd → t = s

/-- The target is neither the descriptor itself nor a descriptor zero that is open. -/
def NamesTarget (s : FsState δ φ) (fd newfd : Int) : Prop :=
  newfd ≠ fd ∧ (newfd ≠ 0 ∨ s.files 0 = 0)

instance decidableNamesTarget (s : FsState δ φ) (fd newfd : Int) : Decidable (NamesTarget s fd newfd) :=
  inferInstanceAs (Decidable (_ ∧ _))

/-- The file of a descriptor that stays open is not the one the copy is made in. -/
theorem Copies.copied {file : Ptr} {newfd k : Nat} (hc : Copies a s t file newfd)
    (h : TableOk a s) (hf : a.Fits) (hk : k < MAX_OPEN) (hfile : s.files k = file)
    (h0 : file ≠ 0) : slot t newfd = slot s k := by
  subst hfile
  have hne : s.files k ≠ nextFile s := fun heq =>
    (h.nextFile_fresh hf hc.room).2 (heq ▸ h.allocated k hk h0)
  rw [hc.slots, Function.update_self, Function.update_of_ne hne, slot_of_lt hk h0]

theorem TableOk.dup2_named (h : TableOk a s) (hf : a.Fits) {fd newfd : Int} {r : Int}
    (hcan : CanDup s fd newfd) (hc : dupfd ops s fd newfd = .ok (r, t))
    (hnamed : NamesTarget s fd newfd) : Duplicates s t fd newfd r := by
  obtain ⟨hne, hzero⟩ := hnamed
  have hfd := validFd_lt hcan.1
  have hnew := validFd_lt hcan.2.1
  have hnat : fd.toNat ≠ newfd.toNat := by omega
  by_cases hz : newfd = 0
  · -- As for `dup`, and zero is the first descriptor that is free.
    subst hz
    have hfree : s.files 0 = 0 := hzero.resolve_left (not_not_intro rfl)
    have hnext : findNextFd s = some 0 := by
      rw [findNextFd, show MAX_OPEN = 7 + 1 from rfl, List.range_succ_eq_map,
        List.find?_cons_of_pos (by simpa using hfree)]
    rw [dupfd_dup hcan, hnext] at hc
    obtain ⟨hr0, hcopy⟩ := h.copyFd_copies hf (by decide) hc
    have hother {k : Nat} (hk : k ≠ (0 : Int).toNat) : k ≠ 0 := hk
    refine ⟨hr0, hcopy.copied h hf hfd.2 rfl hcan.2.2, fun k hk => ?_, fun k hk => ?_,
      fun he => absurd he hne⟩
    · rw [hcopy.files, Function.update_of_ne (hother hk)]
    · rw [hcopy.slots, Function.update_of_ne (hother hk)]
  · rw [dupfd_dup2 hcan hz] at hc
    obtain ⟨⟨r', m⟩, hm, hc⟩ := bind_ok.mp hc
    have hcloses := h.sysClose_closes hf hm
    obtain ⟨hrn, hcopy⟩ := hcloses.table.copyFd_copies hf hnew.2 hc
    refine ⟨by omega, ?_, fun k hk => ?_, fun k hk => ?_, fun he => absurd he hne⟩
    · rw [hcopy.copied hcloses.table hf hfd.2 (hcloses.files _ hnat) hcan.2.2,
        hcloses.slots _ hnat]
    · rw [hcopy.files, Function.update_of_ne hk]
      exact hcloses.files k hk
    · rw [hcopy.slots, Function.update_of_ne hk]
      exact hcloses.slots k hk

/-- `dup2` of an open descriptor onto itself: its file is freed and handed out blank, or stays
allocated in no slot. -/
theorem TableOk.dup2_itself (h : TableOk a s) (hf : a.Fits) {fd : Int} {r : Int}
    (hcan : CanDup s fd fd) (hz : fd ≠ 0) (hc : dupfd ops s fd fd = .ok (r, t)) :
    ¬ Duplicates s t fd fd r := by
  intro hdup
  have hfd := validFd_lt hcan.1
  rw [dupfd_dup2 hcan hz] at hc
  obtain ⟨⟨r', m⟩, hm, hc⟩ := bind_ok.mp hc
  have hcloses := h.sysClose_closes hf hm
  obtain ⟨-, hcopy⟩ := hcloses.table.copyFd_copies hf hfd.2 hc
  obtain hsame | ⟨⟨f, hfile, hfops⟩, -, hnext, -⟩ := hcloses.outcome
  · have hfresh := hcloses.table.nextFile_fresh hf hcopy.room
    have hnew : t.files fd.toNat = nextFile m := by rw [hcopy.files, Function.update_self]
    rw [hdup.same rfl] at hnew
    refine hfresh.2 (hnew ▸ ?_)
    rw [allocatedFiles_congr hsame.pool hsame.filePool]
    exact h.allocated _ hfd.2 hcan.2.2
  · have hblank : slot t fd.toNat = some File.zero := by
      rw [hcopy.slots, Function.update_self, hnext, Function.update_self]
    rw [hdup.same rfl, hfile] at hblank
    exact hfops (congrArg File.fops (Option.some.inj hblank))

/-- `dup2` onto an open descriptor zero takes the first descriptor that is free. -/
theorem dup2_zero {fd : Int} {r : Int} (hcan : CanDup s fd 0) (h0 : s.files 0 ≠ 0)
    (hc : dupfd ops s fd 0 = .ok (r, t)) (hr : 0 ≤ r) : r ≠ 0 := by
  rw [dupfd_dup hcan] at hc
  split at hc
  · cases hc
    exact absurd hr (by decide)
  · next k hk =>
    have hk0 : k ≠ 0 := by
      rintro rfl
      exact h0 (findNextFd_some hk).2
    obtain ⟨⟨ret, file, m⟩, -, hc⟩ := bind_ok.mp hc
    dsimp only at hc
    split at hc
    · cases hc
      exact absurd hr (by decide)
    split at hc
    · cases hc
    · cases hc
      omega

/-- A `dup2` that succeeds, in any state that calls lead to from `init_fs`, copies the descriptor to
its target and changes nothing else, if and only if it names a target. -/
theorem dup2_duplicates_iff {L : FsLayout} {chdevOps : φ} {dev : δ} {p : PoolState}
    {fs : FsState δ φ} {calls : List FsOp} (hmask : Consecutive (setBits p.chunkMask.1))
    (hinit : initFs L chdevOps dev p = .ok fs) (hrun : run (fsStep ops) fs calls = .ok s)
    {fd newfd : Int} (hcan : CanDup s fd newfd) {r : Int}
    (hcall : sysDup2 ops s fd newfd = .ok (r, t)) (hr : 0 ≤ r) :
    Duplicates s t fd newfd r ↔ NamesTarget s fd newfd := by
  have h := TableOk.of_run hmask hinit hrun
  refine ⟨fun hdup => ?_, h.dup2_named L.area_fits hcan hcall⟩
  by_cases hz : newfd = 0
  · subst hz
    have hfree : s.files 0 = 0 := by
      by_contra h0
      exact dup2_zero hcan h0 hcall hr hdup.returns
    refine ⟨fun he => ?_, Or.inr hfree⟩
    subst he
    exact hcan.2.2 hfree
  · refine ⟨fun he => ?_, Or.inl hz⟩
    subst he
    exact h.dup2_itself L.area_fits hcan hz hcall hdup

end Dup2

/-- A descriptor copied onto one that is free and onto one that is open, with descriptor zero free. -/
theorem dup2_duplicates_plain :
    ∃ fs s t u, initFs plainLayout () () (initPool (.bss fun _ => 0)) = .ok fs ∧
      run (fsStep plainOps) fs [.sysOpen tty1 O_RDWR, .sysDup 0, .sysDup 0, .sysClose 0] = .ok s ∧
      sysDup2 plainOps s 1 2 = .ok (2, t) ∧ Duplicates s t 1 2 2 ∧
      sysDup2 plainOps s 1 0 = .ok (0, u) ∧ Duplicates s u 1 0 0 := by
  have h : ∃ fs, initFs plainLayout () () (initPool (.bss fun _ => 0)) = .ok fs ∧
      ∃ s, run (fsStep plainOps) fs [.sysOpen tty1 O_RDWR, .sysDup 0, .sysDup 0, .sysClose 0] = .ok s ∧
      ((CanDup s 1 2 ∧ NamesTarget s 1 2) ∧ ∃ x, sysDup2 plainOps s 1 2 = .ok x ∧ x.1 = 2) ∧
      (CanDup s 1 0 ∧ NamesTarget s 1 0) ∧ ∃ x, sysDup2 plainOps s 1 0 = .ok x ∧ x.1 = 0 := by
    decide +kernel
  obtain ⟨fs, hinit, s, hrun, ⟨⟨hcan, hnamed⟩, ⟨r, t⟩, ht, hr⟩, ⟨hcan0, hnamed0⟩, ⟨r0, u⟩, hu, hr0⟩ := h
  dsimp only at hr hr0
  subst hr hr0
  have hmask : Consecutive (setBits (initPool (.bss fun _ => 0)).chunkMask.1) := by decide +kernel
  exact ⟨fs, s, t, u, hinit, hrun, ht,
    (dup2_duplicates_iff hmask hinit hrun hcan ht (by decide)).mpr hnamed, hu,
    (dup2_duplicates_iff hmask hinit hrun hcan0 hu (by decide)).mpr hnamed0⟩

/-- The targets that are not taken for what they are: zero, and the descriptor itself. -/
theorem dup2_misses_target :
    ∃ fs s, initFs plainLayout () () (initPool (.bss fun _ => 0)) = .ok fs ∧
      run (fsStep plainOps) fs [.sysOpen tty1 O_RDWR, .sysDup 0] = .ok s ∧
      CanDup s 1 0 ∧ (∃ t, sysDup2 plainOps s 1 0 = .ok (2, t) ∧ ¬ Duplicates s t 1 0 2) ∧
      CanDup s 1 1 ∧ ∃ t, sysDup2 plainOps s 1 1 = .ok (1, t) ∧ ¬ Duplicates s t 1 1 1 := by
  have h : ∃ fs, initFs plainLayout () () (initPool (.bss fun _ => 0)) = .ok fs ∧
      ∃ s, run (fsStep plainOps) fs [.sysOpen tty1 O_RDWR, .sysDup 0] = .ok s ∧
      (CanDup s 1 0 ∧ ∃ x, sysDup2 plainOps s 1 0 = .ok x ∧ x.1 = 2) ∧
      CanDup s 1 1 ∧ ∃ x, sysDup2 plainOps s 1 1 = .ok x ∧ x.1 = 1 ∧
        (x.2.fileAt (x.2.files 1)).fops ≠ (s.fileAt (s.files 1)).fops := by decide +kernel
  obtain ⟨fs, hinit, s, hrun, ⟨hcan, ⟨r, t⟩, ht, hr⟩, hcan1, ⟨r1, u⟩, hu, hr1, hblank⟩ := h
  dsimp only at hr hr1 hblank
  subst hr hr1
  refine ⟨fs, s, hinit, hrun, hcan, ⟨t, ht, fun hdup => ?_⟩, hcan1, u, hu, fun hdup => ?_⟩
  · exact absurd hdup.returns (by decide)
  · rw [hdup.same rfl] at hblank
    exact hblank rfl

end Ohwes

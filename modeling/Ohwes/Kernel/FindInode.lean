import Ohwes.Kernel.DescriptorRuns

/-! # The directory and `find_inode`

`init_fs` makes one entry for each terminal and serial port, and an inode for each of them but the
first. The entries do not change afterwards. -/

namespace Ohwes
open Library
set_option autoImplicit false

section FindInode
variable {δ φ : Type} {chdevOps : φ}

/-! ## The entries -/

/-- The entry of device `i`. -/
def ttyDentry (chdevOps : φ) (i : Nat) : Dentry φ where
  name := strncpy (List.replicate DENTRY_NAME_LENGTH 0) (ttyName i) DENTRY_NAME_LENGTH
  inode := if i = 0 then none
    else some { mode := MODE_CHRDEV, device := mkdev TTY_MAJOR i, fops := some chdevOps }

theorem createDentries_dentries {dentryPool inodePool : Option Nat} {n i : Nat} {s t : PoolState}
    {ds ds' : List (Dentry φ)}
    (h : createDentries dentryPool inodePool chdevOps n i s ds = .ok (t, ds')) :
    ds' = ((List.range' i n).map (ttyDentry chdevOps)).reverse ++ ds := by
  induction n generalizing i s ds with
  | zero =>
    cases h
    rfl
  | succ n ih =>
    have hstep {inode : Option (Inode φ)} (u : PoolState)
        (hinode : inode = (ttyDentry chdevOps i).inode)
        (hrest : createDentries dentryPool inodePool chdevOps n (i + 1) u
          ({ name := (ttyDentry chdevOps i).name, inode } :: ds) = .ok (t, ds')) :
        ds' = ((List.range' i (n + 1)).map (ttyDentry chdevOps)).reverse ++ ds := by
      subst hinode
      rw [ih hrest, List.range'_succ, List.map_cons, List.reverse_cons, List.append_assoc]
      rfl
    rw [createDentries] at h
    obtain ⟨⟨x, u⟩, -, h⟩ := bind_ok.mp h
    dsimp only at h
    split at h
    · cases h
    split at h
    · next hi => exact hstep u (if_pos hi).symm h
    · next hi =>
      obtain ⟨⟨y, v⟩, -, h⟩ := bind_ok.mp h
      dsimp only at h
      split at h
      · cases h
      · exact hstep v (if_neg hi).symm h

theorem initFs_dentries {L : FsLayout} {dev : δ} {s : PoolState} {fs : FsState δ φ}
    (h : initFs L chdevOps dev s = .ok fs) :
    fs.dentries = ((List.range NR_TTY).map (ttyDentry chdevOps)).reverse := by
  obtain ⟨_, _, _, x, _, _, _, _, hcreate, rfl⟩ := initFs_made h
  rw [createDentries_dentries hcreate, List.append_nil, ← List.range_eq_range']

/-- No name is cut. -/
theorem ttyDentry_name {i : Nat} (hi : i < NR_TTY) :
    cstring (ttyDentry chdevOps i).name = ttyName i := by
  have h : ∀ i < NR_TTY, cstring (strncpy (List.replicate DENTRY_NAME_LENGTH 0) (ttyName i)
      DENTRY_NAME_LENGTH) = ttyName i := by decide
  exact h i hi

theorem ttyName_length {i : Nat} (hi : i < NR_TTY) : (ttyName i).length < DENTRY_NAME_LENGTH := by
  have h : ∀ i < NR_TTY, (ttyName i).length < DENTRY_NAME_LENGTH := by decide
  exact h i hi

theorem ttyName_inj {i j : Nat} (hi : i < NR_TTY) (hj : j < NR_TTY) (h : ttyName i = ttyName j) :
    i = j := by
  have hdistinct : ∀ i < NR_TTY, ∀ j < NR_TTY, ttyName i = ttyName j → i = j := by decide
  exact hdistinct i hi j hj h

/-- The search compares whole names. -/
theorem strncmp_ttyDentry {i : Nat} (hi : i < NR_TTY) (name : CString) :
    strncmp name (ttyDentry chdevOps i).name DENTRY_NAME_LENGTH = 0 ↔ cstring name = ttyName i := by
  have hlen := ttyName_length hi
  rw [strncmp_eq_zero_iff, ttyDentry_name hi, List.take_of_length_le (l := ttyName i) hlen.le]
  constructor
  · intro h
    have hshort := congrArg List.length h
    rw [List.length_take] at hshort
    rwa [List.take_of_length_le (by omega)] at h
  · intro h
    rw [h, List.take_of_length_le hlen.le]

/-! ## The calls keep the entries -/

variable {ops : φ → FileOps δ φ} {s t : FsState δ φ}

theorem allocFd_dentries {r : Int} {file : Option Ptr} (h : allocFd s = .ok (r, file, t)) :
    t.dentries = s.dentries := by
  obtain ⟨⟨x, p⟩, -, h⟩ := bind_ok.mp h
  dsimp only at h
  split at h
  · cases h
    rfl
  · cases h
    rfl

theorem findInode_dentries {file : Ptr} {name : CString} {r : Option (Inode φ)}
    (h : findInode s file name = .ok (r, t)) : t.dentries = s.dentries := by
  unfold findInode at h
  dsimp only at h
  split at h
  · cases h
    rfl
  · split at h
    · cases h
    · cases h
      rfl

theorem openFile_dentries {fd : Nat} {file : Ptr} {name : CString} {oflag : BitVec 32} {r : Int}
    (h : openFile ops s fd file name oflag = .ok (r, t)) : t.dentries = s.dentries := by
  obtain ⟨⟨inode, u⟩, hfind, h⟩ := bind_ok.mp h
  have hu := findInode_dentries hfind
  dsimp only at h
  split at h
  · cases h
    exact hu
  split at h
  · cases h
    exact hu
  split at h
  · cases h
    exact hu
  obtain ⟨⟨ret, v, dev⟩, -, h⟩ := bind_ok.mp h
  dsimp only at h
  split at h
  · cases h
    exact hu
  · cases h
    exact hu

theorem sysOpen_dentries {name : CString} {oflag : BitVec 32} {r : Int}
    (h : sysOpen ops s name oflag = .ok (r, t)) : t.dentries = s.dentries := by
  unfold sysOpen at h
  split at h
  · cases h
    rfl
  split at h
  · cases h
    rfl
  obtain ⟨⟨ret, file, u⟩, halloc, h⟩ := bind_ok.mp h
  have hu := allocFd_dentries halloc
  dsimp only at h
  split at h
  · cases h
    exact hu
  split at h
  · cases h
  · exact (openFile_dentries h).trans hu

theorem sysClose_dentries {fd : Int} {r : Int} (h : sysClose ops s fd = .ok (r, t)) :
    t.dentries = s.dentries := by
  unfold sysClose at h
  split at h
  · cases h
    rfl
  dsimp only at h
  split at h
  · cases h
    rfl
  split at h
  · cases h
    rfl
  split at h
  · cases h
    rfl
  obtain ⟨⟨ret, v, dev⟩, -, h⟩ := bind_ok.mp h
  dsimp only at h
  split at h
  · cases h
    rfl
  obtain ⟨u, hfree, h⟩ := bind_ok.mp h
  cases h
  unfold freeFd at hfree
  split at hfree
  · cases hfree
    rfl
  · obtain ⟨x, -, hfree⟩ := bind_ok.mp hfree
    cases hfree
    rfl

theorem copyFd_dentries {file : Ptr} {newfd : Nat} {r : Int}
    (h : copyFd s file newfd = .ok (r, t)) : t.dentries = s.dentries := by
  obtain ⟨⟨ret, newfile, u⟩, halloc, h⟩ := bind_ok.mp h
  have hu := allocFd_dentries halloc
  dsimp only at h
  split at h
  · cases h
    exact hu
  split at h
  · cases h
  · cases h
    exact hu

theorem dupfd_dentries {fd newfd : Int} {r : Int} (h : dupfd ops s fd newfd = .ok (r, t)) :
    t.dentries = s.dentries := by
  unfold dupfd at h
  split at h
  · cases h
    rfl
  split at h
  · cases h
    rfl
  dsimp only at h
  split at h
  · cases h
    rfl
  split at h
  · obtain ⟨⟨ret, u⟩, hclose, h⟩ := bind_ok.mp h
    exact (copyFd_dentries h).trans (sysClose_dentries hclose)
  split at h
  · cases h
    rfl
  · exact copyFd_dentries h

theorem fsStep_dentries {op : FsOp} (h : fsStep ops s op = .ok t) : t.dentries = s.dentries := by
  obtain ⟨r, hcall⟩ := fsStep_ok h
  cases op with
  | sysOpen name oflag => exact sysOpen_dentries hcall
  | sysClose fd => exact sysClose_dentries hcall
  | sysDup fd => exact dupfd_dentries hcall
  | sysDup2 fd newfd => exact dupfd_dentries hcall

/-! ## The search -/

/-- The call comes back with the inode and the operations of the entry of that name, or, where there
is no such entry, with `NULL` and no operations. -/
def FindsInode (s : FsState δ φ) (file : Ptr) (name : CString) : Prop :=
  ∃ r t, findInode s file name = .ok (r, t) ∧
    ((∃ dentry inode, dentry ∈ s.dentries ∧ cstring dentry.name = cstring name ∧
        dentry.inode = some inode ∧ r = some inode ∧ (t.fileAt file).fops = inode.fops) ∨
      (∀ dentry ∈ s.dentries, cstring dentry.name ≠ cstring name) ∧ r = none ∧
        (t.fileAt file).fops = none)

theorem findsInode_of_dentries (h : s.dentries = ((List.range NR_TTY).map (ttyDentry chdevOps)).reverse)
    (file : Ptr) (name : CString) : FindsInode s file name ↔ cstring name ≠ ttyName 0 := by
  have hmem {d : Dentry φ} : d ∈ s.dentries ↔ ∃ i < NR_TTY, ttyDentry chdevOps i = d := by
    rw [h, List.mem_reverse, List.mem_map]
    simp only [List.mem_range]
  unfold FindsInode findInode
  dsimp only
  rw [findDentry_setFile]
  cases hfind : findDentry s name with
  | none =>
    have hnone : ∀ i < NR_TTY, cstring name ≠ ttyName i := by
      intro i hi heq
      have hsearch := List.find?_eq_none.mp hfind _ (hmem.mpr ⟨i, hi, rfl⟩)
      exact hsearch (decide_eq_true ((strncmp_ttyDentry hi name).mpr heq))
    refine iff_of_true ⟨_, _, rfl, Or.inr ⟨?_, rfl, ?_⟩⟩ (hnone 0 (by decide))
    · intro d hd
      obtain ⟨i, hi, rfl⟩ := hmem.mp hd
      rw [ttyDentry_name hi]
      exact (hnone i hi).symm
    · rw [FsState.setFile_fileAt_self]
  | some d =>
    obtain ⟨i, hi, rfl⟩ := hmem.mp (List.mem_of_find?_eq_some hfind)
    have hcmp : strncmp name (ttyDentry chdevOps i).name DENTRY_NAME_LENGTH = 0 := by
      simpa using List.find?_some hfind
    have hname := (strncmp_ttyDentry hi name).mp hcmp
    by_cases h0 : i = 0
    · -- The entry of `/dev/tty0` has no inode, and the source reads through it.
      subst h0
      refine iff_of_false ?_ (not_not_intro hname)
      rintro ⟨r, t, hcall, -⟩
      cases hcall
    · have hinode : (ttyDentry chdevOps i).inode =
          some (Inode.mk MODE_CHRDEV (mkdev TTY_MAJOR i) (some chdevOps)) := if_neg h0
      refine iff_of_true ?_ fun h => h0 (ttyName_inj hi (by decide) (hname.symm.trans h))
      dsimp only
      rw [hinode]
      refine ⟨_, _, rfl, Or.inl ⟨_, _, hmem.mpr ⟨i, hi, rfl⟩, ?_, hinode, rfl, ?_⟩⟩
      · rw [ttyDentry_name hi, hname]
      · rw [FsState.setFile_fileAt_self]

/-- From `init_fs` on the search finds what the directory says of a name, exactly when the name is
not the one of the entry without an inode. -/
theorem findsInode_iff (ops : φ → FileOps δ φ) {L : FsLayout} {dev : δ} {p : PoolState}
    {fs s : FsState δ φ} {calls : List FsOp} (hinit : initFs L chdevOps dev p = .ok fs)
    (hrun : run (fsStep ops) fs calls = .ok s) (file : Ptr) (name : CString) :
    FindsInode s file name ↔ cstring name ≠ ttyName 0 := by
  have hkeep : s.dentries = fs.dentries :=
    invariant_reached (fun _ _ _ hs hstep => (fsStep_dentries hstep).trans hs) rfl
      (Reaches.of_run hrun)
  exact findsInode_of_dentries (hkeep.trans (initFs_dentries hinit)) file name

end FindInode

/-- A run of opens that ends with a name of each kind looked up. -/
theorem findsInode_iff_share :
    ∃ fs s, initFs plainLayout () () (initPool (.bss fun _ => 0)) = .ok fs ∧
      run (fsStep plainOps) fs shareCalls = .ok s ∧
      FindsInode s 0xC0130000 tty1 ∧ FindsInode s 0xC0130000 (text ['x']) := by
  obtain ⟨fs, hinit, s, hrun, -⟩ : ∃ fs, initFs plainLayout () () (initPool (.bss fun _ => 0)) = .ok fs ∧
      ∃ s, run (fsStep plainOps) fs shareCalls = .ok s ∧ True := by decide +kernel
  have hiff := findsInode_iff plainOps hinit hrun 0xC0130000
  exact ⟨fs, s, hinit, hrun, (hiff tty1).mpr (by decide), (hiff (text ['x'])).mpr (by decide)⟩

/-- The first of the registered names. -/
theorem tty0_without_inode :
    ∃ fs, initFs plainLayout () () (initPool (.bss fun _ => 0)) = .ok fs ∧
      (∃ dentry ∈ fs.dentries, cstring dentry.name = ttyName 0) ∧
      ¬ FindsInode fs 0xC0130000 (ttyName 0) := by
  obtain ⟨fs, hinit, -⟩ : ∃ fs, initFs plainLayout () () (initPool (.bss fun _ => 0)) = .ok fs ∧
      True := by decide +kernel
  have hds := initFs_dentries hinit
  refine ⟨fs, hinit, ⟨ttyDentry () 0, ?_, ttyDentry_name (by decide)⟩, fun h => ?_⟩
  · rw [hds, List.mem_reverse, List.mem_map]
    exact ⟨0, by decide, rfl⟩
  · exact (findsInode_of_dentries hds _ _).mp h (by decide)

end Ohwes

import Ohwes.Kernel.Open
import Ohwes.Kernel.PoolArea
import Ohwes.Library.ReferenceTable

/-! # Descriptors and the file pool

`Bijection` says that the descriptor table and the allocated file structs match one to one. The
system calls keep it, and leave both alone when they fail, except on the paths that go on after
`alloc_fd` has taken a struct: an unknown name, missing operations or a failing open function in
`sys_open`, and a descriptor that does not close in `dup2`. `NoLeak` is the condition that a call
takes none of these; `descriptors_exact_iff` says that it is the exact one. -/

namespace Ohwes
set_option autoImplicit false
open Library

section Files
variable {δ φ : Type}

/-- The items of a pool whose chunk holds an address. -/
def poolItems (s : PoolState) (p : Nat) : List Ptr :=
  match (s.pools p).chunkBase with
  | none => []
  | some base => heldItems s (List.range' base (s.pools p).capacity.toNat)

def allocatedFiles (s : FsState δ φ) : List Ptr :=
  match s.filePool with
  | none => []
  | some p => poolItems s.pool p

/-- Every allocated file is in exactly one slot of the table, and every slot that is not `NULL`
refers to an allocated file. -/
def Bijection (s : FsState δ φ) : Prop := Exact MAX_OPEN 0 s.files (allocatedFiles s)

/-! ## The file pool -/

/-- The file pool is sound: its chunks are consecutive and `live` are the files it has handed out. -/
def FilePoolOk (a : Area) (s : FsState δ φ) (live : List Ptr) : Prop :=
  ∃ p cs, s.filePool = some p ∧ Consecutive cs ∧ ItemsOk a p cs { s := s.pool, live := live }

theorem ItemsOk.poolItems_perm {a : Area} {p : Nat} {cs : List Nat} {w : ItemWorld}
    (hw : ItemsOk a p cs w) (hf : a.Fits) (hcons : Consecutive cs) :
    (poolItems w.s p).Perm w.live := by
  obtain ⟨free, hok⟩ := hw.pool
  obtain ⟨base, hcs, _, hbase⟩ := hok.consecutive_base hcons
  have hpos : 0 < (w.s.pools p).capacity.toNat := by
    rw [hw.geometry.2.2]
    exact hf.capacity
  rw [poolItems, hbase hpos]
  dsimp only
  rw [← hok.length, ← hcs]
  exact hw.live.symm

variable {a : Area} {s : FsState δ φ} {live : List Ptr}

theorem FilePoolOk.perm (h : FilePoolOk a s live) (hf : a.Fits) : (allocatedFiles s).Perm live := by
  obtain ⟨p, cs, hp, hcons, hw⟩ := h
  rw [allocatedFiles, hp]
  exact hw.poolItems_perm hf hcons

/-- The live file structs are those that the pool has handed out. -/
theorem FilePoolOk.own (h : FilePoolOk a s live) (hf : a.Fits) :
    FilePoolOk a s (allocatedFiles s) := by
  have hperm := h.perm hf
  obtain ⟨p, cs, hp, hcons, hw⟩ := h
  exact ⟨p, cs, hp, hcons, hw.geometry, hw.pool, hperm.trans hw.live⟩

theorem FilePoolOk.congr {t : FsState δ φ} (h : FilePoolOk a s live) (hpool : t.pool = s.pool)
    (hp : t.filePool = s.filePool) : FilePoolOk a t live := by
  obtain ⟨p, cs, hp', hcons, hw⟩ := h
  exact ⟨p, cs, hp.trans hp', hcons, by rw [hpool]; exact hw⟩

theorem allocatedFiles_congr {t : FsState δ φ} (hpool : t.pool = s.pool)
    (hp : t.filePool = s.filePool) : allocatedFiles t = allocatedFiles s := by
  rw [allocatedFiles, allocatedFiles, hpool, hp]

theorem FilePoolOk.nodup (h : FilePoolOk a s live) (hf : a.Fits) : live.Nodup := by
  obtain ⟨p, cs, _, _, hw⟩ := h
  exact hw.live_nodup hf

theorem FilePoolOk.null_notMem (h : FilePoolOk a s live) (hf : a.Fits) : 0 ∉ live := by
  obtain ⟨p, cs, _, _, hw⟩ := h
  intro h0
  exact (hw.live_inside hf h0).1 rfl

/-- The file struct `alloc_fd` hands out next. -/
def nextFile (s : FsState δ φ) : Ptr :=
  match s.filePool with
  | none => 0
  | some p =>
    match (s.pool.pools p).alloc with
    | .chunk c => itemAddr s.pool p (s.pool.chunks c).index
    | _ => 0

/-- `alloc_fd` with room in the pool: a fresh, zeroed file struct. -/
theorem allocFd_ok (h : FilePoolOk a s live) (hf : a.Fits) (hroom : live.length < a.capacity.toNat) :
    ∃ t, allocFd s = .ok (0, some (nextFile s), t) ∧ nextFile s ≠ 0 ∧ nextFile s ∉ live ∧
      FilePoolOk a t (nextFile s :: live) ∧ t.files = s.files ∧ t.dentries = s.dentries ∧
      t.dev = s.dev ∧ t.fileAt = Function.update s.fileAt (nextFile s) File.zero := by
  obtain ⟨p, cs, hp, hcons, hw⟩ := h
  obtain ⟨free, hok⟩ := hw.pool
  cases free with
  | nil =>
    have := (hw.full_iff hf hok).mpr rfl
    dsimp only at this
    omega
  | cons c free =>
    obtain ⟨i, hi⟩ := List.getElem?_of_mem (hok.freeSub c (List.mem_cons_self ..))
    have hnext : nextFile s = itemAddr s.pool p i := by
      rw [nextFile, hp]
      dsimp only
      rw [hok.alloc c rfl]
      dsimp only
      rw [hok.index i c hi]
    have hslot : a.IsSlot (itemAddr s.pool p i) i := hw.slot hf hi
    have h0 := hslot.ne_zero hw.base_ne_zero
    have hfresh : itemAddr s.pool p i ∉ live := by
      intro hm
      obtain ⟨j, d, hj, hused, heq⟩ := hw.mem_live hok hm
      have hij : i ≠ j := by
        rintro rfl
        rw [hi] at hj
        exact hused (Option.some.inj hj ▸ List.mem_cons_self ..)
      have hpos := hf.itemSize
      have hdis := hslot.disjoint (hw.slot hf hj) hij
      rw [← heq] at hdis
      omega
    have hw' := hw.alloc hf hok hi
    rw [hnext]
    have halloc : allocFd s = .ok (0, some (itemAddr s.pool p i),
        ({ s with pool := allocChunk s.pool p c }.setFile (itemAddr s.pool p i) File.zero)) := by
      simp only [allocFd, hp, hok.poolAlloc_cons hi, ok_bind, h0, if_false]
    exact ⟨_, halloc, h0, hfresh, ⟨p, cs, hp, hcons, hw'⟩, rfl, rfl, rfl, rfl⟩

/-- `free_fd` of an allocated file. -/
theorem freeFd_ok (h : FilePoolOk a s live) (hf : a.Fits) {x : Ptr} (hx : x ∈ live) :
    ∃ t, freeFd s x = .ok t ∧ FilePoolOk a t (live.erase x) ∧ t.files = s.files := by
  obtain ⟨p, cs, hp, hcons, hw⟩ := h
  obtain ⟨_, t, ht, hw'⟩ | ⟨hn, _⟩ := hw.free_cases hf hcons (x := x) (Or.inl hx)
  · have h0 := (hw.live_inside hf hx).1
    have hfree : freeFd s x = .ok { s with pool := t } := by
      rw [freeFd, if_neg h0, hp, ht]
      rfl
    exact ⟨_, hfree, ⟨p, cs, hp, hcons, hw'⟩, rfl⟩
  · exact absurd hx hn

/-! ## The calls -/

inductive FsOp where
  | sysOpen (name : CString) (oflag : BitVec 32)
  | sysClose (fd : Int)
  | sysDup (fd : Int)
  | sysDup2 (fd newfd : Int)

variable (ops : φ → FileOps δ φ)

def fsCall (s : FsState δ φ) : FsOp → Call (Int × FsState δ φ)
  | .sysOpen name oflag => sysOpen ops s name oflag
  | .sysClose fd => sysClose ops s fd
  | .sysDup fd => sysDup ops s fd
  | .sysDup2 fd newfd => sysDup2 ops s fd newfd

def fsStep (s : FsState δ φ) (op : FsOp) : Call (FsState δ φ) := (fsCall ops s op).map Prod.snd

/-- The call comes back with table and pool in bijection, and if it returns an error, with both as
they were. -/
def CallExact (s : FsState δ φ) (op : FsOp) : Prop :=
  ∃ r t, fsCall ops s op = .ok (r, t) ∧ Bijection t ∧
    (r < 0 → (∀ fd, t.files fd = s.files fd) ∧ ∀ x, x ∈ allocatedFiles t ↔ x ∈ allocatedFiles s)

/-- A function of a driver was there, came back, and returned no error. -/
def succeeds {β : Type} : Option (Call (Int × β)) → Bool
  | some (.ok x) => 0 ≤ x.1
  | _ => false

/-- What the open function that a directory entry leads to does, if there is one. -/
def driverOpen (dentry : Option (Dentry φ)) (file : Ptr) (oflag : BitVec 32) (dev : δ) :
    Option (Call (Int × File φ × δ)) := do
  let dentry ← dentry
  let inode ← dentry.inode
  let fops ← inode.fops
  let openFn ← (ops fops).openFn
  some (openFn inode file { File.zero with oflag, fops := some fops } dev)

/-- What the open function that `name` leads to does. -/
def openResult (s : FsState δ φ) (name : CString) (oflag : BitVec 32) :
    Option (Call (Int × File φ × δ)) :=
  driverOpen ops (findDentry s name) (nextFile s) oflag s.dev

/-- What the close function of the file at `fd` does, if there is one. -/
def closeResult (s : FsState δ φ) (fd : Int) : Option (Call (Int × File φ × δ)) := do
  let fops ← (s.fileAt (s.files fd.toNat)).fops
  let closeFn ← (ops fops).closeFn
  some (closeFn (s.files fd.toNat) (s.fileAt (s.files fd.toNat)) s.dev)

/-- The call does not take a path on which a file struct is lost. -/
def NoLeak (s : FsState δ φ) : FsOp → Prop
  | .sysOpen name oflag =>
    badMode oflag = true ∨ findNextFd s = none ∨ succeeds (openResult ops s name oflag) = true
  | .sysClose _ => True
  | .sysDup _ => True
  | .sysDup2 fd newfd =>
    validFd fd = true → validFd newfd = true → s.files fd.toNat ≠ 0 → newfd ≠ 0 →
      s.files newfd.toNat ≠ 0 → succeeds (closeResult ops s newfd) = true

instance decidableNoLeak (s : FsState δ φ) : (op : FsOp) → Decidable (NoLeak ops s op)
  | .sysOpen name oflag => inferInstanceAs (Decidable (badMode oflag = true ∨
      findNextFd s = none ∨ succeeds (openResult ops s name oflag) = true))
  | .sysClose _ | .sysDup _ => .isTrue trivial
  | .sysDup2 fd newfd => inferInstanceAs (Decidable (validFd fd = true → validFd newfd = true →
      s.files fd.toNat ≠ 0 → newfd ≠ 0 → s.files newfd.toNat ≠ 0 →
      succeeds (closeResult ops s newfd) = true))

/-- Close functions come back. -/
def CloseReturns : Prop :=
  ∀ f closeFn, (ops f).closeFn = some closeFn → ∀ file v dev, ∃ x, closeFn file v dev = .ok x

/-- The invariant: table and pool are in bijection, and the pool is sound. -/
structure FilesOk (a : Area) (s : FsState δ φ) : Prop where
  pool : FilePoolOk a s (allocatedFiles s)
  table : Bijection s

/-- `t` has the descriptors and files of `s`. -/
structure SameFiles (s t : FsState δ φ) : Prop where
  pool : t.pool = s.pool
  filePool : t.filePool = s.filePool
  files : t.files = s.files

section Steps
variable {ops} {t : FsState δ φ}

theorem FilePoolOk.exact (h : FilePoolOk a t live) (hf : a.Fits)
    (htable : Exact MAX_OPEN 0 t.files live) : FilesOk a t where
  pool := h.own hf
  table := htable.congr (fun _ => rfl) fun _ => (h.perm hf).mem_iff

theorem FilesOk.congr (h : FilesOk a s) (hst : SameFiles s t) : FilesOk a t where
  pool := by
    rw [allocatedFiles_congr hst.pool hst.filePool]
    exact h.pool.congr hst.pool hst.filePool
  table := by
    unfold Bijection
    rw [allocatedFiles_congr hst.pool hst.filePool, hst.files]
    exact h.table

theorem FilesOk.room (h : FilesOk a s) (hf : a.Fits) (hcap : MAX_OPEN < a.capacity.toNat) :
    (allocatedFiles s).length < a.capacity.toNat :=
  Nat.lt_of_le_of_lt (h.table.length_le (h.pool.nodup hf)) hcap

/-- A call that leaves everything as it was is exact. -/
theorem FilesOk.callExact_of_same (h : FilesOk a s) {op : FsOp} {r : Int}
    (hcall : fsCall ops s op = .ok (r, t)) (hst : SameFiles s t) :
    CallExact ops s op ∧ ∀ r' t', fsCall ops s op = .ok (r', t') → FilesOk a t' := by
  refine ⟨⟨r, t, hcall, (h.congr hst).table, fun _ => ⟨fun fd => by rw [hst.files], fun x => ?_⟩⟩,
    fun r' t' ht => ?_⟩
  · rw [allocatedFiles_congr hst.pool hst.filePool]
  · rw [hcall] at ht
    cases ht
    exact h.congr hst

/-- A successful call into a state of the invariant is exact. -/
theorem callExact_of_ok {op : FsOp} {r : Int} (hcall : fsCall ops s op = .ok (r, t)) (hr : 0 ≤ r)
    (ht : FilesOk a t) :
    CallExact ops s op ∧ ∀ r' t', fsCall ops s op = .ok (r', t') → FilesOk a t' := by
  refine ⟨⟨r, t, hcall, ht.table, fun hneg => absurd hneg (by omega)⟩, fun r' t' ht' => ?_⟩
  rw [hcall] at ht'
  cases ht'
  exact ht

theorem exact_iff_of_noLeak {op : FsOp} (hn : NoLeak ops s op)
    (h : CallExact ops s op ∧ ∀ r t, fsCall ops s op = .ok (r, t) → FilesOk a t) :
    (CallExact ops s op ↔ NoLeak ops s op) ∧
      (NoLeak ops s op → ∀ r t, fsCall ops s op = .ok (r, t) → FilesOk a t) :=
  ⟨⟨fun _ => hn, fun _ => h.1⟩, fun _ => h.2⟩

theorem exact_iff_of_leak {op : FsOp} (hn : ¬ NoLeak ops s op) (hx : ¬ CallExact ops s op) :
    (CallExact ops s op ↔ NoLeak ops s op) ∧
      (NoLeak ops s op → ∀ r t, fsCall ops s op = .ok (r, t) → FilesOk a t) :=
  ⟨⟨fun h => absurd h hx, fun h => absurd h hn⟩, fun h => absurd h hn⟩

theorem findNextFd_some {fd : Nat} (h : findNextFd s = some fd) : fd < MAX_OPEN ∧ s.files fd = 0 := by
  have h1 := List.mem_of_find?_eq_some h
  have h2 := List.find?_some h
  exact ⟨List.mem_range.mp h1, by simpa using h2⟩

/-! ### `sys_open` -/

/-- With a zeroed file struct in hand: the call gives it a descriptor if the driver opens the device,
and else comes back, if it does, with an error and the struct still allocated. -/
theorem openFile_cases (ops : φ → FileOps δ φ) (fd : Nat) (file : Ptr) (name : CString)
    (oflag : BitVec 32) (hz : t.fileAt file = File.zero) :
    (succeeds (driverOpen ops (findDentry t name) file oflag t.dev) = true ∧
      ∃ u, openFile ops t fd file name oflag = .ok ((fd : Int), u) ∧ SameFiles (t.setFd fd file) u) ∨
    (succeeds (driverOpen ops (findDentry t name) file oflag t.dev) = false ∧
      ∀ r u, openFile ops t fd file name oflag = .ok (r, u) → r < 0 ∧ SameFiles t u) := by
  unfold openFile findInode
  simp only [findDentry_setFile, hz, FsState.setFile_fileAt_self]
  cases hdentry : findDentry t name with
  | none =>
    refine Or.inr ⟨rfl, fun r u h => ?_⟩
    cases h
    exact ⟨by decide, rfl, rfl, rfl⟩
  | some dentry =>
    dsimp only
    cases hinode : dentry.inode with
    | none =>
      refine Or.inr ⟨by simp [driverOpen, hinode, succeeds], fun r u h => ?_⟩
      cases h
    | some inode =>
      simp only [ok_bind, FsState.setFile_fileAt_self, FsState.setFile_dev]
      cases hfops : inode.fops with
      | none =>
        refine Or.inr ⟨by simp [driverOpen, hinode, hfops, succeeds], fun r u h => ?_⟩
        cases h
        exact ⟨by decide, rfl, rfl, rfl⟩
      | some fops =>
        dsimp only
        cases hopen : (ops fops).openFn with
        | none =>
          refine Or.inr ⟨by simp [driverOpen, hinode, hfops, hopen, succeeds], fun r u h => ?_⟩
          cases h
          exact ⟨by decide, rfl, rfl, rfl⟩
        | some openFn =>
          dsimp only
          have hres : driverOpen ops (some dentry) file oflag t.dev =
              some (openFn inode file { File.zero with oflag, fops := some fops } t.dev) := by
            simp [driverOpen, hinode, hfops, hopen]
          rw [hres]
          cases hret : openFn inode file { File.zero with oflag, fops := some fops } t.dev with
          | error e =>
            refine Or.inr ⟨rfl, fun r u h => ?_⟩
            cases h
          | ok x =>
            obtain ⟨ret, v, dev⟩ := x
            by_cases hneg : ret < 0
            · refine Or.inr ⟨by simp [succeeds]; omega, fun r u h => ?_⟩
              simp only [ok_bind, if_pos hneg] at h
              cases h
              exact ⟨hneg, rfl, rfl, rfl⟩
            · refine Or.inl ⟨by simp [succeeds]; omega, ?_⟩
              simp only [ok_bind, if_neg hneg]
              exact ⟨_, rfl, rfl, rfl, rfl⟩
/-- An allocated file without a descriptor is a leak. -/
theorem FilePoolOk.leak (h : FilePoolOk a t (nextFile s :: live)) (hf : a.Fits)
    (hfresh : nextFile s ∉ allocatedFiles s) {u : FsState δ φ} (hsame : SameFiles t u) :
    ¬ ∀ x, x ∈ allocatedFiles u ↔ x ∈ allocatedFiles s := by
  intro hall
  have hmem : nextFile s ∈ allocatedFiles u := by
    rw [allocatedFiles_congr hsame.pool hsame.filePool, (h.perm hf).mem_iff]
    exact List.mem_cons_self ..
  exact hfresh ((hall _).mp hmem)

theorem FilesOk.open_iff (h : FilesOk a s) (hf : a.Fits) (hcap : MAX_OPEN < a.capacity.toNat)
    {name : CString} {oflag : BitVec 32} :
    (CallExact ops s (.sysOpen name oflag) ↔ NoLeak ops s (.sysOpen name oflag)) ∧
      (NoLeak ops s (.sysOpen name oflag) →
        ∀ r t, fsCall ops s (.sysOpen name oflag) = .ok (r, t) → FilesOk a t) := by
  by_cases hmode : badMode oflag = true
  · have hcall : fsCall ops s (.sysOpen name oflag) = .ok (-EINVAL, s) := by
      simp only [fsCall, sysOpen, hmode, if_true]
    exact exact_iff_of_noLeak (Or.inl hmode) (h.callExact_of_same hcall ⟨rfl, rfl, rfl⟩)
  cases hfd : findNextFd s with
  | none =>
    have hcall : fsCall ops s (.sysOpen name oflag) = .ok (-ENFILE, s) := by
      simp only [fsCall, sysOpen, hmode, hfd, Bool.false_eq_true, if_false]
    exact exact_iff_of_noLeak (Or.inr (Or.inl hfd)) (h.callExact_of_same hcall ⟨rfl, rfl, rfl⟩)
  | some fd =>
    obtain ⟨t, halloc, h0, hfresh, hpool, hfiles, hd, hdev, hz⟩ :=
      allocFd_ok h.pool hf (h.room hf hcap)
    obtain ⟨hlt, hempty⟩ := findNextFd_some hfd
    have hcall : fsCall ops s (.sysOpen name oflag) = openFile ops t fd (nextFile s) name oflag := by
      have hne : ¬ (0 : Int) = ENOMEM := by decide
      simp only [fsCall, sysOpen, hmode, hfd, Bool.false_eq_true, if_false, halloc, ok_bind, hne]
    have hres : openResult ops s name oflag =
        driverOpen ops (findDentry t name) (nextFile s) oflag t.dev := by
      rw [openResult, hdev, findDentry, findDentry, hd]
    have hzero : t.fileAt (nextFile s) = File.zero := by rw [hz, Function.update_self]
    obtain ⟨hsucc, u, hu, hsame⟩ | ⟨hfail, hall⟩ :=
        openFile_cases ops fd (nextFile s) name oflag hzero
    · have hnl : NoLeak ops s (.sysOpen name oflag) := Or.inr (Or.inr (hres ▸ hsucc))
      have hok : FilesOk a u := by
        refine FilesOk.congr ?_ hsame
        refine FilePoolOk.exact (hpool.congr rfl rfl) hf ?_
        show Exact MAX_OPEN 0 (Function.update t.files fd (nextFile s)) _
        rw [hfiles]
        exact h.table.fill hlt hempty (h.pool.null_notMem hf) h0 hfresh
      exact exact_iff_of_noLeak hnl (callExact_of_ok (hcall.trans hu) (by omega) hok)
    · have hnl : ¬ NoLeak ops s (.sysOpen name oflag) := by
        rintro (hm | hn | hs)
        · exact hmode hm
        · rw [hfd] at hn
          cases hn
        · rw [hres, hfail] at hs
          cases hs
      refine exact_iff_of_leak hnl ?_
      rintro ⟨r, u, hu, _, herr⟩
      rw [hcall] at hu
      obtain ⟨hneg, hsame⟩ := hall r u hu
      exact absurd (herr hneg).2 (hpool.leak hf hfresh hsame)

/-! ### `sys_close` -/

theorem validFd_lt {fd : Int} (h : validFd fd = true) : 0 ≤ fd ∧ fd.toNat < MAX_OPEN := by
  simp only [validFd, Bool.and_eq_true, decide_eq_true_eq] at h
  omega

theorem sysClose_unused {fd : Int} (h : validFd fd = true → s.files fd.toNat = 0) :
    sysClose ops s fd = .ok (-EBADF, s) := by
  unfold sysClose
  by_cases hv : validFd fd = true
  · simp only [hv, h hv, Bool.not_true, Bool.false_eq_true, if_false, if_true]
  · exact if_pos (by simpa using hv)

section InUse
variable {fd : Int} (hv : validFd fd = true) (h0 : s.files fd.toNat ≠ 0)
include hv h0

theorem sysClose_none (hres : closeResult ops s fd = none) : sysClose ops s fd = .ok (-ENOSYS, s) := by
  unfold sysClose
  simp only [hv, h0, Bool.not_true, Bool.false_eq_true, if_false]
  cases hfops : (s.fileAt (s.files fd.toNat)).fops with
  | none => rfl
  | some fops =>
    dsimp only
    cases hclose : (ops fops).closeFn with
    | none => rfl
    | some closeFn => simp [closeResult, hfops, hclose] at hres

/-- A file with a close function is closed as that function says. -/
theorem sysClose_eq {x : Call (Int × File φ × δ)} (hres : closeResult ops s fd = some x) :
    sysClose ops s fd = x >>= fun r =>
      let t := { s.setFile (s.files fd.toNat) r.2.1 with dev := r.2.2 }
      if r.1 < 0 then .ok (r.1, t)
      else freeFd t (s.files fd.toNat) >>= fun t => .ok (r.1, t.setFd fd.toNat 0) := by
  rw [closeResult] at hres
  obtain ⟨fops, hfops, hres⟩ := Option.bind_eq_some_iff.mp hres
  obtain ⟨closeFn, hclose, hres⟩ := Option.bind_eq_some_iff.mp hres
  obtain rfl := Option.some.inj hres
  unfold sysClose
  simp only [hv, h0, hfops, hclose, Bool.not_true, Bool.false_eq_true, if_false]

end InUse

theorem CloseReturns.closeResult (hret : CloseReturns ops) {fd : Int} {x : Call (Int × File φ × δ)}
    (h : closeResult ops s fd = some x) : ∃ r, x = .ok r := by
  rw [Ohwes.closeResult] at h
  obtain ⟨fops, -, h⟩ := Option.bind_eq_some_iff.mp h
  obtain ⟨closeFn, hclose, h⟩ := Option.bind_eq_some_iff.mp h
  obtain ⟨r, hr⟩ := hret fops closeFn hclose (s.files fd.toNat) (s.fileAt (s.files fd.toNat)) s.dev
  exact ⟨r, (Option.some.inj h).symm.trans hr⟩

/-- What `sys_close` does: nothing, with an error, or it drops the descriptor and its file. -/
theorem FilesOk.sysClose_cases (h : FilesOk a s) (hf : a.Fits) (hret : CloseReturns ops) (fd : Int) :
    ∃ r t, sysClose ops s fd = .ok (r, t) ∧
      ((SameFiles s t ∧ r < 0 ∧ (validFd fd = true → s.files fd.toNat ≠ 0 →
          succeeds (closeResult ops s fd) = false)) ∨
        (0 ≤ r ∧ validFd fd = true ∧ s.files fd.toNat ≠ 0 ∧
          succeeds (closeResult ops s fd) = true ∧
          FilePoolOk a t ((allocatedFiles s).erase (s.files fd.toNat)) ∧
          t.files = Function.update s.files fd.toNat 0)) := by
  by_cases hunused : validFd fd = true → s.files fd.toNat = 0
  · exact ⟨-EBADF, s, sysClose_unused hunused,
      Or.inl ⟨⟨rfl, rfl, rfl⟩, by decide, fun hv h0 => absurd (hunused hv) h0⟩⟩
  obtain ⟨hv, h0⟩ := Classical.not_imp.mp hunused
  cases hres : closeResult ops s fd with
  | none =>
    exact ⟨-ENOSYS, s, sysClose_none hv h0 hres, Or.inl ⟨⟨rfl, rfl, rfl⟩, by decide, fun _ _ => rfl⟩⟩
  | some x =>
    obtain ⟨⟨ret, v, dev⟩, rfl⟩ := hret.closeResult hres
    rw [sysClose_eq hv h0 hres, ok_bind]
    simp only [succeeds]
    by_cases hneg : ret < 0
    · refine ⟨ret, _, if_pos hneg, Or.inl ⟨⟨rfl, rfl, rfl⟩, hneg, fun _ _ => ?_⟩⟩
      simp only [decide_eq_false_iff_not]
      omega
    · have hmem := h.table.allocated fd.toNat (validFd_lt hv).2 h0
      let s' := { s.setFile (s.files fd.toNat) v with dev := dev }
      have hpool : FilePoolOk a s' (allocatedFiles s) := h.pool.congr rfl rfl
      obtain ⟨t, ht, hpool', hfiles⟩ := freeFd_ok hpool hf hmem
      refine ⟨ret, t.setFd fd.toNat 0, ?_, Or.inr ⟨by omega, hv, h0, ?_, hpool'.congr rfl rfl, ?_⟩⟩
      · rw [if_neg hneg, ht]
        rfl
      · simp only [decide_eq_true_eq]
        omega
      · show Function.update t.files fd.toNat 0 = _
        rw [hfiles]
        rfl

theorem FilesOk.close_iff (h : FilesOk a s) (hf : a.Fits) (hret : CloseReturns ops) (fd : Int) :
    CallExact ops s (.sysClose fd) ∧
      ∀ r t, fsCall ops s (.sysClose fd) = .ok (r, t) → FilesOk a t := by
  obtain ⟨r, t, hcall, ⟨hsame, _, _⟩ | ⟨hr, hv, h0, _, hpool, hfiles⟩⟩ := h.sysClose_cases hf hret fd
  · exact h.callExact_of_same (show fsCall ops s (.sysClose fd) = _ from hcall) hsame
  · have hdrop := h.table.drop (validFd_lt hv).2 h0 (h.pool.null_notMem hf) (h.pool.nodup hf)
    have hok : FilesOk a t := hpool.exact hf (hfiles ▸ hdrop)
    exact callExact_of_ok (show fsCall ops s (.sysClose fd) = _ from hcall) hr hok

/-! ### `sys_dup` and `sys_dup2` -/

/-- A copy takes a new file struct and overwrites the slot. -/
theorem FilesOk.copyFd_ok (h : FilesOk a s) (hf : a.Fits) (hcap : MAX_OPEN < a.capacity.toNat)
    (file : Ptr) (newfd : Nat) :
    ∃ u, copyFd s file newfd = .ok ((newfd : Int), u) ∧
      FilePoolOk a u (nextFile s :: allocatedFiles s) ∧ nextFile s ≠ 0 ∧
      nextFile s ∉ allocatedFiles s ∧ u.files = Function.update s.files newfd (nextFile s) := by
  obtain ⟨t, halloc, h0, hfresh, hpool, hfiles, _⟩ := allocFd_ok h.pool hf (h.room hf hcap)
  have hne : ¬ (0 : Int) = ENOMEM := by decide
  refine ⟨(t.setFile (nextFile s) (t.fileAt file)).setFd newfd (nextFile s), ?_,
    hpool.congr rfl rfl, h0, hfresh, ?_⟩
  · simp only [copyFd, halloc, ok_bind, if_neg hne]
  · rw [← hfiles]
    rfl

/-- Into an empty slot the copy is exact. -/
theorem FilesOk.copyFd_exact (h : FilesOk a s) (hf : a.Fits) (hcap : MAX_OPEN < a.capacity.toNat)
    (file : Ptr) {newfd : Nat} (hlt : newfd < MAX_OPEN) (hempty : s.files newfd = 0) :
    ∃ u, copyFd s file newfd = .ok ((newfd : Int), u) ∧ FilesOk a u := by
  obtain ⟨u, hu, hpool, h0, hfresh, hfiles⟩ := h.copyFd_ok hf hcap file newfd
  refine ⟨u, hu, hpool.exact hf ?_⟩
  rw [hfiles]
  exact h.table.fill hlt hempty (h.pool.null_notMem hf) h0 hfresh

/-- Over a descriptor that is still open the copy loses its file. -/
theorem FilesOk.copyFd_leak (h : FilesOk a s) (hf : a.Fits) (hcap : MAX_OPEN < a.capacity.toNat)
    (file : Ptr) {newfd : Nat} (hlt : newfd < MAX_OPEN) (hopen : s.files newfd ≠ 0) :
    ∃ u, copyFd s file newfd = .ok ((newfd : Int), u) ∧ ¬ Bijection u := by
  obtain ⟨u, hu, hpool, h0, hfresh, hfiles⟩ := h.copyFd_ok hf hcap file newfd
  have hold := h.table.allocated newfd hlt hopen
  have hmem : s.files newfd ∈ allocatedFiles u := by
    rw [(hpool.perm hf).mem_iff]
    exact List.mem_cons_of_mem _ hold
  refine ⟨u, hu, not_exact hmem fun i hi heq => ?_⟩
  rw [hfiles, Function.update_apply] at heq
  by_cases hin : i = newfd
  · rw [if_pos hin] at heq
    exact hfresh (heq ▸ hold)
  · rw [if_neg hin] at heq
    exact hin (h.table.slot_inj hlt hi hopen heq)

/-- A call that fails at once is exact. -/
theorem FilesOk.dup2_early (h : FilesOk a s) {fd newfd r : Int} (hn : NoLeak ops s (.sysDup2 fd newfd))
    (hcall : dupfd ops s fd newfd = .ok (r, s)) :
    (CallExact ops s (.sysDup2 fd newfd) ↔ NoLeak ops s (.sysDup2 fd newfd)) ∧
      (NoLeak ops s (.sysDup2 fd newfd) →
        ∀ r t, fsCall ops s (.sysDup2 fd newfd) = .ok (r, t) → FilesOk a t) :=
  exact_iff_of_noLeak hn
    (h.callExact_of_same (show fsCall ops s (.sysDup2 fd newfd) = _ from hcall) ⟨rfl, rfl, rfl⟩)

theorem FilesOk.dup2_iff (h : FilesOk a s) (hf : a.Fits) (hcap : MAX_OPEN < a.capacity.toNat)
    (hret : CloseReturns ops) (fd newfd : Int) :
    (CallExact ops s (.sysDup2 fd newfd) ↔ NoLeak ops s (.sysDup2 fd newfd)) ∧
      (NoLeak ops s (.sysDup2 fd newfd) →
        ∀ r t, fsCall ops s (.sysDup2 fd newfd) = .ok (r, t) → FilesOk a t) := by
  have hunfold : fsCall ops s (.sysDup2 fd newfd) = dupfd ops s fd newfd := rfl
  by_cases hv : validFd fd = true
  swap
  · refine h.dup2_early (r := -EBADF) (fun h1 => absurd h1 hv) ?_
    rw [dupfd, if_pos (by simpa using hv)]
  by_cases hnv : validFd newfd = true
  swap
  · refine h.dup2_early (r := -EBADF) (fun _ h1 => absurd h1 hnv) ?_
    rw [dupfd, if_neg (by simpa using hv), if_pos (by simpa using hnv)]
  by_cases h0 : s.files fd.toNat = 0
  · refine h.dup2_early (r := -EBADF) (fun _ _ h1 => absurd h0 h1) ?_
    simp only [dupfd, hv, hnv, h0, Bool.not_true, Bool.false_eq_true, if_false, if_true]
  obtain ⟨hnn, hnlt⟩ := validFd_lt hnv
  have hcast : ((newfd.toNat : Nat) : Int) = newfd := by omega
  by_cases hz : newfd = 0
  · -- `dup2` onto descriptor 0 looks for a free one, as `dup` does.
    have hnl : NoLeak ops s (.sysDup2 fd newfd) := fun _ _ _ h1 => absurd hz h1
    have hnz : ¬ newfd ≠ 0 := fun h1 => h1 hz
    cases hnext : findNextFd s with
    | none =>
      refine h.dup2_early (r := -EMFILE) hnl ?_
      simp only [dupfd, hv, hnv, h0, hnz, hnext, Bool.not_true, Bool.false_eq_true, if_false]
    | some k =>
      obtain ⟨hk, hempty⟩ := findNextFd_some hnext
      obtain ⟨u, hu, hok⟩ := h.copyFd_exact hf hcap (s.files fd.toNat) hk hempty
      refine exact_iff_of_noLeak hnl (callExact_of_ok (r := (k : Int)) ?_ (by omega) hok)
      rw [hunfold]
      simp only [dupfd, hv, hnv, h0, hnz, hnext, Bool.not_true, Bool.false_eq_true, if_false,
        hu]
  · obtain ⟨r, t, hclose, hcases⟩ := h.sysClose_cases hf hret newfd
    have hcall : fsCall ops s (.sysDup2 fd newfd) = copyFd t (s.files fd.toNat) newfd.toNat := by
      simp only [hunfold, dupfd, hv, hnv, h0, hz, hclose, Bool.not_true, Bool.false_eq_true, if_false,
        ne_eq, not_false_eq_true, if_true, ok_bind]
    obtain ⟨hsame, _, hfail⟩ | ⟨_, _, hn0, hsucc, hpool, hfiles⟩ := hcases
    · have ht : FilesOk a t := h.congr hsame
      by_cases hn0 : s.files newfd.toNat = 0
      · have hempty : t.files newfd.toNat = 0 := by rw [hsame.files, hn0]
        obtain ⟨u, hu, hok⟩ := ht.copyFd_exact hf hcap (s.files fd.toNat) hnlt hempty
        exact exact_iff_of_noLeak (fun _ _ _ _ h1 => absurd hn0 h1)
          (callExact_of_ok (hcall.trans hu) (by omega) hok)
      · have hopen : t.files newfd.toNat ≠ 0 := by rw [hsame.files]; exact hn0
        obtain ⟨u, hu, hnb⟩ := ht.copyFd_leak hf hcap (s.files fd.toNat) hnlt hopen
        have hnl : ¬ NoLeak ops s (.sysDup2 fd newfd) := by
          intro hn
          have h1 := hn hv hnv h0 hz hn0
          rw [hfail hnv hn0] at h1
          cases h1
        refine exact_iff_of_leak hnl ?_
        rintro ⟨r', u', hu', hb, _⟩
        rw [hcall, hu] at hu'
        cases hu'
        exact absurd hb hnb
    · have hdrop := h.table.drop hnlt hn0 (h.pool.null_notMem hf) (h.pool.nodup hf)
      have ht : FilesOk a t := hpool.exact hf (hfiles ▸ hdrop)
      have hempty : t.files newfd.toNat = 0 := by rw [hfiles, Function.update_self]
      obtain ⟨u, hu, hok⟩ := ht.copyFd_exact hf hcap (s.files fd.toNat) hnlt hempty
      exact exact_iff_of_noLeak (fun _ _ _ _ _ => hsucc)
        (callExact_of_ok (hcall.trans hu) (by omega) hok)

/-- **Step.** From a state of the invariant a call is exact if and only if it takes no leaking path,
and then the invariant is kept. -/
theorem FilesOk.step_iff (h : FilesOk a s) (hf : a.Fits) (hcap : MAX_OPEN < a.capacity.toNat)
    (hret : CloseReturns ops) (op : FsOp) :
    (CallExact ops s op ↔ NoLeak ops s op) ∧
      (NoLeak ops s op → ∀ r t, fsCall ops s op = .ok (r, t) → FilesOk a t) := by
  cases op with
  | sysOpen name oflag => exact h.open_iff hf hcap
  | sysClose fd =>
    exact exact_iff_of_noLeak trivial (h.close_iff hf hret fd)
  | sysDup fd =>
    have hx := h.dup2_iff hf hcap hret fd 0
    have hnl : NoLeak ops s (.sysDup2 fd 0) := fun _ _ _ h1 => absurd rfl h1
    exact exact_iff_of_noLeak trivial ⟨hx.1.mpr hnl, hx.2 hnl⟩
  | sysDup2 fd newfd => exact h.dup2_iff hf hcap hret fd newfd

end Steps

end Files

end Ohwes

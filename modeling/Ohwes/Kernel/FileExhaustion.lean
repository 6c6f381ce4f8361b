import Ohwes.Kernel.Dup2

/-! # An empty file pool

`alloc_fd` answers `-ENOMEM` when the pool has no file struct left, and `sys_open` and `dupfd` look
for `ENOMEM`. `exhaustion_iff` says that the two meet nowhere: whenever a call gets as far as
`alloc_fd` with an empty pool, it does not return `-EMFILE`. -/

namespace Ohwes
open Library
set_option autoImplicit false

section Exhaustion
variable {δ φ : Type} (ops : φ → FileOps δ φ) {a : Area} {s t : FsState δ φ}

/-! ## The file structs a call goes to -/

/-- Where a call has the pointer from that it reads or writes a file struct through: the descriptor
table, or `alloc_fd`, which may have left it unset. -/
inductive FileRef where
  | held (file : Ptr)
  | fresh (file : Option Ptr)

/-- What `alloc_fd` sets `*file` to. -/
def returnedFile (s : FsState δ φ) : Option Ptr :=
  match allocFd s with
  | .ok x => x.2.1
  | .error _ => none

def closeRefs (s : FsState δ φ) (fd : Int) : List FileRef :=
  if validFd fd = true ∧ s.files fd.toNat ≠ 0 then [.held (s.files fd.toNat)] else []

/-- `*newfile = *file`. -/
def copyRefs (s : FsState δ φ) (file : Ptr) : List FileRef := [.held file, .fresh (returnedFile s)]

def dupRefs (s : FsState δ φ) (fd newfd : Int) : List FileRef :=
  if CanDup s fd newfd then
    if newfd ≠ 0 then
      closeRefs s newfd ++
        match sysClose ops s newfd with
        | .ok x => copyRefs x.2 (s.files fd.toNat)
        | .error _ => []
    else match findNextFd s with
      | none => []
      | some _ => copyRefs s (s.files fd.toNat)
  else []

def fileRefs (s : FsState δ φ) : FsOp → List FileRef
  | .sysOpen _ oflag =>
    if badMode oflag then []
    else match findNextFd s with
      | none => []
      | some _ => [.fresh (returnedFile s)]
  | .sysClose fd => closeRefs s fd
  | .sysDup fd => dupRefs ops s fd 0
  | .sysDup2 fd newfd => dupRefs ops s fd newfd

/-- `alloc_fd` has returned the struct, in an earlier call or in this one. -/
def Returned (s : FsState δ φ) : FileRef → Prop
  | .held file => file ∈ allocatedFiles s
  | .fresh file => file.isSome = true

/-! ## The law -/

/-- The arguments pass what is checked before `alloc_fd` is called. -/
def PassesChecks (s : FsState δ φ) : FsOp → Prop
  | .sysOpen _ oflag => badMode oflag = false ∧ findNextFd s ≠ none
  | .sysClose _ => False
  | .sysDup fd => CanDup s fd 0 ∧ findNextFd s ≠ none
  | .sysDup2 fd newfd => CanDup s fd newfd ∧ (newfd = 0 → findNextFd s ≠ none)

instance decidablePassesChecks (s : FsState δ φ) : (op : FsOp) → Decidable (PassesChecks s op)
  | .sysOpen _ _ => inferInstanceAs (Decidable (_ ∧ _))
  | .sysClose _ => .isFalse id
  | .sysDup _ => inferInstanceAs (Decidable (_ ∧ _))
  | .sysDup2 _ _ => inferInstanceAs (Decidable (_ ∧ _))

/-- With an empty pool the call is refused, and it goes to no struct that was not handed out. -/
def ExhaustionLaw (a : Area) (s : FsState δ φ) (op : FsOp) : Prop :=
  (¬ HasRoom a s → PassesChecks s op → ∃ t, fsCall ops s op = .ok (-EMFILE, t)) ∧
    ∀ ref ∈ fileRefs ops s op, Returned s ref

variable {ops}

theorem TableOk.returnedFile_room (h : TableOk a s) (hf : a.Fits) (hroom : HasRoom a s) :
    returnedFile s = some (nextFile s) := by
  obtain ⟨t, halloc, -⟩ := h.grown hf hroom
  rw [returnedFile, halloc]

theorem TableOk.closeRefs_returned (h : TableOk a s) {fd : Int} {ref : FileRef}
    (href : ref ∈ closeRefs s fd) : Returned s ref := by
  unfold closeRefs at href
  split at href
  · next hopen =>
    rw [List.mem_singleton] at href
    subst href
    exact h.allocated _ (validFd_lt hopen.1).2 hopen.2
  · cases href

/-- The state the copy is made in has room if the one before the close has. -/
theorem Closes.hasRoom {fd : Nat} (h : Closes a s t fd) (hroom : HasRoom a s) : HasRoom a t := by
  obtain hsame | ⟨-, -, -, hr⟩ := h.outcome
  · rwa [HasRoom, allocatedFiles_congr hsame.pool hsame.filePool]
  · exact hr

theorem copyRefs_returned {m : FsState δ φ} {file : Ptr} (hm : TableOk a m) (hf : a.Fits)
    (hroom : HasRoom a m) (hfile : file ∈ allocatedFiles s) {ref : FileRef}
    (href : ref ∈ copyRefs m file) : Returned s ref := by
  obtain rfl | href := List.mem_cons.mp href
  · exact hfile
  · rw [List.mem_singleton] at href
    subst href
    rw [hm.returnedFile_room hf hroom]
    rfl

theorem TableOk.dupRefs_returned (h : TableOk a s) (hf : a.Fits) {fd newfd : Int}
    (hroom : HasRoom a s ∨ ¬ (CanDup s fd newfd ∧ (newfd = 0 → findNextFd s ≠ none)))
    {ref : FileRef} (href : ref ∈ dupRefs ops s fd newfd) : Returned s ref := by
  unfold dupRefs at href
  split at href
  swap
  · cases href
  next hcan =>
  have hfile : s.files fd.toNat ∈ allocatedFiles s :=
    h.allocated _ (validFd_lt hcan.1).2 hcan.2.2
  split at href
  · next hz =>
    have hroom : HasRoom a s :=
      hroom.resolve_right (not_not_intro ⟨hcan, fun h0 => absurd h0 hz⟩)
    obtain href | href := List.mem_append.mp href
    · exact h.closeRefs_returned href
    split at href
    · next x hx =>
      have hcloses := h.sysClose_closes hf (r := x.1) (t := x.2) hx
      exact copyRefs_returned hcloses.table hf (hcloses.hasRoom hroom) hfile href
    · cases href
  · split at href
    · cases href
    · next hnext =>
      have hroom : HasRoom a s := by
        refine hroom.resolve_right (not_not_intro ⟨hcan, fun _ => ?_⟩)
        rw [hnext]
        exact Option.some_ne_none _
      exact copyRefs_returned h hf hroom hfile href

theorem TableOk.fileRefs_returned (h : TableOk a s) (hf : a.Fits) {op : FsOp}
    (hroom : HasRoom a s ∨ ¬ PassesChecks s op) {ref : FileRef}
    (href : ref ∈ fileRefs ops s op) : Returned s ref := by
  cases op with
  | sysOpen name oflag =>
    rw [fileRefs] at href
    split at href
    · cases href
    split at href
    · cases href
    next hmode _ _ hnext =>
    have hroom : HasRoom a s := by
      refine hroom.resolve_right (not_not_intro ⟨by simpa using hmode, ?_⟩)
      rw [hnext]
      exact Option.some_ne_none _
    rw [List.mem_singleton] at href
    subst href
    rw [h.returnedFile_room hf hroom]
    rfl
  | sysClose fd => exact h.closeRefs_returned href
  | sysDup fd =>
    refine h.dupRefs_returned hf (hroom.imp_right fun hp hq => hp ⟨hq.1, hq.2 rfl⟩) href
  | sysDup2 fd newfd => exact h.dupRefs_returned hf hroom href

/-! ## With an empty pool -/

/-- What `copyFd` answers is a descriptor. -/
theorem TableOk.copyFd_ne_emfile (h : TableOk a s) (hf : a.Fits) {file : Ptr} {newfd : Nat}
    (hlt : newfd < MAX_OPEN) : copyFd s file newfd ≠ .ok (-EMFILE, t) := by
  intro hc
  obtain ⟨hr, -⟩ := h.copyFd_copies hf hlt hc
  have hneg : -EMFILE < 0 := by decide
  omega

/-- A call that gets as far as `alloc_fd` does not come back, or, where `dup2` has closed its target,
succeeds. -/
theorem TableOk.exhausted_ne (h : TableOk a s) (hf : a.Fits) (hfull : ¬ HasRoom a s) {op : FsOp}
    (hpass : PassesChecks s op) : fsCall ops s op ≠ .ok (-EMFILE, t) := by
  cases op with
  | sysOpen name oflag =>
    obtain ⟨hmode, hfd⟩ := hpass
    obtain ⟨fd, hfd⟩ := Option.ne_none_iff_exists'.mp hfd
    rw [fsCall, h.sysOpen_full hf hmode hfd hfull]
    intro h
    cases h
  | sysClose fd => exact hpass.elim
  | sysDup fd =>
    obtain ⟨hcan, hfd⟩ := hpass
    obtain ⟨k, hk⟩ := Option.ne_none_iff_exists'.mp hfd
    rw [fsCall, sysDup, dupfd_dup hcan, hk]
    exact h.copyFd_ne_emfile hf (findNextFd_some hk).1
  | sysDup2 fd newfd =>
    obtain ⟨hcan, hfd⟩ := hpass
    rw [fsCall, sysDup2]
    by_cases hz : newfd = 0
    · subst hz
      obtain ⟨k, hk⟩ := Option.ne_none_iff_exists'.mp (hfd rfl)
      rw [dupfd_dup hcan, hk]
      exact h.copyFd_ne_emfile hf (findNextFd_some hk).1
    · rw [dupfd_dup2 hcan hz]
      intro hc
      obtain ⟨⟨r, m⟩, hm, hc⟩ := bind_ok.mp hc
      exact (h.sysClose_closes hf hm).table.copyFd_ne_emfile hf (validFd_lt hcan.2.1).2 hc

/-- In every state that calls lead to from `init_fs`, a call keeps the law if and only if the pool has
a file struct left or the call is refused before it asks for one. -/
theorem exhaustion_iff {L : FsLayout} {chdevOps : φ} {dev : δ} {p : PoolState} {fs : FsState δ φ}
    {calls : List FsOp} (hmask : Consecutive (setBits p.chunkMask.1))
    (hinit : initFs L chdevOps dev p = .ok fs) (hrun : run (fsStep ops) fs calls = .ok s) (op : FsOp) :
    ExhaustionLaw ops L.area s op ↔ HasRoom L.area s ∨ ¬ PassesChecks s op := by
  have h := TableOk.of_run hmask hinit hrun
  constructor
  · intro hlaw
    by_contra hnot
    rw [not_or, not_not] at hnot
    obtain ⟨t, ht⟩ := hlaw.1 hnot.1 hnot.2
    exact h.exhausted_ne L.area_fits hnot.1 hnot.2 ht
  · intro hroom
    refine ⟨fun hfull hpass => absurd hpass (hroom.resolve_left hfull), fun ref href => ?_⟩
    exact h.fileRefs_returned L.area_fits hroom href

end Exhaustion

/-- Two descriptors, and fourteen opens of a name that is not there, each of which loses a struct. -/
def leakingCalls : List FsOp :=
  [.sysOpen tty1 O_RDWR, .sysDup 0] ++ List.replicate 14 (.sysOpen (text ['x']) O_RDWR)

theorem exhaustion_iff_share :
    ∃ fs s, initFs plainLayout () () (initPool (.bss fun _ => 0)) = .ok fs ∧
      run (fsStep plainOps) fs shareCalls = .ok s ∧
      ∀ op, ExhaustionLaw plainOps plainLayout.area s op := by
  have h : ∃ fs, initFs plainLayout () () (initPool (.bss fun _ => 0)) = .ok fs ∧
      ∃ s, run (fsStep plainOps) fs shareCalls = .ok s ∧ HasRoom plainLayout.area s := by
    decide +kernel
  obtain ⟨fs, hinit, s, hrun, hroom⟩ := h
  have hmask : Consecutive (setBits (initPool (.bss fun _ => 0)).chunkMask.1) := by decide +kernel
  exact ⟨fs, s, hinit, hrun, fun op => (exhaustion_iff hmask hinit hrun op).mpr (Or.inl hroom)⟩

/-- The pool of sixteen structs is empty, and each of the calls goes on without one. -/
theorem empty_pool_unset_pointer :
    ∃ fs s, initFs plainLayout () () (initPool (.bss fun _ => 0)) = .ok fs ∧
      run (fsStep plainOps) fs leakingCalls = .ok s ∧
      ¬ ExhaustionLaw plainOps plainLayout.area s (.sysOpen tty1 O_RDWR) ∧
      ¬ ExhaustionLaw plainOps plainLayout.area s (.sysDup 0) ∧
      ¬ ExhaustionLaw plainOps plainLayout.area s (.sysDup2 0 5) := by
  have h : ∃ fs, initFs plainLayout () () (initPool (.bss fun _ => 0)) = .ok fs ∧
      ∃ s, run (fsStep plainOps) fs leakingCalls = .ok s ∧ ¬ HasRoom plainLayout.area s ∧
      (PassesChecks s (.sysOpen tty1 O_RDWR) ∧
        ¬ ∃ x, fsCall plainOps s (.sysOpen tty1 O_RDWR) = .ok x ∧ True) ∧
      (PassesChecks s (.sysDup 0) ∧ ¬ ∃ x, fsCall plainOps s (.sysDup 0) = .ok x ∧ True) ∧
      PassesChecks s (.sysDup2 0 5) ∧ ¬ ∃ x, fsCall plainOps s (.sysDup2 0 5) = .ok x ∧ True := by
    decide +kernel
  obtain ⟨fs, hinit, s, hrun, hfull, ⟨hopen, hnoOpen⟩, ⟨hdup, hnoDup⟩, hdup2, hnoDup2⟩ := h
  refine ⟨fs, s, hinit, hrun, fun hlaw => ?_, fun hlaw => ?_, fun hlaw => ?_⟩
  · obtain ⟨t, ht⟩ := hlaw.1 hfull hopen
    exact hnoOpen ⟨_, ht, trivial⟩
  · obtain ⟨t, ht⟩ := hlaw.1 hfull hdup
    exact hnoDup ⟨_, ht, trivial⟩
  · obtain ⟨t, ht⟩ := hlaw.1 hfull hdup2
    exact hnoDup2 ⟨_, ht, trivial⟩

end Ohwes

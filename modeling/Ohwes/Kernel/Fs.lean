import Ohwes.Kernel.Pool

/-! # `kernel/fs.c`: inodes, directory entries and open files

The drivers are a parameter: `ops` maps the identity of a `struct file_ops` to its functions, which
work on a device state `δ` of their own. A `struct file` lives at the address the file pool gave
out; `fileAt` holds the contents. Inodes do not change after `init_fs`, so a pointer to one is its
value. `dentries` is the directory list in the order of iteration, the entry added last first.

`init_fs` passes `pool_create` the array length as item size and the structure size as capacity;
the area of each pool is the same, the number of items is not. -/

namespace Ohwes
set_option autoImplicit false

def DENTRY_NAME_LENGTH : Nat := 32
def MODE_CHRDEV : Nat := 1
def MAX_NR_INODES : BitVec 32 := 64
def MAX_NR_DENTRIES : BitVec 32 := 64
def MAX_NR_TOTAL_OPEN : BitVec 32 := 64
def NR_TERMINAL : Nat := 7
def NR_SERIAL : Nat := 4
def NR_TTY : Nat := 1 + NR_TERMINAL + NR_SERIAL
def TTY_MAX : Nat := NR_TERMINAL
def TTYS_MIN : Nat := TTY_MAX + 1
def TTYS_MAX : Nat := TTYS_MIN + NR_SERIAL
def TTY_MAJOR : Nat := 1

/-- `sizeof(struct inode)`, `sizeof(struct dentry)` and `sizeof(struct file)`. -/
def SIZEOF_INODE : BitVec 32 := 20
def SIZEOF_DENTRY : BitVec 32 := 44
def SIZEOF_FILE : BitVec 32 := 16

def mkdev (maj min : Nat) : Nat := ((min &&& 0xFFFF) <<< 16) ||| (maj &&& 0xFFFF)

def devMaj (id : Nat) : Nat := id &&& 0xFFFF

def devMin (id : Nat) : Nat := (id >>> 16) &&& 0xFFFF

section Types
variable (δ φ : Type)

structure Inode where
  mode : Nat
  device : Nat
  fops : Option φ

structure Dentry where
  name : CString
  inode : Option (Inode φ)

structure File where
  oflag : BitVec 32
  fops : Option φ
  inode : Option (Inode φ)
  privateData : Option Nat

/-- `struct file_ops`: the functions that open and close. Each returns the file's new contents. -/
structure FileOps where
  openFn : Option (Inode φ → Ptr → File φ → δ → Call (Int × File φ × δ))
  closeFn : Option (Ptr → File φ → δ → Call (Int × File φ × δ))

/-- The static data of `fs.c`, the descriptor table of the current task, and the devices. -/
structure FsState where
  pool : PoolState
  filePool : Option Nat
  dentries : List (Dentry φ)
  fileAt : Ptr → File φ
  files : Nat → Ptr
  dev : δ

end Types

section Fs
variable {δ φ : Type}

def File.zero : File φ := { oflag := 0, fops := none, inode := none, privateData := none }

namespace FsState

def setFile (s : FsState δ φ) (file : Ptr) (v : File φ) : FsState δ φ :=
  { s with fileAt := Function.update s.fileAt file v }

def setFd (s : FsState δ φ) (fd : Nat) (file : Ptr) : FsState δ φ :=
  { s with files := Function.update s.files fd file }

@[simp] theorem setFile_fileAt_self (s : FsState δ φ) (file : Ptr) (v : File φ) :
    (s.setFile file v).fileAt file = v := Function.update_self ..

@[simp] theorem setFile_setFile (s : FsState δ φ) (file : Ptr) (v w : File φ) :
    (s.setFile file v).setFile file w = s.setFile file w := by
  unfold setFile
  rw [Function.update_idem]

@[simp] theorem setFile_dev (s : FsState δ φ) (file : Ptr) (v : File φ) :
    (s.setFile file v).dev = s.dev := rfl

end FsState

/-- The entry a name leads to. -/
def findDentry (s : FsState δ φ) (name : CString) : Option (Dentry φ) :=
  s.dentries.find? fun d => strncmp name d.name DENTRY_NAME_LENGTH = 0

@[simp] theorem findDentry_setFile (s : FsState δ φ) (file : Ptr) (v : File φ) (name : CString) :
    findDentry (s.setFile file v) name = findDentry s name := rfl

/-- Besides the inode, `find_inode` sets the file operations of `file`. -/
def findInode (s : FsState δ φ) (file : Ptr) (name : CString) :
    Call (Option (Inode φ) × FsState δ φ) :=
  let s := s.setFile file { s.fileAt file with fops := none }
  match findDentry s name with
  | none => .ok (none, s)
  | some dentry =>
    match dentry.inode with
    | none => .error .fault
    | some inode => .ok (some inode, s.setFile file { s.fileAt file with fops := inode.fops })

/-- The second component is what `*file` is set to, if it is. -/
def allocFd (s : FsState δ φ) : Call (Int × Option Ptr × FsState δ φ) := do
  let x ← poolAlloc s.pool s.filePool
  let s := { s with pool := x.2 }
  if x.1 = 0 then .ok (-ENOMEM, none, s)
  else .ok (0, some x.1, s.setFile x.1 File.zero)

def freeFd (s : FsState δ φ) (file : Ptr) : Call (FsState δ φ) :=
  if file = 0 then .ok s
  else do
    let x ← poolFree s.pool s.filePool file
    .ok { s with pool := x.2 }

/-! ## `init_fs` -/

/-- The pools of `fs.c`. -/
inductive FsPool where
  | inodes
  | dentries
  | files
  deriving DecidableEq, Repr

/-- Where the linker puts the static arrays: the one of the files is an object of the address space. -/
structure FsLayout where
  inodes : Ptr
  dentries : Ptr
  files : Ptr
  files_ne : files ≠ 0
  files_fits : files.toNat + 64 * 16 ≤ 2 ^ 32

/-- The name of device `i`: `/dev/tty0` to `/dev/tty7`, then `/dev/ttyS1` and so on. -/
def ttyName (i : Nat) : CString :=
  if i ≤ TTY_MAX then text ['/', 'd', 'e', 'v', '/', 't', 't', 'y'] ++ decimal i
  else text ['/', 'd', 'e', 'v', '/', 't', 't', 'y', 'S'] ++ decimal (i - TTYS_MIN + 1)

/-- The loop over the terminals, `n` of them to go, the next of them number `i`. -/
def createDentries (dentryPool inodePool : Option Nat) (chdevOps : φ) :
    Nat → Nat → PoolState → List (Dentry φ) → Call (PoolState × List (Dentry φ))
  | 0, _, s, dentries => .ok (s, dentries)
  | n + 1, i, s, dentries => do
    let x ← poolAlloc s dentryPool
    let name := strncpy (List.replicate DENTRY_NAME_LENGTH 0) (ttyName i) DENTRY_NAME_LENGTH
    if x.1 = 0 then .error .fault
    else if i = 0 then
      createDentries dentryPool inodePool chdevOps n (i + 1) x.2 ({ name, inode := none } :: dentries)
    else do
      let y ← poolAlloc x.2 inodePool
      if y.1 = 0 then .error .fault
      else
        let inode := { mode := MODE_CHRDEV, device := mkdev TTY_MAJOR i, fops := some chdevOps }
        createDentries dentryPool inodePool chdevOps n (i + 1) y.2
          ({ name, inode := some inode } :: dentries)

/-- `init_fs`, and the pools that it makes. The checks after the second and third `pool_create` look at
`inode_pool` again. -/
def initFsPools (L : FsLayout) (chdevOps : φ) (dev : δ) (s : PoolState) :
    Call (FsState δ φ × (FsPool → Option Nat)) := do
  let inodePool ← poolCreate s L.inodes (some (text ['i', 'n', 'o', 'd', 'e', 's']))
    MAX_NR_INODES SIZEOF_INODE
  if inodePool.1 = none then .error (.panic "failed to create inode pool!")
  else do
    let dentryPool ← poolCreate inodePool.2 L.dentries
      (some (text ['d', 'e', 'n', 't', 'r', 'i', 'e', 's'])) MAX_NR_DENTRIES SIZEOF_DENTRY
    let filePool ← poolCreate dentryPool.2 L.files (some (text ['f', 'i', 'l', 'e', 's']))
      MAX_NR_TOTAL_OPEN SIZEOF_FILE
    let x ← createDentries dentryPool.1 inodePool.1 chdevOps NR_TTY 0 filePool.2 []
    let fs : FsState δ φ :=
      { pool := x.1
        filePool := filePool.1
        dentries := x.2
        fileAt := fun _ => File.zero
        files := fun _ => 0
        dev := dev }
    let poolOf : FsPool → Option Nat
      | .inodes => inodePool.1
      | .dentries => dentryPool.1
      | .files => filePool.1
    .ok (fs, poolOf)

/-- The pools of inodes and directory entries are used by nothing else. -/
def initFs (L : FsLayout) (chdevOps : φ) (dev : δ) (s : PoolState) : Call (FsState δ φ) :=
  (initFsPools L chdevOps dev s).map Prod.fst

/-- What `init_fs` has made if it comes back. -/
theorem initFs_made {L : FsLayout} {chdevOps : φ} {dev : δ} {s : PoolState} {fs : FsState δ φ}
    (h : initFs L chdevOps dev s = .ok fs) :
    ∃ inodes dentries files x,
      poolCreate s L.inodes (some (text ['i', 'n', 'o', 'd', 'e', 's'])) MAX_NR_INODES SIZEOF_INODE =
        .ok inodes ∧
      inodes.1 ≠ none ∧
      poolCreate inodes.2 L.dentries (some (text ['d', 'e', 'n', 't', 'r', 'i', 'e', 's']))
        MAX_NR_DENTRIES SIZEOF_DENTRY = .ok dentries ∧
      poolCreate dentries.2 L.files (some (text ['f', 'i', 'l', 'e', 's'])) MAX_NR_TOTAL_OPEN
        SIZEOF_FILE = .ok files ∧
      createDentries dentries.1 inodes.1 chdevOps NR_TTY 0 files.2 [] = .ok x ∧
      fs = { pool := x.1, filePool := files.1, dentries := x.2, fileAt := fun _ => File.zero,
             files := fun _ => 0, dev := dev } := by
  obtain ⟨r, hr, rfl⟩ : ∃ r, initFsPools L chdevOps dev s = .ok r ∧ r.1 = fs := by
    rw [initFs] at h
    cases hr : initFsPools L chdevOps dev s with
    | error e =>
      rw [hr] at h
      cases h
    | ok r =>
      rw [hr] at h
      exact ⟨r, rfl, Except.ok.inj h⟩
  rw [initFsPools] at hr
  obtain ⟨inodes, h₁, hr⟩ := bind_ok.mp hr
  split at hr
  · cases hr
  rename_i hne
  obtain ⟨dentries, h₂, hr⟩ := bind_ok.mp hr
  obtain ⟨files, h₃, hr⟩ := bind_ok.mp hr
  obtain ⟨x, h₄, hr⟩ := bind_ok.mp hr
  cases hr
  exact ⟨inodes, dentries, files, x, h₁, hne, h₂, h₃, h₄, rfl⟩

end Fs

end Ohwes

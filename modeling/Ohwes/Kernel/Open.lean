import Ohwes.Kernel.Fs

/-! # `kernel/open.c`: the system calls that make and drop descriptors

`files` is the table of the current task; a descriptor is an `int` and is looked at only after its
bounds are checked. `alloc_fd` returns `-ENOMEM`, and its callers compare with `ENOMEM`: when the
pool is empty they go on with a pointer that was never set, a `fault` here. -/

namespace Ohwes
set_option autoImplicit false

def MAX_OPEN : Nat := 8
def O_RDONLY : BitVec 32 := 0
def O_WRONLY : BitVec 32 := 1
def O_RDWR : BitVec 32 := 2
def O_NONBLOCK : BitVec 32 := 4

section Open
variable {δ φ : Type} (ops : φ → FileOps δ φ)

/-- More than one access mode is asked for. -/
def badMode (oflag : BitVec 32) : Bool :=
  let req := oflag &&& (O_RDONLY ||| O_WRONLY ||| O_RDWR)
  req &&& (req - 1) ≠ 0

/-- The first free descriptor; the result of the source is `-1` where this is `none`. -/
def findNextFd (s : FsState δ φ) : Option Nat := (List.range MAX_OPEN).find? fun i => s.files i = 0

/-- The descriptor is in range. -/
def validFd (fd : Int) : Bool := 0 ≤ fd && fd < MAX_OPEN

/-- The part of `sys_open` after `alloc_fd`, with the new file struct in hand. -/
def openFile (s : FsState δ φ) (fd : Nat) (file : Ptr) (name : CString) (oflag : BitVec 32) :
    Call (Int × FsState δ φ) := do
  let s := s.setFile file { s.fileAt file with oflag }
  let (inode, s) ← findInode s file name
  match inode with
  | none => .ok (-ENOENT, s)
  | some inode =>
    match (s.fileAt file).fops with
    | none => .ok (-ENOENT, s)
    | some fops =>
      match (ops fops).openFn with
      | none => .ok (-ENOSYS, s)
      | some openFn => do
        let (ret, v, dev) ← openFn inode file (s.fileAt file) s.dev
        let s := { s.setFile file v with dev }
        if ret < 0 then .ok (ret, s) else .ok ((fd : Int), s.setFd fd file)

def sysOpen (s : FsState δ φ) (name : CString) (oflag : BitVec 32) : Call (Int × FsState δ φ) :=
  if badMode oflag then .ok (-EINVAL, s)
  else match findNextFd s with
  | none => .ok (-ENFILE, s)
  | some fd => do
    let (ret, file, s) ← allocFd s
    if ret = ENOMEM then .ok (-EMFILE, s)
    else match file with
    | none => .error .fault
    | some file => openFile ops s fd file name oflag

def sysClose (s : FsState δ φ) (fd : Int) : Call (Int × FsState δ φ) :=
  if !validFd fd then .ok (-EBADF, s)
  else
    let file := s.files fd.toNat
    if file = 0 then .ok (-EBADF, s)
    else match (s.fileAt file).fops with
    | none => .ok (-ENOSYS, s)
    | some fops =>
      match (ops fops).closeFn with
      | none => .ok (-ENOSYS, s)
      | some closeFn => do
        let (ret, v, dev) ← closeFn file (s.fileAt file) s.dev
        let s := { s.setFile file v with dev }
        if ret < 0 then .ok (ret, s)
        else do
          let s ← freeFd s file
          .ok (ret, s.setFd fd.toNat 0)

/-- The end of `dupfd`, when `newfd` is free: the copy gets a file of its own. -/
def copyFd (s : FsState δ φ) (file : Ptr) (newfd : Nat) : Call (Int × FsState δ φ) := do
  let (ret, newfile, s) ← allocFd s
  if ret = ENOMEM then .ok (-EMFILE, s)
  else match newfile with
  | none => .error .fault
  | some newfile => .ok ((newfd : Int), (s.setFile newfile (s.fileAt file)).setFd newfd newfile)

def dupfd (s : FsState δ φ) (fd newfd : Int) : Call (Int × FsState δ φ) :=
  if !validFd fd then .ok (-EBADF, s)
  else if !validFd newfd then .ok (-EBADF, s)
  else
    let file := s.files fd.toNat
    if file = 0 then .ok (-EBADF, s)
    else if newfd ≠ 0 then do
      let (_, s) ← sysClose ops s newfd
      copyFd s file newfd.toNat
    else match findNextFd s with
    | none => .ok (-EMFILE, s)
    | some newfd => copyFd s file newfd

def sysDup (s : FsState δ φ) (fd : Int) : Call (Int × FsState δ φ) := dupfd ops s fd 0

def sysDup2 (s : FsState δ φ) (fd newfd : Int) : Call (Int × FsState δ φ) := dupfd ops s fd newfd

end Open

end Ohwes

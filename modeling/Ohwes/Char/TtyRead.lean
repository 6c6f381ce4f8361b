import Ohwes.Char.Ldisc
import Ohwes.Char.TtyLifecycle
import Ohwes.Kernel.Dup2

/-! # Reading a tty through a descriptor

`sys_read` and `sys_fcntl` of `kernel/sys.c` and `tty_read`, on top of the line discipline. Whether a
read may wait is asked of `tty->file`, the file of the last open of the tty. `readFiles` lists the
file structs a read looks at. -/

namespace Ohwes
open Library
set_option autoImplicit false

def F_GETFL : Int := 1
def F_SETFL : Int := 2

/-- What a read calls of the driver of a tty, which is on the serial ports: the terminals and a tty
that was never opened leave it out. -/
def readDriver : Option DriverName → TtyDriver Ports
  | some .serial => serialDriver
  | _ =>
    { write := fun _ _ d => (0, d)
      writeRoom := fun _ _ => 0
      flush := none
      throttle := none
      unthrottle := none
      stop := none
      start := none }

/-- A tty with the ports that its driver works on. -/
def TtyWorld.attached (w : TtyWorld) (i : Nat) : Attached Ports := { tty := w.ttys i, dev := w.ports }

def TtyWorld.setAttached (w : TtyWorld) (i : Nat) (x : Attached Ports) : TtyWorld :=
  { w.setTty i x.tty with ports := x.dev }

def ttyRead (s : TtyFs) (f : File FopsName) (isNull : Bool) (count : Nat) :
    Call (ReadOutcome × TtyFs) :=
  if isNull then .ok (.returned (-EINVAL) [], s)
  else match f.privateData with
  | none => .ok (.returned (- ENXIO) [], s)
  | some i =>
    let tty := s.dev.ttys i
    match tty.ldisc with
    | none => .ok (.returned (- ENXIO) [], s)
    | some _ => do
      let x ← nTtyRead (readDriver tty.driver) (s.fileAt tty.file).oflag isNull count
        (s.dev.attached i)
      .ok (x.1, { s with dev := s.dev.setAttached i x.2 })

/-- Of the two records of file operations only the one of the ttys has a `read`. -/
def sysRead (s : TtyFs) (fd : Int) (isNull : Bool) (count : Nat) : Call (ReadOutcome × TtyFs) :=
  if !validFd fd then .ok (.returned (-EBADF) [], s)
  else
    let file := s.files fd.toNat
    if file = 0 then .ok (.returned (-EBADF) [], s)
    else match (s.fileAt file).fops with
    | some .tty =>
      if count = 0 then .ok (.returned 0 [], s) else ttyRead s (s.fileAt file) isNull count
    | _ => .ok (.returned (-ENOSYS) [], s)

def sysFcntl (s : TtyFs) (fd op : Int) (arg : BitVec 32) : Int × TtyFs :=
  if !validFd fd then (-EBADF, s)
  else
    let file := s.files fd.toNat
    if file = 0 then (-EBADF, s)
    else if op = F_GETFL then ((s.fileAt file).oflag.toInt, s)
    else if op = F_SETFL then (0, s.setFile file { s.fileAt file with oflag := arg })
    else (-EINVAL, s)

/-! ## Runs -/

/-- A system call, or a character that comes into the receive ring of a tty. -/
inductive TtyCall where
  | files (op : FsOp)
  | fcntl (fd op : Int) (arg : BitVec 32)
  | read (fd : Int) (isNull : Bool) (count : Nat)
  | arrive (i : Nat) (c : Byte)

/-- A read that spins is left where it waits. -/
def ttyCallStep (uart : Fin NR_SERIAL → Uart) (s : TtyFs) : TtyCall → Call TtyFs
  | .files op => fsStep (ttyOps uart) s op
  | .fcntl fd op arg => .ok (sysFcntl s fd op arg).2
  | .read fd isNull count => (sysRead s fd isNull count).map (·.2)
  | .arrive i c => .ok { s with dev := s.dev.setTty i ((s.dev.ttys i).putChar c) }

/-! ## What a read looks at -/

/-- The ring of the tty of a descriptor, with the tty's number. -/
def ringOf (s : TtyFs) (fd : Int) : Option (Nat × Ring) :=
  if validFd fd then do
    let i ← onTty s fd.toNat
    let q ← (s.dev.ttys i).ldiscData
    some (i, q)
  else none

/-- The file structs: the one of the descriptor, and `tty->file` once the ring has run empty. -/
def readFiles (s : TtyFs) (fd : Int) (isNull : Bool) (count : Nat) : List Ptr :=
  if validFd fd = true ∧ s.files fd.toNat ≠ 0 then
    s.files fd.toNat ::
      match ringOf s fd with
      | none => []
      | some (i, q) => if isNull = false ∧ ringCount q < count then [(s.dev.ttys i).file] else []
  else []

section Loop
variable {D : Type} {drv : TtyDriver D} {s : Attached D} {q : Ring} {chars : List Byte} {count : Nat}

variable (drv) in
/-- A character is taken out of the ring. -/
def readChar (s : Attached D) (q : Ring) : Attached D :=
  let s : Attached D := { s with tty := s.tty.setRing (ringGet q).2 }
  if nTtyRecvRoom s.tty ≥ TTY_THROTTLE_THRESH then unthrottleTty drv s else s

theorem readChar_tty :
    (readChar drv s q).tty.ldiscData = some (ringGet q).2 ∧
      (readChar drv s q).tty.ldisc = s.tty.ldisc := by
  unfold readChar
  dsimp only
  split
  · rw [unthrottleTty_tty]
    exact ⟨rfl, rfl⟩
  · exact ⟨rfl, rfl⟩

theorem readLoop_succ (oflag : BitVec 32) (hring : s.tty.ldiscData = some q)
    (hcount : ringCount q ≠ 0) :
    readLoop drv oflag (count + 1) chars s =
      readLoop drv oflag count (chars ++ [(ringGet q).1]) (readChar drv s q) := by
  rw [readLoop, hring]
  dsimp only
  rw [if_neg hcount]
  rfl

/-- With the ring empty they decide what a read answers. -/
theorem readLoop_empty (oflag : BitVec 32) (hring : s.tty.ldiscData = some q)
    (hcount : ringCount q = 0) :
    readLoop drv oflag (count + 1) [] s =
      .ok (if oflag &&& O_NONBLOCK != 0 then .returned (-EAGAIN) [] else .spinning [], s) := by
  rw [readLoop, hring]
  dsimp only
  rw [if_pos hcount]
  split
  · rfl
  · rfl

theorem readLoop_ready {oflag : BitVec 32} {r : ReadOutcome × Attached D}
    (hring : s.tty.ldiscData = some q) (h : readLoop drv oflag count chars s = .ok r) :
    r.2.tty.ldiscData ≠ none ∧ r.2.tty.ldisc = s.tty.ldisc := by
  induction count generalizing s q chars with
  | zero =>
    cases h
    exact ⟨by rw [hring]; exact Option.some_ne_none q, rfl⟩
  | succ count ih =>
    by_cases hcount : ringCount q = 0
    · rw [readLoop, hring] at h
      dsimp only at h
      rw [if_pos hcount] at h
      have hsame : r.2 = s := by
        split_ifs at h
        · cases h
          rfl
        · cases h
          rfl
        · cases h
          rfl
      rw [hsame]
      exact ⟨by rw [hring]; exact Option.some_ne_none q, rfl⟩
    · rw [readLoop_succ oflag hring hcount] at h
      obtain ⟨hr, hl⟩ := ih readChar_tty.1 h
      exact ⟨hr, hl.trans readChar_tty.2⟩

end Loop

end Ohwes

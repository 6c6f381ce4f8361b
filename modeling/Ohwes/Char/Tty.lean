import Ohwes.Kernel.Open
import Ohwes.Kernel.Ring

/-! # `kernel/tty.h`: the state of a tty and the interface of its driver

A line discipline and a driver meet in `struct tty`. The driver's own data is a type `D` of its own;
`Attached D` is a tty together with it. The operations of a driver read the tty and change the
driver's data, as those of `terminal.c` and `serial.c` do, and an operation a driver leaves `NULL`
is `none`. -/

namespace Ohwes
set_option autoImplicit false

def TTY_BUFFER_SIZE : Nat := 1024
def TTY_THROTTLE_THRESH : Nat := 128

/-! ## `termios.h` -/

def ICRNL : BitVec 32 := 1
def INLCR : BitVec 32 := 2
def IGNCR : BitVec 32 := 4
def IXON : BitVec 32 := 8
def IXOFF : BitVec 32 := 16
def OPOST : BitVec 32 := 1
def OCRNL : BitVec 32 := 2
def ONLCR : BitVec 32 := 4
def CRTSCTS : BitVec 32 := 1
def ECHO : BitVec 32 := 1
def ECHOCTL : BitVec 32 := 2

/-- Number of the line discipline `n_tty`. -/
def N_TTY : BitVec 32 := 0

structure Termios where
  line : BitVec 32
  iflag : BitVec 32
  oflag : BitVec 32
  cflag : BitVec 32
  lflag : BitVec 32
  deriving DecidableEq, Repr

def defaultTermios : Termios where
  line := N_TTY
  iflag := ICRNL ||| IXON
  oflag := OPOST ||| ONLCR
  cflag := 0
  lflag := ECHO ||| ECHOCTL

namespace Termios

def iFlag (t : Termios) (f : BitVec 32) : Bool := t.iflag &&& f != 0

def oFlag (t : Termios) (f : BitVec 32) : Bool := t.oflag &&& f != 0

def cFlag (t : Termios) (f : BitVec 32) : Bool := t.cflag &&& f != 0

def lFlag (t : Termios) (f : BitVec 32) : Bool := t.lflag &&& f != 0

end Termios

/-! ## Control characters -/

def ASCII_BEL : Byte := 0x07
def ASCII_BS : Byte := 0x08
def ASCII_HT : Byte := 0x09
def ASCII_LF : Byte := 0x0A
def ASCII_VT : Byte := 0x0B
def ASCII_FF : Byte := 0x0C
def ASCII_CR : Byte := 0x0D
def ASCII_CAN : Byte := 0x18
def ASCII_ESC : Byte := 0x1B
def ASCII_DEL : Byte := 0x7F

def iscntrl (c : Byte) : Bool := c ≤ 0x1F || c == ASCII_DEL

def STOP_CHAR : Byte := 0x13
def START_CHAR : Byte := 0x11

/-! ## `struct tty` -/

/-- The drivers of this system, by the record a tty copies when it is opened. -/
inductive DriverName where
  | terminal
  | serial
  deriving DecidableEq, Repr

/-- An entry of `ttys`: its device number is the one `init_tty` gave it. `ldisc_data` points to the
tty's own receive ring. -/
structure Tty where
  device : Nat
  maj_eq : devMaj device = TTY_MAJOR
  min_lt : devMin device < NR_TTY
  isOpen : Bool
  throttled : Bool
  stopped : Bool
  hwStopped : Bool
  line : Nat
  file : Ptr
  ldisc : Option (BitVec 32)
  driver : Option DriverName
  termios : Termios
  ldiscData : Option Ring

theorem devMaj_mkdev {i : Nat} (h : i < NR_TTY) : devMaj (mkdev TTY_MAJOR i) = TTY_MAJOR := by
  revert i
  decide

theorem devMin_mkdev {i : Nat} (h : i < NR_TTY) : devMin (mkdev TTY_MAJOR i) = i := by
  revert i
  decide

/-- Tty number `i` as it is before anybody opens it. -/
def Tty.zero (i : Nat) (h : i < NR_TTY) : Tty where
  device := mkdev TTY_MAJOR i
  maj_eq := devMaj_mkdev h
  min_lt := by rw [devMin_mkdev h]; exact h
  isOpen := false
  throttled := false
  stopped := false
  hwStopped := false
  line := 0
  file := 0
  ldisc := none
  driver := none
  termios := { line := 0, iflag := 0, oflag := 0, cflag := 0, lflag := 0 }
  ldiscData := none

/-- The interface functions of `struct tty_driver` that a line discipline calls. -/
structure TtyDriver (D : Type) where
  write : Tty → List Byte → D → Int × D
  writeRoom : Tty → D → Nat
  flush : Option (Tty → D → D)
  throttle : Option (Tty → D → D)
  unthrottle : Option (Tty → D → D)
  stop : Option (Tty → D → D)
  start : Option (Tty → D → D)

structure Attached (D : Type) where
  tty : Tty
  dev : D

namespace Attached
variable {D : Type}

/-- Call an operation a driver may leave out. -/
def callDev (s : Attached D) (op : Option (Tty → D → D)) : Attached D :=
  match op with
  | none => s
  | some f => { s with dev := f s.tty s.dev }

@[simp] theorem callDev_tty (s : Attached D) (op : Option (Tty → D → D)) :
    (s.callDev op).tty = s.tty := by
  cases op <;> rfl

end Attached

end Ohwes

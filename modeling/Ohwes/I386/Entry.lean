import Ohwes.Kernel.Basic
import Ohwes.Library.Cpu386

/-! # `kernel/entry.S`: interrupts

The common interrupt handler, the system calls and the return, line by line. The stretches without a jump are
definitions of their own; a list goes on to the end of its path. -/

namespace Ohwes
open Library
set_option autoImplicit false

/-! ## `i386/interrupt.h` -/

@[simp] def SYSCALL_VECTOR : BitVec 32 := 0x80

@[simp] def IREGS_EBX : BitVec 32 := 0x00
@[simp] def IREGS_ECX : BitVec 32 := 0x04
@[simp] def IREGS_EDX : BitVec 32 := 0x08
@[simp] def IREGS_ESI : BitVec 32 := 0x0C
@[simp] def IREGS_EDI : BitVec 32 := 0x10
@[simp] def IREGS_EBP : BitVec 32 := 0x14
@[simp] def IREGS_EAX : BitVec 32 := 0x18
@[simp] def IREGS_DS : BitVec 32 := 0x1C
@[simp] def IREGS_ES : BitVec 32 := 0x20
@[simp] def IREGS_FS : BitVec 32 := 0x24
@[simp] def IREGS_GS : BitVec 32 := 0x28
@[simp] def IREGS_VEC : BitVec 32 := 0x2C
@[simp] def IREGS_ERR : BitVec 32 := 0x30
@[simp] def IREGS_EIP : BitVec 32 := 0x34
@[simp] def IREGS_CS : BitVec 32 := 0x38
@[simp] def IREGS_EFLAGS : BitVec 32 := 0x3C
@[simp] def IREGS_ESP : BitVec 32 := 0x40
@[simp] def IREGS_SS : BitVec 32 := 0x44
@[simp] def SIZEOF_IREGS : BitVec 32 := 72

@[simp] def IRET_VEC : BitVec 32 := 0x00
@[simp] def IRET_ERR : BitVec 32 := 0x04
@[simp] def IRET_EIP : BitVec 32 := 0x08
@[simp] def IRET_CS : BitVec 32 := 0x0C
@[simp] def IRET_EFLAGS : BitVec 32 := 0x10
@[simp] def IRET_ESP : BitVec 32 := 0x14
@[simp] def IRET_SS : BitVec 32 := 0x18

/-- The functions of the system calls, in C. -/
inductive Syscall
  | sysExit
  | sysRead
  | sysWrite
  | sysOpen
  | sysClose
  | sysIoctl
  | sysDup
  | sysDup2
  | sysFcntl
  deriving DecidableEq

/-- `handleIrq`, `handleException` and the functions of the system calls are C functions.
`_return_from_exception` is the place of `_return_from_irq`. -/
inductive EntryLabel
  | recvInterrupt
  | storeKernelStack
  | handleInterrupt
  | irqTrampoline
  | exceptionTrampoline
  | syscallTrampoline
  | sysEnter
  | sysLeave
  | handleIrq
  | handleException
  | handler (s : Syscall)
  | exceptThunk (vec : Fin 32)
  | irqThunk (irq : Fin 16)
  | returnFromIrq
  | returnFromSyscall
  | returnFromInterrupt
  deriving DecidableEq

abbrev EntryLine := Line386 EntryLabel

/-! ## Macros -/

/-- `STORE_SEGMENT`, to an address on the stack. -/
def storeSegment (reg : Seg) (addr : BitVec 32) : List Op386 :=
  [.xor .eax .eax, .storeSeg reg .eax, .store .eax addr .esp]

def loadSegment (addr : BitVec 32) (reg : Seg) : List Op386 :=
  [.load addr .esp .eax, .loadSeg .eax reg]

def mem2mem (src dest : BitVec 32) : List Op386 :=
  [.load src .esp .eax, .store .eax dest .esp]

/-! ## Code -/

/-- `recv_interrupt` up to the check of the privilege level. -/
def saveRegisters : List Op386 :=
  [.cli,
    .sub SIZEOF_IREGS .esp,
    .store .ebx IREGS_EBX .esp,
    .store .ecx IREGS_ECX .esp,
    .store .edx IREGS_EDX .esp,
    .store .esi IREGS_ESI .esp,
    .store .edi IREGS_EDI .esp,
    .store .ebp IREGS_EBP .esp,
    .store .eax IREGS_EAX .esp] ++
  storeSegment .ds IREGS_DS ++
  storeSegment .es IREGS_ES ++
  storeSegment .fs IREGS_FS ++
  storeSegment .gs IREGS_GS ++
  mem2mem (SIZEOF_IREGS + IRET_VEC) IREGS_VEC ++
  mem2mem (SIZEOF_IREGS + IRET_ERR) IREGS_ERR ++
  mem2mem (SIZEOF_IREGS + IRET_EFLAGS) IREGS_EFLAGS ++
  mem2mem (SIZEOF_IREGS + IRET_EIP) IREGS_EIP ++
  mem2mem (SIZEOF_IREGS + IRET_CS) IREGS_CS ++
  [.and 0x3 .eax,
    .test .eax .eax]

def saveUserStack : List Op386 :=
  mem2mem (SIZEOF_IREGS + IRET_ESP) IREGS_ESP ++
  mem2mem (SIZEOF_IREGS + IRET_SS) IREGS_SS

def saveKernelStack : List Op386 :=
  [.mov .esp .eax,
    .add (SIZEOF_IREGS + IRET_ESP) .eax,
    .store .eax IREGS_ESP .esp] ++
  storeSegment .ss IREGS_SS

def recvInterrupt : List EntryLine :=
  saveRegisters.map .op ++ .jz .storeKernelStack ::
  (saveUserStack.map .op ++ [.jmp .handleInterrupt])

def storeKernelStack : List EntryLine := saveKernelStack.map .op ++ [.jmp .handleInterrupt]

def handleInterrupt : List EntryLine :=
  [.op (.mov .esp .ecx),
    .op (.load IREGS_VEC .esp .eax),
    .op (.test .eax .eax),
    .js .irqTrampoline,
    .op (.cmp SYSCALL_VECTOR .eax),
    .jz .syscallTrampoline,
    .jmp .exceptionTrampoline]

/-! ## Tables -/

def syscallTable : List Syscall :=
  [.sysExit, .sysRead, .sysWrite, .sysOpen, .sysClose, .sysIoctl, .sysDup, .sysDup2, .sysFcntl]

def NR_SYSCALLS : BitVec 32 := (4 * BitVec.ofNat 32 syscallTable.length) >>> 2

def exceptionThunks : List (Fin 32) :=
  [0x00, 0x01, 0x02, 0x03, 0x04, 0x05, 0x06, 0x07, 0x08, 0x09, 0x0A, 0x0B, 0x0C, 0x0D, 0x0E, 0x0F,
    0x10, 0x11, 0x12, 0x13, 0x14, 0x15, 0x16, 0x17, 0x18, 0x19, 0x1A, 0x19, 0x1C, 0x1C, 0x1E, 0x1F]

/-- The text from `syscall_table` on: the tables of the thunks stand right behind that of the system
calls, and code behind them. -/
def syscallWords : List EntryLabel :=
  syscallTable.map .handler ++ exceptionThunks.map .exceptThunk ++ (List.finRange 16).map .irqThunk

/-! ## System calls -/

def fetchSyscall : List Op386 :=
  [.load IREGS_EAX .ecx .eax,
    .cmp NR_SYSCALLS .eax]

def syscallTrampoline : List EntryLine :=
  fetchSyscall.map .op ++
  [.jbe .sysEnter,
    .op (.movImm (BitVec.ofInt 32 (-ENOSYS)) .eax),
    .jmp .returnFromSyscall]

/-- `leave` is the address of `sys_leave`. -/
def enterSyscall (leave : BitVec 32) : List Op386 := [.push leave, .sti]

def sysEnter (leave : BitVec 32) : List EntryLine :=
  (enterSyscall leave).map .op ++ [.jmpTable syscallWords .eax]

def sysLeave : List EntryLine := [.op .cli, .jmp .returnFromSyscall]

/-! ## Return -/

/-- `_return_from_syscall` up to the check of the privilege level. The error code's slot keeps `eax`,
which the macros use. -/
def restoreFrame : List Op386 :=
  [.load IREGS_EBP .esp .ebp,
    .load IREGS_EDI .esp .edi,
    .load IREGS_ESI .esp .esi,
    .load IREGS_EDX .esp .edx,
    .load IREGS_ECX .esp .ecx,
    .load IREGS_EBX .esp .ebx,
    .store .eax IREGS_ERR .esp] ++
  loadSegment IREGS_DS .ds ++
  loadSegment IREGS_ES .es ++
  loadSegment IREGS_FS .fs ++
  loadSegment IREGS_GS .gs ++
  mem2mem IREGS_EFLAGS (SIZEOF_IREGS + IRET_EFLAGS) ++
  mem2mem IREGS_EIP (SIZEOF_IREGS + IRET_EIP) ++
  mem2mem IREGS_CS (SIZEOF_IREGS + IRET_CS) ++
  [.and 0x03 .eax,
    .test .eax .eax]

def restoreRegisters : List Op386 := .load IREGS_EAX .esp .eax :: restoreFrame

def restoreUserStack : List Op386 :=
  mem2mem IREGS_ESP (SIZEOF_IREGS + IRET_ESP) ++
  mem2mem IREGS_SS (SIZEOF_IREGS + IRET_SS)

def dropFrame : List Op386 :=
  [.load IREGS_ERR .esp .eax,
    .add (SIZEOF_IREGS + IRET_EIP) .esp]

def returnFromInterrupt : List EntryLine := dropFrame.map .op ++ [.iret]

def returnFromSyscall : List EntryLine :=
  restoreFrame.map .op ++ .jz .returnFromInterrupt ::
  (restoreUserStack.map .op ++ returnFromInterrupt)

def returnFromIrq : List EntryLine :=
  restoreRegisters.map .op ++ .jz .returnFromInterrupt ::
  (restoreUserStack.map .op ++ returnFromInterrupt)

/-- `addr` is where the linker has put the labels. -/
def entryCode (addr : EntryLabel → BitVec 32) : EntryLabel → Option (List EntryLine)
  | .recvInterrupt => some recvInterrupt
  | .storeKernelStack => some storeKernelStack
  | .handleInterrupt => some handleInterrupt
  | .irqTrampoline => some [.op (.push (addr .returnFromIrq)), .jmp .handleIrq]
  | .exceptionTrampoline => some [.op (.push (addr .returnFromIrq)), .jmp .handleException]
  | .syscallTrampoline => some syscallTrampoline
  | .sysEnter => some (sysEnter (addr .sysLeave))
  | .sysLeave => some sysLeave
  | .returnFromIrq => some returnFromIrq
  | .returnFromSyscall => some returnFromSyscall
  | .returnFromInterrupt => some returnFromInterrupt
  | .handleIrq | .handleException | .handler _ | .exceptThunk _ | .irqThunk _ => none

/-- `IDT_THUNK_ERR`, and `IDT_THUNK` where the processor pushes no error code. -/
def idtThunk (errorCode : Option (BitVec 32)) (vecNum : BitVec 32) : List EntryLine :=
  match errorCode with
  | none => [.op (.push 0), .op (.push vecNum), .jmp .recvInterrupt]
  | some _ => [.op (.push vecNum), .jmp .recvInterrupt]

/-! ## `kernel/cpu.c` -/

def KERNEL_CS : BitVec 16 := 0x10
def KERNEL_DS : BitVec 16 := 0x18
def USER_CS : BitVec 16 := 0x23

/-- A gate of the interrupt table, of an interrupt or of a trap, with the stack of the kernel's task
segment. -/
def idtGate (entry kstack : BitVec 32) (interrupt : Bool) : Gate386 where
  selector := KERNEL_CS
  offset := entry
  disables := interrupt
  esp0 := kstack
  ss0 := KERNEL_DS

end Ohwes

import Ohwes.Boot.Stage1
import Ohwes.Libc.Memmove

/-! # `boot/stage2.S`

Stage 2 asks the BIOS about the machine and opens the A20 gate, loads the kernel below one megabyte
and moves it above. What it learns it keeps in `boot_info`, a variable in its own image. -/

namespace Ohwes.Boot
open Library Fatfs
set_option autoImplicit false

def MEMMAP_BASE : Word := 0x1000
def KERNEL_LOAD : BitVec 32 := 0xA000
def KERNEL_SEGMENT : Word := (KERNEL_LOAD >>> 4).setWidth 16
def KERNEL_BASE : Nat := 1048576
def MEMORY_REQUIRED : BitVec 32 := 1572864
/-- `sizeof(struct acpi_mmap_entry)`. -/
def MAP_ENTRY_SIZE : Nat := 24

def A20_KEYBOARD : Word := 1
def A20_PORT92 : Word := 2
def A20_BIOS : Word := 3

/-! ## The image -/

/-- A sector with the parameter block of `stage1.S`. -/
structure HasBlock (sector : List Byte) : Prop where
  length_eq : sector.length = 512
  block : BiosParamBlock.ofBytes (fun a => sector.getD a 0) 11 = biosParamBlock

def BI_SIZE : Nat := 0x28
/-- The size of `tmp_cursor_row`, `tmp_cursor_col` and `boot_info`. -/
def VARIABLES_SIZE : Nat := 8 + BI_SIZE

/-- What the assembler and the linker make of the two sources, `boot.bin` and `boot.sys`, and the
addresses they give to `first_cluster` and `tmp_cursor_row`. The linker script would let stage 2 grow
over the place for the kernel. -/
structure BootCode where
  stage1 : List Byte
  stage2 : List Byte
  firstCluster : Word
  tmpCursorRow : Nat
  hasBlock : HasBlock stage1
  bootId : stage1.getD 510 0 = 0x55 ∧ stage1.getD 511 0 = 0xAA
  firstCluster_ge : STACK_BASE.toNat ≤ firstCluster.toNat
  firstCluster_le : firstCluster.toNat + 2 ≤ 0x7DFE
  tmpCursorRow_ge : STAGE2_BASE.toNat ≤ tmpCursorRow
  tmpCursorRow_le : tmpCursorRow + VARIABLES_SIZE ≤ STAGE2_BASE.toNat + stage2.length
  zeroed : ∀ i < VARIABLES_SIZE, stage2.getD (tmpCursorRow - STAGE2_BASE.toNat + i) 0 = 0
  stage2_le : STAGE2_BASE.toNat + stage2.length ≤ KERNEL_LOAD.toNat

def BootCode.tmpCursorCol (A : BootCode) : Nat := A.tmpCursorRow + 4
def BootCode.bootInfo (A : BootCode) : Nat := A.tmpCursorRow + 8

def BI_EBDA_BASE : Nat := 0x00
def BI_MEM_MAP : Nat := 0x04
def BI_KB_LOW : Nat := 0x08
def BI_KB_HIGH : Nat := 0x0C
def BI_KB_HIGH_E801h : Nat := 0x10
def BI_KB_EXTENDED : Nat := 0x14
def BI_KERNEL_SIZE : Nat := 0x18
def BI_HWFLAGS : Nat := 0x1C
def BI_A20_METHOD : Nat := 0x20
def BI_VGA_MODE : Nat := 0x24

def longBytes (x : BitVec 32) : List Byte :=
  [x.extractLsb' 0 8, x.extractLsb' 8 8, x.extractLsb' 16 8, x.extractLsb' 24 8]

def storeLong (m : Memory) (a : Nat) (x : BitVec 32) : Memory := overlay m a (longBytes x)

/-! ## The BIOS -/

/-- What a call of the BIOS returns in the flags and the registers, and what is on the stack and in
the memory of the BIOS behind it. -/
structure Answer where
  carry : Bool
  zero : Bool
  ax : Word
  bx : Word
  cx : Word
  dx : Word
  scratch : Memory

def Answer.ah (r : Answer) : Byte := r.ax.extractLsb' 8 8

/-- What the BIOS answers to `INT 15h` with `AX = E820h`: the carry flag, the status in `ah`, the
continuation value in `ebx`, the size in `cl`, and the bytes that it stores. -/
structure MapAnswer where
  carry : Bool
  ah : Byte
  ebx : BitVec 32
  cl : Byte
  entry : List Byte
  scratch : Memory

def MapAnswer.failed (r : MapAnswer) : Bool := r.carry || r.ah == 0x80 || r.ah == 0x86

/-- The answers to the calls of stage 2, in its order: `INT 11h`, seven times `INT 10h`, `INT 15h` with
`AX = 2401h`, `E820h` and `E801h` and with `AH = 88h`, and `INT 12h`; whether the A20 gate is open when
it is tested for the nth time; and whether the keyboard controller becomes ready. -/
structure Bios where
  int11 : Answer
  video : Nat → Answer
  gate : Nat → Bool
  a20 : Answer
  keyboardReady : Bool
  map : Nat → MapAnswer
  e801 : Answer
  extended : Answer
  int12 : Answer

def EBDA_ADDR : Word := 0x40E

namespace Bios

def ebdaSegment (bios : Bios) : Word := loadWord bios.int11.scratch EBDA_ADDR

def top (bios : Bios) : Nat :=
  if bios.ebdaSegment = 0 then 1024 * bios.int12.ax.toNat else 16 * bios.ebdaSegment.toNat

end Bios

def vgaError : Halt := .panic "\r\nVGA initialization error!"
def badMode : Halt := .panic "\r\nInvalid VGA mode!"
def badFont : Halt := .panic "\r\nInvalid VGA font!"
def a20Error : Halt := .panic "\rA20 error!"
def memoryError : Halt := .panic "\r\nMemory error!"
def notEnoughMemory : Halt := .panic "\r\nNot enough system memory!"
def kernelTooBig : Halt := .panic "\r\nKernel image too big!"

/-! ## The memory map -/

/-- The loop of `_detectmem_e820h`, which stores `mem_map` where it comes to the end of the table. The
upper half of `edi` is zero. -/
def e820Loop (w : Workspace) (memMap : Nat) (answers : Nat → MapAnswer) :
    Nat → Nat → Word → Memory → Call Memory
  | 0, _, _, _ => .error .diverges
  | calls + 1, n, di, m =>
    let r := answers n
    if w.Free di.toNat r.entry.length then
      let m := w.afterCall r.scratch (overlay m di.toNat r.entry)
      if r.failed then .ok m
      else if r.ebx = 0 then .ok (storeLong m memMap (MEMMAP_BASE.setWidth 32))
      else
        let di := di + BitVec.ofNat 16 MAP_ENTRY_SIZE
        if r.cl = 0x14 then e820Loop w memMap answers calls (n + 1) di m
        else if w.Free (di - 4).toNat 2 then
          e820Loop w memMap answers calls (n + 1) di (overlay m (di - 4).toNat [0, 0])
        else .error .fault
    else .error .fault

section Stage2
variable (A : BootCode) (w : Workspace) (bios : Bios)

/-! ## `init_vga` -/

def videoCall (n : Nat) (e : Halt) (m : Memory) : Call Memory :=
  if (bios.video n).carry then .error e else .ok (w.afterCall (bios.video n).scratch m)

def initVga (m : Memory) : Call Memory := do
  let m ← videoCall w bios 0 vgaError m
  let m := overlay m A.tmpCursorRow [(bios.video 0).dx.extractLsb' 8 8]
  let m := overlay m A.tmpCursorCol [(bios.video 0).dx.extractLsb' 0 8]
  let m ← videoCall w bios 1 badMode m
  -- `VGA_FONT` is one of the three fonts
  let m ← videoCall w bios 2 badFont m
  let m ← videoCall w bios 3 vgaError m
  let m ← videoCall w bios 4 vgaError m
  let m := overlay m (A.bootInfo + BI_VGA_MODE) [(bios.video 4).ax.extractLsb' 0 8 &&& 0x7F]
  let m ← videoCall w bios 5 vgaError m
  videoCall w bios 6 vgaError m

/-! ## `enable_a20` -/

/-- The last word of the boot sector. -/
def BOOT_ID : Word := 0x7DFE
def BOOT_ID_HIGH : Nat := 0x107DFE

/-- The number of the test `n`: whether the gate is open, as far as it shows, and memory with the word
in the boot sector rotated. -/
def testA20 (n : Nat) (m : Memory) : Bool × Memory :=
  let id := (loadWord m BOOT_ID).rotateRight 4
  let m := storeWord m BOOT_ID.toNat id
  let high := if bios.gate n then getPair m BOOT_ID_HIGH else id
  (!(id == high), m)

def setMethod (x : Word) (m : Memory) : Memory := storeWord m (A.bootInfo + BI_A20_METHOD) x

def enableA20Bios (m : Memory) : Memory :=
  let m := w.afterCall bios.a20.scratch m
  if bios.a20.carry || bios.a20.ah == 0x86 then m else setMethod A A20_BIOS m

def enableA20Port92h (m : Memory) : Memory := setMethod A A20_PORT92 m

/-- Both flushes of the keyboard controller, and the wait between them, end where it becomes ready. -/
def enableA20Keyboard (m : Memory) : Call Memory :=
  if bios.keyboardReady then .ok (setMethod A A20_KEYBOARD m) else .error .diverges

def enableA20 (m : Memory) : Call Memory :=
  match testA20 bios 0 m with
  | (true, m) => .ok m
  | (false, m) =>
    match testA20 bios 1 (enableA20Bios A w bios m) with
    | (true, m) => .ok m
    | (false, m) =>
      match testA20 bios 2 (enableA20Port92h A m) with
      | (true, m) => .ok m
      | (false, m) => do
        match testA20 bios 3 (← enableA20Keyboard A bios m) with
        | (true, m) => return m
        | (false, _) => .error a20Error

/-! ## `detect_memory` -/

def detectE820h (calls : Nat) (m : Memory) : Call Memory :=
  e820Loop w (A.bootInfo + BI_MEM_MAP) bios.map calls 0 MEMMAP_BASE m

def detectE801h (m : Memory) : Memory :=
  let r := bios.e801
  let m := w.afterCall r.scratch m
  if r.carry then m
  else
    let (ax, bx) := if r.cx = 0 then (r.ax, r.bx) else (r.cx, r.dx)
    let m := storeWord m (A.bootInfo + BI_KB_HIGH_E801h) ax
    storeWord m (A.bootInfo + BI_KB_EXTENDED) bx

/-- `INT 15h` with `AH = 88h`. -/
def detectExtended (m : Memory) : Memory :=
  let r := bios.extended
  let m := w.afterCall r.scratch m
  if r.carry || r.ah == 0x80 || r.ah == 0x86 then m
  else storeWord m (A.bootInfo + BI_KB_HIGH) r.ax

/-- `INT 12h`; `jz` tests a flag that the store of `kb_low` does not set. -/
def detectConventional (m : Memory) : Call Memory :=
  let r := bios.int12
  let m := w.afterCall r.scratch m
  if r.carry then .error memoryError
  else
    let m := storeWord m (A.bootInfo + BI_KB_LOW) r.ax
    if r.zero then .error memoryError else .ok m

def detectMemory (calls : Nat) (m : Memory) : Call Memory := do
  let m ← detectE820h A w bios calls m
  let m ← detectConventional A w bios (detectExtended A w bios (detectE801h A w bios m))
  if getLong m (A.bootInfo + BI_KB_HIGH) < MEMORY_REQUIRED >>> 10 - 1024 then .error notEnoughMemory
  else return m

/-! ## The kernel -/

/-- `check_kernel_size`; `jl` compares signed numbers. -/
def checkKernelSize (m : Memory) (ecx : BitVec 32) : Call Unit :=
  let ebdaBase := getLong m (A.bootInfo + BI_EBDA_BASE)
  let top := if ebdaBase = 0 then getLong m (A.bootInfo + BI_KB_LOW) <<< 10 else ebdaBase
  if (top - KERNEL_LOAD).slt ecx then .error kernelTooBig else .ok ()

def kernelFilename : List Byte := text "OHWES   SYS".toList

/-- `rep movsb`, upwards. -/
def repMovsb (m : Memory) (edi esi ecx : Nat) : Memory := Flat.memcpy m edi esi ecx

/-! ## `stage2` -/

/-- The flags of the hardware and the address of the extended data of the BIOS. -/
def hardwareInfo (m : Memory) : Memory :=
  let m := w.afterCall bios.int11.scratch m
  let ebx := (loadWord m EBDA_ADDR).setWidth 32 <<< 4
  let m := storeWord m (A.bootInfo + BI_HWFLAGS) bios.int11.ax
  storeLong m (A.bootInfo + BI_EBDA_BASE) ebx

def collectInfo (calls : Nat) (m : Memory) : Call Memory := do
  let m ← initVga A w bios (hardwareInfo A w bios m)
  let m ← enableA20 A w bios m
  detectMemory A w bios calls m

variable (v : Drive) (b : BiosParamBlock)

/-- Stage 2 from its search for the kernel to the jump there. -/
def loadKernel (m : Machine) : Call Machine := do
  let di ← findFile b m.memory kernelFilename
  let kernelSize := loadLong m.memory (di + FILESIZE)
  let m := { m with memory := storeLong m.memory (A.bootInfo + BI_KERNEL_SIZE) kernelSize }
  checkKernelSize A m.memory kernelSize
  let (_, m) ← loadFile w v b A.firstCluster m KERNEL_SEGMENT 0 di
  let ecx := getLong m.memory (A.bootInfo + BI_KERNEL_SIZE)
  return { m with memory := repMovsb m.memory KERNEL_BASE KERNEL_LOAD.toNat ecx.toNat }

def stage2 (calls : Nat) (m : Machine) : Call Machine := do
  let memory ← collectInfo A w bios calls m.memory
  loadKernel A w v b { m with memory := memory }

end Stage2

end Ohwes.Boot

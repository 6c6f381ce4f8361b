import Ohwes.I386.Paging
import Ohwes.Libc.Ctype

/-! # `i386/kernel/gdbstub.c`: debugging over the serial port

`Gdb` is `struct gdb_state` with what is on the other side of it: the characters still to come from
the host (a NUL stands for a time-out, which `gdb_getc` reports in the same way), the characters
sent, and the memory that `m` and `M` work on. When the host sends nothing more the stub polls its
line for ever. A buffer with its length is the list of its bytes; the packet buffer of `gdb_main`
and the length next to it are locals that outlive a packet, so they are kept as they are, and a
local that nobody has written yet is `none`. The debug prints are switched off in the source. -/

namespace Ohwes
set_option autoImplicit false

def EOF : Int := -1
def GDB_MAXLEN : Nat := 512
def EFLAGS_TF : BitVec 32 := 0x100
def SIGINT : BitVec 32 := 2
def SIGTRAP : BitVec 32 := 5
def SERIAL_DEBUG_PORT : BitVec 16 := 0x3F8
def GDB_EUNKNOWN : BitVec 32 := 0
def GDB_EFAULT : BitVec 32 := 14
def GDB_IER_RDA : Byte := 0x01
def CTRL_C : Byte := 0x03
def PACKET_START : Byte := 0x24
def PACKET_END : Byte := 0x23
def ACK : Byte := 0x2B
def NACK : Byte := 0x2D

/-- `enum gdb_i386_regs`. -/
inductive GdbReg where
  | eax | ecx | edx | ebx | esp | ebp | esi | edi | eip | eflags | cs | ss | ds | es | fs | gs
  deriving DecidableEq, Repr

/-- The registers in the order of the array. -/
def GdbReg.all : List GdbReg :=
  [.eax, .ecx, .edx, .ebx, .esp, .ebp, .esi, .edi, .eip, .eflags, .cs, .ss, .ds, .es, .fs, .gs]

/-- `struct iregs`, less the interrupt's number and error code. -/
structure Iregs where
  ebx : BitVec 32
  ecx : BitVec 32
  edx : BitVec 32
  esi : BitVec 32
  edi : BitVec 32
  ebp : BitVec 32
  eax : BitVec 32
  ds : BitVec 32
  es : BitVec 32
  fs : BitVec 32
  gs : BitVec 32
  eip : BitVec 32
  cs : BitVec 32
  eflags : BitVec 32
  esp : BitVec 32
  ss : BitVec 32
  deriving DecidableEq, Repr

abbrev GdbRegs := GdbReg → BitVec 32

structure Gdb where
  signum : BitVec 32
  pendingChar : Byte
  regs : GdbRegs
  txBuf : List Byte
  ackCount : BitVec 32
  nackCount : BitVec 32
  txpktCount : BitVec 32
  rxpktCount : BitVec 32
  ioPort : BitVec 16
  noInt : Bool
  ier : Byte
  input : List Byte
  output : List Byte
  mem : Memory
  pgdir : Ptr

/-- The register array as the bytes it consists of. -/
def regsBytes (regs : GdbRegs) : List Byte := GdbReg.all.flatMap fun r => leBytes (regs r)

def regsOf (bytes : List Byte) : GdbRegs := fun r => leWord bytes (4 * GdbReg.all.idxOf r)

def gdbCapture (g : Gdb) (regs : Iregs) (signum : BitVec 32) : Gdb :=
  { g with
    signum
    regs := fun
      | .eax => regs.eax | .ecx => regs.ecx | .edx => regs.edx | .ebx => regs.ebx
      | .esp => regs.esp | .ebp => regs.ebp | .esi => regs.esi | .edi => regs.edi
      | .eip => regs.eip | .eflags => regs.eflags | .cs => regs.cs | .ss => regs.ss
      | .ds => regs.ds | .es => regs.es | .fs => regs.fs | .gs => regs.gs }

def gdbApply (g : Gdb) : Iregs where
  ebx := g.regs .ebx
  ecx := g.regs .ecx
  edx := g.regs .edx
  esi := g.regs .esi
  edi := g.regs .edi
  ebp := g.regs .ebp
  eax := g.regs .eax
  ds := g.regs .ds
  es := g.regs .es
  fs := g.regs .fs
  gs := g.regs .gs
  eip := g.regs .eip
  cs := g.regs .cs
  eflags := g.regs .eflags
  esp := g.regs .esp
  ss := g.regs .ss

/-! ## Data encoding and decoding -/

def hexPair (c : Byte) : List Byte := [toxdigit (c >>> (4 : Nat)), toxdigit (c &&& 0xF)]

def encodeHex (bufsiz : Nat) (data : List Byte) : Option (List Byte) :=
  if data.length * 2 > bufsiz then none
  else some (data.flatMap hexPair)

/-- What a character adds to the byte it is a digit of; other characters add nothing. -/
def hexDigit (c : Byte) : Byte :=
  if isdigit c then c - 0x30
  else if isxdigit c then tolower c - 0x61 + 0xA
  else 0

/-- The first `len` pairs of digits. -/
def decodePairs : Nat → List Byte → List Byte
  | len + 1, c :: d :: buf => (hexDigit c <<< (4 : Nat) + hexDigit d) :: decodePairs len buf
  | _, _ => []

def decodeHex (buf : List Byte) (len : Nat) : Option (List Byte) :=
  if len * 2 > buf.length then none else some (decodePairs len buf)

/-! ## Characters -/

/-- The characters `gdb_getc` will give, in order. -/
def Gdb.upcoming (g : Gdb) : List Byte :=
  if g.pendingChar != 0 then g.pendingChar :: g.input else g.input

/-- After the characters before `rest` have been read. -/
def Gdb.readTo (g : Gdb) (rest : List Byte) : Gdb := { g with pendingChar := 0, input := rest }

def gdbPutc (g : Gdb) (c : Byte) : Gdb := { g with output := g.output ++ [c] }

/-- `c == EOF` for a `char`. -/
def isEof (c : Byte) : Bool := c.toInt == EOF

/-! ## Packets -/

def checksum (data : List Byte) : Byte := data.foldl (· + ·) 0

/-- The part of `gdb_send_packet` before it waits for an acknowledgement. -/
def emitPacket (g : Gdb) (buf : List Byte) : Gdb :=
  { g with
    txBuf := buf
    output := g.output ++ PACKET_START :: buf ++
      PACKET_END :: hexPair (checksum buf)
    txpktCount := g.txpktCount + 1 }

def gdbHandleAck (g : Gdb) : Gdb := { g with ackCount := g.ackCount + 1 }

def countNack (g : Gdb) : Gdb := { g with nackCount := g.nackCount + 1 }

/-- `gdb_recv_ack` on the characters to come. A NACK sends the last packet again and waits again;
anything else but an ACK becomes the pending character. -/
def recvAck : List Byte → Gdb → Call (Int × Gdb)
  | [], _ => .error .diverges
  | c :: rest, g =>
    let g := g.readTo rest
    if c = ACK then .ok (0, gdbHandleAck g)
    else if c = NACK then
      if g.txBuf.length > GDB_MAXLEN - 1 then .ok (EOF, countNack g)
      else recvAck rest (emitPacket (countNack g) g.txBuf)
    else .ok (c.toInt, { g with pendingChar := c })

def gdbSendPacket (g : Gdb) (buf : List Byte) : Call (Int × Gdb) :=
  if buf.length > GDB_MAXLEN - 1 then .ok (EOF, g)
  else recvAck (emitPacket g buf).upcoming (emitPacket g buf)

def gdbHandleNack (g : Gdb) : Call (Int × Gdb) := gdbSendPacket (countNack g) g.txBuf

def gdbSendOkPacket (g : Gdb) : Call (Int × Gdb) := gdbSendPacket g [0x4F, 0x4B]

def gdbSendEmptyPacket (g : Gdb) : Call (Int × Gdb) := gdbSendPacket g []

/-- A packet of a letter and the hex digits of the low byte of a number. -/
def sendCodePacket (letter : Byte) (g : Gdb) (code : BitVec 32) : Call (Int × Gdb) :=
  match encodeHex 7 [code.truncate 8] with
  | none => .ok (EOF, g)
  | some hex => gdbSendPacket g (letter :: hex)

def gdbSendSignalPacket (g : Gdb) (signal : BitVec 32) : Call (Int × Gdb) :=
  sendCodePacket 0x53 g signal

def gdbSendErrorPacket (g : Gdb) (error : BitVec 32) : Call (Int × Gdb) :=
  sendCodePacket 0x45 g error

def gdbSendAck (g : Gdb) : Gdb := gdbPutc g ACK

def gdbSendNack (g : Gdb) : Gdb := gdbPutc g NACK

/-- How the wait for a packet ends. -/
inductive Start where
  | eof
  | interrupted
  | packet
  deriving DecidableEq, Repr

/-- The first loop of `gdb_recv_packet`, with at most `fuel` characters to come. -/
def awaitStart : Nat → Gdb → Call (Start × Gdb)
  | 0, _ => .error .diverges
  | fuel + 1, g =>
    match g.upcoming with
    | [] => .error .diverges
    | c :: rest =>
      let g := g.readTo rest
      if isEof c then .ok (.eof, g)
      else if c = CTRL_C then .ok (.interrupted, g)
      else if c = ACK then awaitStart fuel (gdbHandleAck g)
      else if c = NACK then do
        let x ← gdbHandleNack g
        awaitStart fuel x.2
      else if c = PACKET_START then .ok (.packet, g)
      else awaitStart fuel g

/-- The packet buffer. -/
abbrev Pkt := Nat → Byte

/-- What the second loop of `gdb_recv_packet` has read. -/
inductive PacketData where
  | eof (rest : List Byte)
  | data (pkt : Pkt) (length : Nat) (cksum : Byte) (rest : List Byte)

/-- The second loop, with `length` characters read. -/
def readData (bufsiz : Nat) : List Byte → Pkt → Nat → Byte → Call PacketData
  | [], _, _, _ => .error .diverges
  | c :: rest, pkt, length, cksum =>
    if isEof c then .ok (.eof rest)
    else if c = PACKET_END then .ok (.data pkt length cksum rest)
    else if c = 0 then readData bufsiz rest pkt length cksum
    else if length ≥ bufsiz - 1 ∨ length ≥ GDB_MAXLEN - 1 then .ok (.eof rest)
    else readData bufsiz rest (Function.update pkt length c) (length + 1) (cksum + c)

/-- One character of the transmitted checksum. A time-out leaves the place in `cksum_buf` as it was
and still counts. -/
def readDigit : List Byte → Call (Option (Option Byte) × List Byte)
  | [] => .error .diverges
  | c :: rest =>
    if isEof c then .ok (none, rest)
    else if c = 0 then .ok (some none, rest)
    else .ok (some (some c), rest)

/-- What `gdb_recv_packet` leaves behind: its result, the packet buffer, the length next to it. -/
structure Received where
  status : Int
  pkt : Pkt
  len : Option Nat
  g : Gdb

/-- The end of `gdb_recv_packet`: the checksum is compared. -/
def verify (pkt : Pkt) (length : Nat) (cksum : Byte) (len : Option Nat) (g : Gdb) (d e : Byte) :
    Received :=
  let g := { g with rxpktCount := g.rxpktCount + 1 }
  if [cksum] ≠ decodePairs 1 [d, e] then { status := 0, pkt, len, g := gdbSendNack g }
  else { status := 0, pkt, len := some length, g := gdbSendAck g }

/-- `gdb_recv_packet` after the start of the packet. -/
def recvBody (bufsiz : Nat) (g : Gdb) (pkt : Pkt) (len : Option Nat) : Call Received := do
  match ← readData bufsiz g.upcoming pkt 0 0 with
  | .eof rest => .ok { status := EOF, pkt, len, g := g.readTo rest }
  | .data pkt length cksum rest =>
    let pkt := Function.update pkt length 0
    let d ← readDigit rest
    match d.1 with
    | none => .ok { status := EOF, pkt, len, g := g.readTo d.2 }
    | some d1 =>
      let e ← readDigit d.2
      match d1, e.1 with
      | _, none => .ok { status := EOF, pkt, len, g := g.readTo e.2 }
      | some d1, some (some e1) => .ok (verify pkt length cksum len (g.readTo e.2) d1 e1)
      | _, _ => .error .fault

def gdbRecvPacket (bufsiz : Nat) (g : Gdb) (pkt : Pkt) (len : Option Nat) : Call Received := do
  let x ← awaitStart (g.upcoming.length + 1) g
  match x.1 with
  | .eof => .ok { status := EOF, pkt, len, g := x.2 }
  | .interrupted => .ok { status := CTRL_C.toInt, pkt, len, g := x.2 }
  | .packet => recvBody bufsiz x.2 pkt len

/-! ## Commands -/

def gdbStep (g : Gdb) : Gdb :=
  { g with regs := Function.update g.regs .eflags (g.regs .eflags ||| EFLAGS_TF) }

def gdbContinue (g : Gdb) : Gdb :=
  { g with
    regs := Function.update g.regs .eflags (g.regs .eflags &&& ~~~EFLAGS_TF)
    ier := GDB_IER_RDA }

def gdbDetach (g : Gdb) : Call Gdb := do
  let x ← gdbSendOkPacket g
  .ok (gdbContinue x.2)

def sendEncoded (bufsiz : Nat) (g : Gdb) (data : List Byte) : Call (Int × Gdb) :=
  match encodeHex bufsiz data with
  | none => .ok (EOF, g)
  | some hex => gdbSendPacket g hex

def gdbReadRegs (g : Gdb) : Call (Int × Gdb) := sendEncoded (4 * 16 * 2) g (regsBytes g.regs)

/-- The `n` characters of a buffer from `i` on. -/
def Pkt.chars (pkt : Pkt) (i n : Nat) : List Byte := (List.range n).map fun k => pkt (i + k)

/-- `pkt` is the buffer of `gdb_main`; the command's own characters start behind the letter. -/
def gdbWriteRegs (g : Gdb) (pkt : Pkt) (pktlen : Nat) : Call (Int × Gdb) :=
  match decodeHex (pkt.chars 1 pktlen) (4 * 16) with
  | none => .ok (EOF, g)
  | some bytes => gdbSendOkPacket { g with regs := regsOf bytes }

/-- A C string that a buffer holds. -/
def cString (chars : List Byte) : CString := chars.takeWhile (· != 0)

/-- The `count` bytes of memory from `addr` on. -/
def readMem (m : Memory) (addr : Ptr) (count : Nat) : List Byte :=
  (List.range count).map fun i => m (addr + BitVec.ofNat 32 i)

def writeMem (m : Memory) (addr : Ptr) (data : List Byte) : Memory :=
  (List.range data.length).foldl
    (fun m i => Function.update m (addr + BitVec.ofNat 32 i) (data.getD i 0)) m

def gdbReadMem (g : Gdb) (pkt : Pkt) (pktlen : Nat) : Call (Int × Gdb) :=
  let body := cString (pkt.chars 1 pktlen)
  let addr := strtol body 16
  let p := addr.2.getD 0
  if body.length ≤ p then .ok (EOF, g)
  else
    let count := (strtol (body.drop (p + 1)) 16).1
    if count.toNat > GDB_MAXLEN / 2 then .ok (EOF, g)
    else if !virtAddrValid g.mem g.pgdir addr.1 || !virtAddrValid g.mem g.pgdir (addr.1 + count) then
      gdbSendErrorPacket g GDB_EFAULT
    else sendEncoded GDB_MAXLEN g (readMem g.mem addr.1 count.toNat)

def gdbWriteMem (g : Gdb) (pkt : Pkt) (pktlen : Nat) : Call (Int × Gdb) :=
  let body := cString (pkt.chars 1 pktlen)
  let addr := strtol body 16
  let p := addr.2.getD 0
  if body.getD p 0 ≠ 0x2C then .ok (EOF, g)
  else
    let count := strtol (body.drop (p + 1)) 16
    let q := p + 1 + count.2.getD 0
    if body.getD q 0 ≠ 0x3A then .ok (EOF, g)
    else if count.1.toNat > GDB_MAXLEN / 2 then .ok (EOF, g)
    else
      match decodeHex (pkt.chars (1 + (q + 1)) (pktlen - (q + 1))) count.1.toNat with
      | none => .ok (EOF, g)
      | some data =>
        if !virtAddrValid g.mem g.pgdir addr.1 || !virtAddrValid g.mem g.pgdir (addr.1 + count.1) then
          gdbSendErrorPacket g GDB_EFAULT
        else gdbSendOkPacket { g with mem := writeMem g.mem addr.1 data }

/-! ## `gdb_main` -/

/-- The loop of `gdb_main` where it starts over: the stub, the packet buffer and the length. -/
structure Session where
  g : Gdb
  pkt : Pkt
  len : Option Nat

/-- What a pass of the loop leads to: the next pass, the end of the loop, or `gdb_done`. -/
inductive Pass where
  | again (s : Session)
  | stop (status : Int) (g : Gdb)
  | leave (g : Gdb)

/-- The end of a pass: the loop goes on unless the command reported `EOF`. -/
def endPass (pkt : Pkt) (len : Nat) (x : Int × Gdb) : Pass :=
  if x.1 = EOF then .stop EOF x.2 else .again { g := x.2, pkt, len := some len }

/-- The command of a packet of length `len`; `m` and `M` put a NUL behind its last character. -/
def dispatch (g : Gdb) (pkt : Pkt) (len : Nat) : Call Pass :=
  match toChar (pkt 0) with
  | '?' => (endPass pkt len) <$> gdbSendSignalPacket g g.signum
  | 'g' => (endPass pkt len) <$> gdbReadRegs g
  | 'G' => (endPass pkt len) <$> gdbWriteRegs g pkt (len - 1)
  | 'm' => (endPass (Function.update pkt len 0) len) <$> gdbReadMem g pkt (len - 1)
  | 'M' => (endPass (Function.update pkt len 0) len) <$> gdbWriteMem g pkt (len - 1)
  | 's' => .ok (.leave (gdbStep g))
  | 'c' => .ok (.leave (gdbContinue g))
  | 'D' => .leave <$> gdbDetach g
  | '+' => .ok (endPass pkt len (0, gdbHandleAck g))
  | '-' => (endPass pkt len) <$> gdbHandleNack g
  | _ => (endPass pkt len) <$> gdbSendEmptyPacket g

def gdbPass (s : Session) : Call Pass := do
  let r ← gdbRecvPacket GDB_MAXLEN s.g s.pkt s.len
  if r.status = EOF then .ok (.stop EOF r.g)
  else if r.status = CTRL_C.toInt then do
    let x ← gdbSendSignalPacket r.g SIGINT
    .ok (.stop x.1 x.2)
  else
    match r.len with
    | none => .error .fault
    | some 0 => .ok (.again { g := r.g, pkt := r.pkt, len := some 0 })
    | some len => dispatch r.g r.pkt len

/-- The end of `gdb_main`: a communication error is reported. -/
def gdbEnd (status : Int) (g : Gdb) : Call Gdb :=
  if status = EOF then do
    let x ← gdbSendErrorPacket g GDB_EUNKNOWN
    .ok x.2
  else .ok g

/-- The loop, with at most `fuel` characters to come: every pass reads at least one. -/
def gdbLoop : Nat → Session → Call Gdb
  | 0, _ => .error .diverges
  | fuel + 1, s => do
    match ← gdbPass s with
    | .again s => gdbLoop fuel s
    | .stop status g => gdbEnd status g
    | .leave g => .ok g

/-- What `gdb_main` finds: an interrupt of the port with a character, and which. -/
def comInt (g : Gdb) : Bool := !g.noInt && g.pendingChar != 0

/-- The part before the loop. The status is `none` where an interrupt that does not start a packet
is ignored. -/
def gdbEnter (g : Gdb) : Call (Option Int × Gdb) := do
  let ctrlC := comInt g && g.pendingChar == CTRL_C
  let packetStart := comInt g && g.pendingChar == PACKET_START
  let fresh := !comInt g || ctrlC
  let g := if g.ioPort == 0 then { g with ioPort := SERIAL_DEBUG_PORT } else g
  assert (g.ioPort == SERIAL_DEBUG_PORT)
  let g := if ctrlC then { g with pendingChar := 0 } else g
  if fresh then
    let x ← gdbSendSignalPacket g g.signum
    .ok (some x.1, { x.2 with ier := 0 })
  else if !packetStart then .ok (none, { g with ier := GDB_IER_RDA })
  else .ok (some 0, { g with ier := 0 })

/-- `pkt` is what the stack holds where the packet buffer lies. -/
def gdbMain (pkt : Pkt) (debugging : Bool) (g : Gdb) (regs : Iregs) (signum : BitVec 32) :
    Call (Gdb × Iregs) :=
  if debugging then .ok (g, regs)
  else do
    let x ← gdbEnter (gdbCapture g regs signum)
    let g ← match x.1 with
      | none => Except.ok x.2
      | some status =>
        if status = EOF then gdbEnd status x.2
        else gdbLoop (x.2.upcoming.length + 1) { g := x.2, pkt, len := none }
    .ok (g, gdbApply g)

end Ohwes

import Ohwes.Kernel.Basic
import Ohwes.Libc.String
import Ohwes.Library.CircularBuffer

/-! # `kernel/console.c`

A message is kept in the log and written to every console; a console that is registered late is
given the log first. The copy of each character to port `0xE9` is left out. -/

namespace Ohwes
open Library
set_option autoImplicit false

def KPRINT_MAX : Nat := 1024
def KERNEL_LOG_SIZE : Nat := 8192

/-- `_kernel_log`, `_log_start` and `_log_size`. -/
structure KernelLog where
  chars : Nat → Byte
  start : Nat
  size : Nat

/-- Whether a console has the method, and whether its `setup` comes back. -/
structure ConsoleMethods where
  setup : Option (Call Unit)
  write : Bool

structure ConsoleState where
  log : KernelLog
  /-- `g_consoles`, in the order of `next`. -/
  consoles : List Ptr
  /-- The calls of `write`: the console and the characters. -/
  writes : List (Ptr × CString)

def KernelLog.put (log : KernelLog) (c : Byte) : KernelLog :=
  let chars := Function.update log.chars ((log.start + log.size) % KERNEL_LOG_SIZE) c
  if log.size < KERNEL_LOG_SIZE then { chars, start := log.start, size := log.size + 1 }
  else { chars, start := (log.start + 1) % KERNEL_LOG_SIZE, size := log.size }

def ConsoleState.write (s : ConsoleState) (cons : Ptr) (text : CString) : ConsoleState :=
  { s with writes := s.writes ++ [(cons, text)] }

section Calls
variable (methods : Ptr → ConsoleMethods)

/-- The log, for a console that has just been registered. -/
def replayLog (cons : Ptr) (s : ConsoleState) : ConsoleState :=
  if !(methods cons).write then s
  else if s.log.size < KERNEL_LOG_SIZE then
    s.write cons (slice s.log.chars s.log.start s.log.size)
  else
    (s.write cons (slice s.log.chars s.log.start (KERNEL_LOG_SIZE - s.log.start))).write cons
      (slice s.log.chars 0 s.log.start)

def registerConsole (cons : Ptr) (s : ConsoleState) : Call ConsoleState := do
  assert (cons != 0)
  if cons ∈ s.consoles then .ok s
  else do
    let s := { s with consoles := s.consoles ++ [cons] }
    (methods cons).setup.getD (.ok ())
    .ok (replayLog methods cons s)

/-- The inner loop of `console_write` with `left` characters to go: the log, where the loop stops,
and `linefeed`. -/
def logLine (buf : List Byte) : Nat → KernelLog → Nat → Call (KernelLog × Nat × Bool)
  | 0, log, p => .ok (log, p, false)
  | left + 1, log, p =>
    match buf[p]? with
    | none => .error .fault
    | some c =>
      if c = 0 then .ok (log, p, false)
      else if c = 0x0A then .ok (log.put c, p, true)
      else logLine buf left (log.put c) (p + 1)

/-- The loop over the consoles. -/
def writeLine (line : CString) (s : ConsoleState) : ConsoleState :=
  s.consoles.foldl (fun s cons => if (methods cons).write then s.write cons line else s) s

/-- The outer loop, which makes a pass for each line; the last pass finds the end. -/
def writeLines (buf : List Byte) (count : Nat) :
    Nat → ConsoleState → Nat → Call (ConsoleState × Nat)
  | 0, _, _ => .error .diverges
  | passes + 1, s, p =>
    if p < count then
      match buf[p]? with
      | none => .error .fault
      | some c =>
        if c = 0 then .ok (s, p)
        else do
          let (log, q, linefeed) ← logLine buf (count - p) s.log p
          let line := (buf.drop p).take (q - p + linefeed.toNat)
          writeLines buf count passes (writeLine methods line { s with log }) (q + linefeed.toNat)
    else .ok (s, p)

variable (vtConsole : Ptr)

/-- With `EARLY_PRINT`. -/
def ensureConsole (s : ConsoleState) : Call ConsoleState :=
  if s.consoles = [] then registerConsole methods vtConsole s else .ok s

/-- The state, and the count of characters taken. -/
def consoleWrite (buf : List Byte) (count : Nat) (s : ConsoleState) : Call (ConsoleState × Nat) := do
  let s ← ensureConsole methods vtConsole s
  let count := min count KPRINT_MAX
  writeLines methods buf count (count + 1) s 0

/-- The memory behind `buf` ends neither before the NUL nor before the last character taken. -/
structure Message where
  buf : List Byte
  count : Nat
  readable : buf.length < min count KPRINT_MAX → 0 ∈ buf

inductive ConsoleOp where
  | register (cons : Ptr)
  | write (msg : Message)

def consoleStep (s : ConsoleState) : ConsoleOp → Call ConsoleState
  | .register cons => registerConsole methods cons s
  | .write msg => (consoleWrite methods vtConsole msg.buf msg.count s).map (·.1)

end Calls

def bootConsoles : ConsoleState := ⟨⟨fun _ => 0, 0, 0⟩, [], []⟩

/-! ## What is logged and what is given -/

/-- The characters that are taken of `left` characters. -/
def loggable (u : List Byte) (left : Nat) : CString := (u.take left).takeWhile (· != 0)

def ConsoleOp.logged : ConsoleOp → CString
  | .register _ => []
  | .write msg => loggable msg.buf (min msg.count KPRINT_MAX)

def loggedBy (ops : List ConsoleOp) : CString := ops.flatMap ConsoleOp.logged

/-- The characters a console has been given, one call after the other. -/
def ConsoleState.given (s : ConsoleState) (cons : Ptr) : CString :=
  (s.writes.filter (·.1 == cons)).flatMap (·.2)

end Ohwes

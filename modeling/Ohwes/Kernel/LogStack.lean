import Ohwes.Kernel.ConsoleRuns
import Ohwes.Library.Cpu386

/-! # The kernel log and the kernel's stack

`kernel.ld` puts the label of a stack at its lower end, and stacks grow down. What the kernel pushes
goes into the section in front of that label, which is the log. -/

namespace Ohwes
open Library
set_option autoImplicit false

/-- The log as it is in memory: `_log_start`, `_log_size`, and the characters at `__klog`. -/
structure StoredLog where
  mem : Memory386
  start : Nat
  size : Nat

/-- A label of `kernel.ld` from the one before. -/
def kstackBehind (klog : BitVec 32) : BitVec 32 := klog + BitVec.ofNat 32 KERNEL_LOG_SIZE

namespace StoredLog
variable (klog : BitVec 32)

/-- Where the next character goes. -/
def cursor (s : StoredLog) : Nat := (s.start + s.size) % KERNEL_LOG_SIZE

def put (s : StoredLog) (c : Byte) : StoredLog :=
  let mem := Function.update s.mem (klog + BitVec.ofNat 32 s.cursor) c
  if s.size < KERNEL_LOG_SIZE then { mem, start := s.start, size := s.size + 1 }
  else { mem, start := (s.start + 1) % KERNEL_LOG_SIZE, size := s.size }

def putAll (s : StoredLog) (text : List Byte) : StoredLog := text.foldl (put klog) s

/-- What `console_write` stores of a message: not more than `KPRINT_MAX` characters, and none from a NUL on. -/
def consoleWrite (s : StoredLog) (msg : Message) : StoredLog :=
  s.putAll klog (loggable msg.buf (min msg.count KPRINT_MAX))

/-- The log of a machine that has just been started. -/
def boot (m : Memory386) : StoredLog := ⟨m, 0, 0⟩

/-- Memory holds the characters of a log. -/
structure Stores (s : StoredLog) (log : KernelLog) : Prop where
  start : s.start = log.start
  size : s.size = log.size
  chars : ∀ i < KERNEL_LOG_SIZE, s.mem (klog + BitVec.ofNat 32 i) = log.chars i

theorem address_inj {i j : Nat} (hi : i < KERNEL_LOG_SIZE) (hj : j < KERNEL_LOG_SIZE)
    (h : klog + BitVec.ofNat 32 i = klog + BitVec.ofNat 32 j) : i = j := by
  rw [KERNEL_LOG_SIZE] at hi hj
  bv_omega

/-- It is the log of `console_write`. -/
theorem Stores.put {s : StoredLog} {log : KernelLog} (h : Stores klog s log) (c : Byte) :
    Stores klog (s.put klog c) (log.put c) := by
  have hcursor : s.cursor = (log.start + log.size) % KERNEL_LOG_SIZE := by
    rw [cursor, h.start, h.size]
  have hchars : ∀ i < KERNEL_LOG_SIZE,
      Function.update s.mem (klog + BitVec.ofNat 32 s.cursor) c (klog + BitVec.ofNat 32 i) =
        Function.update log.chars ((log.start + log.size) % KERNEL_LOG_SIZE) c i := by
    intro i hi
    have hlt : s.cursor < KERNEL_LOG_SIZE := Nat.mod_lt _ (by decide)
    rw [← hcursor]
    by_cases hsame : i = s.cursor
    · rw [hsame, Function.update_self, Function.update_self]
    · rw [Function.update_of_ne hsame,
        Function.update_of_ne fun he => hsame (address_inj klog hi hlt he), h.chars i hi]
  rw [StoredLog.put, KernelLog.put, h.size]
  split
  · exact ⟨h.start, rfl, hchars⟩
  · exact ⟨congrArg (fun n => (n + 1) % KERNEL_LOG_SIZE) h.start, rfl, hchars⟩

/-- The cursor goes round. -/
theorem put_cursor (s : StoredLog) (c : Byte) :
    (s.put klog c).cursor = (s.cursor + 1) % KERNEL_LOG_SIZE := by
  rw [put, cursor, cursor]
  split
  · dsimp only
    rw [Nat.mod_add_mod, Nat.add_assoc]
  · dsimp only
    rw [Nat.mod_add_mod, Nat.mod_add_mod]
    congr 1
    omega

theorem putAll_cursor (text : List Byte) (s : StoredLog) :
    (s.putAll klog text).cursor = (s.cursor + text.length) % KERNEL_LOG_SIZE := by
  induction text generalizing s with
  | nil =>
    rw [List.length_nil, Nat.add_zero, cursor]
    exact (Nat.mod_mod _ _).symm
  | cons c text ih =>
    rw [putAll, List.foldl_cons]
    refine (ih _).trans ?_
    rw [put_cursor, List.length_cons, Nat.mod_add_mod]
    congr 1
    omega

theorem put_mem (s : StoredLog) (c : Byte) :
    (s.put klog c).mem = Function.update s.mem (klog + BitVec.ofNat 32 s.cursor) c := by
  rw [put]
  split
  · rfl
  · rfl

/-- Characters leave alone what is before and behind them. -/
theorem putAll_mem_apart {i : Nat} (hi : i < KERNEL_LOG_SIZE) (text : List Byte) (s : StoredLog)
    (h : ∀ k < text.length, (s.cursor + k) % KERNEL_LOG_SIZE ≠ i) :
    (s.putAll klog text).mem (klog + BitVec.ofNat 32 i) = s.mem (klog + BitVec.ofNat 32 i) := by
  induction text generalizing s with
  | nil => rfl
  | cons c text ih =>
    have hlt : s.cursor < KERNEL_LOG_SIZE := Nat.mod_lt _ (by decide)
    have hfirst : i ≠ s.cursor := by
      have hzero := h 0 (Nat.succ_pos _)
      rw [Nat.add_zero, Nat.mod_eq_of_lt hlt] at hzero
      exact hzero.symm
    rw [putAll, List.foldl_cons]
    refine (ih (s.put klog c) fun k hk => ?_).trans ?_
    · have hnext := h (k + 1) (Nat.succ_lt_succ hk)
      rwa [put_cursor, Nat.mod_add_mod, Nat.add_assoc, Nat.add_comm 1 k]
    · rw [put_mem, Function.update_of_ne fun he => hfirst (address_inj klog hi hlt he)]

/-- A place that holds a character goes on holding it when only that character is printed. -/
theorem putAll_mem_same {a : BitVec 32} {c : Byte} (n : Nat) (s : StoredLog) (h : s.mem a = c) :
    (s.putAll klog (List.replicate n c)).mem a = c := by
  induction n generalizing s with
  | zero => exact h
  | succ n ih =>
    rw [List.replicate_succ, putAll, List.foldl_cons]
    refine ih (s.put klog c) ?_
    rw [put_mem, Function.update_apply, h, ite_self]

/-- A text of one character fills the places it reaches. -/
theorem putAll_mem_replicate {k n : Nat} (hk : k < n) (c : Byte) (s : StoredLog) :
    (s.putAll klog (List.replicate n c)).mem
      (klog + BitVec.ofNat 32 ((s.cursor + k) % KERNEL_LOG_SIZE)) = c := by
  induction n generalizing s k with
  | zero => omega
  | succ n ih =>
    rw [List.replicate_succ, putAll, List.foldl_cons]
    cases k with
    | zero =>
      have hlt : s.cursor < KERNEL_LOG_SIZE := Nat.mod_lt _ (by decide)
      refine putAll_mem_same klog n (s.put klog c) ?_
      rw [Nat.add_zero, Nat.mod_eq_of_lt hlt, put_mem, Function.update_self]
    | succ k =>
      have hplace := ih (Nat.lt_of_succ_lt_succ hk) (s.put klog c)
      rwa [put_cursor, Nat.mod_add_mod, Nat.add_assoc, Nat.add_comm 1 k] at hplace

/-- Where the stack is at byte `j`, counted down from the label. -/
def stackByte (s : StoredLog) (j : Nat) : Byte := s.mem (kstackBehind klog - BitVec.ofNat 32 j)

theorem stackByte_log (s : StoredLog) {j : Nat} (hj : j ≤ KERNEL_LOG_SIZE) :
    s.stackByte klog j = s.mem (klog + BitVec.ofNat 32 (KERNEL_LOG_SIZE - j)) := by
  have haddr : kstackBehind klog - BitVec.ofNat 32 j =
      klog + BitVec.ofNat 32 (KERNEL_LOG_SIZE - j) := by
    rw [KERNEL_LOG_SIZE] at hj
    rw [kstackBehind, KERNEL_LOG_SIZE]
    bv_omega
  rw [stackByte, haddr]

/-- A text leaves the stack alone when it ends in front of it. -/
theorem putAll_spares {s : StoredLog} {text : List Byte} {d j : Nat}
    (hroom : s.cursor + text.length + d ≤ KERNEL_LOG_SIZE) (hj : 1 ≤ j) (hd : j ≤ d) :
    (s.putAll klog text).stackByte klog j = s.stackByte klog j := by
  rw [stackByte_log _ _ (by omega), stackByte_log _ _ (by omega)]
  refine putAll_mem_apart klog (by omega) text s fun k hk => ?_
  rw [Nat.mod_eq_of_lt (by omega)]
  omega

/-- There is always another character that is printed. -/
theorem exists_other (c : Byte) : ∃ c' : Byte, c' ≠ 0 ∧ c' ≠ c := by
  by_cases h : c = 1
  · exact ⟨2, by decide, by rw [h]; decide⟩
  · exact ⟨1, by decide, fun he => h he.symm⟩

/-- A longer one reaches it, and then some text of that length, without a NUL, changes it. -/
theorem putAll_reaches {s : StoredLog} {n d : Nat} (hn : n ≠ 0) (hd : 1 ≤ d) (hsize : d ≤ KERNEL_LOG_SIZE)
    (hover : KERNEL_LOG_SIZE < s.cursor + n + d) :
    ∃ c : Byte, c ≠ 0 ∧ ∃ j, 1 ≤ j ∧ j ≤ d ∧
      (s.putAll klog (List.replicate n c)).stackByte klog j ≠ s.stackByte klog j := by
  have hlt : s.cursor < KERNEL_LOG_SIZE := Nat.mod_lt _ (by decide)
  -- the first character that is not in front of the stack
  obtain ⟨k, hk, hlow, hhigh⟩ : ∃ k < n, KERNEL_LOG_SIZE - d ≤ s.cursor + k ∧
      s.cursor + k < KERNEL_LOG_SIZE := by
    by_cases hin : KERNEL_LOG_SIZE - d ≤ s.cursor
    · exact ⟨0, by omega, by omega, by omega⟩
    · exact ⟨KERNEL_LOG_SIZE - d - s.cursor, by omega, by omega, by omega⟩
  have hj : KERNEL_LOG_SIZE - (s.cursor + k) ≤ KERNEL_LOG_SIZE := by omega
  have hplace : KERNEL_LOG_SIZE - (KERNEL_LOG_SIZE - (s.cursor + k)) = s.cursor + k := by omega
  obtain ⟨c, hc, hne⟩ := exists_other (s.stackByte klog (KERNEL_LOG_SIZE - (s.cursor + k)))
  refine ⟨c, hc, KERNEL_LOG_SIZE - (s.cursor + k), by omega, by omega, fun heq => ?_⟩
  have hfill := putAll_mem_replicate klog hk c s
  rw [Nat.mod_eq_of_lt hhigh] at hfill
  rw [← heq, stackByte_log klog _ hj, hplace, hfill] at hne
  exact hne rfl

/-- A message of that many characters. -/
def repeated (n : Nat) (c : Byte) : Message where
  buf := List.replicate (min n KPRINT_MAX) c
  count := n
  readable h := absurd h (by rw [List.length_replicate]; exact Nat.lt_irrefl _)

theorem consoleWrite_repeated (s : StoredLog) (n : Nat) {c : Byte} (hc : c ≠ 0) :
    s.consoleWrite klog (repeated n c) = s.putAll klog (List.replicate (min n KPRINT_MAX) c) := by
  have hall : ∀ x ∈ List.replicate (min n KPRINT_MAX) c, (x != 0) = true := fun x hx => by
    rw [List.eq_of_mem_replicate hx]
    simpa using hc
  rw [consoleWrite, loggable, repeated]
  dsimp only
  rw [List.take_of_length_le (by rw [List.length_replicate]), List.takeWhile_eq_self_iff.mpr hall]

end StoredLog

/-! ## What is on the stack -/

/-- The log in memory goes on being the log of `console_write`. -/
theorem StoredLog.Stores.putAll {klog : BitVec 32} {s : StoredLog} {log : KernelLog}
    (h : StoredLog.Stores klog s log) (text : List Byte) :
    StoredLog.Stores klog (s.putAll klog text) (log.putAll text) := by
  induction text generalizing s log with
  | nil => exact h
  | cons c text ih => exact ih (h.put klog c)

theorem ensureConsole_log {methods : Ptr → ConsoleMethods} {vtConsole : Ptr} {s s' : ConsoleState}
    {text : CString} (hinv : ConsoleInv s text) (h : ensureConsole methods vtConsole s = .ok s') :
    s'.log = s.log := by
  rw [ensureConsole] at h
  split at h
  · exact (registerConsole_spec hinv.keeps h).1
  · cases h
    rfl

/-- What `console_write` does to the log, it does to the log in memory. -/
theorem StoredLog.Stores.consoleWrite {klog : BitVec 32} {st : StoredLog}
    {methods : Ptr → ConsoleMethods} {vtConsole : Ptr} {s s' : ConsoleState} {text : CString} {count : Nat}
    {msg : Message} (hinv : ConsoleInv s text) (h : StoredLog.Stores klog st s.log)
    (hwrite : Ohwes.consoleWrite methods vtConsole msg.buf msg.count s = .ok (s', count)) :
    StoredLog.Stores klog (st.consoleWrite klog msg) s'.log := by
  cases hensure : ensureConsole methods vtConsole s with
  | error e =>
    rw [Ohwes.consoleWrite, hensure] at hwrite
    cases hwrite
  | ok s1 =>
    have hearly := ensureConsole_delivers hinv hensure
    obtain ⟨s2, hwrite2, hgives⟩ := consoleWrite_spec msg.readable hensure hearly.inv.nodup
    cases hwrite2.symm.trans hwrite
    rw [hgives.log, ensureConsole_log hinv hensure]
    exact h.putAll _

/-! ## Runs -/

/-- What can happen to the log and to memory: a message, or everything else that writes. -/
inductive LogOp
  | print (msg : Message)
  | store (mem : Memory386)

/-- The characters that get into the log. -/
def LogOp.text : LogOp → CString
  | .print msg => loggable msg.buf (min msg.count KPRINT_MAX)
  | .store _ => []

section Runs
variable (klog : BitVec 32)

def logStep (s : StoredLog) : LogOp → StoredLog
  | .print msg => s.consoleWrite klog msg
  | .store mem => { s with mem }

def logRun (ops : List LogOp) (s : StoredLog) : StoredLog := ops.foldl (logStep klog) s

def printed (ops : List LogOp) : CString := ops.flatMap LogOp.text

theorem logStep_cursor (s : StoredLog) (op : LogOp) :
    (logStep klog s op).cursor = (s.cursor + op.text.length) % KERNEL_LOG_SIZE := by
  cases op with
  | print msg => exact StoredLog.putAll_cursor klog _ s
  | store mem => exact (Nat.mod_mod _ _).symm

theorem logRun_cursor (ops : List LogOp) (s : StoredLog) :
    (logRun klog ops s).cursor = (s.cursor + (printed ops).length) % KERNEL_LOG_SIZE := by
  induction ops generalizing s with
  | nil => exact (Nat.mod_mod _ _).symm
  | cons op ops ih =>
    have hlen : (printed (op :: ops)).length = op.text.length + (printed ops).length := by
      rw [printed, printed, List.flatMap_cons, List.length_append]
    rw [logRun, List.foldl_cons]
    refine (ih (logStep klog s op)).trans ?_
    rw [logStep_cursor, Nat.mod_add_mod, hlen, Nat.add_assoc]

end Runs

/-- Whatever has been printed and pushed since the machine was started, the bytes on the kernel's stack
are safe from a message of `n` characters exactly when what is taken of it ends in front of them in the
log. -/
theorem log_spares_stack_iff (klog : BitVec 32) (m : Memory386) (ops : List LogOp) (n : Nat) {d : Nat}
    (hd : d ≤ KERNEL_LOG_SIZE) :
    (∀ msg : Message, msg.count = n → ∀ j, 1 ≤ j → j ≤ d →
      ((logRun klog ops (.boot m)).consoleWrite klog msg).stackByte klog j =
        (logRun klog ops (.boot m)).stackByte klog j) ↔
      n = 0 ∨ d = 0 ∨ (printed ops).length % KERNEL_LOG_SIZE + min n KPRINT_MAX + d ≤ KERNEL_LOG_SIZE := by
  have hcursor : (logRun klog ops (.boot m)).cursor = (printed ops).length % KERNEL_LOG_SIZE := by
    rw [logRun_cursor]
    exact congrArg (· % KERNEL_LOG_SIZE) (Nat.zero_add _)
  rw [← hcursor]
  constructor
  · intro hspare
    by_contra hnot
    obtain ⟨hn, hnot⟩ := not_or.mp hnot
    obtain ⟨hpos, hover⟩ := not_or.mp hnot
    have hsome : min n KPRINT_MAX ≠ 0 := by
      rw [KPRINT_MAX]
      omega
    obtain ⟨c, hc, j, hj, hjd, hne⟩ := StoredLog.putAll_reaches klog (s := logRun klog ops (.boot m))
      hsome (Nat.pos_of_ne_zero hpos) hd (Nat.lt_of_not_le hover)
    rw [← StoredLog.consoleWrite_repeated klog _ n hc] at hne
    exact hne (hspare (StoredLog.repeated n c) rfl j hj hjd)
  · intro hcases msg hcount j hj hjd
    have htaken : (loggable msg.buf (min msg.count KPRINT_MAX)).length ≤ min n KPRINT_MAX := by
      rw [← hcount]
      exact (List.takeWhile_prefix _).length_le.trans (List.length_take_le _ _)
    rcases hcases with hn | hzero | hroom
    · rw [hn, Nat.zero_min] at htaken
      rw [StoredLog.consoleWrite, List.eq_nil_of_length_eq_zero (Nat.le_zero.mp htaken)]
      rfl
    · omega
    · exact StoredLog.putAll_spares klog (by omega) hj hjd

/-- Nine lines of 900 characters. -/
def longBoot : List LogOp := List.replicate 9 (.print (StoredLog.repeated 900 0x2E))

/-- After them the frame of an interrupted program can be lost to a line. -/
theorem log_spares_stack_8100 : ¬ ∀ msg : Message, msg.count = 40 → ∀ j, 1 ≤ j → j ≤ 72 →
    ((logRun 0xC0120000 longBoot (.boot fun _ => 0)).consoleWrite 0xC0120000 msg).stackByte 0xC0120000 j =
      (logRun 0xC0120000 longBoot (.boot fun _ => 0)).stackByte 0xC0120000 j := by
  intro hspare
  have hlen : (printed longBoot).length = 8100 := by decide +kernel
  have hcases := (log_spares_stack_iff 0xC0120000 (fun _ => 0) longBoot 40 (d := 72) (by decide)).mp hspare
  rw [hlen, KERNEL_LOG_SIZE, KPRINT_MAX] at hcases
  omega

end Ohwes

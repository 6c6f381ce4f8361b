import Ohwes.Libc.Printf

/-! # `libc/printf.c`: where the output goes

The `putc` functions of the printf family with the memory they store into, and the family over
them. The terminating NUL goes through `putc` like every other character and is counted with them,
each store puts a NUL behind itself without asking for room, and a full `printf` buffer ends in a loop
that was left in the source. -/

namespace Ohwes
set_option autoImplicit false

def STDOUT_FILENO : Nat := 1
def STDERR_FILENO : Nat := 2
def PRINTF_BUFSIZ : Nat := 1024

/-- `struct printf_state` without its arguments, the memory around it, and the calls of `write` so
far: a descriptor and the bytes handed over. -/
structure PrintfState where
  memory : Memory
  buffer : Ptr
  bufferAvail : BitVec 32
  written : List (Nat × List Byte)

def PrintfState.write (s : PrintfState) (fildes : Nat) (bytes : List Byte) : PrintfState :=
  { s with written := s.written ++ [(fildes, bytes)] }

/-- What a `putc` returns; where it never returns, the state in which it stays. -/
abbrev Put := Except PrintfState (Int × PrintfState)

/-- The stores of a character. -/
def PrintfState.store (s : PrintfState) (c : Byte) : PrintfState :=
  let m := Function.update s.memory s.buffer c
  { s with memory := Function.update m (s.buffer + 1) 0, buffer := s.buffer + 1 }

def PrintfState.spend (s : PrintfState) : PrintfState := { s with bufferAvail := s.bufferAvail - 1 }

def sprintfPutc (s : PrintfState) (c : Byte) : Put := .ok (1, s.store c)

def snprintfPutc (s : PrintfState) (c : Byte) : Put :=
  if s.bufferAvail > 0 then do
    let (_, s) ← sprintfPutc s.spend c
    .ok (1, s)
  else .ok (1, s)

/-- What `_printf_putc` does when the buffer is full. The pointer is taken back only after the first
`write`, and nothing comes after the second. -/
def PrintfState.flush (s : PrintfState) : PrintfState :=
  let s := s.write STDERR_FILENO (bytesAt s.memory s.buffer PRINTF_BUFSIZ)
  let avail := BitVec.ofNat 32 PRINTF_BUFSIZ
  let s := { s with bufferAvail := avail, buffer := s.buffer - avail }
  s.write STDOUT_FILENO [0x2A]

def printfPutc (s : PrintfState) (c : Byte) : Put :=
  if s.bufferAvail = 0 then .error s.flush else sprintfPutc s.spend c

/-- `_putchar` on one character after the other. -/
def putAll (putc : PrintfState → Byte → Put) (s : PrintfState) (nwritten : Int) : List Byte → Put
  | [] => .ok (nwritten, s)
  | c :: out => do
    let (retval, s) ← putc s c
    if retval < 0 then .ok (retval, s) else putAll putc s (wrapInt (nwritten + retval)) out

section Family
variable (strings : Ptr → CString)

/-- `_doprintf` with its `putc`. A format that is `NULL` prints nothing. -/
def doprintfTo (putc : PrintfState → Byte → Put) (s : PrintfState) (format : Option (List Byte))
    (args : FormatArgs) : Call Put := do
  let out ← match format with
    | none => .ok []
    | some format => formatOut strings format args
  .ok (putAll putc s 0 (out ++ [0]))

def vsprintf (m : Memory) (buffer : Ptr) (format : Option (List Byte)) (args : FormatArgs) :
    Call Put :=
  doprintfTo strings sprintfPutc ⟨m, buffer, 0, []⟩ format args

def sprintf (m : Memory) (buffer : Ptr) (format : Option (List Byte)) (args : FormatArgs) :
    Call Put :=
  vsprintf strings m buffer format args

def vsnprintf (m : Memory) (buffer : Ptr) (bufsz : BitVec 32) (format : Option (List Byte))
    (args : FormatArgs) : Call Put :=
  doprintfTo strings snprintfPutc ⟨m, buffer, bufsz, []⟩ format args

def snprintf (m : Memory) (buffer : Ptr) (bufsz : BitVec 32) (format : Option (List Byte))
    (args : FormatArgs) : Call Put :=
  vsnprintf strings m buffer bufsz format args

/-- `vprintf`, whose buffer is on the stack. -/
def vprintf (m : Memory) (buffer : Ptr) (format : Option (List Byte)) (args : FormatArgs) :
    Call Put :=
  let s : PrintfState := ⟨m, buffer, BitVec.ofNat 32 PRINTF_BUFSIZ, []⟩
  match format with
  | none => .ok (.ok (- EINVAL, s))
  | some format => do
    let put ← doprintfTo strings printfPutc s (some format) args
    .ok do
      let (nwritten, s) ← put
      .ok (nwritten, s.write STDOUT_FILENO
        (bytesAt s.memory buffer (BitVec.ofInt 32 nwritten).toNat))

def printf (m : Memory) (buffer : Ptr) (format : Option (List Byte)) (args : FormatArgs) :
    Call Put :=
  vprintf strings m buffer format args

end Family

/-! ## Stores -/

/-- The memory after characters were stored, a NUL behind each. -/
def stored (m : Memory) (p : Ptr) : List Byte → Memory
  | [] => m
  | c :: cs => stored (Function.update (Function.update m p c) (p + 1) 0) (p + 1) cs

/-- The byte that number `i` of an area holds then, if it was `b`. -/
def storedByte (cs : List Byte) (i : Nat) (b : Byte) : Byte :=
  if i < cs.length then cs.getD i 0 else if i = cs.length ∧ cs ≠ [] then 0 else b

theorem storedByte_of_lt {cs : List Byte} {i : Nat} (h : i < cs.length) (b : Byte) :
    storedByte cs i b = cs[i] := by
  rw [storedByte, if_pos h, List.getD_eq_getElem?_getD, List.getElem?_eq_getElem h, Option.getD_some]

theorem storedByte_end {cs : List Byte} (h : cs ≠ []) (b : Byte) : storedByte cs cs.length b = 0 := by
  rw [storedByte, if_neg (Nat.lt_irrefl _), if_pos ⟨rfl, h⟩]

theorem storedByte_of_gt {cs : List Byte} {i : Nat} (h : cs.length < i) (b : Byte) :
    storedByte cs i b = b := by
  rw [storedByte, if_neg (by omega), if_neg fun hh => by omega]

theorem storedByte_succ {cs : List Byte} (h : cs ≠ []) (c : Byte) (i : Nat) (b : Byte) :
    storedByte (c :: cs) (i + 1) b = storedByte cs i b := by
  simp [storedByte, h]

theorem stored_apply (m : Memory) (p : Ptr) {cs : List Byte} (h : cs.length < 2 ^ 32) (a : Ptr) :
    stored m p cs a = storedByte cs (a - p).toNat (m a) := by
  induction cs generalizing m p with
  | nil => simp [stored, storedByte]
  | cons c cs ih =>
    rw [List.length_cons] at h
    have hlt : (a - (p + 1)).toNat < 2 ^ 32 := BitVec.isLt _
    rw [stored, ih _ _ (by omega)]
    by_cases ha : a = p
    · subst ha
      have hfar : cs.length < (a - (a + 1)).toNat := by bv_omega
      have hne : a ≠ a + 1 := by bv_omega
      rw [storedByte_of_gt hfar, Function.update_of_ne hne, Function.update_self, BitVec.sub_self]
      rfl
    have hpos : (a - p).toNat = (a - (p + 1)).toNat + 1 := by
      have h0 : (a - p).toNat ≠ 0 := by bv_omega
      bv_omega
    by_cases hnil : cs = []
    · subst hnil
      by_cases hend : a = p + 1
      · have h1 : (a - p).toNat = 1 := by bv_omega
        rw [h1, hend, Function.update_self]
        simp [storedByte]
      · have h1 : 1 < (a - p).toNat := by
          have h0 : (a - (p + 1)).toNat ≠ 0 := by bv_omega
          omega
        have h2 : ([c] : List Byte).length < (a - p).toNat := h1
        rw [storedByte_of_gt h2, Function.update_of_ne hend, Function.update_of_ne ha]
        simp [storedByte]
    rw [hpos, storedByte_succ hnil]
    by_cases hend : a = p + 1
    · have h0 : (a - (p + 1)).toNat < cs.length := by
        have hlen := List.length_pos_iff.mpr hnil
        bv_omega
      rw [storedByte_of_lt h0, storedByte_of_lt h0]
    · rw [Function.update_of_ne hend, Function.update_of_ne ha]

theorem ptr_succ (p : Ptr) (k : Nat) : p + 1 + BitVec.ofNat 32 k = p + BitVec.ofNat 32 (k + 1) := by
  rw [BitVec.ofNat_add, BitVec.add_comm (BitVec.ofNat 32 k), BitVec.add_assoc]
  rfl

theorem bytesAt_getElem (m : Memory) (a : Ptr) (count i : Nat) (h : i < (bytesAt m a count).length) :
    (bytesAt m a count)[i] = m (a + BitVec.ofNat 32 i) := by
  induction count generalizing a i with
  | zero => exact absurd h (Nat.not_lt_zero i)
  | succ count ih =>
    cases i with
    | zero =>
      rw [BitVec.add_zero]
      rfl
    | succ i =>
      have htail := ih (a + 1) i (by simpa [bytesAt] using h)
      rw [← ptr_succ, ← htail]
      rfl

/-- The stored characters can be read back. -/
theorem bytesAt_stored (m : Memory) (p : Ptr) {cs : List Byte} (h : cs.length < 2 ^ 32) :
    bytesAt (stored m p cs) p cs.length = cs := by
  apply List.ext_getElem (bytesAt_length _ _ _)
  intro i hi hi'
  have hsub : (p + BitVec.ofNat 32 i - p).toNat = i := by bv_omega
  rw [bytesAt_getElem, stored_apply m p h, hsub, storedByte_of_lt hi']

/-! ## The sinks over a whole text -/

section Steps
variable {putc : PrintfState → Byte → Put} {s s' : PrintfState} {c : Byte}

theorem putAll_step (h : putc s c = .ok (1, s')) (n : Int) (cs : List Byte) :
    putAll putc s n (c :: cs) = putAll putc s' (wrapInt (n + 1)) cs := by
  rw [putAll, h]
  rfl

theorem putAll_hang (h : putc s c = .error s') (n : Int) (cs : List Byte) :
    putAll putc s n (c :: cs) = .error s' := by
  rw [putAll, h]
  rfl

end Steps

theorem wrapInt_wrapInt (n : Int) : wrapInt (wrapInt n) = wrapInt n := Int.bmod_bmod

theorem wrapInt_succ (n : Int) (k : Nat) :
    wrapInt (wrapInt (n + 1) + k) = wrapInt (n + (k + 1 : Nat)) := by
  rw [wrapInt, wrapInt, Int.bmod_add_bmod, wrapInt]
  congr 1
  omega

/-- `sprintf` stores all characters. -/
theorem putAll_sprintf (s : PrintfState) {n : Int} (hn : wrapInt n = n) (cs : List Byte) :
    ∃ s', putAll sprintfPutc s n cs = .ok (wrapInt (n + cs.length), s') ∧
      s'.memory = stored s.memory s.buffer cs := by
  induction cs generalizing s n with
  | nil => exact ⟨s, by simp [putAll, hn], rfl⟩
  | cons c cs ih =>
    obtain ⟨s', hrun, hm⟩ := ih (s.store c) (wrapInt_wrapInt (n + 1))
    refine ⟨s', ?_, hm⟩
    rw [putAll_step rfl, hrun, wrapInt_succ, List.length_cons]

/-- `snprintf` counts all characters, and stores as many as there is room for. -/
theorem putAll_snprintf (s : PrintfState) {n : Int} (hn : wrapInt n = n) (cs : List Byte) :
    ∃ s', putAll snprintfPutc s n cs = .ok (wrapInt (n + cs.length), s') ∧
      s'.memory = stored s.memory s.buffer (cs.take s.bufferAvail.toNat) := by
  induction cs generalizing s n with
  | nil => exact ⟨s, by simp [putAll, hn], by rw [List.take_nil, stored]⟩
  | cons c cs ih =>
    by_cases hroom : s.bufferAvail > 0
    · obtain ⟨s', hrun, hm⟩ := ih (s.spend.store c) (wrapInt_wrapInt (n + 1))
      have havail : s.bufferAvail.toNat = (s.bufferAvail - 1).toNat + 1 := by bv_omega
      have hstep : snprintfPutc s c = .ok (1, s.spend.store c) := by
        rw [snprintfPutc, if_pos hroom]
        rfl
      refine ⟨s', ?_, ?_⟩
      · rw [putAll_step hstep, hrun, wrapInt_succ, List.length_cons]
      · rw [hm, havail, List.take_succ_cons]
        rfl
    · obtain ⟨s', hrun, hm⟩ := ih s (wrapInt_wrapInt (n + 1))
      have havail : s.bufferAvail.toNat = 0 := by bv_omega
      have hstep : snprintfPutc s c = .ok (1, s) := by rw [snprintfPutc, if_neg hroom]
      refine ⟨s', ?_, ?_⟩
      · rw [putAll_step hstep, hrun, wrapInt_succ, List.length_cons]
      · rw [hm, havail, List.take_zero, List.take_zero]

/-- `printf` stores what its buffer has room for, and writes nothing until then. -/
theorem putAll_printf (s : PrintfState) {n : Int} (hn : wrapInt n = n) {cs : List Byte}
    (hroom : cs.length ≤ s.bufferAvail.toNat) :
    ∃ s', putAll printfPutc s n cs = .ok (wrapInt (n + cs.length), s') ∧
      s'.memory = stored s.memory s.buffer cs ∧ s'.written = s.written := by
  induction cs generalizing s n with
  | nil => exact ⟨s, by simp [putAll, hn], rfl, rfl⟩
  | cons c cs ih =>
    rw [List.length_cons] at hroom
    have hne : ¬ s.bufferAvail = 0 := by bv_omega
    have havail : cs.length ≤ (s.bufferAvail - 1).toNat := by bv_omega
    obtain ⟨s', hrun, hm, hw⟩ := ih (s.spend.store c) (wrapInt_wrapInt (n + 1)) havail
    have hstep : printfPutc s c = .ok (1, s.spend.store c) := by
      rw [printfPutc, if_neg hne]
      rfl
    refine ⟨s', ?_, hm, hw⟩
    rw [putAll_step hstep, hrun, wrapInt_succ, List.length_cons]

/-- One character more, and `printf` writes to both descriptors and stays there. -/
theorem putAll_printf_hangs (s : PrintfState) (n : Int) {cs : List Byte}
    (hfull : s.bufferAvail.toNat < cs.length) :
    ∃ s' bytes, putAll printfPutc s n cs = .error s' ∧
      s'.written = s.written ++ [(STDERR_FILENO, bytes), (STDOUT_FILENO, [0x2A])] := by
  induction cs generalizing s n with
  | nil => exact absurd hfull (Nat.not_lt_zero _)
  | cons c cs ih =>
    rw [List.length_cons] at hfull
    by_cases hnone : s.bufferAvail = 0
    · have hstep : printfPutc s c = .error s.flush := by rw [printfPutc, if_pos hnone]
      refine ⟨s.flush, bytesAt s.memory s.buffer PRINTF_BUFSIZ, putAll_hang hstep n cs, ?_⟩
      simp [PrintfState.flush, PrintfState.write]
    · have havail : (s.bufferAvail - 1).toNat < cs.length := by bv_omega
      obtain ⟨s', bytes, hrun, hw⟩ := ih (s.spend.store c) (wrapInt (n + 1)) havail
      have hstep : printfPutc s c = .ok (1, s.spend.store c) := by
        rw [printfPutc, if_neg hnone]
        rfl
      refine ⟨s', bytes, ?_, hw⟩
      rw [putAll_step hstep, hrun]

/-! ## The family -/

theorem wrapInt_succ_ne (n : Int) : wrapInt (n + 1) ≠ n := by
  intro h
  have hmod := @Int.bmod_emod (n + 1) (2 ^ 32)
  rw [wrapInt] at h
  rw [h] at hmod
  omega

section Returns
variable {strings : Ptr → CString} {format : List Byte} {args : FormatArgs} {out : CString}

theorem doprintfTo_eq (h : formatOut strings format args = .ok out)
    (putc : PrintfState → Byte → Put) (s : PrintfState) :
    doprintfTo strings putc s (some format) args = .ok (putAll putc s 0 (out ++ [0])) := by
  rw [doprintfTo, h]
  rfl

theorem length_nul (out : CString) : ((out ++ [0]).length : Int) = out.length + 1 := by
  rw [List.length_append, List.length_singleton]
  rfl

theorem sprintf_eq (h : formatOut strings format args = .ok out) (m : Memory) (buffer : Ptr) :
    ∃ s, sprintf strings m buffer (some format) args = .ok (.ok (wrapInt (out.length + 1), s)) ∧
      s.memory = stored m buffer (out ++ [0]) := by
  obtain ⟨s, hrun, hm⟩ := putAll_sprintf ⟨m, buffer, 0, []⟩ (show wrapInt 0 = 0 from rfl) (out ++ [0])
  refine ⟨s, ?_, hm⟩
  rw [sprintf, vsprintf, doprintfTo_eq h, hrun, length_nul, Int.zero_add]

theorem snprintf_eq (h : formatOut strings format args = .ok out) (m : Memory) (buffer : Ptr)
    (bufsz : BitVec 32) :
    ∃ s, snprintf strings m buffer bufsz (some format) args =
        .ok (.ok (wrapInt (out.length + 1), s)) ∧
      s.memory = stored m buffer ((out ++ [0]).take bufsz.toNat) := by
  obtain ⟨s, hrun, hm⟩ :=
    putAll_snprintf ⟨m, buffer, bufsz, []⟩ (show wrapInt 0 = 0 from rfl) (out ++ [0])
  refine ⟨s, ?_, hm⟩
  rw [snprintf, vsnprintf, doprintfTo_eq h, hrun, length_nul, Int.zero_add]

/-- A text that fits the buffer is written to the output with its NUL. -/
theorem printf_eq_of_lt (h : formatOut strings format args = .ok out) (m : Memory) (buffer : Ptr)
    (hlen : out.length < PRINTF_BUFSIZ) :
    ∃ s, printf strings m buffer (some format) args = .ok (.ok (out.length + 1, s)) ∧
      s.written = [(STDOUT_FILENO, out ++ [0])] := by
  have hroom : (out ++ [0]).length ≤ (BitVec.ofNat 32 PRINTF_BUFSIZ).toNat := by
    rw [List.length_append]
    exact hlen
  have hsize : out.length < 1024 := hlen
  obtain ⟨s, hrun, hm, hw⟩ := putAll_printf ⟨m, buffer, BitVec.ofNat 32 PRINTF_BUFSIZ, []⟩
    (show wrapInt 0 = 0 from rfl) hroom
  have hmax : (INT_MAX : Int) = 2147483647 := rfl
  have hret : wrapInt (0 + ((out ++ [0]).length : Int)) = out.length + 1 := by
    rw [length_nul, Int.zero_add, wrapInt_of_le (by omega) (by omega)]
  have hcount : (BitVec.ofInt 32 ((out.length : Int) + 1)).toNat = (out ++ [0]).length := by
    rw [← length_nul, BitVec.ofInt_natCast, BitVec.toNat_ofNat, List.length_append,
      List.length_singleton]
    omega
  have hbytes : bytesAt s.memory buffer (out ++ [0]).length = out ++ [0] := by
    rw [hm]
    exact bytesAt_stored m buffer (by rw [List.length_append, List.length_singleton]; omega)
  refine ⟨s.write STDOUT_FILENO (out ++ [0]), ?_, ?_⟩
  · rw [printf, vprintf]
    simp only [doprintfTo_eq h, hrun, hret, ok_bind]
    show Except.ok (Except.ok ((out.length : Int) + 1, s.write STDOUT_FILENO
      (bytesAt s.memory buffer (BitVec.ofInt 32 ((out.length : Int) + 1)).toNat))) = _
    rw [hcount, hbytes]
  · rw [PrintfState.write, hw]
    rfl

/-- A longer one ends in the loop, with an asterisk on the output. -/
theorem printf_eq_of_ge (h : formatOut strings format args = .ok out) (m : Memory) (buffer : Ptr)
    (hlen : PRINTF_BUFSIZ ≤ out.length) :
    ∃ s bytes, printf strings m buffer (some format) args = .ok (.error s) ∧
      s.written = [(STDERR_FILENO, bytes), (STDOUT_FILENO, [0x2A])] := by
  have hfull : (BitVec.ofNat 32 PRINTF_BUFSIZ).toNat < (out ++ [0]).length := by
    rw [List.length_append]
    exact Nat.lt_succ_of_le hlen
  obtain ⟨s, bytes, hrun, hw⟩ :=
    putAll_printf_hangs ⟨m, buffer, BitVec.ofNat 32 PRINTF_BUFSIZ, []⟩ 0 hfull
  refine ⟨s, bytes, ?_, hw⟩
  rw [printf, vprintf]
  simp only [doprintfTo_eq h, hrun, ok_bind]
  rfl

/-! ## What the family promises -/

/-- The call returns the value. -/
def Returns (call : Call Put) (retval : Int) : Prop := ∃ s, call = .ok (.ok (retval, s))

theorem returned_inj {x y : Int} {s t : PrintfState}
    (h : (.ok (.ok (x, s)) : Call Put) = .ok (.ok (y, t))) : x = y ∧ s = t := by
  injection h with h
  injection h with h
  exact Prod.mk.inj h

theorem Returns.unique {call : Call Put} {x y : Int} (hx : Returns call x) (hy : Returns call y) :
    x = y := by
  obtain ⟨s, hs⟩ := hx
  obtain ⟨t, ht⟩ := hy
  rw [hs] at ht
  exact (returned_inj ht).1

/-- The function returns a length in which the NUL counts, or it does not return. -/
theorem printf_family_counts_nul (h : formatOut strings format args = .ok out) :
    (∀ m buffer, ¬ Returns (sprintf strings m buffer (some format) args) out.length) ∧
    (∀ m buffer bufsz, ¬ Returns (snprintf strings m buffer bufsz (some format) args) out.length) ∧
    (∀ m buffer, ¬ Returns (printf strings m buffer (some format) args) out.length) := by
  refine ⟨fun m buffer hret => ?_, fun m buffer bufsz hret => ?_, fun m buffer hret => ?_⟩
  · obtain ⟨s, hs, -⟩ := sprintf_eq h m buffer
    exact wrapInt_succ_ne _ (Returns.unique ⟨s, hs⟩ hret)
  · obtain ⟨s, hs, -⟩ := snprintf_eq h m buffer bufsz
    exact wrapInt_succ_ne _ (Returns.unique ⟨s, hs⟩ hret)
  · by_cases hlen : out.length < PRINTF_BUFSIZ
    · obtain ⟨s, hs, -⟩ := printf_eq_of_lt h m buffer hlen
      have heq := Returns.unique ⟨s, hs⟩ hret
      omega
    · obtain ⟨s, bytes, hs, -⟩ := printf_eq_of_ge h m buffer (Nat.le_of_not_lt hlen)
      obtain ⟨t, ht⟩ := hret
      rw [hs] at ht
      cases ht

end Returns

/-- For an empty text `sprintf` returns 1. -/
theorem sprintf_empty_returns :
    formatOut (fun _ => []) [0] [] = .ok [] ∧
      Returns (sprintf (fun _ => []) (fun _ => 0) 0x1000 (some [0]) []) 1 ∧
      ¬ Returns (sprintf (fun _ => []) (fun _ => 0) 0x1000 (some [0]) []) 0 := by
  have hempty : formatOut (fun _ => []) [0] [] = .ok [] := rfl
  obtain ⟨s, hs, -⟩ := sprintf_eq hempty (fun _ => 0) 0x1000
  have hone : Returns (sprintf (fun _ => []) (fun _ => 0) 0x1000 (some [0]) []) 1 := ⟨s, hs⟩
  refine ⟨hempty, hone, fun hzero => ?_⟩
  exact absurd (Returns.unique hone hzero) (by decide)

/-- The text "n=A" in a buffer that is too small for it, and in one that is not. -/
theorem printf_family_counts_nul_character :
    ¬ Returns (sprintf (fun _ => []) (fun _ => 0) 0x1000
        (some (text ['n', '=', '%', 'c'] ++ [0])) [0x41]) 3 ∧
      ¬ Returns (snprintf (fun _ => []) (fun _ => 0) 0x1000 2
        (some (text ['n', '=', '%', 'c'] ++ [0])) [0x41]) 3 ∧
      ¬ Returns (printf (fun _ => []) (fun _ => 0) 0x1000
        (some (text ['n', '=', '%', 'c'] ++ [0])) [0x41]) 3 := by
  have hout : formatOut (fun _ => []) (text ['n', '=', '%', 'c'] ++ [0]) [0x41] =
      .ok (text ['n', '=', 'A']) := rfl
  obtain ⟨hsprintf, hsnprintf, hprintf⟩ := printf_family_counts_nul hout
  exact ⟨hsprintf _ _, hsnprintf _ _ _, hprintf _ _⟩

/-- What `snprintf` promises about its buffer: it stores inside it, and leaves as much of the text
there as fits, with a NUL behind. -/
def BoundedCopy (strings : Ptr → CString) (format : List Byte) (args : FormatArgs) (out : CString)
    (buffer : Ptr) (bufsz : BitVec 32) : Prop :=
  ∀ m, ∃ retval s, snprintf strings m buffer bufsz (some format) args = .ok (.ok (retval, s)) ∧
    (∀ a : Ptr, bufsz.toNat ≤ (a - buffer).toNat → s.memory a = m a) ∧
    (bufsz ≠ 0 → bytesAt s.memory buffer (min out.length (bufsz.toNat - 1) + 1) =
      out.take (bufsz.toNat - 1) ++ [0])

section Bounds
variable {strings : Ptr → CString} {format : List Byte} {args : FormatArgs} {out : CString}

/-- A text that fills the buffer has a NUL stored behind it. -/
theorem not_boundedCopy (h : formatOut strings format args = .ok out) (buffer : Ptr)
    {bufsz : BitVec 32} (hpos : bufsz ≠ 0) (hfull : bufsz.toNat ≤ out.length + 1) :
    ¬ BoundedCopy strings format args out buffer bufsz := by
  intro hcopy
  obtain ⟨retval, s, hs, hframe, -⟩ := hcopy fun _ => 1
  obtain ⟨t, ht, hm⟩ := snprintf_eq h (fun _ => 1) buffer bufsz
  have hst : s = t := by
    rw [hs] at ht
    exact (returned_inj ht).2
  have hlen : ((out ++ [0]).take bufsz.toNat).length = bufsz.toNat := by
    rw [List.length_take, List.length_append, List.length_singleton]
    omega
  have hne : (out ++ [0]).take bufsz.toNat ≠ [] := by
    intro hnil
    rw [hnil, List.length_nil] at hlen
    bv_omega
  have hsub : (buffer + bufsz - buffer).toNat = bufsz.toNat := by bv_omega
  have hkeep := hframe (buffer + bufsz) (Nat.le_of_eq hsub.symm)
  have hend := storedByte_end hne 1
  rw [hlen] at hend
  rw [hst, hm, stored_apply _ _ (by rw [hlen]; exact bufsz.isLt), hsub, hend] at hkeep
  cases hkeep

theorem snprintf_bounded_iff (h : formatOut strings format args = .ok out) (buffer : Ptr)
    (bufsz : BitVec 32) :
    BoundedCopy strings format args out buffer bufsz ↔
      bufsz = 0 ∨ out.length + 2 ≤ bufsz.toNat := by
  constructor
  · intro hcopy
    by_contra hno
    rw [not_or] at hno
    exact not_boundedCopy h buffer hno.1 (by omega) hcopy
  · intro hroom m
    obtain ⟨s, hs, hm⟩ := snprintf_eq h m buffer bufsz
    refine ⟨_, s, hs, ?_⟩
    rcases hroom with rfl | hroom
    · have hmem : s.memory = m := hm
      exact ⟨fun a _ => congrFun hmem a, fun hne => absurd rfl hne⟩
    have hlen : (out ++ [0]).length = out.length + 1 := List.length_append
    have hlt : bufsz.toNat < 2 ^ 32 := bufsz.isLt
    rw [List.take_of_length_le (by omega)] at hm
    refine ⟨fun a ha => ?_, fun _ => ?_⟩
    · rw [hm, stored_apply _ _ (by omega), storedByte_of_gt (by omega)]
    · rw [Nat.min_eq_left (by omega), List.take_of_length_le (by omega), hm, ← hlen]
      exact bytesAt_stored m buffer (by omega)

end Bounds

/-- A text of three characters, and a buffer of three: the fourth byte is stored to. -/
theorem snprintf_three_overruns :
    formatOut (fun _ => []) (text ['a', 'b', 'c'] ++ [0]) [] = .ok (text ['a', 'b', 'c']) ∧
      ¬ BoundedCopy (fun _ => []) (text ['a', 'b', 'c'] ++ [0]) [] (text ['a', 'b', 'c']) 0x1000 3 :=
  ⟨rfl, not_boundedCopy rfl 0x1000 (by decide) (by decide)⟩

theorem snprintf_bounded_five :
    BoundedCopy (fun _ => []) (text ['a', 'b', 'c'] ++ [0]) [] (text ['a', 'b', 'c']) 0x1000 5 :=
  (snprintf_bounded_iff rfl 0x1000 5).mpr (Or.inr (by decide))

/-- The call returns after it wrote the text, to the standard output only. -/
def Prints (call : Call Put) (out : CString) : Prop :=
  ∃ retval s, call = .ok (.ok (retval, s)) ∧ (∀ w ∈ s.written, w.1 = STDOUT_FILENO) ∧
    s.written.flatMap Prod.snd = out

theorem printf_never_prints {strings : Ptr → CString} {format : List Byte} {args : FormatArgs}
    {out : CString} (h : formatOut strings format args = .ok out) (m : Memory) (buffer : Ptr) :
    ¬ Prints (vprintf strings m buffer (some format) args) out ∧
      ¬ Prints (printf strings m buffer (some format) args) out := by
  have hprintf : ¬ Prints (printf strings m buffer (some format) args) out := by
    rintro ⟨retval, s, hs, -, hout⟩
    by_cases hlen : out.length < PRINTF_BUFSIZ
    · obtain ⟨t, ht, hw⟩ := printf_eq_of_lt h m buffer hlen
      have hst : s = t := by
        rw [hs] at ht
        exact (returned_inj ht).2
      rw [hst, hw] at hout
      have hlength := congrArg List.length hout
      simp at hlength
    · obtain ⟨t, bytes, ht, -⟩ := printf_eq_of_ge h m buffer (Nat.le_of_not_lt hlen)
      rw [hs] at ht
      cases ht
  exact ⟨hprintf, hprintf⟩

/-- One character is written as two. -/
theorem printf_writes_nul :
    ¬ Prints (printf (fun _ => []) (fun _ => 0) 0x1000 (some [0x41, 0]) []) [0x41] := by
  have hone : formatOut (fun _ => []) [0x41, 0] [] = .ok [0x41] := rfl
  obtain ⟨s, hs, hw⟩ := printf_eq_of_lt hone (fun _ => 0) 0x1000 (by decide)
  rintro ⟨retval, t, ht, -, hout⟩
  rw [hs] at ht
  rw [← (returned_inj ht).2, hw] at hout
  cases hout

theorem printf_never_prints_one :
    ¬ Prints (vprintf (fun _ => []) (fun _ => 0) 0x1000 (some [0x41, 0]) []) [0x41] :=
  (printf_never_prints rfl _ _).1

end Ohwes

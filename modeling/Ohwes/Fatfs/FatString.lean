import Ohwes.Fatfs.ShortName

/-! # `tools/fatfs/fat.c`: the loops of `ReadFatString` and `WriteFatString`

A buffer is the list of its bytes; a C string in memory ends with a NUL and more bytes may follow. A
byte outside of a buffer is neither read nor written: the call is a `fault`. -/

namespace Ohwes.Fatfs
set_option autoImplicit false
open Library

/-- `buf[i]`. -/
def peek (buf : List Byte) (i : Nat) : Call Byte :=
  match buf[i]? with
  | some c => .ok c
  | none => .error .fault

/-- `buf[i] = c`. -/
def poke (buf : List Byte) (i : Nat) (c : Byte) : Call (List Byte) :=
  if i < buf.length then .ok (buf.set i c) else .error .fault

/-! ## Reading -/

/-- The leading spaces: index of the first of `count` characters from `i` on that is none, or 0. -/
def firstNonSpace (src : List Byte) : Nat → Nat → Call Nat
  | 0, _ => .ok 0
  | count + 1, i => do
    if (← peek src i) ≠ 0x20 then .ok i else firstNonSpace src count (i + 1)

/-- The trailing spaces: where the last of `i` characters that is none ends, or 0. -/
def lastNonSpace (src : List Byte) : Nat → Call Nat
  | 0 => .ok 0
  | i + 1 => do if (← peek src i) ≠ 0x20 then .ok (i + 1) else lastNonSpace src i

/-- Copies `count` more characters; returns the index behind the last. -/
def copyTrimmed (src : List Byte) (beg : Nat) : Nat → List Byte → Nat → Call (List Byte × Nat)
  | 0, dst, i => .ok (dst, i)
  | count + 1, dst, i => do
    let c ← peek src (beg + i)
    copyTrimmed src beg count (← poke dst i c) (i + 1)

/-- `ReadFatString`. Nothing is copied where `end` is not above `beg`. -/
def readFatStringInto (dst src : List Byte) (n : Nat) : Call (List Byte × Nat) := do
  let beg ← firstNonSpace src n 0
  let stop ← lastNonSpace src n
  let (dst, i) ← copyTrimmed src beg (stop - beg) dst 0
  assert (i ≤ n)
  let dst ← poke dst i 0
  .ok (dst, i)

/-! ## Writing -/

/-- `strnlen` of the host, from index `i` on. -/
def strnlenFrom (src : List Byte) : Nat → Nat → Call Nat
  | 0, _ => .ok 0
  | maxlen + 1, i => do
    if (← peek src i) = 0 then .ok 0
    else
      let len ← strnlenFrom src maxlen (i + 1)
      .ok (len + 1)

/-- `count` bytes `c` from index `i` on; returns the index behind the last. -/
def fillFrom (c : Byte) : Nat → List Byte → Nat → Call (List Byte × Nat)
  | 0, dst, i => .ok (dst, i)
  | count + 1, dst, i => do fillFrom c count (← poke dst i c) (i + 1)

/-- `strncpy` of the host, from index `i` on: behind a NUL only NULs follow. -/
def strncpyFrom (src : List Byte) : Nat → List Byte → Nat → Call (List Byte)
  | 0, dst, _ => .ok dst
  | count + 1, dst, i => do
    let c ← peek src i
    let dst ← poke dst i c
    if c = 0 then
      let (dst, _) ← fillFrom 0 count dst (i + 1)
      .ok dst
    else strncpyFrom src count dst (i + 1)

/-- `WriteFatString`. The loop at the end goes round once for every byte from `len` to `n`. -/
def writeFatStringInto (dst src : List Byte) (n : Nat) : Call (List Byte × Nat) := do
  let len ← strnlenFrom src n 0
  let dst ← strncpyFrom src n dst 0
  fillFrom 0x20 (n - len) dst len

/-! ## What the loops leave -/

section Loops
variable {src : List Byte}

theorem peek_append (behind : List Byte) (c : Byte) (ahead : List Byte) :
    peek (behind ++ c :: ahead) behind.length = .ok c := by
  simp [peek]

theorem poke_append (done : List Byte) (x : Byte) (old : List Byte) (c : Byte) :
    poke (done ++ x :: old) done.length c = .ok (done ++ [c] ++ old) := by
  simp [poke]

theorem fillFrom_eq (c : Byte) (done old : List Byte) {count : Nat} (h : count ≤ old.length) :
    fillFrom c count (done ++ old) done.length =
      .ok (done ++ List.replicate count c ++ old.drop count, done.length + count) := by
  induction count generalizing done old with
  | zero => simp [fillFrom]
  | succ count ih =>
    cases old with
    | nil => simp at h
    | cons x old =>
      rw [List.length_cons] at h
      have hnext := ih (done ++ [c]) old (by omega)
      rw [List.length_append, List.length_singleton] at hnext
      rw [fillFrom, poke_append, ok_bind, hnext, List.replicate_succ, List.drop_succ_cons]
      simp
      omega

theorem strnlenFrom_eq (behind str rest : List Byte) (h0 : 0 ∉ str) (maxlen : Nat) :
    strnlenFrom (behind ++ str ++ 0 :: rest) maxlen behind.length =
      .ok (min maxlen str.length) := by
  induction maxlen generalizing behind str with
  | zero => simp [strnlenFrom]
  | succ maxlen ih =>
    cases str with
    | nil =>
      rw [strnlenFrom, List.append_nil, peek_append]
      simp
    | cons c str =>
      have hc : c ≠ 0 := fun e => h0 (e ▸ List.mem_cons_self ..)
      have hnext := ih (behind ++ [c]) str fun hm => h0 (List.mem_cons_of_mem _ hm)
      rw [List.length_append, List.length_singleton] at hnext
      rw [strnlenFrom, List.append_assoc, List.cons_append, peek_append, ok_bind, if_neg hc]
      simp only [List.append_assoc, List.cons_append, List.nil_append] at hnext
      rw [hnext, ok_bind, List.length_cons, Nat.succ_min_succ]

theorem strncpyFrom_eq (behind str rest done old : List Byte) (h0 : 0 ∉ str)
    (hlen : done.length = behind.length) {count : Nat} (h : count ≤ old.length) :
    strncpyFrom (behind ++ str ++ 0 :: rest) count (done ++ old) behind.length =
      .ok (done ++ str.take count ++ List.replicate (count - str.length) 0 ++ old.drop count) := by
  induction count generalizing behind str done old with
  | zero => simp [strncpyFrom]
  | succ count ih =>
    cases old with
    | nil => simp at h
    | cons x old =>
      rw [List.length_cons] at h
      cases str with
      | nil =>
        have hcount : count ≤ old.length := by omega
        have hfill := fillFrom_eq 0 (done ++ [0]) old hcount
        rw [List.length_append, List.length_singleton, hlen] at hfill
        rw [strncpyFrom, List.append_nil, peek_append, ok_bind, ← hlen, poke_append, ok_bind,
          if_pos rfl, hlen, hfill]
        simp [List.replicate_succ]
      | cons c str =>
        have hc : c ≠ 0 := fun e => h0 (e ▸ List.mem_cons_self ..)
        have hnot : 0 ∉ str := fun hm => h0 (List.mem_cons_of_mem _ hm)
        have hnext := ih (behind ++ [c]) str (done ++ [c]) old hnot (by simp [hlen]) (by omega)
        rw [List.length_append, List.length_singleton] at hnext
        simp only [List.append_assoc, List.cons_append, List.nil_append] at hnext
        rw [strncpyFrom, List.append_assoc, List.cons_append, peek_append, ok_bind, ← hlen,
          poke_append, ok_bind, if_neg hc, hlen]
        simp only [List.append_assoc, List.cons_append, List.nil_append]
        rw [hnext]
        simp

theorem copyTrimmed_eq (done old : List Byte) (beg : Nat) {count : Nat} (h : count ≤ old.length)
    (hsrc : beg + done.length + count ≤ src.length) :
    copyTrimmed src beg count (done ++ old) done.length =
      .ok (done ++ (src.drop (beg + done.length)).take count ++ old.drop count,
        done.length + count) := by
  induction count generalizing done old with
  | zero => simp [copyTrimmed]
  | succ count ih =>
    cases old with
    | nil => simp at h
    | cons x old =>
      rw [List.length_cons] at h
      have hlt : beg + done.length < src.length := by omega
      have hnext := ih (done ++ [src[beg + done.length]]) old (by omega) (by simp; omega)
      rw [List.length_append, List.length_singleton] at hnext
      have hpeek : peek src (beg + done.length) = .ok src[beg + done.length] := by
        rw [peek, List.getElem?_eq_getElem hlt]
      have hindex : beg + (done.length + 1) = beg + done.length + 1 := by omega
      have hend : done.length + 1 + count = done.length + (count + 1) := by omega
      rw [copyTrimmed, hpeek, ok_bind, poke_append, ok_bind, hnext, List.drop_eq_getElem_cons hlt,
        List.take_succ_cons, List.drop_succ_cons, hindex, hend]
      simp

theorem firstNonSpace_eq (count i : Nat) (h : i + count ≤ src.length) :
    firstNonSpace src count i =
      .ok (if ((src.drop i).take count).all (· == 0x20) then 0
        else i + (((src.drop i).take count).takeWhile (· == 0x20)).length) := by
  induction count generalizing i with
  | zero => simp [firstNonSpace]
  | succ count ih =>
    have hlt : i < src.length := by omega
    have hpeek : peek src i = .ok src[i] := by rw [peek, List.getElem?_eq_getElem hlt]
    rw [firstNonSpace, hpeek, ok_bind, List.drop_eq_getElem_cons hlt, List.take_succ_cons,
      List.all_cons]
    by_cases hc : src[i] = 0x20
    · rw [if_neg (by simpa using hc), ih (i + 1) (by omega), hc,
        List.takeWhile_cons_of_pos (by decide), List.length_cons]
      simp only [beq_self_eq_true, Bool.true_and]
      congr 2
      omega
    · have hbeq : (src[i] == 0x20) = false := beq_eq_false_iff_ne.2 hc
      rw [if_pos hc, List.takeWhile_cons_of_neg (by simpa using hc), hbeq]
      simp

theorem lastNonSpace_eq (i : Nat) (h : i ≤ src.length) :
    lastNonSpace src i = .ok ((src.take i).rdropWhile (· == 0x20)).length := by
  induction i with
  | zero => simp [lastNonSpace]
  | succ i ih =>
    have hlt : i < src.length := by omega
    have hpeek : peek src i = .ok src[i] := by rw [peek, List.getElem?_eq_getElem hlt]
    rw [lastNonSpace, hpeek, ok_bind, List.take_succ_eq_append_getElem hlt]
    by_cases hc : src[i] = 0x20
    · rw [if_neg (by simpa using hc), ih (by omega),
        List.rdropWhile_concat_pos _ _ _ (by simpa using hc)]
    · rw [if_pos hc, List.rdropWhile_concat_neg _ _ _ (by simpa using hc)]
      simp
      omega

/-- Between the two ends found is the field without the spaces around it. -/
theorem trimmed_ends {n : Nat} (h : n ≤ src.length) :
    ∃ beg stop, firstNonSpace src n 0 = .ok beg ∧ lastNonSpace src n = .ok stop ∧
      beg ≤ n ∧ stop ≤ n ∧ (src.drop beg).take (stop - beg) = unpad 0x20 (src.take n) ∧
      stop - beg = (unpad 0x20 (src.take n)).length := by
  have hfirst := firstNonSpace_eq n 0 (by omega : 0 + n ≤ src.length)
  have hlast := lastNonSpace_eq n h
  rw [List.drop_zero, Nat.zero_add] at hfirst
  have hstop : ((src.take n).rdropWhile (· == 0x20)).length ≤ n :=
    Nat.le_trans (List.rdropWhile_prefix ..).length_le (List.length_take_le ..)
  have hbeg : ((src.take n).takeWhile (· == 0x20)).length ≤ n :=
    Nat.le_trans (List.takeWhile_prefix _).length_le (List.length_take_le ..)
  by_cases hall : (src.take n).all (· == 0x20)
  · have hspaces : ∀ c ∈ src.take n, c = 0x20 := by simpa using hall
    have hnil : (src.take n).rdropWhile (· == 0x20) = [] := by
      apply List.rdropWhile_eq_nil_iff.2
      simpa using hspaces
    rw [if_pos hall] at hfirst
    rw [hnil, List.length_nil] at hlast
    refine ⟨0, 0, hfirst, hlast, Nat.zero_le _, Nat.zero_le _, ?_⟩
    rw [(unpad_eq_nil_iff _).2 hspaces]
    simp
  · rw [if_neg hall] at hfirst
    refine ⟨_, _, hfirst, hlast, hbeg, hstop, ?_, ?_⟩
    · have hprefix : (src.take n).rdropWhile (· == 0x20) =
          src.take ((src.take n).rdropWhile (· == 0x20)).length := by
        have htake := List.prefix_iff_eq_take.1 (List.rdropWhile_prefix (· == 0x20) (src.take n))
        rwa [List.take_take, Nat.min_eq_left hstop] at htake
      rw [unpad_eq_drop, ← List.drop_take, ← hprefix]
    · rw [unpad_eq_drop, List.length_drop]

end Loops

/-! ## The two functions -/

theorem readFatStringInto_eq {dst src : List Byte} {n : Nat} (hsrc : n ≤ src.length)
    (hdst : n < dst.length) :
    readFatStringInto dst src n =
      .ok (unpad 0x20 (src.take n) ++ 0 :: dst.drop ((unpad 0x20 (src.take n)).length + 1),
        (unpad 0x20 (src.take n)).length) := by
  obtain ⟨beg, stop, hfirst, hlast, hbeg, hstop, hpart, hcount⟩ := trimmed_ends hsrc
  have hroom : stop - beg ≤ dst.length := by omega
  have hinside : beg + ([] : List Byte).length + (stop - beg) ≤ src.length := by
    rw [List.length_nil]
    omega
  have hcopy := copyTrimmed_eq [] dst beg hroom hinside
  simp only [List.nil_append, List.length_nil, Nat.add_zero, Nat.zero_add] at hcopy
  have hlt : (unpad 0x20 (src.take n)).length < dst.length := by omega
  have hassert : assert (decide (stop - beg ≤ n)) = .ok () := by
    rw [decide_eq_true (by omega)]
    rfl
  rw [readFatStringInto, hfirst, ok_bind, hlast, ok_bind, hcopy, ok_bind]
  simp only [hassert, ok_bind]
  rw [hpart, hcount, List.drop_eq_getElem_cons hlt, poke_append, ok_bind]
  simp

theorem writeFatStringInto_eq {str : CString} (h0 : 0 ∉ str) (rest : List Byte) {dst : List Byte}
    {n : Nat} (hdst : n ≤ dst.length) :
    writeFatStringInto dst (str ++ 0 :: rest) n =
      .ok (str.take n ++ List.replicate (n - str.length) 0x20 ++ dst.drop n, n) := by
  have hlen := strnlenFrom_eq [] str rest h0 n
  have hcopy := strncpyFrom_eq [] str rest [] dst h0 rfl hdst
  simp only [List.nil_append, List.length_nil] at hlen hcopy
  have hwritten : (str.take n).length = min n str.length := List.length_take
  have hpad : n - min n str.length = n - str.length := by omega
  have hroom :
      n - str.length ≤ (List.replicate (n - str.length) (0 : Byte) ++ dst.drop n).length := by
    simp
  have hfill := fillFrom_eq 0x20 (str.take n) _ hroom
  rw [hwritten] at hfill
  rw [writeFatStringInto, hlen, ok_bind, hcopy, ok_bind, hpad, List.append_assoc, hfill,
    List.drop_left' (List.length_replicate ..)]
  congr 2
  omega

/-- The field that is written is `writeFatString`'s, the rest of the buffer stays. -/
theorem writeFatStringInto_writeFatString {str : CString} (h0 : 0 ∉ str) (rest : List Byte)
    {dst : List Byte} {n : Nat} (hdst : n ≤ dst.length) :
    writeFatStringInto dst (str ++ 0 :: rest) n =
      .ok ((writeFatString str n).toList ++ dst.drop n, n) := by
  rw [writeFatStringInto_eq h0 rest hdst, ShortName.writeFatString_toList h0]

/-- The C string that is read is `readFatString`'s. -/
theorem readFatStringInto_readFatString {dst src : List Byte} {n : Nat} (hsrc : n ≤ src.length)
    (hdst : n < dst.length) :
    ∃ out, readFatStringInto dst src n = .ok out ∧
      out.1.takeWhile (· != 0) = readFatString (src.take n) := by
  refine ⟨_, readFatStringInto_eq hsrc hdst, ?_⟩
  change (unpad 0x20 (src.take n) ++ 0 :: _).takeWhile (· != 0) =
    (unpad 0x20 (src.take n)).takeWhile (· != 0)
  rw [List.takeWhile_append, List.takeWhile_cons_of_neg (by decide), List.append_nil]
  by_cases hall : ((unpad 0x20 (src.take n)).takeWhile (· != 0)).length =
      (unpad 0x20 (src.take n)).length
  · rw [if_pos hall, (List.takeWhile_prefix _).eq_of_length hall]
  · rw [if_neg hall]

/-! ## Round trip -/

/-- The field has no NUL and fills its width; reading it gives the characters that fitted without
the spaces around them. -/
theorem fatString_codec {str : CString} (h0 : 0 ∉ str) (rest : List Byte) (n : Nat)
    {dst buf : List Byte} (hdst : n ≤ dst.length) (hbuf : n < buf.length) :
    ∃ field read : List Byte,
      field = str.take n ++ List.replicate (n - str.length) 0x20 ∧ field.length = n ∧ 0 ∉ field ∧
      writeFatStringInto dst (str ++ 0 :: rest) n = .ok (field ++ dst.drop n, n) ∧
      read = unpad 0x20 (str.take n) ∧ 0 ∉ read ∧ read.length + 1 ≤ n + 1 ∧
      readFatStringInto buf (field ++ dst.drop n) n =
        .ok (read ++ 0 :: buf.drop (read.length + 1), read.length) := by
  have hlen : (str.take n ++ List.replicate (n - str.length) (0x20 : Byte)).length = n := by
    simp
    omega
  have htake : 0 ∉ str.take n := fun hm => h0 (List.mem_of_mem_take hm)
  have hnul : 0 ∉ str.take n ++ List.replicate (n - str.length) (0x20 : Byte) := by
    rw [List.mem_append]
    rintro (hm | hm)
    · exact htake hm
    · exact absurd (List.eq_of_mem_replicate hm) (by decide)
  have hpart : unpad 0x20 (str.take n) <:+: str.take n := unpad_part (str.take n)
  refine ⟨_, _, rfl, hlen, hnul, writeFatStringInto_eq h0 rest hdst, rfl, ?_, ?_, ?_⟩
  · exact fun hm => htake (hpart.subset hm)
  · exact Nat.succ_le_succ (Nat.le_trans hpart.length_le (List.length_take_le ..))
  · have hsrc :
        n ≤ (str.take n ++ List.replicate (n - str.length) (0x20 : Byte) ++ dst.drop n).length := by
      rw [List.length_append, hlen]
      omega
    have hread := readFatStringInto_eq hsrc hbuf
    rwa [List.take_left' hlen, unpad_append_replicate] at hread

/-- A label with spaces around it, in a field of six. -/
theorem fatString_codec_ab :
    ∃ field read : List Byte,
      field = [0x20, 0x41, 0x42] ++ List.replicate 3 0x20 ∧ field.length = 6 ∧ 0 ∉ field ∧
      writeFatStringInto (List.replicate 6 0xFF) ([0x20, 0x41, 0x42] ++ 0 :: []) 6 =
        .ok (field ++ [], 6) ∧
      read = [0x41, 0x42] ∧ 0 ∉ read ∧ read.length + 1 ≤ 6 + 1 ∧
      readFatStringInto (List.replicate 7 0xFF) (field ++ []) 6 =
        .ok (read ++ 0 :: (List.replicate 7 0xFF).drop (read.length + 1), read.length) :=
  have hnul : (0 : Byte) ∉ [0x20, 0x41, 0x42] := by decide
  have hdst : 6 ≤ (List.replicate 6 (0xFF : Byte)).length := by decide
  have hbuf : 6 < (List.replicate 7 (0xFF : Byte)).length := by decide
  fatString_codec hnul [] 6 hdst hbuf

end Ohwes.Fatfs

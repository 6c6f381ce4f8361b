import Ohwes.I386.GdbCodec

/-! # Time-outs while a packet is received

`gdb_getc` gives a NUL when no character came in time. Wherever such NULs come between the
characters of the host, `gdb_recv_packet` passes over them, but not where it reads the checksum: its
loop of two passes counts a time-out as a digit, and the place in `cksum_buf` stays as it was. -/

namespace Ohwes
set_option autoImplicit false

/-! ## Inserted time-outs -/

/-- `t` is `s` with time-outs between its characters, before and behind them. -/
inductive Delayed : List Byte → List Byte → Prop
  | nil : Delayed [] []
  | char {s t : List Byte} (c : Byte) : Delayed s t → Delayed (c :: s) (c :: t)
  | timeout {s t : List Byte} : Delayed s t → Delayed s (0 :: t)

namespace Delayed
variable {s t : List Byte} {c : Byte}

theorem of_nil (h : Delayed s []) : s = [] := by
  cases h
  rfl

theorem of_char (h : Delayed s (c :: t)) (hc : c ≠ 0) : ∃ s', s = c :: s' ∧ Delayed s' t := by
  cases h with
  | char _ h => exact ⟨_, rfl, h⟩
  | timeout h => exact absurd rfl hc

theorem of_timeout (h : Delayed s (0 :: t)) : Delayed s t ∨ ∃ s', s = 0 :: s' ∧ Delayed s' t := by
  cases h with
  | char _ h => exact Or.inr ⟨_, rfl, h⟩
  | timeout h => exact Or.inl h

end Delayed

/-! ## Before the frame -/

/-- How a NACK is answered. -/
def answerNack (g : Gdb) : Gdb :=
  if g.txBuf.length > GDB_MAXLEN - 1 then countNack g else emitPacket (countNack g) g.txBuf

/-- The wait for a packet, seen as a walk along the characters to come. -/
def scanStart : List Byte → Gdb → Call (Start × Gdb)
  | [], _ => .error .diverges
  | c :: rest, g =>
    let g := g.readTo rest
    if isEof c then .ok (.eof, g)
    else if c = CTRL_C then .ok (.interrupted, g)
    else if c = ACK then scanStart rest (gdbHandleAck g)
    else if c = NACK then scanStart rest (answerNack g)
    else if c = PACKET_START then .ok (.packet, g)
    else scanStart rest g

/-- The walk does not look at what the state has to come. -/
theorem scanStart_congr (g g' : Gdb) (h : ∀ rest, g.readTo rest = g'.readTo rest)
    (cs : List Byte) : scanStart cs g = scanStart cs g' := by
  cases cs with
  | nil => rfl
  | cons c rest => rw [scanStart, scanStart, h]

/-- The wait for an acknowledgement is a part of the walk. -/
theorem recvAck_scanStart (cs : List Byte) (g : Gdb) :
    (recvAck cs g >>= fun x => scanStart x.2.upcoming x.2) = scanStart cs g := by
  induction cs generalizing g with
  | nil => rfl
  | cons c rest ih =>
    rw [recvAck, scanStart]
    by_cases hack : c = ACK
    · subst hack
      rfl
    rw [if_neg hack]
    by_cases hnack : c = NACK
    · subst hnack
      have hother : isEof NACK = false ∧ NACK ≠ CTRL_C := by decide
      rw [if_pos rfl, hother.1, if_neg Bool.false_ne_true, if_neg hother.2, if_neg hack, if_pos rfl,
        answerNack]
      by_cases hlong : (g.readTo rest).txBuf.length > GDB_MAXLEN - 1
      · rw [if_pos hlong, if_pos hlong]
        rfl
      · rw [if_neg hlong, if_neg hlong]
        exact ih _
    · -- the character is put back, and is the first that the walk finds
      rw [if_neg hnack, ok_bind]
      by_cases hzero : c = 0
      · subst hzero
        rfl
      · have hup : ({ g.readTo rest with pendingChar := c } : Gdb).upcoming = c :: rest :=
          if_pos (by simpa using hzero)
        rw [hup, scanStart]
        rfl

theorem gdbHandleNack_scanStart (g : Gdb) :
    (gdbHandleNack g >>= fun x => scanStart x.2.upcoming x.2) =
      scanStart g.upcoming (answerNack g) := by
  have htx : (countNack g).upcoming = g.upcoming := rfl
  rw [gdbHandleNack, gdbSendPacket, answerNack]
  split
  · rw [ok_bind, htx]
  · exact recvAck_scanStart _ _

/-- `recvAck` reads at least one character. -/
theorem recvAck_upcoming {cs : List Byte} {g : Gdb} {x : Int × Gdb} (h : recvAck cs g = .ok x) :
    x.2.upcoming.length ≤ cs.length := by
  induction cs generalizing g with
  | nil => cases h
  | cons c rest ih =>
    rw [recvAck] at h
    split_ifs at h
    · cases h
      exact Nat.le_succ _
    · cases h
      exact Nat.le_succ _
    · exact (ih h).trans (Nat.le_succ _)
    · cases h
      show (if c != 0 then c :: rest else rest).length ≤ _
      split
      · exact Nat.le_refl _
      · exact Nat.le_succ _

theorem awaitStart_eq {fuel : Nat} {g : Gdb} (h : g.upcoming.length < fuel) :
    awaitStart fuel g = scanStart g.upcoming g := by
  induction fuel generalizing g with
  | zero => exact absurd h (Nat.not_lt_zero _)
  | succ fuel ih =>
    rw [awaitStart]
    cases hup : g.upcoming with
    | nil => rfl
    | cons c rest =>
      rw [hup, List.length_cons] at h
      have hrest : ∀ g' : Gdb, g'.upcoming = rest → awaitStart fuel g' = scanStart rest g' := by
        intro g' hg'
        rw [ih (by rw [hg']; omega), hg']
      rw [scanStart]
      by_cases hnack : c = NACK
      · subst hnack
        have hother : isEof NACK = false ∧ NACK ≠ CTRL_C ∧ NACK ≠ ACK := by decide
        simp only [hother.1, Bool.false_eq_true, if_false, if_neg hother.2.1, if_neg hother.2.2,
          if_true]
        have hhandle : (gdbHandleNack (g.readTo rest) >>= fun x => scanStart x.2.upcoming x.2) =
            scanStart rest (answerNack (g.readTo rest)) := gdbHandleNack_scanStart _
        rw [← hhandle]
        cases hx : gdbHandleNack (g.readTo rest) with
        | error e => rfl
        | ok x =>
          have hle : x.2.upcoming.length ≤ rest.length := by
            rw [gdbHandleNack, gdbSendPacket] at hx
            split at hx
            · cases hx
              exact Nat.le_refl _
            · exact recvAck_upcoming hx
          show awaitStart fuel x.2 = scanStart x.2.upcoming x.2
          exact ih (by omega)
      · simp only [if_neg hnack]
        rw [hrest (gdbHandleAck (g.readTo rest)) rfl, hrest (g.readTo rest) rfl]

/-- What is left when the walk ends, and what has been done on the way. -/
theorem scanStart_delayed {s t : List Byte} (h : Delayed s t) (g : Gdb) :
    (scanStart s g = .error .diverges ∧ scanStart t g = .error .diverges) ∨
      ∃ start x s' t', scanStart s g = .ok (start, Gdb.readTo x s') ∧
        scanStart t g = .ok (start, x.readTo t') ∧ Delayed s' t' := by
  induction h generalizing g with
  | nil => exact Or.inl ⟨rfl, rfl⟩
  | @char s t c h ih =>
    rw [scanStart, scanStart]
    by_cases heof : isEof c = true
    · rw [if_pos heof, if_pos heof]
      exact Or.inr ⟨_, g, s, t, rfl, rfl, h⟩
    rw [if_neg heof, if_neg heof]
    by_cases hctrl : c = CTRL_C
    · rw [if_pos hctrl, if_pos hctrl]
      exact Or.inr ⟨_, g, s, t, rfl, rfl, h⟩
    rw [if_neg hctrl, if_neg hctrl]
    by_cases hack : c = ACK
    · rw [if_pos hack, if_pos hack,
        scanStart_congr (gdbHandleAck (g.readTo t)) (gdbHandleAck (g.readTo s)) (fun _ => rfl) t]
      exact ih _
    rw [if_neg hack, if_neg hack]
    by_cases hnack : c = NACK
    · rw [if_pos hnack, if_pos hnack]
      have hsame : ∀ rest, (answerNack (g.readTo t)).readTo rest =
          (answerNack (g.readTo s)).readTo rest := by
        intro rest
        unfold answerNack
        split
        · rw [if_pos ‹_›]
          rfl
        · rw [if_neg ‹_›]
          rfl
      rw [scanStart_congr _ _ hsame t]
      exact ih _
    rw [if_neg hnack, if_neg hnack]
    by_cases hpacket : c = PACKET_START
    · rw [if_pos hpacket, if_pos hpacket]
      exact Or.inr ⟨_, g, s, t, rfl, rfl, h⟩
    · rw [if_neg hpacket, if_neg hpacket,
        scanStart_congr (g.readTo t) (g.readTo s) (fun _ => rfl) t]
      exact ih _
  | @timeout s t h ih =>
    have hskip : scanStart (0 :: t) g = scanStart t g := by
      have hstep : scanStart (0 :: t) g = scanStart t (g.readTo t) := rfl
      rw [hstep]
      exact scanStart_congr (g.readTo t) g (fun _ => rfl) t
    rw [hskip]
    exact ih g

/-- What comes behind the start of the packet, if the wait finds one. -/
def behindStart : List Byte → Option (List Byte)
  | [] => none
  | c :: rest =>
    if isEof c || c == CTRL_C then none
    else if c = PACKET_START then some rest
    else behindStart rest

theorem behindStart_eq (cs : List Byte) (g : Gdb) :
    behindStart cs = match scanStart cs g with
      | .ok (.packet, x) => some x.input
      | _ => none := by
  induction cs generalizing g with
  | nil => rfl
  | cons c rest ih =>
    rw [scanStart, behindStart]
    by_cases heof : isEof c = true
    · rw [heof, Bool.true_or, if_pos rfl]
      rfl
    rw [if_neg heof]
    by_cases hctrl : c = CTRL_C
    · rw [if_pos hctrl, if_pos (by simp [hctrl])]
    rw [if_neg hctrl, if_neg (by simp [heof, hctrl])]
    by_cases hpacket : c = PACKET_START
    · subst hpacket
      rw [if_pos rfl]
      rfl
    rw [if_neg hpacket, if_neg hpacket]
    split_ifs
    · exact ih _
    · exact ih _
    · exact ih _

/-! ## The payload -/

/-- What comes behind the end of the payload, with room for so many characters in the buffer. -/
def behindData : Nat → List Byte → Option (List Byte)
  | _, [] => none
  | room, c :: rest =>
    if isEof c then none
    else if c = PACKET_END then some rest
    else if c = 0 then behindData room rest
    else if room = 0 then none
    else behindData (room - 1) rest

theorem readData_delayed {s t : List Byte} (h : Delayed s t) (pkt : Pkt) {length room : Nat}
    (hroom : length + room = GDB_MAXLEN - 1) (cksum : Byte) :
    (readData GDB_MAXLEN s pkt length cksum = .error .diverges ∧
        readData GDB_MAXLEN t pkt length cksum = .error .diverges ∧ behindData room t = none) ∨
      (∃ s' t', readData GDB_MAXLEN s pkt length cksum = .ok (.eof s') ∧
        readData GDB_MAXLEN t pkt length cksum = .ok (.eof t') ∧ behindData room t = none) ∨
      ∃ pkt' n k s' t', readData GDB_MAXLEN s pkt length cksum = .ok (.data pkt' n k s') ∧
        readData GDB_MAXLEN t pkt length cksum = .ok (.data pkt' n k t') ∧ Delayed s' t' ∧
        behindData room t = some t' := by
  induction h generalizing pkt length room cksum with
  | nil => exact Or.inl ⟨rfl, rfl, rfl⟩
  | @char s t c h ih =>
    rw [readData, readData, behindData]
    by_cases heof : isEof c = true
    · rw [if_pos heof, if_pos heof, if_pos heof]
      exact Or.inr (Or.inl ⟨s, t, rfl, rfl, rfl⟩)
    rw [if_neg heof, if_neg heof, if_neg heof]
    by_cases hend : c = PACKET_END
    · rw [if_pos hend, if_pos hend, if_pos hend]
      exact Or.inr (Or.inr ⟨pkt, length, cksum, s, t, rfl, rfl, h, rfl⟩)
    rw [if_neg hend, if_neg hend, if_neg hend]
    by_cases hzero : c = 0
    · rw [if_pos hzero, if_pos hzero, if_pos hzero]
      exact ih pkt hroom cksum
    rw [if_neg hzero, if_neg hzero, if_neg hzero]
    by_cases hfull : room = 0
    · have hlength : length ≥ GDB_MAXLEN - 1 ∨ length ≥ GDB_MAXLEN - 1 := Or.inl (by omega)
      rw [if_pos hlength, if_pos hlength, if_pos hfull]
      exact Or.inr (Or.inl ⟨s, t, rfl, rfl, rfl⟩)
    · have hlength : ¬ (length ≥ GDB_MAXLEN - 1 ∨ length ≥ GDB_MAXLEN - 1) := by omega
      rw [if_neg hlength, if_neg hlength, if_neg hfull]
      exact ih _ (by omega) _
  | @timeout s t h ih =>
    have hread : readData GDB_MAXLEN (0 :: t) pkt length cksum =
        readData GDB_MAXLEN t pkt length cksum := rfl
    have hbehind : behindData room (0 :: t) = behindData room t := rfl
    rw [hread, hbehind]
    exact ih pkt hroom cksum

/-! ## The checksum -/

/-- The end of `recvBody`: the checksum is read. -/
def recvChecksum (g : Gdb) (pkt : Pkt) (length : Nat) (cksum : Byte) (len : Option Nat)
    (rest : List Byte) : Call Received := do
  let d ← readDigit rest
  match d.1 with
  | none => .ok { status := EOF, pkt, len, g := g.readTo d.2 }
  | some d1 =>
    let e ← readDigit d.2
    match d1, e.1 with
    | _, none => .ok { status := EOF, pkt, len, g := g.readTo e.2 }
    | some d1, some (some e1) => .ok (verify pkt length cksum len (g.readTo e.2) d1 e1)
    | _, _ => .error .fault

/-- A time-out is read for a digit of the checksum, and no end of file beside it ends the call. -/
def MissesDigit : List Byte → Prop
  | c :: d :: _ => isEof c = false ∧ isEof d = false ∧ (c = 0 ∨ d = 0)
  | _ => False

instance : DecidablePred MissesDigit
  | [] => isFalse id
  | [_] => isFalse id
  | c :: d :: _ =>
    inferInstanceAs (Decidable (isEof c = false ∧ isEof d = false ∧ (c = 0 ∨ d = 0)))

/-- What a caller of `gdb_recv_packet` and the host see of it: the status, the buffer, the length
and what was sent. -/
def Received.seen (r : Received) : Int × Pkt × Option Nat × List Byte :=
  (r.status, r.pkt, r.len, r.g.output)

section Checksum
variable (g : Gdb) (pkt : Pkt) (length : Nat) (cksum : Byte) (len : Option Nat)

theorem readDigit_eof {c : Byte} (h : isEof c = true) (rest : List Byte) :
    readDigit (c :: rest) = .ok (none, rest) := if_pos h

theorem readDigit_char {c : Byte} (h : isEof c = false) (h0 : c ≠ 0) (rest : List Byte) :
    readDigit (c :: rest) = .ok (some (some c), rest) := by
  rw [readDigit, h, if_neg Bool.false_ne_true, if_neg h0]

theorem readDigit_timeout (rest : List Byte) : readDigit (0 :: rest) = .ok (some none, rest) := rfl

theorem recvChecksum_misses {t : List Byte} (h : MissesDigit t) :
    recvChecksum g pkt length cksum len t = .error .fault := by
  match t, h with
  | c :: d :: rest, ⟨hc, hd, h0⟩ =>
    rw [recvChecksum]
    by_cases hczero : c = 0
    · subst hczero
      rw [readDigit_timeout]
      by_cases hdzero : d = 0
      · subst hdzero
        rfl
      · simp only [ok_bind, readDigit_char hd hdzero]
    · have hdzero : d = 0 := h0.resolve_left hczero
      subst hdzero
      simp only [readDigit_char hc hczero, ok_bind, readDigit_timeout]

/-- Where no digit is missed, the time-outs make no difference. -/
theorem recvChecksum_delayed {s t : List Byte} (h : Delayed s t) (hmiss : ¬ MissesDigit t) :
    (recvChecksum g pkt length cksum len t).map Received.seen =
        (recvChecksum g pkt length cksum len s).map Received.seen ∧
      recvChecksum g pkt length cksum len t ≠ .error .fault := by
  match t, h with
  | [], h =>
    rw [h.of_nil]
    exact ⟨rfl, fun hf => nomatch hf⟩
  | c :: t, h =>
    by_cases heof : isEof c = true
    · obtain ⟨s', rfl, hs⟩ := h.of_char (by rintro rfl; exact absurd heof (by decide))
      rw [recvChecksum, recvChecksum, readDigit_eof heof, readDigit_eof heof]
      exact ⟨rfl, fun hf => nomatch hf⟩
    rw [Bool.not_eq_true] at heof
    by_cases hzero : c = 0
    · subst hzero
      match t, h with
      | [], h =>
        rcases h.of_timeout with hs | ⟨s', rfl, hs⟩
        · rw [hs.of_nil]
          exact ⟨rfl, fun hf => nomatch hf⟩
        · rw [hs.of_nil]
          exact ⟨rfl, fun hf => nomatch hf⟩
      | d :: t, h =>
        have hd : isEof d = true := by
          by_contra hne
          exact hmiss ⟨heof, by simpa using hne, Or.inl rfl⟩
        have hdzero : d ≠ 0 := by
          rintro rfl
          exact absurd hd (by decide)
        have hlate : recvChecksum g pkt length cksum len (0 :: d :: t) =
            .ok { status := EOF, pkt, len, g := g.readTo t } := by
          rw [recvChecksum, readDigit_timeout]
          simp only [ok_bind, readDigit_eof hd]
        rw [hlate]
        refine ⟨?_, fun hf => nomatch hf⟩
        rcases h.of_timeout with hs | ⟨s', rfl, hs⟩
        · obtain ⟨s', rfl, -⟩ := hs.of_char hdzero
          rw [recvChecksum, readDigit_eof hd]
          rfl
        · obtain ⟨s'', rfl, -⟩ := hs.of_char hdzero
          rw [recvChecksum, readDigit_timeout]
          simp only [ok_bind, readDigit_eof hd]
          rfl
    · obtain ⟨s', rfl, hs⟩ := h.of_char hzero
      rw [recvChecksum, recvChecksum, readDigit_char heof hzero, readDigit_char heof hzero]
      simp only [ok_bind]
      match t, hs with
      | [], hs =>
        rw [hs.of_nil]
        exact ⟨rfl, fun hf => nomatch hf⟩
      | d :: t, hs =>
        by_cases hd : isEof d = true
        · obtain ⟨s'', rfl, -⟩ := hs.of_char (by rintro rfl; exact absurd hd (by decide))
          rw [readDigit_eof hd, readDigit_eof hd]
          exact ⟨rfl, fun hf => nomatch hf⟩
        · rw [Bool.not_eq_true] at hd
          have hdzero : d ≠ 0 := fun h0 => hmiss ⟨heof, hd, Or.inr h0⟩
          obtain ⟨s'', rfl, -⟩ := hs.of_char hdzero
          rw [readDigit_char hd hdzero, readDigit_char hd hdzero]
          simp only [ok_bind]
          refine ⟨?_, fun hf => nomatch hf⟩
          unfold verify
          split
          · rfl
          · rfl

end Checksum

/-! ## The whole of `gdb_recv_packet` -/

/-- What comes behind the payload of the packet that is received. -/
def checksumPart (input : List Byte) : Option (List Byte) :=
  (behindStart input).bind (behindData (GDB_MAXLEN - 1))

/-- A time-out is read for a digit of the checksum. -/
def LosesDigit (input : List Byte) : Prop := ∃ rest ∈ checksumPart input, MissesDigit rest

instance : DecidablePred LosesDigit := fun input =>
  inferInstanceAs (Decidable (∃ rest ∈ checksumPart input, MissesDigit rest))

/-- With the time-outs of `t`, the same is seen of `gdb_recv_packet` as with the characters `s`, and
nothing is read that was not written. -/
def SameReception (g : Gdb) (pkt : Pkt) (len : Option Nat) (s t : List Byte) : Prop :=
  (gdbRecvPacket GDB_MAXLEN { g with input := t } pkt len).map Received.seen =
      (gdbRecvPacket GDB_MAXLEN { g with input := s } pkt len).map Received.seen ∧
    gdbRecvPacket GDB_MAXLEN { g with input := t } pkt len ≠ .error .fault

theorem recvBody_eq (g : Gdb) (pkt : Pkt) (len : Option Nat) {pkt' : Pkt} {n : Nat} {k : Byte}
    {rest : List Byte}
    (h : readData GDB_MAXLEN g.upcoming pkt 0 0 = .ok (.data pkt' n k rest)) :
    recvBody GDB_MAXLEN g pkt len =
      recvChecksum g (Function.update pkt' n 0) n k len rest := by
  rw [recvBody, h]
  rfl

theorem recvBody_delayed {s t : List Byte} (h : Delayed s t) (g : Gdb) (pkt : Pkt)
    (len : Option Nat) :
    ((recvBody GDB_MAXLEN (g.readTo t) pkt len).map Received.seen =
        (recvBody GDB_MAXLEN (g.readTo s) pkt len).map Received.seen ∧
      recvBody GDB_MAXLEN (g.readTo t) pkt len ≠ .error .fault) ↔
    ¬ ∃ rest ∈ behindData (GDB_MAXLEN - 1) t, MissesDigit rest := by
  have hs : (g.readTo s).upcoming = s := rfl
  have ht : (g.readTo t).upcoming = t := rfl
  rcases readData_delayed h pkt (Nat.zero_add (GDB_MAXLEN - 1)) 0 with
    ⟨h1, h2, hnone⟩ | ⟨s', t', h1, h2, hnone⟩ | ⟨pkt', n, k, s', t', h1, h2, hdelay, hsome⟩
  · rw [recvBody, recvBody, hs, ht, h1, h2, hnone]
    exact ⟨fun _ => by simp, fun _ => ⟨rfl, fun hf => nomatch hf⟩⟩
  · rw [recvBody, recvBody, hs, ht, h1, h2, hnone]
    exact ⟨fun _ => by simp, fun _ => ⟨rfl, fun hf => nomatch hf⟩⟩
  · rw [recvBody_eq (g.readTo s) pkt len h1, recvBody_eq (g.readTo t) pkt len h2, hsome]
    constructor
    · rintro ⟨-, hne⟩ ⟨rest, hrest, hmiss⟩
      cases hrest
      exact hne (recvChecksum_misses _ _ _ _ _ hmiss)
    · intro hmiss
      exact recvChecksum_delayed g _ n k len hdelay fun hm => hmiss ⟨t', rfl, hm⟩

/-- **Time-outs.** They make no difference to the reception of a packet exactly if none of them is
read for a digit of the checksum. -/
theorem same_reception_iff {s t : List Byte} (h : Delayed s t) (g : Gdb) (pkt : Pkt)
    (len : Option Nat) :
    SameReception g pkt len s t ↔ ¬ LosesDigit ({ g with input := t } : Gdb).upcoming := by
  have hup : Delayed ({ g with input := s } : Gdb).upcoming ({ g with input := t } : Gdb).upcoming := by
    show Delayed (if g.pendingChar != 0 then g.pendingChar :: s else s)
      (if g.pendingChar != 0 then g.pendingChar :: t else t)
    split
    · exact .char _ h
    · exact h
  have hstart : ∀ u, scanStart ({ g with input := u } : Gdb).upcoming { g with input := u } =
      scanStart ({ g with input := u } : Gdb).upcoming g := fun u =>
    scanStart_congr { g with input := u } g (fun _ => rfl) _
  have hbehind := behindStart_eq ({ g with input := t } : Gdb).upcoming g
  rw [SameReception, LosesDigit, checksumPart, gdbRecvPacket, gdbRecvPacket,
    awaitStart_eq (Nat.lt_succ_self _), awaitStart_eq (Nat.lt_succ_self _), hstart, hstart, hbehind]
  rcases scanStart_delayed hup g with ⟨h1, h2⟩ | ⟨start, x, s', t', h1, h2, hdelay⟩
  · rw [h1, h2]
    exact ⟨fun _ => by simp, fun _ => ⟨rfl, fun hf => nomatch hf⟩⟩
  · rw [h1, h2]
    cases start with
    | eof => exact ⟨fun _ => by simp, fun _ => ⟨rfl, fun hf => nomatch hf⟩⟩
    | interrupted => exact ⟨fun _ => by simp, fun _ => ⟨rfl, fun hf => nomatch hf⟩⟩
    | packet => exact recvBody_delayed hdelay x pkt len

/-- A frame of `?` with time-outs in it, none of them in the checksum. -/
theorem same_reception_query :
    SameReception (freshGdb []) (fun _ => 0) none (text ['+', '$', '?', '#', '3', 'f'])
      (text ['+'] ++ [0, 0] ++ text ['$'] ++ [0] ++ text ['?', '#', '3', 'f'] ++ [0]) :=
  (same_reception_iff (.char _ (.timeout (.timeout (.char _ (.timeout (.char _ (.char _ (.char _
    (.char _ (.timeout .nil)))))))))) (freshGdb []) (fun _ => 0) none).mpr
    (by decide)

/-- A time-out between the two digits. -/
theorem late_digit_lost :
    ¬ SameReception (freshGdb []) (fun _ => 0) none (text ['$', '?', '#', '3', 'f'])
      (text ['$', '?', '#', '3'] ++ 0 :: text ['f']) := by
  rintro ⟨-, hfault⟩
  exact hfault rfl

end Ohwes

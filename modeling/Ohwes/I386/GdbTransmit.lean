import Ohwes.I386.GdbCodec

/-! # The transmit buffer

`gdb_send_packet` copies the packet into `tx_buf` while it sends it, and `gdb_handle_nack` hands it
`tx_buf` to send once more: the loop then reads the array that it writes. Here `tx_buf` is that
array, with `tx_len` next to it, and the list of `Gdb` is what they hold. -/

namespace Ohwes
set_option autoImplicit false

/-- What `gdb_send_packet` is given as a buffer. -/
inductive Source where
  | null
  | caller (buf : Nat → Byte)
  | txBuf

/-- `struct gdb_state`, with the array for the list in `g`. -/
structure Transmitter where
  g : Gdb
  txBuf : Nat → Byte
  txLen : Nat

/-- The character at a place of the source. -/
def Source.char (src : Source) (t : Transmitter) (i : Nat) : Byte :=
  match src with
  | .null => 0
  | .caller buf => buf i
  | .txBuf => t.txBuf i

def Source.isNull : Source → Bool
  | .null => true
  | _ => false

/-- `i < len && buf` holds for so many passes. -/
def Source.passes (src : Source) (len : Nat) : Nat := if src.isNull then 0 else len

/-- The packet that the source holds. -/
def Source.packet (src : Source) (len : Nat) (t : Transmitter) : List Byte :=
  (List.range (src.passes len)).map (src.char t)

namespace Transmitter

def putc (t : Transmitter) (c : Byte) : Transmitter := { t with g := gdbPutc t.g c }

/-- A pass of the loop of `gdb_send_packet`, with the checksum so far. -/
def sendChar (src : Source) (r : Transmitter × Byte) (i : Nat) : Transmitter × Byte :=
  let t := { r.1 with txBuf := Function.update r.1.txBuf i (src.char r.1 i) }
  (t.putc (t.txBuf i), r.2 + t.txBuf i)

/-- `gdb_send_packet` from the start of the frame to its end. -/
def transmit (src : Source) (len : Nat) (t : Transmitter) : Transmitter :=
  let i := src.passes len
  let (t, cksum) := (List.range i).foldl (sendChar src) (t.putc PACKET_START, 0)
  let t := { t with txBuf := Function.update t.txBuf i 0, txLen := i }
  let t := (hexPair cksum).foldl putc (t.putc PACKET_END)
  { t with g := { t.g with txpktCount := t.g.txpktCount + 1 } }

/-- `gdb_recv_ack` on the characters to come, `gdb_handle_nack` among it. -/
def gdbRecvAck : List Byte → Transmitter → Call (Int × Transmitter)
  | [], _ => .error .diverges
  | c :: rest, t =>
    let t := { t with g := t.g.readTo rest }
    if c = ACK then .ok (0, { t with g := gdbHandleAck t.g })
    else if c = NACK then
      let t := { t with g := countNack t.g }
      if t.txLen > GDB_MAXLEN - 1 then .ok (EOF, t)
      else gdbRecvAck rest (t.transmit .txBuf t.txLen)
    else .ok (c.toInt, { t with g := { t.g with pendingChar := c } })

def gdbSendPacket (src : Source) (len : Nat) (t : Transmitter) : Call (Int × Transmitter) :=
  if src.isNull && len > 0 then .ok (EOF, t)
  else if len > GDB_MAXLEN - 1 then .ok (EOF, t)
  else gdbRecvAck (t.transmit src len).g.upcoming (t.transmit src len)

def gdbHandleNack (t : Transmitter) : Call (Int × Transmitter) :=
  gdbSendPacket .txBuf t.txLen { t with g := countNack t.g }

end Transmitter

/-! ## What is sent, and what stays in the buffer -/

section Loop
variable (src : Source) (t : Transmitter)

/-- After `k` passes the first `k` places hold the source, whether or not it is the buffer. -/
def copied (k : Nat) : Nat → Byte := fun j => if j < k then src.char t j else t.txBuf j

theorem copied_succ (k : Nat) :
    Function.update (copied src t k) k (src.char t k) = copied src t (k + 1) := by
  funext j
  by_cases hj : j = k
  · subst hj
    rw [Function.update_self, copied, if_pos (Nat.lt_succ_self j)]
  · rw [Function.update_of_ne hj, copied, copied]
    by_cases hlt : j < k
    · rw [if_pos hlt, if_pos (by omega)]
    · rw [if_neg hlt, if_neg (by omega)]

theorem copied_txBuf (k : Nat) : copied .txBuf t k = t.txBuf := by
  funext j
  exact ite_self _

/-- The stub after `k` passes. -/
def midway (k : Nat) : Transmitter where
  g := { t.g with output := t.g.output ++ PACKET_START :: (List.range k).map (src.char t) }
  txBuf := copied src t k
  txLen := t.txLen

/-- The place that a pass reads has not been written yet. -/
theorem midway_char (k : Nat) : src.char (midway src t k) k = src.char t k := by
  cases src with
  | null => rfl
  | caller buf => rfl
  | txBuf =>
    show copied .txBuf t k k = t.txBuf k
    rw [copied_txBuf]

theorem sendChar_midway (k : Nat) (cksum : Byte) :
    Transmitter.sendChar src (midway src t k, cksum) k =
      (midway src t (k + 1), cksum + src.char t k) := by
  have hbuf : Function.update (midway src t k).txBuf k (src.char t k) = copied src t (k + 1) :=
    copied_succ src t k
  simp only [Transmitter.sendChar, midway_char, hbuf, Transmitter.putc]
  have hlast : copied src t (k + 1) k = src.char t k := if_pos (Nat.lt_succ_self k)
  rw [hlast]
  simp [midway, gdbPutc, List.range_succ]

theorem sendChar_loop (k : Nat) :
    (List.range k).foldl (Transmitter.sendChar src) (t.putc PACKET_START, 0) =
      (midway src t k, checksum ((List.range k).map (src.char t))) := by
  induction k with
  | zero => rfl
  | succ k ih =>
    rw [List.range_succ, List.foldl_append, ih, List.foldl_cons, List.foldl_nil, sendChar_midway,
      List.map_append, checksum, checksum, List.foldl_append]
    rfl

end Loop

namespace Transmitter
variable (src : Source) (len : Nat) (t : Transmitter)

/-- The stub of `Gdb` that this one is. -/
def flat : Gdb := { t.g with txBuf := (List.range t.txLen).map t.txBuf }

theorem transmit_eq :
    t.transmit src len =
      ⟨{ t.g with
          output := t.g.output ++ frame (src.packet len t)
          txpktCount := t.g.txpktCount + 1 },
        Function.update (copied src t (src.passes len)) (src.passes len) 0, src.passes len⟩ := by
  rw [transmit, sendChar_loop]
  simp [midway, putc, gdbPutc, hexPair, frame, Source.packet]

theorem transmit_holds {j : Nat} (hj : j < src.passes len) :
    (t.transmit src len).txBuf j = src.char t j := by
  rw [transmit_eq]
  show Function.update _ _ _ j = _
  rw [Function.update_of_ne (by omega), copied, if_pos hj]

/-- `tx_buf` as a list is the packet that was sent. -/
theorem flat_transmit : (t.transmit src len).flat = emitPacket t.flat (src.packet len t) := by
  have hbuf : (List.range (src.passes len)).map (t.transmit src len).txBuf = src.packet len t :=
    List.map_congr_left fun j hj => t.transmit_holds src len (List.mem_range.mp hj)
  have hlen : (t.transmit src len).txLen = src.passes len := by rw [transmit_eq]
  rw [flat, hlen, hbuf, transmit_eq]
  simp [emitPacket, flat, frame]

/-- What the list model of the stub does is what this one does. -/
theorem flat_gdbRecvAck (cs : List Byte) :
    (t.gdbRecvAck cs).map (fun x => (x.1, x.2.flat)) = recvAck cs t.flat := by
  induction cs generalizing t with
  | nil => rfl
  | cons c rest ih =>
    rw [gdbRecvAck, recvAck]
    by_cases hack : c = ACK
    · rw [if_pos hack, if_pos hack]
      rfl
    · rw [if_neg hack, if_neg hack]
      by_cases hnack : c = NACK
      · rw [if_pos hnack, if_pos hnack]
        have hlen : (t.flat.readTo rest).txBuf.length = t.txLen := by simp [flat, Gdb.readTo]
        rw [hlen]
        by_cases hlong : t.txLen > GDB_MAXLEN - 1
        · rw [if_pos hlong]
          simp only [if_pos hlong]
          rfl
        · rw [if_neg hlong]
          simp only [if_neg hlong]
          rw [ih, flat_transmit]
          rfl
      · rw [if_neg hnack, if_neg hnack]
        rfl

/-- The call does not refuse the buffer. -/
structure Sendable (src : Source) (len : Nat) : Prop where
  null : src.isNull = true → len = 0
  short : len ≤ GDB_MAXLEN - 1

variable {src len}

theorem Sendable.passes (h : Sendable src len) : src.passes len = len := by
  rw [Source.passes]
  split
  · rename_i hnull
    exact (h.null hnull).symm
  · rfl

theorem Sendable.gdbSendPacket_eq (h : Sendable src len) :
    t.gdbSendPacket src len =
      gdbRecvAck (t.transmit src len).g.upcoming (t.transmit src len) := by
  have hnull : ¬ (src.isNull && decide (len > 0)) = true := by
    rw [Bool.and_eq_true, decide_eq_true_eq]
    rintro ⟨hsrc, hpos⟩
    exact absurd (h.null hsrc) (by omega)
  rw [gdbSendPacket, if_neg hnull, if_neg (by have := h.short; omega)]

theorem flat_gdbSendPacket (h : Sendable src len) :
    (t.gdbSendPacket src len).map (fun x => (x.1, x.2.flat)) =
      Ohwes.gdbSendPacket t.flat (src.packet len t) := by
  have hlen : (src.packet len t).length = len := by
    rw [Source.packet, List.length_map, List.length_range, h.passes]
  have hup : (t.transmit src len).g.upcoming =
      (emitPacket t.flat (src.packet len t)).upcoming := by
    rw [transmit_eq]
    rfl
  rw [h.gdbSendPacket_eq, Ohwes.gdbSendPacket, hlen, if_neg (by have := h.short; omega),
    flat_gdbRecvAck, flat_transmit, hup]

/-! ## Retransmissions -/

/-- The packet is in `tx_buf`, with the NUL that `gdb_send_packet` puts behind it. -/
structure Holds (packet : List Byte) (t : Transmitter) : Prop where
  chars : (List.range t.txLen).map t.txBuf = packet
  nul : t.txBuf t.txLen = 0
  short : t.txLen ≤ GDB_MAXLEN - 1

/-- From `t` to `u` the frame of the packet was put on the line, and `tx_buf` and `tx_len` are as
they were. -/
structure Repeats (packet : List Byte) (t u : Transmitter) : Prop where
  output : u.g.output = t.g.output ++ frame packet
  txBuf : u.txBuf = t.txBuf
  txLen : u.txLen = t.txLen

variable {t} {packet : List Byte}

theorem Sendable.holds (h : Sendable src len) (t : Transmitter) :
    Holds (src.packet len t) (t.transmit src len) where
  chars := by
    have hflat := t.flat_transmit src len
    exact congrArg Gdb.txBuf hflat
  nul := by
    rw [transmit_eq]
    exact Function.update_self ..
  short := by
    rw [transmit_eq]
    show src.passes len ≤ _
    rw [h.passes]
    exact h.short

theorem Holds.repeats (h : Holds packet t) : Repeats packet t (t.transmit .txBuf t.txLen) := by
  have hpacket : Source.packet .txBuf t.txLen t = packet := h.chars
  have hpasses : Source.passes .txBuf t.txLen = t.txLen := rfl
  rw [transmit_eq, hpacket, hpasses, copied_txBuf]
  refine ⟨rfl, ?_, rfl⟩
  rw [← h.nul]
  exact Function.update_eq_self _ _

theorem Holds.congr {u : Transmitter} (h : Holds packet t) (hbuf : u.txBuf = t.txBuf)
    (hlen : u.txLen = t.txLen) : Holds packet u := by
  refine ⟨?_, ?_, ?_⟩
  · rw [hbuf, hlen]
    exact h.chars
  · rw [hbuf, hlen]
    exact h.nul
  · rw [hlen]
    exact h.short

theorem Repeats.holds {u : Transmitter} (hr : Repeats packet t u) (h : Holds packet t) :
    Holds packet u := h.congr hr.txBuf hr.txLen

/-- A NACK is answered with the frame, and the wait goes on. -/
theorem Holds.nack (h : Holds packet t) (rest : List Byte) :
    ∃ u, t.gdbRecvAck (NACK :: rest) = u.gdbRecvAck rest ∧ Repeats packet t u ∧
      u.g.upcoming = rest := by
  have hread : Holds packet { t with g := countNack (t.g.readTo rest) } := h.congr rfl rfl
  have hrep := hread.repeats
  refine ⟨_, ?_, ⟨hrep.output, hrep.txBuf, hrep.txLen⟩, ?_⟩
  · rw [gdbRecvAck, if_neg (by decide), if_pos rfl]
    exact if_neg (Nat.not_lt.mpr h.short)
  · rw [transmit_eq]
    rfl

/-- Any number of NACKs in a row, by induction on the number. -/
theorem Holds.nacks (h : Holds packet t) (n : Nat) {rest : List Byte}
    (hin : t.g.upcoming = List.replicate n NACK ++ rest) :
    ∃ s : Nat → Transmitter, s 0 = t ∧ (∀ k < n, Repeats packet (s k) (s (k + 1))) ∧
      t.gdbRecvAck t.g.upcoming = (s n).gdbRecvAck rest := by
  induction n generalizing t with
  | zero =>
    refine ⟨fun _ => t, rfl, fun k hk => absurd hk (Nat.not_lt_zero k), ?_⟩
    rw [hin]
    rfl
  | succ n ih =>
    rw [List.replicate_succ, List.cons_append] at hin
    obtain ⟨u, hwait, hrep, hup⟩ := h.nack (List.replicate n NACK ++ rest)
    obtain ⟨s, hs0, hstep, hend⟩ := ih (hrep.holds h) hup
    refine ⟨fun k => Nat.casesOn k t s, rfl, fun k hk => ?_, ?_⟩
    · cases k with
      | zero =>
        show Repeats packet t (s 0)
        rw [hs0]
        exact hrep
      | succ k => exact hstep k (by omega)
    · rw [hin, hwait, ← hup]
      exact hend

/-- **Retransmission.** After a packet was sent, every NACK, be it among the first that follow or one
that comes later, puts the same frame on the line, and leaves `tx_buf` and `tx_len` alone. -/
theorem nacks_repeat_frame (src : Source) (len : Nat) (h : Sendable src len) (t : Transmitter) :
    (t.transmit src len).g.output = t.g.output ++ frame (src.packet len t) ∧
      (∀ (n : Nat) (rest : List Byte), t.g.upcoming = List.replicate n NACK ++ rest →
        ∃ s : Nat → Transmitter, s 0 = t.transmit src len ∧
          (∀ k < n, Repeats (src.packet len t) (s k) (s (k + 1))) ∧
          t.gdbSendPacket src len = (s n).gdbRecvAck rest) ∧
      ∀ u : Transmitter, u.txBuf = (t.transmit src len).txBuf →
        u.txLen = (t.transmit src len).txLen →
        ∃ v, u.gdbHandleNack = v.gdbRecvAck v.g.upcoming ∧ Repeats (src.packet len t) u v := by
  have hholds := h.holds t
  refine ⟨?_, fun n rest hin => ?_, fun u hbuf hlen => ?_⟩
  · rw [transmit_eq]
  · have hup : (t.transmit src len).g.upcoming = List.replicate n NACK ++ rest := by
      rw [transmit_eq, ← hin]
      rfl
    obtain ⟨s, hs0, hstep, hend⟩ := hholds.nacks n hup
    exact ⟨s, hs0, hstep, (h.gdbSendPacket_eq t).trans hend⟩
  · have hu := hholds.congr hbuf hlen
    have hcount : Holds (src.packet len t) { u with g := countNack u.g } := hu.congr rfl rfl
    have hrep := hcount.repeats
    have hsend : Sendable .txBuf u.txLen := ⟨fun hnull => absurd hnull (by decide), hu.short⟩
    exact ⟨_, hsend.gdbSendPacket_eq _, ⟨hrep.output, hrep.txBuf, hrep.txLen⟩⟩

/-- A reply to `?`, and a host that asks for it three times more. -/
def stopReply : Source := .caller fun i => (text ['S', '0', '5']).getD i 0

def askedAgain : Transmitter := ⟨freshGdb (List.replicate 3 NACK ++ [ACK]), fun _ => 0, 0⟩

theorem nacks_repeat_frame_stop :
    ∃ s : Nat → Transmitter, s 0 = askedAgain.transmit stopReply 3 ∧
      (∀ k < 3, Repeats (text ['S', '0', '5']) (s k) (s (k + 1))) ∧
      askedAgain.gdbSendPacket stopReply 3 = (s 3).gdbRecvAck [ACK] :=
  (nacks_repeat_frame stopReply 3 ⟨by decide, by decide⟩ askedAgain).2.1 3 [ACK] rfl

end Transmitter

end Ohwes

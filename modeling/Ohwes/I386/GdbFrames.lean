import Ohwes.Library.Runs
import Ohwes.I386.Gdbstub

/-! # Frames whose checksum does not match

`gdb_recv_packet` answers such a frame with a NACK and returns 0, as it does for a good one; the
length is the only thing that tells `gdb_main` that there is no packet, and a bad frame leaves it as
the last good one left it. `harmless_iff` says exactly when nothing comes of the frame. -/

namespace Ohwes
open Library
set_option autoImplicit false

/-! ## Sending -/

/-- Waiting for an acknowledgement sends packets again, and only that. -/
theorem recvAck_output {cs : List Byte} {g : Gdb} {x : Int × Gdb} (h : recvAck cs g = .ok x) :
    g.output.length ≤ x.2.output.length := by
  induction cs generalizing g with
  | nil => cases h
  | cons c rest ih =>
    rw [recvAck] at h
    split_ifs at h
    · cases h
      exact Nat.le_refl _
    · cases h
      exact Nat.le_refl _
    · have hmore := ih h
      have hsent : (emitPacket (countNack (g.readTo rest)) (g.readTo rest).txBuf).output.length =
          g.output.length + (g.txBuf.length + 4) := by
        simp [emitPacket, hexPair, countNack, Gdb.readTo]
      omega
    · cases h
      exact Nat.le_refl _

/-- A packet is longer than its acknowledgement. -/
theorem gdbSendPacket_output {g : Gdb} {buf : List Byte} {x : Int × Gdb}
    (h : gdbSendPacket g buf = .ok x) :
    x.1 = EOF ∨ g.output.length + 4 ≤ x.2.output.length := by
  unfold gdbSendPacket at h
  split_ifs at h
  · cases h
    exact Or.inl rfl
  · have hmore := recvAck_output h
    have hsent : (emitPacket g buf).output.length = g.output.length + (buf.length + 4) := by
      simp [emitPacket, hexPair]
    exact Or.inr (by omega)

/-- A call that reports an error or sends something. -/
def Sends (g : Gdb) (call : Call (Int × Gdb)) : Prop :=
  ∀ x, call = .ok x → x.1 = EOF ∨ g.output.length + 4 ≤ x.2.output.length

theorem sends_packet {g g' : Gdb} (h : g'.output = g.output) (buf : List Byte) :
    Sends g (gdbSendPacket g' buf) := by
  intro x hx
  rw [← h]
  exact gdbSendPacket_output hx

theorem sends_eof (g g' : Gdb) : Sends g (.ok (EOF, g')) := by
  intro x hx
  cases hx
  exact Or.inl rfl

theorem sends_ite {g : Gdb} {c : Prop} [Decidable c] {x y : Call (Int × Gdb)} (hx : Sends g x)
    (hy : Sends g y) : Sends g (if c then x else y) := by
  split
  · exact hx
  · exact hy

theorem sends_encoded (g : Gdb) (bufsiz : Nat) (data : List Byte) :
    Sends g (sendEncoded bufsiz g data) := by
  unfold sendEncoded
  split
  · exact sends_eof g g
  · exact sends_packet rfl _

theorem sends_code (g : Gdb) (letter : Byte) (code : BitVec 32) :
    Sends g (sendCodePacket letter g code) := by
  unfold sendCodePacket
  split
  · exact sends_eof g g
  · exact sends_packet rfl _

theorem sends_writeRegs (g : Gdb) (pkt : Pkt) (n : Nat) : Sends g (gdbWriteRegs g pkt n) := by
  unfold gdbWriteRegs
  split
  · exact sends_eof g g
  · exact sends_packet rfl _

theorem sends_readMem (g : Gdb) (pkt : Pkt) (n : Nat) : Sends g (gdbReadMem g pkt n) := by
  unfold gdbReadMem
  exact sends_ite (sends_eof g g) (sends_ite (sends_eof g g)
    (sends_ite (sends_code g _ _) (sends_encoded g _ _)))

theorem sends_writeMem (g : Gdb) (pkt : Pkt) (n : Nat) : Sends g (gdbWriteMem g pkt n) := by
  unfold gdbWriteMem
  simp only []
  refine sends_ite (sends_eof g g) (sends_ite (sends_eof g g) (sends_ite (sends_eof g g) ?_))
  split
  · exact sends_eof g g
  · exact sends_ite (sends_code g _ _) (sends_packet rfl _)

theorem Sends.again {g : Gdb} {call : Call (Int × Gdb)} (h : Sends g call) {pkt : Pkt} {len : Nat}
    {s : Session} (hs : endPass pkt len <$> call = .ok (.again s)) :
    g.output.length + 4 ≤ s.g.output.length := by
  cases hcall : call with
  | error e =>
    rw [hcall] at hs
    cases hs
  | ok x =>
    rw [hcall] at hs
    have hpass : endPass pkt len x = .again s := Except.ok.inj hs
    unfold endPass at hpass
    split_ifs at hpass with heof
    cases hpass
    exact (h x hcall).resolve_left heof

/-- A command that does not end the session counts an ACK or sends a packet. -/
theorem dispatch_again {g : Gdb} {pkt : Pkt} {len : Nat} {s : Session}
    (h : dispatch g pkt len = .ok (.again s)) :
    s.g.ackCount = g.ackCount + 1 ∨ g.output.length + 4 ≤ s.g.output.length := by
  unfold dispatch at h
  split at h
  · exact Or.inr ((sends_code g _ _).again h)
  · exact Or.inr ((sends_encoded g _ _).again h)
  · exact Or.inr ((sends_writeRegs g _ _).again h)
  · exact Or.inr ((sends_readMem g _ _).again h)
  · exact Or.inr ((sends_writeMem g _ _).again h)
  · cases h
  · cases h
  · cases hd : gdbDetach g with
    | error e =>
      rw [hd] at h
      cases h
    | ok x =>
      rw [hd] at h
      cases h
  · cases h
    exact Or.inl rfl
  · exact Or.inr ((sends_packet rfl _ : Sends g (gdbHandleNack g)).again h)
  · exact Or.inr ((sends_packet rfl _ : Sends g (gdbSendEmptyPacket g)).again h)

/-! ## Receiving -/

/-- The payload can be read with `length` characters read before it: no character is taken for an
end of file, and the buffer has room for all that are not time-outs. -/
def Fits (length : Nat) (payload : List Byte) : Prop :=
  (∀ c ∈ payload, isEof c = false) ∧
    length + (payload.filter (· != 0)).length ≤ GDB_MAXLEN - 1

/-- Put characters into the packet buffer. -/
def Pkt.store (pkt : Pkt) (length : Nat) : List Byte → Pkt
  | [] => pkt
  | c :: cs => store (Function.update pkt length c) (length + 1) cs

theorem readData_fits {payload : List Byte} (rest : List Byte) {pkt : Pkt} {length : Nat}
    {cksum : Byte} (hend : PACKET_END ∉ payload) (h : Fits length payload) :
    readData GDB_MAXLEN (payload ++ PACKET_END :: rest) pkt length cksum =
      .ok (.data (pkt.store length (payload.filter (· != 0)))
        (length + (payload.filter (· != 0)).length) (payload.foldl (· + ·) cksum) rest) := by
  induction payload generalizing pkt length cksum with
  | nil => rfl
  | cons c payload ih =>
    have hc : isEof c = false := h.1 c List.mem_cons_self
    have hne : c ≠ PACKET_END := fun e => hend (e ▸ List.mem_cons_self)
    have hrest : PACKET_END ∉ payload := fun hm => hend (List.mem_cons_of_mem c hm)
    have heof : ∀ d ∈ payload, isEof d = false := fun d hd => h.1 d (List.mem_cons_of_mem c hd)
    have hroom := h.2
    rw [List.cons_append, readData]
    by_cases h0 : c = 0
    · subst h0
      simp only [hc, Bool.false_eq_true, if_false, if_neg hne, if_true]
      rw [ih hrest ⟨heof, by simpa using hroom⟩]
      simp
    · have hkeep : (c :: payload).filter (· != 0) = c :: payload.filter (· != 0) :=
        List.filter_cons_of_pos (by simpa using h0)
      rw [hkeep, List.length_cons] at hroom
      have hfree : ¬ (length ≥ GDB_MAXLEN - 1 ∨ length ≥ GDB_MAXLEN - 1) := by omega
      simp only [hc, Bool.false_eq_true, if_false, if_neg hne, if_neg h0, if_neg hfree]
      rw [ih hrest ⟨heof, by omega⟩, hkeep, List.length_cons, List.foldl_cons]
      simp only [Pkt.store]
      congr 2
      omega

theorem readData_not_fits {payload : List Byte} (rest : List Byte) (pkt : Pkt) {length : Nat}
    (cksum : Byte) (hend : PACKET_END ∉ payload) (hlen : length ≤ GDB_MAXLEN - 1)
    (h : ¬ Fits length payload) :
    ∃ left, readData GDB_MAXLEN (payload ++ PACKET_END :: rest) pkt length cksum =
      .ok (.eof left) := by
  induction payload generalizing pkt length cksum with
  | nil => exact absurd ⟨by simp, hlen⟩ h
  | cons c payload ih =>
    have hne : c ≠ PACKET_END := fun e => hend (e ▸ List.mem_cons_self)
    have hrest : PACKET_END ∉ payload := fun hm => hend (List.mem_cons_of_mem c hm)
    rw [List.cons_append, readData]
    by_cases hc : isEof c = true
    · exact ⟨_, if_pos hc⟩
    · have hc : isEof c = false := by simpa using hc
      by_cases h0 : c = 0
      · subst h0
        simp only [hc, Bool.false_eq_true, if_false, if_neg hne, if_true]
        refine ih _ _ hrest hlen fun hf => h ⟨?_, by simpa using hf.2⟩
        exact List.forall_mem_cons.mpr ⟨hc, hf.1⟩
      · simp only [hc, Bool.false_eq_true, if_false, if_neg hne, if_neg h0]
        by_cases hfull : length ≥ GDB_MAXLEN - 1
        · exact ⟨_, if_pos (Or.inl hfull)⟩
        · rw [if_neg (by omega)]
          refine ih _ _ hrest (by omega) fun hf => h ⟨List.forall_mem_cons.mpr ⟨hc, hf.1⟩, ?_⟩
          have hroom := hf.2
          rw [List.filter_cons_of_pos (by simpa using h0), List.length_cons]
          omega

/-- A hex digit is neither an end of file nor a time-out. -/
theorem isxdigit_char (c : Byte) (h : isxdigit c = true) : isEof c = false ∧ c ≠ 0 := by
  revert c
  decide +kernel

theorem readDigit_hex {c : Byte} (h : isxdigit c = true) (rest : List Byte) :
    readDigit (c :: rest) = .ok (some (some c), rest) := by
  obtain ⟨heof, h0⟩ := isxdigit_char c h
  rw [readDigit, heof, if_neg Bool.false_ne_true, if_neg h0]

/-- A frame that fits is read to its end and verified. -/
theorem recvBody_fits {g : Gdb} (pkt : Pkt) (len : Option Nat) {payload rest : List Byte} {d e : Byte}
    (hin : g.upcoming = payload ++ PACKET_END :: d :: e :: rest) (hend : PACKET_END ∉ payload)
    (hd : isxdigit d = true) (he : isxdigit e = true) (h : Fits 0 payload) :
    recvBody GDB_MAXLEN g pkt len =
      .ok (verify (Function.update (pkt.store 0 (payload.filter (· != 0)))
        (payload.filter (· != 0)).length 0) (payload.filter (· != 0)).length (checksum payload) len
        (g.readTo rest) d e) := by
  unfold recvBody
  rw [hin, readData_fits _ hend h]
  simp only [ok_bind, readDigit_hex hd, readDigit_hex he, Nat.zero_add]
  rfl

theorem recvBody_not_fits {g : Gdb} (pkt : Pkt) (len : Option Nat) {payload rest : List Byte}
    (hin : g.upcoming = payload ++ PACKET_END :: rest) (hend : PACKET_END ∉ payload)
    (h : ¬ Fits 0 payload) :
    ∃ left, recvBody GDB_MAXLEN g pkt len =
      .ok { status := EOF, pkt, len, g := g.readTo left } := by
  obtain ⟨left, hleft⟩ := readData_not_fits rest pkt 0 hend (by decide) h
  refine ⟨left, ?_⟩
  unfold recvBody
  rw [hin, hleft]
  rfl

/-! ## Frames with a wrong checksum -/

/-- The pass that starts at `s` finds the start of a packet, with the stub in state `g` there, and
what follows is `payload`, the end mark and two hex digits that are not its checksum. -/
structure BadFrame (s : Session) (g : Gdb) (payload : List Byte) (d e : Byte) (rest : List Byte) :
    Prop where
  start : awaitStart (s.g.upcoming.length + 1) s.g = .ok (.packet, g)
  input : g.upcoming = payload ++ PACKET_END :: d :: e :: rest
  noEnd : PACKET_END ∉ payload
  digit₁ : isxdigit d = true
  digit₂ : isxdigit e = true
  wrong : checksum payload ≠ hexDigit d <<< (4 : Nat) + hexDigit e

/-- The frame is counted and answered with a NACK; nothing else of the stub changes. -/
def nacked (g : Gdb) (rest : List Byte) : Gdb :=
  gdbSendNack { g.readTo rest with rxpktCount := g.rxpktCount + 1 }

/-- Nothing comes of the frame: the next pass starts behind it, with the stub and the length as they
were. -/
def Harmless (s : Session) (g : Gdb) (rest : List Byte) : Prop :=
  ∃ pkt, gdbPass s = .ok (.again { g := nacked g rest, pkt, len := s.len })

section Frame
variable {s : Session} {g : Gdb} {payload rest : List Byte} {d e : Byte}

theorem BadFrame.received (h : BadFrame s g payload d e rest) (hfits : Fits 0 payload) :
    ∃ pkt, gdbRecvPacket GDB_MAXLEN s.g s.pkt s.len =
      .ok { status := 0, pkt, len := s.len, g := nacked g rest } := by
  have hbad : [checksum payload] ≠ decodePairs 1 [d, e] := fun heq =>
    h.wrong (by simpa [decodePairs] using heq)
  refine ⟨Function.update (s.pkt.store 0 (payload.filter (· != 0)))
    (payload.filter (· != 0)).length 0, ?_⟩
  unfold gdbRecvPacket
  rw [h.start]
  simp only [ok_bind]
  rw [recvBody_fits _ _ h.input h.noEnd h.digit₁ h.digit₂ hfits, verify, if_pos hbad]
  rfl

/-- **One bad frame.** Nothing comes of it exactly when its payload can be read and the length that
the last good frame left is 0. -/
theorem harmless_iff (h : BadFrame s g payload d e rest) :
    Harmless s g rest ↔ Fits 0 payload ∧ s.len = some 0 := by
  by_cases hfits : Fits 0 payload
  · obtain ⟨pkt, hrecv⟩ := h.received hfits
    have hnone (hlen : s.len = none) : gdbPass s = .error .fault := by
      unfold gdbPass
      rw [hrecv, hlen]
      rfl
    have hempty (hlen : s.len = some 0) :
        gdbPass s = .ok (.again { g := nacked g rest, pkt, len := some 0 }) := by
      unfold gdbPass
      rw [hrecv, hlen]
      rfl
    have hstale (len : Nat) (hlen : s.len = some (len + 1)) :
        gdbPass s = dispatch (nacked g rest) pkt (len + 1) := by
      unfold gdbPass
      rw [hrecv, hlen]
      rfl
    constructor
    · rintro ⟨pkt', hagain⟩
      refine ⟨hfits, ?_⟩
      cases hlen : s.len with
      | none =>
        rw [hnone hlen] at hagain
        cases hagain
      | some len =>
        cases len with
        | zero => rfl
        | succ len =>
          -- A stale length: the command in the buffer is executed, and it shows.
          rw [hstale len hlen] at hagain
          rcases dispatch_again hagain with hack | hout
          · have hack : (nacked g rest).ackCount = (nacked g rest).ackCount + 1 := hack
            bv_omega
          · have hout : (nacked g rest).output.length + 4 ≤ (nacked g rest).output.length := hout
            omega
    · rintro ⟨_, hlen⟩
      refine ⟨pkt, ?_⟩
      rw [hempty hlen, hlen]
  · refine ⟨?_, fun hf => absurd hf.1 hfits⟩
    rintro ⟨pkt', hagain⟩
    obtain ⟨left, hleft⟩ := recvBody_not_fits s.pkt s.len h.input h.noEnd hfits
    unfold gdbPass gdbRecvPacket at hagain
    rw [h.start] at hagain
    simp only [ok_bind] at hagain
    rw [hleft] at hagain
    cases hagain

end Frame

/-! ## Every session -/

/-- The passes of the loop, as steps; a pass that ends the loop has no next state. -/
def sessionStep (s : Session) (_ : Unit) : Except (Option Halt) Session :=
  match gdbPass s with
  | .ok (.again s) => .ok s
  | .ok (.stop _ _) => .error none
  | .ok (.leave _) => .error none
  | .error e => .error (some e)

/-- The loop of `gdb_main` comes to the start of a pass in state `s`. -/
def Comes (start s : Session) : Prop := ∃ n, run sessionStep start (List.replicate n ()) = .ok s

/-- From there the loop goes on as from the start. -/
theorem gdbLoop_run {n : Nat} {start s : Session}
    (h : run sessionStep start (List.replicate n ()) = .ok s) (fuel : Nat) :
    gdbLoop (n + fuel) start = gdbLoop fuel s := by
  induction n generalizing start with
  | zero =>
    obtain rfl := Except.ok.inj h
    rw [Nat.zero_add]
  | succ n ih =>
    rw [List.replicate_succ] at h
    obtain ⟨t, hstep, hrest⟩ := (run_cons_ok _).mp h
    have hpass : gdbPass start = .ok (.again t) := by
      rw [sessionStep] at hstep
      split at hstep
      · rename_i hpass
        rw [hpass, Except.ok.inj hstep]
      all_goals cases hstep
    rw [show n + 1 + fuel = n + fuel + 1 by omega, gdbLoop, hpass]
    exact ih hrest

/-- **Bad frames.** Whatever state `gdb_main` starts its loop in and whatever the host sends: nothing
comes of any frame with a wrong checksum, if and only if every such frame can be read and comes
while the length of the last good frame is 0. -/
theorem bad_frames_harmless_iff (start : Session) :
    (∀ s g payload d e rest, Comes start s → BadFrame s g payload d e rest → Harmless s g rest) ↔
      ∀ s g payload d e rest, Comes start s → BadFrame s g payload d e rest →
        Fits 0 payload ∧ s.len = some 0 := by
  constructor
  · intro h s g payload d e rest hs hbad
    exact (harmless_iff hbad).mp (h s g payload d e rest hs hbad)
  · intro h s g payload d e rest hs hbad
    exact (harmless_iff hbad).mpr (h s g payload d e rest hs hbad)

/-- A stub just entered, with nothing pending. -/
def freshGdb (input : List Byte) : Gdb where
  signum := SIGTRAP
  pendingChar := 0
  regs := fun _ => 0
  txBuf := []
  ackCount := 0
  nackCount := 0
  txpktCount := 0
  rxpktCount := 0
  ioPort := SERIAL_DEBUG_PORT
  noInt := true
  ier := 0
  input := input
  output := []
  mem := fun _ => 0
  pgdir := 0

/-- A question, its answer acknowledged, and a `c` whose checksum is wrong. -/
def staleSession : Session where
  g := freshGdb (text ['$', '?', '#', '3', 'f', '+', '$', 'c', '#', '0', '0'])
  pkt := fun _ => 0
  len := none

/-- Where the first pass leads: the answer has been sent and acknowledged, and the length is 1. -/
def answered : Session where
  g := { (emitPacket (gdbPutc { staleSession.g with rxpktCount := 1 } ACK) (text ['S', '0', '5'])) with
    ackCount := 1
    input := text ['$', 'c', '#', '0', '0'] }
  pkt := Function.update (Function.update (fun _ => 0) 0 0x3F) 1 0
  len := some 1

/-- The bad `c` is executed: the loop is left and the program goes on. -/
theorem bad_frame_continues :
    Comes staleSession answered ∧
      BadFrame answered (answered.g.readTo (text ['c', '#', '0', '0'])) (text ['c']) 0x30 0x30 [] ∧
      gdbPass answered = .ok (.leave (gdbContinue
        (nacked (answered.g.readTo (text ['c', '#', '0', '0'])) []))) ∧
      ¬ Harmless answered (answered.g.readTo (text ['c', '#', '0', '0'])) [] := by
  have hleave : gdbPass answered = .ok (.leave (gdbContinue
      (nacked (answered.g.readTo (text ['c', '#', '0', '0'])) []))) := rfl
  refine ⟨⟨1, rfl⟩, ⟨rfl, rfl, by decide, by decide, by decide, by decide⟩, hleave, ?_⟩
  rintro ⟨pkt, hagain⟩
  rw [hleave] at hagain
  cases hagain

end Ohwes

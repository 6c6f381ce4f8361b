import Ohwes.I386.GdbFrames

/-! # The packet codec of the stub

`gdb_send_packet` and `gdb_recv_packet` are each other's inverse, and so are `encode_hex` and
`decode_hex`; a register image written with `G` is read back with `g`. -/

namespace Ohwes
open Library
set_option autoImplicit false

/-! ## Hex digits -/

theorem hexDigit_pair (c : Byte) :
    hexDigit (toxdigit (c >>> (4 : Nat))) <<< (4 : Nat) + hexDigit (toxdigit (c &&& 0xF)) = c := by
  revert c
  decide +kernel

theorem isxdigit_toxdigit (c : Byte) : isxdigit (toxdigit c) = true := by
  revert c
  decide +kernel

theorem decodePairs_flatMap (data more : List Byte) :
    decodePairs data.length (data.flatMap hexPair ++ more) = data := by
  induction data with
  | nil =>
    cases more <;> rfl
  | cons c data ih =>
    have hpair : (c :: data).flatMap hexPair ++ more =
        toxdigit (c >>> (4 : Nat)) :: toxdigit (c &&& 0xF) :: (data.flatMap hexPair ++ more) := rfl
    rw [hpair, List.length_cons, decodePairs, ih, hexDigit_pair]

theorem length_flatMap_hexPair (data : List Byte) :
    (data.flatMap hexPair).length = data.length * 2 := by
  induction data with
  | nil => rfl
  | cons c data ih =>
    rw [List.flatMap_cons, List.length_append, ih, List.length_cons]
    show 2 + data.length * 2 = _
    omega

theorem encodeHex_eq {bufsiz : Nat} {data : List Byte} (h : data.length * 2 ≤ bufsiz) :
    encodeHex bufsiz data = some (data.flatMap hexPair) := if_neg (by omega)

theorem decodeHex_encode (data : List Byte) :
    decodeHex (data.flatMap hexPair) data.length = some data := by
  have h := decodePairs_flatMap data []
  rw [List.append_nil] at h
  rw [decodeHex, if_neg (by rw [length_flatMap_hexPair]; omega), h]

/-! ## The packet buffer -/

theorem store_apply (cs : List Byte) (pkt : Pkt) (n i : Nat) :
    pkt.store n cs i = if n ≤ i ∧ i < n + cs.length then cs.getD (i - n) 0 else pkt i := by
  induction cs generalizing pkt n with
  | nil =>
    rw [if_neg (by simp)]
    rfl
  | cons c cs ih =>
    rw [Pkt.store, ih, List.length_cons]
    by_cases hi : i = n
    · subst hi
      rw [if_neg (by omega), if_pos (by omega), Function.update_self, Nat.sub_self]
      rfl
    · by_cases hin : n ≤ i ∧ i < n + (cs.length + 1)
      · rw [if_pos (by omega), if_pos hin, show i - n = i - (n + 1) + 1 by omega, List.getD_cons_succ]
      · rw [if_neg (by omega), if_neg hin, Function.update_of_ne hi]

theorem chars_length (pkt : Pkt) (i n : Nat) : (pkt.chars i n).length = n := by
  simp [Pkt.chars]

/-- The buffer holds what was put into it, with a NUL behind it. -/
theorem chars_store (cs : List Byte) (pkt : Pkt) :
    Pkt.chars (Function.update (pkt.store 0 cs) cs.length 0) 0 cs.length = cs := by
  apply List.ext_getElem
  · exact chars_length _ _ _
  · intro i h₁ h₂
    simp only [Pkt.chars, List.getElem_map, List.getElem_range, Nat.zero_add]
    rw [Function.update_of_ne (by omega), store_apply, if_pos (by omega), Nat.sub_zero,
      List.getD_eq_getElem?_getD, List.getElem?_eq_getElem h₂]
    rfl

/-! ## Sending and receiving -/

/-- The frame of a packet. -/
def frame (buf : List Byte) : List Byte :=
  PACKET_START :: buf ++ PACKET_END :: hexPair (checksum buf)

theorem emitPacket_output (g : Gdb) (buf : List Byte) :
    (emitPacket g buf).output = g.output ++ frame buf := by
  simp [emitPacket, frame]

/-- What is sent while an acknowledgement is awaited are frames of the last packet. -/
theorem recvAck_frames {cs : List Byte} {g : Gdb} {x : Int × Gdb} (h : recvAck cs g = .ok x) :
    ∃ n, x.2.output = g.output ++ (List.replicate n (frame g.txBuf)).flatten := by
  induction cs generalizing g with
  | nil => cases h
  | cons c rest ih =>
    rw [recvAck] at h
    split_ifs at h
    · cases h
      exact ⟨0, by simp [gdbHandleAck, Gdb.readTo]⟩
    · cases h
      exact ⟨0, by simp [countNack, Gdb.readTo]⟩
    · obtain ⟨n, hn⟩ := ih h
      refine ⟨n + 1, ?_⟩
      rw [hn, emitPacket_output, List.replicate_succ, List.flatten_cons, List.append_assoc]
      rfl
    · cases h
      exact ⟨0, by simp [Gdb.readTo]⟩

/-- Every call sends the frame, once and again for each NACK. -/
theorem gdbSendPacket_frames {g : Gdb} {buf : List Byte} {x : Int × Gdb}
    (hlen : buf.length ≤ GDB_MAXLEN - 1) (h : gdbSendPacket g buf = .ok x) :
    ∃ n, x.2.output = g.output ++ (List.replicate (n + 1) (frame buf)).flatten := by
  rw [gdbSendPacket, if_neg (by omega)] at h
  obtain ⟨n, hn⟩ := recvAck_frames h
  refine ⟨n, ?_⟩
  rw [hn, emitPacket_output, List.replicate_succ, List.flatten_cons, List.append_assoc]
  rfl

/-- The stub after a packet that the host acknowledged at once. -/
def sent (g : Gdb) (buf rest : List Byte) : Gdb :=
  gdbHandleAck ((emitPacket g buf).readTo rest)

theorem gdbSendPacket_acked {g : Gdb} {buf rest : List Byte} (hlen : buf.length ≤ GDB_MAXLEN - 1)
    (hin : g.upcoming = ACK :: rest) : gdbSendPacket g buf = .ok (0, sent g buf rest) := by
  have hup : (emitPacket g buf).upcoming = ACK :: rest := hin
  rw [gdbSendPacket, if_neg (by omega), hup, recvAck, if_pos rfl]
  rfl

/-- A character that a packet can carry. -/
def Plain (c : Byte) : Prop := c ≠ PACKET_END ∧ c ≠ 0 ∧ c ≠ 0xFF

theorem filter_plain {buf : List Byte} (h : ∀ c ∈ buf, Plain c) : buf.filter (· != 0) = buf := by
  apply List.filter_eq_self.mpr
  intro c hc
  simpa using (h c hc).2.1

theorem fits_plain {buf : List Byte} (h : ∀ c ∈ buf, Plain c) (hlen : buf.length ≤ GDB_MAXLEN - 1) :
    Fits 0 buf := by
  refine ⟨fun c hc => ?_, ?_⟩
  · have hne : c ≠ 0xFF := (h c hc).2.2
    have hall : ∀ c : Byte, c ≠ 0xFF → isEof c = false := by decide +kernel
    exact hall c hne
  · rw [filter_plain h]
    omega

/-- The stub after a good frame: it is counted and acknowledged. -/
def acked (g : Gdb) (rest : List Byte) : Gdb :=
  gdbSendAck { g.readTo rest with rxpktCount := g.rxpktCount + 1 }

/-- A frame is received as the packet it was made of. -/
theorem gdbRecvPacket_frame {g : Gdb} {buf rest : List Byte} (pkt : Pkt) (len : Option Nat)
    (h : ∀ c ∈ buf, Plain c) (hlen : buf.length ≤ GDB_MAXLEN - 1)
    (hin : g.upcoming = frame buf ++ rest) :
    ∃ pkt', gdbRecvPacket GDB_MAXLEN g pkt len =
        .ok { status := 0, pkt := pkt', len := some buf.length, g := acked g rest } ∧
      pkt'.chars 0 buf.length = buf := by
  have hend : PACKET_END ∉ buf := fun hm => (h _ hm).1 rfl
  have hstart : awaitStart (g.upcoming.length + 1) g =
      .ok (.packet, g.readTo (buf ++ PACKET_END :: (hexPair (checksum buf) ++ rest))) := by
    have hlist : frame buf ++ rest =
        PACKET_START :: (buf ++ PACKET_END :: (hexPair (checksum buf) ++ rest)) := by
      simp [frame]
    rw [awaitStart, hin, hlist]
    rfl
  have hbehind : (g.readTo (buf ++ PACKET_END :: (hexPair (checksum buf) ++ rest))).upcoming =
      buf ++ PACKET_END :: toxdigit (checksum buf >>> (4 : Nat)) ::
        toxdigit (checksum buf &&& 0xF) :: rest := rfl
  have hbody := recvBody_fits pkt len hbehind hend (isxdigit_toxdigit _) (isxdigit_toxdigit _)
    (fits_plain h hlen)
  rw [filter_plain h] at hbody
  have hgood : ¬ [checksum buf] ≠ decodePairs 1
      [toxdigit (checksum buf >>> (4 : Nat)), toxdigit (checksum buf &&& 0xF)] := by
    rw [decodePairs, hexDigit_pair]
    exact fun hne => hne rfl
  refine ⟨_, ?_, chars_store buf pkt⟩
  unfold gdbRecvPacket
  rw [hstart]
  simp only [ok_bind]
  rw [hbody, verify, if_neg hgood]
  rfl

/-! ## Registers -/

theorem regsOf_regsBytes (regs : GdbRegs) : regsOf (regsBytes regs) = regs := by
  funext r
  cases r <;> exact leWord_leBytes _

def regsHex (regs : GdbRegs) : List Byte := (regsBytes regs).flatMap hexPair

theorem regsHex_length (regs : GdbRegs) : (regsHex regs).length = 128 :=
  length_flatMap_hexPair (regsBytes regs)

instance (c : Byte) : Decidable (Plain c) := inferInstanceAs (Decidable (_ ∧ _))

theorem plain_hex {data : List Byte} : ∀ c ∈ data.flatMap hexPair, Plain c := by
  have hdigit : ∀ c : Byte, Plain (toxdigit c) := by decide +kernel
  intro c hc
  obtain ⟨b, _, hb⟩ := List.mem_flatMap.mp hc
  rcases List.mem_pair.mp hb with rfl | rfl
  · exact hdigit _
  · exact hdigit _

theorem chars_succ (pkt : Pkt) (i n : Nat) : pkt.chars i (n + 1) = pkt i :: pkt.chars (i + 1) n := by
  unfold Pkt.chars
  rw [List.range_succ_eq_map, List.map_cons, List.map_map]
  congr 1
  apply List.map_congr_left
  intro k _
  show pkt (i + (k + 1)) = pkt (i + 1 + k)
  congr 1
  omega

/-- A pass that finds a good frame executes its command. -/
theorem gdbPass_frame {s : Session} {c : Byte} {body rest : List Byte}
    (h : ∀ b ∈ c :: body, Plain b) (hlen : (c :: body).length ≤ GDB_MAXLEN - 1)
    (hin : s.g.upcoming = frame (c :: body) ++ rest) :
    ∃ pkt, gdbPass s = dispatch (acked s.g rest) pkt (body.length + 1) ∧ pkt 0 = c ∧
      pkt.chars 1 body.length = body := by
  obtain ⟨pkt, hrecv, hpkt⟩ := gdbRecvPacket_frame s.pkt s.len h hlen hin
  rw [List.length_cons, chars_succ] at hpkt
  injection hpkt with h0 hbody
  refine ⟨pkt, ?_, h0, hbody⟩
  unfold gdbPass
  rw [hrecv]
  rfl

theorem dispatch_G {g : Gdb} {pkt : Pkt} {image : GdbRegs} {rest : List Byte} (h0 : pkt 0 = 0x47)
    (hbody : pkt.chars 1 128 = regsHex image) (hin : g.upcoming = ACK :: rest) :
    dispatch g pkt 129 = .ok (.again
      { g := sent { g with regs := image } [0x4F, 0x4B] rest, pkt, len := some 129 }) := by
  have hdecode : decodeHex (regsHex image) (4 * 16) = some (regsBytes image) :=
    decodeHex_encode (regsBytes image)
  have hwrite : gdbWriteRegs g pkt 128 =
      .ok (0, sent { g with regs := image } [0x4F, 0x4B] rest) := by
    unfold gdbWriteRegs
    rw [hbody, hdecode]
    simp only [regsOf_regsBytes]
    exact gdbSendPacket_acked (by decide) hin
  have hcommand : dispatch g pkt 129 = (endPass pkt 129) <$> gdbWriteRegs g pkt 128 := by
    unfold dispatch
    rw [h0]
    rfl
  rw [hcommand, hwrite]
  rfl

theorem dispatch_g {g : Gdb} {pkt : Pkt} {rest : List Byte} (h0 : pkt 0 = 0x67)
    (hin : g.upcoming = ACK :: rest) :
    dispatch g pkt 1 = .ok (.again { g := sent g (regsHex g.regs) rest, pkt, len := some 1 }) := by
  have hread : gdbReadRegs g = .ok (0, sent g (regsHex g.regs) rest) := by
    have hhex : encodeHex (4 * 16 * 2) (regsBytes g.regs) = some (regsHex g.regs) :=
      encodeHex_eq (Nat.le_refl _)
    unfold gdbReadRegs sendEncoded
    rw [hhex]
    exact gdbSendPacket_acked (by rw [regsHex_length]; decide) hin
  have hcommand : dispatch g pkt 1 = (endPass pkt 1) <$> gdbReadRegs g := by
    unfold dispatch
    rw [h0]
    rfl
  rw [hcommand, hread]
  rfl

/-- A register image written with `G`, and read with `g`: two passes of the loop. -/
theorem regs_round_trip {s : Session} (image : GdbRegs) (rest : List Byte)
    (hin : s.g.upcoming = frame (0x47 :: regsHex image) ++ ACK :: (frame [0x67] ++ ACK :: rest)) :
    ∃ t, run sessionStep s (List.replicate 2 ()) = .ok t ∧ t.g.regs = image ∧
      t.g.output = s.g.output ++ ACK :: frame [0x4F, 0x4B] ++ ACK :: frame (regsHex image) ∧
      t.g.upcoming = rest := by
  have hhex := regsHex_length image
  have hplain : ∀ b ∈ (0x47 : Byte) :: regsHex image, Plain b :=
    List.forall_mem_cons.mpr ⟨by decide, plain_hex⟩
  have hroom : ((0x47 : Byte) :: regsHex image).length ≤ GDB_MAXLEN - 1 := by
    rw [List.length_cons, hhex]
    decide
  obtain ⟨pkt₁, hpass₁, h0₁, hbody₁⟩ := gdbPass_frame hplain hroom hin
  rw [hhex] at hpass₁ hbody₁
  rw [dispatch_G h0₁ hbody₁ rfl] at hpass₁
  generalize hg₁ : sent { acked s.g (ACK :: (frame [0x67] ++ ACK :: rest)) with regs := image }
    [0x4F, 0x4B] (frame [0x67] ++ ACK :: rest) = g₁ at hpass₁
  have hregs₁ : g₁.regs = image := by
    rw [← hg₁]
    rfl
  have hin₁ : g₁.upcoming = frame [0x67] ++ ACK :: rest := by
    rw [← hg₁]
    rfl
  have hout₁ : g₁.output = s.g.output ++ ACK :: frame [0x4F, 0x4B] := by
    rw [← hg₁]
    simp [sent, gdbHandleAck, Gdb.readTo, emitPacket_output, acked, gdbSendAck, gdbPutc]
  obtain ⟨pkt₂, hpass₂, h0₂, _⟩ := gdbPass_frame (s := ⟨g₁, pkt₁, some 129⟩) (by decide) (by decide)
    hin₁
  have hpass₂ : gdbPass ⟨g₁, pkt₁, some 129⟩ = .ok (.again
      { g := sent (acked g₁ (ACK :: rest)) (regsHex g₁.regs) rest, pkt := pkt₂, len := some 1 }) :=
    hpass₂.trans (dispatch_g h0₂ rfl)
  refine ⟨{ g := sent (acked g₁ (ACK :: rest)) (regsHex g₁.regs) rest, pkt := pkt₂, len := some 1 },
    ?_, hregs₁, ?_, rfl⟩
  · show (sessionStep s ()).bind (fun t => (sessionStep t ()).bind .ok) = _
    unfold sessionStep
    simp only [hpass₁, Except.bind, hpass₂]
  · simp [sent, gdbHandleAck, Gdb.readTo, emitPacket_output, acked, gdbSendAck, gdbPutc, hout₁,
      hregs₁]

/-! ## A stop of the program -/

section Stop
variable {g : Gdb} {rest : List Byte}

/-- The packet in which `gdb_main` reports why the program has stopped. -/
def signalPacket (signum : BitVec 32) : List Byte := 0x53 :: hexPair (signum.truncate 8)

/-- At an exception of the program, the host is told of the signal. -/
theorem gdbEnter_exception (hint : comInt g = false)
    (hport : g.ioPort = 0 ∨ g.ioPort = SERIAL_DEBUG_PORT) (hin : g.upcoming = ACK :: rest) :
    gdbEnter g = .ok (some 0,
      { sent { g with ioPort := SERIAL_DEBUG_PORT } (signalPacket g.signum) rest with ier := 0 }) := by
  have hsend : gdbSendSignalPacket { g with ioPort := SERIAL_DEBUG_PORT } g.signum =
      .ok (0, sent { g with ioPort := SERIAL_DEBUG_PORT } (signalPacket g.signum) rest) := by
    rw [gdbSendSignalPacket, sendCodePacket, encodeHex_eq (by simp)]
    exact gdbSendPacket_acked (by simp [hexPair, GDB_MAXLEN]) hin
  have hset : (if g.ioPort == 0 then { g with ioPort := SERIAL_DEBUG_PORT } else g) =
      { g with ioPort := SERIAL_DEBUG_PORT } := by
    rcases hport with h0 | hdebug
    · rw [h0]
      rfl
    · rw [if_neg (by rw [hdebug]; decide), ← hdebug]
  unfold gdbEnter
  simp only [hint, Bool.false_and, Bool.not_false, Bool.true_or, hset, Bool.false_eq_true, if_false,
    if_true]
  rw [hsend]
  rfl

theorem dispatch_c {pkt : Pkt} (h0 : pkt 0 = 0x63) :
    dispatch g pkt 1 = .ok (.leave (gdbContinue g)) := by
  unfold dispatch
  rw [h0]
  rfl

/-- **Setting the registers.** The program has stopped at an exception, and the host writes the image
of its registers, reads it back and lets the program go on: it goes on with these registers, its trap flag
cleared, and the host has been sent the image that it wrote. -/
theorem gdbMain_sets_registers (pkt : Pkt) (regs : Iregs) (signum : BitVec 32) (image : GdbRegs)
    (hint : comInt g = false) (hport : g.ioPort = 0 ∨ g.ioPort = SERIAL_DEBUG_PORT)
    (hin : g.upcoming = ACK :: (frame (0x47 :: regsHex image) ++
      ACK :: (frame [0x67] ++ ACK :: (frame [0x63] ++ rest)))) :
    ∃ g', gdbMain pkt false g regs signum = .ok (g', gdbApply g') ∧
      g'.regs = Function.update image .eflags (image .eflags &&& ~~~EFLAGS_TF) ∧
      g'.output = g.output ++ frame (signalPacket signum) ++ ACK :: frame [0x4F, 0x4B] ++
        ACK :: frame (regsHex image) ++ [ACK] ∧
      g'.upcoming = rest := by
  have henter := gdbEnter_exception (g := gdbCapture g regs signum) hint hport hin
  generalize hstart : ({ sent { gdbCapture g regs signum with ioPort := SERIAL_DEBUG_PORT }
    (signalPacket (gdbCapture g regs signum).signum) (frame (0x47 :: regsHex image) ++
      ACK :: (frame [0x67] ++ ACK :: (frame [0x63] ++ rest))) with ier := 0 } : Gdb) = g₀ at henter
  have hup : g₀.upcoming = frame (0x47 :: regsHex image) ++
      ACK :: (frame [0x67] ++ ACK :: (frame [0x63] ++ rest)) := by
    rw [← hstart]
    rfl
  have hout : g₀.output = g.output ++ frame (signalPacket signum) := by
    rw [← hstart]
    exact emitPacket_output _ _
  obtain ⟨t, hrun, hregs, htout, htin⟩ :=
    regs_round_trip (s := ⟨g₀, pkt, none⟩) image (frame [0x63] ++ rest) hup
  obtain ⟨pkt', hpass, h0, -⟩ := gdbPass_frame (s := t) (by decide) (by decide) htin
  have hleave := hpass.trans (dispatch_c h0)
  refine ⟨gdbContinue (acked t.g rest), ?_, ?_, ?_, rfl⟩
  · obtain ⟨fuel, hfuel⟩ : ∃ fuel, g₀.upcoming.length + 1 = 2 + (fuel + 1) := by
      refine ⟨g₀.upcoming.length - 2, ?_⟩
      rw [hup]
      simp [frame]
      omega
    have hloop : gdbLoop (g₀.upcoming.length + 1) ⟨g₀, pkt, none⟩ =
        .ok (gdbContinue (acked t.g rest)) := by
      rw [hfuel, gdbLoop_run hrun]
      unfold gdbLoop
      rw [hleave]
      rfl
    rw [gdbMain, if_neg Bool.false_ne_true, henter, ok_bind]
    dsimp only
    rw [if_neg (by decide), hloop]
    rfl
  · rw [← hregs]
    rfl
  · show (acked t.g rest).output = _
    simp [acked, gdbSendAck, gdbPutc, Gdb.readTo, htout, hout]

end Stop

/-! ## The codec -/

/-- **Codec.** Whatever a call of `gdb_send_packet` sends for a packet of plain characters is its
frame, once and again for each NACK, and a stub that finds the frame on its line receives the
packet and acknowledges it; decoding undoes encoding; and `G` followed by `g` gives back the
image. -/
theorem gdb_codec_round_trip :
    (∀ (g : Gdb) (buf : List Byte), (∀ c ∈ buf, Plain c) → buf.length ≤ 511 →
      (∀ x, gdbSendPacket g buf = .ok x →
        ∃ n, x.2.output = g.output ++ (List.replicate (n + 1) (frame buf)).flatten) ∧
      (∀ rest, g.upcoming = ACK :: rest →
        ∃ t, gdbSendPacket g buf = .ok (0, t) ∧ t.output = g.output ++ frame buf) ∧
      ∀ (r : Gdb) (pkt : Pkt) (len : Option Nat) (rest : List Byte),
        r.upcoming = frame buf ++ rest →
        ∃ pkt' t, gdbRecvPacket 512 r pkt len =
            .ok { status := 0, pkt := pkt', len := some buf.length, g := t } ∧
          pkt'.chars 0 buf.length = buf ∧ t.output = r.output ++ [ACK] ∧ t.upcoming = rest) ∧
    (∀ (bufsiz : Nat) (data : List Byte),
      (2 * data.length ≤ bufsiz → (encodeHex bufsiz data).isSome) ∧
      ∀ hex, encodeHex bufsiz data = some hex → decodeHex hex data.length = some data) ∧
    ∀ (s : Session) (image : GdbRegs) (rest : List Byte),
      s.g.upcoming = frame (0x47 :: regsHex image) ++ ACK :: (frame [0x67] ++ ACK :: rest) →
      ∃ t, run sessionStep s (List.replicate 2 ()) = .ok t ∧ t.g.regs = image ∧
        t.g.output = s.g.output ++ ACK :: frame [0x4F, 0x4B] ++ ACK :: frame (regsHex image) ∧
        t.g.upcoming = rest := by
  refine ⟨fun g buf hplain hlen => ⟨fun x hx => gdbSendPacket_frames hlen hx, ?_, ?_⟩, ?_,
    fun s image rest hin => regs_round_trip image rest hin⟩
  · intro rest hin
    refine ⟨_, gdbSendPacket_acked hlen hin, ?_⟩
    simp [sent, gdbHandleAck, Gdb.readTo, emitPacket_output]
  · intro r pkt len rest hin
    obtain ⟨pkt', hrecv, hpkt⟩ := gdbRecvPacket_frame pkt len hplain hlen hin
    exact ⟨pkt', _, hrecv, hpkt, rfl, rfl⟩
  · intro bufsiz data
    refine ⟨fun hroom => ?_, fun hex hhex => ?_⟩
    · rw [encodeHex_eq (by omega)]
      rfl
    · unfold encodeHex at hhex
      split_ifs at hhex
      cases hhex
      exact decodeHex_encode data

/-- Each register holds its own number. -/
def countedRegs : GdbRegs := fun r => BitVec.ofNat 32 (GdbReg.all.idxOf r)

/-- A stub is asked for 32 bytes of memory, and another is given an image of the registers. -/
theorem gdb_codec_round_trip_read :
    (∃ pkt' t, gdbRecvPacket 512
        (freshGdb (frame (text ['m', '1', '0', '1', '0', '0', '0', ',', '2', '0']))) (fun _ => 0) none =
          .ok { status := 0, pkt := pkt', len := some 10, g := t } ∧
      pkt'.chars 0 10 = text ['m', '1', '0', '1', '0', '0', '0', ',', '2', '0'] ∧
      t.output = [ACK] ∧ t.upcoming = []) ∧
    ∃ t, run sessionStep ⟨freshGdb (frame (0x47 :: regsHex countedRegs) ++
        ACK :: (frame [0x67] ++ [ACK])), fun _ => 0, none⟩ (List.replicate 2 ()) = .ok t ∧
      t.g.regs = countedRegs ∧
      t.g.output = ACK :: frame [0x4F, 0x4B] ++ ACK :: frame (regsHex countedRegs) ∧
      t.g.upcoming = [] := by
  obtain ⟨hframes, -, hregs⟩ := gdb_codec_round_trip
  refine ⟨?_, hregs _ countedRegs [] rfl⟩
  exact (hframes (freshGdb []) (text ['m', '1', '0', '1', '0', '0', '0', ',', '2', '0']) (by decide)
    (by decide)).2.2 (freshGdb (frame _)) (fun _ => 0) none [] rfl

end Ohwes

import Ohwes.I386.GdbCodec
import Ohwes.I386.PagedMemory
import Ohwes.Libc.Strtol

/-! # Reading and writing memory over the line

`m` and `M` name an area by its address and the number of its bytes, in hexadecimal. Both ask
`virt_addr_valid` about the first byte of the area and about the one behind its last. -/

namespace Ohwes
open Library
set_option autoImplicit false

/-! ## Pages -/

theorem virtAddrValid_page (m : Memory) (pgdir : Ptr) {va va' : Ptr}
    (h : va.toNat / 4096 = va'.toNat / 4096) :
    virtAddrValid m pgdir va = virtAddrValid m pgdir va' := by
  have hptn : ptn va = ptn va' := by
    apply BitVec.eq_of_toNat_eq
    rw [toNat_ptn, toNat_ptn, h]
  have hpdn : pdn va = pdn va' := by
    apply BitVec.eq_of_toNat_eq
    rw [toNat_pdn, toNat_pdn]
    omega
  have hpde : pdeOffset pgdir va = pdeOffset pgdir va' := by rw [pdeOffset, hpdn, pdeOffset]
  have hpte : ∀ pde, pteOffset pde va = pteOffset pde va' := by
    intro pde
    rw [pteOffset, hptn, pteOffset]
  rw [virtAddrValid, virtAddrValid, walkPageTable, walkPageTable, hpde, hpte]

/-- All bytes of the area are mapped. -/
def AreaMapped (g : Gdb) (addr : Ptr) (count : Nat) : Prop :=
  ∀ i < count, virtAddrValid g.mem g.pgdir (addr + BitVec.ofNat 32 i) = true

instance (g : Gdb) (addr : Ptr) (count : Nat) : Decidable (AreaMapped g addr count) :=
  inferInstanceAs (Decidable (∀ i < count, _ = true))

/-- An area smaller than a page lies in the pages of its ends. -/
theorem mapped_of_ends {g : Gdb} {addr : Ptr} {count : Nat} (hcount : count ≤ GDB_MAXLEN / 2)
    (hfirst : virtAddrValid g.mem g.pgdir addr = true)
    (hlast : virtAddrValid g.mem g.pgdir (addr + BitVec.ofNat 32 count) = true) :
    AreaMapped g addr count := by
  intro i hi
  have hsmall : count ≤ 256 := hcount
  have hend : ∀ k ≤ 256, (addr + BitVec.ofNat 32 k).toNat = (addr.toNat + k) % 4294967296 := by
    intro k hk
    rw [BitVec.toNat_add, BitVec.toNat_ofNat]
    omega
  have hlt := addr.isLt
  by_cases hsame : addr.toNat % 4096 + i < 4096
  · rw [← hfirst]
    apply virtAddrValid_page
    rw [hend i (by omega)]
    omega
  · rw [← hlast]
    apply virtAddrValid_page
    rw [hend i (by omega), hend count hsmall]
    omega

/-! ## Numbers as the host writes them -/

/-- The digits of a number in lower case, without leading zeros. -/
def hexText (v : Nat) : List Byte :=
  if v = 0 then [0x30] else (numeral 16 v).map fun d => toxdigit (BitVec.ofNat 8 d)

/-- A character behind a number that is no part of it. -/
def EndsNumber (c : Byte) : Prop := isBaseDigit 16 c = false ∧ isPrefixX c = false

theorem endsNumber_nul : EndsNumber 0 := ⟨rfl, rfl⟩

theorem endsNumber_comma : EndsNumber 0x2C := ⟨rfl, rfl⟩

theorem toxdigit_digit {d : Nat} (hd : d < 16) :
    digitValue (toxdigit (BitVec.ofNat 8 d)) = d ∧
      isBaseDigit 16 (toxdigit (BitVec.ofNat 8 d)) = true ∧
      (toxdigit (BitVec.ofNat 8 d) = 0x30 → d = 0) := by
  have hall : ∀ d < 16, digitValue (toxdigit (BitVec.ofNat 8 d)) = d ∧
      isBaseDigit 16 (toxdigit (BitVec.ofNat 8 d)) = true ∧
      (toxdigit (BitVec.ofNat 8 d) = 0x30 → d = 0) := by decide +kernel
  exact hall d hd

theorem hexText_digits (v : Nat) : ∀ c ∈ hexText v, isBaseDigit 16 c = true := by
  intro c hc
  rw [hexText] at hc
  split_ifs at hc
  · rw [List.mem_singleton.mp hc]
    exact isBaseDigit_zero (by decide)
  · obtain ⟨d, hd, rfl⟩ := List.mem_map.mp hc
    exact (toxdigit_digit (numeral_lt (by decide) hd)).2.1

theorem digitsValue_hexText {v : Nat} (hv : v ≠ 0) : digitsValue 16 (hexText v) = v := by
  have hdigits : (hexText v).map digitValue = numeral 16 v := by
    rw [hexText, if_neg hv, List.map_map]
    refine (List.map_congr_left fun d hd => ?_).trans (List.map_id _)
    exact (toxdigit_digit (numeral_lt (by decide) hd)).1
  rw [digitsValue, hdigits, readDigits_numeral (by decide)]

theorem hexText_cons {v : Nat} (hv : v ≠ 0) : ∃ c ds, hexText v = c :: ds ∧ c ≠ 0x30 := by
  have hne : numeral 16 v ≠ [] := by
    intro hnil
    have hzero := readDigits_numeral (show 1 < 16 by decide) v
    rw [hnil, readDigits_nil] at hzero
    exact hv hzero.symm
  obtain ⟨d, ds, hds⟩ := List.exists_cons_of_ne_nil hne
  refine ⟨toxdigit (BitVec.ofNat 8 d), ds.map fun d => toxdigit (BitVec.ofNat 8 d), ?_, ?_⟩
  · rw [hexText, if_neg hv, hds, List.map_cons]
  · intro hzero
    have hlt : d < 16 := numeral_lt (n := v) (by decide) (hds ▸ List.mem_cons_self)
    have hhead := numeral_head?_ne 16 v
    rw [hds, List.head?_cons, (toxdigit_digit hlt).2.2 hzero] at hhead
    exact hhead rfl

theorem hexText_ne_nil (v : Nat) : hexText v ≠ [] := by
  by_cases hv : v = 0
  · rw [hv]
    exact List.cons_ne_nil _ _
  · obtain ⟨c, ds, hcons, -⟩ := hexText_cons hv
    rw [hcons]
    exact List.cons_ne_nil _ _

theorem digitRun_append {ds r : CString} (hds : ∀ c ∈ ds, isBaseDigit 16 c = true)
    (hr : isBaseDigit 16 (r.headD 0) = false) : digitRun 16 (ds ++ r) = ds := by
  rw [digitRun, List.takeWhile_append_of_pos hds]
  cases r with
  | nil => simp
  | cons c r => rw [List.takeWhile_cons_of_neg (by simpa using hr), List.append_nil]

theorem sourceRead_hexText (v : Nat) {r : CString} (hr : EndsNumber (r.headD 0)) :
    sourceRead 16 (hexText v ++ r) = ((hexText v).length, v) := by
  by_cases hv : v = 0
  · subst hv
    have hxs : r.takeWhile isPrefixX = [] := by
      cases r with
      | nil => rfl
      | cons c r => exact List.takeWhile_cons_of_neg (by rw [show isPrefixX c = false from hr.2]; decide)
    have hu : r.dropWhile isPrefixX = r := by
      have hall := List.takeWhile_append_dropWhile (p := isPrefixX) (l := r)
      rwa [hxs, List.nil_append] at hall
    have hrun : digitRun 8 r = [] := by
      have hle := digitRun_mono (show 8 ≤ 16 by decide) r
      have hnil : digitRun 16 ([] ++ r) = [] := digitRun_append (List.forall_mem_nil _) hr.1
      rw [List.nil_append] at hnil
      rwa [hnil, List.prefix_nil] at hle
    exact sourceRead_zero (Or.inr (Or.inr rfl)) hxs hu rfl hrun
  · obtain ⟨c, ds, hcons, hc⟩ := hexText_cons hv
    have hplain : ¬ (Prefixed 16 ∧ (hexText v ++ r).head? = some 0x30) := by
      rintro ⟨-, hhead⟩
      rw [hcons, List.cons_append, List.head?_cons] at hhead
      exact hc (Option.some.inj hhead)
    rw [sourceRead, if_neg hplain]
    simp only [if_neg (show (16 : Nat) ≠ 0 by decide)]
    rw [digitRun_append (hexText_digits v) hr.1, digitsValue_hexText hv]

/-- A number is read back, up to the character behind it. -/
theorem strtol_hexText (v : Nat) {r : CString} (hr : EndsNumber (r.headD 0)) :
    strtol (hexText v ++ r) 16 = (BitVec.ofNat 32 v, some (hexText v).length) := by
  obtain ⟨d, ds, hcons⟩ := List.exists_cons_of_ne_nil (hexText_ne_nil v)
  have hd : isalnum d := by
    apply isalnum_of_digit
    apply hexText_digits v
    rw [hcons]
    exact List.mem_cons_self
  obtain ⟨hsub, hneg⟩ : subject ([] ++ ([] ++ d :: (ds ++ r))) = d :: (ds ++ r) ∧
      negative ([] ++ ([] ++ d :: (ds ++ r))) = false :=
    subject_eq (List.forall_mem_nil _) .none hd
  rw [List.nil_append, List.nil_append, ← List.cons_append, ← hcons] at hsub hneg
  have hlead : (lead (hexText v ++ r)).length = 0 := by
    have hall := congrArg List.length (lead_append_subject (hexText v ++ r))
    rw [hsub, List.length_append] at hall
    omega
  have hne : (hexText v).length ≠ 0 := by
    rw [hcons, List.length_cons]
    omega
  rw [strtol, strtoull_eq (by decide), hsub, sourceRead_hexText v hr, readResult, hneg, hlead,
    if_neg hne, Nat.zero_add]
  refine Prod.ext ?_ rfl
  show (BitVec.ofNat 64 v).setWidth 32 = _
  apply BitVec.eq_of_toNat_eq
  rw [BitVec.toNat_setWidth, BitVec.toNat_ofNat, BitVec.toNat_ofNat]
  omega

/-! ## The host's answer -/

/-- The host asks for the packet `n` times more, and then sends something else. -/
structure Answer (g : Gdb) (n : Nat) (c : Byte) (rest : List Byte) : Prop where
  last : c ≠ NACK
  upcoming : g.upcoming = List.replicate n NACK ++ c :: rest

/-- What the stub reports of the last character: nothing of an ACK. -/
def answerStatus (c : Byte) : Int := if c = ACK then 0 else c.toInt

theorem answerStatus_eof (c : Byte) : answerStatus c = EOF ↔ isEof c = true := by
  by_cases hack : c = ACK
  · rw [hack]
    decide
  · rw [answerStatus, if_neg hack, isEof, beq_iff_eq]

/-- A packet has been sent `n + 1` times, and nothing else has happened to the memory. -/
structure Replied (g : Gdb) (buf : List Byte) (n : Nat) (t : Gdb) : Prop where
  mem : t.mem = g.mem
  output : t.output = g.output ++ (List.replicate (n + 1) (frame buf)).flatten

theorem recvAck_answer {c : Byte} (hc : c ≠ NACK) (rest : List Byte) (n : Nat) {g : Gdb}
    (hlen : g.txBuf.length ≤ GDB_MAXLEN - 1) :
    ∃ t, recvAck (List.replicate n NACK ++ c :: rest) g = .ok (answerStatus c, t) ∧
      t.mem = g.mem ∧
      t.output = g.output ++ (List.replicate n (frame g.txBuf)).flatten := by
  induction n generalizing g with
  | zero =>
    rw [List.replicate_zero, List.nil_append, recvAck, answerStatus]
    by_cases hack : c = ACK
    · rw [if_pos hack, if_pos hack]
      exact ⟨_, rfl, rfl, (List.append_nil _).symm⟩
    · rw [if_neg hack, if_neg hack, if_neg hc]
      exact ⟨_, rfl, rfl, (List.append_nil _).symm⟩
  | succ n ih =>
    have hroom : ¬ (g.readTo (List.replicate n NACK ++ c :: rest)).txBuf.length > GDB_MAXLEN - 1 :=
      Nat.not_lt.mpr hlen
    obtain ⟨t, hrun, hmem, hout⟩ := ih
      (g := emitPacket (countNack (g.readTo (List.replicate n NACK ++ c :: rest))) g.txBuf) hlen
    refine ⟨t, ?_, hmem, ?_⟩
    · rw [List.replicate_succ, List.cons_append, recvAck, if_neg (by decide), if_pos rfl,
        if_neg hroom]
      exact hrun
    · rw [hout, emitPacket_output, List.append_assoc, List.replicate_succ, List.flatten_cons]
      rfl

theorem gdbSendPacket_answer {g : Gdb} {buf : List Byte} {n : Nat} {c : Byte} {rest : List Byte}
    (hlen : buf.length ≤ GDB_MAXLEN - 1) (h : Answer g n c rest) :
    ∃ t, gdbSendPacket g buf = .ok (answerStatus c, t) ∧ Replied g buf n t := by
  obtain ⟨t, hrun, hmem, hout⟩ := recvAck_answer h.last rest n (g := emitPacket g buf) hlen
  refine ⟨t, ?_, hmem, ?_⟩
  · have hup : (emitPacket g buf).upcoming = List.replicate n NACK ++ c :: rest := h.upcoming
    rw [gdbSendPacket, if_neg (by omega), hup]
    exact hrun
  · rw [hout, emitPacket_output, List.append_assoc, List.replicate_succ, List.flatten_cons]
    rfl

/-- The packet of an error. -/
def errorText (code : BitVec 32) : List Byte := 0x45 :: hexPair (code.truncate 8)

theorem gdbSendErrorPacket_eq (g : Gdb) (code : BitVec 32) :
    gdbSendErrorPacket g code = gdbSendPacket g (errorText code) := by
  rw [gdbSendErrorPacket, sendCodePacket, encodeHex_eq (Nat.le_of_ble_eq_true rfl)]
  rfl

/-! ## Reading -/

/-- A request to read, behind the letter. -/
def readRequest (addr : Ptr) (count : Nat) : List Byte :=
  hexText addr.toNat ++ 0x2C :: hexText count

/-- What the request is to be answered with. -/
def readReply (g : Gdb) (addr : Ptr) (count : Nat) : List Byte :=
  if AreaMapped g addr count then (readMem g.mem addr count).flatMap hexPair else errorText GDB_EFAULT

/-- The request is answered as it should be, and the session goes on. -/
def ReadsMem (g : Gdb) (pkt : Pkt) (pktlen : Nat) (addr : Ptr) (count : Nat) : Prop :=
  ∃ status t n, gdbReadMem g pkt pktlen = .ok (status, t) ∧ status ≠ EOF ∧
    Replied g (readReply g addr count) n t

/-- What is left of `gdb_read_mem` once the request has been read. -/
theorem gdbReadMem_request {g : Gdb} {pkt : Pkt} {pktlen : Nat} {addr : Ptr} {count : Nat}
    (hcount : count ≤ GDB_MAXLEN / 2) (hpkt : pkt.chars 1 pktlen = readRequest addr count) :
    gdbReadMem g pkt pktlen =
      if virtAddrValid g.mem g.pgdir addr = true ∧
          virtAddrValid g.mem g.pgdir (addr + BitVec.ofNat 32 count) = true then
        gdbSendPacket g ((readMem g.mem addr count).flatMap hexPair)
      else gdbSendPacket g (errorText GDB_EFAULT) := by
  have hsmall : count ≤ 256 := hcount
  have hplain : ∀ c ∈ readRequest addr count, (c != 0) = true := by
    have hdigit : ∀ c : Byte, isBaseDigit 16 c = true → (c != 0) = true := by decide +kernel
    intro c hc
    rcases List.mem_append.mp hc with hc | hc
    · exact hdigit c (hexText_digits _ c hc)
    · rcases List.mem_cons.mp hc with rfl | hc
      · rfl
      · exact hdigit c (hexText_digits _ c hc)
  have hbody : cString (pkt.chars 1 pktlen) = readRequest addr count := by
    rw [hpkt, cString, List.takeWhile_eq_self_iff.mpr hplain]
  have haddr : strtol (readRequest addr count) 16 = (addr, some (hexText addr.toNat).length) := by
    rw [readRequest, strtol_hexText _ (r := 0x2C :: hexText count) endsNumber_comma, BitVec.ofNat_toNat,
      BitVec.setWidth_eq]
  have hrest : (readRequest addr count).drop ((hexText addr.toNat).length + 1) = hexText count := by
    rw [readRequest, ← List.drop_drop, List.drop_left]
    rfl
  have hnum : strtol (hexText count) 16 = (BitVec.ofNat 32 count, some (hexText count).length) := by
    have hread := strtol_hexText count (r := []) endsNumber_nul
    rwa [List.append_nil] at hread
  have hcomma : ¬ (readRequest addr count).length ≤ (hexText addr.toNat).length := by
    rw [readRequest, List.length_append, List.length_cons]
    omega
  have htoNat : (BitVec.ofNat 32 count).toNat = count := by
    rw [BitVec.toNat_ofNat]
    omega
  have hdata : ¬ count > GDB_MAXLEN / 2 := Nat.not_lt.mpr hcount
  have hencode : (readMem g.mem addr count).length * 2 ≤ GDB_MAXLEN := by
    rw [readMem, List.length_map, List.length_range]
    show count * 2 ≤ 512
    omega
  unfold gdbReadMem
  simp only [hbody, haddr, Option.getD_some, if_neg hcomma, hrest, hnum, htoNat, if_neg hdata,
    gdbSendErrorPacket_eq, sendEncoded, encodeHex_eq hencode]
  by_cases hfirst : virtAddrValid g.mem g.pgdir addr = true
  · by_cases hlast : virtAddrValid g.mem g.pgdir (addr + BitVec.ofNat 32 count) = true
    · simp [hfirst, hlast]
    · simp [hfirst, hlast]
  · simp [hfirst]

theorem length_readMem_hex (g : Gdb) (addr : Ptr) (count : Nat) :
    ((readMem g.mem addr count).flatMap hexPair).length = count * 2 := by
  rw [length_flatMap_hexPair, readMem, List.length_map, List.length_range]

/-- What has been sent tells an error from the bytes: its letter is no lower-case digit. -/
theorem Replied.not_data {g t : Gdb} {code : BitVec 32} {data : List Byte} {n m : Nat}
    (hne : data ≠ []) (herror : Replied g (errorText code) n t) :
    ¬ Replied g (data.flatMap hexPair) m t := by
  intro hdata
  obtain ⟨b, data, rfl⟩ := List.exists_cons_of_ne_nil hne
  have hdigit : ∀ b : Byte, toxdigit (b >>> (4 : Nat)) ≠ 0x45 := by decide +kernel
  have hsame := List.append_cancel_left (herror.output.symm.trans hdata.output)
  rw [List.replicate_succ, List.replicate_succ, List.flatten_cons, List.flatten_cons] at hsame
  have hsecond := congrArg (fun cs => cs.getD 1 0) hsame
  exact hdigit b hsecond.symm

/-- Where a packet that fits is the answer to a request. -/
theorem readsMem_sent {g : Gdb} {pkt : Pkt} {pktlen n : Nat} {buf : List Byte} {c : Byte}
    {rest : List Byte} (addr : Ptr) (count : Nat) (h : Answer g n c rest)
    (hrun : gdbReadMem g pkt pktlen = gdbSendPacket g buf) (hlen : buf.length ≤ GDB_MAXLEN - 1) :
    ∃ t, Replied g buf n t ∧ (ReadsMem g pkt pktlen addr count ↔
      isEof c = false ∧ ∃ m, Replied g (readReply g addr count) m t) := by
  obtain ⟨t, hsent, hreplied⟩ := gdbSendPacket_answer hlen h
  refine ⟨t, hreplied, ?_⟩
  rw [ReadsMem, hrun, hsent]
  constructor
  · rintro ⟨status, t', m, heq, hstatus, hm⟩
    injection heq with heq
    injection heq with hst ht
    subst hst ht
    rw [ne_eq, answerStatus_eof, Bool.not_eq_true] at hstatus
    exact ⟨hstatus, m, hm⟩
  · rintro ⟨heof, m, hm⟩
    refine ⟨answerStatus c, t, m, rfl, ?_, hm⟩
    rw [ne_eq, answerStatus_eof, heof]
    decide

/-- **Memory read.** A request is answered with the bytes of the area, or with the error where one
of them is not mapped, and the session goes on, exactly when the last character of the host's answer
is no `EOF` and either some byte is not mapped, or there are fewer than 256 and the one behind the
area is mapped too. -/
theorem reads_mem_iff (g : Gdb) (addr : Ptr) (count : Nat) (hpos : 0 < count) (hcount : count ≤ 256)
    (pkt : Pkt) (pktlen : Nat) (hpkt : pkt.chars 1 pktlen = readRequest addr count)
    (n : Nat) (c : Byte) (rest : List Byte) (h : Answer g n c rest) :
    ReadsMem g pkt pktlen addr count ↔
      isEof c = false ∧ (¬ AreaMapped g addr count ∨ count < 256 ∧
        virtAddrValid g.mem g.pgdir (addr + BitVec.ofNat 32 count) = true) := by
  have hreq := gdbReadMem_request (g := g) hcount hpkt
  by_cases hends : virtAddrValid g.mem g.pgdir addr = true ∧
      virtAddrValid g.mem g.pgdir (addr + BitVec.ofNat 32 count) = true
  · rw [if_pos hends] at hreq
    have hmapped := mapped_of_ends hcount hends.1 hends.2
    have hreply : readReply g addr count = (readMem g.mem addr count).flatMap hexPair :=
      if_pos hmapped
    by_cases hlt : count < 256
    · obtain ⟨t, hsent, hiff⟩ := readsMem_sent addr count h hreq (by
        rw [length_readMem_hex]
        show count * 2 ≤ 511
        omega)
      rw [hiff, hreply]
      exact and_congr_right fun _ =>
        iff_of_true ⟨n, hsent⟩ (Or.inr ⟨hlt, hends.2⟩)
    · -- the digits of 256 bytes do not fit into a packet
      have hroom : ((readMem g.mem addr count).flatMap hexPair).length > GDB_MAXLEN - 1 := by
        rw [length_readMem_hex]
        show 511 < count * 2
        omega
      rw [gdbSendPacket, if_pos hroom] at hreq
      apply iff_of_false
      · rintro ⟨status, t, m, hrun, hstatus, -⟩
        rw [hreq] at hrun
        injection hrun with hrun
        injection hrun with heof
        exact hstatus heof.symm
      · rintro ⟨-, hnot | hlast⟩
        · exact hnot hmapped
        · exact hlt hlast.1
  · rw [if_neg hends] at hreq
    obtain ⟨t, hsent, hiff⟩ := readsMem_sent addr count h hreq
      (Nat.le_of_ble_eq_true rfl)
    rw [hiff, readReply]
    refine and_congr_right fun _ => ?_
    by_cases hmapped : AreaMapped g addr count
    · rw [if_pos hmapped]
      have hne : readMem g.mem addr count ≠ [] := by
        rw [readMem, ne_eq, List.map_eq_nil_iff, List.range_eq_nil]
        omega
      apply iff_of_false
      · rintro ⟨m, hm⟩
        exact hsent.not_data hne hm
      · rintro (hnot | hlast)
        · exact hnot hmapped
        · have hfirst := hmapped 0 hpos
          rw [BitVec.add_zero] at hfirst
          exact hends ⟨hfirst, hlast.2⟩
    · rw [if_neg hmapped]
      exact iff_of_true ⟨n, hsent⟩ (Or.inl hmapped)

/-- The packet buffer with a command. -/
def commandPkt (letter : Byte) (body : List Byte) : Pkt := fun i => (letter :: body).getD i 0

theorem commandPkt_chars (letter : Byte) (body : List Byte) :
    (commandPkt letter body).chars 1 body.length = body := by
  apply List.ext_getElem
  · exact chars_length _ _ _
  · intro i h₁ h₂
    simp only [Pkt.chars, List.getElem_map, List.getElem_range, commandPkt]
    rw [Nat.add_comm, List.getD_cons_succ, List.getD_eq_getElem?_getD, List.getElem?_eq_getElem h₂]
    rfl

/-- Every page is mapped but the one at `0x2000`, whose entry is at `0xFFFFF008`. -/
def holed (input : List Byte) : Gdb :=
  { freshGdb input with mem := fun a => if a = 0xFFFFF008 then 0xFE else 0xFF }

theorem reads_mem_first_page :
    ReadsMem (holed [NACK, ACK]) (commandPkt 0x6D (readRequest 0x1FFB 4))
      (readRequest 0x1FFB 4).length 0x1FFB 4 :=
  (reads_mem_iff (holed [NACK, ACK]) 0x1FFB 4 (by decide) (by decide) _ _ (commandPkt_chars _ _)
    1 ACK [] ⟨by decide, rfl⟩).mpr ⟨by decide, Or.inr ⟨by decide, by decide⟩⟩

/-- The last four bytes of a page are refused where the next page is not mapped. -/
theorem page_end_unreadable :
    AreaMapped (holed [ACK]) 0x1FFC 4 ∧
      ¬ ReadsMem (holed [ACK]) (commandPkt 0x6D (readRequest 0x1FFC 4))
        (readRequest 0x1FFC 4).length 0x1FFC 4 := by
  have hmapped : AreaMapped (holed [ACK]) 0x1FFC 4 := by decide
  have hreq := gdbReadMem_request (g := holed [ACK]) (show 4 ≤ GDB_MAXLEN / 2 by decide)
    (commandPkt_chars 0x6D (readRequest 0x1FFC 4))
  rw [if_neg (by decide)] at hreq
  have hanswer : Answer (holed [ACK]) 0 ACK [] := ⟨by decide, rfl⟩
  obtain ⟨t, hsent, hiff⟩ := readsMem_sent 0x1FFC 4 hanswer hreq
    (Nat.le_of_ble_eq_true rfl)
  refine ⟨hmapped, fun h => ?_⟩
  obtain ⟨-, m, hm⟩ := hiff.mp h
  rw [readReply, if_pos hmapped] at hm
  exact hsent.not_data (by decide) hm

/-! ## Writing -/

/-- The area holds the data, and the bytes outside of it are what they were. -/
def Overwritten (m : Memory) (addr : Ptr) (data : List Byte) (m' : Memory) : Prop :=
  ∀ a, m' a = if (a - addr).toNat < data.length then data.getD (a - addr).toNat 0 else m a

theorem writeMem_overwritten (m : Memory) (addr : Ptr) {data : List Byte}
    (hlen : data.length ≤ GDB_MAXLEN / 2) : Overwritten m addr data (writeMem m addr data) := by
  have hpart : ∀ k ≤ 256, ∀ a,
      (List.range k).foldl
          (fun m i => Function.update m (addr + BitVec.ofNat 32 i) (data.getD i 0)) m a =
        if (a - addr).toNat < k then data.getD (a - addr).toNat 0 else m a := by
    intro k
    induction k with
    | zero =>
      intro _ a
      rw [if_neg (Nat.not_lt_zero _)]
      rfl
    | succ k ih =>
      intro hk a
      rw [List.range_succ, List.foldl_append, List.foldl_cons, List.foldl_nil]
      by_cases ha : a = addr + BitVec.ofNat 32 k
      · have hoff : (a - addr).toNat = k := by
          rw [ha, BitVec.add_comm, BitVec.add_sub_cancel, BitVec.toNat_ofNat]
          omega
        rw [ha, Function.update_self, ← ha, hoff, if_pos (Nat.lt_succ_self k)]
      · have hoff : (a - addr).toNat ≠ k := by
          intro hk'
          apply ha
          rw [← hk', BitVec.ofNat_toNat, BitVec.setWidth_eq, BitVec.add_comm, BitVec.sub_add_cancel]
        rw [Function.update_of_ne ha, ih (by omega)]
        by_cases hin : (a - addr).toNat < k
        · rw [if_pos hin, if_pos (by omega)]
        · rw [if_neg hin, if_neg (by omega)]
  exact hpart data.length hlen

theorem length_decodePairs {len : Nat} {buf : List Byte} (h : len * 2 ≤ buf.length) :
    (decodePairs len buf).length = len := by
  induction len, buf using decodePairs.induct with
  | case1 len c d buf ih =>
    rw [decodePairs, List.length_cons, ih]
    rw [List.length_cons, List.length_cons] at h
    omega
  | case2 len buf hno =>
    cases len with
    | zero =>
      rw [decodePairs.eq_2 _ _ hno]
      rfl
    | succ len =>
      rcases buf with _ | ⟨c, _ | ⟨d, buf⟩⟩
      · simp at h
      · simp at h
        omega
      · exact absurd rfl (hno len c d buf rfl)

theorem decodeHex_some {buf data : List Byte} {len : Nat} (h : decodeHex buf len = some data) :
    data = decodePairs len buf ∧ data.length = len := by
  unfold decodeHex at h
  split_ifs at h with hroom
  cases h
  exact ⟨rfl, length_decodePairs (by omega)⟩

/-- The number of the area's address, a comma, the number of its bytes, a colon, and their digits. -/
structure WriteRequest (pkt : Pkt) (pktlen : Nat) (addr : Ptr) (data : List Byte) (p q : Nat) :
    Prop where
  addr : strtol (cString (pkt.chars 1 pktlen)) 16 = (addr, some p)
  comma : (cString (pkt.chars 1 pktlen)).getD p 0 = 0x2C
  count : strtol ((cString (pkt.chars 1 pktlen)).drop (p + 1)) 16 =
    (BitVec.ofNat 32 data.length, some q)
  colon : (cString (pkt.chars 1 pktlen)).getD (p + 1 + q) 0 = 0x3A
  data : data = decodePairs data.length
    (pkt.chars (1 + (p + 1 + q + 1)) (pktlen - (p + 1 + q + 1)))

/-- The call does nothing but send a packet, and whatever the host answers, memory stays as it was
when the packet was sent. -/
def Answers (g : Gdb) (buf : List Byte) (r : Call (Int × Gdb)) : Prop :=
  r = gdbSendPacket g buf ∧ ∀ status t, r = .ok (status, t) → ∃ n, Replied g buf n t

theorem recvAck_mem {cs : List Byte} {g : Gdb} {x : Int × Gdb} (h : recvAck cs g = .ok x) :
    x.2.mem = g.mem := by
  induction cs generalizing g with
  | nil => cases h
  | cons c rest ih =>
    rw [recvAck] at h
    split_ifs at h
    · cases h
      rfl
    · cases h
      rfl
    · rw [ih h]
      rfl
    · cases h
      rfl

theorem answers_gdbSendPacket (g : Gdb) {buf : List Byte} (hlen : buf.length ≤ GDB_MAXLEN - 1) :
    Answers g buf (gdbSendPacket g buf) := by
  refine ⟨rfl, fun status t h => ?_⟩
  obtain ⟨n, hout⟩ := gdbSendPacket_frames hlen h
  rw [gdbSendPacket, if_neg (by omega)] at h
  exact ⟨n, recvAck_mem h, hout⟩

def okText : List Byte := [0x4F, 0x4B]

theorem strtol_end (str : CString) : ∃ p, strtol str 16 = ((strtol str 16).1, some p) := by
  rw [strtol, strtoull_eq (by decide)]
  exact ⟨_, rfl⟩

/-- The call ends before anything is sent, or answers that the area is not mapped: in both cases no
byte of memory has changed. -/
def Refused (g : Gdb) (r : Call (Int × Gdb)) : Prop :=
  r = .ok (EOF, g) ∨ Answers g (errorText GDB_EFAULT) r

/-- The data of the request are in memory, all of it mapped, and the answer is OK. -/
def Written (g : Gdb) (pkt : Pkt) (pktlen : Nat) (r : Call (Int × Gdb)) : Prop :=
  ∃ addr data p q mem, WriteRequest pkt pktlen addr data p q ∧ AreaMapped g addr data.length ∧
    Overwritten g.mem addr data mem ∧ Answers { g with mem } okText r

/-- **Memory write.** Whatever the packet holds and whatever the host answers, a write is refused
with memory as it was, or all of it is done. -/
theorem write_mem_all_or_nothing (g : Gdb) (pkt : Pkt) (pktlen : Nat) :
    Refused g (gdbWriteMem g pkt pktlen) ∨ Written g pkt pktlen (gdbWriteMem g pkt pktlen) := by
  obtain ⟨p, hp⟩ := strtol_end (cString (pkt.chars 1 pktlen))
  obtain ⟨q, hq⟩ := strtol_end ((cString (pkt.chars 1 pktlen)).drop (p + 1))
  generalize (strtol (cString (pkt.chars 1 pktlen)) 16).1 = addr at hp
  generalize (strtol ((cString (pkt.chars 1 pktlen)).drop (p + 1)) 16).1 = count at hq
  unfold gdbWriteMem
  simp only [hp, hq, Option.getD_some, gdbSendErrorPacket_eq]
  by_cases hcomma : (cString (pkt.chars 1 pktlen)).getD p 0 = 0x2C
  swap
  · rw [if_pos hcomma]
    exact Or.inl (Or.inl rfl)
  rw [if_neg (not_not_intro hcomma)]
  by_cases hcolon : (cString (pkt.chars 1 pktlen)).getD (p + 1 + q) 0 = 0x3A
  swap
  · rw [if_pos hcolon]
    exact Or.inl (Or.inl rfl)
  rw [if_neg (not_not_intro hcolon)]
  by_cases hcount : count.toNat > GDB_MAXLEN / 2
  · rw [if_pos hcount]
    exact Or.inl (Or.inl rfl)
  rw [if_neg hcount]
  cases hdecode : decodeHex (pkt.chars (1 + (p + 1 + q + 1)) (pktlen - (p + 1 + q + 1))) count.toNat with
  | none => exact Or.inl (Or.inl rfl)
  | some data =>
    obtain ⟨hdata, hlen⟩ := decodeHex_some hdecode
    have hword : BitVec.ofNat 32 data.length = count := by
      rw [hlen, BitVec.ofNat_toNat, BitVec.setWidth_eq]
    by_cases hends : virtAddrValid g.mem g.pgdir addr = true ∧
        virtAddrValid g.mem g.pgdir (addr + count) = true
    · right
      simp only [hends.1, hends.2, Bool.not_true, Bool.or_self, Bool.false_eq_true, if_false]
      have hroom : data.length ≤ GDB_MAXLEN / 2 := by omega
      refine ⟨addr, data, p, q, writeMem g.mem addr data, ⟨hp, hcomma, ?_, hcolon, ?_⟩, ?_,
        writeMem_overwritten g.mem addr hroom, answers_gdbSendPacket _ (by decide)⟩
      · rw [hword, hq]
      · rw [hlen, ← hdata]
      · exact mapped_of_ends hroom hends.1 (hword ▸ hends.2)
    · left
      right
      have hbad : (!virtAddrValid g.mem g.pgdir addr ||
          !virtAddrValid g.mem g.pgdir (addr + count)) = true := by
        rw [← Bool.not_and, Bool.not_eq_true', ← Bool.not_eq_true, Bool.and_eq_true]
        exact hends
      simp only [hbad, if_true]
      exact answers_gdbSendPacket g (Nat.le_of_ble_eq_true rfl)

end Ohwes

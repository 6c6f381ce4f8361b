import Ohwes.Char.Keyboard

/-! # `kernel/char/ps2kb.c`: the interrupt flag at the port of the keyboard

Here the controller answers every access to its ports as it likes. A poll that comes to its end in
`kb_rdport` returns without the flags that were saved; `kb_sendcmd` restores its own behind it.
`kbIdent_answers` leads back to the functions of `Keyboard.lean`, for which a poll finds a byte or
does not. -/

namespace Ohwes
set_option autoImplicit false

def PS2_STATUS_OPF : Byte := 1
def PS2_STATUS_IPF : Byte := 2
def PS2_IO_TIMEOUT : Nat := 25000
def PS2KB_CMD_SETLED : Byte := 0xED
def PS2KB_CMD_IDENT : Byte := 0xF2

/-- What the ports of the controller do. -/
structure KbController (σ : Type) where
  status : σ → Byte × σ
  read : σ → Byte × σ
  write : σ → Byte → σ

structure KbPort (σ : Type) where
  dev : σ
  /-- The interrupt flag of the processor. -/
  iflag : Bool
  kb : Kb

namespace KbPort
variable {σ : Type} (c : KbController σ)

/-- The loop that polls the status, with `n` polls left: the value of `count` behind it. -/
def pollLoop (wanted : Byte → Bool) : Nat → Nat → σ → Nat × σ
  | 0, count, s => (count + 1, s)
  | n + 1, count, s =>
    let (status, s) := c.status s
    if wanted status then (count + 1, s) else pollLoop wanted n (count + 1) s

def outputFull (status : Byte) : Bool := status &&& PS2_STATUS_OPF != 0

def inputEmpty (status : Byte) : Bool := status &&& PS2_STATUS_IPF == 0

/-- A byte that has come in on time, and the controller after it. -/
def readByte (s : σ) : Option Byte × σ :=
  let (count, s) := pollLoop c outputFull PS2_IO_TIMEOUT 0 s
  if count ≥ PS2_IO_TIMEOUT then (none, s)
  else
    let (data, s) := c.read s
    (some data, s)

def countError (kb : Kb) (data : Byte) : Kb :=
  if data = 0xFF then { kb with errorCount := kb.errorCount + 1 } else kb

/-- Where the poll times out, the flags are not restored. -/
def kbRdport (p : KbPort σ) : Byte × KbPort σ :=
  let flags := p.iflag
  let p := { p with iflag := false }
  match readByte c p.dev with
  | (none, dev) => (0, { p with dev := dev })
  | (some data, dev) =>
    let p := { p with dev := dev, kb := countError p.kb data }
    (data, { p with iflag := flags })

def kbWrport (data : Byte) (p : KbPort σ) : Call (KbPort σ) :=
  let flags := p.iflag
  let p := { p with iflag := false }
  let (count, dev) := pollLoop c inputEmpty PS2_IO_TIMEOUT 0 p.dev
  if count ≥ PS2_IO_TIMEOUT then .error (.panic "ps2kb: timed out waiting for write")
  else
    let p := { p with dev := c.write dev data }
    .ok { p with iflag := flags }

def kbSendcmdLoop (cmd : Byte) : Nat → KbPort σ → Call (Bool × KbPort σ)
  | 0, p => .ok (false, p)
  | retries + 1, p => do
    let p ← kbWrport c cmd p
    let (resp, p) := kbRdport c p
    if resp = 0xFA then .ok (true, p)
    else if resp ≠ 0 then kbSendcmdLoop cmd retries p
    else .ok (false, p)

def kbSendcmd (cmd : Byte) (p : KbPort σ) : Call (Bool × KbPort σ) := do
  let flags := p.iflag
  let p := { p with iflag := false }
  let (ack, p) ← kbSendcmdLoop c cmd RETRY_COUNT p
  .ok (ack, { p with iflag := flags })

def setIdent (ident : Byte × Byte) (p : KbPort σ) : KbPort σ :=
  { p with kb := { p.kb with ident := ident } }

/-- The two bytes that follow the acknowledgement. -/
def readIdent (p : KbPort σ) : KbPort σ :=
  let (b, p) := kbRdport c p
  let p := p.setIdent (b, p.kb.ident.2)
  let (d, p) := kbRdport c p
  p.setIdent (p.kb.ident.1, d)

def kbIdent (p : KbPort σ) : Call (Bool × KbPort σ) := do
  let (ack, p) ← kbSendcmd c PS2KB_CMD_IDENT p
  if !ack then .ok (false, p) else .ok (true, readIdent c p)

def setLeds (leds : Byte) (p : KbPort σ) : KbPort σ :=
  { p with kb := { p.kb with leds := leds.zeroExtend 32 } }

def kbSetleds (leds : Byte) (p : KbPort σ) : Call (Bool × KbPort σ) := do
  let (ack, p) ← kbSendcmd c PS2KB_CMD_SETLED p
  if !ack then .ok (false, p)
  else do
    let p ← kbWrport c leds (p.setLeds leds)
    .ok (true, (kbRdport c p).2)

/-! ## The interrupt flag -/

/-- One of the next `n` status bytes shows a byte to read. -/
def readyIn : Nat → σ → Bool
  | 0, _ => false
  | n + 1, s => outputFull (c.status s).1 || readyIn n (c.status s).2

/-- The last poll comes too late, whatever it finds. -/
theorem pollLoop_lt_iff (n count : Nat) (s : σ) :
    (pollLoop c outputFull n count s).1 < count + n ↔ readyIn c (n - 1) s = true := by
  induction n generalizing count s with
  | zero =>
    refine iff_of_false ?_ nofun
    rw [pollLoop]
    omega
  | succ n ih =>
    rw [pollLoop, Nat.add_sub_cancel]
    cases n with
    | zero =>
      refine iff_of_false ?_ nofun
      dsimp only
      split
      · exact Nat.lt_irrefl _
      · rw [pollLoop]
        omega
    | succ n =>
      rw [readyIn, Bool.or_eq_true]
      dsimp only
      by_cases hfull : outputFull (c.status s).1 = true
      · rw [if_pos hfull]
        exact iff_of_true (by omega) (Or.inl hfull)
      · have hrest := ih (count + 1) (c.status s).2
        rw [show count + 1 + (n + 1) = count + (n + 1 + 1) by omega, Nat.add_sub_cancel] at hrest
        rw [if_neg hfull, hrest, or_iff_right hfull]

/-- Nothing is lost by a time-out, or there is none. -/
def Prompt (p : KbPort σ) : Prop := p.iflag = false ∨ readyIn c (PS2_IO_TIMEOUT - 1) p.dev = true

theorem readByte_isSome_iff (s : σ) :
    (readByte c s).1.isSome = true ↔ readyIn c (PS2_IO_TIMEOUT - 1) s = true := by
  rw [← pollLoop_lt_iff c PS2_IO_TIMEOUT 0 s, Nat.zero_add, readByte]
  generalize pollLoop c outputFull PS2_IO_TIMEOUT 0 s = polled
  dsimp only
  by_cases h : polled.1 ≥ PS2_IO_TIMEOUT
  · rw [if_pos h]
    exact iff_of_false nofun (Nat.not_lt.mpr h)
  · rw [if_neg h]
    exact iff_of_true rfl (Nat.not_le.mp h)

theorem kbRdport_iflag (p : KbPort σ) :
    (kbRdport c p).2.iflag =
      (p.iflag && readyIn c (PS2_IO_TIMEOUT - 1) p.dev) := by
  have hready := readByte_isSome_iff c p.dev
  rw [kbRdport]
  dsimp only
  revert hready
  match readByte c p.dev with
  | (none, dev) =>
    intro hready
    rw [Bool.eq_false_iff.mpr fun hr => absurd (hready.mpr hr) nofun, Bool.and_false]
  | (some data, dev) =>
    intro hready
    rw [hready.mp rfl, Bool.and_true]

theorem kbWrport_iflag {data : Byte} {p q : KbPort σ} (h : kbWrport c data p = .ok q) :
    q.iflag = p.iflag := by
  rw [kbWrport] at h
  dsimp only at h
  split at h
  · exact nomatch h
  · obtain rfl := Except.ok.inj h
    rfl

theorem kbSendcmd_iflag {cmd : Byte} {ack : Bool} {p q : KbPort σ}
    (h : kbSendcmd c cmd p = .ok (ack, q)) : q.iflag = p.iflag := by
  obtain ⟨⟨ack', q'⟩, -, h⟩ := bind_ok.mp h
  obtain ⟨-, rfl⟩ := Prod.mk.inj (Except.ok.inj h)
  rfl

/-! ## The functions -/

/-- The functions that the flag is about. -/
inductive KbCall where
  | rdport
  | wrport (data : Byte)
  | sendcmd (cmd : Byte)
  | ident
  | setleds (leds : Byte)

/-- What a call leaves, if it returns. -/
def KbCall.run : KbCall → KbPort σ → Call (KbPort σ)
  | .rdport, p => .ok (kbRdport c p).2
  | .wrport data, p => kbWrport c data p
  | .sendcmd cmd, p => do
    let (_, p) ← kbSendcmd c cmd p
    .ok p
  | .ident, p => do
    let (_, p) ← kbIdent c p
    .ok p
  | .setleds leds, p => do
    let (_, p) ← kbSetleds c leds p
    .ok p

/-- The reads that the call makes behind an acknowledged command, and the one of `kb_rdport`, are
prompt. -/
def KbCall.Prompt : KbCall → KbPort σ → Prop
  | .rdport, p => KbPort.Prompt c p
  | .wrport _, _ | .sendcmd _, _ => True
  | .ident, p => ∀ q, kbSendcmd c PS2KB_CMD_IDENT p = .ok (true, q) →
      KbPort.Prompt c q ∧ KbPort.Prompt c (kbRdport c q).2
  | .setleds leds, p => ∀ q r, kbSendcmd c PS2KB_CMD_SETLED p = .ok (true, q) →
      kbWrport c leds (q.setLeds leds) = .ok r → KbPort.Prompt c r

theorem prompt_iff (p : KbPort σ) : Prompt c p ↔ (kbRdport c p).2.iflag = p.iflag := by
  rw [kbRdport_iflag, Prompt]
  cases p.iflag with
  | false => exact iff_of_true (Or.inl rfl) rfl
  | true => rw [Bool.true_and, or_iff_right nofun]

/-- Once the flag is lost, the next read takes the loss for the state to restore. -/
theorem prompt_twice_iff (p : KbPort σ) :
    (kbRdport c (kbRdport c p).2).2.iflag = p.iflag ↔
      Prompt c p ∧ Prompt c (kbRdport c p).2 := by
  rw [Prompt, Prompt, kbRdport_iflag, kbRdport_iflag]
  generalize readyIn c (PS2_IO_TIMEOUT - 1) p.dev = first
  generalize readyIn c (PS2_IO_TIMEOUT - 1) (kbRdport c p).2.dev = second
  cases p.iflag <;> cases first <;> cases second <;> decide

/-- What the driver keeps of the first byte is nothing to the second read. -/
theorem kbRdport_setIdent (ident : Byte × Byte) (p : KbPort σ) :
    kbRdport c (p.setIdent ident) = ((kbRdport c p).1, (kbRdport c p).2.setIdent ident) := by
  rw [kbRdport, kbRdport, setIdent]
  dsimp only
  match readByte c p.dev with
  | (none, dev) => rfl
  | (some data, dev) =>
    dsimp only
    unfold countError setIdent
    by_cases hdata : data = 0xFF
    · rw [if_pos hdata, if_pos hdata]
    · rw [if_neg hdata, if_neg hdata]

theorem readIdent_eq (p : KbPort σ) :
    readIdent c p = (kbRdport c (kbRdport c p).2).2.setIdent
      ((kbRdport c p).1, (kbRdport c (kbRdport c p).2).1) := by
  rw [readIdent]
  dsimp only
  rw [kbRdport_setIdent]
  rfl

theorem kbIdent_iflag_iff (p : KbPort σ) :
    (∀ q, KbCall.ident.run c p = .ok q → q.iflag = p.iflag) ↔ KbCall.ident.Prompt c p := by
  constructor
  · intro h q hsend
    have hrun : KbCall.ident.run c p = .ok (readIdent c q) := by
      rw [KbCall.run, kbIdent, hsend]
      rfl
    have hflag := h _ hrun
    rw [readIdent_eq] at hflag
    exact (prompt_twice_iff c q).mp (hflag.trans (kbSendcmd_iflag c hsend).symm)
  · intro h q hrun
    obtain ⟨⟨ack, q'⟩, hident, hq⟩ := bind_ok.mp hrun
    obtain rfl := Except.ok.inj hq
    obtain ⟨⟨sent, r⟩, hsend, hrest⟩ := bind_ok.mp hident
    have hr := kbSendcmd_iflag c hsend
    cases sent with
    | false =>
      obtain ⟨-, rfl⟩ := Prod.mk.inj (Except.ok.inj hrest)
      exact hr
    | true =>
      obtain ⟨-, rfl⟩ := Prod.mk.inj (Except.ok.inj hrest)
      rw [readIdent_eq]
      exact ((prompt_twice_iff c r).mpr (h r hsend)).trans hr

theorem kbSetleds_iflag_iff (leds : Byte) (p : KbPort σ) :
    (∀ q, (KbCall.setleds leds).run c p = .ok q → q.iflag = p.iflag) ↔
      (KbCall.setleds leds).Prompt c p := by
  constructor
  · intro h q r hsend hwrite
    have hset : kbSetleds c leds p = .ok (true, (kbRdport c r).2) :=
      bind_ok.mpr ⟨(true, q), hsend, bind_ok.mpr ⟨r, hwrite, rfl⟩⟩
    have hrun : (KbCall.setleds leds).run c p = .ok (kbRdport c r).2 := by
      rw [KbCall.run, hset]
      rfl
    have hq : q.iflag = p.iflag := kbSendcmd_iflag c hsend
    have hr : r.iflag = p.iflag := (kbWrport_iflag c hwrite).trans hq
    exact (prompt_iff c r).mpr ((h _ hrun).trans hr.symm)
  · intro h q hrun
    obtain ⟨⟨ack, q'⟩, hset, hq⟩ := bind_ok.mp hrun
    obtain rfl := Except.ok.inj hq
    obtain ⟨⟨sent, r⟩, hsend, hrest⟩ := bind_ok.mp hset
    have hr : r.iflag = p.iflag := kbSendcmd_iflag c hsend
    cases sent with
    | false =>
      obtain ⟨-, rfl⟩ := Prod.mk.inj (Except.ok.inj hrest)
      exact hr
    | true =>
      obtain ⟨t, hwrite, hread⟩ := bind_ok.mp hrest
      obtain ⟨-, rfl⟩ := Prod.mk.inj (Except.ok.inj hread)
      exact ((prompt_iff c t).mp (h r t hsend hwrite)).trans
        ((kbWrport_iflag c hwrite).trans hr)

/-- A controller whose status never changes. -/
def steady (status data : Byte) : KbController Unit :=
  ⟨fun _ => (status, ()), fun _ => (data, ()), fun _ _ => ()⟩

theorem readyIn_steady {status : Byte} (h : outputFull status = false) (data : Byte) (n : Nat) :
    readyIn (steady status data) n () = false := by
  induction n with
  | zero => rfl
  | succ n ih =>
    rw [readyIn, steady, h, Bool.false_or]
    exact ih

/-- A call that returns has restored the flag if and only if no byte came too late for a read whose
caller does not restore the flag itself. -/
theorem iflag_restored_iff (call : KbCall) (p : KbPort σ) :
    (∀ q, call.run c p = .ok q → q.iflag = p.iflag) ↔ call.Prompt c p := by
  cases call with
  | rdport =>
    refine Iff.trans ⟨fun h => h _ rfl, fun h q hq => ?_⟩ (prompt_iff c p).symm
    rw [← Except.ok.inj hq]
    exact h
  | wrport data => exact iff_of_true (fun q hq => kbWrport_iflag c hq) trivial
  | sendcmd cmd =>
    refine iff_of_true (fun q hq => ?_) trivial
    obtain ⟨⟨ack, r⟩, hsend, hr⟩ := bind_ok.mp hq
    obtain rfl := Except.ok.inj hr
    exact kbSendcmd_iflag c hsend
  | ident => exact kbIdent_iflag_iff c p
  | setleds leds => exact kbSetleds_iflag_iff c leds p

theorem iflag_lost_silent : ¬ ∀ call : KbCall, ∀ p q : KbPort Unit,
    call.run (steady 0 0) p = .ok q → q.iflag = p.iflag := by
  intro h
  have hrun := h .rdport ⟨(), true, Kb.zero⟩ _ rfl
  rw [kbRdport_iflag, readyIn_steady rfl] at hrun
  exact nomatch hrun

/-! ## What the rest of the driver is told -/

variable {α β : Type}

/-- The driver at the port, with the answers that its polls will find. -/
def behind (p : KbPort σ) (w : KbWorld) (ins : List (Option Byte)) (outs : List Bool) : KbWorld :=
  { w with kb := p.kb, ps2 := ⟨ins, outs⟩ }

/-- On the answers that the polls from `p` to `q` find, `f` changes the driver as they do. -/
def Answered (f : KbWorld → Call (α × KbWorld)) (p : KbPort σ) (r : α) (q : KbPort σ) : Prop :=
  ∃ ins outs, ∀ w i o, f (p.behind w (ins ++ i) (outs ++ o)) = .ok (r, q.behind w i o)

theorem Answered.bind {f : KbWorld → Call (α × KbWorld)} {g : α → KbWorld → Call (β × KbWorld)}
    {p q t : KbPort σ} {r : α} {r' : β} (hf : Answered f p r q) (hg : Answered (g r) q r' t) :
    Answered (fun w => f w >>= fun x => g x.1 x.2) p r' t := by
  obtain ⟨ins, outs, hf⟩ := hf
  obtain ⟨ins', outs', hg⟩ := hg
  refine ⟨ins ++ ins', outs ++ outs', fun w i o => ?_⟩
  rw [List.append_assoc, List.append_assoc]
  exact bind_ok.mpr ⟨_, hf w _ _, hg w i o⟩

theorem Answered.pure (p : KbPort σ) (r : α) : Answered (fun w => .ok (r, w)) p r p :=
  ⟨[], [], fun _ _ _ => rfl⟩

theorem kbRdport_answers (p : KbPort σ) :
    Answered (fun w => .ok (Ohwes.kbRdport w)) p (kbRdport c p).1 (kbRdport c p).2 := by
  refine ⟨[(readByte c p.dev).1], [], fun w i o => congrArg Except.ok ?_⟩
  rw [Ohwes.kbRdport, kbRdport]
  dsimp only
  match readByte c p.dev with
  | (none, dev) => rfl
  | (some data, dev) =>
    change (if data = 0xFF then _ else _) = (data, behind ⟨dev, p.iflag, countError p.kb data⟩ w i o)
    unfold countError
    by_cases hdata : data = 0xFF
    · rw [if_pos hdata, if_pos hdata]
      rfl
    · rw [if_neg hdata, if_neg hdata]
      rfl

theorem kbWrport_answers {data : Byte} {p q : KbPort σ} (h : kbWrport c data p = .ok q) :
    Answered (fun w => Ohwes.kbWrport w >>= fun w => .ok ((), w)) p () q := by
  refine ⟨[], [true], fun w i o => ?_⟩
  rw [kbWrport] at h
  dsimp only at h
  split at h
  · exact nomatch h
  · obtain rfl := Except.ok.inj h
    rfl

/-- What the loop of `kb_sendcmd` makes of an answer. -/
def answered (retries : Nat) (resp : Byte) (w : KbWorld) : Call (Bool × KbWorld) :=
  if resp = 0xFA then .ok (true, w)
  else if resp ≠ 0 then Ohwes.kbSendcmdLoop retries w
  else .ok (false, w)

theorem kbSendcmdLoop_answers {cmd : Byte} {n : Nat} {ack : Bool} {p q : KbPort σ}
    (h : kbSendcmdLoop c cmd n p = .ok (ack, q)) :
    Answered (Ohwes.kbSendcmdLoop n) p ack q := by
  induction n generalizing p with
  | zero =>
    obtain ⟨rfl, rfl⟩ := Prod.mk.inj (Except.ok.inj h)
    exact Answered.pure p false
  | succ n ih =>
    obtain ⟨t, hwrite, h⟩ := bind_ok.mp h
    generalize hread : kbRdport c t = read at h
    have hrd := kbRdport_answers c t
    rw [hread] at hrd
    obtain ⟨resp, u⟩ := read
    dsimp only at h hrd
    have hrest : Answered (answered n resp) u ack q := by
      unfold answered
      by_cases hack : resp = 0xFA
      · rw [if_pos hack] at h
        obtain ⟨rfl, rfl⟩ := Prod.mk.inj (Except.ok.inj h)
        simp only [if_pos hack]
        exact Answered.pure u true
      · rw [if_neg hack] at h
        simp only [if_neg hack]
        by_cases hzero : resp ≠ 0
        · rw [if_pos hzero] at h
          simp only [if_pos hzero]
          exact ih h
        · rw [if_neg hzero] at h
          obtain ⟨rfl, rfl⟩ := Prod.mk.inj (Except.ok.inj h)
          simp only [if_neg hzero]
          exact Answered.pure u false
    have hretry : Answered _ t ack q := hrd.bind (g := answered n) hrest
    obtain ⟨ins, outs, hall⟩ := (kbWrport_answers c hwrite).bind (g := fun _ => _) hretry
    refine ⟨ins, outs, fun w i o => Eq.trans ?_ (hall w i o)⟩
    rw [Ohwes.kbSendcmdLoop]
    dsimp only
    cases Ohwes.kbWrport (p.behind w (ins ++ i) (outs ++ o)) with
    | error e => rfl
    | ok v => rfl

theorem kbSendcmd_answers {cmd : Byte} {ack : Bool} {p q : KbPort σ}
    (h : kbSendcmd c cmd p = .ok (ack, q)) : Answered Ohwes.kbSendcmd p ack q := by
  obtain ⟨⟨ack', q'⟩, hloop, h⟩ := bind_ok.mp h
  obtain ⟨rfl, rfl⟩ := Prod.mk.inj (Except.ok.inj h)
  have hanswers := kbSendcmdLoop_answers c hloop
  exact hanswers

/-- What `kb_ident` makes of the acknowledgement. -/
def identified (ack : Bool) (w : KbWorld) : Call (Bool × KbWorld) :=
  if !ack then .ok (false, w)
  else
    let (b, w) := Ohwes.kbRdport w
    let (c, w) := Ohwes.kbRdport w
    .ok (true, { w with kb := { w.kb with ident := (b, c) } })

theorem identified_answers (p : KbPort σ) :
    Answered (identified true) p true (readIdent c p) := by
  obtain ⟨ins, outs, hfirst⟩ := kbRdport_answers c p
  obtain ⟨ins', outs', hsecond⟩ := kbRdport_answers c (kbRdport c p).2
  refine ⟨ins ++ ins', outs ++ outs', fun w i o => ?_⟩
  rw [List.append_assoc, List.append_assoc, identified, if_neg nofun,
    Except.ok.inj (hfirst w (ins' ++ i) (outs' ++ o))]
  dsimp only
  rw [Except.ok.inj (hsecond w i o), readIdent_eq]
  rfl

/-- The identification is the one that the driver's own model makes. -/
theorem kbIdent_answers {ack : Bool} {p q : KbPort σ} (h : kbIdent c p = .ok (ack, q)) :
    Answered Ohwes.kbIdent p ack q := by
  obtain ⟨⟨sent, r⟩, hsend, h⟩ := bind_ok.mp h
  have hs := kbSendcmd_answers c hsend
  cases sent with
  | false =>
    obtain ⟨rfl, rfl⟩ := Prod.mk.inj (Except.ok.inj h)
    exact hs.bind (g := identified) (Answered.pure r false)
  | true =>
    obtain ⟨rfl, rfl⟩ := Prod.mk.inj (Except.ok.inj h)
    exact hs.bind (g := identified) (identified_answers c r)

end KbPort

end Ohwes

import Ohwes.Char.Chunking
import Ohwes.Char.RtsControl
import Ohwes.Library.Throttle

/-! # Characters on their way to a reader

An interrupt can come between any two steps of `n_tty_read`, and it brings one character to `n_tty_recv`.
What a line sends, in order, is what its reader has got and what waits in the ring, as long as the sender
stops in time. `told` is what the driver last told the sender; on a serial line with hardware flow control
that is the state of request-to-send (`window_kept_lossless_iff`, `lossless_iff`). -/

namespace Ohwes
open Library
set_option autoImplicit false

/-- A line, with what its sender has sent, what its reader has got, and the characters since the sender was
told to stop. -/
structure InputLink (D : Type) where
  line : Attached D
  sent : List Byte
  got : List Byte
  late : Nat
  reader : ReaderAt

inductive LinkOp
  | arrive (c : Byte)
  | read
  | settings (t : Termios)

/-- The characters in the receive ring. -/
def waiting (tty : Tty) : List Byte :=
  match tty.ldiscData with
  | none => []
  | some q => q.chars

/-- What the sender has sent for the reader: an XON or XOFF character is not for it. -/
def forReader (t : Termios) (c : Byte) : List Byte := if flowChar t c then [] else [translate t c]

section Link
variable {D : Type} (drv : TtyDriver D) (told : D → Bool)

/-- The steps of the loop of `n_tty_read`, with those of `unthrottle_tty`. -/
def readerTurn (r : InputLink D) (q : Ring) : InputLink D :=
  match r.reader with
  | .looking => { r with reader := if ringCount q = 0 then .looking else .taking }
  | .taking =>
    { r with
      line := { r.line with tty := r.line.tty.setRing (ringGet q).2 }
      got := r.got ++ [(ringGet q).1]
      reader := .checking }
  | .checking =>
    { r with reader := if nTtyRecvRoom r.line.tty ≥ TTY_THROTTLE_THRESH then .testing else .looking }
  | .testing => { r with reader := if !r.line.tty.throttled then .looking else .clearing }
  | .clearing =>
    { r with
      line := { r.line with tty := { r.line.tty with throttled := false } }
      reader := .telling }
  | .telling => { r with line := r.line.callDev drv.unthrottle, reader := .looking }

def linkStep (r : InputLink D) : LinkOp → Call (InputLink D)
  | .arrive c => do
    let line ← nTtyRecv drv (some [c]) r.line
    .ok { r with
      line
      sent := r.sent ++ forReader r.line.tty.termios c
      late := if told r.line.dev = false ∧ told line.dev = true then 0 else r.late + 1 }
  | .read =>
    match r.line.tty.ldiscData with
    | none => .error .assertion
    | some q => .ok (readerTurn drv r q)
  | .settings t =>
    .ok { r with line := { r.line with tty := { r.line.tty with termios := t } } }

/-- A line before anything has come in. -/
def linkStart (s : Attached D) : InputLink D := ⟨s, [], [], 0, .looking⟩

/-- A sender that has been told to stop sends at most `slack` characters more. -/
def Polite (slack : Nat) (r : InputLink D) : LinkOp → Prop
  | .arrive _ => told r.line.dev = true → r.late < slack
  | _ => True

/-- No character takes a place below the threshold between the two steps of `unthrottle_tty`. -/
def WindowKept (r : InputLink D) : LinkOp → Prop
  | .arrive _ => r.reader = .telling → TTY_THROTTLE_THRESH < nTtyRecvRoom r.line.tty
  | _ => True

/-- Settings that are set meet a condition. -/
def SettingsMeet (Q : Nat → Termios → Prop) (r : InputLink D) : LinkOp → Prop
  | .settings t => Q r.line.tty.device t
  | _ => True

def Lossless (r : InputLink D) : Prop := r.sent = r.got ++ waiting r.line.tty

/-! ## Steps -/

def InputLink.view (r : InputLink D) : Throttle :=
  ⟨nTtyRecvRoom r.line.tty, r.line.tty.throttled, told r.line.dev, r.late, r.reader⟩

structure LinkOk (r : InputLink D) : Prop where
  isOpen : LdiscOpen r.line.tty
  order : Lossless r
  held : r.reader = .taking → waiting r.line.tty ≠ []

variable {drv told} {Q : Nat → Termios → Prop}

theorem waiting_some {tty : Tty} {q : Ring} (h : tty.ldiscData = some q) : waiting tty = q.chars := by
  rw [waiting, h]

theorem room_some {tty : Tty} {q : Ring} (h : tty.ldiscData = some q) :
    nTtyRecvRoom tty = q.length - q.count := by
  rw [nTtyRecvRoom, h]
  rfl

theorem echo_told (k : TellsWhen Q drv told) (s : Attached D) (c : Byte) :
    told (echo drv s c).2.dev = told s.dev := by
  unfold echo opost
  simp only []
  split_ifs <;> simp only [writeChar, k.write]

theorem takeChar_told (k : TellsWhen Q drv told) (s : Attached D) (c : Byte) :
    told (takeChar drv s c).dev = told s.dev := by
  unfold takeChar
  simp only []
  split
  · exact echo_told k ..
  · rfl

/-- What the end of `n_tty_recv` does to the flag and to what the sender knows. -/
theorem recvDone_told (k : TellsWhen Q drv told) {s : Attached D} (hmeets : OnSettings Q s) :
    told (recvDone drv s).dev =
        (if nTtyRecvRoom s.tty < TTY_THROTTLE_THRESH ∧ s.tty.throttled = false then true else told s.dev) ∧
      (recvDone drv s).tty.throttled =
        (if nTtyRecvRoom s.tty < TTY_THROTTLE_THRESH ∧ s.tty.throttled = false then true
          else s.tty.throttled) ∧
      (recvDone drv s).tty.ldiscData = s.tty.ldiscData ∧
      (recvDone drv s).tty.termios = s.tty.termios := by
  have hflush : told (s.callDev drv.flush).dev = told s.dev := callDev_told k.flush s
  have htty : (s.callDev drv.flush).tty = s.tty := Attached.callDev_tty ..
  obtain ⟨f, hf, htold⟩ := k.throttle
  rw [recvDone, htty]
  by_cases hroom : nTtyRecvRoom s.tty < TTY_THROTTLE_THRESH
  · rw [if_pos hroom, throttleTty_tty, htty]
    refine ⟨?_, by simp [hroom], rfl, rfl⟩
    rw [throttleTty, htty]
    cases s.tty.throttled with
    | true =>
      rw [if_pos rfl, if_neg (by simp)]
      exact hflush
    | false =>
      rw [if_neg (by simp), if_pos ⟨hroom, rfl⟩, hf]
      exact htold _ _ hmeets
  · rw [if_neg hroom, htty]
    exact ⟨by simpa [hroom] using hflush, by simp [hroom], rfl, rfl⟩

section Steps
variable {r : InputLink D}

/-- A character for the reader, when there is a place for it. -/
theorem arrive_put (k : TellsWhen Q drv told) (h : LinkOk r) (hmeets : OnSettings Q r.line) {c : Byte}
    (hflow : flowChar r.line.tty.termios c = false) (hign : ignoredChar r.line.tty.termios c = false)
    (hroom : 2 ≤ nTtyRecvRoom r.line.tty) :
    ∃ r', linkStep drv told r (.arrive c) = .ok r' ∧ LinkOk r' ∧
      r'.view told = (r.view told).put TTY_THROTTLE_THRESH ∧
      r'.line.tty.termios = r.line.tty.termios := by
  obtain ⟨q, hq, hlen⟩ := h.isOpen
  have hrecv : nTtyRecv drv (some [c]) r.line = .ok (recvDone drv (takeChar drv r.line c)) := by
    rw [nTtyRecv_some hq, recvLoop_cons, if_neg (by simp [hflow]), if_neg (by simp [hign]), if_neg (by omega)]
    rfl
  obtain ⟨htold, hflag, hring, htermios⟩ := recvDone_told k (recvKeeps_onSettings.takeChar hmeets c)
  have hput := takeChar_ring drv c hq
  have hsmaller : nTtyRecvRoom (takeChar drv r.line c).tty = nTtyRecvRoom r.line.tty - 1 :=
    takeChar_room drv c hq
  rw [takeChar_told k, hsmaller, takeChar_throttled] at htold
  rw [hsmaller, takeChar_throttled] at hflag
  have hwait : waiting (recvDone drv (takeChar drv r.line c)).tty =
      waiting r.line.tty ++ [translate r.line.tty.termios c] := by
    have hspace : ringFull q ≠ true := by
      rw [room_some hq] at hroom
      intro hfull
      have hcount := (ringFull_iff q).mp hfull
      omega
    rw [waiting_some (hring.trans hput), waiting_some hq, ringPut_chars, if_neg hspace]
  refine ⟨_, by rw [linkStep, hrecv]; rfl, ⟨?_, ?_, ?_⟩, ?_, ?_⟩
  · exact (takeChar_open drv c h.isOpen).congr hring
  · rw [Lossless, hwait, h.order, forReader, hflow, List.append_assoc]
    rfl
  · intro _
    rw [hwait]
    exact List.append_ne_nil_of_right_ne_nil _ (List.cons_ne_nil _ _)
  · have hroom' : nTtyRecvRoom (recvDone drv (takeChar drv r.line c)).tty =
        nTtyRecvRoom r.line.tty - 1 := (nTtyRecvRoom_congr hring).trans hsmaller
    rw [InputLink.view, Throttle.put, InputLink.view]
    dsimp only
    rw [hroom', hflag, htold]
    by_cases hstop : nTtyRecvRoom r.line.tty - 1 < TTY_THROTTLE_THRESH ∧ r.line.tty.throttled = false
    · rw [if_pos hstop, if_pos hstop, if_pos hstop, Throttle.tellStop]
      cases told r.line.dev with
      | true => rfl
      | false => rfl
    · rw [if_neg hstop, if_neg hstop, if_neg hstop]
      cases told r.line.dev with
      | true => rfl
      | false => rfl
  · rw [htermios, takeChar_termios]

/-- An XON or XOFF character takes no place. -/
theorem arrive_flow (k : TellsWhen Q drv told) (h : LinkOk r) {c : Byte}
    (hflow : flowChar r.line.tty.termios c = true) :
    ∃ r', linkStep drv told r (.arrive c) = .ok r' ∧ LinkOk r' ∧
      r'.view told = (r.view told).count := by
  obtain ⟨q, hq, -⟩ := h.isOpen
  have hrecv : nTtyRecv drv (some [c]) r.line = .ok (flowSwitch drv r.line c) := by
    rw [nTtyRecv_some hq, recvLoop_cons, if_pos hflow]
  obtain ⟨hflag, hring⟩ := flowSwitch_frame drv r.line c
  have htold : told (flowSwitch drv r.line c).dev = told r.line.dev := by
    unfold flowSwitch startTty stopTty
    split
    · split
      · rfl
      · exact callDev_told k.start _
    · split
      · rfl
      · exact callDev_told k.stop _
  have hwait : waiting (flowSwitch drv r.line c).tty = waiting r.line.tty := by
    rw [waiting_some (hring.trans hq), waiting_some hq]
  refine ⟨_, by rw [linkStep, hrecv]; rfl, ⟨h.isOpen.congr hring, ?_, ?_⟩, ?_⟩
  · rw [Lossless, hwait, h.order, forReader, hflow]
    simp
  · intro htaking
    rw [hwait]
    exact h.held htaking
  · rw [InputLink.view, Throttle.count, InputLink.view]
    dsimp only
    rw [nTtyRecvRoom_congr hring, hflag, htold]
    cases told r.line.dev with
    | true => rfl
    | false => rfl

/-- A step of the reader. -/
theorem read_turn (k : TellsWhen Q drv told) (h : LinkOk r) (hmeets : OnSettings Q r.line) :
    ∃ r', linkStep drv told r .read = .ok r' ∧ LinkOk r' ∧
      r'.view told = (r.view told).turn TTY_BUFFER_SIZE TTY_THROTTLE_THRESH ∧
      r'.line.tty.termios = r.line.tty.termios := by
  obtain ⟨q, hq, hlen⟩ := h.isOpen
  have hcount := q.count_le
  have hroom := room_some hq
  have hwait := waiting_some hq
  refine ⟨readerTurn drv r q, by rw [linkStep, hq], ?_⟩
  obtain ⟨line, sent, got, late, reader⟩ := r
  dsimp only at hq hroom hwait hmeets
  cases reader with
  | looking =>
    refine ⟨⟨h.isOpen, h.order, ?_⟩, ?_, rfl⟩
    · intro htaking hnil
      have hzero : ringCount q = 0 := by
        have hchars := congrArg List.length (hwait.symm.trans hnil)
        rwa [Ring.chars_length] at hchars
      rw [readerTurn] at htaking
      dsimp only at htaking
      rw [if_pos hzero] at htaking
      cases htaking
    · have hiff : ringCount q = 0 ↔ nTtyRecvRoom line.tty = TTY_BUFFER_SIZE := by
        rw [hroom, ringCount, ← hlen]
        omega
      rw [readerTurn, InputLink.view, InputLink.view, Throttle.turn]
      dsimp only
      rw [if_congr hiff rfl rfl]
  | taking =>
    have hne : q.chars ≠ [] := hwait ▸ h.held rfl
    have hpos : q.count ≠ 0 := by
      rw [← Ring.chars_length]
      exact fun hzero => hne (List.eq_nil_of_length_eq_zero hzero)
    have hsome : ringEmpty q = false := by
      rw [← Bool.not_eq_true, ringEmpty_iff]
      exact hpos
    have hget := ringGet_chars q hsome
    refine ⟨⟨⟨_, rfl, (ringGet_length q).trans hlen⟩, ?_, fun htaking => ?_⟩, ?_, rfl⟩
    · have horder : sent = got ++ waiting line.tty := h.order
      rw [Lossless, readerTurn]
      dsimp only
      rw [waiting_some (q := (ringGet q).2) rfl, horder, hwait, hget, List.append_assoc]
      rfl
    · cases htaking
    · have hroom' : nTtyRecvRoom (line.tty.setRing (ringGet q).2) = nTtyRecvRoom line.tty + 1 := by
        rw [room_some (q := (ringGet q).2) rfl, ringGet_length, ringGet_count, hroom]
        omega
      rw [readerTurn, InputLink.view, InputLink.view, Throttle.turn]
      dsimp only
      rw [hroom']
      rfl
  | checking =>
    refine ⟨⟨h.isOpen, h.order, fun htaking => ?_⟩, rfl, rfl⟩
    rw [readerTurn] at htaking
    dsimp only at htaking
    split at htaking
    · cases htaking
    · cases htaking
  | testing =>
    refine ⟨⟨h.isOpen, h.order, fun htaking => ?_⟩, ?_, rfl⟩
    · rw [readerTurn] at htaking
      dsimp only at htaking
      split at htaking
      · cases htaking
      · cases htaking
    · rw [readerTurn, InputLink.view, InputLink.view, Throttle.turn]
      dsimp only
      cases line.tty.throttled with
      | true => rfl
      | false => rfl
  | clearing => exact ⟨⟨h.isOpen, h.order, fun htaking => by cases htaking⟩, rfl, rfl⟩
  | telling =>
    obtain ⟨f, hf, htold⟩ := k.unthrottle
    have htty : (line.callDev drv.unthrottle).tty = line.tty := Attached.callDev_tty ..
    refine ⟨⟨h.isOpen.congr (congrArg Tty.ldiscData htty), ?_, fun htaking => by cases htaking⟩, ?_, ?_⟩
    · rw [Lossless, readerTurn]
      dsimp only
      rw [htty]
      exact h.order
    · rw [readerTurn, InputLink.view, InputLink.view, Throttle.turn]
      dsimp only
      rw [htty, hf]
      exact congrArg (fun b => Throttle.mk _ _ b _ _) (htold _ _ hmeets)
    · exact congrArg Tty.termios htty

/-- The tty keeps its number, and its settings but for those that are set. -/
theorem linkStep_onSettings {t : InputLink D} {op : LinkOp} (hmeets : OnSettings Q r.line)
    (hset : SettingsMeet Q r op) (hstep : linkStep drv told r op = .ok t) : OnSettings Q t.line := by
  cases op with
  | arrive c =>
    obtain ⟨line, hline, ht⟩ := bind_ok.mp hstep
    cases ht
    exact recvKeeps_onSettings.nTtyRecv hmeets hline
  | read =>
    rw [linkStep] at hstep
    split at hstep
    · cases hstep
    · cases hstep
      unfold readerTurn
      split
      · exact hmeets
      · exact hmeets
      · exact hmeets
      · exact hmeets
      · exact hmeets
      · unfold OnSettings
        dsimp only
        rw [Attached.callDev_tty]
        exact hmeets
  | settings t =>
    cases hstep
    exact hset

variable (drv told) in
/-- With echo, a character that comes when there is one place left is lost. -/
theorem arrive_lost (h : LinkOk r) {c : Byte} (hflow : flowChar r.line.tty.termios c = false)
    (hign : ignoredChar r.line.tty.termios c = false) (hecho : r.line.tty.termios.lFlag ECHO = true)
    (hroom : nTtyRecvRoom r.line.tty ≤ 1) :
    ∃ r', linkStep drv told r (.arrive c) = .ok r' ∧ ¬ Lossless r' := by
  obtain ⟨q, hq, -⟩ := h.isOpen
  have hrecv : nTtyRecv drv (some [c]) r.line = .ok (writeChar drv r.line ASCII_BEL) := by
    rw [nTtyRecv_some hq, recvLoop_cons, if_neg (by simp [hflow]), if_neg (by simp [hign]),
      if_pos ⟨hecho, hroom⟩]
  refine ⟨_, by rw [linkStep, hrecv]; rfl, fun hlossless => ?_⟩
  have hsent : r.sent ++ [translate r.line.tty.termios c] = r.got ++ waiting r.line.tty := by
    have hall : r.sent ++ forReader r.line.tty.termios c = r.got ++ waiting r.line.tty := hlossless
    rwa [forReader, if_neg (by simp [hflow])] at hall
  have hlen := congrArg List.length (hsent.trans h.order.symm)
  rw [List.length_append, List.length_singleton] at hlen
  omega

end Steps

/-! ## A reader that is not interrupted -/

/-- The characters of a read. -/
def ReadOutcome.chars : ReadOutcome → List Byte
  | .returned _ chars => chars
  | .spinning chars => chars

variable (drv told) in
/-- One pass of the loop of `n_tty_read`. -/
theorem readerTurn_pass (line : Attached D) (sent got : List Byte) (late : Nat) {q : Ring}
    (hq : line.tty.ldiscData = some q) (hsome : ringCount q ≠ 0) :
    let s : Attached D := { line with tty := line.tty.setRing (ringGet q).2 }
    ∃ n, run (linkStep drv told) ⟨line, sent, got, late, .looking⟩ (List.replicate n .read) =
      .ok ⟨if nTtyRecvRoom s.tty ≥ TTY_THROTTLE_THRESH then unthrottleTty drv s else s, sent,
        got ++ [(ringGet q).1], late, .looking⟩ := by
  intro s
  have hlook : linkStep drv told ⟨line, sent, got, late, .looking⟩ .read =
      .ok ⟨line, sent, got, late, .taking⟩ := by
    rw [linkStep, hq]
    dsimp only
    rw [readerTurn]
    dsimp only
    rw [if_neg hsome]
  have htake : linkStep drv told ⟨line, sent, got, late, .taking⟩ .read =
      .ok ⟨s, sent, got ++ [(ringGet q).1], late, .checking⟩ := by
    rw [linkStep, hq]
    rfl
  have hfirst : ∀ n, run (linkStep drv told) ⟨line, sent, got, late, .looking⟩
        (List.replicate (n + 2) .read) =
      run (linkStep drv told) ⟨s, sent, got ++ [(ringGet q).1], late, .checking⟩
        (List.replicate n .read) := by
    intro n
    rw [List.replicate_succ, run_cons, hlook, List.replicate_succ]
    refine (run_cons ..).trans ?_
    rw [htake]
    rfl
  by_cases hroom : nTtyRecvRoom s.tty ≥ TTY_THROTTLE_THRESH
  · rw [if_pos hroom]
    have hcheck : linkStep drv told ⟨s, sent, got ++ [(ringGet q).1], late, .checking⟩ .read =
        .ok ⟨s, sent, got ++ [(ringGet q).1], late, .testing⟩ :=
      congrArg (fun x => Except.ok (InputLink.mk s sent _ late x)) (if_pos hroom)
    cases hflag : s.tty.throttled with
    | true =>
      refine ⟨6, (hfirst 4).trans ?_⟩
      rw [List.replicate_succ, run_cons, hcheck]
      have htest : linkStep drv told ⟨s, sent, got ++ [(ringGet q).1], late, .testing⟩ .read =
          .ok ⟨s, sent, got ++ [(ringGet q).1], late, .clearing⟩ :=
        congrArg (fun x => Except.ok (InputLink.mk s sent _ late x)) (if_neg (by rw [hflag]; decide))
      rw [List.replicate_succ]
      refine (run_cons ..).trans ?_
      rw [htest]
      have hun : unthrottleTty drv s =
          ({ s with tty := { s.tty with throttled := false } } : Attached D).callDev drv.unthrottle := by
        rw [unthrottleTty, hflag]
        rfl
      rw [hun]
      rfl
    | false =>
      refine ⟨4, (hfirst 2).trans ?_⟩
      rw [List.replicate_succ, run_cons, hcheck]
      have htest : linkStep drv told ⟨s, sent, got ++ [(ringGet q).1], late, .testing⟩ .read =
          .ok ⟨s, sent, got ++ [(ringGet q).1], late, .looking⟩ :=
        congrArg (fun x => Except.ok (InputLink.mk s sent _ late x)) (if_pos (by rw [hflag]; decide))
      rw [List.replicate_succ]
      refine (run_cons ..).trans ?_
      rw [htest]
      have hun : unthrottleTty drv s = s := by
        rw [unthrottleTty, hflag]
        rfl
      rw [hun]
      rfl
  · rw [if_neg hroom]
    refine ⟨3, (hfirst 1).trans ?_⟩
    have hcheck : linkStep drv told ⟨s, sent, got ++ [(ringGet q).1], late, .checking⟩ .read =
        .ok ⟨s, sent, got ++ [(ringGet q).1], late, .looking⟩ :=
      congrArg (fun x => Except.ok (InputLink.mk s sent _ late x)) (if_neg hroom)
    rw [List.replicate_succ, run_cons, hcheck]
    rfl

/-- The steps of the reader, one behind the other, are the loop of `n_tty_read`. -/
theorem readLoop_steps {oflag : BitVec 32} {count : Nat} {chars : List Byte} {s : Attached D}
    {x : ReadOutcome × Attached D} (h : readLoop drv oflag count chars s = .ok x) (sent got : List Byte)
    (late : Nat) :
    ∃ n taken, x.1.chars = chars ++ taken ∧
      run (linkStep drv told) ⟨s, sent, got, late, .looking⟩ (List.replicate n .read) =
        .ok ⟨x.2, sent, got ++ taken, late, .looking⟩ := by
  induction count generalizing chars s got with
  | zero =>
    cases h
    exact ⟨0, [], (List.append_nil _).symm, by rw [List.append_nil]; rfl⟩
  | succ count ih =>
    rw [readLoop] at h
    split at h
    · cases h
    · next q hq =>
      by_cases hzero : ringCount q = 0
      · rw [if_pos hzero] at h
        have hx : x.1.chars = chars ∧ x.2 = s := by
          split_ifs at h
          · cases h
            exact ⟨rfl, rfl⟩
          · cases h
            exact ⟨rfl, rfl⟩
          · cases h
            exact ⟨rfl, rfl⟩
        refine ⟨0, [], by rw [hx.1, List.append_nil], ?_⟩
        rw [hx.2, List.append_nil]
        rfl
      · rw [if_neg hzero] at h
        obtain ⟨n, hn⟩ := readerTurn_pass drv told s sent got late hq hzero
        obtain ⟨m, taken, htaken, hm⟩ := ih h (got ++ [(ringGet q).1])
        refine ⟨n + m, (ringGet q).1 :: taken, ?_, ?_⟩
        · rw [htaken, List.append_assoc]
          rfl
        · rw [List.replicate_add]
          refine (run_append_ok _).mpr ⟨_, hn, ?_⟩
          rw [hm, List.append_assoc]
          rfl

/-! ## Nothing is lost -/

/-- A tty that has just been opened. -/
structure FreshTty (tty : Tty) : Prop where
  isOpen : LdiscOpen tty
  empty : waiting tty = []
  unthrottled : tty.throttled = false

theorem openedTty_fresh : FreshTty openedTty where
  isOpen := openedTty_open
  empty := rfl
  unthrottled := rfl

theorem linkStart_ok {s : Attached D} (h : FreshTty s.tty) : LinkOk (linkStart s) where
  isOpen := h.isOpen
  order := h.empty.symm
  held htaking := by cases htaking

theorem linkStart_view {s : Attached D} (h : FreshTty s.tty) (hgo : told s.dev = false) :
    (linkStart s).view told = ⟨1024, false, false, 0, .looking⟩ := by
  obtain ⟨q, hq, hlen⟩ := h.isOpen
  have hcount : q.count = 0 := by
    rw [← Ring.chars_length, ← waiting_some hq, h.empty]
    rfl
  have hroom : nTtyRecvRoom s.tty = 1024 := by
    rw [room_some hq, hlen, hcount]
    rfl
  have hview : (linkStart s).view told = ⟨nTtyRecvRoom s.tty, s.tty.throttled, told s.dev, 0, .looking⟩ := rfl
  rw [hview, hroom, h.unthrottled, hgo]

theorem linkStart_paced {s : Attached D} {slack : Nat} (h : FreshTty s.tty) (hgo : told s.dev = false)
    (hslack : 2 * slack + 3 ≤ TTY_THROTTLE_THRESH) :
    ((linkStart s).view told).Paced TTY_THROTTLE_THRESH slack := by
  rw [linkStart_view h hgo]
  refine ⟨rfl, fun hs => Bool.noConfusion hs, fun _ => ?_⟩
  dsimp only
  rw [TTY_THROTTLE_THRESH] at hslack ⊢
  omega

/-- Every step goes on from states that are in order to states that are in order. -/
theorem linkStep_paced (k : TellsWhen Q drv told) {slack : Nat}
    (hslack : 2 * slack + 3 ≤ TTY_THROTTLE_THRESH) (r : InputLink D) (op : LinkOp) (t : InputLink D)
    (h : LinkOk r ∧ OnSettings Q r.line ∧ (r.view told).Paced TTY_THROTTLE_THRESH slack)
    (hq : SettingsMeet Q r op ∧ Polite told slack r op ∧ WindowKept r op)
    (hstep : linkStep drv told r op = .ok t) :
    LinkOk t ∧ OnSettings Q t.line ∧ (t.view told).Paced TTY_THROTTLE_THRESH slack := by
  obtain ⟨hok, hmeets, hpaced⟩ := h
  obtain ⟨hset, hq⟩ := hq
  have hmeets' : OnSettings Q t.line := linkStep_onSettings hmeets hset hstep
  cases op with
  | arrive c =>
    obtain ⟨hpolite, hwindow⟩ := hq
    by_cases hflow : flowChar r.line.tty.termios c = true
    · obtain ⟨r', hr', hok', hview⟩ := arrive_flow k hok hflow
      cases hr'.symm.trans hstep
      exact ⟨hok', hmeets', hview ▸ hpaced.count hpolite⟩
    · have hflow : flowChar r.line.tty.termios c = false := by simpa using hflow
      by_cases hign : ignoredChar r.line.tty.termios c = true
      · -- `n_tty_recv` does not come back
        obtain ⟨q, hq, -⟩ := hok.isOpen
        rw [linkStep, nTtyRecv_some hq, recvLoop_cons, if_neg (by simp [hflow]), if_pos hign] at hstep
        cases hstep
      · have hroom : 2 ≤ nTtyRecvRoom r.line.tty := hpaced.fits hslack hpolite hwindow
        obtain ⟨r', hr', hok', hview, -⟩ := arrive_put k hok hmeets hflow (by simpa using hign) hroom
        cases hr'.symm.trans hstep
        exact ⟨hok', hmeets', hview ▸ hpaced.put hslack hpolite hwindow⟩
  | read =>
    obtain ⟨r', hr', hok', hview, -⟩ := read_turn k hok hmeets
    cases hr'.symm.trans hstep
    exact ⟨hok', hmeets', hview ▸ hpaced.turn⟩
  | settings t =>
    cases hstep
    exact ⟨⟨hok.isOpen, hok.order, hok.held⟩, hmeets', hpaced⟩

/-! ## Ways to lose a character -/

/-- A letter for every item. -/
def toLink : ThrottleOp → LinkOp
  | .put => .arrive 0x61
  | .read => .read

/-- The letter is no flow control character and is not ignored, whatever the settings. -/
theorem letter_ordinary (t : Termios) : flowChar t 0x61 = false ∧ ignoredChar t 0x61 = false := by
  constructor
  · unfold flowChar
    rw [show ((0x61 : Byte) == START_CHAR || (0x61 : Byte) == STOP_CHAR) = false by decide, Bool.and_false]
  · unfold ignoredChar
    rw [show ((0x61 : Byte) == ASCII_CR) = false by decide, Bool.false_and]

/-- Whatever the receiver and the reader of the library do, those of the tty can do. -/
theorem follow (k : TellsWhen Q drv told) {P : Throttle → ThrottleOp → Prop}
    {R : InputLink D → LinkOp → Prop} (hP : ∀ r op, P (r.view told) op → R r (toLink op))
    {ops : List ThrottleOp} {t : Throttle} {r : InputLink D} (hok : LinkOk r) (hmeets : OnSettings Q r.line)
    (h : RunsTo (Throttle.step TTY_BUFFER_SIZE TTY_THROTTLE_THRESH) (fun t op => P t op ∧ Throttle.Fits t op)
      (r.view told) ops t) :
    ∃ r', RunsTo (linkStep drv told) R r (ops.map toLink) r' ∧ LinkOk r' ∧
      r'.line.tty.termios = r.line.tty.termios ∧ r'.view told = t := by
  induction ops generalizing r with
  | nil =>
    cases h.run
    exact ⟨r, ⟨trivial, rfl⟩, hok, rfl, rfl⟩
  | cons op ops ih =>
    obtain ⟨⟨hp, hfits⟩, hrest⟩ := h.throughout
    obtain ⟨m, hm, hrun⟩ := (run_cons_ok _).mp h.run
    have hmore := hrest m hm
    cases hm
    have hnext : ∃ r', linkStep drv told r (toLink op) = .ok r' ∧ LinkOk r' ∧
        r'.view told = (r.view told).next TTY_BUFFER_SIZE TTY_THROTTLE_THRESH op ∧
        r'.line.tty.termios = r.line.tty.termios ∧ OnSettings Q r'.line := by
      cases op with
      | put =>
        obtain ⟨hflow, hign⟩ := letter_ordinary r.line.tty.termios
        obtain ⟨r', hr', hok', hview, hset'⟩ := arrive_put k hok hmeets hflow hign (hfits rfl)
        have hnone : SettingsMeet Q r (toLink .put) := trivial
        exact ⟨r', hr', hok', hview, hset', linkStep_onSettings hmeets hnone hr'⟩
      | read =>
        obtain ⟨r', hr', hok', hview, hset'⟩ := read_turn k hok hmeets
        have hnone : SettingsMeet Q r (toLink .read) := trivial
        exact ⟨r', hr', hok', hview, hset', linkStep_onSettings hmeets hnone hr'⟩
    obtain ⟨r', hr', hok', hview, hset', hmeets'⟩ := hnext
    obtain ⟨u, hu, hoku, hsetu, hviewu⟩ := ih hok' hmeets' (hview ▸ ⟨hmore, hrun⟩)
    exact ⟨u, .cons (hP r op hp) hr' hu, hoku, hsetu.trans hset', hviewu⟩

theorem toLink_polite {slack : Nat} {r : InputLink D} {op : ThrottleOp}
    (h : Throttle.Polite slack (r.view told) op) : Polite told slack r (toLink op) := by
  cases op with
  | put => exact h rfl
  | read => trivial

theorem toLink_window {r : InputLink D} {op : ThrottleOp}
    (h : Throttle.Quiet TTY_THROTTLE_THRESH (r.view told) op) : WindowKept r (toLink op) := by
  cases op with
  | put => exact h rfl
  | read => trivial

/-- A way that ends with one place left and a sender that may go on loses a character, once the settings
are such that characters are echoed. -/
theorem loses (k : TellsWhen Q drv told) {s : Attached D} (hs : FreshTty s.tty) (hgo : told s.dev = false)
    {t : Termios} (hset : Q s.tty.device t) (hecho : t.lFlag ECHO = true)
    {P : Throttle → ThrottleOp → Prop} {R : InputLink D → LinkOp → Prop}
    (hP : ∀ r op, P (r.view told) op → R r (toLink op)) (hfirst : R (linkStart s) (.settings t))
    {ops : List ThrottleOp} {u : Throttle} (hroom : u.room = 1) (hlast : P u .put)
    (h : RunsTo (Throttle.step TTY_BUFFER_SIZE TTY_THROTTLE_THRESH) (fun t op => P t op ∧ Throttle.Fits t op)
      ⟨1024, false, false, 0, .looking⟩ ops u) :
    ∃ ops r, Throughout (linkStep drv told) R (linkStart s) ops ∧
      Reaches (linkStep drv told) (linkStart s) ops r ∧ ¬ Lossless r := by
  let s' : Attached D := { s with tty := { s.tty with termios := t } }
  have hs' : FreshTty s'.tty := ⟨hs.isOpen, hs.empty, hs.unthrottled⟩
  obtain ⟨r, hr, hok, hset', hview⟩ :=
    follow k hP (linkStart_ok hs') (r := linkStart s') hset (linkStart_view hs' hgo ▸ h)
  have hfull : nTtyRecvRoom r.line.tty ≤ 1 := by
    have hroom' : (r.view told).room = 1 := hview ▸ hroom
    exact le_of_eq hroom'
  have hsetr : r.line.tty.termios = t := hset'
  obtain ⟨hflow, hign⟩ := letter_ordinary r.line.tty.termios
  obtain ⟨r', hr', hlost⟩ := arrive_lost drv told hok hflow hign (hsetr ▸ hecho) hfull
  have hall := (hr.cons hfirst rfl).append (.single (hP r .put (hview ▸ hlast)) hr')
  exact ⟨_, r', hall.throughout, Reaches.of_run hall.run, hlost⟩

/-- A step of a polite sender outside the window, and one that there is a place for. -/
def KeptStep (slack : Nat) (t : Throttle) (op : ThrottleOp) : Prop :=
  Throttle.Polite slack t op ∧ Throttle.Quiet TTY_THROTTLE_THRESH t op

instance (slack : Nat) (t : Throttle) (op : ThrottleOp) : Decidable (KeptStep slack t op) :=
  inferInstanceAs (Decidable (_ ∧ _))

/-- Between the check of the room and the release of the sender characters come in, and once it is released
as many come again before it stops. -/
theorem slack_used_twice : ∃ ops, RunsTo (Throttle.step TTY_BUFFER_SIZE TTY_THROTTLE_THRESH)
    (fun t op => KeptStep 63 t op ∧ Throttle.Fits t op) ⟨1024, false, false, 0, .looking⟩ ops
    ⟨1, true, true, 62, .looking⟩ := by
  have hfill : RunsTo (Throttle.step TTY_BUFFER_SIZE TTY_THROTTLE_THRESH)
      (fun t op => KeptStep 63 t op ∧ Throttle.Fits t op) ⟨1024, false, false, 0, .looking⟩
      (List.replicate 896 .put) ⟨128, false, false, 896, .looking⟩ :=
    Throttle.puts_runsTo (.inr (by decide)) (by decide) fun i _ =>
      ⟨fun _ hs => Bool.noConfusion hs, fun _ hr => ReaderAt.noConfusion hr⟩
  have hcheck : RunsTo (Throttle.step TTY_BUFFER_SIZE TTY_THROTTLE_THRESH)
      (fun t op => KeptStep 63 t op ∧ Throttle.Fits t op) ⟨128, false, false, 896, .looking⟩
      [.read, .read, .read, .put, .put] ⟨127, true, true, 0, .testing⟩ := ⟨by decide, rfl⟩
  have hlate : RunsTo (Throttle.step TTY_BUFFER_SIZE TTY_THROTTLE_THRESH)
      (fun t op => KeptStep 63 t op ∧ Throttle.Fits t op) ⟨127, true, true, 0, .testing⟩
      (List.replicate 63 .put) ⟨64, true, true, 63, .testing⟩ :=
    Throttle.puts_runsTo (.inl rfl) (by decide) fun i hi =>
      ⟨fun _ _ => by dsimp only; omega, fun _ hr => ReaderAt.noConfusion hr⟩
  have hrelease : RunsTo (Throttle.step TTY_BUFFER_SIZE TTY_THROTTLE_THRESH)
      (fun t op => KeptStep 63 t op ∧ Throttle.Fits t op) ⟨64, true, true, 63, .testing⟩
      [.read, .read, .read, .put] ⟨63, true, true, 0, .looking⟩ := ⟨by decide, rfl⟩
  have hagain : RunsTo (Throttle.step TTY_BUFFER_SIZE TTY_THROTTLE_THRESH)
      (fun t op => KeptStep 63 t op ∧ Throttle.Fits t op) ⟨63, true, true, 0, .looking⟩
      (List.replicate 62 .put) ⟨1, true, true, 62, .looking⟩ :=
    Throttle.puts_runsTo (.inl rfl) (by decide) fun i hi =>
      ⟨fun _ _ => by dsimp only; omega, fun _ hr => ReaderAt.noConfusion hr⟩
  exact ⟨_, hfill.append (hcheck.append (hlate.append (hrelease.append hagain)))⟩

/-- Between the two steps of `unthrottle_tty` a character sets the flag, and then the sender is
released. -/
theorem window_missed : ∃ ops, RunsTo (Throttle.step TTY_BUFFER_SIZE TTY_THROTTLE_THRESH)
    (fun t op => Throttle.Polite 1 t op ∧ Throttle.Fits t op) ⟨1024, false, false, 0, .looking⟩ ops
    ⟨1, true, false, 127, .looking⟩ := by
  have hfill : RunsTo (Throttle.step TTY_BUFFER_SIZE TTY_THROTTLE_THRESH)
      (fun t op => Throttle.Polite 1 t op ∧ Throttle.Fits t op) ⟨1024, false, false, 0, .looking⟩
      (List.replicate 896 .put) ⟨128, false, false, 896, .looking⟩ :=
    Throttle.puts_runsTo (.inr (by decide)) (by decide) fun i _ _ hs => Bool.noConfusion hs
  have hrelease : RunsTo (Throttle.step TTY_BUFFER_SIZE TTY_THROTTLE_THRESH)
      (fun t op => Throttle.Polite 1 t op ∧ Throttle.Fits t op) ⟨128, false, false, 896, .looking⟩
      [.put, .read, .read, .read, .read, .read, .put, .read] ⟨127, true, false, 1, .looking⟩ :=
    ⟨by decide, rfl⟩
  have hfree : RunsTo (Throttle.step TTY_BUFFER_SIZE TTY_THROTTLE_THRESH)
      (fun t op => Throttle.Polite 1 t op ∧ Throttle.Fits t op) ⟨127, true, false, 1, .looking⟩
      (List.replicate 126 .put) ⟨1, true, false, 127, .looking⟩ :=
    Throttle.puts_runsTo (.inl rfl) (by decide) fun i _ _ hs => Bool.noConfusion hs
  exact ⟨_, hfill.append (hrelease.append hfree)⟩

/-- With a sender that stops within 62 characters nothing is lost outside the window. -/
theorem window_kept_lossless (k : TellsWhen Q drv told) {s : Attached D} (hs : FreshTty s.tty)
    (hmeets : OnSettings Q s) (hgo : told s.dev = false) {slack : Nat}
    (hslack : 2 * slack + 3 ≤ TTY_THROTTLE_THRESH) {ops : List LinkOp} {r : InputLink D}
    (hkept : Throughout (linkStep drv told)
      (fun r op => SettingsMeet Q r op ∧ Polite told slack r op ∧ WindowKept r op) (linkStart s) ops)
    (hreach : Reaches (linkStep drv told) (linkStart s) ops r) : Lossless r :=
  (invariant_reaches (linkStep_paced k hslack)
    ⟨linkStart_ok hs, hmeets, linkStart_paced hs hgo hslack⟩ hkept hreach).1.order

/-- With a sender that sends nothing once it is told to stop, the window does no harm. -/
theorem silent_lossless (k : TellsWhen Q drv told) {s : Attached D} (hs : FreshTty s.tty)
    (hmeets : OnSettings Q s) (hgo : told s.dev = false) {ops : List LinkOp} {r : InputLink D}
    (hkept : Throughout (linkStep drv told) (fun r op => SettingsMeet Q r op ∧ Polite told 0 r op)
      (linkStart s) ops)
    (hreach : Reaches (linkStep drv told) (linkStart s) ops r) : Lossless r := by
  have hstep : ∀ (r : InputLink D) op t,
      LinkOk r ∧ OnSettings Q r.line ∧ (r.view told).Paced TTY_THROTTLE_THRESH 0 →
      SettingsMeet Q r op ∧ Polite told 0 r op → linkStep drv told r op = .ok t →
      LinkOk t ∧ OnSettings Q t.line ∧ (t.view told).Paced TTY_THROTTLE_THRESH 0 := by
    intro r op t h hq hstep
    refine linkStep_paced k (by decide) r op t h ⟨hq.1, hq.2, ?_⟩ hstep
    cases op with
    | arrive c =>
      -- the sender is stopped as long as the window is open
      intro htelling
      have hstop : told r.line.dev = true := by
        have hpaced := h.2.2
        rw [Throttle.Paced, show (r.view told).reader = .telling from htelling] at hpaced
        exact hpaced.1
      exact absurd (hq.2 hstop) (Nat.not_lt_zero _)
    | read => trivial
    | settings t => trivial
  exact (invariant_reaches hstep ⟨linkStart_ok hs, hmeets, linkStart_paced hs hgo (by decide)⟩ hkept
    hreach).1.order

end Link

/-! ## A serial line -/

/-- The line of a serial tty with hardware flow control that has just been opened. -/
structure RtsLine (i : Fin NR_SERIAL) (s : SerialLine) : Prop where
  fresh : FreshTty s.tty
  rtsCts : OnSettings (RtsCts i) s
  up : rtsDown i s.dev = false

/-- The default settings, with hardware flow control. -/
def ctsTermios : Termios := { defaultTermios with cflag := CRTSCTS }

section Serial
variable {i : Fin NR_SERIAL} {s : SerialLine}

theorem RtsLine.cts (h : RtsLine i s) : RtsCts i s.tty.device ctsTermios := ⟨h.rtsCts.1, by decide⟩

theorem toLink_settings (r : InputLink Ports) (op : ThrottleOp) :
    SettingsMeet (RtsCts i) r (toLink op) := by
  cases op with
  | put => trivial
  | read => trivial

/-- Whatever comes in and however the reader is interrupted, but for the window between the two steps of
`unthrottle_tty`, a serial line with hardware flow control loses no character, exactly if the sender stops
within 62 characters after request-to-send goes off. -/
theorem window_kept_lossless_iff (h : RtsLine i s) (slack : Nat) :
    (∀ ops r, Throughout (linkStep serialDriver (rtsDown i))
        (fun r op => SettingsMeet (RtsCts i) r op ∧ Polite (rtsDown i) slack r op ∧ WindowKept r op)
        (linkStart s) ops →
      Reaches (linkStep serialDriver (rtsDown i)) (linkStart s) ops r → Lossless r) ↔
      2 * slack + 3 ≤ TTY_THROTTLE_THRESH := by
  constructor
  · intro hlossless
    by_contra hover
    have hslack : 63 ≤ slack := by
      rw [TTY_THROTTLE_THRESH] at hover
      omega
    obtain ⟨way, hway⟩ := slack_used_twice
    have hkeeps : ∀ (r : InputLink Ports) op, KeptStep 63 (r.view (rtsDown i)) op →
        SettingsMeet (RtsCts i) r (toLink op) ∧ Polite (rtsDown i) slack r (toLink op) ∧
          WindowKept r (toLink op) := fun r op hkept =>
      ⟨toLink_settings r op, toLink_polite fun hput hs => (hkept.1 hput hs).trans_le hslack,
        toLink_window hkept.2⟩
    obtain ⟨ops, r, hkept, hreach, hlost⟩ := loses (serialDriver_tellsWhen i) h.fresh h.up h.cts (by decide)
      (R := fun r op => SettingsMeet (RtsCts i) r op ∧ Polite (rtsDown i) slack r op ∧ WindowKept r op)
      hkeeps ⟨h.cts, trivial, trivial⟩ rfl (by decide) hway
    exact hlost (hlossless ops r hkept hreach)
  · intro hslack ops r hkept hreach
    exact window_kept_lossless (serialDriver_tellsWhen i) h.fresh h.rtsCts h.up hslack hkept hreach

/-- With that window no sender is safe that sends anything at all after request-to-send went off. -/
theorem lossless_iff (h : RtsLine i s) (slack : Nat) :
    (∀ ops r, Throughout (linkStep serialDriver (rtsDown i))
        (fun r op => SettingsMeet (RtsCts i) r op ∧ Polite (rtsDown i) slack r op) (linkStart s) ops →
      Reaches (linkStep serialDriver (rtsDown i)) (linkStart s) ops r → Lossless r) ↔ slack = 0 := by
  constructor
  · intro hlossless
    by_contra hsome
    have hslack : 1 ≤ slack := Nat.pos_of_ne_zero hsome
    obtain ⟨way, hway⟩ := window_missed
    obtain ⟨ops, r, hkept, hreach, hlost⟩ := loses (serialDriver_tellsWhen i) h.fresh h.up h.cts (by decide)
      (R := fun r op => SettingsMeet (RtsCts i) r op ∧ Polite (rtsDown i) slack r op)
      (fun r op hkept => ⟨toLink_settings r op,
        toLink_polite fun hput hs => (hkept hput hs).trans_le hslack⟩)
      ⟨h.cts, trivial⟩ rfl (by decide) hway
    exact hlost (hlossless ops r hkept hreach)
  · rintro rfl ops r hkept hreach
    exact silent_lossless (serialDriver_tellsWhen i) h.fresh h.rtsCts h.up hkept hreach

end Serial

/-- The first port, opened by its tty, with hardware flow control. -/
def ctsLine : SerialLine := { openedLine with tty := { openedTty with termios := ctsTermios } }

theorem ctsLine_rts : RtsLine 0 ctsLine where
  fresh := ⟨openedTty_fresh.isOpen, rfl, rfl⟩
  rtsCts := ⟨by decide, by decide⟩
  up := by decide

/-- Outside the window 62 characters are not too many, and 63 are. -/
theorem window_kept_lossless_62 :
    (∀ ops r, Throughout (linkStep serialDriver (rtsDown 0))
        (fun r op => SettingsMeet (RtsCts 0) r op ∧ Polite (rtsDown 0) 62 r op ∧ WindowKept r op)
        (linkStart ctsLine) ops →
      Reaches (linkStep serialDriver (rtsDown 0)) (linkStart ctsLine) ops r → Lossless r) ∧
    ¬ ∀ ops r, Throughout (linkStep serialDriver (rtsDown 0))
        (fun r op => SettingsMeet (RtsCts 0) r op ∧ Polite (rtsDown 0) 63 r op ∧ WindowKept r op)
        (linkStart ctsLine) ops →
      Reaches (linkStep serialDriver (rtsDown 0)) (linkStart ctsLine) ops r → Lossless r :=
  ⟨(window_kept_lossless_iff ctsLine_rts 62).mpr (by decide), fun hlossless =>
    absurd ((window_kept_lossless_iff ctsLine_rts 63).mp hlossless) (by decide)⟩

/-- One character after request-to-send went off is enough to lose some. -/
theorem lossless_one :
    ¬ ∀ ops r, Throughout (linkStep serialDriver (rtsDown 0))
        (fun r op => SettingsMeet (RtsCts 0) r op ∧ Polite (rtsDown 0) 1 r op) (linkStart ctsLine) ops →
      Reaches (linkStep serialDriver (rtsDown 0)) (linkStart ctsLine) ops r → Lossless r :=
  fun hlossless => absurd ((lossless_iff ctsLine_rts 1).mp hlossless) (by decide)

end Ohwes

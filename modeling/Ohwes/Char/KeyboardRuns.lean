import Mathlib.Tactic.Tauto
import Ohwes.Char.KeyScan

/-! # Runs of the keyboard's interrupt handler

From `init_kb` on, the handler fails no assertion and stays inside its maps exactly as long as no key
byte arrives while both prefixes are open (`keyboard_safe_iff`). Which prefixes are open is a matter
of the bytes alone: `0xE0` is for the next key byte, and `0xE1` up to the scan code 0x45. -/

namespace Ohwes
set_option autoImplicit false
open Library

/-! ## `init_kb` -/

section Init
variable {w : KbWorld}

theorem ps2Read_clean (d : Ps2) : Clean (fun _ => True) (ps2Read d) := by
  unfold ps2Read
  split <;> simp

theorem testPort2_clean (port2 : Bool) (d : Ps2) : Clean (fun _ => True) (testPort2 port2 d) := by
  cases port2 with
  | false => exact trivial
  | true =>
    refine (ps2Cmd_clean d).bind fun d _ => (ps2Read_clean d).bind ?_
    rintro ⟨resp, d⟩ -
    dsimp only
    split
    · exact clean_panic
    · exact ps2Cmd_clean d

theorem enablePorts_clean (port2 : Bool) (d : Ps2) :
    Clean (fun _ => True) (enablePorts port2 d) := by
  refine (ps2Cmd_clean d).bind fun d _ => (ps2Cmd_clean d).bind fun d _ =>
    (ps2Cmd_clean d).bind fun d _ => ?_
  cases port2 with
  | false => exact trivial
  | true => exact ps2Cmd_clean d

theorem initPs2_clean (d : Ps2) : Clean (fun _ => True) (initPs2 d) := by
  refine (ps2Cmd_clean d).bind fun d _ => (ps2Cmd_clean d).bind fun d _ =>
    (ps2Cmd_clean _).bind fun d _ => (ps2Cmd_clean d).bind fun d _ => (ps2Read_clean d).bind ?_
  rintro ⟨cfg, d⟩ -
  refine (ps2Cmd_clean d).bind fun d _ => (ps2Read_clean d).bind ?_
  rintro ⟨resp, d⟩ -
  dsimp only
  split
  · exact clean_panic
  refine (ps2Cmd_clean d).bind fun d _ => (ps2Read_clean d).bind ?_
  rintro ⟨resp, d⟩ -
  dsimp only
  split
  · exact clean_panic
  exact (testPort2_clean _ d).bind fun d _ => (enablePorts_clean _ d).bind fun d _ => trivial

theorem kbIdent_clean : Clean (fun r => r.2.kb.scan = w.kb.scan) (kbIdent w) := by
  refine kbSendcmd_clean.bind ?_
  rintro ⟨ack, v⟩ hv
  cases ack with
  | false => exact hv
  | true => exact (kbRdport_scan.trans kbRdport_scan).trans hv

theorem kbTypematic_clean : Clean (fun r => r.2.kb.scan = w.kb.scan) (kbTypematic TYPEMATIC_BYTE w) := by
  rw [kbTypematic, show (TYPEMATIC_BYTE &&& 0x80 == 0) = true from rfl, assert_true, ok_bind]
  refine kbSendcmd_clean.bind ?_
  rintro ⟨ack, v⟩ hv
  cases ack with
  | false => exact hv
  | true =>
    refine kbSenddata_clean.bind ?_
    rintro ⟨b, u⟩ hu
    exact hu.trans hv

theorem kbScancodeCmd_clean : Clean (fun v => v.kb.scan = w.kb.scan) (kbScancodeCmd w) := by
  refine kbSendcmd_clean.bind ?_
  rintro ⟨ack, v⟩ hv
  refine kbSenddata_clean.bind ?_
  rintro ⟨b, u⟩ hu
  exact hu.trans hv

/-- Only the scan code set changes, and where the call succeeds it is the one asked for. -/
def Selected (s : KeyScan) (r : Bool × KbWorld) : Prop :=
  (r.1 = true → r.2.kb.scancodeSet = 1) ∧ r.2.kb.scan = { s with set := r.2.kb.scancodeSet }

theorem Selected.same {s : KeyScan} {v : KbWorld} (h : v.kb.scan = s) : Selected s (false, v) := by
  subst h
  exact ⟨by simp, rfl⟩

theorem Selected.set {s : KeyScan} {v : KbWorld} (h : v.kb.scan = s) (ok : Bool) {set : Byte}
    (hset : ok = true → set = 1) :
    Selected s (ok, { v with kb := { v.kb with scancodeSet := set } }) := by
  subst h
  exact ⟨hset, rfl⟩

theorem kbScset_clean : Clean (Selected w.kb.scan) (kbScset 1 w) := by
  rw [kbScset, show (0 < (1 : Byte) && (1 : Byte) ≤ 3) = true from rfl, assert_true, ok_bind]
  refine kbSendcmd_clean.bind ?_
  rintro ⟨ack, v⟩ hv
  cases ack with
  | false => exact Selected.same hv
  | true =>
    refine kbSenddata_clean.bind ?_
    rintro ⟨b, u⟩ hu
    have hscan : (kbRdport u).2.kb.scan = w.kb.scan := kbRdport_scan.trans (hu.trans hv)
    dsimp only [Bool.not_true, Bool.false_eq_true, if_false]
    split
    · exact kbScancodeCmd_clean.bind fun x hx => Selected.set (hx.trans hscan) _ fun _ => rfl
    refine kbScancodeCmd_clean.bind fun x hx => kbScancodeCmd_clean.bind fun y hy => ?_
    have hy' : (kbRdport y).2.kb.scan = w.kb.scan :=
      kbRdport_scan.trans (hy.trans (hx.trans hscan))
    split
    · exact Selected.set hy' _ fun _ => rfl
    · exact kbScancodeCmd_clean.bind fun z hz => Selected.set (hz.trans hy') _ (by simp)

theorem kbSet1_clean : Clean (fun v => v.kb.scan = { w.kb.scan with set := 1 }) (kbSet1 w) := by
  refine kbScset_clean.bind ?_
  rintro ⟨ok, v⟩ ⟨hset, hscan⟩
  cases ok with
  | true => exact hscan.trans (by rw [hset rfl])
  | false =>
    refine (ps2Cmd_clean _).bind fun d _ => (ps2Cmd_clean d).bind fun d _ => ?_
    exact congrArg (fun s : KeyScan => { s with set := 1 }) hscan

/-- The scan state after initialisation. -/
def KeyScan.start : KeyScan := ⟨1, false, false, 0, 0, 0, 0, 0⟩

theorem initKb_clean (d : Ps2) : Clean (fun w => w.kb.scan = KeyScan.start) (initKb d) := by
  refine (initPs2_clean d).bind fun d _ => kbDisable_clean.bind fun v₀ h₀ => kbSendcmd_clean.bind ?_
  rintro ⟨a₁, v₁⟩ h₁
  refine (ps2Cmd_clean _).bind fun d _ => (ps2Read_clean d).bind ?_
  rintro ⟨cfg, d⟩ -
  refine (ps2Cmd_clean d).bind fun d _ => (ps2Cmd_clean d).bind fun d _ => kbIdent_clean.bind ?_
  rintro ⟨a₂, v₂⟩ h₂
  refine kbTypematic_clean.bind ?_
  rintro ⟨a₃, v₃⟩ h₃
  refine kbSet1_clean.bind fun v₄ h₄ => kbEnable_clean.bind fun v₅ h₅ => kbSendcmd_clean.bind ?_
  rintro ⟨a₆, v₆⟩ h₆
  refine updateLeds_clean.mono fun v₇ h₇ => ?_
  have hzero : v₃.kb.scan = { KeyScan.start with set := 0 } :=
    h₃.trans (h₂.trans (h₁.trans (congrArg Kb.scan h₀)))
  calc v₇.kb.scan
    _ = v₆.kb.scan := h₇
    _ = v₅.kb.scan := h₆
    _ = v₄.kb.scan := congrArg Kb.scan h₅
    _ = { v₃.kb.scan with set := 1 } := h₄
    _ = KeyScan.start := by rw [hzero]; rfl

end Init

/-! ## The bytes of a run -/

/-- One interrupt of the keyboard. -/
def kbStep (w : KbWorld) (i : KbIrq) : Call KbWorld := kbInterrupt IRQ_KEYBOARD i w

/-- The handling of the interrupt fails no assertion and reads no map out of its range. -/
def HandledSafely (w : KbWorld) (i : KbIrq) : Prop :=
  kbStep w i ≠ .error .assertion ∧ kbStep w i ≠ .error .fault

/-- Which prefixes are open, `0xE0` and `0xE1`, after one more byte. -/
def openPrefixes (p : Bool × Bool) (sc : Byte) : Bool × Bool :=
  if isReply sc then p
  else if sc = 0xE0 then (true, p.2)
  else if sc = 0xE1 then (p.1, true)
  else (false, p.2 && sc &&& 0x7F != 0x45)

/-- After these bytes, the byte of a key finds both prefixes open. -/
def MixedPrefixes (bytes : List Byte) (sc : Byte) : Prop :=
  bytes.foldl openPrefixes (false, false) = (true, true) ∧ isKeyByte sc = true

instance (bytes : List Byte) (sc : Byte) : Decidable (MixedPrefixes bytes sc) :=
  inferInstanceAs (Decidable (_ ∧ _))

section Runs
variable {w v : KbWorld} {irqs : List KbIrq}

/-- An interrupt that comes back has done to the scan state what the byte means. -/
theorem kbStep_ok {i : KbIrq} (hset : w.kb.scancodeSet = 1) (h : kbStep w i = .ok v) :
    ¬ Mixed w.kb i.sc ∧ v.kb.scan = w.kb.scan.next i.sc := by
  by_cases hm : Mixed w.kb i.sc
  · cases hp : i.ps2.accepts with
    | true =>
      rw [kbStep, kbInterrupt_mixed i hset hm hp] at h
      cases h
    | false => exact ((kbInterrupt_stuck i hp).of_ok h).elim
  · exact ⟨hm, (kbInterrupt_clean i hset hm).of_ok h⟩

theorem next_set (s : KeyScan) (sc : Byte) : (s.next sc).set = s.set := by
  unfold KeyScan.next
  split_ifs <;> rfl

theorem run_scan (hset : w.kb.scancodeSet = 1) (h : run kbStep w irqs = .ok v) :
    v.kb.scan = (irqs.map KbIrq.sc).foldl KeyScan.next w.kb.scan ∧ v.kb.scancodeSet = 1 := by
  induction irqs generalizing w with
  | nil =>
    cases h
    exact ⟨rfl, hset⟩
  | cons i irqs ih =>
    obtain ⟨u, hu, hr⟩ := (run_cons_ok kbStep).mp h
    have hscan := (kbStep_ok hset hu).2
    have hset' : u.kb.scancodeSet = 1 := (congrArg KeyScan.set hscan).trans ((next_set _ _).trans hset)
    obtain ⟨hv, hvset⟩ := ih hset' hr
    exact ⟨by rw [hv, hscan]; rfl, hvset⟩

/-- Num Lock has one place in the map. -/
theorem scanmap_numlk : ∀ n : Fin 128, scanmap.getD n 0 = KEY_NUMLK ↔ n.val = 0x45 := by
  decide +kernel

theorem endsPause_eq {s : KeyScan} (sc : Byte) (h0 : s.e0 = false) :
    s.endsPause sc = (s.e1 && sc &&& 0x7F == 0x45) := by
  have hn := scanmap_numlk ⟨_, index_lt sc⟩
  have hsc : (sc &&& 0x7F).toNat = 0x45 ↔ sc &&& 0x7F = 0x45 := by
    constructor
    · exact fun h => BitVec.eq_of_toNat_eq h
    · exact fun h => congrArg BitVec.toNat h
  rw [KeyScan.endsPause, KeyScan.mapped, h0]
  congr 1
  rw [Bool.eq_iff_iff, beq_iff_eq, beq_iff_eq]
  exact hn.trans hsc

theorem next_prefixes {s : KeyScan} {sc : Byte}
    (h : ¬ (s.e0 = true ∧ s.e1 = true ∧ isKeyByte sc = true)) :
    ((s.next sc).e0, (s.next sc).e1) = openPrefixes (s.e0, s.e1) sc := by
  unfold KeyScan.next openPrefixes
  split_ifs with hr h0 h1
  · rfl
  · rfl
  · rfl
  · have hkey : isKeyByte sc = true := isKeyByte_iff.mpr ⟨by simpa using hr, h0, h1⟩
    cases he : s.e1 with
    | false => simp [KeyScan.modifiers, KeyScan.decoded, he]
    | true =>
      have he0 : s.e0 = false := by simpa [he, hkey] using h
      simp only [KeyScan.modifiers, KeyScan.decoded, endsPause_eq sc he0, he, Bool.true_and, bne]

/-- The prefixes the driver remembers are those that the bytes so far have left open. -/
theorem run_prefixes (hset : w.kb.scancodeSet = 1) (h : run kbStep w irqs = .ok v) :
    (v.kb.e0, v.kb.e1) = (irqs.map KbIrq.sc).foldl openPrefixes (w.kb.e0, w.kb.e1) := by
  induction irqs generalizing w with
  | nil =>
    cases h
    rfl
  | cons i irqs ih =>
    obtain ⟨u, hu, hr⟩ := (run_cons_ok kbStep).mp h
    obtain ⟨hm, hscan⟩ := kbStep_ok hset hu
    have hset' : u.kb.scancodeSet = 1 := (congrArg KeyScan.set hscan).trans ((next_set _ _).trans hset)
    have hp : (u.kb.e0, u.kb.e1) = openPrefixes (w.kb.e0, w.kb.e1) i.sc :=
      (congrArg (fun s : KeyScan => (s.e0, s.e1)) hscan).trans (next_prefixes hm)
    rw [ih hset' hr, hp]
    rfl

/-- An interrupt goes wrong exactly when its byte is read and is one of those. -/
theorem handledSafely_iff {i : KbIrq} (hset : w.kb.scancodeSet = 1) :
    HandledSafely w i ↔ ¬ (i.ps2.accepts = true ∧ Mixed w.kb i.sc) := by
  constructor
  · rintro hsafe ⟨hp, hm⟩
    exact hsafe.1 (kbInterrupt_mixed i hset hm hp)
  · intro h
    by_cases hm : Mixed w.kb i.sc
    · exact (kbInterrupt_stuck i (by simpa [hm] using h)).ne
    · exact (kbInterrupt_clean i hset hm).ne

end Runs

theorem keyboard_safe_iff (d : Ps2) (w : KbWorld) (h : initKb d = .ok w) (irqs : List KbIrq) :
    Throughout kbStep HandledSafely w irqs ↔
      ∀ pre i post v, irqs = pre ++ i :: post → run kbStep w pre = .ok v →
        ¬ (i.ps2.accepts = true ∧ MixedPrefixes (pre.map KbIrq.sc) i.sc) := by
  have hscan := (initKb_clean d).of_ok h
  have hset : w.kb.scancodeSet = 1 := congrArg KeyScan.set hscan
  have hstart : (w.kb.e0, w.kb.e1) = (false, false) :=
    congrArg (fun s : KeyScan => (s.e0, s.e1)) hscan
  rw [throughout_iff_split]
  refine forall_congr' fun pre => forall_congr' fun i => forall_congr' fun post =>
    forall_congr' fun v => forall_congr' fun _ => forall_congr' fun hr => ?_
  have hp := run_prefixes hset hr
  rw [hstart] at hp
  rw [handledSafely_iff (run_scan hset hr).2, MixedPrefixes, ← hp, Mixed, Prod.mk.injEq, and_assoc]

/-- A keyboard without a mouse next to it that acknowledges every command. -/
def plainKeyboard : Ps2 where
  input := [none, some 0x20, some 0x55, some 0x00, none, none, some 0xFA, none, some 0x61,
    some 0xFA, some 0xAB, some 0x83, some 0xFA, some 0xFA, some 0xFA, some 0xFA, some 0x02,
    some 0xFA, some 0xFA, some 0xFA, some 0xFA, some 0x01, some 0xFA, none, some 0xFA, some 0xFA]
  output := []

/-- The driver after the initialisation of that keyboard. -/
def plainKb : KbWorld where
  kb := { Kb.zero with
    ident := (0xAB, 0x83)
    leds := PS2KB_LED_NUMLK
    typematic := true
    typematicByte := TYPEMATIC_BYTE
    scancodeSet := 1
    numlk := 1 }
  ps2 := ⟨[], []⟩
  received := []
  terminals := []
  crashkey := 0

/-- A byte from that keyboard, with a terminal that takes every character. -/
def plainByte (sc : Byte) : KbIrq := ⟨sc, ⟨[], []⟩, true, true, fun _ => 0⟩

theorem keyboard_safe_plain : Throughout kbStep HandledSafely plainKb [plainByte 0x1E] := by
  refine (keyboard_safe_iff plainKeyboard plainKb (by decide) _).mpr ?_
  rintro pre i post v he - ⟨-, hm⟩
  cases pre with
  | nil => exact absurd hm.1 (by decide)
  | cons j pre => simp at he

/-- `E0` and `E1`, then the key `A`. -/
theorem both_prefixes_assert : ¬ ∀ (d : Ps2) (w : KbWorld) (irqs : List KbIrq),
    initKb d = .ok w → Throughout kbStep HandledSafely w irqs := by
  intro h
  have hrun := h plainKeyboard plainKb [plainByte 0xE0, plainByte 0xE1, plainByte 0x1E] (by decide)
  have hsplit := throughout_iff_split.mp hrun [plainByte 0xE0, plainByte 0xE1] (plainByte 0x1E) []
    { plainKb with kb := { plainKb.kb with e0 := true, e1 := true } } rfl rfl
  exact hsplit.1 (by rfl)

end Ohwes

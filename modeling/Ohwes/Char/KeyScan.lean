import Mathlib.Tactic.SplitIfs
import Ohwes.Char.Keyboard

/-! # What the keyboard driver remembers of the scan codes

`KeyScan` is the part of `struct kb` that the scan codes act on: the prefixes seen and the modifiers
down. `KeyScan.next` is what a byte does to it, and `kbInterrupt_scan` says that the handler does just
that, whatever else it is busy with. The one exception is a key byte that finds both prefixes
(`Mixed`): there the assertion fails, `kbInterrupt_mixed`. -/

namespace Ohwes
set_option autoImplicit false

structure KeyScan where
  set : Byte
  e0 : Bool
  e1 : Bool
  ctrl : BitVec 32
  alt : BitVec 32
  shift : BitVec 32
  metaKey : BitVec 32
  sysrq : BitVec 32
  deriving DecidableEq, Repr

def Kb.scan (kb : Kb) : KeyScan :=
  ⟨kb.scancodeSet, kb.e0, kb.e1, kb.ctrl, kb.alt, kb.shift, kb.metaKey, kb.sysrq⟩

/-- Answers to commands, and errors. -/
def isReply (sc : Byte) : Bool :=
  sc == 0xFA || sc == 0xFE || sc == 0xFC || sc == 0xFD || sc == 0xFF || sc == 0x00

theorem isReply_iff {sc : Byte} : isReply sc = true ↔
    sc = 0xFA ∨ sc = 0xFE ∨ sc = 0xFC ∨ sc = 0xFD ∨ sc = 0xFF ∨ sc = 0x00 := by
  simp only [isReply, Bool.or_eq_true, beq_iff_eq, or_assoc]

/-- A byte that makes or breaks a key. -/
def isKeyByte (sc : Byte) : Bool := !isReply sc && sc != 0xE0 && sc != 0xE1

theorem isKeyByte_iff {sc : Byte} :
    isKeyByte sc = true ↔ isReply sc = false ∧ sc ≠ 0xE0 ∧ sc ≠ 0xE1 := by
  simp only [isKeyByte, Bool.and_eq_true, Bool.not_eq_true', bne_iff_ne, and_assoc]

/-- Both prefixes have been seen, and the byte of a key follows. -/
def Mixed (kb : Kb) (sc : Byte) : Prop := kb.e0 = true ∧ kb.e1 = true ∧ isKeyByte sc = true

instance (kb : Kb) (sc : Byte) : Decidable (Mixed kb sc) := inferInstanceAs (Decidable (_ ∧ _))

namespace KeyScan

/-- The entry of the map that the prefix selects. -/
def mapped (s : KeyScan) (sc : Byte) : Nat :=
  (if s.e0 then scanmapE0 else scanmap).getD (sc &&& 0x7F).toNat 0

def endsPause (s : KeyScan) (sc : Byte) : Bool := s.e1 && s.mapped sc == KEY_NUMLK

def keyCode (s : KeyScan) (sc : Byte) : Nat :=
  if s.endsPause sc then KEY_PAUSE else s.mapped sc

def modifiers (s : KeyScan) (key : Nat) (release : Bool) : KeyScan :=
  { s with
    ctrl := handleModifier key KEY_LCTRL KEY_RCTRL release s.ctrl
    alt := handleModifier key KEY_LALT KEY_RALT release s.alt
    shift := handleModifier key KEY_LSHIFT KEY_RSHIFT release s.shift
    metaKey := handleModifier key KEY_LWIN KEY_RWIN release s.metaKey
    sysrq := handleModifier key KEY_SYSRQ 0 release s.sysrq }

/-- The prefixes after the byte of a key. -/
def decoded (s : KeyScan) (sc : Byte) : KeyScan :=
  { s with e0 := false, e1 := s.e1 && !s.endsPause sc }

def next (s : KeyScan) (sc : Byte) : KeyScan :=
  if isReply sc then s
  else if sc = 0xE0 then { s with e0 := true }
  else if sc = 0xE1 then { s with e1 := true }
  else (s.decoded sc).modifiers (s.keyCode sc) (isRelease sc)

end KeyScan

/-! ## The port and the LEDs -/

section Frames
variable {w : KbWorld}

@[simp] theorem kbRdport_scan : (kbRdport w).2.kb.scan = w.kb.scan := by
  unfold kbRdport
  split
  · rfl
  · split <;> rfl

theorem kbWrport_clean : Clean (fun v => v.kb.scan = w.kb.scan) (kbWrport w) := by
  unfold kbWrport
  split <;> simp

theorem kbSendcmdLoop_clean (n : Nat) :
    Clean (fun r => r.2.kb.scan = w.kb.scan) (kbSendcmdLoop n w) := by
  induction n generalizing w with
  | zero => simp [kbSendcmdLoop]
  | succ n ih =>
    refine kbWrport_clean.bind fun v hv => ?_
    split
    · simpa using hv
    · split
      · exact ih.mono fun r hr => by rw [hr, kbRdport_scan, hv]
      · simpa using hv

theorem kbSendcmd_clean : Clean (fun r => r.2.kb.scan = w.kb.scan) (kbSendcmd w) :=
  kbSendcmdLoop_clean RETRY_COUNT

theorem kbSenddata_clean : Clean (fun r => r.2.kb.scan = w.kb.scan) (kbSenddata w) := by
  refine kbWrport_clean.bind fun v hv => ?_
  simpa using hv

theorem ps2Cmd_clean (d : Ps2) : Clean (fun _ => True) (ps2Cmd d) := by
  unfold ps2Cmd ps2Write
  split <;> simp

theorem kbDisable_clean : Clean (fun v => v.kb = w.kb) (kbDisable w) :=
  (ps2Cmd_clean w.ps2).map fun _ _ => rfl

theorem kbEnable_clean : Clean (fun v => v.kb = w.kb) (kbEnable w) :=
  (ps2Cmd_clean w.ps2).map fun _ _ => rfl

theorem kbSetleds_clean (leds : BitVec 32) :
    Clean (fun r => r.2.kb.scan = w.kb.scan) (kbSetleds leds w) := by
  refine kbSendcmd_clean.bind ?_
  rintro ⟨ack, v⟩ hv
  cases ack with
  | false => exact hv
  | true =>
    refine kbSenddata_clean.bind ?_
    rintro ⟨b, u⟩ hu
    exact hu.trans hv

theorem updateLeds_clean : Clean (fun v => v.kb.scan = w.kb.scan) (updateLeds w) := by
  rw [updateLeds]
  split
  · exact (kbSetleds_clean w.kb.toggleLeds).map (R := fun v : KbWorld => v.kb.scan = w.kb.scan) fun r hr => hr
  · exact rfl

/-! ## After the modifiers -/

theorem readMap_lt {α : Type} {map : List α} {n : Nat} (h : n < map.length) :
    readMap map n = .ok (map.get ⟨n, h⟩) := by
  simp [readMap, h]

theorem and_mask_lt (key n : Nat) : key &&& (2 ^ n - 1) < 2 ^ n := by
  rw [Nat.and_two_pow_sub_one_eq_mod]
  exact Nat.mod_lt _ (Nat.two_pow_pos n)

theorem kbPutq_clean (i : KbIrq) (c : Byte) :
    Clean (fun v => v.kb.scan = w.kb.scan) (kbPutq i c w) := by
  unfold kbPutq
  split_ifs <;> simp [Kb.scan]

theorem kbPuts_clean (i : KbIrq) (str : CString) :
    Clean (fun v => v.kb.scan = w.kb.scan) (kbPuts i str w) := by
  induction str generalizing w with
  | nil => exact rfl
  | cons c str ih =>
    refine (kbPutq_clean i c).bind fun v hv => ?_
    exact ih.mono fun u hu => hu.trans hv

theorem sysrq_clean (c : Byte) : Clean (fun v => v.kb.scan = w.kb.scan) (sysrq c w) := by
  unfold sysrq hardReset
  split_ifs <;> simp

theorem keyChar_ok (key : Nat) (kb : Kb) : ∃ c, keyChar key kb = .ok c := by
  unfold keyChar
  split
  · exact ⟨_, readMap_lt (keymapShift_length ▸ and_mask_lt key 7)⟩
  · exact ⟨_, readMap_lt (keymap_length ▸ and_mask_lt key 8)⟩

theorem kbCharacter_clean (i : KbIrq) (key : Nat) :
    Clean (fun v => v.kb.scan = w.kb.scan) (kbCharacter i key w) := by
  obtain ⟨c, hc⟩ := keyChar_ok key w.kb
  rw [kbCharacter, hc, ok_bind]
  dsimp only
  split_ifs
  · exact rfl
  · exact kbPuts_clean i _
  all_goals first | exact sysrq_clean _ | exact kbPuts_clean i _ | exact kbPutq_clean i _

theorem noteCrashkey_kb (key : Nat) : (noteCrashkey key w).kb = w.kb := by
  unfold noteCrashkey
  split <;> rfl

theorem kbPress_clean (i : KbIrq) (key : Nat) :
    Clean (fun v => v.kb.scan = w.kb.scan) (kbPress i key w) := by
  have hk := congrArg Kb.scan (noteCrashkey_kb key (w := w))
  unfold kbPress hardReset
  dsimp only
  split_ifs
  · simp
  · simp
  · exact hk
  · exact hk
  · exact (kbCharacter_clean i key).mono fun v hv => hv.trans hk

theorem kbKeystroke_clean (i : KbIrq) (key : Nat) (release : Bool) :
    Clean (fun v => v.kb.scan = w.kb.scan) (kbKeystroke i key release w) := by
  unfold kbKeystroke
  split_ifs
  · exact (kbPutq_clean i w.kb.altchar).map (R := fun v : KbWorld => v.kb.scan = w.kb.scan) fun v hv => hv
  · exact rfl
  · exact kbPress_clean i key

/-! ## The modifiers -/

theorem numlkOff_cases (key : Nat) :
    numlkOff key = key ∨ KEY_KPDOT ≤ key ∧ KEY_KPDOT ≤ numlkOff key := by
  unfold numlkOff
  split_ifs with h h h h h h h h h h
  all_goals first
    | exact Or.inl rfl
    | subst h; exact Or.inr (by decide)

/-- Num Lock does not turn a key into one with a low key code, nor such a key into another. -/
theorem numlkOff_eq_iff {key m : Nat} (h : m < KEY_KPDOT) : numlkOff key = m ↔ key = m := by
  obtain hk | hk := numlkOff_cases key
  · rw [hk]
  · omega

theorem handleModifier_numlkOff (key : Nat) {l r : Nat} (hl : l < KEY_KPDOT) (hr : r < KEY_KPDOT)
    (release : Bool) (state : BitVec 32) :
    handleModifier (numlkOff key) l r release state = handleModifier key l r release state := by
  simp only [handleModifier, numlkOff_eq_iff hl, numlkOff_eq_iff hr]

theorem kbModifiers_scan (key : Nat) (release : Bool) (kb : Kb) :
    (kbModifiers key release kb).scan = kb.scan.modifiers key release := rfl

theorem modifiers_numlkOff (s : KeyScan) (key : Nat) (release : Bool) :
    s.modifiers (numlkOff key) release = s.modifiers key release := by
  unfold KeyScan.modifiers
  congr 1 <;> exact handleModifier_numlkOff key (by decide) (by decide) release _

theorem kbKey_clean (i : KbIrq) (key : Nat) (release : Bool) :
    Clean (fun v => v.kb.scan = w.kb.scan.modifiers key release) (kbKey i key release w) := by
  refine updateLeds_clean.bind fun v hv => ?_
  refine (kbKeystroke_clean i _ release).mono fun u hu => ?_
  rw [hu, kbModifiers_scan, hv]
  split
  · exact modifiers_numlkOff _ key release
  · rfl

/-! ## The handler -/

theorem readMap_getD {map : List Nat} {n : Nat} (h : n < map.length) :
    readMap map n = .ok (map.getD n 0) := by
  simp [readMap, h]

theorem index_lt (sc : Byte) : (sc &&& 0x7F).toNat < 128 := by
  rw [BitVec.toNat_and]
  exact and_mask_lt sc.toNat 7

theorem scanKey_eq (sc : Byte) (kb : Kb) :
    scanKey (sc &&& 0x7F).toNat kb = .ok (kb.scan.mapped sc) := by
  rw [scanKey, KeyScan.mapped, show kb.scan.e0 = kb.e0 from rfl]
  cases kb.e0
  · exact readMap_getD (scanmap_length ▸ index_lt sc)
  · exact readMap_getD (scanmapE0_length ▸ index_lt sc)

theorem endE0_ok {kb : Kb} (h : ¬ (kb.e0 = true ∧ kb.e1 = true)) :
    endE0 kb = .ok { kb with e0 := false } := by
  obtain he | he := Bool.eq_false_or_eq_true kb.e0
  · have h1 : kb.e1 = false := by simpa [he] using h
    rw [endE0, he, h1]
    rfl
  · rw [endE0, he]
    simp [← he]

theorem endE1_ok (key : Nat) {kb : Kb} (h : kb.e0 = false) :
    endE1 key kb = .ok (if kb.e1 && key == KEY_NUMLK then KEY_PAUSE else key,
      { kb with e1 := kb.e1 && !(kb.e1 && key == KEY_NUMLK) }) := by
  obtain he | he := Bool.eq_false_or_eq_true kb.e1
  · rw [endE1, if_pos he, h]
    by_cases hk : key = KEY_NUMLK
    · simp [hk, he, Except.map]
    · have hb : (key == KEY_NUMLK) = false := beq_eq_false_iff_ne.mpr hk
      simp [hk, hb, he, Except.map, show { kb with e0 := false, e1 := true } = kb by rw [← he, ← h]]
  · rw [endE1, if_neg (by simp [he])]
    simp [he, show { kb with e1 := false } = kb by rw [← he]]

theorem kbDecode_ok (sc : Byte) {kb : Kb} (h : ¬ (kb.e0 = true ∧ kb.e1 = true)) :
    ∃ kb', kbDecode sc kb = .ok (kb.scan.keyCode sc, kb') ∧ kb'.scan = kb.scan.decoded sc := by
  rw [kbDecode, scanKey_eq, ok_bind, endE0_ok h, ok_bind, endE1_ok _ rfl]
  exact ⟨_, rfl, rfl⟩

theorem kbDecode_mixed {sc : Byte} {kb : Kb} (h0 : kb.e0 = true) (h1 : kb.e1 = true) :
    kbDecode sc kb = .error .assertion := by
  rw [kbDecode, scanKey_eq, ok_bind, endE0, h0, h1]
  rfl

theorem kbScancode_clean (i : KbIrq) (hset : w.kb.scancodeSet = 1) (hrep : isReply i.sc = false)
    (h : ¬ Mixed w.kb i.sc) :
    Clean (fun v => v.kb.scan = w.kb.scan.next i.sc) (kbScancode i w) := by
  rw [kbScancode, hset, KeyScan.next, hrep]
  dsimp only [beq_self_eq_true, assert_true, ok_bind]
  by_cases h0 : i.sc = 0xE0
  · simp [h0, Kb.scan]
  by_cases h1 : i.sc = 0xE1
  · simp [h1, Kb.scan]
  have hkey := isKeyByte_iff.mpr ⟨hrep, h0, h1⟩
  have hboth : ¬ (w.kb.e0 = true ∧ w.kb.e1 = true) := fun hb => h ⟨hb.1, hb.2, hkey⟩
  obtain ⟨kb', hd, hs⟩ := kbDecode_ok i.sc hboth
  simp only [h0, h1, if_false, hd, ok_bind, Bool.false_eq_true]
  rw [← hs]
  exact kbKey_clean i _ _

theorem kbScancode_mixed (i : KbIrq) (hset : w.kb.scancodeSet = 1) (h : Mixed w.kb i.sc) :
    kbScancode i w = .error .assertion := by
  obtain ⟨he0, he1, hkey⟩ := h
  obtain ⟨-, h0, h1⟩ := isKeyByte_iff.mp hkey
  rw [kbScancode, hset, beq_self_eq_true, assert_true, ok_bind, if_neg h0, if_neg h1, kbDecode_mixed he0 he1]
  rfl

theorem kbByte_of_not_reply (i : KbIrq) (h : isReply i.sc = false) :
    kbByte i w = kbScancode i w := by
  have hne := fun hor => Bool.eq_false_iff.mp h (isReply_iff.mpr hor)
  unfold kbByte
  rw [if_neg (by tauto), if_neg (by tauto), if_neg (by tauto)]

theorem kbByte_reply (i : KbIrq) (h : isReply i.sc = true) :
    ∃ v, kbByte i w = .ok v ∧ v.kb.scan = w.kb.scan := by
  rw [isReply_iff] at h
  unfold kbByte
  by_cases ha : i.sc = 0xFA
  · exact ⟨_, if_pos ha, rfl⟩
  by_cases hr : i.sc = 0xFE
  · exact ⟨_, (if_neg ha).trans (if_pos hr), rfl⟩
  · rw [if_neg ha, if_neg hr, if_pos (by tauto)]
    exact ⟨_, rfl, rfl⟩

theorem kbByte_clean (i : KbIrq) (hset : w.kb.scancodeSet = 1) (h : ¬ Mixed w.kb i.sc) :
    Clean (fun v => v.kb.scan = w.kb.scan.next i.sc) (kbByte i w) := by
  cases hrep : isReply i.sc with
  | false =>
    rw [kbByte_of_not_reply i hrep]
    exact kbScancode_clean i hset hrep h
  | true =>
    obtain ⟨v, hv, hs⟩ := kbByte_reply i hrep (w := w)
    rw [hv, clean_ok, hs, KeyScan.next, if_pos hrep]

/-- The handler does to the scan state what the byte means, unless both prefixes have been seen. -/
theorem kbInterrupt_clean (i : KbIrq) (hset : w.kb.scancodeSet = 1) (h : ¬ Mixed w.kb i.sc) :
    Clean (fun v => v.kb.scan = w.kb.scan.next i.sc) (kbInterrupt IRQ_KEYBOARD i w) := by
  refine (kbDisable_clean (w := { w with ps2 := i.ps2 })).bind fun v hv => ?_
  have hv' : v.kb = w.kb := hv
  rw [← hv'] at hset h ⊢
  refine (kbByte_clean i hset h).bind fun u hu => ?_
  exact kbEnable_clean.mono fun x hx => by rw [hx, hu]

/-- There the assertion fails, once the controller has taken the command to switch the port off. -/
theorem kbInterrupt_mixed (i : KbIrq) (hset : w.kb.scancodeSet = 1) (h : Mixed w.kb i.sc)
    (hport : i.ps2.accepts = true) : kbInterrupt IRQ_KEYBOARD i w = .error .assertion := by
  have hoff : kbDisable { w with ps2 := i.ps2 } = .ok { w with ps2 := i.ps2.sent } := by
    simp only [kbDisable, ps2Cmd, ps2Write, hport, if_true, Except.map]
  rw [kbInterrupt, beq_self_eq_true, assert_true, ok_bind, hoff, ok_bind,
    kbByte_of_not_reply i (isKeyByte_iff.mp h.2.2).1,
    kbScancode_mixed (w := { w with ps2 := i.ps2.sent }) i hset h]
  rfl

/-- Without that command, the byte is not read. -/
theorem kbInterrupt_stuck (i : KbIrq) (hport : i.ps2.accepts = false) :
    Clean (fun _ => False) (kbInterrupt IRQ_KEYBOARD i w) := by
  have hoff : ∃ msg, kbDisable { w with ps2 := i.ps2 } = .error (.panic msg) := by
    simp only [kbDisable, ps2Cmd, ps2Write, hport, Bool.false_eq_true, if_false, Except.map]
    exact ⟨_, rfl⟩
  obtain ⟨msg, hoff⟩ := hoff
  rw [kbInterrupt, beq_self_eq_true, assert_true, ok_bind, hoff]
  exact clean_panic

end Frames

end Ohwes

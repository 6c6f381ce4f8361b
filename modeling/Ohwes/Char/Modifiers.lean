import Ohwes.Char.KeyboardRuns

/-! # Modifiers and the keys held down

A stream of complete codes makes and breaks physical keys. The driver's `ctrl`, `alt`, `shift`,
`meta` and `sysrq` are meant to be set exactly while one of their keys is held (`KbRun.Mirrors`). They
are (`modifiers_mirror`) as long as every code is `Faithful`:

* a key pressed has a key code: the code 0 of the others is also the "right key" of `sysrq`;
* the left control key is not held when Pause is pressed, for its code ends with the break code of
  that key;
* a fake shift, which keyboards send around some keys, agrees with the shift key it stands for:
  the driver takes it for that key. -/

namespace Ohwes
set_option autoImplicit false
open Library

/-! ## Keys and codes -/

/-- The scan code of a key: no break code of it is a prefix, and after `0xE0` none is an answer of
the keyboard or a fake shift. -/
def isPhysical (ext : Bool) (sc : Byte) : Bool :=
  sc < 0x80 && sc != 0 && sc != 0x60 && sc != 0x61 &&
    !(ext && (isReply (sc ||| 0x80) || sc == 0x2A || sc == 0x36))

/-- A physical key: its scan code, and whether that comes after the prefix `0xE0`. -/
structure Key where
  ext : Bool
  sc : Byte
  physical : isPhysical ext sc = true
  deriving DecidableEq

/-- The key code that the maps give it; 0 if it has none. -/
def Key.code (k : Key) : Nat := (if k.ext then scanmapE0 else scanmap).getD k.sc.toNat 0

def breakBit (release : Bool) : Byte := if release then 0x80 else 0

def Key.bytes (k : Key) (release : Bool) : List Byte :=
  (if k.ext then [0xE0] else []) ++ [k.sc ||| breakBit release]

def leftShift : Key := ⟨false, 0x2A, by decide⟩
def rightShift : Key := ⟨false, 0x36, by decide⟩
def leftCtrl : Key := ⟨false, 0x1D, by decide⟩

/-- A make or break code of a shift key that is sent around another code. -/
structure FakeShift where
  right : Bool
  release : Bool
  deriving DecidableEq, Repr

def FakeShift.key (f : FakeShift) : Key := if f.right then rightShift else leftShift

def FakeShift.bytes (f : FakeShift) : List Byte := [0xE0, f.key.sc ||| breakBit f.release]

/-- A complete code. Fake shifts come before a make code and after a break code. -/
inductive Code where
  | make (fakes : List FakeShift) (k : Key)
  | brk (k : Key) (fakes : List FakeShift)
  | pause
  deriving DecidableEq

def Code.bytes : Code → List Byte
  | .make fakes k => fakes.flatMap FakeShift.bytes ++ k.bytes false
  | .brk k fakes => k.bytes true ++ fakes.flatMap FakeShift.bytes
  | .pause => [0xE1, 0x1D, 0x45, 0xE1, 0x9D, 0xC5]

/-- The keys held after the code. -/
def Code.after (held : List Key) : Code → List Key
  | .make _ k => k :: held
  | .brk k _ => held.filter (· ≠ k)
  | .pause => held

/-! ## The property -/

/-- A modifier is set exactly when a key bound to it is held; a key code 0 binds no key. -/
def Mirrors (held : List Key) (l r : Nat) (state : BitVec 32) : Prop :=
  state ≠ 0 ↔ ∃ k ∈ held, k.code = l ∨ r ≠ 0 ∧ k.code = r

instance (held : List Key) (l r : Nat) (state : BitVec 32) : Decidable (Mirrors held l r state) :=
  inferInstanceAs (Decidable (_ ↔ _))

/-- The driver, and the keys held. -/
structure KbRun where
  world : KbWorld
  held : List Key

def KbRun.Mirrors (s : KbRun) : Prop :=
  Ohwes.Mirrors s.held KEY_LCTRL KEY_RCTRL s.world.kb.ctrl ∧
    Ohwes.Mirrors s.held KEY_LALT KEY_RALT s.world.kb.alt ∧
    Ohwes.Mirrors s.held KEY_LSHIFT KEY_RSHIFT s.world.kb.shift ∧
    Ohwes.Mirrors s.held KEY_LWIN KEY_RWIN s.world.kb.metaKey ∧
    Ohwes.Mirrors s.held KEY_SYSRQ 0 s.world.kb.sysrq

instance (s : KbRun) : Decidable s.Mirrors := inferInstanceAs (Decidable (_ ∧ _))

/-- The interrupts that bring the bytes of a code. -/
structure CodeIrqs where
  code : Code
  irqs : List KbIrq
  bytes : irqs.map KbIrq.sc = code.bytes

def codeStep (s : KbRun) (c : CodeIrqs) : Call KbRun :=
  (run kbStep s.world c.irqs).map fun w => ⟨w, c.code.after s.held⟩

def FakeShift.Agrees (f : FakeShift) (held : List Key) : Prop :=
  f.release = false ↔ f.key ∈ held

/-- The driver takes the code for what it is. -/
def Code.Faithful (held : List Key) : Code → Prop
  | .make fakes k => k.code ≠ 0 ∧ ∀ f ∈ fakes, f.Agrees held
  | .brk k fakes => ∀ f ∈ fakes, f.Agrees (held.filter (· ≠ k))
  | .pause => leftCtrl ∉ held

instance (f : FakeShift) (held : List Key) : Decidable (f.Agrees held) :=
  inferInstanceAs (Decidable (_ ↔ _))

instance (held : List Key) : (c : Code) → Decidable (c.Faithful held)
  | .make _ _ => inferInstanceAs (Decidable (_ ∧ _))
  | .brk _ _ => inferInstanceAs (Decidable (∀ _ ∈ _, _))
  | .pause => inferInstanceAs (Decidable (¬ _))

/-! ## The two bits of a modifier -/

/-- The state of a modifier whose left key is down if `a`, and the right one if `b`. -/
def bits (a b : Bool) : BitVec 32 := (if a then 1 else 0) ||| (if b then 2 else 0)

theorem bits_ne_zero (a b : Bool) : bits a b ≠ 0 ↔ a = true ∨ b = true := by
  cases a <;> cases b <;> decide

theorem handleModifier_bits (key : Nat) {l r : Nat} (hlr : l ≠ r) (release a b : Bool) :
    handleModifier key l r release (bits a b) =
      bits (if key = l then !release else a) (if key = r then !release else b) := by
  unfold handleModifier
  by_cases hl : key = l
  · have hr : key ≠ r := hl ▸ hlr
    rw [if_pos hl, if_neg hr, if_pos hl, if_neg hr]
    cases release <;> cases a <;> cases b <;> decide
  · rw [if_neg hl, if_neg hl]
    by_cases hr : key = r
    · rw [if_pos hr, if_pos hr]
      cases release <;> cases a <;> cases b <;> decide
    · rw [if_neg hr, if_neg hr]
      cases release <;> cases a <;> cases b <;> decide

/-- A key of that code is held. -/
def holds (held : List Key) (c : Nat) : Bool := held.any fun k => k.code == c

theorem holds_iff {held : List Key} {c : Nat} : holds held c = true ↔ ∃ k ∈ held, k.code = c := by
  simp [holds]

/-- The key codes of the modifiers. -/
def modifierCodes : List Nat :=
  [KEY_LCTRL, KEY_RCTRL, KEY_LSHIFT, KEY_RSHIFT, KEY_LALT, KEY_RALT, KEY_LWIN, KEY_RWIN, KEY_SYSRQ]

/-- The one key of each of them. -/
def modifierKey (c : Nat) : Bool × Nat :=
  if c = KEY_LCTRL then (false, 0x1D)
  else if c = KEY_RCTRL then (true, 0x1D)
  else if c = KEY_LSHIFT then (false, 0x2A)
  else if c = KEY_RSHIFT then (false, 0x36)
  else if c = KEY_LALT then (false, 0x38)
  else if c = KEY_RALT then (true, 0x38)
  else if c = KEY_LWIN then (true, 0x5B)
  else if c = KEY_RWIN then (true, 0x5C)
  else (false, 0x54)

theorem modifierKey_scanmap : ∀ n : Fin 128, scanmap.getD n 0 ∈ modifierCodes →
    modifierKey (scanmap.getD n 0) = (false, n.val) := by
  decide +kernel

theorem modifierKey_scanmapE0 : ∀ n : Fin 128, scanmapE0.getD n 0 ∈ modifierCodes →
    n.val ≠ 0x2A → n.val ≠ 0x36 → modifierKey (scanmapE0.getD n 0) = (true, n.val) := by
  decide +kernel

theorem Key.sc_lt (k : Key) : k.sc.toNat < 128 := by
  have h := k.physical
  simp only [isPhysical, Bool.and_eq_true, decide_eq_true_eq] at h
  exact BitVec.lt_def.mp h.1.1.1.1

/-- What holds of every scan code of seven bits holds of a key's. -/
theorem Key.of_forall {P : Bool → Byte → Prop}
    (h : ∀ ext, ∀ n : Fin 128, isPhysical ext (BitVec.ofNat 8 n) = true → P ext (BitVec.ofNat 8 n))
    (k : Key) : P k.ext k.sc := by
  have hsc : BitVec.ofNat 8 k.sc.toNat = k.sc := by simp
  have hk := h k.ext ⟨k.sc.toNat, k.sc_lt⟩
  simp only [hsc] at hk
  exact hk k.physical

theorem Key.modifierKey_code (k : Key) (h : k.code ∈ modifierCodes) :
    modifierKey k.code = (k.ext, k.sc.toNat) := by
  have hp := k.physical
  have hlt := k.sc_lt
  unfold Key.code at h ⊢
  cases hext : k.ext with
  | false =>
    rw [hext] at h
    exact modifierKey_scanmap ⟨_, hlt⟩ h
  | true =>
    rw [hext] at h
    have hfake : k.sc ≠ 0x2A ∧ k.sc ≠ 0x36 := by
      simp only [isPhysical, hext, Bool.true_and, Bool.not_or, Bool.and_eq_true, Bool.not_eq_true',
        beq_eq_false_iff_ne] at hp
      exact ⟨hp.2.1.2, hp.2.2⟩
    refine modifierKey_scanmapE0 ⟨_, hlt⟩ h (fun hn => hfake.1 ?_) (fun hn => hfake.2 ?_)
    · exact BitVec.eq_of_toNat_eq hn
    · exact BitVec.eq_of_toNat_eq hn

/-- No two keys are the same side of a modifier. -/
theorem Key.code_inj {k q : Key} (h : k.code = q.code) (hm : k.code ∈ modifierCodes) : k = q := by
  have hk := k.modifierKey_code hm
  have hq := q.modifierKey_code (h ▸ hm)
  rw [h, hq, Prod.mk.injEq] at hk
  obtain ⟨ext, sc, hp⟩ := k
  obtain ⟨ext', sc', hp'⟩ := q
  obtain ⟨rfl, hsc⟩ := hk
  obtain rfl := BitVec.eq_of_toNat_eq hsc
  rfl

theorem holds_cons (k : Key) (held : List Key) (c : Nat) :
    holds (k :: held) c = if k.code = c then true else holds held c := by
  rw [holds, List.any_cons]
  by_cases h : k.code = c
  · simp [h]
  · simp [h, holds]

theorem holds_filter {k : Key} (held : List Key) {c : Nat} (hc : c ∈ modifierCodes) :
    holds (held.filter (· ≠ k)) c = if k.code = c then false else holds held c := by
  rw [Bool.eq_iff_iff, holds_iff]
  simp only [List.mem_filter, decide_eq_true_eq]
  by_cases h : k.code = c
  · rw [if_pos h]
    constructor
    · rintro ⟨q, ⟨-, hne⟩, hq⟩
      exact absurd (Key.code_inj (hq.trans h.symm) (hq ▸ hc)) hne
    · simp
  · rw [if_neg h, holds_iff]
    constructor
    · rintro ⟨q, ⟨hq, -⟩, hqc⟩
      exact ⟨q, hq, hqc⟩
    · rintro ⟨q, hq, hqc⟩
      refine ⟨q, ⟨hq, ?_⟩, hqc⟩
      rintro rfl
      exact h hqc

theorem holds_key_iff {k : Key} {held : List Key} (h : k.code ∈ modifierCodes) :
    holds held k.code = true ↔ k ∈ held := by
  rw [holds_iff]
  constructor
  · rintro ⟨q, hq, hc⟩
    exact Key.code_inj hc.symm h ▸ hq
  · exact fun hk => ⟨k, hk, rfl⟩

/-! ## The scan state of the keys held -/

/-- Between codes no prefix is open, and every bit of a modifier stands for its key. -/
def mirrored (held : List Key) : KeyScan where
  set := 1
  e0 := false
  e1 := false
  ctrl := bits (holds held KEY_LCTRL) (holds held KEY_RCTRL)
  alt := bits (holds held KEY_LALT) (holds held KEY_RALT)
  shift := bits (holds held KEY_LSHIFT) (holds held KEY_RSHIFT)
  metaKey := bits (holds held KEY_LWIN) (holds held KEY_RWIN)
  sysrq := bits (holds held KEY_SYSRQ) false

theorem mirrored_modifiers (held : List Key) (key : Nat) (release : Bool) :
    (mirrored held).modifiers key release =
      { mirrored held with
        ctrl := bits (if key = KEY_LCTRL then !release else holds held KEY_LCTRL)
          (if key = KEY_RCTRL then !release else holds held KEY_RCTRL)
        alt := bits (if key = KEY_LALT then !release else holds held KEY_LALT)
          (if key = KEY_RALT then !release else holds held KEY_RALT)
        shift := bits (if key = KEY_LSHIFT then !release else holds held KEY_LSHIFT)
          (if key = KEY_RSHIFT then !release else holds held KEY_RSHIFT)
        metaKey := bits (if key = KEY_LWIN then !release else holds held KEY_LWIN)
          (if key = KEY_RWIN then !release else holds held KEY_RWIN)
        sysrq := bits (if key = KEY_SYSRQ then !release else holds held KEY_SYSRQ)
          (if key = 0 then !release else false) } := by
  have hstep := fun l r (hlr : l ≠ r) => handleModifier_bits key hlr release
  simp only [KeyScan.modifiers, mirrored, hstep _ _ (show KEY_LCTRL ≠ KEY_RCTRL by decide),
    hstep _ _ (show KEY_LALT ≠ KEY_RALT by decide),
    hstep _ _ (show KEY_LSHIFT ≠ KEY_RSHIFT by decide),
    hstep _ _ (show KEY_LWIN ≠ KEY_RWIN by decide), hstep _ _ (show KEY_SYSRQ ≠ 0 by decide)]

theorem mirrored_make {k : Key} (held : List Key) (h : k.code ≠ 0) :
    (mirrored held).modifiers k.code false = mirrored (k :: held) := by
  rw [mirrored_modifiers]
  simp only [mirrored, holds_cons, Bool.not_false, if_neg h]

theorem mirrored_break (k : Key) (held : List Key) :
    (mirrored held).modifiers k.code true = mirrored (held.filter (· ≠ k)) := by
  have hf := fun c (hc : c ∈ modifierCodes) => holds_filter (k := k) held hc
  rw [mirrored_modifiers]
  simp only [mirrored, Bool.not_true, ite_self]
  rw [hf KEY_LCTRL (by decide), hf KEY_RCTRL (by decide), hf KEY_LALT (by decide),
    hf KEY_RALT (by decide), hf KEY_LSHIFT (by decide), hf KEY_RSHIFT (by decide),
    hf KEY_LWIN (by decide), hf KEY_RWIN (by decide), hf KEY_SYSRQ (by decide)]

theorem mirrored_agrees {f : FakeShift} {held : List Key} (h : f.Agrees held) :
    (mirrored held).modifiers f.key.code f.release = mirrored held := by
  have hmem : f.key.code ∈ modifierCodes := by
    unfold FakeShift.key
    split <;> decide
  have hrel : (!f.release) = holds held f.key.code := by
    have hiff : f.release = false ↔ f.key ∈ held := h
    rw [Bool.eq_iff_iff, holds_key_iff hmem, ← hiff, Bool.not_eq_true']
  have hself : ∀ c, (if f.key.code = c then !f.release else holds held c) = holds held c := by
    intro c
    split
    · next hc => rw [← hc, hrel]
    · rfl
  have hne : f.key.code ≠ 0 := fun h0 => absurd (h0 ▸ hmem) (by decide)
  rw [mirrored_modifiers]
  simp only [hself, if_neg hne]
  rfl

/-! ## The bytes of a code -/

theorem Key.make_byte (k : Key) :
    isKeyByte k.sc = true ∧ isRelease k.sc = false ∧ k.sc &&& 0x7F = k.sc := by
  refine k.of_forall (P := fun _ sc =>
    isKeyByte sc = true ∧ isRelease sc = false ∧ sc &&& 0x7F = sc) ?_
  decide +kernel

theorem Key.break_byte (k : Key) :
    isRelease (k.sc ||| 0x80) = true ∧ (k.sc ||| 0x80) &&& 0x7F = k.sc ∧
      (k.sc ||| 0x80 ≠ 0xE0 ∧ k.sc ||| 0x80 ≠ 0xE1) ∧
      (isReply (k.sc ||| 0x80) = true → k.ext = false ∧ scanmap.getD k.sc.toNat 0 = 0) := by
  refine k.of_forall (P := fun ext sc => isRelease (sc ||| 0x80) = true ∧
    (sc ||| 0x80) &&& 0x7F = sc ∧ (sc ||| 0x80 ≠ 0xE0 ∧ sc ||| 0x80 ≠ 0xE1) ∧
    (isReply (sc ||| 0x80) = true → ext = false ∧ scanmap.getD sc.toNat 0 = 0)) ?_
  decide +kernel

/-- Where no prefix is open, a byte with the scan code, after the prefix that it takes. -/
theorem next_key {s : KeyScan} (h0 : s.e0 = false) (h1 : s.e1 = false) (ext : Bool) {b : Byte}
    (hb : isKeyByte b = true) :
    ((if ext then [0xE0] else []) ++ [b]).foldl KeyScan.next s =
      s.modifiers ((if ext then scanmapE0 else scanmap).getD (b &&& 0x7F).toNat 0) (isRelease b) := by
  obtain ⟨hr, hb0, hb1⟩ := isKeyByte_iff.mp hb
  have hnext : ∀ t : KeyScan, t.next b = (t.decoded b).modifiers (t.keyCode b) (isRelease b) := by
    intro t
    rw [KeyScan.next, hr, if_neg Bool.false_ne_true, if_neg hb0, if_neg hb1]
  have hs : { s with e0 := false, e1 := false } = s := by
    cases s
    dsimp only at h0 h1
    subst h0 h1
    rfl
  cases ext with
  | false =>
    simp only [Bool.false_eq_true, if_false, List.nil_append, List.foldl_cons, List.foldl_nil, hnext,
      KeyScan.keyCode, KeyScan.decoded, KeyScan.endsPause, h1, Bool.false_and, KeyScan.mapped, h0, hs]
  | true =>
    have hpre : s.next 0xE0 = { s with e0 := true } := rfl
    simp only [if_true, List.cons_append, List.nil_append, List.foldl_cons, List.foldl_nil, hpre,
      hnext, KeyScan.keyCode, KeyScan.decoded, KeyScan.endsPause, h1, Bool.false_and, KeyScan.mapped,
      Bool.false_eq_true, if_false, hs]

theorem make_scan {s : KeyScan} (h0 : s.e0 = false) (h1 : s.e1 = false) (k : Key) :
    (k.bytes false).foldl KeyScan.next s = s.modifiers k.code false := by
  obtain ⟨hb, hrel, hsc⟩ := k.make_byte
  have hor : k.sc ||| breakBit false = k.sc := by simp [breakBit]
  rw [Key.bytes, hor, next_key h0 h1 k.ext hb, hsc, hrel, Key.code]

theorem break_scan (held : List Key) (k : Key) :
    (k.bytes true).foldl KeyScan.next (mirrored held) = (mirrored held).modifiers k.code true := by
  obtain ⟨hrel, hsc, hne, hrep⟩ := k.break_byte
  have hor : k.sc ||| breakBit true = k.sc ||| 0x80 := rfl
  rw [Key.bytes, hor]
  cases hr : isReply (k.sc ||| 0x80) with
  | false =>
    rw [next_key rfl rfl k.ext (isKeyByte_iff.mpr ⟨hr, hne⟩), hsc, hrel, Key.code]
  | true =>
    -- A key without a key code, whose break code is taken for an answer of the keyboard.
    obtain ⟨hext, hcode⟩ := hrep hr
    have hk : k.code = 0 := by rw [Key.code, hext]; exact hcode
    rw [hext, hk, mirrored_modifiers]
    have hnext : (mirrored held).next (k.sc ||| 0x80) = mirrored held := by
      rw [KeyScan.next, if_pos hr]
    simp only [Bool.false_eq_true, if_false, List.nil_append, List.foldl_cons, List.foldl_nil, hnext]
    simp [mirrored, KEY_LCTRL, KEY_RCTRL, KEY_LALT, KEY_RALT, KEY_LSHIFT, KEY_RSHIFT, KEY_LWIN,
      KEY_RWIN, KEY_SYSRQ]

theorem fake_scan {s : KeyScan} (h0 : s.e0 = false) (h1 : s.e1 = false) (f : FakeShift) :
    f.bytes.foldl KeyScan.next s = s.modifiers f.key.code f.release := by
  obtain ⟨right, release⟩ := f
  have hext := fun (b : Byte) (hb : isKeyByte b = true) => next_key h0 h1 true hb
  cases right <;> cases release <;> exact hext _ rfl

theorem fakes_scan {held : List Key} {fakes : List FakeShift} (h : ∀ f ∈ fakes, f.Agrees held) :
    (fakes.flatMap FakeShift.bytes).foldl KeyScan.next (mirrored held) = mirrored held := by
  induction fakes with
  | nil => rfl
  | cons f fakes ih =>
    rw [List.flatMap_cons, List.foldl_append, fake_scan rfl rfl f,
      mirrored_agrees (h f (List.mem_cons_self ..)), ih fun g hg => h g (List.mem_cons_of_mem _ hg)]

theorem mirrored_pause (held : List Key) (release : Bool) :
    (mirrored held).modifiers KEY_PAUSE release = mirrored held := by
  rw [mirrored_modifiers]
  rfl

/-- Where the prefix `0xE1` is open: the key code is taken, and Num Lock's ends the prefix. -/
theorem next_e1 {s : KeyScan} (h0 : s.e0 = false) (h1 : s.e1 = false) {b : Byte}
    (hb : isKeyByte b = true) (key : Nat) (hkey : scanmap.getD (b &&& 0x7F).toNat 0 = key) :
    KeyScan.next { s with e1 := true } b =
      if key = KEY_NUMLK then s.modifiers KEY_PAUSE (isRelease b)
      else { s.modifiers key (isRelease b) with e1 := true } := by
  obtain ⟨hr, hb0, hb1⟩ := isKeyByte_iff.mp hb
  obtain ⟨set, e0, e1, ctrl, alt, shift, metaKey, sysrq⟩ := s
  dsimp only at h0 h1
  subst h0 h1
  have hmapped : ∀ t : KeyScan, t.e0 = false → t.mapped b = key := by
    intro t ht
    rw [KeyScan.mapped, ht]
    exact hkey
  rw [KeyScan.next, hr, if_neg Bool.false_ne_true, if_neg hb0, if_neg hb1, KeyScan.keyCode,
    KeyScan.decoded, KeyScan.endsPause, hmapped _ rfl]
  by_cases hn : key = KEY_NUMLK
  · rw [if_pos hn, hn]
    rfl
  · have hbeq : (key == KEY_NUMLK) = false := beq_eq_false_iff_ne.mpr hn
    rw [if_neg hn, hbeq]
    rfl

/-- The code of Pause makes and breaks the left control key. -/
theorem pause_scan {held : List Key} (h : leftCtrl ∉ held) :
    Code.pause.bytes.foldl KeyScan.next (mirrored held) = mirrored held := by
  have hopen : ∀ held, (mirrored held).next 0xE1 = { mirrored held with e1 := true } := fun _ => rfl
  have hmake : ∀ held, KeyScan.next { mirrored held with e1 := true } 0x1D =
      { mirrored (leftCtrl :: held) with e1 := true } := by
    intro held
    rw [next_e1 rfl rfl rfl KEY_LCTRL rfl, if_neg (by decide), ← mirrored_make held (by decide)]
    rfl
  have hbreak : ∀ held, KeyScan.next { mirrored held with e1 := true } 0x9D =
      { mirrored (held.filter (· ≠ leftCtrl)) with e1 := true } := by
    intro held
    rw [next_e1 rfl rfl rfl KEY_LCTRL rfl, if_neg (by decide), ← mirrored_break]
    rfl
  have hend : ∀ held, KeyScan.next { mirrored held with e1 := true } 0x45 = mirrored held := by
    intro held
    rw [next_e1 rfl rfl rfl KEY_NUMLK rfl, if_pos rfl, mirrored_pause]
  have hend' : ∀ held, KeyScan.next { mirrored held with e1 := true } 0xC5 = mirrored held := by
    intro held
    rw [next_e1 rfl rfl rfl KEY_NUMLK rfl, if_pos rfl, mirrored_pause]
  have hself : (leftCtrl :: held).filter (· ≠ leftCtrl) = held := by
    rw [List.filter_cons_of_neg (by simp), List.filter_eq_self]
    exact fun k hk => decide_eq_true fun hkc => h (hkc ▸ hk)
  simp only [Code.bytes, List.foldl_cons, List.foldl_nil, hopen, hmake, hend, hbreak, hend', hself]

/-- A faithful code does to the scan state what it does to the keys held. -/
theorem code_scan {held : List Key} {c : Code} (h : c.Faithful held) :
    c.bytes.foldl KeyScan.next (mirrored held) = mirrored (c.after held) := by
  cases c with
  | make fakes k =>
    rw [Code.bytes, List.foldl_append, fakes_scan h.2, make_scan rfl rfl, mirrored_make held h.1]
    rfl
  | brk k fakes =>
    rw [Code.bytes, List.foldl_append, break_scan, mirrored_break, fakes_scan h]
    rfl
  | pause => exact pause_scan h

/-! ## Runs -/

theorem mirrors_of_bits {held : List Key} {l r : Nat} (hr : r ≠ 0) :
    Mirrors held l r (bits (holds held l) (holds held r)) := by
  rw [Mirrors, bits_ne_zero, holds_iff, holds_iff]
  simp only [ne_eq, hr, not_false_eq_true, true_and, and_or_left, exists_or]

theorem mirrors_of_bits_left {held : List Key} {l : Nat} :
    Mirrors held l 0 (bits (holds held l) false) := by
  rw [Mirrors, bits_ne_zero, holds_iff]
  simp

theorem KbRun.mirrors_of_scan {s : KbRun} (h : s.world.kb.scan = mirrored s.held) : s.Mirrors := by
  have hctrl : s.world.kb.ctrl = _ := congrArg KeyScan.ctrl h
  have halt : s.world.kb.alt = _ := congrArg KeyScan.alt h
  have hshift : s.world.kb.shift = _ := congrArg KeyScan.shift h
  have hmeta : s.world.kb.metaKey = _ := congrArg KeyScan.metaKey h
  have hsysrq : s.world.kb.sysrq = _ := congrArg KeyScan.sysrq h
  rw [KbRun.Mirrors, hctrl, halt, hshift, hmeta, hsysrq]
  exact ⟨mirrors_of_bits (by decide), mirrors_of_bits (by decide), mirrors_of_bits (by decide),
    mirrors_of_bits (by decide), mirrors_of_bits_left⟩

theorem codeStep_mirrored {s t : KbRun} {c : CodeIrqs} (h : s.world.kb.scan = mirrored s.held)
    (hc : c.code.Faithful s.held) (hstep : codeStep s c = .ok t) :
    t.world.kb.scan = mirrored t.held := by
  rw [codeStep] at hstep
  cases hr : run kbStep s.world c.irqs with
  | error e =>
    rw [hr] at hstep
    cases hstep
  | ok w =>
    rw [hr] at hstep
    cases hstep
    have hset : s.world.kb.scancodeSet = 1 := congrArg KeyScan.set h
    rw [(run_scan hset hr).1, c.bytes, h, code_scan hc]

/-- From the initialisation on, whatever complete codes the keyboard sends and whatever else happens
meanwhile: while the codes are faithful, each modifier is set exactly while one of its keys is held. -/
theorem modifiers_mirror (d : Ps2) (w : KbWorld) (h : initKb d = .ok w) (codes : List CodeIrqs)
    (hf : Throughout codeStep (fun s c => c.code.Faithful s.held) ⟨w, []⟩ codes) (t : KbRun)
    (ht : Reaches codeStep ⟨w, []⟩ codes t) : t.Mirrors := by
  have hstart : w.kb.scan = mirrored [] := (initKb_clean d).of_ok h
  have hscan : t.world.kb.scan = mirrored t.held :=
    invariant_reaches (fun s c t hs hc hstep => codeStep_mirrored hs hc hstep) hstart hf ht
  exact KbRun.mirrors_of_scan hscan

theorem modifiers_mirror_shift :
    { plainKb with kb := { plainKb.kb with shift := 1 } }.kb.shift ≠ 0 ∧
      KbRun.Mirrors ⟨{ plainKb with kb := { plainKb.kb with shift := 1 } }, [leftShift]⟩ :=
  ⟨by decide, modifiers_mirror plainKeyboard plainKb (by decide)
    [⟨.make [] leftShift, [plainByte 0x2A], rfl⟩] (by decide) _ (Reaches.of_run rfl)⟩

def printScreen : Key := ⟨true, 0x37, by decide⟩

/-- Print Screen, whose make code begins with a fake shift, leaves `shift` set. -/
theorem printScreen_sets_shift : ∃ w t, initKb plainKeyboard = .ok w ∧
    codeStep ⟨w, []⟩ ⟨.make [⟨false, false⟩] printScreen,
      [0xE0, 0x2A, 0xE0, 0x37].map plainByte, rfl⟩ = .ok t ∧
    t.held = [printScreen] ∧ ¬ t.Mirrors :=
  ⟨plainKb, ⟨{ plainKb with
      kb := { plainKb.kb with shift := 1, pollchar := 0x50 }
      received := [0x1B, 0x5B, 0x50] }, [printScreen]⟩, by decide, rfl, rfl, by decide⟩

end Ohwes

import Ohwes.Char.TerminalIsolation

/-! # Virtual terminals from the start

Paging maps the VGA's memory onto itself before the terminals are initialized, and one of them may have
been initialized for an early console. -/

namespace Ohwes
open Library
set_option autoImplicit false

/-- The kernel before `init_terminal`. -/
structure Booted (tbl : PageTable) (w : VtWorld) : Prop where
  shown : w.currterm = DEFAULT_VT
  early : ∀ t, 1 ≤ t → t ≤ NR_TERMINAL → w.initialized t = true →
    (w.terms t).number = t ∧ (t ≠ DEFAULT_VT → w.framebuf t = terminalFb t)
  slots : Slots tbl w.paged fun t => t

/-- In the loop over the terminals, with the VGA's memory map selected. -/
structure Starting (tbl : PageTable) (w : VtWorld) : Prop extends Booted tbl w where
  fbSelect : w.fbSelect = VGA_MEMORY_128K

/-- Terminal `t`, initialized. -/
def VtWorld.fresh (w : VtWorld) (t : Nat) : VtWorld :=
  { (w.setTerm t { terminalDefaults w.vga (w.terms t) with number := t }).setFramebuf t (terminalFb t) with
    initialized := Function.update w.initialized t true }

theorem FbOp.Within.mono {op : FbOp} {area area' : Nat} (h : op.Within area) (hle : area ≤ area') :
    op.Within area' := by
  cases op with
  | setChar pos ch => exact Nat.lt_of_lt_of_le h hle
  | setAttr pos attr => exact Nat.lt_of_lt_of_le h hle
  | move dst src n => exact ⟨Nat.le_trans h.1 hle, Nat.le_trans h.2 hle⟩

section Init
variable {tbl : PageTable} {uart : Fin NR_SERIAL → Uart} {w w' : VtWorld} {t : Nat} {f : Vt → Vt}

theorem Starting.getTerminal (h : Starting tbl w) (ht : 1 ≤ t) (ht7 : t ≤ NR_TERMINAL) :
    getTerminal w t = .ok t := by
  have hbad : ¬ ((t : Int) < 0 ∨ (t : Int) > NR_TERMINAL) := by omega
  have hne : ¬ (t : Int) = 0 := by omega
  have hassert : (!w.initialized t || (w.terms t).number == t) = true := by
    cases hi : w.initialized t with
    | false => rfl
    | true =>
      rw [(h.early t ht ht7 hi).1, beq_self_eq_true]
      rfl
  rw [Ohwes.getTerminal, terminalNumber, if_neg hbad, if_neg hne, ok_bind, Int.toNat_natCast, hassert]
  rfl

theorem Starting.initializeTerminal (h : Starting tbl w) (ht : 1 ≤ t) (ht7 : t ≤ NR_TERMINAL)
    (hi : w.initialized t = false) : initializeTerminal t t w = .ok (w.fresh t) := by
  rw [Ohwes.initializeTerminal, hi, if_neg Bool.false_ne_true, getTerminalFb_ok h.fbSelect ht ht7, ok_bind]
  rfl

theorem fresh_terms (t : Nat) : (w.fresh t).terms =
    Function.update w.terms t { terminalDefaults w.vga (w.terms t) with number := t } := rfl

theorem fresh_framebuf (t : Nat) : (w.fresh t).framebuf = Function.update w.framebuf t (terminalFb t) := rfl

theorem fresh_initialized (t : Nat) : (w.fresh t).initialized = Function.update w.initialized t true := rfl

theorem Starting.fresh (h : Starting tbl w) (t : Nat) : Starting tbl (w.fresh t) where
  shown := h.shown
  early := by
    intro u hu hu7 hi
    rw [fresh_terms, fresh_framebuf]
    by_cases hut : u = t
    · rw [hut, Function.update_self, Function.update_self]
      exact ⟨rfl, fun _ => rfl⟩
    · rw [fresh_initialized, Function.update_of_ne hut] at hi
      rw [Function.update_of_ne hut, Function.update_of_ne hut]
      exact h.early u hu hu7 hi
  slots := h.slots
  fbSelect := h.fbSelect

theorem Starting.drew (h : Starting tbl w) {s : Vt} (hnum : s.term.number = (w.terms t).number)
    (ram : Nat → Byte) : Starting tbl (w.drew t s ram) where
  shown := h.shown
  early := by
    intro u hu hu7 hi
    rw [VtWorld.drew_terms, update_number hnum]
    exact h.early u hu hu7 hi
  slots := Slots.with_memory (p := w.paged) rfl rfl h.slots
  fbSelect := h.fbSelect

/-- Once the loop has passed them, the terminals are initialized. -/
theorem Starting.initTerminals {is : List Nat} (h : Starting tbl w)
    (his : ∀ i ∈ is, 1 ≤ i ∧ i ≤ NR_TERMINAL) (hw : initTerminals tbl is w = .ok w') :
    Starting tbl w' ∧ ∀ t, w.initialized t = true ∨ t ∈ is → w'.initialized t = true := by
  induction is generalizing w with
  | nil =>
    obtain rfl := Except.ok.inj hw
    exact ⟨h, fun t ht => ht.resolve_right List.not_mem_nil⟩
  | cons i is ih =>
    obtain ⟨hi1, hi7⟩ := his i (List.mem_cons_self ..)
    have his' : ∀ j ∈ is, 1 ≤ j ∧ j ≤ NR_TERMINAL := fun j hj => his j (List.mem_cons_of_mem i hj)
    rw [Ohwes.initTerminals, h.getTerminal hi1 hi7, ok_bind] at hw
    cases hinit : w.initialized i with
    | true =>
      rw [hinit, if_pos rfl] at hw
      obtain ⟨hs, hdone⟩ := ih h his' hw
      refine ⟨hs, fun t ht => hdone t ?_⟩
      rcases ht with ht | ht
      · exact Or.inl ht
      · rcases List.mem_cons.mp ht with rfl | ht
        · exact Or.inl hinit
        · exact Or.inr ht
    | false =>
      rw [hinit, if_neg Bool.false_ne_true, h.initializeTerminal hi1 hi7 hinit, ok_bind] at hw
      obtain ⟨v, hv, hrest⟩ := bind_ok.mp hw
      obtain ⟨ram, rfl⟩ := onTerminal_changes hv
      have hnum := congrArg Prod.snd (given_erase ((w.fresh i).vt i) ERASE_ALL)
      obtain ⟨hs, hdone⟩ := ih ((h.fresh i).drew hnum ram) his' hrest
      refine ⟨hs, fun t ht => hdone t ?_⟩
      have hfresh : Function.update w.initialized i true t = true ∨ t ∈ is := by
        by_cases hti : t = i
        · exact Or.inl (by rw [hti, Function.update_self])
        · rw [Function.update_of_ne hti]
          exact ht.imp_right fun hmem => (List.mem_cons.mp hmem).resolve_left hti
      exact hfresh

theorem Starting.mapsTo (h : Starting tbl w) (ht7 : t ≤ NR_TERMINAL) :
    MapsTo tbl w.paged (terminalFb t) (slotBase t) FB_SIZE := h.slots.mapsTo ht7 ht7

/-- A fresh terminal is cleared inside its frame buffer. -/
theorem erase_fresh_within (hC : 0 < w.vga.cols.toNat) (hR : 0 < w.vga.rows.toNat)
    (harea : w.vga.rows.toNat * w.vga.cols.toNat ≤ FB_SIZE / 2) (i : Nat) :
    ∀ op ∈ (erase ((w.fresh i).vt i) ERASE_ALL).fb, op.Within (FB_SIZE / 2) := by
  have hterm : ((w.fresh i).vt i).term = { terminalDefaults w.vga (w.terms i) with number := i } := by
    rw [VtWorld.vt, fresh_terms, Function.update_self]
  have hplaced : OnScreen w.vga.cols.toNat w.vga.rows.toNat ((w.fresh i).vt i) := by
    refine (placed_defaults w.vga [] (w.terms i) hC hR fun op hop => absurd hop List.not_mem_nil).congr ?_
    exact ⟨by rw [hterm], by rw [hterm], rfl, rfl, by rw [hterm], by rw [hterm], rfl⟩
  intro op hop
  exact ((hplaced.erase harea ERASE_ALL).fb op hop).mono harea

/-- The loop comes back if the VGA has a screen that fits into a frame buffer. -/
theorem Starting.initTerminals_ok {is : List Nat} (h : Starting tbl w) (hC : 0 < w.vga.cols.toNat)
    (hR : 0 < w.vga.rows.toNat) (harea : w.vga.rows.toNat * w.vga.cols.toNat ≤ FB_SIZE / 2)
    (his : ∀ i ∈ is, 1 ≤ i ∧ i ≤ NR_TERMINAL) :
    ∃ w', Ohwes.initTerminals tbl is w = .ok w' ∧ w'.vga = w.vga ∧ w'.tty = w.tty ∧
      ∀ t, w'.terms t = if t ∈ is ∧ w.initialized t = false then
        { terminalDefaults w.vga (w.terms t) with number := t } else w.terms t := by
  induction is generalizing w with
  | nil =>
    refine ⟨w, rfl, rfl, rfl, fun t => (if_neg fun ht => ?_).symm⟩
    exact List.not_mem_nil ht.1
  | cons i is ih =>
    obtain ⟨hi1, hi7⟩ := his i (List.mem_cons_self ..)
    have his' : ∀ j ∈ is, 1 ≤ j ∧ j ≤ NR_TERMINAL := fun j hj => his j (List.mem_cons_of_mem i hj)
    rw [Ohwes.initTerminals, h.getTerminal hi1 hi7, ok_bind]
    cases hinit : w.initialized i with
    | true =>
      obtain ⟨w', hok, hvga, htty, hterms⟩ := ih h hC hR harea his'
      refine ⟨w', by rw [if_pos rfl, hok], hvga, htty, fun t => (hterms t).trans ?_⟩
      refine if_congr ⟨fun ht => ⟨List.mem_cons_of_mem i ht.1, ht.2⟩, fun ht => ⟨?_, ht.2⟩⟩ rfl rfl
      refine (List.mem_cons.mp ht.1).resolve_left fun hti => ?_
      rw [hti, hinit] at ht
      exact Bool.noConfusion ht.2
    | false =>
      have hin := erase_fresh_within hC hR harea i
      obtain ⟨hterm, hvga⟩ := erase_frame ((w.fresh i).vt i) ERASE_ALL
      have hnum := congrArg Terminal.number hterm
      have hmap : MapsTo tbl (w.fresh i).paged ((w.fresh i).framebuf i) (slotBase i) FB_SIZE := by
        rw [fresh_framebuf, Function.update_self]
        exact h.mapsTo hi7
      rw [if_neg Bool.false_ne_true, h.initializeTerminal hi1 hi7 hinit, ok_bind,
        onTerminal_ok (f := fun s => erase s ERASE_ALL) hmap hin, ok_bind]
      have hstart := (h.fresh i).drew hnum
        (drawn (slotBase i) w.paged.ram (erase ((w.fresh i).vt i) ERASE_ALL).fb.reverse)
      generalize hv : (w.fresh i).drew i (erase ((w.fresh i).vt i) ERASE_ALL)
        (drawn (slotBase i) (w.fresh i).paged.ram (erase ((w.fresh i).vt i) ERASE_ALL).fb.reverse) = v
      have hvstart : Starting tbl v := hv ▸ hstart
      have hvvga : v.vga = w.vga := hv ▸ hvga
      have hvtty : v.tty = w.tty := hv ▸ rfl
      have hvinit : v.initialized = Function.update w.initialized i true := hv ▸ rfl
      have hvterms : v.terms = Function.update w.terms i
          { terminalDefaults w.vga (w.terms i) with number := i } := by
        rw [← hv, VtWorld.drew_terms, hterm, VtWorld.vt, fresh_terms, Function.update_self,
          Function.update_idem]
      obtain ⟨w', hok, hvga', htty', hterms'⟩ := ih hvstart (by rwa [hvvga]) (by rwa [hvvga])
        (by rwa [hvvga]) his'
      refine ⟨w', hok, hvga'.trans hvvga, htty'.trans hvtty, fun t => (hterms' t).trans ?_⟩
      rw [hvvga, hvterms, hvinit]
      by_cases hti : t = i
      · rw [hti, Function.update_self, Function.update_self, if_neg (fun hbad => Bool.noConfusion hbad.2),
          if_pos ⟨List.mem_cons_self .., hinit⟩]
      · have hmem : t ∈ is ↔ t ∈ i :: is := by rw [List.mem_cons, or_iff_right hti]
        rw [Function.update_of_ne hti, Function.update_of_ne hti]
        exact if_congr (and_congr_left' hmem) rfl rfl

theorem range_terminals {i : Nat} (h : i ∈ List.range' 1 NR_TERMINAL) : 1 ≤ i ∧ i ≤ NR_TERMINAL := by
  have hi := List.mem_range'_1.mp h
  omega

/-- The boot messages are on display, and terminal 1 is where they are. -/
theorem Starting.restoreBoot (h : Starting tbl w)
    (hall : ∀ t, 1 ≤ t → t ≤ NR_TERMINAL → w.initialized t = true) (hw : restoreBoot w = .ok w') :
    Switchable tbl w' := by
  have hc1 : 1 ≤ DEFAULT_VT := by decide
  have hc7 : DEFAULT_VT ≤ NR_TERMINAL := by decide
  obtain ⟨t, ht, hrest⟩ := bind_ok.mp hw
  have hone : (1 : Int) = (DEFAULT_VT : Nat) := rfl
  rw [hone, h.getTerminal hc1 hc7] at ht
  obtain rfl := Except.ok.inj ht
  obtain ⟨term, hterm, hw'⟩ := bind_ok.mp hrest
  obtain rfl := Except.ok.inj hw'
  have hnum : term.number = (w.terms DEFAULT_VT).number := by
    rw [pos2xy] at hterm
    split at hterm
    · cases hterm
    · obtain rfl := Except.ok.inj hterm
      rfl
  have hnumber : ∀ t, 1 ≤ t → t ≤ NR_TERMINAL →
      (Function.update w.terms DEFAULT_VT term t).number = t := by
    intro t ht ht7
    rw [update_number hnum]
    exact (h.early t ht ht7 (hall t ht ht7)).1
  have hframe : ∀ t, 1 ≤ t → t ≤ NR_TERMINAL → t ≠ DEFAULT_VT →
      Function.update w.framebuf DEFAULT_VT (getVgaFb w) t = terminalFb t := by
    intro t ht ht7 hne
    rw [Function.update_of_ne hne]
    exact (h.early t ht ht7 (hall t ht ht7)).2 hne
  have hcurr : w.currterm = DEFAULT_VT := h.shown
  exact {
    fbSelect := h.fbSelect
    shown := by
      show 1 ≤ w.currterm ∧ w.currterm ≤ NR_TERMINAL
      rw [hcurr]
      exact ⟨hc1, hc7⟩
    number := hnumber
    framebuf := fun t ht ht7 hne => hframe t ht ht7 fun heq => hne (heq.trans hcurr.symm)
    slots := ⟨fun t => t, h.slots, Function.update_eq_self _ _⟩ }

theorem Switchable.switchDefault (h : Switchable tbl w) (hw : switchDefault tbl uart w = .ok w') :
    Mapped tbl w' := by
  have hn : (0 : Int) < DEFAULT_VT := by decide
  have hn7 : (DEFAULT_VT : Int) ≤ NR_TERMINAL := by decide
  obtain ⟨⟨ret, v⟩, hswitch, hv⟩ := bind_ok.mp hw
  cases hopen : openTerminalTty uart DEFAULT_VT w with
  | error e =>
    rw [h.switch_closed hn hn7 hopen] at hswitch
    cases hswitch
  | ok wt =>
    obtain ⟨q, hok, hmap, -⟩ := h.switch hn hn7 hopen
    rw [hok] at hswitch
    obtain ⟨rfl, rfl⟩ := Prod.mk.inj (Except.ok.inj hswitch)
    obtain rfl := Except.ok.inj hv
    exact hmap

theorem Mapped.printChars {cs : List Byte} (h : Mapped tbl w)
    (hw : printChars tbl t cs w = .ok w') : Mapped tbl w' := by
  induction cs generalizing w with
  | nil =>
    obtain rfl := Except.ok.inj hw
    exact h
  | cons c cs ih =>
    rw [Ohwes.printChars] at hw
    split at hw
    · cases hw
    · obtain ⟨v, hv, hrest⟩ := bind_ok.mp hw
      exact ih (h.onTerminal (number_terminalPutchar w.currterm c) hv) hrest

/-- After `init_terminal` the frame buffers are mapped. -/
theorem Booted.initTerminal (h : Booted tbl w) (hw : initTerminal tbl uart w = .ok w') :
    Mapped tbl w' := by
  have hstart : Starting tbl { w with fbSelect := VGA_MEMORY_128K } := ⟨⟨h.shown, h.early, h.slots⟩, rfl⟩
  rw [Ohwes.initTerminal] at hw
  generalize hv : { w with fbSelect := VGA_MEMORY_128K } = v at hw hstart
  have hmemory : ¬ (vgaGetFbInfo v.fbSelect).sizePages - FB_SIZE_PAGES < NR_TERMINAL * FB_SIZE_PAGES := by
    rw [hstart.fbSelect]
    decide
  rw [if_neg hmemory] at hw
  obtain ⟨w1, h1, hw⟩ := bind_ok.mp hw
  obtain ⟨w2, h2, hw⟩ := bind_ok.mp hw
  obtain ⟨w3, h3, hw⟩ := bind_ok.mp hw
  obtain ⟨t, -, hw⟩ := bind_ok.mp hw
  obtain ⟨w4, h4, hw⟩ := bind_ok.mp hw
  obtain ⟨hs1, hall⟩ := hstart.initTerminals (fun i => range_terminals) h1
  have hall' : ∀ t, 1 ≤ t → t ≤ NR_TERMINAL → w1.initialized t = true := fun t ht ht7 =>
    hall t (Or.inr (List.mem_range'_1.mpr (by omega)))
  have h3' := (hs1.restoreBoot hall' h2).switchDefault h3
  exact (h3'.onTerminal (f := saveTerminal) (fun _ => rfl) h4).printChars hw

/-! ## Coming back

With a screen that fits, every terminal stays on it, and the initialization comes back. -/

section Progress
variable {C R : Nat} {s : Vt}

theorem TerminalOk.with_vga (h : TerminalOk C R s) {v : Vga} (hv : v.plain = s.vga.plain) :
    TerminalOk C R { s with vga := v } := by
  have hcols : v.cols = s.vga.cols := (congrArg Vga.cols hv :)
  have hrows : v.rows = s.vga.rows := (congrArg Vga.rows hv :)
  exact ⟨⟨h.placed.congr ⟨rfl, rfl, hcols, hrows, rfl, rfl, rfl⟩, h.wrap, h.param⟩, h.printing⟩

theorem TerminalOk.clear (h : TerminalOk C R s) : TerminalOk C R { s with fb := [] } :=
  have hp := h.placed
  ⟨⟨⟨hp.cols, hp.rows, hp.vgaCols, hp.vgaRows, hp.x_lt, hp.y_lt, hp.savedX_lt, hp.savedY_lt,
    fun _ hop => absurd hop List.not_mem_nil⟩, h.wrap, h.param⟩, h.printing⟩

/-- What is drawn on the screen is drawn inside the frame buffer. -/
theorem TerminalOk.within (h : TerminalOk C R s) (harea : R * C ≤ 4096) :
    ∀ op ∈ s.fb, op.Within (FB_SIZE / 2) := fun op hop => (h.placed.fb op hop).mono harea

/-- All terminals are on their screens. -/
def OnScreens (C R : Nat) (w : VtWorld) : Prop :=
  ∀ t, 1 ≤ t → t ≤ NR_TERMINAL → TerminalOk C R (w.vt t)

theorem OnScreens.switch (h : OnScreens C R w) (hterms : w'.terms = w.terms)
    (hvga : w'.vga.plain = w.vga.plain) : OnScreens C R w' := by
  intro t ht ht7
  have hok := (h t ht ht7).with_vga hvga
  rw [VtWorld.vt] at hok ⊢
  rwa [hterms]

theorem OnScreens.drew (h : OnScreens C R w) (hs : TerminalOk C R s) (hvga : s.vga.plain = w.vga.plain)
    (ram : Nat → Byte) : OnScreens C R (w.drew t s ram) := by
  intro u hu hu7
  by_cases hut : u = t
  · rw [hut, drew_vt_self]
    exact hs.clear
  · rw [drew_vt_other hut]
    exact (h u hu hu7).with_vga hvga

/-- A character that is no reverse line feed on the first row. -/
theorem putcharOn_ok (h : Mapped tbl w) (hscreens : OnScreens C R w) (harea : R * C ≤ 4096) (ht : 1 ≤ t)
    (ht7 : t ≤ NR_TERMINAL) {c : Byte} (hc : ¬ ReversesAtTop (w.vt t) c) :
    ∃ w', putcharOn tbl t c w = .ok w' ∧ Mapped tbl w' ∧ OnScreens C R w' ∧ w'.tty = w.tty ∧
      w'.currterm = w.currterm := by
  have hok := (hscreens t ht ht7).step harea w.currterm hc
  have hput := onTerminal_ok (f := fun s => (terminalPutchar w.currterm s c).2) (h.mapsTo ht ht7)
    (hok.within harea)
  refine ⟨_, hput, h.drew (number_terminalPutchar w.currterm c (w.vt t)) _, ?_, rfl, rfl⟩
  exact hscreens.drew hok (vga_terminalPutchar w.currterm c (w.vt t)) _

/-- Saving draws nothing. -/
theorem onTerminal_saveTerminal_ok (h : Mapped tbl w) (hscreens : OnScreens C R w) (ht : 1 ≤ t)
    (ht7 : t ≤ NR_TERMINAL) : ∃ w', onTerminal tbl saveTerminal t w = .ok w' ∧ Mapped tbl w' ∧
      OnScreens C R w' ∧ w'.tty = w.tty := by
  have hok := hscreens t ht ht7
  have hsaved : TerminalOk C R (saveTerminal (w.vt t)) :=
    ⟨⟨hok.placed.saveTerminal, hok.wrap, hok.param⟩, hok.printing⟩
  have hsave := onTerminal_ok (f := saveTerminal) (h.mapsTo ht ht7) fun op hop =>
    absurd hop List.not_mem_nil
  have hnum : (saveTerminal (w.vt t)).term.number = (w.terms t).number := rfl
  exact ⟨_, hsave, h.drew hnum _, hscreens.drew hsaved rfl _, rfl⟩

theorem printChars_ok {cs : List Byte} (h : Mapped tbl w) (hscreens : OnScreens C R w)
    (harea : R * C ≤ 4096) (ht : 1 ≤ t) (ht7 : t ≤ NR_TERMINAL) (hcs : ∀ c ∈ cs, toChar c ≠ 'M') :
    ∃ w', printChars tbl t cs w = .ok w' ∧ OnScreens C R w' ∧ w'.tty = w.tty := by
  induction cs generalizing w with
  | nil => exact ⟨w, rfl, hscreens, rfl⟩
  | cons c cs ih =>
    obtain ⟨v, hv, hmap, hscreens', htty, -⟩ := putcharOn_ok h hscreens harea ht ht7
      fun hbad : ReversesAtTop (w.vt t) c => hcs c (List.mem_cons_self ..) hbad.2.1
    obtain ⟨w', hw', hdone, htty'⟩ := ih hmap hscreens' fun b hb => hcs b (List.mem_cons_of_mem c hb)
    have hprinting : (w.terms t).printing = false := (hscreens t ht ht7).printing
    refine ⟨w', ?_, hdone, htty'.trans htty⟩
    rw [printChars, hprinting, if_neg Bool.false_ne_true, hv, ok_bind, hw']

/-- The cursor goes to where the VGA shows it. -/
theorem pos2xy_ok (h : TerminalOk C R s) (hwrap : s.term.needWrap = false)
    {pos : BitVec 16} (hpos : pos.toNat < R * C) :
    ∃ term, pos2xy s.term pos = .ok term ∧ TerminalOk C R { s with term := term } := by
  have hC : 0 < C := Nat.lt_of_le_of_lt (Nat.zero_le _) h.placed.x_lt
  have hcols : s.term.cols.toNat = C := h.placed.cols
  have hne : ¬ s.term.cols = 0 := by
    intro hbad
    rw [hbad] at hcols
    exact Nat.ne_of_gt hC hcols.symm
  have hx : ((pos % s.term.cols).truncate 12).toNat < C := by
    rw [BitVec.truncate_eq_setWidth, BitVec.toNat_setWidth, BitVec.toNat_umod, hcols]
    exact Nat.lt_of_le_of_lt (Nat.mod_le ..) (Nat.mod_lt _ hC)
  have hy : ((pos / s.term.cols).truncate 12).toNat < R := by
    rw [BitVec.truncate_eq_setWidth, BitVec.toNat_setWidth, BitVec.toNat_udiv, hcols]
    exact Nat.lt_of_le_of_lt (Nat.mod_le ..) (Nat.div_lt_of_lt_mul (by rwa [Nat.mul_comm]))
  generalize hcursor : { s.term.cursor with
    x := (pos % s.term.cols).truncate 12, y := (pos / s.term.cols).truncate 12 } = cursor
  have hok : pos2xy s.term pos = .ok (s.setCursor cursor).term := by
    rw [pos2xy, if_neg hne, hcursor]
    rfl
  have hplaced : OnScreen C R (s.setCursor cursor) :=
    h.placed.setCursor (by rw [← hcursor]; exact hx) (by rw [← hcursor]; exact hy)
  exact ⟨_, hok, ⟨⟨hplaced, fun hbad => Bool.noConfusion (hwrap.symm.trans hbad), h.param⟩, h.printing⟩⟩

/-- The terminals after the loop are fresh ones. -/
theorem OnScreens.fresh (hC : 0 < w.vga.cols.toNat) (hR : 0 < w.vga.rows.toNat)
    (hquiet : ∀ t, 1 ≤ t → t ≤ NR_TERMINAL → (w.terms t).printing = false) (hvga : w'.vga = w.vga)
    (hterms : ∀ t, 1 ≤ t → t ≤ NR_TERMINAL →
      w'.terms t = { terminalDefaults w.vga (w.terms t) with number := t }) :
    OnScreens w.vga.cols.toNat w.vga.rows.toNat w' := by
  intro t ht ht7
  have hdefault := placed_defaults w.vga [] (w.terms t) hC hR fun _ hop => absurd hop List.not_mem_nil
  have hvt : w'.vt t = { term := { terminalDefaults w.vga (w.terms t) with number := t }
                         vga := w.vga, fb := [] } := by
    rw [VtWorld.vt, hterms t ht ht7, hvga]
  rw [hvt]
  exact ⟨⟨hdefault.congr ⟨rfl, rfl, rfl, rfl, rfl, rfl, rfl⟩, Bool.noConfusion, fun hstate => by cases hstate⟩,
    hquiet t ht ht7⟩

theorem openTerminalTty_congr {num : Nat} {wt : VtWorld} (h : openTerminalTty uart num w = .ok wt)
    (htty : w'.tty = w.tty) : openTerminalTty uart num w' = .ok { w' with tty := wt.tty } := by
  rw [openTerminalTty] at h ⊢
  rw [htty]
  cases hget : getTty (mkdev TTY_MAJOR num) with
  | error e =>
    rw [hget] at h
    cases h
  | ok i =>
    rw [hget] at h
    cases hopen : ttyOpenInternal uart w.tty i with
    | error e =>
      simp only [hopen] at h
      cases h
    | ok x =>
      obtain ⟨ret, tty⟩ := x
      simp only [hopen] at h ⊢
      by_cases hret : ret ≠ 0
      · rw [if_pos hret] at h
        cases h
      · rw [if_neg hret] at h ⊢
        obtain rfl := Except.ok.inj h
        rfl

theorem Switchable.switchDefault_ok (h : Switchable tbl w) {wt : VtWorld}
    (hopen : openTerminalTty uart DEFAULT_VT w = .ok wt) :
    ∃ w', Ohwes.switchDefault tbl uart w = .ok w' ∧ Mapped tbl w' ∧ w'.terms = w.terms ∧
      w'.vga.plain = w.vga.plain ∧ w'.tty = wt.tty := by
  obtain ⟨w', hok, hmap, hterms, -, hvga, htty, -⟩ :=
    h.switch (by decide : (0 : Int) < DEFAULT_VT) (by decide) hopen
  refine ⟨w', ?_, hmap, hterms, hvga, htty⟩
  rw [Ohwes.switchDefault, hok]
  rfl

theorem Starting.restoreBoot_ok (h : Starting tbl w) (hscreens : OnScreens C R w)
    (hwrap : (w.terms DEFAULT_VT).needWrap = false) (hpos : w.vga.cursorPos.toNat < R * C) :
    ∃ w', Ohwes.restoreBoot w = .ok w' ∧ OnScreens C R w' ∧ w'.tty = w.tty := by
  have hc1 : 1 ≤ DEFAULT_VT := by decide
  have hc7 : DEFAULT_VT ≤ NR_TERMINAL := by decide
  have hone : (1 : Int) = (DEFAULT_VT : Nat) := rfl
  obtain ⟨term, hterm, hok⟩ := pos2xy_ok (s := w.vt DEFAULT_VT) (hscreens DEFAULT_VT hc1 hc7) hwrap hpos
  have hterm' : pos2xy (w.terms DEFAULT_VT) w.vga.cursorPos = .ok term := hterm
  refine ⟨(w.setFramebuf DEFAULT_VT (getVgaFb w)).setTerm DEFAULT_VT term, ?_, fun t ht ht7 => ?_, rfl⟩
  · rw [Ohwes.restoreBoot, hone, h.getTerminal hc1 hc7, ok_bind, hterm', ok_bind]
  · by_cases hfirst : t = DEFAULT_VT
    · rw [hfirst, setTerm_vt_self]
      exact hok
    · rw [setTerm_vt_other hfirst]
      exact hscreens t ht ht7

/-- `init_terminal` comes back if the VGA's screen fits into a frame buffer and the first tty opens. -/
theorem Booted.initTerminal_ok (h : Booted tbl w)
    (hnone : ∀ t, 1 ≤ t → t ≤ NR_TERMINAL → w.initialized t = false)
    (hquiet : ∀ t, 1 ≤ t → t ≤ NR_TERMINAL → (w.terms t).printing = false)
    (hC : w.vga.cols.toNat = C) (hR : w.vga.rows.toNat = R) (harea : R * C ≤ 4096)
    (hpos : w.vga.cursorPos.toNat < R * C) {wt : VtWorld}
    (hopen : openTerminalTty uart DEFAULT_VT w = .ok wt) :
    ∃ w', Ohwes.initTerminal tbl uart w = .ok w' ∧ OnScreens C R w' ∧ w'.tty = wt.tty := by
  subst hC hR
  have hC0 : 0 < w.vga.cols.toNat := Nat.pos_of_ne_zero fun hbad => by rw [hbad] at hpos; omega
  have hR0 : 0 < w.vga.rows.toNat := Nat.pos_of_ne_zero fun hbad => by rw [hbad] at hpos; omega
  have hstart : Starting tbl { w with fbSelect := VGA_MEMORY_128K } := ⟨⟨h.shown, h.early, h.slots⟩, rfl⟩
  obtain ⟨w₁, h₁, hvga₁, htty₁, hterms₁⟩ := hstart.initTerminals_ok hC0 hR0 harea
    fun i => range_terminals
  have hmem : ∀ t, 1 ≤ t → t ≤ NR_TERMINAL → t ∈ List.range' 1 NR_TERMINAL := fun t ht ht7 =>
    List.mem_range'_1.mpr (by omega)
  have hfresh₁ : ∀ t, 1 ≤ t → t ≤ NR_TERMINAL →
      w₁.terms t = { terminalDefaults w.vga (w.terms t) with number := t } := fun t ht ht7 =>
    (hterms₁ t).trans (if_pos ⟨hmem t ht ht7, hnone t ht ht7⟩)
  have hscreens₁ := OnScreens.fresh hC0 hR0 hquiet hvga₁ hfresh₁
  obtain ⟨hs₁, hall⟩ := hstart.initTerminals (fun i => range_terminals) h₁
  have hwrap : (w₁.terms DEFAULT_VT).needWrap = false :=
    congrArg Terminal.needWrap (hfresh₁ DEFAULT_VT (by decide) (by decide))
  obtain ⟨w₂, h₂, hscreens₂, htty₂⟩ := hs₁.restoreBoot_ok hscreens₁ hwrap (by rwa [hvga₁])
  have hswitchable := hs₁.restoreBoot (fun t ht ht7 => hall t (Or.inr (hmem t ht ht7))) h₂
  obtain ⟨w₃, h₃, hmap₃, hterms₃, hvga₃, htty₃⟩ :=
    hswitchable.switchDefault_ok (openTerminalTty_congr hopen (htty₂.trans htty₁))
  have hscreens₃ := hscreens₂.switch hterms₃ hvga₃
  have hnum : numbered w₃.currterm DEFAULT_VT = DEFAULT_VT := if_neg (by decide)
  have ht₃ := hmap₃.switchable.getTerminal (by decide : (0 : Int) ≤ DEFAULT_VT) (by decide)
  rw [hnum] at ht₃
  have hc1 : 1 ≤ DEFAULT_VT := by decide
  have hc7 : DEFAULT_VT ≤ NR_TERMINAL := by decide
  obtain ⟨w₄, h₄, hmap₄, hscreens₄, htty₄⟩ := onTerminal_saveTerminal_ok hmap₃ hscreens₃ hc1 hc7
  have hchars : ∀ c ∈ ASCII_ESC :: 0x34 :: ASCII_ESC :: [0x36], toChar c ≠ 'M' := by decide
  obtain ⟨w₅, h₅, hscreens₅, htty₅⟩ := printChars_ok hmap₄ hscreens₄ harea hc1 hc7 hchars
  refine ⟨w₅, ?_, hscreens₅, htty₅.trans (htty₄.trans htty₃)⟩
  rw [Ohwes.initTerminal]
  dsimp only
  rw [if_neg (by decide), h₁, ok_bind, h₂, ok_bind, h₃, ok_bind, ht₃, ok_bind, h₄, ok_bind]
  exact h₅

theorem vtStep_switch_ok (h : Mapped tbl w) (hscreens : OnScreens C R w) {num : Int} (hn : 0 < num)
    (hn7 : num ≤ NR_TERMINAL) {wt : VtWorld} (hopen : openTerminalTty uart num.toNat w = .ok wt) :
    ∃ w', vtStep tbl uart w (.switchTo num) = .ok w' ∧ Mapped tbl w' ∧ OnScreens C R w' ∧
      w'.tty = wt.tty := by
  obtain ⟨w', hok, hmap, hterms, -, hvga, htty, -⟩ := h.switchable.switch hn hn7 hopen
  refine ⟨w', ?_, hmap, hscreens.switch hterms hvga, htty⟩
  rw [vtStep, hok]
  rfl

theorem vtStep_putchar_ok (h : Mapped tbl w) (hscreens : OnScreens C R w) (harea : R * C ≤ 4096) {num : Int}
    (hn : 0 ≤ num) (hn7 : num ≤ NR_TERMINAL) {c : Byte}
    (hc : ¬ ReversesAtTop (w.vt (numbered w.currterm num)) c) :
    StaysInside w (.putchar num c) ∧ ∃ w', vtStep tbl uart w (.putchar num c) = .ok w' ∧ Mapped tbl w' ∧
      OnScreens C R w' ∧ w'.tty = w.tty := by
  obtain ⟨ht, ht7⟩ := numbered_bounds h.shown.1 h.shown.2 hn hn7
  obtain ⟨w', hput, hmap, hscreens', htty, -⟩ := putcharOn_ok h hscreens harea ht ht7 hc
  refine ⟨((hscreens _ ht ht7).step harea w.currterm hc).within harea, w', ?_, hmap, hscreens', htty⟩
  rw [vtStep, h.switchable.getTerminal hn hn7, ok_bind, hput]

theorem openTerminalTty_of_open {num i : Nat} {x : Int × TtyWorld}
    (hget : getTty (mkdev TTY_MAJOR num) = .ok i) (hopen : ttyOpenInternal uart w.tty i = .ok x)
    (hx : x.1 = 0) : openTerminalTty uart num w = .ok { w with tty := x.2 } := by
  obtain ⟨ret, tty⟩ := x
  rw [openTerminalTty, hget]
  simp only [hopen]
  exact if_neg (not_not.mpr hx)

end Progress

end Init

/-! ## Isolation -/

/-- **Isolation.** After `init_terminal`, however terminals are switched to and written to, what each of
them shows is what its own writes alone make of what it showed at first, and the screen of the current
terminal is on display. -/
theorem terminals_isolated (tbl : PageTable) (uart : Fin NR_SERIAL → Uart) (w₀ w₁ w₂ : VtWorld)
    (ops : List VtOp) (hboot : Booted tbl w₀) (hinit : initTerminal tbl uart w₀ = .ok w₁)
    (hin : Throughout (vtStep tbl uart) StaysInside w₁ ops)
    (hrun : run (vtStep tbl uart) w₁ ops = .ok w₂) :
    (∀ t, 1 ≤ t → t ≤ NR_TERMINAL → ∃ cells, seenThrough tbl w₁ t = .ok cells ∧
      seenThrough tbl w₂ t =
        .ok ((LoneTerminal.showing (w₁.vt t) cells).write (ownWrites t w₁.currterm ops)).cells) ∧
    ∃ t, currentTerminal w₂ = .ok t ∧ seenThrough tbl w₂ t = .ok (vgaPage w₂) := by
  have hmap := hboot.initTerminal hinit
  obtain ⟨hmap₂, halone⟩ := run_isolated hmap hin hrun
  refine ⟨fun t ht ht7 => ?_, w₂.currterm, ?_, ?_⟩
  · obtain ⟨cells, hseen, hl⟩ := hmap.actsAlone ht ht7
    exact ⟨cells, hseen, (halone t _ ht hl).seen hmap₂ ht ht7⟩
  · have hcurr := hmap₂.shown
    rw [currentTerminal, if_neg (by omega)]
  · obtain ⟨hc, hc7⟩ := hmap₂.shown
    obtain ⟨cells, hseen, hl⟩ := hmap₂.actsAlone hc hc7
    rw [hl.displayed hmap₂, ← hl.seen hmap₂ hc hc7]

/-- Low memory is mapped for the kernel, and nothing else has happened. -/
def bootTable : PageTable := { addr := 0x3000, aligned := by decide }

def bootWorld : VtWorld where
  paged :=
    { pgdir := fun i => if i = 768 then mkpde bootTable.addr PAGE_RW else 0
      pgtbl := fun n => mkpte (BitVec.ofNat 32 n <<< PAGE_SHIFT) PAGE_RW
      ram := fun _ => 0x20 }
  fbSelect := 3
  vga := textVga
  terms _ := zeroTerminal 0
  framebuf _ := 0
  initialized _ := false
  currterm := DEFAULT_VT
  tty := TtyWorld.fresh fun j => probedPort (j.val + 1)

def bootUarts : Fin NR_SERIAL → Uart := fun _ => steadyUart 0x01 0x60 0x30

theorem bootWorld_booted : Booted bootTable bootWorld where
  shown := rfl
  early := fun _ _ _ h => Bool.noConfusion h
  slots := {
    kernel := leadsToTable_mkpde bootTable
    entries := by
      have hpage : ∀ t ≤ NR_TERMINAL, ∀ i < FB_SIZE_PAGES,
          (BitVec.ofNat 32 (160 + t * FB_SIZE_PAGES + i) <<< PAGE_SHIFT : BitVec 32) =
            slotAddr t + BitVec.ofNat 32 i <<< PAGE_SHIFT ∧
          (BitVec.ofNat 32 (160 + t * FB_SIZE_PAGES + i) <<< PAGE_SHIFT : BitVec 32).toNat % 4096 = 0 := by
        decide +kernel
      intro t ht i hi
      obtain ⟨hsame, haligned⟩ := hpage t ht i hi
      rw [← hsame]
      exact names_mkpte haligned }

/-- A write to the hidden first terminal, which is then shown again. -/
def hiddenWrite : List VtOp := [.switchTo 2, .putchar 1 0x41, .switchTo 1]

theorem terminals_isolated_hidden :
    ∃ w₁, initTerminal bootTable bootUarts bootWorld = .ok w₁ ∧
      ∃ w₂, run (vtStep bootTable bootUarts) w₁ hiddenWrite = .ok w₂ ∧
        (∀ t, 1 ≤ t → t ≤ NR_TERMINAL → ∃ cells, seenThrough bootTable w₁ t = .ok cells ∧
          seenThrough bootTable w₂ t =
            .ok ((LoneTerminal.showing (w₁.vt t) cells).write (ownWrites t w₁.currterm hiddenWrite)).cells) ∧
        ∃ t, currentTerminal w₂ = .ok t ∧ seenThrough bootTable w₂ t = .ok (vgaPage w₂) := by
  have hopens : ∃ x, ttyOpenInternal bootUarts bootWorld.tty 1 = .ok x ∧ x.1 = 0 ∧
      ∃ y, ttyOpenInternal bootUarts x.2 2 = .ok y ∧ y.1 = 0 ∧
        ∃ z, ttyOpenInternal bootUarts y.2 1 = .ok z ∧ z.1 = 0 := by decide +kernel
  obtain ⟨x, hx, hx0, y, hy, hy0, z, hz, hz0⟩ := hopens
  have harea : 25 * 80 ≤ 4096 := by decide
  obtain ⟨w₁, hinit, hscreens₁, htty₁⟩ : ∃ w', initTerminal bootTable bootUarts bootWorld = .ok w' ∧
      OnScreens 80 25 w' ∧ w'.tty = x.2 :=
    bootWorld_booted.initTerminal_ok (fun _ _ _ => rfl) (fun _ _ _ => rfl) rfl rfl harea (by decide)
      (openTerminalTty_of_open rfl hx hx0)
  have hmap₁ := bootWorld_booted.initTerminal hinit
  obtain ⟨w, hswitch, hmap, hscreens, htty⟩ := vtStep_switch_ok hmap₁ hscreens₁
    (by decide : (0 : Int) < 2) (by decide) (openTerminalTty_of_open rfl (by rw [htty₁]; exact hy) hy0)
  have hc : ¬ ReversesAtTop (w.vt (numbered w.currterm 1)) 0x41 := fun hbad => absurd hbad.2.1 (by decide)
  obtain ⟨hin, w', hput, hmap', hscreens', htty'⟩ :
      StaysInside w (.putchar 1 0x41) ∧ ∃ w', vtStep bootTable bootUarts w (.putchar 1 0x41) = .ok w' ∧
        Mapped bootTable w' ∧ OnScreens 80 25 w' ∧ w'.tty = w.tty :=
    vtStep_putchar_ok hmap hscreens harea (by decide) (by decide) hc
  obtain ⟨w₂, hback, -⟩ := vtStep_switch_ok hmap' hscreens' (by decide : (0 : Int) < 1) (by decide)
    (openTerminalTty_of_open rfl (by rw [htty', htty]; exact hz) hz0)
  have hrun : run (vtStep bootTable bootUarts) w₁ hiddenWrite = .ok w₂ := by
    rw [hiddenWrite, run_cons_ok]
    refine ⟨w, hswitch, ?_⟩
    rw [run_cons_ok]
    refine ⟨w', hput, ?_⟩
    rw [run_cons_ok]
    exact ⟨w₂, hback, rfl⟩
  have hinside : Throughout (vtStep bootTable bootUarts) StaysInside w₁ hiddenWrite := by
    refine ⟨trivial, fun v hv => ?_⟩
    obtain rfl := Except.ok.inj (hswitch.symm.trans hv)
    exact ⟨hin, fun _ _ => ⟨trivial, fun _ _ => trivial⟩⟩
  exact ⟨w₁, hinit, w₂, hrun, terminals_isolated bootTable bootUarts bootWorld w₁ w₂ hiddenWrite
    bootWorld_booted hinit hinside hrun⟩

end Ohwes

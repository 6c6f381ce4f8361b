import Ohwes.Char.TerminalStores

/-! # Isolation in the memory of the processor

What the terminals do to memory in a step is drawing and switching, so the memory of the processor follows
every run of theirs, and the terminals are isolated there. -/

namespace Ohwes
open Library
set_option autoImplicit false

/-! ## The accesses of a step -/

def vtAccesses (w : VtWorld) : VtOp → List ScreenOp
  | .switchTo num => if num ≤ 0 ∨ num > NR_TERMINAL then [] else [.switchTo num.toNat]
  | .putchar num c =>
    let t := numbered w.currterm num
    (terminalPutchar w.currterm (w.vt t) c).2.fb.reverse.map (ScreenOp.draw t)

/-- A step with its accesses to memory carried out. -/
def vtStepPaged (L : PageLabels) (uart : Fin NR_SERIAL → Uart) (x : VtWorld × Memory386) (op : VtOp) :
    Call (VtWorld × Memory386) := do
  let y ← run (screenStepPaged L) (x.1.currterm, x.2) (vtAccesses x.1 op)
  let w ← vtStep L.table uart x.1 op
  .ok (w, y.2)

section Accesses
variable {tbl : PageTable} {uart : Fin NR_SERIAL → Uart} {w w' : VtWorld} {p q : PagedMemory}

theorem run_draws (curr : Nat) {t : Nat} {ops : List FbOp} (h : drawAll tbl (terminalFb t) ops p = .ok q) :
    run (screenStep tbl) (curr, p) (ops.map (ScreenOp.draw t)) = .ok (curr, q) := by
  induction ops generalizing p with
  | nil =>
    cases h
    rfl
  | cons op ops ih =>
    obtain ⟨p₁, hp₁, hrest⟩ := bind_ok.mp h
    exact (run_cons_ok _).mpr ⟨(curr, p₁), by rw [screenStep, hp₁, ok_bind], ih hrest⟩

theorem switchTo_accesses (h : Switchable tbl w) {num ret : Int}
    (hswitch : switchTerminal tbl uart num w = .ok (ret, w')) :
    run (screenStep tbl) (w.currterm, w.paged) (vtAccesses w (.switchTo num)) =
      .ok (w'.currterm, w'.paged) := by
  by_cases hnum : num ≤ 0 ∨ num > NR_TERMINAL
  · rw [switchTerminal, if_pos hnum] at hswitch
    obtain ⟨-, rfl⟩ := Prod.mk.inj (Except.ok.inj hswitch)
    rw [vtAccesses, if_pos hnum]
    rfl
  · have hn : 0 ≤ num := by omega
    have hn7 : num ≤ NR_TERMINAL := by omega
    have hn1 : 1 ≤ num.toNat := by omega
    have hnext7 : num.toNat ≤ NR_TERMINAL := by omega
    obtain ⟨hc, hc7⟩ := h.shown
    have hself : numbered w.currterm 0 = w.currterm := if_pos rfl
    have hnumbered : numbered w.currterm num = num.toNat := if_neg (by omega)
    have hcurr := h.getTerminal (Int.le_refl 0) (by decide)
    have hnext := h.getTerminal hn hn7
    rw [hself] at hcurr
    rw [hnumbered] at hnext
    rw [switchTerminal, if_neg hnum, hcurr, ok_bind, hnext, ok_bind] at hswitch
    obtain ⟨wt, hopen, hswitch⟩ := bind_ok.mp hswitch
    obtain ⟨tty, rfl⟩ := openTerminalTty_ok hopen
    have hsel : ({ w with tty := tty } : VtWorld).fbSelect = VGA_MEMORY_128K := h.fbSelect
    have hcurrFb := getTerminalFb_ok hsel hc hc7
    have hnextFb := getTerminalFb_ok hsel hn1 hnext7
    dsimp only at hswitch
    rw [h.number _ hc hc7, h.number _ hn1 hnext7, hcurrFb, ok_bind, hnextFb, ok_bind] at hswitch
    generalize hwf : (({ w with tty := tty } : VtWorld).setFramebuf w.currterm
      (terminalFb w.currterm)).setFramebuf num.toNat (terminalFb num.toNat) = wf at hswitch
    have hsel' : wf.fbSelect = VGA_MEMORY_128K := by rw [← hwf]; exact h.fbSelect
    have hpaged : wf.paged = w.paged := by rw [← hwf]; rfl
    have hnumber : (wf.terms num.toNat).number = num.toNat := by rw [← hwf]; exact h.number _ hn1 hnext7
    have hcurrAt : wf.framebuf w.currterm = terminalFb w.currterm := by
      rw [← hwf]
      exact h.switchedFb num.toNat hc hc7
    have hnextAt : wf.framebuf num.toNat = terminalFb num.toNat := by
      rw [← hwf]
      exact h.switchedFb num.toNat hn1 hnext7
    have hbase : (vgaGetFbInfo VGA_MEMORY_128K).framebuf = 0xA0000 := rfl
    rw [hsel', hbase, hcurrAt, hnextAt, hpaged] at hswitch
    obtain ⟨p, hswap, hdone⟩ := bind_ok.mp hswitch
    obtain ⟨-, rfl⟩ := Prod.mk.inj (Except.ok.inj hdone)
    rw [vtAccesses, if_neg hnum]
    refine (run_cons_ok _).mpr ⟨(num.toNat, p), by rw [screenStep, hswap, ok_bind], ?_⟩
    rw [run_nil, hnumber]

theorem putchar_accesses (h : Mapped tbl w) {num : Int} {c : Byte}
    (hw : vtStep tbl uart w (.putchar num c) = .ok w') :
    run (screenStep tbl) (w.currterm, w.paged) (vtAccesses w (.putchar num c)) =
      .ok (w'.currterm, w'.paged) := by
  obtain ⟨t, ht, hput⟩ := bind_ok.mp hw
  obtain ⟨hn, hn7⟩ := getTerminal_exists ht
  rw [h.switchable.getTerminal hn hn7] at ht
  cases ht
  obtain ⟨hb, hb7⟩ := numbered_bounds h.shown.1 h.shown.2 hn hn7
  obtain ⟨p, hdraw, hdone⟩ := bind_ok.mp hput
  cases hdone
  rw [h.framebuf _ hb hb7] at hdraw
  exact run_draws w.currterm hdraw

/-- The accesses of a step do to the paged memory what the step does. -/
theorem vtStep_accesses (h : Mapped tbl w) {op : VtOp} (hw : vtStep tbl uart w op = .ok w') :
    run (screenStep tbl) (w.currterm, w.paged) (vtAccesses w op) = .ok (w'.currterm, w'.paged) := by
  cases op with
  | switchTo num =>
    obtain ⟨⟨ret, v⟩, hswitch, hv⟩ := bind_ok.mp hw
    cases hv
    exact switchTo_accesses h.switchable hswitch
  | putchar num c => exact putchar_accesses h hw

theorem switchTo_fits (w : VtWorld) (num : Int) : ∀ a ∈ vtAccesses w (.switchTo num), a.Fits := by
  rw [vtAccesses]
  split
  · exact fun a ha => absurd ha List.not_mem_nil
  · next hnum =>
    have hfits : (ScreenOp.switchTo num.toNat).Fits := ⟨by omega, by omega⟩
    exact List.forall_mem_singleton.mpr hfits

theorem vtAccesses_fit (h : Mapped tbl w) {op : VtOp} (hin : StaysInside w op)
    (hw : vtStep tbl uart w op = .ok w') : ∀ a ∈ vtAccesses w op, a.Fits := by
  cases op with
  | switchTo num => exact switchTo_fits w num
  | putchar num c =>
    obtain ⟨t, ht, -⟩ := bind_ok.mp hw
    obtain ⟨hn, hn7⟩ := getTerminal_exists ht
    obtain ⟨-, hb7⟩ := numbered_bounds h.shown.1 h.shown.2 hn hn7
    intro a ha
    obtain ⟨op, hop, rfl⟩ := List.mem_map.mp ha
    exact ⟨hb7, hin op (List.mem_reverse.mp hop)⟩

end Accesses

/-! ## Initialization -/

/-- A run of accesses leads from the paged memory of `w` to that of `w'`. -/
def Accessed (tbl : PageTable) (w w' : VtWorld) : Prop :=
  ∃ ops, (∀ a ∈ ops, ScreenOp.Fits a) ∧
    run (screenStep tbl) (w.currterm, w.paged) ops = .ok (w'.currterm, w'.paged)

section Init
variable {tbl : PageTable} {uart : Fin NR_SERIAL → Uart} {w w' v : VtWorld} {C R t : Nat}

theorem Accessed.of_same (hcurr : w'.currterm = w.currterm) (hpaged : w'.paged = w.paged) :
    Accessed tbl w w' :=
  ⟨[], fun _ ha => absurd ha List.not_mem_nil, by rw [hcurr, hpaged]; rfl⟩

theorem Accessed.trans (h : Accessed tbl w v) (h' : Accessed tbl v w') : Accessed tbl w w' := by
  obtain ⟨ops, hops, hrun⟩ := h
  obtain ⟨more, hmore, hrun'⟩ := h'
  exact ⟨ops ++ more, List.forall_mem_append.mpr ⟨hops, hmore⟩,
    (run_append_ok _).mpr ⟨_, hrun, hrun'⟩⟩

theorem onTerminal_accessed {f : Vt → Vt} (hfb : w.framebuf t = terminalFb t) (ht : t ≤ NR_TERMINAL)
    (hin : ∀ op ∈ (f (w.vt t)).fb, op.Within (FB_SIZE / 2)) (hw : onTerminal tbl f t w = .ok w') :
    Accessed tbl w w' := by
  obtain ⟨p, hdraw, hdone⟩ := bind_ok.mp hw
  cases hdone
  rw [hfb] at hdraw
  refine ⟨_, fun a ha => ?_, run_draws w.currterm hdraw⟩
  obtain ⟨op, hop, rfl⟩ := List.mem_map.mp ha
  exact ⟨ht, hin op (List.mem_reverse.mp hop)⟩

theorem Starting.initTerminals_accessed {is : List Nat} (h : Starting tbl w) (hC : 0 < w.vga.cols.toNat)
    (hR : 0 < w.vga.rows.toNat) (harea : w.vga.rows.toNat * w.vga.cols.toNat ≤ FB_SIZE / 2)
    (his : ∀ i ∈ is, 1 ≤ i ∧ i ≤ NR_TERMINAL) (hw : Ohwes.initTerminals tbl is w = .ok w') :
    Accessed tbl w w' := by
  induction is generalizing w with
  | nil =>
    cases hw
    exact Accessed.of_same rfl rfl
  | cons i is ih =>
    obtain ⟨hi1, hi7⟩ := his i (List.mem_cons_self ..)
    have his' : ∀ j ∈ is, 1 ≤ j ∧ j ≤ NR_TERMINAL := fun j hj => his j (List.mem_cons_of_mem i hj)
    rw [Ohwes.initTerminals, h.getTerminal hi1 hi7, ok_bind] at hw
    cases hinit : w.initialized i with
    | true =>
      rw [hinit, if_pos rfl] at hw
      exact ih h hC hR harea his' hw
    | false =>
      rw [hinit, if_neg Bool.false_ne_true, h.initializeTerminal hi1 hi7 hinit, ok_bind] at hw
      obtain ⟨v, hv, hrest⟩ := bind_ok.mp hw
      have hfb : (w.fresh i).framebuf i = terminalFb i := by
        rw [fresh_framebuf, Function.update_self]
      have herase : Accessed tbl (w.fresh i) v :=
        onTerminal_accessed (f := fun s => erase s ERASE_ALL) hfb hi7 (erase_fresh_within hC hR harea i) hv
      obtain ⟨hterm, hvga⟩ := erase_frame ((w.fresh i).vt i) ERASE_ALL
      obtain ⟨ram, rfl⟩ := onTerminal_changes hv
      have hsame : Accessed tbl w (w.fresh i) := Accessed.of_same rfl rfl
      have hvvga : ((w.fresh i).drew i (erase ((w.fresh i).vt i) ERASE_ALL) ram).vga = w.vga := hvga
      have hrest' := ih ((h.fresh i).drew (congrArg Terminal.number hterm) ram) (by rwa [hvvga]) (by rwa [hvvga])
        (by rwa [hvvga]) his' hrest
      exact (hsame.trans herase).trans hrest'

theorem Mapped.printChars_accessed {cs : List Byte} (h : Mapped tbl w) (hscreens : OnScreens C R w)
    (harea : R * C ≤ 4096) (ht : 1 ≤ t) (ht7 : t ≤ NR_TERMINAL) (hcs : ∀ c ∈ cs, toChar c ≠ 'M')
    (hw : Ohwes.printChars tbl t cs w = .ok w') : Accessed tbl w w' := by
  induction cs generalizing w with
  | nil =>
    cases hw
    exact Accessed.of_same rfl rfl
  | cons c cs ih =>
    rw [Ohwes.printChars] at hw
    split at hw
    · cases hw
    · obtain ⟨v, hv, hrest⟩ := bind_ok.mp hw
      have hc : ¬ ReversesAtTop (w.vt t) c := fun hbad => hcs c (List.mem_cons_self ..) hbad.2.1
      have hok := (hscreens t ht ht7).step harea w.currterm hc
      have hput := onTerminal_accessed (f := fun s => (terminalPutchar w.currterm s c).2)
        (h.framebuf t ht ht7) ht7 (hok.within harea) hv
      obtain ⟨v', hv', hmap, hscreens', -⟩ := putcharOn_ok h hscreens harea ht ht7 hc
      rw [hv] at hv'
      cases hv'
      exact hput.trans (ih hmap hscreens' (fun b hb => hcs b (List.mem_cons_of_mem c hb)) hrest)

theorem restoreBoot_accessed (hw : restoreBoot w = .ok w') : Accessed tbl w w' := by
  obtain ⟨t, -, hw⟩ := bind_ok.mp hw
  obtain ⟨term, -, hw⟩ := bind_ok.mp hw
  cases hw
  exact Accessed.of_same rfl rfl

theorem Switchable.switchDefault_accessed (h : Switchable tbl w)
    (hw : Ohwes.switchDefault tbl uart w = .ok w') : Accessed tbl w w' := by
  obtain ⟨⟨ret, v⟩, hswitch, hv⟩ := bind_ok.mp hw
  dsimp only at hv
  split at hv
  · cases hv
  · cases hv
    exact ⟨_, switchTo_fits w DEFAULT_VT, switchTo_accesses h hswitch⟩

theorem Switchable.switchDefault_screens (h : Switchable tbl w) (hscreens : OnScreens C R w)
    (hw : Ohwes.switchDefault tbl uart w = .ok w') : Mapped tbl w' ∧ OnScreens C R w' := by
  obtain ⟨⟨ret, v⟩, hswitch, -⟩ := bind_ok.mp hw
  cases hopen : openTerminalTty uart DEFAULT_VT w with
  | error e =>
    rw [h.switch_closed (by decide : (0 : Int) < DEFAULT_VT) (by decide) hopen] at hswitch
    cases hswitch
  | ok wt =>
    obtain ⟨_, hok, hmap, hterms, hvga, -⟩ := h.switchDefault_ok hopen
    cases hw.symm.trans hok
    exact ⟨hmap, hscreens.switch hterms hvga⟩

/-- `init_terminal` draws in the frame buffers and switches. -/
theorem Booted.initTerminal_accessed (h : Booted tbl w)
    (hnone : ∀ t, 1 ≤ t → t ≤ NR_TERMINAL → w.initialized t = false)
    (hquiet : ∀ t, 1 ≤ t → t ≤ NR_TERMINAL → (w.terms t).printing = false)
    (hC : w.vga.cols.toNat = C) (hR : w.vga.rows.toNat = R) (harea : R * C ≤ 4096)
    (hpos : w.vga.cursorPos.toNat < R * C) (hw : Ohwes.initTerminal tbl uart w = .ok w') :
    Accessed tbl w w' := by
  subst hC hR
  have hC0 : 0 < w.vga.cols.toNat := Nat.pos_of_ne_zero fun hbad => by rw [hbad] at hpos; omega
  have hR0 : 0 < w.vga.rows.toNat := Nat.pos_of_ne_zero fun hbad => by rw [hbad] at hpos; omega
  have hstart : Starting tbl { w with fbSelect := VGA_MEMORY_128K } := ⟨⟨h.shown, h.early, h.slots⟩, rfl⟩
  rw [Ohwes.initTerminal] at hw
  dsimp only at hw
  rw [if_neg (by decide)] at hw
  obtain ⟨w₁, h₁, hw⟩ := bind_ok.mp hw
  obtain ⟨w₂, h₂, hw⟩ := bind_ok.mp hw
  obtain ⟨w₃, h₃, hw⟩ := bind_ok.mp hw
  obtain ⟨t, ht, hw⟩ := bind_ok.mp hw
  obtain ⟨w₄, h₄, h₅⟩ := bind_ok.mp hw
  -- the loop
  obtain ⟨_, hloop, hvga₁, -, hterms₁⟩ := hstart.initTerminals_ok hC0 hR0 harea fun i => range_terminals
  cases h₁.symm.trans hloop
  have hmem : ∀ t, 1 ≤ t → t ≤ NR_TERMINAL → t ∈ List.range' 1 NR_TERMINAL := fun t ht ht7 =>
    List.mem_range'_1.mpr (by omega)
  have hfresh₁ : ∀ t, 1 ≤ t → t ≤ NR_TERMINAL →
      w₁.terms t = { terminalDefaults w.vga (w.terms t) with number := t } := fun t ht ht7 =>
    (hterms₁ t).trans (if_pos ⟨hmem t ht ht7, hnone t ht ht7⟩)
  have hscreens₁ := OnScreens.fresh hC0 hR0 hquiet hvga₁ hfresh₁
  obtain ⟨hs₁, hall⟩ := hstart.initTerminals (fun i => range_terminals) h₁
  have hwrap : (w₁.terms DEFAULT_VT).needWrap = false :=
    congrArg Terminal.needWrap (hfresh₁ DEFAULT_VT (by decide) (by decide))
  -- the boot messages
  obtain ⟨_, hboot, hscreens₂, -⟩ := hs₁.restoreBoot_ok hscreens₁ hwrap (by rwa [hvga₁])
  cases h₂.symm.trans hboot
  have hswitchable := hs₁.restoreBoot (fun t ht ht7 => hall t (Or.inr (hmem t ht ht7))) h₂
  -- the switch
  obtain ⟨hmap₃, hscreens₃⟩ := hswitchable.switchDefault_screens hscreens₂ h₃
  have hnum : numbered w₃.currterm DEFAULT_VT = DEFAULT_VT := if_neg (by decide)
  have ht₃ := hmap₃.switchable.getTerminal (by decide : (0 : Int) ≤ DEFAULT_VT) (by decide)
  rw [hnum] at ht₃
  cases ht.symm.trans ht₃
  have hc1 : 1 ≤ DEFAULT_VT := by decide
  have hc7 : DEFAULT_VT ≤ NR_TERMINAL := by decide
  obtain ⟨_, hsave, hmap₄, hscreens₄, -⟩ := onTerminal_saveTerminal_ok hmap₃ hscreens₃ hc1 hc7
  cases h₄.symm.trans hsave
  have hchars : ∀ c ∈ ASCII_ESC :: 0x34 :: ASCII_ESC :: [0x36], toChar c ≠ 'M' := by decide
  have hdrawn₁ := hstart.initTerminals_accessed hC0 hR0 harea (fun i => range_terminals) h₁
  have hdrawn₄ : Accessed tbl w₃ w₄ := onTerminal_accessed (f := saveTerminal)
    (hmap₃.framebuf _ hc1 hc7) hc7 (fun op hop => absurd hop List.not_mem_nil) h₄
  have hdrawn₅ := hmap₄.printChars_accessed hscreens₄ harea hc1 hc7 hchars h₅
  exact (((hdrawn₁.trans (restoreBoot_accessed h₂)).trans (hswitchable.switchDefault_accessed h₃)).trans
    hdrawn₄).trans hdrawn₅

end Init

/-! ## Runs -/

section Runs
variable {L : HighLabels} {uart : Fin NR_SERIAL → Uart} {w w' : VtWorld} {m : Memory386} {p : PagedMemory}

theorem Embeds.vtStep (h : Embeds L m w.paged) (hmap : Mapped L.table w) {op : VtOp}
    (hin : StaysInside w op) (hw : vtStep L.table uart w op = .ok w') :
    ∃ m', vtStepPaged L.toPageLabels uart (w, m) op = .ok (w', m') ∧ Embeds L m' w'.paged := by
  have hscreens : ScreensMapped L.table w.currterm w.paged :=
    ⟨hmap.shown, slotOf w.currterm, hmap.slots, update_slotOf w.currterm, fun _ => slotOf_le⟩
  obtain ⟨m', curr, q, hm', hq, h', -⟩ := h.run hscreens (vtAccesses_fit hmap hin hw)
  rw [vtStep_accesses hmap hw] at hq
  obtain ⟨rfl, rfl⟩ := Prod.mk.inj (Except.ok.inj hq)
  exact ⟨m', by rw [vtStepPaged, hm', ok_bind, hw, ok_bind], h'⟩

theorem Embeds.vtRun {ops : List VtOp} (h : Embeds L m w.paged) (hmap : Mapped L.table w)
    (hin : Throughout (Ohwes.vtStep L.table uart) StaysInside w ops)
    (hw : Library.run (Ohwes.vtStep L.table uart) w ops = .ok w') :
    ∃ m', Library.run (vtStepPaged L.toPageLabels uart) (w, m) ops = .ok (w', m') ∧ Embeds L m' w'.paged := by
  induction ops generalizing w m with
  | nil =>
    cases hw
    exact ⟨m, rfl, h⟩
  | cons op ops ih =>
    obtain ⟨v, hv, hrest⟩ := (run_cons_ok _).mp hw
    obtain ⟨m₁, hm₁, h₁⟩ := h.vtStep hmap hin.1 hv
    have hmap₁ := (vtStep_isolated hmap hin.1 hv).1
    obtain ⟨m', hm', h'⟩ := ih h₁ hmap₁ (hin.2 v hv) hrest
    exact ⟨m', (run_cons_ok _).mpr ⟨(v, m₁), hm₁, hm'⟩, h'⟩

/-- What a terminal sees through its frame buffer is in memory. -/
theorem Embeds.seen (h : Embeds L m w.paged) (hmap : Mapped L.table w) {t : Nat} (ht : 1 ≤ t)
    (ht7 : t ≤ NR_TERMINAL) {cells : List Byte} (hseen : seenThrough L.table w t = .ok cells) :
    loadBytesPaged L.toPageLabels m FB_SIZE (terminalFb t) = .ok cells := by
  rw [seenThrough, hmap.framebuf t ht ht7] at hseen
  exact h.loadBytes (fb_area ht7) hseen

/-- What memory has in the frame buffer of a terminal is in the end what the terminal's own writes make of
what it had there. -/
theorem Embeds.isolated (ops : List VtOp) (h : Embeds L m w.paged) (hmap : Mapped L.table w)
    (hin : Throughout (Ohwes.vtStep L.table uart) StaysInside w ops)
    (hw : Library.run (Ohwes.vtStep L.table uart) w ops = .ok w') :
    ∃ m', Library.run (vtStepPaged L.toPageLabels uart) (w, m) ops = .ok (w', m') ∧ Embeds L m' w'.paged ∧
      ∀ t, 1 ≤ t → t ≤ NR_TERMINAL → ∃ cells,
        loadBytesPaged L.toPageLabels m FB_SIZE (terminalFb t) = .ok cells ∧
        loadBytesPaged L.toPageLabels m' FB_SIZE (terminalFb t) =
          .ok ((LoneTerminal.showing (w.vt t) cells).write (ownWrites t w.currterm ops)).cells := by
  obtain ⟨m', hm', h'⟩ := h.vtRun hmap hin hw
  obtain ⟨hmap', halone⟩ := run_isolated hmap hin hw
  refine ⟨m', hm', h', fun t ht ht7 => ?_⟩
  obtain ⟨cells, hseen, hl⟩ := hmap.actsAlone ht ht7
  exact ⟨cells, h.seen hmap ht ht7 hseen, h'.seen hmap' ht ht7 ((halone t _ ht hl).seen hmap' ht ht7)⟩

end Runs

/-! ## From the boot code on -/

/-- No terminal has been used, and the VGA's screen fits into a frame buffer. -/
structure EarlyScreen (w : VtWorld) : Prop where
  shown : w.currterm = DEFAULT_VT
  none : ∀ t, w.initialized t = false
  quiet : ∀ t, (w.terms t).printing = false
  area : w.vga.rows.toNat * w.vga.cols.toNat ≤ 4096
  cursor : w.vga.cursorPos.toNat < w.vga.rows.toNat * w.vga.cols.toNat

theorem EarlyScreen.booted {tbl : PageTable} {w : VtWorld} (h : EarlyScreen w)
    (hslots : Slots tbl w.paged fun t => t) : Booted tbl w := by
  refine ⟨h.shown, fun t _ _ hinit => ?_, hslots⟩
  rw [h.none t] at hinit
  exact Bool.noConfusion hinit

/-- **From the boot code to the isolation of the terminals.** On the memory that `ksetup` leaves, what
`init_terminal` and the terminals after it do to memory is never a fault, and each terminal has its own frame
buffer there. -/
theorem boot_isolated (L : HighLabels) (uart : Fin NR_SERIAL → Uart) (m : Memory386) :
    ∃ m₁, kernelSpace L.toPageLabels m = .ok m₁ ∧
      ∀ (w₀ w₁ w₂ : VtWorld) (ops : List VtOp), EarlyScreen w₀ → w₀.paged = pagedOf L.toPageLabels m₁ →
        initTerminal L.table uart w₀ = .ok w₁ → Throughout (vtStep L.table uart) StaysInside w₁ ops →
        run (vtStep L.table uart) w₁ ops = .ok w₂ →
        ∃ accesses m₂ m₃, (∀ a ∈ accesses, ScreenOp.Fits a) ∧
          run (screenStepPaged L.toPageLabels) (DEFAULT_VT, m₁) accesses = .ok (w₁.currterm, m₂) ∧
          Embeds L m₂ w₁.paged ∧
          run (vtStepPaged L.toPageLabels uart) (w₁, m₂) ops = .ok (w₂, m₃) ∧ Embeds L m₃ w₂.paged ∧
          ∀ t, 1 ≤ t → t ≤ NR_TERMINAL → ∃ cells,
            loadBytesPaged L.toPageLabels m₂ FB_SIZE (terminalFb t) = .ok cells ∧
            loadBytesPaged L.toPageLabels m₃ FB_SIZE (terminalFb t) =
              .ok ((LoneTerminal.showing (w₁.vt t) cells).write (ownWrites t w₁.currterm ops)).cells := by
  obtain ⟨m₁, hm₁, htbl, hdir⟩ := kernelSpace_tables L.toPageLabels m
  refine ⟨m₁, hm₁, fun w₀ w₁ w₂ ops hearly hpaged hinit hin hw => ?_⟩
  have hslots := slots_of_tables L.toPageLabels htbl hdir
  have hembeds := embeds_pagedOf L htbl hdir
  rw [← hpaged] at hslots hembeds
  have hboot := hearly.booted hslots
  obtain ⟨accesses, hfits, hrun⟩ := hboot.initTerminal_accessed (fun t _ _ => hearly.none t)
    (fun t _ _ => hearly.quiet t) rfl rfl hearly.area hearly.cursor hinit
  rw [hearly.shown] at hrun
  obtain ⟨m₂, curr, q, hm₂, hq, h₂, -⟩ := hembeds.run (ScreensMapped.early hslots) hfits
  obtain ⟨rfl, rfl⟩ := Prod.mk.inj (Except.ok.inj (hq.symm.trans hrun))
  obtain ⟨m₃, hm₃, h₃, hseen⟩ := h₂.isolated ops (hboot.initTerminal hinit) hin hw
  exact ⟨accesses, m₂, m₃, hfits, hm₂, h₂, hm₃, h₃, hseen⟩

/-- Text mode, and paging as `m` has it. -/
def earlyWorld (m : Memory386) : VtWorld :=
  { bootWorld with paged := pagedOf (default : HighLabels).toPageLabels m }

theorem earlyWorld_early (m : Memory386) : EarlyScreen (earlyWorld m) where
  shown := rfl
  none := fun _ => rfl
  quiet := fun _ => rfl
  area := show 25 * 80 ≤ 4096 by decide
  cursor := show 0 < 25 * 80 by decide

/-- A write to the second terminal, which is not on display. -/
def hiddenPutchar : List VtOp := [.putchar 2 0x41]

theorem boot_isolated_hidden : ∃ m₁ w₁ w₂,
    kernelSpace (default : HighLabels).toPageLabels (fun _ => 0) = .ok m₁ ∧
    initTerminal (default : HighLabels).table bootUarts (earlyWorld m₁) = .ok w₁ ∧
    run (vtStep (default : HighLabels).table bootUarts) w₁ hiddenPutchar = .ok w₂ ∧
    ∃ accesses m₂ m₃, (∀ a ∈ accesses, ScreenOp.Fits a) ∧
      run (screenStepPaged (default : HighLabels).toPageLabels) (DEFAULT_VT, m₁) accesses =
        .ok (w₁.currterm, m₂) ∧
      Embeds default m₂ w₁.paged ∧
      run (vtStepPaged (default : HighLabels).toPageLabels bootUarts) (w₁, m₂) hiddenPutchar = .ok (w₂, m₃) ∧
      Embeds default m₃ w₂.paged ∧
      ∀ t, 1 ≤ t → t ≤ NR_TERMINAL → ∃ cells,
        loadBytesPaged (default : HighLabels).toPageLabels m₂ FB_SIZE (terminalFb t) = .ok cells ∧
        loadBytesPaged (default : HighLabels).toPageLabels m₃ FB_SIZE (terminalFb t) =
          .ok ((LoneTerminal.showing (w₁.vt t) cells).write (ownWrites t w₁.currterm hiddenPutchar)).cells := by
  obtain ⟨m, hm, htbl, hdir⟩ := kernelSpace_tables (default : HighLabels).toPageLabels fun _ => 0
  obtain ⟨m₁, hm₁, hall⟩ := boot_isolated default bootUarts fun _ => 0
  cases hm₁.symm.trans hm
  have hearly := earlyWorld_early m
  have hboot := hearly.booted (slots_of_tables (default : HighLabels).toPageLabels htbl hdir)
  have hopens : ∃ x, ttyOpenInternal bootUarts bootWorld.tty 1 = .ok x ∧ x.1 = 0 := by decide +kernel
  obtain ⟨x, hx, hx0⟩ := hopens
  obtain ⟨w₁, hinit, hscreens, -⟩ : ∃ w', initTerminal (default : HighLabels).table bootUarts (earlyWorld m) =
      .ok w' ∧ OnScreens 80 25 w' ∧ w'.tty = x.2 :=
    hboot.initTerminal_ok (fun _ _ _ => rfl) (fun _ _ _ => rfl) rfl rfl hearly.area hearly.cursor
      (openTerminalTty_of_open rfl hx hx0)
  have hmap := hboot.initTerminal hinit
  have hc : ¬ ReversesAtTop (w₁.vt (numbered w₁.currterm 2)) 0x41 := fun hbad => absurd hbad.2.1 (by decide)
  obtain ⟨hin, w₂, hput, -⟩ : StaysInside w₁ (.putchar 2 0x41) ∧ ∃ w',
      vtStep (default : HighLabels).table bootUarts w₁ (.putchar 2 0x41) = .ok w' ∧
        Mapped (default : HighLabels).table w' ∧ OnScreens 80 25 w' ∧ w'.tty = w₁.tty :=
    vtStep_putchar_ok hmap hscreens (by decide) (by decide) (by decide) hc
  have hw : run (vtStep (default : HighLabels).table bootUarts) w₁ hiddenPutchar = .ok w₂ :=
    (run_cons_ok _).mpr ⟨w₂, hput, rfl⟩
  exact ⟨m, w₁, w₂, hm, hinit, hw,
    hall _ w₁ w₂ hiddenPutchar hearly rfl hinit ⟨hin, fun _ _ => trivial⟩ hw⟩

end Ohwes

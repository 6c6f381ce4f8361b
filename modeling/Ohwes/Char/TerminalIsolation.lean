import Ohwes.Char.TerminalAlone
import Ohwes.Char.TerminalBounds
import Ohwes.Char.TerminalScreens
import Ohwes.Library.Runs

/-! # Virtual terminals are isolated

A terminal on its own has a screen and nothing else to draw on (`LoneTerminal`). Whatever is switched to
and written to in between, a terminal of the kernel acts as it would alone (`ActsAlone`): only what is
written to it counts, and its screen is on display whenever it is the current one. -/

namespace Ohwes
open Library
set_option autoImplicit false

/-! ## Terminals alone -/

/-- An access to the frame buffer at `base`, by its effect on the memory. -/
def FbOp.drawn (base : Nat) (ram : Nat → Byte) : FbOp → Nat → Byte
  | .setChar pos ch => overlay ram (base + 2 * pos.toNat) [ch]
  | .setAttr pos attr => overlay ram (base + (2 * pos.toNat + 1)) [attr]
  | .move dst src n => overlay ram (base + 2 * dst) (slice ram (base + 2 * src) (2 * n))

def drawn (base : Nat) (ram : Nat → Byte) (ops : List FbOp) : Nat → Byte :=
  ops.foldl (FbOp.drawn base) ram

structure LoneTerminal where
  vt : Vt
  screen : Nat → Byte

namespace LoneTerminal

def showing (vt : Vt) (cells : List Byte) : LoneTerminal :=
  { vt, screen := overlay (fun _ => 0) 0 cells }

def cells (l : LoneTerminal) : List Byte := slice l.screen 0 FB_SIZE

/-- No terminal is the current one: there is no VGA to program. -/
def putchar (l : LoneTerminal) (c : Byte) : LoneTerminal :=
  let s := (terminalPutchar 0 l.vt c).2
  { vt := { s with fb := [] }, screen := drawn 0 l.screen s.fb.reverse }

def write (l : LoneTerminal) (cs : List Byte) : LoneTerminal := cs.foldl putchar l

end LoneTerminal

/-- The terminal that is meant by a number. -/
def numbered (curr : Nat) (num : Int) : Nat := if num = 0 then curr else num.toNat

/-- The terminal on display after an operation. -/
def VtOp.shown (curr : Nat) : VtOp → Nat
  | .switchTo num => if num ≤ 0 ∨ num > NR_TERMINAL then curr else num.toNat
  | .putchar _ _ => curr

/-- What an operation writes to terminal `t`. -/
def VtOp.bytesTo (t curr : Nat) : VtOp → List Byte
  | .switchTo _ => []
  | .putchar num c => if numbered curr num = t then [c] else []

/-- What is written to terminal `t`, in order, with terminal `curr` on display at first. -/
def ownWrites (t : Nat) : Nat → List VtOp → List Byte
  | _, [] => []
  | curr, op :: ops => op.bytesTo t curr ++ ownWrites t (op.shown curr) ops

/-- The cells seen through the frame buffer pointer of terminal `t`. -/
def seenThrough (tbl : PageTable) (w : VtWorld) (t : Nat) : Call (List Byte) :=
  w.paged.loadBytes tbl FB_SIZE (w.framebuf t)

/-- What is on display. -/
def vgaPage (w : VtWorld) : List Byte :=
  slice w.paged.ram (vgaGetFbInfo w.fbSelect).framebuf.toNat FB_SIZE

/-- The accesses of a write stay inside the frame buffer. -/
def StaysInside (w : VtWorld) : VtOp → Prop
  | .switchTo _ => True
  | .putchar num c => ∀ op ∈ (terminalPutchar w.currterm (w.vt (numbered w.currterm num)) c).2.fb,
      op.Within (FB_SIZE / 2)

/-! ## Accesses -/

section Accesses
variable {tbl : PageTable} {p : PagedMemory} {fb : Ptr} {base : Nat}

theorem drawOp_of_mapsTo (h : MapsTo tbl p fb base FB_SIZE) {op : FbOp} (hin : op.Within (FB_SIZE / 2)) :
    drawOp tbl fb p op = .ok { p with ram := op.drawn base p.ram } := by
  have hsize : FB_SIZE = 2 * (FB_SIZE / 2) := by decide
  cases op with
  | setChar pos ch =>
    have hpos : pos.toNat < FB_SIZE / 2 := hin
    exact store_of_mapsTo (h.part (m := 0 + 1) (by omega)) ch
  | setAttr pos attr =>
    have hpos : pos.toNat < FB_SIZE / 2 := hin
    exact store_of_mapsTo (h.part (m := 0 + 1) (by omega)) attr
  | move dst src n =>
    have hmove : dst + n ≤ FB_SIZE / 2 ∧ src + n ≤ FB_SIZE / 2 := hin
    exact memmove_of_mapsTo (h.part (by omega)) (h.part (by omega))

theorem drawAll_of_mapsTo (h : MapsTo tbl p fb base FB_SIZE) {ops : List FbOp}
    (hin : ∀ op ∈ ops, op.Within (FB_SIZE / 2)) :
    drawAll tbl fb ops p = .ok { p with ram := drawn base p.ram ops } := by
  induction ops generalizing p with
  | nil => rfl
  | cons op ops ih =>
    have hrest := ih (h.with_ram (op.drawn base p.ram)) fun o ho => hin o (List.mem_cons_of_mem op ho)
    rw [drawAll, drawOp_of_mapsTo h (hin op (List.mem_cons_self ..)), ok_bind, hrest]
    rfl

theorem store_ram {va : Ptr} {b : Byte} {q : PagedMemory} (h : p.store tbl va b = .ok q) :
    ∃ ram, q = { p with ram := ram } := by
  rw [PagedMemory.store] at h
  split at h
  · cases h
  · exact ⟨_, (Except.ok.inj h).symm⟩

theorem storeBytes_ram {bs : List Byte} {va : Ptr} {q : PagedMemory}
    (h : PagedMemory.storeBytes tbl bs va p = .ok q) : ∃ ram, q = { p with ram := ram } := by
  induction bs generalizing p va with
  | nil => exact ⟨p.ram, (Except.ok.inj h).symm⟩
  | cons b bs ih =>
    rw [PagedMemory.storeBytes] at h
    obtain ⟨r, hr, hrest⟩ := bind_ok.mp h
    obtain ⟨ram, rfl⟩ := store_ram hr
    obtain ⟨ram', hq⟩ := ih hrest
    exact ⟨ram', hq⟩

/-- Drawing changes the contents of the memory only. -/
theorem drawAll_ram {ops : List FbOp} {q : PagedMemory} (h : drawAll tbl fb ops p = .ok q) :
    ∃ ram, q = { p with ram := ram } := by
  induction ops generalizing p with
  | nil => exact ⟨p.ram, (Except.ok.inj h).symm⟩
  | cons op ops ih =>
    rw [drawAll] at h
    obtain ⟨r, hr, hrest⟩ := bind_ok.mp h
    have hop : ∃ ram, r = { p with ram := ram } := by
      cases op with
      | setChar pos ch => exact store_ram hr
      | setAttr pos attr => exact store_ram hr
      | move dst src n =>
        obtain ⟨bs, -, hstore⟩ := bind_ok.mp hr
        exact storeBytes_ram hstore
    obtain ⟨ram, rfl⟩ := hop
    obtain ⟨ram', hq⟩ := ih hrest
    exact ⟨ram', hq⟩

variable {m m' : Nat → Byte} {a b : Nat}

/-- Other frame buffers are left alone. -/
theorem slice_drawn_apart {other : Nat} (hapart : other + FB_SIZE ≤ base ∨ base + FB_SIZE ≤ other)
    {ops : List FbOp} (hin : ∀ op ∈ ops, op.Within (FB_SIZE / 2)) :
    slice (drawn base m ops) other FB_SIZE = slice m other FB_SIZE := by
  have hsize : FB_SIZE = 2 * (FB_SIZE / 2) := by decide
  induction ops generalizing m with
  | nil => rfl
  | cons op ops ih =>
    have hrest : slice (drawn base (op.drawn base m) ops) other FB_SIZE =
        slice (op.drawn base m) other FB_SIZE := ih fun o ho => hin o (List.mem_cons_of_mem op ho)
    refine hrest.trans ?_
    cases op with
    | setChar pos ch =>
      have hpos : pos.toNat < FB_SIZE / 2 := hin _ (List.mem_cons_self ..)
      exact slice_overlay_apart m [ch] (by rw [List.length_singleton]; omega)
    | setAttr pos attr =>
      have hpos : pos.toNat < FB_SIZE / 2 := hin _ (List.mem_cons_self ..)
      exact slice_overlay_apart m [attr] (by rw [List.length_singleton]; omega)
    | move dst src n =>
      have hmove : dst + n ≤ FB_SIZE / 2 ∧ src + n ≤ FB_SIZE / 2 := hin _ (List.mem_cons_self ..)
      exact slice_overlay_apart m _ (by rw [slice_length]; omega)

/-- The same accesses to frame buffers that look the same leave them looking the same. -/
theorem slice_drawn_both (h : slice m a FB_SIZE = slice m' b FB_SIZE) {ops : List FbOp}
    (hin : ∀ op ∈ ops, op.Within (FB_SIZE / 2)) :
    slice (drawn a m ops) a FB_SIZE = slice (drawn b m' ops) b FB_SIZE := by
  have hsize : FB_SIZE = 2 * (FB_SIZE / 2) := by decide
  induction ops generalizing m m' with
  | nil => exact h
  | cons op ops ih =>
    refine ih (?_ : slice (op.drawn a m) a FB_SIZE = slice (op.drawn b m') b FB_SIZE) fun o ho =>
      hin o (List.mem_cons_of_mem op ho)
    cases op with
    | setChar pos ch => exact slice_overlay_both h _ [ch]
    | setAttr pos attr => exact slice_overlay_both h _ [attr]
    | move dst src n =>
      have hmove : dst + n ≤ FB_SIZE / 2 ∧ src + n ≤ FB_SIZE / 2 := hin _ (List.mem_cons_self ..)
      have hpart : slice m (a + 2 * src) (2 * n) = slice m' (b + 2 * src) (2 * n) :=
        slice_part h (by omega)
      rw [FbOp.drawn, FbOp.drawn, hpart]
      exact slice_overlay_both h _ _

end Accesses

/-! ## The terminals of the kernel -/

/-- The frame buffers are mapped as the terminals need them. -/
structure Mapped (tbl : PageTable) (w : VtWorld) : Prop where
  fbSelect : w.fbSelect = VGA_MEMORY_128K
  shown : 1 ≤ w.currterm ∧ w.currterm ≤ NR_TERMINAL
  number : ∀ t, 1 ≤ t → t ≤ NR_TERMINAL → (w.terms t).number = t
  framebuf : ∀ t, 1 ≤ t → t ≤ NR_TERMINAL → w.framebuf t = terminalFb t
  slots : Slots tbl w.paged (slotOf w.currterm)

/-- A switch can be made: the frame buffer of the current terminal may lead to the display or to its
own pages yet. -/
structure Switchable (tbl : PageTable) (w : VtWorld) : Prop where
  fbSelect : w.fbSelect = VGA_MEMORY_128K
  shown : 1 ≤ w.currterm ∧ w.currterm ≤ NR_TERMINAL
  number : ∀ t, 1 ≤ t → t ≤ NR_TERMINAL → (w.terms t).number = t
  framebuf : ∀ t, 1 ≤ t → t ≤ NR_TERMINAL → t ≠ w.currterm → w.framebuf t = terminalFb t
  slots : ∃ slot, Slots tbl w.paged slot ∧
    Function.update slot w.currterm w.currterm = fun t => t

/-- Terminal `t` looks as the lone terminal does, and will draw as that does. -/
structure ActsAlone (w : VtWorld) (t : Nat) (l : LoneTerminal) : Prop where
  alike : DrawsAlike (w.vt t) l.vt
  screen : slice w.paged.ram (slotBase (slotOf w.currterm t)) FB_SIZE = l.cells

/-- Terminal `t` has done what `s` says, which changed the memory. -/
def VtWorld.drew (w : VtWorld) (t : Nat) (s : Vt) (ram : Nat → Byte) : VtWorld :=
  { w.setTerm t s.term with paged := { w.paged with ram := ram }, vga := s.vga }

theorem VtWorld.drew_terms (w : VtWorld) (t : Nat) (s : Vt) (ram : Nat → Byte) :
    (w.drew t s ram).terms = Function.update w.terms t s.term := rfl

section Steps
variable {tbl : PageTable} {uart : Fin NR_SERIAL → Uart} {w w' : VtWorld} {t : Nat}

theorem Mapped.switchable (h : Mapped tbl w) : Switchable tbl w where
  fbSelect := h.fbSelect
  shown := h.shown
  number := h.number
  framebuf := fun t ht ht7 _ => h.framebuf t ht ht7
  slots := ⟨slotOf w.currterm, h.slots, update_slotOf w.currterm⟩

theorem Mapped.mapsTo (h : Mapped tbl w) (ht : 1 ≤ t) (ht7 : t ≤ NR_TERMINAL) :
    MapsTo tbl w.paged (w.framebuf t) (slotBase (slotOf w.currterm t)) FB_SIZE := by
  rw [h.framebuf t ht ht7]
  exact h.slots.mapsTo ht7 (slotOf_le ht7)

theorem terminalNumber_ok (hc : 1 ≤ w.currterm) (hc7 : w.currterm ≤ NR_TERMINAL) (msg : String) {num : Int}
    (hn : 0 ≤ num) (hn7 : num ≤ NR_TERMINAL) :
    terminalNumber w msg num = .ok (numbered w.currterm num) := by
  rw [terminalNumber, if_neg (by omega), numbered]
  split
  · rw [currentTerminal, if_neg (by omega)]
  · rfl

theorem numbered_bounds (hc : 1 ≤ w.currterm) (hc7 : w.currterm ≤ NR_TERMINAL) {num : Int}
    (hn : 0 ≤ num) (hn7 : num ≤ NR_TERMINAL) :
    1 ≤ numbered w.currterm num ∧ numbered w.currterm num ≤ NR_TERMINAL := by
  rw [numbered]
  split
  · exact ⟨hc, hc7⟩
  · omega

theorem Switchable.getTerminal (h : Switchable tbl w) {num : Int} (hn : 0 ≤ num) (hn7 : num ≤ NR_TERMINAL) :
    getTerminal w num = .ok (numbered w.currterm num) := by
  obtain ⟨hb, hb7⟩ := numbered_bounds h.shown.1 h.shown.2 hn hn7
  have hassert : (!w.initialized (numbered w.currterm num) ||
      (w.terms (numbered w.currterm num)).number == numbered w.currterm num) = true := by
    rw [h.number _ hb hb7, beq_self_eq_true, Bool.or_true]
  rw [Ohwes.getTerminal, terminalNumber_ok h.shown.1 h.shown.2 _ hn hn7, ok_bind, hassert]
  rfl

theorem getTerminalFb_ok (hsel : w.fbSelect = VGA_MEMORY_128K) (ht : 1 ≤ t) (ht7 : t ≤ NR_TERMINAL) :
    getTerminalFb w t = .ok (terminalFb t) := by
  have hbad : ¬ ((t : Int) < 0 ∨ (t : Int) > NR_TERMINAL) := by omega
  have hne : ¬ (t : Int) = 0 := by omega
  rw [getTerminalFb, terminalNumber, if_neg hbad, if_neg hne, ok_bind, Int.toNat_natCast, getVgaFb, hsel]
  rfl

theorem openTerminalTty_ok {num : Nat} (h : openTerminalTty uart num w = .ok w') :
    ∃ tty, w' = { w with tty := tty } := by
  rw [openTerminalTty] at h
  split at h
  · cases h
  · split at h
    · cases h
    · split at h
      · cases h
      · exact ⟨_, (Except.ok.inj h).symm⟩

/-- Both frame buffer pointers of a switch are set anew. -/
theorem Switchable.switchedFb (h : Switchable tbl w) (next : Nat) (ht : 1 ≤ t) (ht7 : t ≤ NR_TERMINAL) :
    ((w.setFramebuf w.currterm (terminalFb w.currterm)).setFramebuf next (terminalFb next)).framebuf t =
      terminalFb t := by
  show Function.update (Function.update w.framebuf w.currterm (terminalFb w.currterm)) next
    (terminalFb next) t = terminalFb t
  by_cases hn : t = next
  · rw [hn, Function.update_self]
  · rw [Function.update_of_ne hn]
    by_cases hc : t = w.currterm
    · rw [hc, Function.update_self]
    · rw [Function.update_of_ne hc]
      exact h.framebuf t ht ht7 hc

/-- If the tty of the next terminal can be opened, the switch succeeds. -/
theorem Switchable.switch (h : Switchable tbl w) {num : Int} (hn : 0 < num) (hn7 : num ≤ NR_TERMINAL)
    {wt : VtWorld} (hopen : openTerminalTty uart num.toNat w = .ok wt) :
    ∃ w', switchTerminal tbl uart num w = .ok (0, w') ∧ Mapped tbl w' ∧ w'.terms = w.terms ∧
      w'.currterm = num.toNat ∧ w'.vga.plain = w.vga.plain ∧ w'.tty = wt.tty ∧
      w'.paged.ram = swappedRam w.paged.ram w.currterm num.toNat := by
  obtain ⟨tty, rfl⟩ := openTerminalTty_ok hopen
  obtain ⟨hc, hc7⟩ := h.shown
  have hcurr := h.getTerminal (Int.le_refl 0) (by decide)
  have hnext := h.getTerminal (Int.le_of_lt hn) hn7
  have hself : numbered w.currterm 0 = w.currterm := if_pos rfl
  have hnum : numbered w.currterm num = num.toNat := if_neg (Int.ne_of_gt hn)
  rw [hself] at hcurr
  rw [hnum] at hnext
  have hn1 : 1 ≤ num.toNat := by omega
  have hnext7 : num.toNat ≤ NR_TERMINAL := by omega
  rw [switchTerminal, if_neg (by omega), hcurr, ok_bind, hnext, ok_bind, hopen, ok_bind]
  generalize num.toNat = next at *
  generalize hwt : { w with tty := tty } = wt at hopen
  have hterms : wt.terms = w.terms := by rw [← hwt]
  have hcurrterm : wt.currterm = w.currterm := by rw [← hwt]
  have hsel : wt.fbSelect = VGA_MEMORY_128K := by rw [← hwt, h.fbSelect]
  have hpaged : wt.paged = w.paged := by rw [← hwt]
  have hvga : wt.vga = w.vga := by rw [← hwt]
  have hframe : ∀ u, 1 ≤ u → u ≤ NR_TERMINAL →
      ((wt.setFramebuf w.currterm (terminalFb w.currterm)).setFramebuf next (terminalFb next)).framebuf u =
        terminalFb u := by
    intro u hu hu7
    rw [← hwt]
    exact h.switchedFb next hu hu7
  rw [hterms, h.number _ hc hc7, getTerminalFb_ok hsel hc hc7, ok_bind, h.number _ hn1 hnext7,
    getTerminalFb_ok hsel hn1 hnext7, ok_bind]
  generalize hwf : (wt.setFramebuf w.currterm (terminalFb w.currterm)).setFramebuf next
    (terminalFb next) = wf at hframe
  have hsel' : wf.fbSelect = VGA_MEMORY_128K := by rw [← hwf]; exact hsel
  have hpaged' : wf.paged = w.paged := by rw [← hwf]; exact hpaged
  have hterms' : wf.terms = w.terms := by rw [← hwf]; exact hterms
  have hvga' : wf.vga = w.vga := by rw [← hwf]; exact hvga
  have htty : wf.tty = wt.tty := by rw [← hwf]; rfl
  obtain ⟨slot, hslots, hslot⟩ := h.slots
  obtain ⟨q, hswap, hq, hram⟩ := hslots.swap hslot hc hc7 hn1 hnext7
  have hbase : (vgaGetFbInfo VGA_MEMORY_128K).framebuf = 0xA0000 := rfl
  dsimp only
  rw [hframe _ hc hc7, hframe _ hn1 hnext7, hsel', hbase, hpaged', hswap, ok_bind, hterms',
    h.number _ hn1 hnext7]
  have hplain := congrArg (·.vga) (plain_updateVgaState (wf.vt next))
  exact ⟨_, rfl, ⟨rfl, ⟨hn1, hnext7⟩, h.number, hframe, hq⟩, rfl, rfl,
    hplain.trans (congrArg Vga.plain hvga'), htty, hram⟩

theorem Switchable.switch_closed (h : Switchable tbl w) {num : Int} (hn : 0 < num)
    (hn7 : num ≤ NR_TERMINAL) {e : Halt} (hopen : openTerminalTty uart num.toNat w = .error e) :
    switchTerminal tbl uart num w = .error e := by
  rw [switchTerminal, if_neg (by omega), h.getTerminal (Int.le_refl 0) (by decide), ok_bind,
    h.getTerminal (Int.le_of_lt hn) hn7, ok_bind, hopen]
  rfl

/-- No terminal notices a switch. -/
theorem ActsAlone.switch {l : LoneTerminal} (h : ActsAlone w t l) (ht : 1 ≤ t)
    (hterms : w'.terms = w.terms) (hvga : w'.vga.plain = w.vga.plain)
    (hram : w'.paged.ram = swappedRam w.paged.ram w.currterm w'.currterm) : ActsAlone w' t l where
  alike := by
    refine ⟨Eq.trans ?_ h.alike.plain⟩
    rw [Vt.plain, Vt.plain, VtWorld.vt, VtWorld.vt, hterms, hvga]
  screen := by rw [hram, slice_swappedRam w.paged.ram ht, h.screen]

/-! A write: -/

variable {f : Vt → Vt}

theorem setTerm_vt_self (term : Terminal) : (w.setTerm t term).vt t = { w.vt t with term := term } := by
  show Vt.mk (Function.update w.terms t term t) w.vga [] = _
  rw [Function.update_self]
  rfl

theorem setTerm_vt_other {u : Nat} (hu : u ≠ t) (term : Terminal) : (w.setTerm t term).vt u = w.vt u := by
  show Vt.mk (Function.update w.terms t term u) w.vga [] = _
  rw [Function.update_of_ne hu]
  rfl

theorem drew_vt_self (s : Vt) (ram : Nat → Byte) : (w.drew t s ram).vt t = { s with fb := [] } := by
  rw [VtWorld.vt, VtWorld.drew_terms, Function.update_self]
  rfl

theorem drew_vt_other {u : Nat} (hu : u ≠ t) (s : Vt) (ram : Nat → Byte) :
    (w.drew t s ram).vt u = { w.vt u with vga := s.vga } := by
  rw [VtWorld.vt, VtWorld.drew_terms, Function.update_of_ne hu]
  rfl

theorem update_number {terms : Nat → Terminal} {term : Terminal} (hnum : term.number = (terms t).number)
    (u : Nat) : (Function.update terms t term u).number = (terms u).number := by
  by_cases hu : u = t
  · rw [hu, Function.update_self, hnum]
  · rw [Function.update_of_ne hu]

theorem onTerminal_ok {base : Nat} (h : MapsTo tbl w.paged (w.framebuf t) base FB_SIZE)
    (hin : ∀ op ∈ (f (w.vt t)).fb, op.Within (FB_SIZE / 2)) :
    onTerminal tbl f t w =
      .ok (w.drew t (f (w.vt t)) (drawn base w.paged.ram (f (w.vt t)).fb.reverse)) := by
  rw [onTerminal, drawAll_of_mapsTo h fun op hop => hin op (List.mem_reverse.mp hop), ok_bind]
  rfl

theorem onTerminal_changes (h : onTerminal tbl f t w = .ok w') : ∃ ram, w' = w.drew t (f (w.vt t)) ram := by
  obtain ⟨p, hp, hw'⟩ := bind_ok.mp h
  obtain ⟨ram, rfl⟩ := drawAll_ram hp
  exact ⟨ram, (Except.ok.inj hw').symm⟩

/-- A function that keeps the number of the terminal keeps the mapping. -/
theorem Mapped.drew (h : Mapped tbl w) {s : Vt} (hnum : s.term.number = (w.terms t).number)
    (ram : Nat → Byte) : Mapped tbl (w.drew t s ram) where
  fbSelect := h.fbSelect
  shown := h.shown
  number := fun u hu hu7 => (update_number hnum u).trans (h.number u hu hu7)
  framebuf := h.framebuf
  slots := Slots.with_memory (p := w.paged) rfl rfl h.slots

theorem Mapped.onTerminal (h : Mapped tbl w) (hf : ∀ s, (f s).term.number = s.term.number)
    (hw : onTerminal tbl f t w = .ok w') : Mapped tbl w' := by
  obtain ⟨ram, rfl⟩ := onTerminal_changes hw
  exact h.drew (hf (w.vt t)) ram

theorem number_terminalPutchar (curr : Nat) (c : Byte) (s : Vt) :
    (terminalPutchar curr s c).2.term.number = s.term.number :=
  congrArg Prod.snd (given_terminalPutchar s curr c)

theorem vga_terminalPutchar (curr : Nat) (c : Byte) (s : Vt) :
    (terminalPutchar curr s c).2.vga.plain = s.vga.plain :=
  congrArg Prod.fst (given_terminalPutchar s curr c)

/-- The terminal that is written to does what it would do alone. -/
theorem ActsAlone.putchar_self {l : LoneTerminal} (h : ActsAlone w t l) (c : Byte)
    (hin : ∀ op ∈ (terminalPutchar w.currterm (w.vt t) c).2.fb, op.Within (FB_SIZE / 2)) :
    ActsAlone (w.drew t (terminalPutchar w.currterm (w.vt t) c).2
      (drawn (slotBase (slotOf w.currterm t)) w.paged.ram
        (terminalPutchar w.currterm (w.vt t) c).2.fb.reverse)) t (l.putchar c) := by
  have hnext := h.alike.terminalPutchar w.currterm 0 c
  have hfb := hnext.fb
  refine ⟨?_, ?_⟩
  · rw [drew_vt_self]
    exact hnext.map (f := fun s => { s with fb := [] }) fun _ => rfl
  · rw [LoneTerminal.cells, LoneTerminal.putchar, ← hfb]
    exact slice_drawn_both h.screen fun op hop => hin op (List.mem_reverse.mp hop)

/-- The others notice nothing. -/
theorem ActsAlone.putchar_other {l : LoneTerminal} {u : Nat} (h : ActsAlone w u l) (ht : 1 ≤ t)
    (hu : 1 ≤ u) (hut : u ≠ t) (c : Byte)
    (hin : ∀ op ∈ (terminalPutchar w.currterm (w.vt t) c).2.fb, op.Within (FB_SIZE / 2)) :
    ActsAlone (w.drew t (terminalPutchar w.currterm (w.vt t) c).2
      (drawn (slotBase (slotOf w.currterm t)) w.paged.ram
        (terminalPutchar w.currterm (w.vt t) c).2.fb.reverse)) u l := by
  have hapart : slotOf w.currterm u ≠ slotOf w.currterm t := fun heq =>
    hut (slotOf_inj (Nat.ne_of_gt hu) (Nat.ne_of_gt ht) heq)
  refine ⟨⟨Eq.trans ?_ h.alike.plain⟩, Eq.trans ?_ h.screen⟩
  · rw [drew_vt_other hut, Vt.plain, Vt.plain, vga_terminalPutchar]
    rfl
  · exact slice_drawn_apart (slotBase_apart hapart) fun op hop => hin op (List.mem_reverse.mp hop)

/-! ## Runs -/

/-- A write to a terminal that exists comes back. -/
theorem Mapped.putchar (h : Mapped tbl w) {num : Int} (hn : 0 ≤ num) (hn7 : num ≤ NR_TERMINAL) (c : Byte)
    (hin : StaysInside w (.putchar num c)) :
    vtStep tbl uart w (.putchar num c) =
      .ok (w.drew (numbered w.currterm num) (terminalPutchar w.currterm (w.vt (numbered w.currterm num)) c).2
        (drawn (slotBase (slotOf w.currterm (numbered w.currterm num))) w.paged.ram
          (terminalPutchar w.currterm (w.vt (numbered w.currterm num)) c).2.fb.reverse)) := by
  obtain ⟨hb, hb7⟩ := numbered_bounds h.shown.1 h.shown.2 hn hn7
  rw [vtStep, h.switchable.getTerminal hn hn7, ok_bind, putcharOn]
  exact onTerminal_ok (f := fun s => (terminalPutchar w.currterm s c).2) (h.mapsTo hb hb7) hin

theorem getTerminal_exists {num : Int} (h : getTerminal w num = .ok t) : 0 ≤ num ∧ num ≤ NR_TERMINAL := by
  rw [getTerminal, terminalNumber] at h
  by_contra hbad
  rw [if_pos (by omega)] at h
  cases h

/-- A step that comes back keeps the terminals apart. -/
theorem vtStep_isolated (h : Mapped tbl w) {op : VtOp} (hin : StaysInside w op)
    (hw : vtStep tbl uart w op = .ok w') : Mapped tbl w' ∧ w'.currterm = op.shown w.currterm ∧
      ∀ u l, 1 ≤ u → ActsAlone w u l → ActsAlone w' u (l.write (op.bytesTo u w.currterm)) := by
  cases op with
  | switchTo num =>
    obtain ⟨⟨ret, v⟩, hswitch, hv⟩ := bind_ok.mp hw
    obtain rfl := Except.ok.inj hv
    by_cases hnum : num ≤ 0 ∨ num > NR_TERMINAL
    · rw [switchTerminal, if_pos hnum] at hswitch
      obtain ⟨-, rfl⟩ := Prod.mk.inj (Except.ok.inj hswitch)
      exact ⟨h, (if_pos hnum).symm, fun u l _ hl => hl⟩
    · have hn : 0 < num := by omega
      have hn7 : num ≤ NR_TERMINAL := by omega
      cases hopen : openTerminalTty uart num.toNat w with
      | error e =>
        rw [h.switchable.switch_closed hn hn7 hopen] at hswitch
        cases hswitch
      | ok wt =>
        obtain ⟨w', hok, hmap, hterms, hcurr, hvga, -, hram⟩ := h.switchable.switch hn hn7 hopen
        rw [hok] at hswitch
        obtain ⟨-, rfl⟩ := Prod.mk.inj (Except.ok.inj hswitch)
        rw [← hcurr] at hram
        exact ⟨hmap, hcurr.trans (if_neg hnum).symm, fun u l hu hl => hl.switch hu hterms hvga hram⟩
  | putchar num c =>
    obtain ⟨t, ht, -⟩ := bind_ok.mp hw
    obtain ⟨hn, hn7⟩ := getTerminal_exists ht
    obtain ⟨hb, -⟩ := numbered_bounds h.shown.1 h.shown.2 hn hn7
    rw [h.putchar hn hn7 c hin] at hw
    obtain rfl := Except.ok.inj hw
    have hnumber := number_terminalPutchar w.currterm c (w.vt (numbered w.currterm num))
    refine ⟨h.drew hnumber _, rfl, fun u l hu hl => ?_⟩
    rw [VtOp.bytesTo]
    split
    · next hu' =>
      subst hu'
      exact hl.putchar_self c hin
    · next hu' => exact hl.putchar_other hb hu (Ne.symm hu') c hin

/-- No step faults: only a tty that cannot be opened, or a terminal that does not exist, ends a run. -/
theorem vtStep_fails (h : Mapped tbl w) {op : VtOp} (hin : StaysInside w op) {e : Halt}
    (hw : vtStep tbl uart w op = .error e) :
    (∃ num, op = .switchTo num ∧ openTerminalTty uart num.toNat w = .error e) ∨
      ∃ num c, op = .putchar num c ∧ ¬ (0 ≤ num ∧ num ≤ NR_TERMINAL) := by
  cases op with
  | switchTo num =>
    refine Or.inl ⟨num, rfl, ?_⟩
    rw [vtStep] at hw
    by_cases hnum : num ≤ 0 ∨ num > NR_TERMINAL
    · rw [switchTerminal, if_pos hnum] at hw
      cases hw
    · have hn : 0 < num := by omega
      have hn7 : num ≤ NR_TERMINAL := by omega
      cases hopen : openTerminalTty uart num.toNat w with
      | error e' =>
        rw [h.switchable.switch_closed hn hn7 hopen] at hw
        exact hw
      | ok wt =>
        obtain ⟨w', hok, -⟩ := h.switchable.switch hn hn7 hopen
        rw [hok] at hw
        cases hw
  | putchar num c =>
    refine Or.inr ⟨num, c, rfl, fun hnum => ?_⟩
    rw [h.putchar hnum.1 hnum.2 c hin] at hw
    cases hw

/-- Over a whole run only its own writes count for a terminal. -/
theorem run_isolated {ops : List VtOp} (h : Mapped tbl w)
    (hin : Throughout (vtStep tbl uart) StaysInside w ops) (hw : run (vtStep tbl uart) w ops = .ok w') :
    Mapped tbl w' ∧
      ∀ u l, 1 ≤ u → ActsAlone w u l → ActsAlone w' u (l.write (ownWrites u w.currterm ops)) := by
  induction ops generalizing w with
  | nil =>
    obtain rfl := Except.ok.inj hw
    exact ⟨h, fun u l _ hl => hl⟩
  | cons op ops ih =>
    obtain ⟨v, hv, hrest⟩ := (run_cons_ok _).mp hw
    obtain ⟨hmap, hcurr, halone⟩ := vtStep_isolated h hin.1 hv
    obtain ⟨hmap', halone'⟩ := ih hmap (hin.2 v hv) hrest
    refine ⟨hmap', fun u l hu hl => ?_⟩
    have hlast := halone' u _ hu (halone u l hu hl)
    rw [hcurr, LoneTerminal.write, LoneTerminal.write, ← List.foldl_append] at hlast
    exact hlast

theorem cells_showing (vt : Vt) {cells : List Byte} (h : cells.length = FB_SIZE) :
    (LoneTerminal.showing vt cells).cells = cells := by
  rw [LoneTerminal.cells, ← h]
  exact slice_overlay _ 0 cells

/-- In the states a run leads to, a terminal starts as it looks. -/
theorem Mapped.actsAlone (h : Mapped tbl w) (ht : 1 ≤ t) (ht7 : t ≤ NR_TERMINAL) :
    ∃ cells, seenThrough tbl w t = .ok cells ∧ ActsAlone w t (.showing (w.vt t) cells) := by
  have hlen := slice_length w.paged.ram (slotBase (slotOf w.currterm t)) FB_SIZE
  exact ⟨_, loadBytes_of_mapsTo (h.mapsTo ht ht7), ⟨⟨rfl⟩, (cells_showing (w.vt t) hlen).symm⟩⟩

theorem ActsAlone.seen {l : LoneTerminal} (h : ActsAlone w t l) (hmap : Mapped tbl w) (ht : 1 ≤ t)
    (ht7 : t ≤ NR_TERMINAL) : seenThrough tbl w t = .ok l.cells := by
  rw [seenThrough, loadBytes_of_mapsTo (hmap.mapsTo ht ht7), h.screen]

/-- The terminal that is current is on display. -/
theorem ActsAlone.displayed {l : LoneTerminal} (h : ActsAlone w w.currterm l) (hmap : Mapped tbl w) :
    vgaPage w = l.cells := by
  have hslot : slotOf w.currterm w.currterm = 0 := if_pos rfl
  have hscreen := h.screen
  rw [hslot] at hscreen
  rw [vgaPage, hmap.fbSelect, ← hscreen]
  rfl

end Steps

end Ohwes

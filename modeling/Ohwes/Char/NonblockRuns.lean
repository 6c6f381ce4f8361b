import Ohwes.Char.TtyRead

/-! # Whose flags a read goes by

`tty->file` is set by every open of a tty and by nothing else, so a read goes by the flags of the
file of the last open, whatever descriptor it is issued on and whether that file is still there.
`nonblock_iff` says that the right flags are found exactly as long as that file is allocated and
agrees with the one that is read. -/

namespace Ohwes
open Library
set_option autoImplicit false

def nonblock (f : File FopsName) : Bool := f.oflag &&& O_NONBLOCK != 0

/-- A read of an empty ring returns `-EAGAIN` if its own file says so and not otherwise, and a read
looks at allocated file structs only. -/
def ReadLaw (s : TtyFs) : TtyCall → Prop
  | .read fd isNull count =>
    (∀ x ∈ ringOf s fd, ringCount x.2 = 0 → isNull = false → 1 ≤ count →
      ((∃ t, sysRead s fd isNull count = .ok (.returned (-EAGAIN) [], t)) ↔
        nonblock (s.fileAt (s.files fd.toNat)) = true)) ∧
    ∀ file ∈ readFiles s fd isNull count, file ∈ allocatedFiles s
  | _ => True

/-- If the ring may run empty, the file of the last open of the tty is allocated, and if it is empty,
that file has the `O_NONBLOCK` of the one that is read. -/
def FlagsCurrent (s : TtyFs) : TtyCall → Prop
  | .read fd isNull count =>
    ∀ x ∈ ringOf s fd, isNull = false → ringCount x.2 < count →
      (s.dev.ttys x.1).file ∈ allocatedFiles s ∧
        (ringCount x.2 = 0 →
          nonblock (s.fileAt (s.dev.ttys x.1).file) = nonblock (s.fileAt (s.files fd.toNat)))
  | _ => True

instance decidableFlagsCurrent (s : TtyFs) : (op : TtyCall) → Decidable (FlagsCurrent s op)
  | .read fd isNull count => inferInstanceAs (Decidable (∀ x ∈ ringOf s fd, isNull = false →
      ringCount x.2 < count → (s.dev.ttys x.1).file ∈ allocatedFiles s ∧
        (ringCount x.2 = 0 →
          nonblock (s.fileAt (s.dev.ttys x.1).file) = nonblock (s.fileAt (s.files fd.toNat)))))
  | .files _ | .fcntl _ _ _ | .arrive _ _ => .isTrue trivial

/-! ## The invariant -/

/-- The tty has a line discipline, and that its data. -/
structure TtyReady (tty : Tty) : Prop where
  ldisc : tty.ldisc ≠ none
  data : tty.ldiscData ≠ none

/-- A tty that was ready stays so, and one that is now open is ready. -/
structure ReadyAfter (w w' : TtyWorld) : Prop where
  keeps : ∀ i, TtyReady (w.ttys i) → TtyReady (w'.ttys i)
  opens : ∀ i, (w'.ttys i).isOpen = true → (w.ttys i).isOpen = true ∨ TtyReady (w'.ttys i)

structure ReadsOk (a : Area) (s : TtyFs) : Prop where
  table : TableOk a s
  opened : ∀ i, (s.dev.ttys i).isOpen = true → TtyReady (s.dev.ttys i)
  files : ∀ fd f i, slot s fd = some f → f.privateData = some i →
    f.fops = some .tty ∧ TtyReady (s.dev.ttys i)

section World
variable {uart : Fin NR_SERIAL → Uart} {w w' w'' : TtyWorld} {i : Nat} {r : Int}

theorem ReadyAfter.of_ttys (h : w'.ttys = w.ttys) : ReadyAfter w w' where
  keeps i hi := by
    rw [h]
    exact hi
  opens i hi := by
    rw [h] at hi
    exact Or.inl hi

theorem ReadyAfter.trans (h : ReadyAfter w w') (h' : ReadyAfter w' w'') : ReadyAfter w w'' where
  keeps i hi := h'.keeps i (h.keeps i hi)
  opens i hi := by
    obtain hopen | hready := h'.opens i hi
    · exact (h.opens i hopen).imp_right (h'.keeps i)
    · exact Or.inr hready

theorem ReadyAfter.opened (h : ReadyAfter w w')
    (hopened : ∀ i, (w.ttys i).isOpen = true → TtyReady (w.ttys i)) (i : Nat)
    (hi : (w'.ttys i).isOpen = true) : TtyReady (w'.ttys i) := by
  obtain hopen | hready := h.opens i hi
  · exact h.keeps i (hopened i hopen)
  · exact hready

theorem readyAfter_setTty {tty : Tty} (hkeeps : TtyReady (w.ttys i) → TtyReady tty)
    (hopens : tty.isOpen = true → (w.ttys i).isOpen = true ∨ TtyReady tty) :
    ReadyAfter w (w.setTty i tty) where
  keeps k hk := by
    by_cases hki : k = i
    · subst hki
      rw [TtyWorld.setTty_self]
      exact hkeeps hk
    · rw [w.setTty_of_ne hki]
      exact hk
  opens k hk := by
    by_cases hki : k = i
    · subst hki
      rw [TtyWorld.setTty_self] at hk ⊢
      exact hopens hk
    · rw [w.setTty_of_ne hki] at hk
      exact Or.inl hk

theorem readyAfter_ready {tty : Tty} (h : TtyReady tty) : ReadyAfter w (w.setTty i tty) :=
  readyAfter_setTty (fun _ => h) fun _ => Or.inr h

/-- The drivers do not touch the ttys. -/
theorem callOpen_ttys (h : callOpen uart w i = .ok (r, w')) : w'.ttys = w.ttys := by
  unfold callOpen at h
  split at h
  · cases h
  · unfold terminalTtyOpen at h
    split at h
    · cases h
      rfl
    · split at h
      · cases h
        rfl
      · cases h
        rfl
  · unfold serialTtyOpen at h
    split at h
    · cases h
      rfl
    · obtain ⟨x, -, h⟩ := bind_ok.mp h
      cases h
      rfl

theorem callClose_ttys (h : callClose w i = .ok (r, w')) : w'.ttys = w.ttys := by
  unfold callClose at h
  split at h
  · cases h
  · unfold terminalTtyClose at h
    split at h
    · cases h
      rfl
    · cases h
      rfl
  · unfold serialTtyClose at h
    split at h
    · cases h
      rfl
    · cases h
      rfl

theorem attachDriver_ready {tty : Tty} {d : DriverEntry} (htty : TtyReady tty)
    (h : attachDriver uart w i tty d = .ok (r, w')) :
    ReadyAfter w w' ∧ TtyReady (w'.ttys i) := by
  obtain ⟨⟨r', m⟩, hm, h⟩ := bind_ok.mp h
  have hset : TtyReady { tty with driver := some d.name, line := devMin tty.device - d.minorStart } :=
    ⟨htty.ldisc, htty.data⟩
  have hafter : ReadyAfter w m :=
    (readyAfter_ready hset).trans (ReadyAfter.of_ttys (callOpen_ttys hm))
  have hi : TtyReady (m.ttys i) := by
    rw [callOpen_ttys hm, TtyWorld.setTty_self]
    exact hset
  dsimp only at h
  split at h
  · cases h
    exact ⟨hafter, hi⟩
  · cases h
    have hlast : TtyReady { m.ttys i with
        isOpen := true, throttled := false, stopped := false, hwStopped := false } :=
      ⟨hi.ldisc, hi.data⟩
    refine ⟨hafter.trans (readyAfter_ready hlast), ?_⟩
    rw [TtyWorld.setTty_self]
    exact hlast

theorem ttyOpenInternal_ready (hopened : ∀ i, (w.ttys i).isOpen = true → TtyReady (w.ttys i))
    (h : ttyOpenInternal uart w i = .ok (r, w')) : ReadyAfter w w' ∧ TtyReady (w'.ttys i) := by
  unfold ttyOpenInternal at h
  split at h
  · next hi =>
    cases h
    exact ⟨ReadyAfter.of_ttys rfl, hopened i hi⟩
  · have hready (buf : Nat → Byte) : TtyReady (nTtyOpen buf
        { w.ttys i with termios := defaultTermios, ldisc := some N_TTY }).2 :=
      ⟨Option.some_ne_none _, Option.some_ne_none _⟩
    have hset {tty : Tty} (htty : TtyReady tty) :
        ReadyAfter w (w.setTty i tty) ∧ TtyReady ((w.setTty i tty).ttys i) :=
      ⟨readyAfter_ready htty, by rw [TtyWorld.setTty_self]; exact htty⟩
    dsimp only at h
    split at h
    · cases h
      exact hset (hready _)
    · split at h
      · cases h
        exact hset (hready _)
      · exact attachDriver_ready (hready _) h

/-- What an open function of the system leaves: nothing but ready ttys, and, if it succeeds, a file
on one. -/
structure Opens (w w' : TtyWorld) (ret : Int) (v : File FopsName) : Prop where
  after : ReadyAfter w w'
  file : 0 ≤ ret → v.fops = some .tty ∧ ∃ i, v.privateData = some i ∧ TtyReady (w'.ttys i)

theorem Opens.refused {v : File FopsName} {ret : Int} (h : ret < 0) : Opens w w ret v :=
  ⟨ReadyAfter.of_ttys rfl, fun h0 => absurd h0 (by omega)⟩

variable {inode : Inode FopsName} {file : Ptr} {f v : File FopsName} {ret : Int}

theorem ttyOpen_opens (hopened : ∀ i, (w.ttys i).isOpen = true → TtyReady (w.ttys i))
    (h : ttyOpen uart inode file f w = .ok (ret, v, w')) : Opens w w' ret v := by
  unfold ttyOpen at h
  split at h
  · cases h
    exact Opens.refused (by decide)
  · next i _ =>
    obtain ⟨⟨r', m⟩, hm, h⟩ := bind_ok.mp h
    obtain ⟨hafter, hi⟩ := ttyOpenInternal_ready hopened hm
    dsimp only at h
    split at h
    · next hneg =>
      cases h
      exact ⟨hafter, fun h0 => absurd h0 (by omega)⟩
    · cases h
      have hset : TtyReady { m.ttys i with file := file } := ⟨hi.ldisc, hi.data⟩
      refine ⟨hafter.trans (readyAfter_ready hset), fun _ => ⟨rfl, i, rfl, ?_⟩⟩
      rw [TtyWorld.setTty_self]
      exact hset

theorem openFn_opens (hopened : ∀ i, (w.ttys i).isOpen = true → TtyReady (w.ttys i))
    {fops : FopsName} {openFn : Inode FopsName → Ptr → File FopsName → TtyWorld →
      Call (Int × File FopsName × TtyWorld)} (hfn : (ttyOps uart fops).openFn = some openFn)
    (h : openFn inode file f w = .ok (ret, v, w')) : Opens w w' ret v := by
  cases fops with
  | tty =>
    cases hfn
    exact ttyOpen_opens hopened h
  | chdev =>
    cases hfn
    unfold chdevOpen at h
    dsimp only at h
    split at h
    · cases h
      exact Opens.refused (by decide)
    · split at h
      · exact ttyOpen_opens hopened h
      · cases h
        exact Opens.refused (by decide)

theorem ttyClose_keeps (h : ttyClose f w = .ok (ret, v, w')) : w'.ttys = w.ttys ∧ v = f := by
  unfold ttyClose at h
  split at h
  · cases h
    exact ⟨rfl, rfl⟩
  split at h
  · cases h
    exact ⟨rfl, rfl⟩
  · obtain ⟨⟨r', m⟩, hm, h⟩ := bind_ok.mp h
    cases h
    exact ⟨callClose_ttys hm, rfl⟩

end World

/-! ## The calls -/

section Calls
variable {uart : Fin NR_SERIAL → Uart} {a : Area} {s t : TtyFs}

/-- Every file of the new table is an old one as far as the operations and the tty go, is on no tty,
or is on one that is ready. -/
theorem ReadsOk.next (h : ReadsOk a s) (htable : TableOk a t) (hafter : ReadyAfter s.dev t.dev)
    (hfiles : ∀ fd f i, slot t fd = some f → f.privateData = some i →
      (∃ k g, slot s k = some g ∧ g.privateData = some i ∧ g.fops = f.fops) ∨
        f.fops = some .tty ∧ TtyReady (t.dev.ttys i)) : ReadsOk a t where
  table := htable
  opened := hafter.opened h.opened
  files fd f i hf hi := by
    obtain ⟨k, g, hg, hgi, hfops⟩ | hready := hfiles fd f i hf hi
    · obtain ⟨hgops, hgready⟩ := h.files k g i hg hgi
      exact ⟨hfops ▸ hgops, hafter.keeps i hgready⟩
    · exact hready

theorem ReadsOk.sysOpen (h : ReadsOk a s) (hf : a.Fits) {name : CString} {oflag : BitVec 32}
    {r : Int} (hc : sysOpen (ttyOps uart) s name oflag = .ok (r, t)) : ReadsOk a t := by
  obtain hl | ⟨fd, ret, v, dev, -, -, -, hres, hl⟩ := h.table.sysOpen_view hf hc
  · refine h.next hl.table (ReadyAfter.of_ttys (by rw [hl.dev])) fun k f i hk hi => Or.inl ?_
    rw [hl.slots] at hk
    exact ⟨k, f, hk, hi, rfl⟩
  · have hopens : Opens s.dev t.dev ret v := by
      rw [hl.dev]
      unfold openResult driverOpen at hres
      obtain ⟨d, -, hres⟩ := Option.bind_eq_some_iff.mp hres
      obtain ⟨inode, -, hres⟩ := Option.bind_eq_some_iff.mp hres
      obtain ⟨fops, -, hres⟩ := Option.bind_eq_some_iff.mp hres
      obtain ⟨openFn, hfn, hres⟩ := Option.bind_eq_some_iff.mp hres
      exact openFn_opens h.opened hfn (Option.some.inj hres)
    refine h.next hl.table hopens.after fun k f i hk hi => ?_
    rw [hl.slots] at hk
    by_cases hneg : ret < 0
    · rw [if_pos hneg] at hk
      exact Or.inl ⟨k, f, hk, hi, rfl⟩
    rw [if_neg hneg] at hk
    by_cases hkf : k = fd
    · rw [hkf, Function.update_self] at hk
      obtain rfl := Option.some.inj hk
      obtain ⟨hfops, j, hj, hready⟩ := hopens.file (by omega)
      obtain rfl : j = i := Option.some.inj (hj.symm.trans hi)
      exact Or.inr ⟨hfops, hready⟩
    · rw [Function.update_of_ne hkf] at hk
      exact Or.inl ⟨k, f, hk, hi, rfl⟩

/-- Closing writes nothing into a file struct. -/
theorem sysClose_quiet {fd : Int} {r : Int} (hc : sysClose (ttyOps uart) s fd = .ok (r, t)) :
    t.dev.ttys = s.dev.ttys ∧ t.fileAt = s.fileAt := by
  unfold Ohwes.sysClose at hc
  split at hc
  · cases hc
    exact ⟨rfl, rfl⟩
  dsimp only at hc
  split at hc
  · cases hc
    exact ⟨rfl, rfl⟩
  split at hc
  · cases hc
    exact ⟨rfl, rfl⟩
  split at hc
  · cases hc
    exact ⟨rfl, rfl⟩
  next fops _ _ closeFn hfn =>
  obtain ⟨⟨ret, v, dev⟩, hclose, hc⟩ := bind_ok.mp hc
  have hkeeps : dev.ttys = s.dev.ttys ∧ v = s.fileAt (s.files fd.toNat) := by
    cases fops with
    | chdev => cases hfn
    | tty =>
      cases hfn
      exact ttyClose_keeps hclose
  obtain ⟨httys, rfl⟩ := hkeeps
  have hset : Function.update s.fileAt (s.files fd.toNat) (s.fileAt (s.files fd.toNat)) = s.fileAt :=
    Function.update_eq_self ..
  dsimp only at hc
  split at hc
  · cases hc
    exact ⟨httys, hset⟩
  obtain ⟨u, hfree, hc⟩ := bind_ok.mp hc
  cases hc
  unfold freeFd at hfree
  split at hfree
  · cases hfree
    exact ⟨httys, hset⟩
  · obtain ⟨x, -, hfree⟩ := bind_ok.mp hfree
    cases hfree
    exact ⟨httys, hset⟩

/-- A descriptor that is there after a close was there before it, with its file. -/
theorem Closes.slot_of_quiet {fd : Nat} (h : Closes a s t fd) (hat : t.fileAt = s.fileAt) {k : Nat}
    {f : File FopsName} (hk : slot t k = some f) : slot s k = some f := by
  by_cases hkf : k = fd
  · subst hkf
    obtain ⟨hlt, h0, rfl⟩ := slot_eq_some hk
    obtain hsame | ⟨-, hnone, -⟩ := h.outcome
    · rw [hsame.files] at h0 ⊢
      rw [hat]
      exact slot_of_lt hlt h0
    · exact absurd hnone h0
  · rw [← h.slots k hkf]
    exact hk

theorem ReadsOk.sysClose (h : ReadsOk a s) (hf : a.Fits) {fd : Int} {r : Int}
    (hc : sysClose (ttyOps uart) s fd = .ok (r, t)) : ReadsOk a t := by
  have hcloses := h.table.sysClose_closes hf hc
  obtain ⟨httys, hat⟩ := sysClose_quiet hc
  refine h.next hcloses.table (ReadyAfter.of_ttys httys) fun k f i hk hi => Or.inl ?_
  exact ⟨k, f, hcloses.slot_of_quiet hat hk, hi, rfl⟩

/-- A copy of a file that is in the table, or whose struct is the next one to be handed out. -/
theorem ReadsOk.copyFd (h : ReadsOk a s) (hf : a.Fits) {file : Ptr} {newfd : Nat}
    (hfile : file ≠ nextFile s → ∃ k, k < MAX_OPEN ∧ s.files k = file ∧ file ≠ 0)
    (hlt : newfd < MAX_OPEN) {r : Int} (hc : copyFd s file newfd = .ok (r, t)) : ReadsOk a t := by
  obtain ⟨-, hcopy⟩ := h.table.copyFd_copies hf hlt hc
  refine h.next hcopy.table (ReadyAfter.of_ttys (by rw [hcopy.dev])) fun k f i hk hi => Or.inl ?_
  rw [hcopy.slots] at hk
  by_cases hkn : k = newfd
  · rw [hkn, Function.update_self] at hk
    obtain rfl := Option.some.inj hk
    by_cases hnext : file = nextFile s
    · rw [hnext, Function.update_self] at hi
      cases hi
    · obtain ⟨m, hm, rfl, h0⟩ := hfile hnext
      rw [Function.update_of_ne hnext] at hi ⊢
      exact ⟨m, _, slot_of_lt hm h0, hi, rfl⟩
  · rw [Function.update_of_ne hkn] at hk
    exact ⟨k, f, hk, hi, rfl⟩

theorem ReadsOk.dupfd (h : ReadsOk a s) (hf : a.Fits) {fd newfd : Int} {r : Int}
    (hc : dupfd (ttyOps uart) s fd newfd = .ok (r, t)) : ReadsOk a t := by
  by_cases hcan : CanDup s fd newfd
  swap
  · obtain ⟨r', hr⟩ := dupfd_refused (ttyOps uart) hcan
    cases hr.symm.trans hc
    exact h
  have hfd := (validFd_lt hcan.1).2
  by_cases hz : newfd = 0
  · subst hz
    rw [dupfd_dup hcan] at hc
    split at hc
    · cases hc
      exact h
    · next k hk =>
      exact h.copyFd hf (fun _ => ⟨fd.toNat, hfd, rfl, hcan.2.2⟩) (findNextFd_some hk).1 hc
  · rw [dupfd_dup2 hcan hz] at hc
    obtain ⟨⟨r', m⟩, hm, hc⟩ := bind_ok.mp hc
    have hcloses := h.table.sysClose_closes hf hm
    refine (h.sysClose hf hm).copyFd hf (fun hne => ⟨fd.toNat, hfd, ?_, hcan.2.2⟩)
      (validFd_lt hcan.2.1).2 hc
    by_cases heq : fd.toNat = newfd.toNat
    · obtain hsame | ⟨-, -, hnext, -⟩ := hcloses.outcome
      · rw [hsame.files]
      · exact absurd (by rw [hnext, heq]) hne
    · exact hcloses.files _ heq

theorem ReadsOk.fcntl (h : ReadsOk a s) (fd op : Int) (arg : BitVec 32) :
    ReadsOk a (sysFcntl s fd op arg).2 := by
  unfold sysFcntl
  split
  · exact h
  dsimp only
  split
  · exact h
  split
  · exact h
  split
  swap
  · exact h
  have hsame : SameFiles s (s.setFile (s.files fd.toNat)
      { s.fileAt (s.files fd.toNat) with oflag := arg }) := ⟨rfl, rfl, rfl⟩
  refine h.next (h.table.congr hsame) (ReadyAfter.of_ttys rfl) fun k f i hk hi => Or.inl ?_
  obtain ⟨hlt, h0, rfl⟩ := slot_eq_some hk
  refine ⟨k, _, slot_of_lt hlt h0, ?_⟩
  by_cases hkf : s.files k = s.files fd.toNat
  · have hat : (s.setFile (s.files fd.toNat) { s.fileAt (s.files fd.toNat) with oflag := arg }).fileAt
        (s.files k) = { s.fileAt (s.files k) with oflag := arg } := by
      rw [hkf]
      exact Function.update_self ..
    change _ = some i at hi
    rw [show (s.setFile (s.files fd.toNat) { s.fileAt (s.files fd.toNat) with oflag := arg }).files k =
      s.files k from rfl, hat] at hi ⊢
    exact ⟨hi, rfl⟩
  · have hat : (s.setFile (s.files fd.toNat) { s.fileAt (s.files fd.toNat) with oflag := arg }).fileAt
        (s.files k) = s.fileAt (s.files k) := Function.update_of_ne hkf ..
    rw [show (s.setFile (s.files fd.toNat) { s.fileAt (s.files fd.toNat) with oflag := arg }).files k =
      s.files k from rfl, hat] at hi ⊢
    exact ⟨hi, rfl⟩

/-- A change of one tty that leaves it ready. -/
theorem ReadsOk.setTty (h : ReadsOk a s) {w : TtyWorld} (hafter : ReadyAfter s.dev w) :
    ReadsOk a { s with dev := w } := by
  have hsame : SameFiles s { s with dev := w } := ⟨rfl, rfl, rfl⟩
  exact h.next (h.table.congr hsame) hafter fun k f i hk hi => Or.inl ⟨k, f, hk, hi, rfl⟩

theorem ttyRead_keeps (h : ReadsOk a s) {f : File FopsName} {isNull : Bool} {count : Nat}
    {r : ReadOutcome × TtyFs} (hc : ttyRead s f isNull count = .ok r) : ReadsOk a r.2 := by
  unfold ttyRead at hc
  split at hc
  · cases hc
    exact h
  split at hc
  · cases hc
    exact h
  next i _ =>
  dsimp only at hc
  split at hc
  · cases hc
    exact h
  next hldisc =>
  obtain ⟨x, hx, hc⟩ := bind_ok.mp hc
  cases hc
  refine h.setTty ?_
  have hset : ReadyAfter s.dev (s.dev.setTty i x.2.tty) := by
    unfold nTtyRead at hx
    split at hx
    · cases hx
      exact readyAfter_setTty id Or.inl
    split at hx
    · cases hx
    · next hring =>
      obtain ⟨hdata, hsame⟩ := readLoop_ready hring hx
      refine readyAfter_ready ⟨?_, hdata⟩
      rw [hsame]
      exact fun hnone => Option.some_ne_none _ (hldisc.symm.trans hnone)
  exact hset.trans (ReadyAfter.of_ttys rfl)

theorem ReadsOk.read (h : ReadsOk a s) {fd : Int} {isNull : Bool} {count : Nat}
    {r : ReadOutcome × TtyFs} (hc : sysRead s fd isNull count = .ok r) : ReadsOk a r.2 := by
  unfold sysRead at hc
  split at hc
  · cases hc
    exact h
  dsimp only at hc
  split at hc
  · cases hc
    exact h
  split at hc
  · split at hc
    · cases hc
      exact h
    · exact ttyRead_keeps h hc
  · cases hc
    exact h

theorem ReadsOk.arrive (h : ReadsOk a s) (i : Nat) (c : Byte) :
    ReadsOk a { s with dev := s.dev.setTty i ((s.dev.ttys i).putChar c) } := by
  refine h.setTty (readyAfter_setTty (fun hready => ⟨?_, ?_⟩) fun hopen => Or.inl ?_)
  · unfold Tty.putChar
    split
    · exact hready.ldisc
    · exact hready.ldisc
  · unfold Tty.putChar
    split
    · exact hready.data
    · exact Option.some_ne_none _
  · unfold Tty.putChar at hopen
    split at hopen
    · exact hopen
    · exact hopen

theorem ReadsOk.step (h : ReadsOk a s) (hf : a.Fits) {op : TtyCall}
    (hs : ttyCallStep uart s op = .ok t) : ReadsOk a t := by
  cases op with
  | files op =>
    obtain ⟨r, hcall⟩ := fsStep_ok hs
    cases op with
    | sysOpen name oflag => exact h.sysOpen hf hcall
    | sysClose fd => exact h.sysClose hf hcall
    | sysDup fd => exact h.dupfd hf hcall
    | sysDup2 fd newfd => exact h.dupfd hf hcall
  | fcntl fd op arg =>
    cases hs
    exact h.fcntl fd op arg
  | read fd isNull count =>
    cases hread : sysRead s fd isNull count with
    | error e =>
      rw [ttyCallStep, hread] at hs
      cases hs
    | ok r =>
      rw [ttyCallStep, hread] at hs
      cases hs
      exact h.read hread
  | arrive i c =>
    cases hs
    exact h.arrive i c

/-! ## One read -/

theorem ringOf_eq_some {fd : Int} {i : Nat} {q : Ring} (h : ringOf s fd = some (i, q)) :
    validFd fd = true ∧ (∃ f, slot s fd.toNat = some f ∧ f.privateData = some i) ∧
      (s.dev.ttys i).ldiscData = some q := by
  unfold ringOf at h
  split at h
  · next hv =>
    obtain ⟨j, hj, h⟩ := Option.bind_eq_some_iff.mp h
    obtain ⟨f, hf, hfj⟩ := Option.bind_eq_some_iff.mp hj
    obtain ⟨p, hp, h⟩ := Option.bind_eq_some_iff.mp h
    cases h
    exact ⟨hv, ⟨f, hf, hfj⟩, hp⟩
  · cases h

/-- A read of a tty with an empty ring answers by the flags of `tty->file`. -/
theorem ReadsOk.read_empty (h : ReadsOk a s) {fd : Int} {i : Nat} {q : Ring} {count : Nat}
    (hring : ringOf s fd = some (i, q)) (hempty : ringCount q = 0) (hcount : 1 ≤ count) :
    ∃ t, sysRead s fd false count =
      .ok (if nonblock (s.fileAt (s.dev.ttys i).file) then .returned (-EAGAIN) [] else .spinning [],
        t) := by
  obtain ⟨hv, ⟨f, hf, hi⟩, hq⟩ := ringOf_eq_some hring
  obtain ⟨hfops, hready⟩ := h.files _ f i hf hi
  obtain ⟨-, h0, rfl⟩ := slot_eq_some hf
  obtain ⟨ldisc, hldisc⟩ := Option.ne_none_iff_exists'.mp hready.ldisc
  obtain ⟨n, rfl⟩ : ∃ n, count = n + 1 := ⟨count - 1, by omega⟩
  have hdata : (s.dev.attached i).tty.ldiscData = some q := hq
  unfold sysRead
  rw [if_neg (by simp [hv])]
  dsimp only
  rw [if_neg h0, hfops]
  dsimp only
  rw [if_neg (Nat.succ_ne_zero n)]
  unfold ttyRead
  rw [if_neg Bool.false_ne_true, hi]
  dsimp only
  rw [hldisc]
  dsimp only
  rw [nTtyRead, if_neg Bool.false_ne_true, hdata]
  dsimp only
  rw [readLoop_empty _ hdata hempty, ok_bind]
  exact ⟨_, rfl⟩

theorem ReadsOk.readLaw_iff (h : ReadsOk a s) (op : TtyCall) : ReadLaw s op ↔ FlagsCurrent s op := by
  cases op with
  | files op => exact Iff.rfl
  | fcntl fd op arg => exact Iff.rfl
  | arrive i c => exact Iff.rfl
  | read fd isNull count =>
    have hanswer {i : Nat} {q : Ring} (hring : ringOf s fd = some (i, q)) (hempty : ringCount q = 0)
        (hcount : 1 ≤ count) :
        (∃ t, sysRead s fd false count = .ok (.returned (-EAGAIN) [], t)) ↔
          nonblock (s.fileAt (s.dev.ttys i).file) = true := by
      obtain ⟨t, ht⟩ := h.read_empty hring hempty hcount
      rw [ht]
      by_cases hn : nonblock (s.fileAt (s.dev.ttys i).file) = true
      · rw [if_pos hn]
        exact iff_of_true ⟨t, rfl⟩ hn
      · rw [if_neg hn]
        refine iff_of_false ?_ hn
        rintro ⟨u, hu⟩
        cases hu
    constructor
    · rintro ⟨hagain, hfiles⟩ ⟨i, q⟩ hring hnull hcount
      obtain ⟨hv, ⟨f, hf, -⟩, -⟩ := ringOf_eq_some hring
      obtain ⟨-, h0, -⟩ := slot_eq_some hf
      refine ⟨hfiles _ ?_, fun hempty => ?_⟩
      · rw [readFiles, if_pos ⟨hv, h0⟩, hring]
        dsimp only
        rw [if_pos ⟨hnull, hcount⟩]
        exact List.mem_cons_of_mem _ List.mem_cons_self
      · have hboth := hagain (i, q) hring hempty hnull (Nat.lt_of_le_of_lt (Nat.zero_le _) hcount)
        subst hnull
        rw [hanswer hring hempty (Nat.lt_of_le_of_lt (Nat.zero_le _) hcount)] at hboth
        exact Bool.eq_iff_iff.mpr hboth
    · intro hflags
      refine ⟨fun ⟨i, q⟩ hring hempty hnull hcount => ?_, fun file hfile => ?_⟩
      · have hless : ringCount q < count := by
          rw [show ringCount q = 0 from hempty]
          exact hcount
        have hagree := (hflags (i, q) hring hnull hless).2 hempty
        subst hnull
        rw [hanswer hring hempty hcount, hagree]
      · unfold readFiles at hfile
        split at hfile
        swap
        · cases hfile
        next hopen =>
        obtain rfl | hfile := List.mem_cons.mp hfile
        · exact h.table.allocated _ (validFd_lt hopen.1).2 hopen.2
        split at hfile
        · cases hfile
        · next i q hring =>
          split at hfile
          · next hlooks =>
            rw [List.mem_singleton] at hfile
            subst hfile
            exact (hflags (i, q) hring hlooks.1 hlooks.2).1
          · cases hfile

/-! ## From boot on -/

theorem ReadsOk.boot {L : FsLayout} {ports : Ports} {w : TtyWorld} {pools : PoolState} {fs : TtyFs}
    (hboot : bootTty uart ports = .ok w) (hmask : Consecutive (setBits pools.chunkMask.1))
    (hinit : initFs L .chdev w pools = .ok fs) : ReadsOk L.area fs := by
  have htable := (initFs_ok hmask hinit).tableOk
  have hopened : ∀ i, (w.ttys i).isOpen = true → TtyReady (w.ttys i) := by
    obtain ⟨⟨r, m⟩, hm, hboot⟩ := bind_ok.mp hboot
    have hfresh : ∀ i, ((TtyWorld.fresh ports).ttys i).isOpen = true →
        TtyReady ((TtyWorld.fresh ports).ttys i) := by
      intro i hi
      unfold TtyWorld.fresh at hi
      dsimp only at hi
      split at hi
      · cases hi
      · cases hi
    dsimp only at hboot
    split at hboot
    · cases hboot
    · cases hboot
      exact (ttyOpenInternal_ready hfresh hm).1.opened hfresh
  obtain ⟨_, _, _, _, _, _, _, _, _, rfl⟩ := initFs_made hinit
  exact ⟨htable, hopened, fun fd f i hf => absurd rfl (slot_eq_some hf).2.1⟩

/-- In a run from boot on, every read answers by its own file and looks at no file struct that has
been freed, if and only if every read finds the flags it goes by current. -/
theorem nonblock_iff {L : FsLayout} {ports : Ports} {w : TtyWorld} {pools : PoolState} {fs : TtyFs}
    (hboot : bootTty uart ports = .ok w) (hmask : Consecutive (setBits pools.chunkMask.1))
    (hinit : initFs L .chdev w pools = .ok fs) (calls : List TtyCall) :
    Throughout (ttyCallStep uart) ReadLaw fs calls ↔
      Throughout (ttyCallStep uart) FlagsCurrent fs calls :=
  throughout_iff (fun _ op h => h.readLaw_iff op)
    (fun _ _ _ h _ hs => h.step L.area_fits hs) (ReadsOk.boot hboot hmask hinit)

end Calls

/-- A tty that is opened once, and read through copies of its descriptor. -/
def currentReads : List TtyCall :=
  [.files (.sysOpen tty2 (O_RDWR ||| O_NONBLOCK)), .read 0 false 1, .files (.sysDup 0),
    .read 1 false 1, .arrive 2 0x61, .read 1 false 4, .fcntl 0 F_SETFL O_RDWR, .read 0 false 1]

theorem nonblock_iff_current :
    ∃ w, bootTty steadyUarts steadyPorts = .ok w ∧
      ∃ fs, initFs plainLayout .chdev w (initPool (.bss fun _ => 0)) = .ok fs ∧
        Throughout (ttyCallStep steadyUarts) ReadLaw fs currentReads := by
  have h : ∃ w, bootTty steadyUarts steadyPorts = .ok w ∧
      ∃ fs, initFs plainLayout .chdev w (initPool (.bss fun _ => 0)) = .ok fs ∧
        Throughout (ttyCallStep steadyUarts) FlagsCurrent fs currentReads := by decide +kernel
  obtain ⟨w, hboot, fs, hinit, hflags⟩ := h
  exact ⟨w, hboot, fs, hinit, (nonblock_iff hboot (by decide +kernel) hinit currentReads).mpr hflags⟩

/-- A tty opened without waiting and then again to wait. -/
def mixedOpens : List TtyCall :=
  [.files (.sysOpen tty2 (O_RDWR ||| O_NONBLOCK)), .files (.sysOpen tty2 O_RDWR)]

/-- The first descriptor waits as the second one would, and when the second has been closed, a read of
the first looks at the freed file. -/
theorem read_by_last_open :
    ∃ w, bootTty steadyUarts steadyPorts = .ok w ∧
      ∃ fs, initFs plainLayout .chdev w (initPool (.bss fun _ => 0)) = .ok fs ∧
        ¬ Throughout (ttyCallStep steadyUarts) ReadLaw fs (mixedOpens ++ [.read 0 false 1]) ∧
        ¬ Throughout (ttyCallStep steadyUarts) ReadLaw fs
          (mixedOpens ++ .files (.sysClose 1) :: [.read 0 false 1]) := by
  have h : ∃ w, bootTty steadyUarts steadyPorts = .ok w ∧
      ∃ fs, initFs plainLayout .chdev w (initPool (.bss fun _ => 0)) = .ok fs ∧
        (∃ s, run (ttyCallStep steadyUarts) fs mixedOpens = .ok s ∧
          ((ringOf s 0).map fun x => ringCount x.2) = some 0 ∧
          nonblock (s.fileAt (s.files 0)) = true ∧
          ∃ x, sysRead s 0 false 1 = .ok x ∧ x.1 = .spinning []) ∧
        ∃ s, run (ttyCallStep steadyUarts) fs (mixedOpens ++ [.files (.sysClose 1)]) = .ok s ∧
          (s.dev.ttys 2).file ∈ readFiles s 0 false 1 ∧ (s.dev.ttys 2).file ∉ allocatedFiles s := by
    decide +kernel
  obtain ⟨w, hboot, fs, hinit, ⟨s, hs, hring, hflag, x, hx, hspin⟩, t, ht, hfile, hfreed⟩ := h
  refine ⟨w, hboot, fs, hinit, fun hlaw => ?_, fun hlaw => ?_⟩
  · obtain ⟨y, hy, hempty⟩ := Option.map_eq_some_iff.mp hring
    have hread := throughout_iff_split.mp hlaw mixedOpens (.read 0 false 1) [] s rfl hs
    obtain ⟨u, hu⟩ := (hread.1 y hy hempty rfl (le_refl 1)).mpr hflag
    rw [hx] at hu
    cases hu
    cases hspin
  · have hread := throughout_iff_split.mp hlaw (mixedOpens ++ [.files (.sysClose 1)])
      (.read 0 false 1) [] t rfl ht
    exact hfreed (hread.2 _ hfile)

end Ohwes

import Ohwes.Kernel.DescriptorView
import Ohwes.Kernel.DescriptorRuns
import Ohwes.Char.TtyOpen

/-! # The life of a tty between open and close

`tty_close` detaches the driver at every close, whatever other descriptors there are, and leaves the
`open` flag of the tty set, so that the next `tty_open` does not come to the driver. A descriptor is
on a tty without a driver as soon as one of two descriptors of the tty has been closed, or a tty has
been opened again; `KeepsAttached` is the condition that a call does neither, and
`descriptors_attached_iff` says that it is the exact one. -/

namespace Ohwes
set_option autoImplicit false
open Library

/-- The file system with the ttys as its devices. -/
abbrev TtyFs := FsState TtyWorld FopsName

/-- The tty a descriptor is on. -/
def onTty (s : TtyFs) (fd : Nat) : Option Nat := (slot s fd).bind File.privateData

/-- Every tty with a descriptor on it has its driver. -/
def DescriptorsAttached (s : TtyFs) : Prop := ∀ fd i, onTty s fd = some i → DriverAttached s.dev i

/-- There is another descriptor on the tty of `fd`. -/
def Shared (s : TtyFs) (fd : Nat) : Prop :=
  ∃ k, k < MAX_OPEN ∧ k ≠ fd ∧ onTty s k ≠ none ∧ onTty s k = onTty s fd

instance decidableShared (s : TtyFs) (fd : Nat) : Decidable (Shared s fd) :=
  inferInstanceAs (Decidable (∃ k, k < MAX_OPEN ∧ k ≠ fd ∧ onTty s k ≠ none ∧
    onTty s k = onTty s fd))

/-- The tty a name leads to. -/
def ttyNamed (s : TtyFs) (name : CString) : Option Nat := do
  let dentry ← findDentry s name
  let inode ← dentry.inode
  (getTty inode.device).toOption

/-- The call does not open a tty that is marked open and has lost its driver, and does not close one
of several descriptors on a tty. -/
def KeepsAttached (a : Area) (s : TtyFs) : FsOp → Prop
  | .sysOpen name oflag =>
    badMode oflag = true ∨ findNextFd s = none ∨ ¬ HasRoom a s ∨
      ∀ i ∈ ttyNamed s name, (s.dev.ttys i).isOpen = true → DriverAttached s.dev i
  | .sysClose fd => validFd fd = true → ¬ Shared s fd.toNat
  | .sysDup _ => True
  | .sysDup2 fd newfd => CanDup s fd newfd → newfd ≠ 0 → ¬ Shared s newfd.toNat

instance decidableKeepsAttached (a : Area) (s : TtyFs) :
    (op : FsOp) → Decidable (KeepsAttached a s op)
  | .sysOpen name oflag => inferInstanceAs (Decidable (badMode oflag = true ∨
      findNextFd s = none ∨ ¬ HasRoom a s ∨
        ∀ i ∈ ttyNamed s name, (s.dev.ttys i).isOpen = true → DriverAttached s.dev i))
  | .sysClose fd => inferInstanceAs (Decidable (validFd fd = true → ¬ Shared s fd.toNat))
  | .sysDup _ => .isTrue trivial
  | .sysDup2 fd newfd => inferInstanceAs (Decidable (CanDup s fd newfd → newfd ≠ 0 →
      ¬ Shared s newfd.toNat))

/-! ## The invariant -/

/-- The inode `init_fs` makes for tty `i`. -/
def ttyInode (i : Nat) : Inode FopsName :=
  { mode := MODE_CHRDEV, device := mkdev TTY_MAJOR i, fops := some .chdev }

/-- Every tty has its device number, and a tty that is open has the driver for its number. -/
structure TtysOk (w : TtyWorld) : Prop where
  ttys : ∀ i, 1 ≤ i → i < NR_TTY → IsTty w i
  drivers : ∀ i, IsTty w i → (w.ttys i).isOpen = true → (w.ttys i).driver = some (driverOf i)

/-- `f` is open on tty `i`, which has its driver. -/
structure OpenOn (w : TtyWorld) (f : File FopsName) (i : Nat) : Prop where
  tty : IsTty w i
  fops : f.fops = some .tty
  inode : f.inode = some (ttyInode i)
  privateData : f.privateData = some i
  isOpen : (w.ttys i).isOpen = true
  attached : DriverAttached w i

/-- A file in the table is blank, as `dup2` of a descriptor onto itself leaves it, or open on a tty. -/
def FileOk (w : TtyWorld) (f : File FopsName) : Prop :=
  (f.fops = none ∧ f.privateData = none) ∨ ∃ i, OpenOn w f i

structure LifecycleOk (a : Area) (s : TtyFs) : Prop where
  table : TableOk a s
  dentries : ∀ d ∈ s.dentries, ∀ inode, d.inode = some inode →
    ∃ i, 1 ≤ i ∧ i < NR_TTY ∧ inode = ttyInode i
  world : TtysOk s.dev
  files : ∀ fd f, slot s fd = some f → FileOk s.dev f

section Steps
variable {a : Area} {s t u : TtyFs} {w w' : TtyWorld} {uart : Fin NR_SERIAL → Uart} {i : Nat}

theorem onTty_eq {fd : Nat} {f : File FopsName} (h : slot s fd = some f) :
    onTty s fd = f.privateData := by
  unfold onTty
  rw [h]
  rfl

theorem OpenOn.frame {f : File FopsName} {k : Nat} (h : OpenOn w f k) (ho : OnlyTty i w w')
    (hi : k = i → (w'.ttys i).isOpen = true ∧ DriverAttached w' i) : OpenOn w' f k := by
  by_cases hk : k = i
  · subst hk
    exact ⟨ho.isTty h.tty, h.fops, h.inode, h.privateData, (hi rfl).1, (hi rfl).2⟩
  · refine ⟨ho.isTty h.tty, h.fops, h.inode, h.privateData, ?_, (ho.attached_iff hk).mpr h.attached⟩
    rw [ho.ttys k hk]
    exact h.isOpen

theorem TtysOk.frame (h : TtysOk w) (ho : OnlyTty i w w')
    (hi : (w'.ttys i).isOpen = true → (w'.ttys i).driver = some (driverOf i)) : TtysOk w' where
  ttys k h1 hlt := ho.isTty (h.ttys k h1 hlt)
  drivers k hk hopen := by
    by_cases hki : k = i
    · rw [hki] at hopen ⊢
      exact hi hopen
    · rw [ho.ttys k hki] at hopen ⊢
      exact h.drivers k (h.ttys k hk.pos hk.lt) hopen

/-- What a call leads to is in order if its devices and files are. -/
theorem LifecycleOk.leads (h : LifecycleOk a s) {slots : Nat → Option (File FopsName)}
    (hl : Leads a s u slots w) (hw : TtysOk w) (hfiles : ∀ fd f, slots fd = some f → FileOk w f) :
    LifecycleOk a u where
  table := hl.table
  dentries := by
    rw [hl.dentries]
    exact h.dentries
  world := by
    rw [hl.dev]
    exact hw
  files := by
    rw [hl.slots, hl.dev]
    exact hfiles

/-- A descriptor on a tty has a file open on it. -/
theorem LifecycleOk.openOn (h : LifecycleOk a s) {fd : Nat} (hi : onTty s fd = some i) :
    ∃ f, slot s fd = some f ∧ OpenOn s.dev f i := by
  obtain ⟨f, hf, hp⟩ := Option.bind_eq_some_iff.mp hi
  obtain ⟨_, hnone⟩ | ⟨k, hk⟩ := h.files fd f hf
  · rw [hnone] at hp
    cases hp
  · have hik : k = i := Option.some.inj (hk.privateData.symm.trans hp)
    exact ⟨f, hf, hik ▸ hk⟩

theorem LifecycleOk.attached (h : LifecycleOk a s) : DescriptorsAttached s := by
  intro fd i hi
  obtain ⟨f, -, hopen⟩ := h.openOn hi
  exact hopen.attached

/-! ## Opening -/

/-- The file `tty_open` makes of a new one. -/
def ttyFile (f : File FopsName) (i : Nat) : File FopsName :=
  { f with fops := some .tty, inode := some (ttyInode i), privateData := some i }

theorem LifecycleOk.ttyNamed_some (h : LifecycleOk a s) {name : CString}
    (hi : ttyNamed s name = some i) : IsTty s.dev i ∧ ∃ d, findDentry s name = some d ∧
      d.inode = some (ttyInode i) := by
  unfold ttyNamed at hi
  obtain ⟨d, hd, hi⟩ := Option.bind_eq_some_iff.mp hi
  obtain ⟨inode, hinode, hi⟩ := Option.bind_eq_some_iff.mp hi
  obtain ⟨k, h1, hlt, rfl⟩ := h.dentries d (List.mem_of_find?_eq_some hd) inode hinode
  have hk := h.world.ttys k h1 hlt
  have hki : k = i := by
    have hget : (getTty (mkdev TTY_MAJOR k)).toOption = some i := hi
    rw [hk.getTty_eq] at hget
    exact Option.some.inj hget
  subst hki
  exact ⟨hk, d, hd, hinode⟩

/-- A name leads to the open function of its tty, or to none. -/
theorem LifecycleOk.openResult_eq (h : LifecycleOk a s) (name : CString) (oflag : BitVec 32) :
    openResult (ttyOps uart) s name oflag = (ttyNamed s name).map fun i =>
      ttyOpen uart (ttyInode i) (nextFile s) { File.zero with oflag, fops := some .chdev } s.dev := by
  unfold openResult driverOpen ttyNamed
  cases hd : findDentry s name with
  | none => rfl
  | some d =>
    simp only [Option.bind_eq_bind, Option.bind_some]
    cases hinode : d.inode with
    | none => rfl
    | some inode =>
      obtain ⟨k, h1, hlt, rfl⟩ := h.dentries d (List.mem_of_find?_eq_some hd) inode hinode
      have hget := (h.world.ttys k h1 hlt).getTty_eq
      have hmaj : devMaj (mkdev TTY_MAJOR k) = TTY_MAJOR := devMaj_mkdev hlt
      simp only [Option.bind_some, ttyInode, ttyOps, chdevOpen, hget, hmaj, chdevs]
      rfl

theorem ttyOpen_open (h : IsTty w i) (hopen : (w.ttys i).isOpen = true) (file : Ptr)
    (f : File FopsName) :
    ttyOpen uart (ttyInode i) file f w =
      .ok (0, ttyFile f i, w.setTty i { w.ttys i with file := file }) := by
  have hget : getTty (ttyInode i).device = .ok i := h.getTty_eq
  have hint : ttyOpenInternal uart w i = .ok (0, w) := by
    unfold ttyOpenInternal
    rw [if_pos hopen]
  unfold ttyOpen
  simp only [hget, hint, ok_bind]
  rfl

/-- A tty that is open stays as it is, with its driver or without; another one is opened with its
driver. -/
theorem ttyOpen_spec (h : IsTty w i) (hw : TtysOk w) {file : Ptr} {f v : File FopsName} {r : Int}
    (hc : ttyOpen uart (ttyInode i) file f w = .ok (r, v, w')) :
    OnlyTty i w w' ∧ TtysOk w' ∧
      ((r < 0 ∧ (w.ttys i).isOpen = false) ∨
        (r = 0 ∧ v = ttyFile f i ∧ (w'.ttys i).isOpen = true ∧
          (((w.ttys i).isOpen = true → DriverAttached w i) → DriverAttached w' i))) := by
  by_cases hopen : (w.ttys i).isOpen = true
  · rw [ttyOpen_open h hopen] at hc
    cases hc
    have ho : OnlyTty i w (w.setTty i { w.ttys i with file := file }) := OnlyTty.setTty rfl
    refine ⟨ho, hw.frame ho fun _ => ?_, Or.inr ⟨rfl, rfl, ?_, fun hatt => hatt hopen⟩⟩
    · rw [TtyWorld.setTty_self]
      exact hw.drivers i h hopen
    · rw [TtyWorld.setTty_self]
      exact hopen
  · have hclosed : (w.ttys i).isOpen = false := by simpa using hopen
    have hget : getTty (ttyInode i).device = .ok i := h.getTty_eq
    unfold ttyOpen at hc
    simp only [hget] at hc
    obtain ⟨⟨r', m⟩, hm, hc⟩ := bind_ok.mp hc
    obtain ⟨ho, ⟨rfl, hmopen, hdriver, hatt⟩ | ⟨hneg, hmclosed⟩⟩ := ttyOpenInternal_spec h hclosed hm
    · simp only [lt_irrefl, if_false] at hc
      cases hc
      have hlast : OnlyTty i m (m.setTty i { m.ttys i with file := file }) := OnlyTty.setTty rfl
      refine ⟨ho.trans hlast, hw.frame (ho.trans hlast) fun _ => ?_,
        Or.inr ⟨rfl, rfl, ?_, fun _ => hatt⟩⟩
      · rw [TtyWorld.setTty_self]
        exact hdriver
      · rw [TtyWorld.setTty_self]
        exact hmopen
    · simp only [hneg, if_true] at hc
      cases hc
      refine ⟨ho, hw.frame ho fun hm => ?_, Or.inl ⟨hneg, hclosed⟩⟩
      rw [hmclosed] at hm
      cases hm

theorem LifecycleOk.sysOpen_keeps (h : LifecycleOk a s) (hf : a.Fits) {name : CString}
    {oflag : BitVec 32} (hq : KeepsAttached a s (.sysOpen name oflag)) {r : Int}
    (hc : sysOpen (ttyOps uart) s name oflag = .ok (r, t)) : LifecycleOk a t := by
  obtain hl | ⟨fd, ret, v, dev, hmode, hfd, hroom, hres, hl⟩ := h.table.sysOpen_view hf hc
  · exact h.leads hl h.world h.files
  rw [h.openResult_eq] at hres
  obtain ⟨i, hi, hopen⟩ := Option.map_eq_some_iff.mp hres
  obtain ⟨htty, _⟩ := h.ttyNamed_some hi
  obtain ⟨ho, hw, hcases⟩ := ttyOpen_spec htty h.world hopen
  obtain ⟨hneg, hclosed⟩ | ⟨rfl, hv, hisOpen, hatt⟩ := hcases
  · rw [if_pos hneg] at hl
    refine h.leads hl hw fun k f hk => ?_
    obtain hblank | ⟨j, hj⟩ := h.files k f hk
    · exact Or.inl hblank
    · refine Or.inr ⟨j, hj.frame ho fun hji => ?_⟩
      -- There is no descriptor on a tty that is not open.
      have hjopen := hj.isOpen
      rw [hji, hclosed] at hjopen
      cases hjopen
  · rw [if_neg (lt_irrefl 0)] at hl
    refine h.leads hl hw fun k f hk => ?_
    by_cases hkf : k = fd
    · rw [hkf, Function.update_self] at hk
      obtain rfl : v = f := Option.some.inj hk
      refine Or.inr ⟨i, ⟨ho.isTty htty, by rw [hv]; rfl, by rw [hv]; rfl, by rw [hv]; rfl, hisOpen,
        hatt ?_⟩⟩
      obtain hbad | hnone | hfull | hall := hq
      · rw [hmode] at hbad
        cases hbad
      · rw [hfd] at hnone
        cases hnone
      · exact absurd hroom hfull
      · exact hall i hi
    · rw [Function.update_of_ne hkf] at hk
      obtain hblank | ⟨j, hj⟩ := h.files k f hk
      · exact Or.inl hblank
      · refine Or.inr ⟨j, hj.frame ho fun hji => ⟨hisOpen, hatt fun _ => ?_⟩⟩
        exact hji ▸ hj.attached

/-- Opening a tty that is marked open and has lost its driver makes a descriptor on it. -/
theorem LifecycleOk.sysOpen_stale (h : LifecycleOk a s) (hf : a.Fits) {name : CString}
    {oflag : BitVec 32} (hq : ¬ KeepsAttached a s (.sysOpen name oflag)) :
    ∃ r t, sysOpen (ttyOps uart) s name oflag = .ok (r, t) ∧ ¬ DescriptorsAttached t := by
  simp only [KeepsAttached, not_or, not_not, not_forall, Option.mem_def] at hq
  obtain ⟨hmode, hnext, hroom, i, hi, hopen, hstale⟩ := hq
  obtain ⟨fd, hfd⟩ := Option.ne_none_iff_exists'.mp hnext
  obtain ⟨htty, _⟩ := h.ttyNamed_some hi
  let f : File FopsName := { File.zero with oflag, fops := some .chdev }
  let w : TtyWorld := s.dev.setTty i { s.dev.ttys i with file := nextFile s }
  have hres : openResult (ttyOps uart) s name oflag = some (.ok (0, ttyFile f i, w)) := by
    rw [h.openResult_eq, hi]
    exact congrArg some (ttyOpen_open htty hopen (nextFile s) f)
  obtain ⟨t, hcall, hl⟩ := h.table.sysOpen_ok hf (by simpa using hmode) hfd hroom hres
  rw [if_neg (lt_irrefl 0)] at hl
  refine ⟨_, t, hcall, fun hatt => hstale ?_⟩
  have hslot : slot t fd = some (ttyFile f i) := by
    rw [hl.slots, Function.update_self]
  have hnow := hatt fd i (by rw [onTty_eq hslot]; rfl)
  rw [hl.dev] at hnow
  exact hnow

/-! ## Closing -/

/-- A descriptor that is on no tty has no close function; one on a tty detaches the driver. -/
theorem LifecycleOk.closeResult_cases (h : LifecycleOk a s) (uart : Fin NR_SERIAL → Uart)
    {fd : Int} {f : File FopsName} (hs : slot s fd.toNat = some f) :
    (onTty s fd.toNat = none ∧ closeResult (ttyOps uart) s fd = none) ∨
      ∃ i w', onTty s fd.toNat = some i ∧
        closeResult (ttyOps uart) s fd = some (.ok (0, f, w')) ∧ OnlyTty i s.dev w' ∧
          w'.ttys = s.dev.ttys ∧ ¬ DriverAttached w' i := by
  obtain ⟨_, _, hfile⟩ := slot_eq_some hs
  unfold closeResult
  rw [← hfile, onTty_eq hs]
  obtain ⟨hnone, hpriv⟩ | ⟨i, hi⟩ := h.files _ f hs
  · refine Or.inl ⟨hpriv, ?_⟩
    rw [hnone]
    rfl
  · obtain ⟨w', hclose, ho, httys, hdet⟩ :=
      callClose_spec hi.tty (h.world.drivers i hi.tty hi.isOpen)
    refine Or.inr ⟨i, w', hi.privateData, ?_, ho, httys, hdet⟩
    have hget : getTty (ttyInode i).device = .ok i := hi.tty.getTty_eq
    rw [hi.fops]
    simp only [Option.bind_eq_bind, Option.bind_some, ttyOps, ttyClose, hi.inode, hget, hclose,
      ok_bind]

/-- `t` is `s` after descriptor `fd`, on tty `i`, has been closed. -/
structure ClosedFd (a : Area) (s t : TtyFs) (fd i : Nat) : Prop where
  tty : onTty s fd = some i
  leads : Leads a s t (Function.update (slot s) fd none) t.dev
  only : OnlyTty i s.dev t.dev
  ttys : t.dev.ttys = s.dev.ttys
  detached : ¬ DriverAttached t.dev i
  files : t.files = Function.update s.files fd 0
  next : nextFile t = s.files fd
  room : HasRoom a t

theorem LifecycleOk.sysClose_cases (h : LifecycleOk a s) (uart : Fin NR_SERIAL → Uart)
    (hf : a.Fits) (fd : Int) :
    ((validFd fd = true → onTty s fd.toNat = none) ∧
        ∃ r, sysClose (ttyOps uart) s fd = .ok (r, s)) ∨
      (validFd fd = true ∧ ∃ i r t, sysClose (ttyOps uart) s fd = .ok (r, t) ∧
        ClosedFd a s t fd.toNat i) := by
  by_cases hv : validFd fd = true
  swap
  · exact Or.inl ⟨fun hv' => absurd hv' hv, sysClose_refused fun hv' => absurd hv' hv⟩
  cases hs : slot s fd.toNat with
  | none =>
    refine Or.inl ⟨fun _ => ?_, sysClose_refused fun _ hne => absurd hs hne⟩
    unfold onTty
    rw [hs]
    rfl
  | some f =>
    obtain ⟨hnone, hclose⟩ | ⟨i, w', hi, hclose, ho, httys, hdet⟩ :=
      h.closeResult_cases uart hs
    · exact Or.inl ⟨fun _ => hnone, sysClose_refused fun _ _ => hclose⟩
    · obtain ⟨t, hcall, hl, hfiles, hnext, hroom⟩ := h.table.sysClose_ok hf hv
        (by rw [hs]; exact Option.some_ne_none f) hclose (le_refl 0)
      obtain rfl := hl.dev
      exact Or.inr ⟨hv, i, _, t, hcall, hi, hl, ho, httys, hdet, hfiles, hnext, hroom⟩

namespace ClosedFd
variable {fd : Nat}

/-- Without another descriptor on the tty, everything is in order afterwards. -/
theorem lifecycleOk (hc : ClosedFd a s t fd i) (h : LifecycleOk a s) (hsh : ¬ Shared s fd) :
    LifecycleOk a t := by
  refine h.leads hc.leads (h.world.frame hc.only fun hopen => ?_) fun k f hk => ?_
  · obtain ⟨f, _, hi⟩ := h.openOn hc.tty
    rw [hc.ttys]
    exact h.world.drivers i hi.tty hi.isOpen
  · have hne : k ≠ fd := by
      rintro rfl
      rw [Function.update_self] at hk
      cases hk
    rw [Function.update_of_ne hne] at hk
    obtain hblank | ⟨j, hj⟩ := h.files k f hk
    · exact Or.inl hblank
    · refine Or.inr ⟨j, hj.frame hc.only fun hji => absurd ?_ hsh⟩
      have hkj : onTty s k = some i := by rw [onTty_eq hk, hj.privateData, hji]
      exact ⟨k, (slot_eq_some hk).1, hne, by rw [hkj]; exact Option.some_ne_none i,
        hkj.trans hc.tty.symm⟩

/-- Another descriptor on the tty is left without a driver. -/
theorem left_detached (hc : ClosedFd a s t fd i) (hsh : Shared s fd) :
    ∃ k, k ≠ fd ∧ onTty t k = some i := by
  obtain ⟨k, _, hne, _, hkfd⟩ := hsh
  refine ⟨k, hne, ?_⟩
  have hslot : slot t k = slot s k := by rw [hc.leads.slots, Function.update_of_ne hne]
  have hon : onTty t k = onTty s k := by rw [onTty, onTty, hslot]
  rw [hon, hkfd, hc.tty]

end ClosedFd

/-! ## Copying -/

/-- The file a copy is made from is in the table, or has just been freed. -/
theorem LifecycleOk.copy_fileOk (h : LifecycleOk a s) {x : Ptr}
    (hx : x = nextFile s ∨ ∃ k, k < MAX_OPEN ∧ s.files k = x ∧ x ≠ 0) :
    FileOk s.dev (Function.update s.fileAt (nextFile s) File.zero x) := by
  by_cases hnext : x = nextFile s
  · rw [hnext, Function.update_self]
    exact Or.inl ⟨rfl, rfl⟩
  · obtain ⟨k, hk, rfl, h0⟩ := hx.resolve_left hnext
    rw [Function.update_of_ne hnext]
    exact h.files k _ (slot_of_lt hk h0)

theorem LifecycleOk.copyFd_keeps (h : LifecycleOk a s) (hf : a.Fits) {x : Ptr}
    (hx : x = nextFile s ∨ ∃ k, k < MAX_OPEN ∧ s.files k = x ∧ x ≠ 0) {newfd : Nat}
    (hlt : newfd < MAX_OPEN) {r : Int} (hc : copyFd s x newfd = .ok (r, t)) : LifecycleOk a t := by
  by_cases hroom : HasRoom a s
  swap
  · rw [h.table.copyFd_full hf hroom] at hc
    cases hc
  obtain ⟨u, hu, hl⟩ := h.table.copyFd_ok hf hroom x hlt
  rw [hu] at hc
  cases hc
  refine h.leads hl h.world fun k f hk => ?_
  by_cases hkn : k = newfd
  · rw [hkn, Function.update_self] at hk
    exact Option.some.inj hk ▸ h.copy_fileOk hx
  · rw [Function.update_of_ne hkn] at hk
    exact h.files k f hk

theorem LifecycleOk.sysDup_keeps (h : LifecycleOk a s) (hf : a.Fits) {fd : Int} {r : Int}
    (hc : dupfd (ttyOps uart) s fd 0 = .ok (r, t)) : LifecycleOk a t := by
  by_cases hcan : CanDup s fd 0
  swap
  · obtain ⟨r', hr⟩ := dupfd_refused (ttyOps uart) hcan
    rw [hr] at hc
    cases hc
    exact h
  rw [dupfd_dup hcan] at hc
  cases hnext : findNextFd s with
  | none =>
    rw [hnext] at hc
    cases hc
    exact h
  | some k =>
    rw [hnext] at hc
    exact h.copyFd_keeps hf (Or.inr ⟨fd.toNat, (validFd_lt hcan.1).2, rfl, hcan.2.2⟩)
      (findNextFd_some hnext).1 hc

theorem LifecycleOk.sysDup2_keeps (h : LifecycleOk a s) (hf : a.Fits) {fd newfd : Int}
    (hq : KeepsAttached a s (.sysDup2 fd newfd)) {r : Int}
    (hc : dupfd (ttyOps uart) s fd newfd = .ok (r, t)) : LifecycleOk a t := by
  by_cases hz : newfd = 0
  · rw [hz] at hc
    exact h.sysDup_keeps hf hc
  by_cases hcan : CanDup s fd newfd
  swap
  · obtain ⟨r', hr⟩ := dupfd_refused (ttyOps uart) hcan
    rw [hr] at hc
    cases hc
    exact h
  have hlt := (validFd_lt hcan.1).2
  have hnlt := (validFd_lt hcan.2.1).2
  rw [dupfd_dup2 hcan hz] at hc
  obtain ⟨⟨r', m⟩, hm, hc⟩ := bind_ok.mp hc
  obtain ⟨_, r'', hr⟩ | ⟨_, i, r'', m', hr, hclosed⟩ := h.sysClose_cases uart hf newfd
  · rw [hr] at hm
    cases hm
    exact h.copyFd_keeps hf (Or.inr ⟨fd.toNat, hlt, rfl, hcan.2.2⟩) hnlt hc
  · rw [hr] at hm
    cases hm
    refine (hclosed.lifecycleOk h (hq hcan hz)).copyFd_keeps hf ?_ hnlt hc
    by_cases heq : fd.toNat = newfd.toNat
    · exact Or.inl (by rw [hclosed.next, heq])
    · refine Or.inr ⟨fd.toNat, hlt, ?_, hcan.2.2⟩
      rw [hclosed.files, Function.update_of_ne heq]

theorem LifecycleOk.sysDup2_detaches (h : LifecycleOk a s) (hf : a.Fits) {fd newfd : Int}
    (hq : ¬ KeepsAttached a s (.sysDup2 fd newfd)) :
    ∃ r t, dupfd (ttyOps uart) s fd newfd = .ok (r, t) ∧ ¬ DescriptorsAttached t := by
  simp only [KeepsAttached, not_forall, not_not] at hq
  obtain ⟨hcan, hz, hsh⟩ := hq
  rw [dupfd_dup2 hcan hz]
  obtain ⟨hnone, _⟩ | ⟨_, i, r, m, hr, hclosed⟩ := h.sysClose_cases uart hf newfd
  · obtain ⟨k, _, _, hne, heq⟩ := hsh
    exact absurd (heq.trans (hnone hcan.2.1)) hne
  obtain ⟨k, hk, hon⟩ := hclosed.left_detached hsh
  obtain ⟨u, hu, hl⟩ := hclosed.leads.table.copyFd_ok hf hclosed.room (s.files fd.toNat)
    (validFd_lt hcan.2.1).2
  refine ⟨_, u, by rw [hr]; exact hu, fun hatt => hclosed.detached ?_⟩
  have hslot : slot u k = slot m k := by rw [hl.slots, Function.update_of_ne hk]
  have hnow := hatt k i (by rw [onTty, hslot]; exact hon)
  rw [hl.dev] at hnow
  exact hnow

/-! ## Runs -/

/-- **Step.** A call that meets the condition keeps the invariant. -/
theorem LifecycleOk.step (h : LifecycleOk a s) (hf : a.Fits) {op : FsOp}
    (hq : KeepsAttached a s op) (hs : fsStep (ttyOps uart) s op = .ok t) : LifecycleOk a t := by
  obtain ⟨r, hr⟩ := fsStep_ok hs
  cases op with
  | sysOpen name oflag => exact h.sysOpen_keeps hf hq hr
  | sysClose fd =>
    obtain ⟨_, r', hsame⟩ | ⟨hv, i, r', m, hm, hclosed⟩ := h.sysClose_cases uart hf fd
    · have hrs := hsame.symm.trans hr
      cases hrs
      exact h
    · have hrm := hm.symm.trans hr
      cases hrm
      exact hclosed.lifecycleOk h (hq hv)
  | sysDup fd => exact h.sysDup_keeps hf hr
  | sysDup2 fd newfd => exact h.sysDup2_keeps hf hq hr

/-- A call that does not meet it leaves a descriptor on a tty without a driver. -/
theorem LifecycleOk.step_detaches (h : LifecycleOk a s) (hf : a.Fits) {op : FsOp}
    (hq : ¬ KeepsAttached a s op) :
    ∃ t, fsStep (ttyOps uart) s op = .ok t ∧ ¬ DescriptorsAttached t := by
  have hcall : ∃ r t, fsCall (ttyOps uart) s op = .ok (r, t) ∧ ¬ DescriptorsAttached t := by
    cases op with
    | sysOpen name oflag => exact h.sysOpen_stale hf hq
    | sysClose fd =>
      simp only [KeepsAttached, not_forall, not_not] at hq
      obtain ⟨hv, hsh⟩ := hq
      obtain ⟨hnone, _⟩ | ⟨_, i, r, m, hm, hclosed⟩ := h.sysClose_cases uart hf fd
      · obtain ⟨k, _, _, hne, heq⟩ := hsh
        exact absurd (heq.trans (hnone hv)) hne
      · obtain ⟨k, _, hon⟩ := hclosed.left_detached hsh
        exact ⟨r, m, hm, fun hatt => hclosed.detached (hatt k i hon)⟩
    | sysDup fd => exact absurd trivial hq
    | sysDup2 fd newfd => exact h.sysDup2_detaches hf hq
  obtain ⟨r, t, hr, hn⟩ := hcall
  exact ⟨t, by rw [fsStep, hr]; rfl, hn⟩

end Steps

/-! ## From boot on -/

/-- The entry has the inode of a tty, or none. -/
def TtyDentry (d : Dentry FopsName) : Prop :=
  ∀ inode, d.inode = some inode → ∃ i, 1 ≤ i ∧ i < NR_TTY ∧ inode = ttyInode i

theorem createDentries_tty {dentryPool inodePool : Option Nat} :
    ∀ {n k : Nat} {s t : PoolState} {l l' : List (Dentry FopsName)}, k + n = NR_TTY →
      (∀ d ∈ l, TtyDentry d) →
      createDentries dentryPool inodePool .chdev n k s l = .ok (t, l') → ∀ d ∈ l', TtyDentry d := by
  intro n
  induction n with
  | zero =>
    intro k s t l l' _ hl hc
    cases hc
    exact hl
  | succ n ih =>
    intro k s t l l' hk hl hc
    unfold createDentries at hc
    obtain ⟨⟨x, s₁⟩, _, hc⟩ := bind_ok.mp hc
    dsimp only at hc
    split at hc
    · cases hc
    split at hc
    · refine ih (by omega) ?_ hc
      rintro d hd inode hinode
      obtain rfl | hd := List.mem_cons.mp hd
      · cases hinode
      · exact hl d hd inode hinode
    next hk0 =>
      obtain ⟨⟨y, s₂⟩, _, hc⟩ := bind_ok.mp hc
      dsimp only at hc
      split at hc
      · cases hc
      refine ih (by omega) ?_ hc
      rintro d hd inode hinode
      obtain rfl | hd := List.mem_cons.mp hd
      · exact ⟨k, by omega, by omega, (Option.some.inj hinode).symm⟩
      · exact hl d hd inode hinode

theorem TtysOk.fresh (ports : Ports) : TtysOk (TtyWorld.fresh ports) where
  ttys i h1 hlt := by
    refine ⟨h1, hlt, ?_⟩
    unfold TtyWorld.fresh
    dsimp only
    rw [dif_pos hlt]
    rfl
  drivers i hi hopen := by
    unfold TtyWorld.fresh at hopen
    dsimp only at hopen
    rw [dif_pos hi.lt] at hopen
    cases hopen

theorem TtysOk.boot {uart : Fin NR_SERIAL → Uart} {ports : Ports} {w : TtyWorld}
    (h : bootTty uart ports = .ok w) : TtysOk w := by
  unfold bootTty at h
  obtain ⟨⟨r, m⟩, hm, h⟩ := bind_ok.mp h
  have hfresh := TtysOk.fresh ports
  have htty := hfresh.ttys TTY_MIN (by decide) (by decide)
  have hclosed : ((TtyWorld.fresh ports).ttys TTY_MIN).isOpen = false := rfl
  obtain ⟨ho, ⟨rfl, _, hdriver, _⟩ | ⟨hneg, _⟩⟩ := ttyOpenInternal_spec htty hclosed hm
  · cases h
    exact hfresh.frame ho fun _ => hdriver
  · have hne : r ≠ 0 := by omega
    simp only [ne_eq, hne, not_false_eq_true, if_true] at h
    cases h

section Boot
variable {L : FsLayout} {uart : Fin NR_SERIAL → Uart} {ports : Ports} {w : TtyWorld}
  {pools : PoolState} {fs : TtyFs}

theorem LifecycleOk.boot (hboot : bootTty uart ports = .ok w)
    (hmask : Consecutive (setBits pools.chunkMask.1))
    (hinit : initFs L .chdev w pools = .ok fs) : LifecycleOk L.area fs := by
  have htable := (initFs_ok hmask hinit).tableOk
  obtain ⟨_, _, _, ⟨s₄, l⟩, _, _, _, _, hl, rfl⟩ := initFs_made hinit
  refine ⟨htable, createDentries_tty (Nat.zero_add NR_TTY) ?_ hl, TtysOk.boot hboot, ?_⟩
  · exact fun d hd => absurd hd List.not_mem_nil
  intro fd f hf
  exact absurd rfl (slot_eq_some hf).2.1

/-- **Open and close.** In a run from boot on, in every state every tty with a descriptor on it has
its driver attached, if and only if every call of the run meets `KeepsAttached`. -/
theorem descriptors_attached_iff (calls : List FsOp) (hboot : bootTty uart ports = .ok w)
    (hmask : Consecutive (setBits pools.chunkMask.1))
    (hinit : initFs L .chdev w pools = .ok fs) :
    (∀ t, Reaches (fsStep (ttyOps uart)) fs calls t → DescriptorsAttached t) ↔
      Throughout (fsStep (ttyOps uart)) (KeepsAttached L.area) fs calls :=
  throughout_iff_reached (fun _ h => h.attached) (fun _ _ _ h hq hs => h.step L.area_fits hq hs)
    (fun _ _ h hq => h.step_detaches L.area_fits hq) (LifecycleOk.boot hboot hmask hinit)

end Boot

/-- Four ports that answer. -/
def steadyPorts : Ports := fun j => probedPort (j.val + 1)

def steadyUarts : Fin NR_SERIAL → Uart := fun _ => steadyUart 0x01 0x60 0x30

def tty2 : CString := text ['/', 'd', 'e', 'v', '/', 't', 't', 'y', '2']
def ttyS1 : CString := text ['/', 'd', 'e', 'v', '/', 't', 't', 'y', 'S', '1']

/-- Several descriptors on a terminal and on a serial port, one on the first terminal that is closed
again, and calls that fail. -/
def lifecycleCalls : List FsOp :=
  [.sysOpen tty2 O_RDWR, .sysOpen ttyS1 O_RDWR, .sysDup 0, .sysOpen ttyS1 O_RDONLY, .sysDup2 1 5,
    .sysOpen tty1 O_RDWR, .sysClose 4, .sysClose 7, .sysDup2 9 1]

theorem descriptors_attached_shared :
    ∃ w, bootTty steadyUarts steadyPorts = .ok w ∧
      ∃ fs, initFs plainLayout .chdev w (initPool (.bss fun _ => 0)) = .ok fs ∧
        ∀ t, Reaches (fsStep (ttyOps steadyUarts)) fs lifecycleCalls t → DescriptorsAttached t := by
  have h : ∃ w, bootTty steadyUarts steadyPorts = .ok w ∧
      ∃ fs, initFs plainLayout .chdev w (initPool (.bss fun _ => 0)) = .ok fs ∧
        Throughout (fsStep (ttyOps steadyUarts)) (KeepsAttached plainLayout.area) fs
          lifecycleCalls := by decide +kernel
  obtain ⟨w, hboot, fs, hinit, hrun⟩ := h
  exact ⟨w, hboot, fs, hinit,
    (descriptors_attached_iff lifecycleCalls hboot (by decide +kernel) hinit).mpr hrun⟩

/-- Closing one of two descriptors leaves the other without a driver. -/
theorem close_detaches_other :
    ∃ w, bootTty steadyUarts steadyPorts = .ok w ∧
      ∃ fs, initFs plainLayout .chdev w (initPool (.bss fun _ => 0)) = .ok fs ∧
        ∃ t, Reaches (fsStep (ttyOps steadyUarts)) fs
          [.sysOpen tty2 O_RDWR, .sysDup 0, .sysClose 0] t ∧ ¬ DescriptorsAttached t := by
  have h : ∃ w, bootTty steadyUarts steadyPorts = .ok w ∧
      ∃ fs, initFs plainLayout .chdev w (initPool (.bss fun _ => 0)) = .ok fs ∧
        ∃ t, run (fsStep (ttyOps steadyUarts)) fs
          [.sysOpen tty2 O_RDWR, .sysDup 0, .sysClose 0] = .ok t ∧
          onTty t 1 = some 2 ∧ ¬ DriverAttached t.dev 2 := by decide +kernel
  obtain ⟨w, hboot, fs, hinit, t, hrun, hon, hdet⟩ := h
  exact ⟨w, hboot, fs, hinit, t, Reaches.of_run hrun, fun hatt => hdet (hatt 1 2 hon)⟩

end Ohwes

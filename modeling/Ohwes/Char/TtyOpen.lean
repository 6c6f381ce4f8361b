import Ohwes.Char.Serial

/-! # `kernel/char/tty.c`, `char.c`: opening and closing a tty

That a tty is in use is recorded in three places: the `open` flag of the tty, the ring of its line
discipline, and the pointer its driver keeps, in the terminal or in the serial port. `TtyWorld` is
all of them together. A pointer to a tty is the tty's number; `ttys[0]` is never handed out.

`tty_fops` and `chdev_ops` are the two records of file operations there are. -/

namespace Ohwes
set_option autoImplicit false

def TTY_MIN : Nat := 1
def MAX_CHDEV : Nat := 8

/-- `terms n` is the `tty` of terminal `n`, `ports` are the serial ports. -/
structure TtyWorld where
  ttys : Nat → Tty
  terms : Nat → Option Nat
  ports : Ports

namespace TtyWorld

def setTty (w : TtyWorld) (i : Nat) (tty : Tty) : TtyWorld :=
  { w with ttys := Function.update w.ttys i tty }

def setTerm (w : TtyWorld) (n : Nat) (tty : Option Nat) : TtyWorld :=
  { w with terms := Function.update w.terms n tty }

def setPort (w : TtyWorld) (j : Fin NR_SERIAL) (p : Port) : TtyWorld :=
  { w with ports := w.ports.set j p }

@[simp] theorem setTty_self (w : TtyWorld) (i : Nat) (tty : Tty) : (w.setTty i tty).ttys i = tty :=
  Function.update_self ..

theorem setTty_of_ne (w : TtyWorld) {i k : Nat} (h : k ≠ i) (tty : Tty) :
    (w.setTty i tty).ttys k = w.ttys k := Function.update_of_ne h ..

@[simp] theorem setTty_terms (w : TtyWorld) (i : Nat) (tty : Tty) :
    (w.setTty i tty).terms = w.terms := rfl

@[simp] theorem setTty_ports (w : TtyWorld) (i : Nat) (tty : Tty) :
    (w.setTty i tty).ports = w.ports := rfl

@[simp] theorem setTerm_ttys (w : TtyWorld) (n : Nat) (t : Option Nat) :
    (w.setTerm n t).ttys = w.ttys := rfl

@[simp] theorem setPort_ttys (w : TtyWorld) (j : Fin NR_SERIAL) (p : Port) :
    (w.setPort j p).ttys = w.ttys := rfl

end TtyWorld

/-! ## The drivers -/

/-- What the lookup of a driver reads of `struct tty_driver`. -/
structure DriverEntry where
  name : DriverName
  major : Nat
  minorStart : Nat
  count : Nat

def terminalEntry : DriverEntry :=
  { name := .terminal, major := TTY_MAJOR, minorStart := TTY_MIN, count := NR_TERMINAL }

def serialEntry : DriverEntry :=
  { name := .serial, major := TTY_MAJOR, minorStart := TTYS_MIN, count := NR_SERIAL }

/-- The list of drivers, in the order of registration: `init_serial` runs before `init_terminal`. -/
def ttyDrivers : List DriverEntry := [serialEntry, terminalEntry]

def findDriver (device : Nat) : Option DriverEntry :=
  ttyDrivers.find? fun d =>
    devMaj device = d.major ∧ d.minorStart ≤ devMin device ∧
      devMin device < d.minorStart + d.count

def ttyGetTerminal (tty : Tty) : Except Int Nat :=
  if devMaj tty.device ≠ TTY_MAJOR then .error (-ENODEV)
  else if devMin tty.device < TTY_MIN ∨ devMin tty.device > TTY_MAX then .error (- ENXIO)
  else .ok (devMin tty.device)

def terminalTtyOpen (w : TtyWorld) (i : Nat) : Int × TtyWorld :=
  match ttyGetTerminal (w.ttys i) with
  | .error e => (e, w)
  | .ok n => if (w.terms n).isSome then (-EBUSY, w) else (0, w.setTerm n (some i))

def terminalTtyClose (w : TtyWorld) (i : Nat) : Int × TtyWorld :=
  match ttyGetTerminal (w.ttys i) with
  | .error e => (e, w)
  | .ok n => (0, w.setTerm n none)

section Open
variable (uart : Fin NR_SERIAL → Uart)

def serialTtyOpen (w : TtyWorld) (i : Nat) : Call (Int × TtyWorld) :=
  match ttyGetCom (w.ttys i) with
  | .error e => .ok (e, w)
  | .ok j => do
    let x ← serialOpen (uart j) i (w.ports j)
    .ok (x.1, w.setPort j x.2)

def serialTtyClose (w : TtyWorld) (i : Nat) : Int × TtyWorld :=
  match ttyGetCom (w.ttys i) with
  | .error e => (e, w)
  | .ok j => ((serialClose (w.ttys i) (w.ports j)).1, w.setPort j (serialClose (w.ttys i) (w.ports j)).2)

/-- `tty->driver.open`. -/
def callOpen (w : TtyWorld) (i : Nat) : Call (Int × TtyWorld) :=
  match (w.ttys i).driver with
  | none => .error .assertion
  | some .terminal => .ok (terminalTtyOpen w i)
  | some .serial => serialTtyOpen uart w i

/-- `tty->driver.close`. -/
def callClose (w : TtyWorld) (i : Nat) : Call (Int × TtyWorld) :=
  match (w.ttys i).driver with
  | none => .error .assertion
  | some .terminal => .ok (terminalTtyClose w i)
  | some .serial => .ok (serialTtyClose w i)

/-! ## `tty.c` -/

def getTty (device : Nat) : Except Int Nat :=
  if devMaj device ≠ TTY_MAJOR then .error (-EINVAL)
  else if devMin device < 1 ∨ devMin device ≥ NR_TTY then .error (-ENODEV)
  else .ok (devMin device)

/-- What the static buffer of a tty's line discipline holds. -/
def rxbuf (tty : Tty) : Nat → Byte :=
  match tty.ldiscData with
  | none => fun _ => 0
  | some q => q.ring

/-- The end of `tty_open_internal`, with the driver found: it is copied into the tty and opened. -/
def attachDriver (w : TtyWorld) (i : Nat) (tty : Tty) (d : DriverEntry) :
    Call (Int × TtyWorld) := do
  let line := devMin tty.device - d.minorStart
  let x ← callOpen uart (w.setTty i { tty with driver := some d.name, line := line }) i
  if x.1 ≠ 0 then .ok x
  else
    let tty := { x.2.ttys i with
      isOpen := true, throttled := false, stopped := false, hwStopped := false }
    .ok (0, x.2.setTty i tty)

def ttyOpenInternal (w : TtyWorld) (i : Nat) : Call (Int × TtyWorld) :=
  if (w.ttys i).isOpen then .ok (0, w)
  else
    let tty := { w.ttys i with termios := defaultTermios, ldisc := some N_TTY }
    let x := nTtyOpen (rxbuf tty) tty
    if x.1 ≠ 0 then .ok (x.1, w.setTty i x.2)
    else match findDriver x.2.device with
    | none => .ok (- ENXIO, w.setTty i x.2)
    | some d => attachDriver uart w i x.2 d

inductive FopsName where
  | chdev
  | tty
  deriving DecidableEq, Repr

def ttyOpen (inode : Inode FopsName) (file : Ptr) (f : File FopsName) (w : TtyWorld) :
    Call (Int × File FopsName × TtyWorld) :=
  match getTty inode.device with
  | .error _ => .ok (-ENODEV, f, w)
  | .ok i => do
    let x ← ttyOpenInternal uart w i
    if x.1 < 0 then .ok (x.1, f, x.2)
    else
      let f := { f with fops := some .tty, inode := some inode, privateData := some i }
      .ok (0, f, x.2.setTty i { x.2.ttys i with file := file })

def ttyClose (f : File FopsName) (w : TtyWorld) : Call (Int × File FopsName × TtyWorld) :=
  match f.inode with
  | none => .ok (-EINVAL, f, w)
  | some inode =>
    match getTty inode.device with
    | .error _ => .ok (-ENODEV, f, w)
    | .ok i => do
      let x ← callClose w i
      .ok (x.1, f, x.2)

/-! ## `char.c` -/

/-- Both drivers register the operations of the ttys under one major number, and nobody else
registers any. -/
def chdevs (major : Nat) : Option FopsName := if major = TTY_MAJOR then some .tty else none

def chdevOpen (inode : Inode FopsName) (file : Ptr) (f : File FopsName) (w : TtyWorld) :
    Call (Int × File FopsName × TtyWorld) :=
  let major := devMaj inode.device
  if major = 0 ∨ major ≥ MAX_CHDEV then .ok (-ENODEV, f, w)
  else match chdevs major with
  | some .tty => ttyOpen uart inode file f w
  | _ => .ok (- ENXIO, f, w)

def ttyOps : FopsName → FileOps TtyWorld FopsName
  | .chdev => { openFn := some (chdevOpen uart), closeFn := none }
  | .tty => { openFn := some (ttyOpen uart), closeFn := some fun _ f w => ttyClose f w }

/-! ## Booting -/

/-- Before anything is opened. The ports are as `init_serial` has left them. -/
def TtyWorld.fresh (ports : Ports) : TtyWorld where
  ttys i := if h : i < NR_TTY then Tty.zero i h else Tty.zero 0 (by decide)
  terms _ := none
  ports := ports

/-- `init_terminal` switches to the first terminal and opens its tty for that. -/
def bootTty (ports : Ports) : Call TtyWorld := do
  let x ← ttyOpenInternal uart (TtyWorld.fresh ports) TTY_MIN
  if x.1 ≠ 0 then .error (.panic "could not switch terminals") else .ok x.2

end Open

/-! ## What opening and closing a driver does -/

/-- `i` is the number of a terminal or of a serial port, and `w` holds its tty at that number. -/
structure IsTty (w : TtyWorld) (i : Nat) : Prop where
  pos : 1 ≤ i
  lt : i < NR_TTY
  device : (w.ttys i).device = mkdev TTY_MAJOR i

def driverOf (i : Nat) : DriverName := if i ≤ TTY_MAX then .terminal else .serial

/-- The driver of tty `i` is attached to it: the terminal points to the tty, or the port is open and
points to it. -/
def DriverAttached (w : TtyWorld) (i : Nat) : Prop :=
  if i ≤ TTY_MAX then w.terms i = some i
  else ∃ j : Fin NR_SERIAL, i = TTYS_MIN + j ∧ (w.ports j).com.isOpen = true ∧
    (w.ports j).com.tty = some i

instance decidableDriverAttached (w : TtyWorld) (i : Nat) : Decidable (DriverAttached w i) :=
  inferInstanceAs (Decidable (if i ≤ TTY_MAX then w.terms i = some i
    else ∃ j : Fin NR_SERIAL, i = TTYS_MIN + j ∧ (w.ports j).com.isOpen = true ∧
      (w.ports j).com.tty = some i))

/-- From `w` to `w'` nothing has changed but tty `i` and what its driver keeps for it. -/
structure OnlyTty (i : Nat) (w w' : TtyWorld) : Prop where
  ttys : ∀ k, k ≠ i → w'.ttys k = w.ttys k
  device : (w'.ttys i).device = (w.ttys i).device
  terms : ∀ k, k ≠ i → w'.terms k = w.terms k
  ports : ∀ j : Fin NR_SERIAL, i ≠ TTYS_MIN + j → w'.ports j = w.ports j

namespace OnlyTty
variable {i k : Nat} {w w' w'' : TtyWorld}

theorem refl (i : Nat) (w : TtyWorld) : OnlyTty i w w :=
  ⟨fun _ _ => rfl, rfl, fun _ _ => rfl, fun _ _ => rfl⟩

theorem trans (h : OnlyTty i w w') (h' : OnlyTty i w' w'') : OnlyTty i w w'' where
  ttys k hk := (h'.ttys k hk).trans (h.ttys k hk)
  device := h'.device.trans h.device
  terms k hk := (h'.terms k hk).trans (h.terms k hk)
  ports j hj := (h'.ports j hj).trans (h.ports j hj)

theorem setTty {tty : Tty} (h : tty.device = (w.ttys i).device) : OnlyTty i w (w.setTty i tty) where
  ttys _ hk := w.setTty_of_ne hk tty
  device := by rw [TtyWorld.setTty_self, h]
  terms _ _ := rfl
  ports _ _ := rfl

theorem setTerm (w : TtyWorld) (i : Nat) (t : Option Nat) : OnlyTty i w (w.setTerm i t) where
  ttys _ _ := rfl
  device := rfl
  terms _ hk := Function.update_of_ne hk ..
  ports _ _ := rfl

theorem setPort (w : TtyWorld) {j : Fin NR_SERIAL} (hi : i = TTYS_MIN + j) (p : Port) :
    OnlyTty i w (w.setPort j p) where
  ttys _ _ := rfl
  device := rfl
  terms _ _ := rfl
  ports k hk := Ports.set_of_ne _ (fun hkj => hk (by rw [hi, hkj])) p

theorem devices (h : OnlyTty i w w') (k : Nat) : (w'.ttys k).device = (w.ttys k).device := by
  by_cases hk : k = i
  · rw [hk, h.device]
  · rw [h.ttys k hk]

theorem isTty (h : OnlyTty i w w') (hk : IsTty w k) : IsTty w' k :=
  ⟨hk.pos, hk.lt, (h.devices k).trans hk.device⟩

/-- Other ttys keep their drivers. -/
theorem attached_iff (h : OnlyTty i w w') (hk : k ≠ i) :
    DriverAttached w' k ↔ DriverAttached w k := by
  unfold DriverAttached
  rw [h.terms k hk]
  refine ite_congr rfl (fun _ => rfl) (fun _ => ?_) |>.to_iff
  refine propext (exists_congr fun j => and_congr_right fun hj => ?_)
  rw [h.ports j fun hij => hk (hj.trans hij.symm)]

end OnlyTty

namespace IsTty
variable {i : Nat} {w w' : TtyWorld}

theorem getTty_eq (h : IsTty w i) : getTty (mkdev TTY_MAJOR i) = .ok i := by
  have hlt := h.lt
  have hpos := h.pos
  unfold getTty
  rw [devMaj_mkdev hlt, devMin_mkdev hlt, if_neg (by decide), if_neg (by omega)]

theorem ttyGetTerminal_eq (h : IsTty w i) (hi : i ≤ TTY_MAX) :
    ttyGetTerminal (w.ttys i) = .ok i := by
  have hpos := h.pos
  unfold ttyGetTerminal TTY_MIN
  rw [h.device, devMaj_mkdev h.lt, devMin_mkdev h.lt, if_neg (by decide), if_neg (by omega)]

theorem ttyGetCom_eq (h : IsTty w i) (hi : ¬ i ≤ TTY_MAX) :
    ∃ j : Fin NR_SERIAL, ttyGetCom (w.ttys i) = .ok j ∧ i = TTYS_MIN + j := by
  have hlt := h.lt
  have hmaj : devMaj (w.ttys i).device = TTY_MAJOR := by rw [h.device, devMaj_mkdev hlt]
  have hmin : devMin (w.ttys i).device = i := by rw [h.device, devMin_mkdev hlt]
  unfold NR_TTY NR_TERMINAL NR_SERIAL TTY_MAX NR_TERMINAL at *
  have hr : ¬ (devMin (w.ttys i).device < TTYS_MIN ∨ devMin (w.ttys i).device > TTYS_MAX) := by
    rw [hmin]
    unfold TTYS_MAX TTYS_MIN TTY_MAX NR_TERMINAL NR_SERIAL
    omega
  refine ⟨getCom (devMin (w.ttys i).device - TTYS_MIN + 1) (com_index_le rfl hr), ?_, ?_⟩
  · rw [ttyGetCom, if_neg (by simp [hmaj])]
    exact dif_neg hr
  show i = TTYS_MIN + (devMin (w.ttys i).device - TTYS_MIN + 1 - 1)
  rw [hmin]
  unfold TTYS_MIN TTY_MAX NR_TERMINAL
  omega

theorem findDriver_eq (h : IsTty w i) :
    ∃ d, findDriver (mkdev TTY_MAJOR i) = some d ∧ d.name = driverOf i := by
  have hall : ∀ k : Fin NR_TTY, 1 ≤ k.val →
      (findDriver (mkdev TTY_MAJOR k)).map DriverEntry.name = some (driverOf k) := by decide
  exact Option.map_eq_some_iff.mp (hall ⟨i, h.lt⟩ h.pos)

end IsTty

theorem serialOpen_attached {uart : Uart} {i : Nat} {p q : Port} {r : Int}
    (h : serialOpen uart i p = .ok (r, q)) :
    (r = 0 ∧ q.com.isOpen = true ∧ q.com.tty = some i) ∨ r < 0 := by
  unfold serialOpen at h
  simp only [] at h
  split_ifs at h
  · cases h
    exact Or.inr (by decide)
  · obtain ⟨_, h⟩ := assert_bind_ok.mp h
    cases h
    exact Or.inr (by decide)
  · cases h
    exact Or.inr (by decide)
  · cases h
    exact Or.inr (by decide)
  · cases h
    exact Or.inr (by decide)
  · cases h
    exact Or.inr (by decide)
  · cases h
    exact Or.inl ⟨rfl, rfl, rfl⟩

section Specs
variable {uart : Fin NR_SERIAL → Uart} {i : Nat} {w w' : TtyWorld}

/-- Opening the driver attaches it, or fails. -/
theorem callOpen_spec (h : IsTty w i) (hd : (w.ttys i).driver = some (driverOf i)) {r : Int}
    (hc : callOpen uart w i = .ok (r, w')) :
    OnlyTty i w w' ∧ w'.ttys = w.ttys ∧ ((r = 0 ∧ DriverAttached w' i) ∨ r < 0) := by
  unfold callOpen at hc
  rw [hd] at hc
  by_cases hi : i ≤ TTY_MAX
  · rw [driverOf, if_pos hi] at hc
    dsimp only at hc
    rw [terminalTtyOpen, h.ttyGetTerminal_eq hi] at hc
    dsimp only at hc
    split at hc
    · cases hc
      exact ⟨OnlyTty.refl .., rfl, Or.inr (by decide)⟩
    · cases hc
      refine ⟨OnlyTty.setTerm .., rfl, Or.inl ⟨rfl, ?_⟩⟩
      rw [DriverAttached, if_pos hi]
      exact Function.update_self ..
  · rw [driverOf, if_neg hi] at hc
    dsimp only at hc
    obtain ⟨j, hj, hij⟩ := h.ttyGetCom_eq hi
    rw [serialTtyOpen, hj] at hc
    obtain ⟨⟨r', q⟩, hq, hc⟩ := bind_ok.mp hc
    cases hc
    refine ⟨OnlyTty.setPort w hij q, rfl, ?_⟩
    obtain ⟨h0, hopen, htty⟩ | hneg := serialOpen_attached hq
    · refine Or.inl ⟨h0, ?_⟩
      rw [DriverAttached, if_neg hi]
      refine ⟨j, hij, ?_⟩
      show ((w.ports.set j q) j).com.isOpen = true ∧ ((w.ports.set j q) j).com.tty = some i
      rw [Ports.set_self]
      exact ⟨hopen, htty⟩
    · exact Or.inr hneg

/-- Closing the driver always succeeds and detaches it. -/
theorem callClose_spec (h : IsTty w i) (hd : (w.ttys i).driver = some (driverOf i)) :
    ∃ w', callClose w i = .ok (0, w') ∧ OnlyTty i w w' ∧ w'.ttys = w.ttys ∧
      ¬ DriverAttached w' i := by
  unfold callClose
  rw [hd]
  by_cases hi : i ≤ TTY_MAX
  · rw [driverOf, if_pos hi]
    dsimp only
    rw [terminalTtyClose, h.ttyGetTerminal_eq hi]
    refine ⟨_, rfl, OnlyTty.setTerm .., rfl, ?_⟩
    rw [DriverAttached, if_pos hi]
    show Function.update w.terms i none i ≠ some i
    rw [Function.update_self]
    exact fun hn => nomatch hn
  · rw [driverOf, if_neg hi]
    dsimp only
    obtain ⟨j, hj, hij⟩ := h.ttyGetCom_eq hi
    rw [serialTtyClose, hj]
    refine ⟨_, rfl, OnlyTty.setPort w hij _, rfl, ?_⟩
    rw [DriverAttached, if_neg hi]
    rintro ⟨k, hik, hopen, _⟩
    have hkj : k = j := Fin.ext (by omega)
    rw [hkj] at hopen
    change ((w.ports.set j _) j).com.isOpen = true at hopen
    rw [Ports.set_self] at hopen
    cases hopen

/-- The driver is copied into the tty and opened, and if it opens, the tty is marked open. -/
theorem attachDriver_cases (h : IsTty w i) {tty : Tty} {d : DriverEntry}
    (hdev : tty.device = (w.ttys i).device) (hname : d.name = driverOf i) {r : Int}
    (hc : attachDriver uart w i tty d = .ok (r, w')) :
    ∃ m, OnlyTty i w m ∧
      m.ttys i = { tty with driver := some d.name, line := devMin tty.device - d.minorStart } ∧
      ((r = 0 ∧ DriverAttached m i ∧ w' = m.setTty i { m.ttys i with
          isOpen := true, throttled := false, stopped := false, hwStopped := false }) ∨
        (r < 0 ∧ w' = m)) := by
  unfold attachDriver at hc
  obtain ⟨⟨r', m⟩, hm, hc⟩ := bind_ok.mp hc
  let tty' : Tty := { tty with driver := some d.name, line := devMin tty.device - d.minorStart }
  have hset : OnlyTty i w (w.setTty i tty') := OnlyTty.setTty hdev
  have htty : (w.setTty i tty').ttys i = tty' := TtyWorld.setTty_self ..
  obtain ⟨honly, httys, hret⟩ := callOpen_spec (hset.isTty h) (by rw [htty, ← hname]) hm
  refine ⟨m, hset.trans honly, by rw [httys, htty], ?_⟩
  obtain ⟨rfl, hatt⟩ | hneg := hret
  · simp only [ne_eq, not_true_eq_false, if_false] at hc
    cases hc
    exact Or.inl ⟨rfl, hatt, rfl⟩
  · have hne : r' ≠ 0 := by omega
    simp only [ne_eq, hne, not_false_eq_true, if_true] at hc
    cases hc
    exact Or.inr ⟨hneg, rfl⟩

theorem attachDriver_spec (h : IsTty w i) {tty : Tty} {d : DriverEntry}
    (hdev : tty.device = (w.ttys i).device) (hclosed : tty.isOpen = false)
    (hname : d.name = driverOf i) {r : Int} (hc : attachDriver uart w i tty d = .ok (r, w')) :
    OnlyTty i w w' ∧
      ((r = 0 ∧ (w'.ttys i).isOpen = true ∧ (w'.ttys i).driver = some (driverOf i) ∧
          DriverAttached w' i) ∨
        (r < 0 ∧ (w'.ttys i).isOpen = false)) := by
  obtain ⟨m, honly, hm, ⟨hr, hatt, rfl⟩ | ⟨hr, rfl⟩⟩ := attachDriver_cases h hdev hname hc
  · refine ⟨honly.trans (OnlyTty.setTty rfl), Or.inl ⟨hr, ?_, ?_, hatt⟩⟩
    · rw [TtyWorld.setTty_self]
    · rw [TtyWorld.setTty_self, hm, ← hname]
  · refine ⟨honly, Or.inr ⟨hr, ?_⟩⟩
    rw [hm]
    exact hclosed

/-- Opening a tty that is not open comes down to attaching the driver for its number. -/
theorem ttyOpenInternal_attach (h : IsTty w i) (hclosed : (w.ttys i).isOpen = false)
    {x : Int × TtyWorld} (hc : ttyOpenInternal uart w i = .ok x) :
    ∃ tty d, attachDriver uart w i tty d = .ok x ∧ d.name = driverOf i ∧
      tty.device = (w.ttys i).device ∧ tty.isOpen = false ∧ tty.ldisc.isSome = true ∧
      tty.ldiscData.isSome = true := by
  unfold ttyOpenInternal at hc
  rw [if_neg (by rw [hclosed]; decide)] at hc
  obtain ⟨d, hd, hname⟩ := h.findDriver_eq
  rw [← h.device] at hd
  simp only [nTtyOpen, Tty.setRing, hd, ne_eq, not_true_eq_false, if_false] at hc
  exact ⟨_, d, hc, hname, rfl, hclosed, rfl, rfl⟩

/-- A tty that is not open is opened with its driver, or stays closed. -/
theorem ttyOpenInternal_spec (h : IsTty w i) (hclosed : (w.ttys i).isOpen = false) {r : Int}
    (hc : ttyOpenInternal uart w i = .ok (r, w')) :
    OnlyTty i w w' ∧
      ((r = 0 ∧ (w'.ttys i).isOpen = true ∧ (w'.ttys i).driver = some (driverOf i) ∧
          DriverAttached w' i) ∨
        (r < 0 ∧ (w'.ttys i).isOpen = false)) := by
  obtain ⟨tty, d, hattach, hname, hdev, hopen, -, -⟩ := ttyOpenInternal_attach h hclosed hc
  exact attachDriver_spec h hdev hopen hname hattach

end Specs

end Ohwes

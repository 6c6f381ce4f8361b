import Ohwes.Char.Serial

/-! # The modem-line statistics

`check_modem_status` reads the modem status and counts line changes. Each value read says which of
the lines changed and which are high; the counters of CTS, DSR and DCD go by the lines that are high
when anything at all changed, only the one of the ring indicator goes by its own change.
`modem_statistics_iff` says for which values read that is the same. -/

namespace Ohwes
set_option autoImplicit false

def UART_MSR_DCTS : Byte := 0x01
def UART_MSR_DDSR : Byte := 0x02
def UART_MSR_DDCD : Byte := 0x08

/-! ## Counters of 32 bits -/

/-- The counter `n` after the values `vs`, of which those that meet `f` are counted. -/
def countUp (f : Byte → Bool) (n : BitVec 32) (vs : List Byte) : BitVec 32 :=
  vs.foldl (fun n v => if f v then n + 1 else n) n

theorem countUp_cons (f : Byte → Bool) (n : BitVec 32) (v : Byte) (vs : List Byte) :
    countUp f n (v :: vs) = countUp f (if f v then n + 1 else n) vs := rfl

theorem countUp_toNat (f : Byte → Bool) (n : BitVec 32) (vs : List Byte) :
    (countUp f n vs).toNat = (n.toNat + vs.countP f) % 2 ^ 32 := by
  induction vs generalizing n with
  | nil =>
    show n.toNat = (n.toNat + 0) % 2 ^ 32
    rw [Nat.add_zero, Nat.mod_eq_of_lt n.isLt]
  | cons v vs ih =>
    rw [countUp_cons, ih, List.countP_cons]
    cases f v with
    | false => rfl
    | true =>
      show ((n + 1).toNat + vs.countP f) % 2 ^ 32 = (n.toNat + (vs.countP f + 1)) % 2 ^ 32
      have hsucc : (n + 1).toNat = (n.toNat + 1) % 2 ^ 32 := BitVec.toNat_add n 1
      rw [hsucc]
      omega

/-- One more value keeps a right count right only if it is counted as it should be. -/
theorem count_step {m k : Nat} {b c : Bool} (hm : m % 2 ^ 32 = k)
    (hs : (m + if b then 1 else 0) % 2 ^ 32 = k + if c then 1 else 0) : b = c := by
  cases b <;> cases c <;> simp at hs ⊢ <;> omega

/-- A counter is right after every first part of the values exactly if it counts the right values
and does not overflow. -/
theorem countUp_iff (f g : Byte → Bool) (n : BitVec 32) (vs : List Byte) :
    (∀ pre, pre <+: vs → (countUp f n pre).toNat = n.toNat + pre.countP g) ↔
      (∀ v ∈ vs, f v = g v) ∧ n.toNat + vs.countP g < 2 ^ 32 := by
  constructor
  · intro h
    refine ⟨fun v hv => ?_, ?_⟩
    · obtain ⟨a, b, rfl⟩ := List.append_of_mem hv
      have ha := h a (List.prefix_append a (v :: b))
      have hav := h (a ++ [v]) ⟨b, by rw [List.append_assoc, List.singleton_append]⟩
      rw [countUp_toNat] at ha hav
      rw [List.countP_append, List.countP_append, List.countP_singleton, List.countP_singleton,
        ← Nat.add_assoc, ← Nat.add_assoc] at hav
      exact count_step ha hav
    · rw [← h vs (List.prefix_refl vs)]
      exact (countUp f n vs).isLt
  · rintro ⟨hfg, hlt⟩ pre hpre
    have hcount : pre.countP f = pre.countP g :=
      List.countP_congr fun v hv => by rw [hfg v (hpre.subset hv)]
    have hle : pre.countP g ≤ vs.countP g := hpre.sublist.countP_le
    rw [countUp_toNat, hcount, Nat.mod_eq_of_lt (by omega)]

/-! ## What a value read counts -/

/-- A line is counted when it is high and some line has changed. -/
def countsLine (line : Byte) (v : Byte) : Bool := hasBit v UART_MSR_ANY_DELTA && hasBit v line

/-- The four counters of line changes. -/
structure LineCounts where
  cts : BitVec 32
  dsr : BitVec 32
  ring : BitVec 32
  dcd : BitVec 32

def SerialStats.lines (st : SerialStats) : LineCounts := ⟨st.cts, st.dsr, st.ring, st.dcd⟩

def LineCounts.next (n : LineCounts) (v : Byte) : LineCounts where
  cts := if countsLine UART_MSR_CTS v then n.cts + 1 else n.cts
  dsr := if countsLine UART_MSR_DSR v then n.dsr + 1 else n.dsr
  ring := if countsLine UART_MSR_TERI v then n.ring + 1 else n.ring
  dcd := if countsLine UART_MSR_DCD v then n.dcd + 1 else n.dcd

/-- The trailing edge of the ring indicator is itself a change. -/
theorem countsLine_teri : ∀ v, countsLine UART_MSR_TERI v = hasBit v UART_MSR_TERI := by
  decide +kernel

theorem txEnable_stats (p : Port) : (txEnable p).com.stats = p.com.stats := by
  unfold txEnable
  split
  · rfl
  · rfl

theorem txDisable_stats (p : Port) : (txDisable p).com.stats = p.com.stats := by
  unfold txDisable
  split
  · rfl
  · rfl

theorem checkModemStatus_stats (uart : Uart) (tty : Tty) (p : Port) :
    (checkModemStatus uart tty p).2.com.stats = (readModemStatus uart p).com.stats := by
  unfold checkModemStatus
  dsimp only
  split_ifs
  · exact txDisable_stats _
  · rfl
  · exact txEnable_stats _
  · rfl
  · rfl

theorem readModemStatus_lines (v : Byte) (p : Port) :
    (readModemStatus (fun _ _ => v) p).com.stats.lines = p.com.stats.lines.next v := by
  have hreg : UART_MSR ≠ UART_RX := by decide
  have hread : comIn (fun _ _ => v) p UART_MSR =
      (v, { com := p.com, io := .read UART_MSR v :: p.io }) := by
    simp only [comIn, if_neg hreg]
  unfold readModemStatus
  rw [hread]
  cases hd : hasBit v UART_MSR_ANY_DELTA with
  | false => simp [hd, SerialStats.lines, LineCounts.next, countsLine]
  | true => simp [hd, SerialStats.lines, LineCounts.next, countsLine, tally]

/-! ## A sequence of values -/

/-- The port after `check_modem_status` has read the values one after the other. Each comes with the
tty as it is at that moment. -/
def statusRun (p : Port) (reads : List (Tty × Byte)) : Port :=
  reads.foldl (fun p r => (checkModemStatus (fun _ _ => r.2) r.1 p).2) p

theorem statusRun_lines (p : Port) (reads : List (Tty × Byte)) :
    (statusRun p reads).com.stats.lines =
      (reads.map Prod.snd).foldl LineCounts.next p.com.stats.lines := by
  induction reads generalizing p with
  | nil => rfl
  | cons r reads ih =>
    have hnext : (checkModemStatus (fun _ _ => r.2) r.1 p).2.com.stats.lines =
        p.com.stats.lines.next r.2 := by
      rw [← readModemStatus_lines r.2 p]
      exact congrArg SerialStats.lines (checkModemStatus_stats _ r.1 p)
    show (statusRun (checkModemStatus (fun _ _ => r.2) r.1 p).2 reads).com.stats.lines =
      (reads.map Prod.snd).foldl LineCounts.next (p.com.stats.lines.next r.2)
    rw [ih, hnext]

/-- Each line has a counter of its own. -/
theorem foldl_next (n : LineCounts) (vs : List Byte) :
    vs.foldl LineCounts.next n =
      { cts := countUp (countsLine UART_MSR_CTS) n.cts vs
        dsr := countUp (countsLine UART_MSR_DSR) n.dsr vs
        ring := countUp (countsLine UART_MSR_TERI) n.ring vs
        dcd := countUp (countsLine UART_MSR_DCD) n.dcd vs } := by
  induction vs generalizing n with
  | nil => rfl
  | cons v vs ih =>
    rw [List.foldl_cons, ih]
    rfl

/-- Since the counters were `n`, as many values have been read as they count whose own delta bit is
set. -/
structure LineCounts.CountChanges (n now : LineCounts) (vs : List Byte) : Prop where
  cts : now.cts.toNat = n.cts.toNat + vs.countP (hasBit · UART_MSR_DCTS)
  dsr : now.dsr.toNat = n.dsr.toNat + vs.countP (hasBit · UART_MSR_DDSR)
  ring : now.ring.toNat = n.ring.toNat + vs.countP (hasBit · UART_MSR_TERI)
  dcd : now.dcd.toNat = n.dcd.toNat + vs.countP (hasBit · UART_MSR_DDCD)

/-- In this value every line but the ring indicator is high, while some line has changed, exactly if
it has changed itself. -/
structure OwnChanges (v : Byte) : Prop where
  cts : (hasBit v UART_MSR_ANY_DELTA && hasBit v UART_MSR_CTS) = hasBit v UART_MSR_DCTS
  dsr : (hasBit v UART_MSR_ANY_DELTA && hasBit v UART_MSR_DSR) = hasBit v UART_MSR_DDSR
  dcd : (hasBit v UART_MSR_ANY_DELTA && hasBit v UART_MSR_DCD) = hasBit v UART_MSR_DDCD

/-- None of the counters gets to 2^32 with the changes in these values. -/
structure LineCounts.Fits (n : LineCounts) (vs : List Byte) : Prop where
  cts : n.cts.toNat + vs.countP (hasBit · UART_MSR_DCTS) < 2 ^ 32
  dsr : n.dsr.toNat + vs.countP (hasBit · UART_MSR_DDSR) < 2 ^ 32
  ring : n.ring.toNat + vs.countP (hasBit · UART_MSR_TERI) < 2 ^ 32
  dcd : n.dcd.toNat + vs.countP (hasBit · UART_MSR_DDCD) < 2 ^ 32

/-- A statement about the first parts of what was read is one about the first parts of the values. -/
theorem forall_prefix_map {P : List Byte → Prop} {reads : List (Tty × Byte)} :
    (∀ pre, pre <+: reads → P (pre.map Prod.snd)) ↔ ∀ pre, pre <+: reads.map Prod.snd → P pre := by
  constructor
  · intro h pre hpre
    obtain ⟨pre', hpre', rfl⟩ := List.prefix_map_iff.mp hpre
    exact h pre' hpre'
  · exact fun h pre hpre => h _ (hpre.map Prod.snd)

/-- At every moment of a run the counters are right exactly if every value read has only lines high
that have changed, unless none has changed, and no counter overflows. -/
theorem modem_statistics_iff (p : Port) (reads : List (Tty × Byte)) :
    (∀ pre, pre <+: reads → p.com.stats.lines.CountChanges
        (statusRun p pre).com.stats.lines (pre.map Prod.snd)) ↔
      (∀ r ∈ reads, OwnChanges r.2) ∧ p.com.stats.lines.Fits (reads.map Prod.snd) := by
  generalize hn : p.com.stats.lines = n
  have hrun : ∀ pre, (statusRun p pre).com.stats.lines = (pre.map Prod.snd).foldl LineCounts.next n :=
    fun pre => by rw [statusRun_lines, hn]
  have hown : (∀ r ∈ reads, OwnChanges r.2) ↔ ∀ v ∈ reads.map Prod.snd, OwnChanges v := by
    rw [List.forall_mem_map]
  simp only [hrun]
  rw [hown, forall_prefix_map (P := fun vs => n.CountChanges (vs.foldl LineCounts.next n) vs)]
  generalize reads.map Prod.snd = vs
  have hcts := countUp_iff (countsLine UART_MSR_CTS) (hasBit · UART_MSR_DCTS) n.cts vs
  have hdsr := countUp_iff (countsLine UART_MSR_DSR) (hasBit · UART_MSR_DDSR) n.dsr vs
  have hring := countUp_iff (countsLine UART_MSR_TERI) (hasBit · UART_MSR_TERI) n.ring vs
  have hdcd := countUp_iff (countsLine UART_MSR_DCD) (hasBit · UART_MSR_DDCD) n.dcd vs
  simp only [foldl_next]
  constructor
  · intro h
    obtain ⟨hc, hcfit⟩ := hcts.mp fun pre hpre => (h pre hpre).cts
    obtain ⟨hd, hdfit⟩ := hdsr.mp fun pre hpre => (h pre hpre).dsr
    obtain ⟨_, hrfit⟩ := hring.mp fun pre hpre => (h pre hpre).ring
    obtain ⟨hdc, hdcfit⟩ := hdcd.mp fun pre hpre => (h pre hpre).dcd
    exact ⟨fun v hv => ⟨hc v hv, hd v hv, hdc v hv⟩, ⟨hcfit, hdfit, hrfit, hdcfit⟩⟩
  · rintro ⟨hchange, hfit⟩ pre hpre
    exact
      { cts := hcts.mpr ⟨fun v hv => (hchange v hv).cts, hfit.cts⟩ pre hpre
        dsr := hdsr.mpr ⟨fun v hv => (hchange v hv).dsr, hfit.dsr⟩ pre hpre
        ring := hring.mpr ⟨fun v _ => countsLine_teri v, hfit.ring⟩ pre hpre
        dcd := hdcd.mpr ⟨fun v hv => (hchange v hv).dcd, hfit.dcd⟩ pre hpre }

/-- The change of DSR while CTS is high counts as a change of CTS. -/
theorem modem_statistics_mixed :
    ¬ (probedPort 1).com.stats.lines.CountChanges
      (statusRun (probedPort 1) [(openedTty, UART_MSR_DDSR ||| UART_MSR_CTS)]).com.stats.lines
      [UART_MSR_DDSR ||| UART_MSR_CTS] := by
  intro h
  have hcts := h.cts
  revert hcts
  decide

end Ohwes

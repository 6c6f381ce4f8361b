import Mathlib.Data.List.Nodup
import Ohwes.Kernel.Console

/-! # What the consoles are given

Each console is given, once and in order, what the log held when it was registered and every
character logged after that (`console_delivery`). -/

namespace Ohwes
open Library
set_option autoImplicit false

/-! ## The log -/

def KernelLog.contents (log : KernelLog) : CString :=
  window KERNEL_LOG_SIZE log.chars log.start log.size

/-- The log keeps the end of the text. -/
structure KernelLog.Keeps (log : KernelLog) (text : CString) : Prop where
  contents : log.contents = text.rtake KERNEL_LOG_SIZE
  start_lt : log.start < KERNEL_LOG_SIZE
  start_zero : log.size < KERNEL_LOG_SIZE → log.start = 0

def KernelLog.putAll (log : KernelLog) (text : CString) : KernelLog := text.foldl KernelLog.put log

section Log
variable {log : KernelLog} {text : CString}

theorem KernelLog.Keeps.size (h : log.Keeps text) : log.size = min KERNEL_LOG_SIZE text.length := by
  have hlen := congrArg List.length h.contents
  rwa [KernelLog.contents, window_length, length_rtake] at hlen

theorem KernelLog.Keeps.put (h : log.Keeps text) (c : Byte) : (log.put c).Keeps (text ++ [c]) := by
  have hsize := h.size
  have hpos : 0 < KERNEL_LOG_SIZE := by decide
  rw [KernelLog.put]
  split
  · rename_i hroom
    have hshort : text.length < KERNEL_LOG_SIZE := by omega
    have hkeep := h.contents
    rw [rtake_of_length_le (Nat.le_of_lt hshort)] at hkeep
    refine ⟨?_, h.start_lt, fun _ => h.start_zero hroom⟩
    rw [rtake_of_length_le (by rw [List.length_append]; exact hshort), ← hkeep]
    exact window_pushBack log.chars c hroom
  · rename_i hfull
    have hall : log.size = KERNEL_LOG_SIZE := by omega
    have hkeep := h.contents
    rw [KernelLog.contents, hall] at hkeep
    refine ⟨?_, Nat.mod_lt _ hpos, fun hlt => absurd hlt hfull⟩
    rw [rtake_concat_tail hpos (by omega), ← hkeep, KernelLog.contents]
    dsimp only
    rw [hall]
    exact window_pushRolling log.chars c hpos

theorem KernelLog.Keeps.putAll (h : log.Keeps text) (more : CString) :
    (log.putAll more).Keeps (text ++ more) := by
  induction more generalizing log text with
  | nil => simpa [KernelLog.putAll] using h
  | cons c more ih => simpa [KernelLog.putAll] using ih (h.put c)

/-- The stretches of the log that a late console is given. -/
theorem replayed (h : log.Keeps text) :
    (if log.size < KERNEL_LOG_SIZE then slice log.chars log.start log.size
      else slice log.chars log.start (KERNEL_LOG_SIZE - log.start) ++ slice log.chars 0 log.start) =
      text.rtake KERNEL_LOG_SIZE := by
  have hsize := h.size
  rw [← h.contents, KernelLog.contents]
  split
  · rename_i hroom
    rw [h.start_zero hroom, window_start _ (Nat.le_of_lt hroom)]
  · rename_i hfull
    have hall : log.size = KERNEL_LOG_SIZE := by omega
    rw [hall, window_eq_slices _ (Nat.le_of_lt h.start_lt)]

end Log

/-! ## What is given -/

section Given
variable {methods : Ptr → ConsoleMethods} {s s' s'' : ConsoleState}

theorem given_write (s : ConsoleState) (c cons : Ptr) (text : CString) :
    (s.write c text).given cons = s.given cons ++ if c = cons then text else [] := by
  by_cases h : c = cons
  · simp [ConsoleState.given, ConsoleState.write, h]
  · simp [ConsoleState.given, ConsoleState.write, h]

/-- The text has been logged and given to every console that can write. -/
structure Gives (methods : Ptr → ConsoleMethods) (s : ConsoleState) (text : CString)
    (s' : ConsoleState) : Prop where
  log : s'.log = s.log.putAll text
  consoles : s'.consoles = s.consoles
  given : ∀ c, s'.given c =
    s.given c ++ if c ∈ s.consoles ∧ (methods c).write = true then text else []

theorem Gives.nil (s : ConsoleState) : Gives methods s [] s := ⟨rfl, rfl, fun c => by simp⟩

theorem Gives.append {text more : CString} (h : Gives methods s text s')
    (h' : Gives methods s' more s'') : Gives methods s (text ++ more) s'' where
  log := by rw [h'.log, h.log, KernelLog.putAll, KernelLog.putAll, KernelLog.putAll, List.foldl_append]
  consoles := h'.consoles.trans h.consoles
  given c := by
    rw [h'.given, h.given, h.consoles, List.append_assoc]
    split <;> simp

/-- The loop over the consoles, of which none stands twice in the list. -/
theorem writeLoop_spec (methods : Ptr → ConsoleMethods) (line : CString) (cs : List Ptr)
    (hnd : cs.Nodup) (s : ConsoleState) :
    let s' := cs.foldl (fun s cons => if (methods cons).write then s.write cons line else s) s
    s'.log = s.log ∧ s'.consoles = s.consoles ∧
      ∀ c, s'.given c = s.given c ++ if c ∈ cs ∧ (methods c).write = true then line else [] := by
  induction cs generalizing s with
  | nil => exact ⟨rfl, rfl, fun c => by simp⟩
  | cons d cs ih =>
    obtain ⟨hd, hnd⟩ := List.nodup_cons.mp hnd
    obtain ⟨hlog, hcons, hgiven⟩ := ih hnd (if (methods d).write then s.write d line else s)
    refine ⟨hlog.trans ?_, hcons.trans ?_, fun c => (hgiven c).trans ?_⟩
    · split <;> rfl
    · split <;> rfl
    · by_cases hw : (methods d).write = true
      · rw [if_pos hw, given_write]
        by_cases hc : d = c
        · subst hc
          simp [hd, hw]
        · have hc' : ¬ c = d := fun h => hc h.symm
          simp [hc, hc']
      · rw [if_neg hw]
        by_cases hc : c = d
        · subst hc
          simp [hd, hw]
        · simp [hc]

theorem writeLine_gives (methods : Ptr → ConsoleMethods) (line : CString) (hnd : s.consoles.Nodup) :
    Gives methods s line (writeLine methods line { s with log := s.log.putAll line }) := by
  obtain ⟨hlog, hcons, hgiven⟩ :=
    writeLoop_spec methods line s.consoles hnd { s with log := s.log.putAll line }
  exact ⟨hlog, hcons, hgiven⟩

end Given

/-! ## `console_write` -/

/-- The memory does not end too early. -/
def Readable (u : List Byte) (left : Nat) : Prop := u.length < left → 0 ∈ u

section Write
variable {u buf : List Byte} {left : Nat}

@[simp] theorem loggable_nil (left : Nat) : loggable [] left = [] := by simp [loggable]

@[simp] theorem loggable_zero (u : List Byte) : loggable u 0 = [] := rfl

theorem loggable_nul (u : List Byte) (left : Nat) : loggable (0 :: u) left = [] := by
  cases left <;> simp [loggable]

theorem loggable_cons {c : Byte} (hc : c ≠ 0) (u : List Byte) (left : Nat) :
    loggable (c :: u) (left + 1) = c :: loggable u left := by
  have hne : (c != 0) = true := bne_iff_ne.mpr hc
  rw [loggable, List.take_succ_cons, List.takeWhile_cons, if_pos hne, loggable]

theorem Readable.tail {c : Byte} (h : Readable (c :: u) (left + 1)) (hc : c ≠ 0) :
    Readable u left := fun hlt =>
  (List.mem_cons.mp (h (Nat.succ_lt_succ hlt))).resolve_left hc.symm

theorem Readable.drop {n : Nat} (h : Readable u left) (hn : n ≤ (loggable u left).length) :
    Readable (u.drop n) (left - n) ∧ loggable (u.drop n) (left - n) = (loggable u left).drop n := by
  induction n generalizing u left with
  | zero => exact ⟨h, rfl⟩
  | succ n ih =>
    match u, left with
    | [], _ => simp at hn
    | _ :: _, 0 => simp at hn
    | c :: u, left + 1 =>
      by_cases hc : c = 0
      · rw [hc, loggable_nul] at hn
        exact absurd hn (by simp)
      · rw [loggable_cons hc] at hn ⊢
        rw [Nat.add_sub_add_right]
        exact ih (h.tail hc) (Nat.le_of_succ_le_succ hn)

theorem drop_eq_cons {p : Nat} {c : Byte} (h : buf[p]? = some c) :
    buf.drop p = c :: buf.drop (p + 1) := by
  obtain ⟨hp, hbuf⟩ := List.getElem?_eq_some_iff.mp h
  rw [List.drop_eq_getElem_cons hp, hbuf]

/-- There is a character where one is left. -/
theorem Readable.getElem? {p : Nat} (h : Readable (buf.drop p) left) (hpos : 0 < left) :
    ∃ c, buf[p]? = some c := by
  cases hget : buf[p]? with
  | some c => exact ⟨c, rfl⟩
  | none =>
    have hnil : buf.drop p = [] := List.drop_eq_nil_of_le (List.getElem?_eq_none_iff.mp hget)
    rw [hnil] at h
    exact absurd (h hpos) (by simp)

/-- The inner loop logs a first part of what is left, and stops at its last character or behind it. -/
theorem logLine_spec (log : KernelLog) {p : Nat} (h : Readable (buf.drop p) left) :
    ∃ k : Nat, ∃ linefeed : Bool,
      logLine buf left log p =
        .ok (log.putAll ((loggable (buf.drop p) left).take (k + linefeed.toNat)), p + k, linefeed) ∧
      k + linefeed.toNat ≤ (loggable (buf.drop p) left).length ∧
      (loggable (buf.drop p) left ≠ [] → 0 < k + linefeed.toNat) := by
  induction left generalizing log p with
  | zero => exact ⟨0, false, rfl, Nat.zero_le _, fun hne => absurd rfl hne⟩
  | succ left ih =>
    obtain ⟨c, hget⟩ := h.getElem? (Nat.succ_pos left)
    have hdrop := drop_eq_cons hget
    rw [logLine, hget, hdrop]
    dsimp only
    rw [hdrop] at h
    by_cases hc : c = 0
    · rw [if_pos hc, hc, loggable_nul]
      exact ⟨0, false, rfl, Nat.le_refl _, fun hne => absurd rfl hne⟩
    · rw [if_neg hc, loggable_cons hc]
      by_cases hlf : c = 0x0A
      · rw [if_pos hlf]
        exact ⟨0, true, rfl, by simp, fun _ => Nat.one_pos⟩
      · rw [if_neg hlf]
        obtain ⟨k, linefeed, hline, hle, -⟩ := ih (log.put c) (h.tail hc)
        refine ⟨k + 1, linefeed, ?_, ?_, fun _ => by omega⟩
        · rw [hline, show k + 1 + linefeed.toNat = k + linefeed.toNat + 1 by omega,
            show p + (k + 1) = p + 1 + k by omega]
          rfl
        · rw [List.length_cons]
          omega

theorem take_loggable {n : Nat} (h : n ≤ (loggable u left).length) : u.take n = (loggable u left).take n := by
  obtain ⟨v, hv⟩ := (List.takeWhile_prefix (· != 0)).trans (List.take_prefix left u)
  have hv' : loggable u left ++ v = u := hv
  have happend : (loggable u left ++ v).take n = (loggable u left).take n := List.take_append_of_le_length h
  rwa [hv'] at happend

theorem writeLines_spec {methods : Ptr → ConsoleMethods} {count passes p : Nat} {s : ConsoleState}
    (h : Readable (buf.drop p) (count - p)) (hnd : s.consoles.Nodup)
    (hpasses : (loggable (buf.drop p) (count - p)).length < passes) :
    ∃ s', writeLines methods buf count passes s p =
        .ok (s', p + (loggable (buf.drop p) (count - p)).length) ∧
      Gives methods s (loggable (buf.drop p) (count - p)) s' := by
  induction passes generalizing p s with
  | zero => omega
  | succ passes ih =>
    rw [writeLines]
    split
    · rename_i hlt
      obtain ⟨c, hget⟩ := h.getElem? (Nat.sub_pos_of_lt hlt)
      rw [hget]
      dsimp only
      by_cases hc : c = 0
      · rw [if_pos hc, drop_eq_cons hget, hc, loggable_nul]
        exact ⟨s, rfl, Gives.nil s⟩
      · rw [if_neg hc]
        have hsome : loggable (buf.drop p) (count - p) ≠ [] := by
          obtain ⟨left, hleft⟩ : ∃ left, count - p = left + 1 := ⟨count - p - 1, by omega⟩
          rw [drop_eq_cons hget, hleft, loggable_cons hc]
          exact List.cons_ne_nil _ _
        obtain ⟨k, linefeed, hline, hle, hpos⟩ := logLine_spec s.log h
        have hk : 0 < k + linefeed.toNat := hpos hsome
        obtain ⟨hrest, htaken⟩ := h.drop hle
        rw [List.drop_drop, Nat.sub_sub] at hrest htaken
        have hslice : (buf.drop p).take (p + k - p + linefeed.toNat) =
            (loggable (buf.drop p) (count - p)).take (k + linefeed.toNat) := by
          rw [Nat.add_sub_cancel_left, take_loggable hle]
        have hgives := writeLine_gives methods
          ((loggable (buf.drop p) (count - p)).take (k + linefeed.toNat)) hnd
        obtain ⟨s', hwrite, hall⟩ := ih hrest (hgives.consoles ▸ hnd) (by
          rw [htaken, List.length_drop]
          omega)
        have htogether := hgives.append hall
        rw [htaken, List.take_append_drop] at htogether
        rw [htaken, List.length_drop] at hwrite
        refine ⟨s', ?_, htogether⟩
        rw [hline, ok_bind]
        dsimp only
        rw [hslice, Nat.add_assoc, hwrite]
        congr 2
        omega
    · rename_i hend
      rw [show count - p = 0 by omega, loggable_zero]
      exact ⟨s, rfl, Gives.nil s⟩

theorem consoleWrite_spec {methods : Ptr → ConsoleMethods} {vtConsole : Ptr} {count : Nat}
    {s s' : ConsoleState} (h : Readable buf (min count KPRINT_MAX))
    (hensure : ensureConsole methods vtConsole s = .ok s') (hnd : s'.consoles.Nodup) :
    ∃ s'', consoleWrite methods vtConsole buf count s =
        .ok (s'', (loggable buf (min count KPRINT_MAX)).length) ∧
      Gives methods s' (loggable buf (min count KPRINT_MAX)) s'' := by
  have hlen : (loggable buf (min count KPRINT_MAX)).length < min count KPRINT_MAX + 1 :=
    Nat.lt_succ_of_le ((List.takeWhile_prefix _).length_le.trans (List.length_take_le _ _))
  obtain ⟨s'', hwrite, hgives⟩ := writeLines_spec (p := 0) h hnd hlen
  rw [Nat.zero_add] at hwrite
  refine ⟨s'', ?_, hgives⟩
  rw [consoleWrite, hensure, ok_bind]
  exact hwrite

end Write

/-! ## `register_console` -/

section Register
variable {methods : Ptr → ConsoleMethods} {s s' : ConsoleState} {text : CString}

theorem replayLog_spec (methods : Ptr → ConsoleMethods) (hkeeps : s.log.Keeps text) (cons : Ptr) :
    (replayLog methods cons s).log = s.log ∧ (replayLog methods cons s).consoles = s.consoles ∧
      ∀ c, (replayLog methods cons s).given c = s.given c ++
        if c = cons ∧ (methods cons).write = true then text.rtake KERNEL_LOG_SIZE else [] := by
  have hreplayed := replayed hkeeps
  by_cases hw : (methods cons).write = true
  · rw [replayLog, if_neg (by simp [hw])]
    split
    · rename_i hroom
      rw [if_pos hroom] at hreplayed
      refine ⟨rfl, rfl, fun c => ?_⟩
      rw [given_write, hreplayed]
      simp [hw, eq_comm]
    · rename_i hfull
      rw [if_neg hfull] at hreplayed
      refine ⟨rfl, rfl, fun c => ?_⟩
      rw [given_write, given_write, ← hreplayed]
      by_cases hc : cons = c
      · subst hc
        simp [hw]
      · simp [hc, Ne.symm hc]
  · rw [replayLog, if_pos (by simp [hw])]
    exact ⟨rfl, rfl, fun c => by simp [hw]⟩

theorem registerConsole_spec {cons : Ptr} (hkeeps : s.log.Keeps text)
    (h : registerConsole methods cons s = .ok s') :
    s'.log = s.log ∧
    (s'.consoles = if cons ∈ s.consoles then s.consoles else s.consoles ++ [cons]) ∧
    ∀ c, s'.given c = s.given c ++
      if cons ∉ s.consoles ∧ c = cons ∧ (methods cons).write = true then text.rtake KERNEL_LOG_SIZE
      else [] := by
  obtain ⟨-, h⟩ := assert_bind_ok.mp h
  by_cases hin : cons ∈ s.consoles
  · rw [if_pos hin] at h
    cases h
    exact ⟨rfl, by rw [if_pos hin], fun c => by simp [hin]⟩
  · rw [if_neg hin] at h
    obtain ⟨-, -, h⟩ := bind_ok.mp h
    cases h
    have hlinked : ({ s with consoles := s.consoles ++ [cons] } : ConsoleState).log.Keeps text := hkeeps
    obtain ⟨hlog, hcons, hgiven⟩ := replayLog_spec methods hlinked cons
    refine ⟨hlog, by rw [hcons, if_neg hin], fun c => ?_⟩
    rw [hgiven]
    simp [hin, ConsoleState.given]

end Register

/-! ## Runs -/

/-- `text` is what was logged so far. -/
structure ConsoleInv (s : ConsoleState) (text : CString) : Prop where
  keeps : s.log.Keeps text
  nodup : s.consoles.Nodup
  given : ∀ c, c ∉ s.consoles → s.given c = []

theorem consoleInv_boot : ConsoleInv bootConsoles [] where
  keeps := ⟨rfl, by decide, fun _ => rfl⟩
  nodup := List.nodup_nil
  given := fun _ _ => rfl

section Steps
variable {methods : Ptr → ConsoleMethods} {vtConsole : Ptr} {s s' : ConsoleState} {text : CString}

/-- What an operation that logs `more` does for the consoles: those of before are given it, and a new
one the log of before as well. -/
structure Delivers (methods : Ptr → ConsoleMethods) (s : ConsoleState) (text more : CString)
    (s' : ConsoleState) : Prop where
  inv : ConsoleInv s' (text ++ more)
  stays : ∀ c ∈ s.consoles, c ∈ s'.consoles
  old : ∀ c ∈ s.consoles, (methods c).write = true → s'.given c = s.given c ++ more
  new : ∀ c ∈ s'.consoles, c ∉ s.consoles → (methods c).write = true →
    s'.given c = text.rtake KERNEL_LOG_SIZE ++ more

theorem delivers_nil (h : ConsoleInv s text) : Delivers methods s text [] s where
  inv := by rwa [List.append_nil]
  stays := fun _ hc => hc
  old := fun c _ _ => (List.append_nil _).symm
  new := fun c hc hnot => absurd hc hnot

theorem registerConsole_delivers {cons : Ptr} (hinv : ConsoleInv s text)
    (h : registerConsole methods cons s = .ok s') : Delivers methods s text [] s' := by
  obtain ⟨hlog, hcons, hgiven⟩ := registerConsole_spec hinv.keeps h
  by_cases hin : cons ∈ s.consoles
  · rw [if_pos hin] at hcons
    have hsame : ∀ c, s'.given c = s.given c := fun c => by rw [hgiven]; simp [hin]
    refine ⟨⟨?_, ?_, fun c hc => ?_⟩, fun c hc => ?_, fun c _ _ => ?_, fun c hc hnot => ?_⟩
    · rw [hlog, List.append_nil]
      exact hinv.keeps
    · rw [hcons]
      exact hinv.nodup
    · rw [hsame]
      exact hinv.given c (hcons ▸ hc)
    · rwa [hcons]
    · rw [hsame, List.append_nil]
    · exact absurd (hcons ▸ hc) hnot
  · rw [if_neg hin] at hcons
    refine ⟨⟨?_, ?_, fun c hc => ?_⟩, fun c hc => ?_, fun c hc _ => ?_, fun c hc hnot hw => ?_⟩
    · rw [hlog, List.append_nil]
      exact hinv.keeps
    · rw [hcons, ← List.concat_eq_append]
      exact List.Nodup.concat hin hinv.nodup
    · rw [hcons, List.mem_append, List.mem_singleton, not_or] at hc
      rw [hgiven, if_neg (fun h => hc.2 h.2.1), hinv.given c hc.1, List.append_nil]
    · rw [hcons]
      exact List.mem_append_left _ hc
    · have hne : c ≠ cons := fun heq => hin (heq ▸ hc)
      rw [hgiven, if_neg (fun h => hne h.2.1)]
    · rw [hcons, List.mem_append, List.mem_singleton] at hc
      have hceq : c = cons := hc.resolve_left hnot
      rw [hgiven, hinv.given c hnot, if_pos ⟨hin, hceq, hceq ▸ hw⟩, List.nil_append, List.append_nil]

theorem Gives.delivers {s'' : ConsoleState} {more : CString} (h : Delivers methods s text [] s')
    (hgives : Gives methods s' more s'') : Delivers methods s text more s'' := by
  have hinv := h.inv
  rw [List.append_nil] at hinv
  refine ⟨⟨?_, ?_, fun c hc => ?_⟩, fun c hc => ?_, fun c hc hw => ?_, fun c hc hnot hw => ?_⟩
  · rw [hgives.log]
    exact hinv.keeps.putAll more
  · rw [hgives.consoles]
    exact hinv.nodup
  · rw [hgives.consoles] at hc
    rw [hgives.given, hinv.given c hc, if_neg (fun h => hc h.1), List.append_nil]
  · rw [hgives.consoles]
    exact h.stays c hc
  · rw [hgives.given, h.old c hc hw, if_pos ⟨h.stays c hc, hw⟩, List.append_nil]
  · rw [hgives.consoles] at hc
    rw [hgives.given, h.new c hc hnot hw, if_pos ⟨hc, hw⟩, List.append_nil]

theorem ensureConsole_delivers (hinv : ConsoleInv s text)
    (h : ensureConsole methods vtConsole s = .ok s') : Delivers methods s text [] s' := by
  rw [ensureConsole] at h
  split at h
  · exact registerConsole_delivers hinv h
  · cases h
    exact delivers_nil hinv

theorem consoleStep_delivers {op : ConsoleOp} (hinv : ConsoleInv s text)
    (h : consoleStep methods vtConsole s op = .ok s') : Delivers methods s text op.logged s' := by
  cases op with
  | register cons => exact registerConsole_delivers hinv h
  | write msg =>
    cases hensure : ensureConsole methods vtConsole s with
    | error e =>
      rw [consoleStep, consoleWrite, hensure] at h
      cases h
    | ok s1 =>
      have hearly := ensureConsole_delivers hinv hensure
      obtain ⟨s2, hwrite, hgives⟩ := consoleWrite_spec msg.readable hensure hearly.inv.nodup
      rw [consoleStep, hwrite] at h
      cases h
      exact hgives.delivers hearly

end Steps

/-- The console was registered at one of the operations, and has been given the end of what was
logged before and everything since. -/
def Delivered (methods : Ptr → ConsoleMethods) (vtConsole : Ptr) (ops : List ConsoleOp)
    (s : ConsoleState) (c : Ptr) : Prop :=
  ∃ pre op post, ∃ before after : ConsoleState, ops = pre ++ op :: post ∧
    run (consoleStep methods vtConsole) bootConsoles pre = .ok before ∧ c ∉ before.consoles ∧
    consoleStep methods vtConsole before op = .ok after ∧ c ∈ after.consoles ∧
    s.given c = (loggedBy pre).rtake KERNEL_LOG_SIZE ++ loggedBy (op :: post)

section Runs
variable (methods : Ptr → ConsoleMethods) (vtConsole : Ptr)

theorem loggedBy_concat (ops : List ConsoleOp) (op : ConsoleOp) :
    loggedBy (ops ++ [op]) = loggedBy ops ++ op.logged := by
  simp [loggedBy]

/-- The last operation of a run. -/
theorem consoleRun_concat {ops : List ConsoleOp} {op : ConsoleOp} {s : ConsoleState}
    (h : run (consoleStep methods vtConsole) bootConsoles (ops ++ [op]) = .ok s) :
    ∃ t, run (consoleStep methods vtConsole) bootConsoles ops = .ok t ∧
      consoleStep methods vtConsole t op = .ok s := by
  obtain ⟨t, ht, hlast⟩ := (run_append_ok _).mp h
  obtain ⟨u, hu, hend⟩ := (run_cons_ok _).mp hlast
  cases hend
  exact ⟨t, ht, hu⟩

theorem consoleRun_inv {ops : List ConsoleOp} {s : ConsoleState}
    (h : run (consoleStep methods vtConsole) bootConsoles ops = .ok s) :
    ConsoleInv s (loggedBy ops) := by
  induction ops using List.reverseRecOn generalizing s with
  | nil =>
    cases h
    exact consoleInv_boot
  | append_singleton ops op ih =>
    obtain ⟨t, ht, hlast⟩ := consoleRun_concat methods vtConsole h
    rw [loggedBy_concat]
    exact (consoleStep_delivers (ih ht) hlast).inv

/-- A console that can write is given, in order and once, what the log kept of the characters before
its registration, and every character after it. -/
theorem console_delivery {ops : List ConsoleOp} {s : ConsoleState}
    (h : run (consoleStep methods vtConsole) bootConsoles ops = .ok s) {c : Ptr}
    (hc : c ∈ s.consoles) (hw : (methods c).write = true) :
    Delivered methods vtConsole ops s c := by
  induction ops using List.reverseRecOn generalizing s with
  | nil =>
    cases h
    exact absurd hc (List.not_mem_nil)
  | append_singleton ops op ih =>
    obtain ⟨t, ht, hlast⟩ := consoleRun_concat methods vtConsole h
    have hstep := consoleStep_delivers (consoleRun_inv methods vtConsole ht) hlast
    by_cases hold : c ∈ t.consoles
    · obtain ⟨pre, first, post, before, after, rfl, hpre, hnot, hfirst, hafter, hgiven⟩ := ih ht hold
      refine ⟨pre, first, post ++ [op], before, after, by simp, hpre, hnot, hfirst, hafter, ?_⟩
      rw [hstep.old c hold hw, hgiven, List.append_assoc, ← List.cons_append, loggedBy_concat]
    · refine ⟨ops, op, [], t, s, rfl, ht, hold, hlast, hc, ?_⟩
      rw [hstep.new c hc hold hw]
      simp [loggedBy]

end Runs

/-- `kprint("hi\n")` twice, with a console registered between. -/
def lateConsole : List ConsoleOp :=
  [.write ⟨[0x68, 0x69, 0x0A, 0], 3, by decide⟩, .register 2, .write ⟨[0x68, 0x69, 0x0A, 0], 3, by decide⟩]

def withWrite (write : Bool) : Ptr → ConsoleMethods := fun _ => ⟨none, write⟩

theorem console_delivery_late :
    ∃ s, run (consoleStep (withWrite true) 1) bootConsoles lateConsole = .ok s ∧
      Delivered (withWrite true) 1 lateConsole s 2 :=
  ⟨_, rfl, console_delivery (withWrite true) 1 rfl (by decide) rfl⟩

/-- A console without the method is registered, but is given nothing. -/
theorem mute_console_not_delivered :
    ∃ s, run (consoleStep (withWrite false) 1) bootConsoles lateConsole = .ok s ∧
      2 ∈ s.consoles ∧ ¬ Delivered (withWrite false) 1 lateConsole s 2 := by
  refine ⟨_, rfl, by decide, ?_⟩
  rintro ⟨pre, op, post, before, after, hops, -, -, -, -, hgiven⟩
  have hnone := List.append_eq_nil_iff.mp hgiven.symm
  have hpre : loggedBy pre = [] := by
    have hlen := congrArg List.length hnone.1
    rw [length_rtake, List.length_nil, KERNEL_LOG_SIZE] at hlen
    exact List.length_eq_zero_iff.mp (by omega)
  have hall : loggedBy lateConsole = loggedBy pre ++ loggedBy (op :: post) := by
    rw [hops, loggedBy, List.flatMap_append]
    rfl
  rw [hpre, hnone.2] at hall
  exact absurd hall (by decide)

end Ohwes

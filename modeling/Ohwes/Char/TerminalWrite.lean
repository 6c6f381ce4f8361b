import Mathlib.Data.Nat.Find
import Ohwes.Char.TerminalBounds

/-! # `terminal_write` and `terminal_print`

Both loops go on by what `terminal_putchar` returns. A call while the terminal is printing returns 0,
and the flag is that of a caller who cannot go on before the loop ends: with it set, a loop that has
a character to write makes no headway. A loop is taken test by test, and a call that has not returned
within the tests it is given is `diverges`. A buffer is the memory from its first character on. -/

namespace Ohwes
set_option autoImplicit false

section Loop
variable (curr : Nat) (more : Nat → Bool) (buf : Nat → Byte)

/-- The loop `while (more) p += terminal_putchar(term, *p)` with at most `tests` tests, from index
`p` on. -/
def putcharLoop : Nat → Nat → Vt → Call (Nat × Vt)
  | 0, _, _ => .error .diverges
  | tests + 1, p, s =>
    if more p then
      let x := terminalPutchar curr s (buf p)
      putcharLoop tests (p + x.1) x.2
    else .ok (p, s)

variable {curr more buf}

theorem putcharLoop_printing {s : Vt} (h : s.term.printing = true) {p : Nat} (hp : more p = true)
    (tests : Nat) : putcharLoop curr more buf tests p s = .error .diverges := by
  induction tests with
  | zero => rfl
  | succ tests ih =>
    have hput : terminalPutchar curr s (buf p) = (0, s) := by
      unfold terminalPutchar
      rw [if_pos h]
    unfold putcharLoop
    rw [if_pos hp, hput]
    exact ih

theorem putcharLoop_done {p : Nat} (hp : more p = false) (tests : Nat) (s : Vt) :
    putcharLoop curr more buf (tests + 1) p s = .ok (p, s) := by
  unfold putcharLoop
  rw [hp]
  rfl

/-- A terminal that is not printing takes one character after the other. -/
theorem putcharLoop_idle {p k : Nat} (hmore : ∀ i, p ≤ i → i < p + k → more i = true)
    (hdone : more (p + k) = false) {s : Vt} (h : s.term.printing = false) :
    putcharLoop curr more buf (k + 1) p s =
      .ok (p + k, (List.range' p k).foldl (fun s i => (terminalPutchar curr s (buf i)).2) s) := by
  induction k generalizing p s with
  | zero => exact putcharLoop_done hdone 0 s
  | succ k ih =>
    have hput : terminalPutchar curr s (buf p) =
        (1, (putchar curr (s.setPrinting true) (buf p)).setPrinting false) := by
      unfold terminalPutchar
      rw [h]
      rfl
    have hnext : p + (k + 1) = p + 1 + k := by omega
    have hmore' : ∀ i, p + 1 ≤ i → i < p + 1 + k → more i = true :=
      fun i hi hik => hmore i (by omega) (by omega)
    have hdone' : more (p + 1 + k) = false := by
      rw [← hnext]
      exact hdone
    have hidle : ((putchar curr (s.setPrinting true) (buf p)).setPrinting false).term.printing =
        false := rfl
    have hrest := ih hmore' hdone' hidle
    unfold putcharLoop
    rw [if_pos (hmore p (Nat.le_refl p) (by omega)), List.range'_succ, List.foldl_cons, hput, hnext]
    exact hrest

variable (curr more buf)

/-- With a last index, the loop of a terminal that is not printing ends. -/
theorem putcharLoop_ends {last : Nat} (hlast : ∀ i, more i = true → i < last) {s : Vt}
    (h : s.term.printing = false) :
    ∃ tests r, putcharLoop curr more buf tests 0 s = .ok r := by
  have hsome : ∃ k, more k = false := by
    refine ⟨last, ?_⟩
    cases hm : more last with
    | false => rfl
    | true => exact absurd (hlast last hm) (Nat.lt_irrefl last)
  have hfirst : ∀ i, 0 ≤ i → i < 0 + Nat.find hsome → more i = true := by
    intro i _ hi
    have hne := Nat.find_min hsome (m := i) (by omega)
    cases hm : more i with
    | false => exact absurd hm hne
    | true => rfl
  have hdone : more (0 + Nat.find hsome) = false := by
    rw [Nat.zero_add]
    exact Nat.find_spec hsome
  exact ⟨_, _, putcharLoop_idle hfirst hdone h⟩

/-- A loop ends exactly if the terminal is not printing or there is nothing to write. -/
theorem putcharLoop_ends_iff {last : Nat} (hlast : ∀ i, more i = true → i < last) (s : Vt) :
    (∃ tests r, putcharLoop curr more buf tests 0 s = .ok r) ↔
      s.term.printing = false ∨ more 0 = false := by
  constructor
  · rintro ⟨tests, r, hr⟩
    by_contra hnot
    rw [not_or, Bool.not_eq_false, Bool.not_eq_false] at hnot
    rw [putcharLoop_printing hnot.1 hnot.2] at hr
    nomatch hr
  · rintro (h | h)
    · exact putcharLoop_ends curr more buf hlast h
    · exact ⟨1, _, putcharLoop_done h 0 s⟩

end Loop

section Calls
variable (curr tests : Nat)

/-- `terminal_print`; `none` is a null pointer. -/
def terminalPrintMem (term : Option Vt) (buf : Option (Nat → Byte)) : Call (Int × Option Vt) :=
  match term, buf with
  | some s, some buf =>
    (putcharLoop curr (fun p => buf p ≠ 0 && decide (p < MAX_PRINTBUF)) buf tests 0 s).map
      fun x => ((x.1 : Int), some x.2)
  | _, _ => .ok (-EINVAL, term)

/-- `terminal_write`. It returns the count whatever the loop has written. -/
def terminalWriteMem (term : Option Vt) (buf : Option (Nat → Byte)) (count : BitVec 32) :
    Call (Int × Option Vt) :=
  match term, buf with
  | some s, some buf =>
    (putcharLoop curr (fun p => decide (p < count.toNat)) buf tests 0 s).map
      fun x => (count.toInt, some x.2)
  | _, _ => .ok (-EINVAL, term)

end Calls

theorem map_ends {α β : Type} {f : Nat → Call α} {g : α → β} :
    (∃ tests r, (f tests).map g = .ok r) ↔ ∃ tests r, f tests = .ok r := by
  constructor
  · rintro ⟨tests, r, hr⟩
    cases hf : f tests with
    | error e =>
      rw [hf] at hr
      nomatch hr
    | ok a => exact ⟨tests, a, hf⟩
  · rintro ⟨tests, r, hr⟩
    exact ⟨tests, g r, by rw [hr]; rfl⟩

/-- **Termination.** Each of the two returns exactly if a pointer is null, the terminal is not
printing, or there is nothing to write. -/
theorem terminal_write_returns_iff (curr : Nat) (term : Option Vt) (buf : Option (Nat → Byte))
    (count : BitVec 32) :
    ((∃ tests r, terminalWriteMem curr tests term buf count = .ok r) ↔
      ∀ s b, term = some s → buf = some b → s.term.printing = false ∨ count = 0) ∧
    ((∃ tests r, terminalPrintMem curr tests term buf = .ok r) ↔
      ∀ s b, term = some s → buf = some b → s.term.printing = false ∨ b 0 = 0) := by
  cases term with
  | none =>
    exact ⟨⟨fun _ _ _ h => (nomatch h), fun _ => ⟨0, _, rfl⟩⟩,
      ⟨fun _ _ _ h => (nomatch h), fun _ => ⟨0, _, rfl⟩⟩⟩
  | some s =>
    cases buf with
    | none =>
      exact ⟨⟨fun _ _ _ _ h => (nomatch h), fun _ => ⟨0, _, rfl⟩⟩,
        ⟨fun _ _ _ _ h => (nomatch h), fun _ => ⟨0, _, rfl⟩⟩⟩
    | some b =>
      have hwrite := putcharLoop_ends_iff curr (fun p => decide (p < count.toNat)) b
        (fun i hi => of_decide_eq_true hi) s
      have hprint := putcharLoop_ends_iff curr (fun p => b p ≠ 0 && decide (p < MAX_PRINTBUF)) b
        (fun i hi => of_decide_eq_true (Bool.and_eq_true_iff.mp hi).2) s
      have hcount : decide (0 < count.toNat) = false ↔ count = 0 := by
        rw [decide_eq_false_iff_not, Nat.not_lt, Nat.le_zero]
        exact ⟨fun h => BitVec.eq_of_toNat_eq h, fun h => congrArg BitVec.toNat h⟩
      have hempty : (decide (b 0 ≠ 0) && decide (0 < MAX_PRINTBUF)) = false ↔ b 0 = 0 := by
        have hroom : decide (0 < MAX_PRINTBUF) = true := rfl
        rw [hroom, Bool.and_true, decide_eq_false_iff_not, not_not]
      rw [hcount] at hwrite
      rw [hempty] at hprint
      refine ⟨map_ends.trans (hwrite.trans ?_), map_ends.trans (hprint.trans ?_)⟩
      · exact ⟨fun h _ _ hs _ => Option.some.inj hs ▸ h, fun h => h s b rfl rfl⟩
      · exact ⟨fun h _ _ hs hb => Option.some.inj hs ▸ Option.some.inj hb ▸ h,
          fun h => h s b rfl rfl⟩

/-- A terminal in the middle of printing. -/
def interruptedVt : Vt := (defaultVt textVga (zeroTerminal 1)).setPrinting true

/-- An interrupt handler that echoes a letter there does not come back. -/
theorem terminal_write_spins :
    ¬ ((∃ tests r, terminalWriteMem 1 tests (some interruptedVt) (some fun _ => 0x61) 1 = .ok r) ∧
      ∃ tests r, terminalPrintMem 1 tests (some interruptedVt) (some fun _ => 0x61) = .ok r) := by
  rintro ⟨⟨tests, r, hr⟩, -⟩
  unfold terminalWriteMem at hr
  dsimp only at hr
  rw [putcharLoop_printing rfl rfl] at hr
  nomatch hr

/-- A terminal that is not printing is written the whole buffer. -/
theorem terminalWriteMem_idle (curr : Nat) {s : Vt} (h : s.term.printing = false)
    (buf : Nat → Byte) (count : BitVec 32) :
    terminalWriteMem curr (count.toNat + 1) (some s) (some buf) count =
      .ok (count.toInt, some ((List.range count.toNat).foldl
        (fun s i => (terminalPutchar curr s (buf i)).2) s)) := by
  have hmore : ∀ i, 0 ≤ i → i < 0 + count.toNat → decide (i < count.toNat) = true :=
    fun i _ hi => decide_eq_true (by omega)
  have hdone : decide (0 + count.toNat < count.toNat) = false := decide_eq_false (by omega)
  show (putcharLoop curr (fun p => decide (p < count.toNat)) buf (count.toNat + 1) 0 s).map
    (fun x => (count.toInt, some x.2)) = _
  have hloop := @putcharLoop_idle curr (fun p => decide (p < count.toNat)) buf 0 count.toNat
    hmore hdone s h
  rw [hloop, List.range_eq_range']
  rfl

end Ohwes

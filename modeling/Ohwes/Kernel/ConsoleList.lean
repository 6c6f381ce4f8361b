import Mathlib.Data.Finset.Card
import Ohwes.Kernel.Console
import Ohwes.Library.LinkedList

/-! # The list of consoles in its pointers

`g_consoles` and the `next` of every console, as `register_console`, `unregister_console` and
`console_getc` read and write them. A walk along `next` that has made as many steps as there are
addresses is on a circle and does not end. -/

namespace Ohwes
open Library
set_option autoImplicit false

/-- `g_consoles`, and the `next` of the console at an address. -/
structure ConsoleLinks where
  consoles : Ptr
  next : Ptr → Ptr

/-- The functions of a console that a call goes through. -/
inductive ConsoleCall where
  | setup (cons : Ptr)
  | write (cons : Ptr)
  | getc (cons : Ptr)

def ADDRESSES : Nat := 2 ^ 32

namespace ConsoleLinks

def setNext (s : ConsoleLinks) (cons next : Ptr) : ConsoleLinks :=
  { s with next := Function.update s.next cons next }

/-- `cons->next`. -/
def loadNext (s : ConsoleLinks) (cons : Ptr) : Call Ptr :=
  if cons = 0 then .error .fault else .ok (s.next cons)

/-- The end of the list, behind `currcons`, unless `cons` is met on the way. -/
def walkToEnd (s : ConsoleLinks) (cons : Ptr) : Nat → Ptr → Call (Option Ptr)
  | 0, _ => .error .diverges
  | steps + 1, currcons => do
    let next ← s.loadNext currcons
    if next = 0 then .ok (some currcons)
    else if next = cons then .ok none
    else walkToEnd s cons steps next

/-- The loop of `unregister_console`. -/
def unlinkBehind (s : ConsoleLinks) (cons : Ptr) : Nat → Ptr → Call ConsoleLinks
  | 0, _ => .error .diverges
  | steps + 1, currcons => do
    let next ← s.loadNext currcons
    if next = 0 then .ok s
    else if next = cons then .ok (s.setNext currcons (s.next next))
    else unlinkBehind s cons steps next

section Calls
variable (methods : Ptr → ConsoleMethods) (hasGetc : Ptr → Bool)

/-- What a console that has just been linked is called for. -/
def introduce (cons : Ptr) : List ConsoleCall :=
  (if (methods cons).setup.isSome then [.setup cons] else []) ++
    if (methods cons).write then [.write cons] else []

def registerConsole (s : ConsoleLinks) (cons : Ptr) : Call (List ConsoleCall × ConsoleLinks) := do
  assert (cons != 0)
  if s.consoles = 0 then
    .ok (introduce methods cons, { s with consoles := cons }.setNext cons 0)
  else if cons = s.consoles then .ok ([], s)
  else do
    match ← s.walkToEnd cons ADDRESSES s.consoles with
    | none => .ok ([], s)
    | some last => .ok (introduce methods cons, (s.setNext last cons).setNext cons 0)

def unregisterConsole (s : ConsoleLinks) (cons : Ptr) : Call ConsoleLinks := do
  assert (cons != 0)
  if s.consoles = cons then
    .ok ({ s with consoles := s.next s.consoles }.setNext cons 0)
  else s.unlinkBehind cons ADDRESSES s.consoles

/-- The second half of the condition is read only where there is no console. -/
def consoleGetc (s : ConsoleLinks) : Call (List ConsoleCall) :=
  if s.consoles = 0 then .error .fault
  else if hasGetc s.consoles then .ok [.getc s.consoles]
  else .error .fault

end Calls

end ConsoleLinks

inductive ConsoleListOp where
  | registerConsole (cons : Ptr)
  | unregisterConsole (cons : Ptr)
  | consoleGetc

section Registry
variable (methods : Ptr → ConsoleMethods) (hasGetc : Ptr → Bool)

def consoleListStep (s : ConsoleLinks) : ConsoleListOp → Call ConsoleLinks
  | .registerConsole cons => (s.registerConsole methods cons).map (·.2)
  | .unregisterConsole cons => s.unregisterConsole cons
  | .consoleGetc => (s.consoleGetc hasGetc).map fun _ => s

local instance lawfulBEqPtr : LawfulBEq Ptr := inferInstance

/-- The consoles that are registered, in the order of registration. -/
def registeredAfter (l : List Ptr) : ConsoleListOp → List Ptr
  | .registerConsole cons => if cons ∈ l then l else l ++ [cons]
  | .unregisterConsole cons => l.erase cons
  | .consoleGetc => l

/-- The call finds a console where it needs one. -/
def FindsConsole (s : ConsoleLinks) : ConsoleListOp → Prop
  | .registerConsole _ => True
  | .unregisterConsole cons => cons = 0 ∨ s.consoles ≠ 0
  | .consoleGetc => s.consoles ≠ 0 ∧ hasGetc s.consoles = true

end Registry

/-! ## The loops -/

/-- A list of consoles has fewer cells than there are addresses. -/
theorem length_lt_addresses {l : List Ptr} (hnodup : l.Nodup) (hnull : 0 ∉ l) :
    l.length < ADDRESSES := by
  have hvalues : (l.map BitVec.toNat).Nodup := hnodup.map fun _ _ => BitVec.eq_of_toNat_eq
  have hsub : (l.map BitVec.toNat).toFinset ⊆ (Finset.range ADDRESSES).erase 0 := by
    intro n hn
    obtain ⟨x, hx, rfl⟩ := List.mem_map.mp (List.mem_toFinset.mp hn)
    rw [Finset.mem_erase, Finset.mem_range]
    refine ⟨fun h0 => hnull ?_, x.isLt⟩
    rwa [show x = 0 from BitVec.eq_of_toNat_eq h0] at hx
  have hcard := Finset.card_le_card hsub
  rw [List.toFinset_card_of_nodup hvalues, List.length_map,
    Finset.card_erase_of_mem (Finset.mem_range.mpr (by decide)), Finset.card_range] at hcard
  have hpos : 0 < ADDRESSES := by decide
  omega

section Loops
variable {s : ConsoleLinks} {cons currcons : Ptr}

theorem loadNext_ok (h : currcons ≠ 0) : s.loadNext currcons = .ok (s.next currcons) := if_neg h

theorem walkToEnd_eq {l : List Ptr} {n : Nat} (h : Linked s.next 0 currcons (currcons :: l))
    (hn : l.length < n) :
    s.walkToEnd cons n currcons =
      .ok (if cons ∈ l then none else (currcons :: l).getLast?) := by
  induction l generalizing currcons n with
  | nil =>
    obtain ⟨-, hc, ht⟩ := linked_cons.mp h
    obtain ⟨m, rfl⟩ : ∃ m, n = m + 1 := ⟨n - 1, by omega⟩
    rw [ConsoleLinks.walkToEnd, loadNext_ok hc, ok_bind, if_pos (ht.eq_nil_iff.mpr rfl)]
    rfl
  | cons x l ih =>
    obtain ⟨-, hc, ht⟩ := linked_cons.mp h
    obtain ⟨m, rfl⟩ : ∃ m, n = m + 1 := ⟨n - 1, by omega⟩
    obtain ⟨hx, hx0, -⟩ := linked_cons.mp ht
    rw [ConsoleLinks.walkToEnd, loadNext_ok hc, ok_bind, hx, if_neg hx0]
    by_cases he : x = cons
    · rw [if_pos he, if_pos (he ▸ List.mem_cons_self)]
    · rw [if_neg he, ih (hx ▸ ht) (by simpa using hn), List.getLast?_cons_cons]
      simp only [List.mem_cons, Ne.symm he, false_or]

theorem unlinkBehind_eq (cons : Ptr) {l : List Ptr} {n : Nat} (h : Linked s.next 0 currcons (currcons :: l))
    (hn : l.length < n) :
    (cons ∉ l → s.unlinkBehind cons n currcons = .ok s) ∧
      ∀ l₁ l₂, l = l₁ ++ cons :: l₂ → cons ∉ l₁ →
        s.unlinkBehind cons n currcons =
          .ok (s.setNext ((currcons :: l₁).getLast (List.cons_ne_nil _ _)) (s.next cons)) := by
  induction l generalizing currcons n with
  | nil =>
    obtain ⟨-, hc, ht⟩ := linked_cons.mp h
    obtain ⟨m, rfl⟩ : ∃ m, n = m + 1 := ⟨n - 1, by omega⟩
    refine ⟨fun _ => ?_, fun l₁ l₂ he => absurd he (by simp)⟩
    rw [ConsoleLinks.unlinkBehind, loadNext_ok hc, ok_bind, if_pos (ht.eq_nil_iff.mpr rfl)]
  | cons x l ih =>
    obtain ⟨-, hc, ht⟩ := linked_cons.mp h
    obtain ⟨m, rfl⟩ : ∃ m, n = m + 1 := ⟨n - 1, by omega⟩
    obtain ⟨hx, hx0, -⟩ := linked_cons.mp ht
    obtain ⟨hout, hin⟩ := ih (hx ▸ ht) (n := m) (by simpa using hn)
    rw [ConsoleLinks.unlinkBehind, loadNext_ok hc, ok_bind, hx, if_neg hx0]
    constructor
    · intro hmem
      rw [List.mem_cons, not_or] at hmem
      rw [if_neg (Ne.symm hmem.1)]
      exact hout hmem.2
    · rintro l₁ l₂ he hmem
      cases l₁ with
      | nil =>
        obtain ⟨rfl, -⟩ := List.cons.inj he
        rw [if_pos rfl]
        rfl
      | cons y l₁ =>
        obtain ⟨rfl, hrest⟩ := List.cons.inj he
        rw [List.mem_cons, not_or] at hmem
        rw [if_neg (Ne.symm hmem.1), hin l₁ l₂ hrest hmem.2]
        rfl

end Loops

/-! ## The calls -/

section Steps
variable {methods : Ptr → ConsoleMethods} {hasGetc : Ptr → Bool} {s t : ConsoleLinks} {cons : Ptr}
  {l : List Ptr}

theorem assert_console (h : cons ≠ 0) : assert (cons != 0) = .ok () := by
  rw [bne_iff_ne.mpr h]
  rfl

variable (methods) in
theorem registerConsole_linked (h : Linked s.next 0 s.consoles l) (hne : cons ≠ 0) :
    ∃ t, s.registerConsole methods cons =
        .ok (if cons ∈ l then [] else ConsoleLinks.introduce methods cons, t) ∧
      Linked t.next 0 t.consoles (if cons ∈ l then l else l ++ [cons]) := by
  rw [ConsoleLinks.registerConsole, assert_console hne, ok_bind]
  cases l with
  | nil =>
    rw [if_pos (h.eq_nil_iff.mpr rfl), if_neg List.not_mem_nil, if_neg List.not_mem_nil]
    exact ⟨_, rfl, linked_singleton hne⟩
  | cons x l =>
    obtain ⟨rfl, hx0, -⟩ := linked_cons.mp h
    have hlen : l.length < ADDRESSES := by
      have := length_lt_addresses h.nodup h.nil_notMem
      rw [List.length_cons] at this
      omega
    rw [if_neg hx0]
    by_cases he : cons = s.consoles
    · rw [if_pos he, if_pos (he ▸ List.mem_cons_self), if_pos (he ▸ List.mem_cons_self)]
      exact ⟨s, rfl, h⟩
    rw [if_neg he, walkToEnd_eq h hlen]
    by_cases hmem : cons ∈ l
    · rw [if_pos hmem, if_pos (List.mem_cons_of_mem _ hmem), if_pos (List.mem_cons_of_mem _ hmem)]
      exact ⟨s, rfl, h⟩
    have hout : cons ∉ s.consoles :: l := by
      rw [List.mem_cons, not_or]
      exact ⟨he, hmem⟩
    rw [if_neg hmem, if_neg hout, if_neg hout]
    have hlast := List.getLast?_eq_some_getLast (List.cons_ne_nil s.consoles l)
    set last := (s.consoles :: l).getLast (List.cons_ne_nil s.consoles l)
    obtain ⟨front, hfront⟩ := List.getLast?_eq_some_iff.mp hlast
    rw [hlast, hfront]
    rw [hfront] at h hout
    exact ⟨_, rfl, h.append hout hne⟩

theorem unregisterConsole_empty (h : Linked s.next 0 s.consoles []) (hne : cons ≠ 0) :
    s.unregisterConsole cons = .error .fault := by
  have hnone : s.consoles = 0 := h.eq_nil_iff.mpr rfl
  rw [ConsoleLinks.unregisterConsole, assert_console hne, ok_bind, hnone, if_neg hne.symm,
    ADDRESSES, show 2 ^ 32 = (2 ^ 32 - 1) + 1 from rfl, ConsoleLinks.unlinkBehind,
    ConsoleLinks.loadNext, if_pos rfl]
  rfl

theorem unregisterConsole_linked (h : Linked s.next 0 s.consoles l) (hl : l ≠ []) (hne : cons ≠ 0) :
    ∃ t, s.unregisterConsole cons = .ok t ∧ Linked t.next 0 t.consoles (l.erase cons) := by
  rw [ConsoleLinks.unregisterConsole, assert_console hne, ok_bind]
  cases l with
  | nil => exact absurd rfl hl
  | cons x l =>
    obtain ⟨rfl, hx0, -⟩ := linked_cons.mp h
    by_cases he : s.consoles = cons
    · subst he
      rw [if_pos rfl, List.erase_cons_head]
      exact ⟨_, rfl, h.tail⟩
    have hlen : l.length < ADDRESSES := by
      have := length_lt_addresses h.nodup h.nil_notMem
      rw [List.length_cons] at this
      omega
    obtain ⟨hout, hin⟩ := unlinkBehind_eq cons h hlen
    rw [if_neg he]
    by_cases hmem : cons ∈ l
    · obtain ⟨l₁, l₂, rfl⟩ := List.mem_iff_append.mp hmem
      have hnodup := (List.nodup_cons.mp h.nodup).2
      have hfirst : cons ∉ l₁ := fun hm =>
        List.disjoint_of_nodup_append hnodup hm List.mem_cons_self
      rw [hin l₁ l₂ rfl hfirst, List.erase_cons_tail (by simpa using he),
        List.erase_append_right _ hfirst, List.erase_cons_head]
      have hsplit (rest : List Ptr) : s.consoles :: (l₁ ++ rest) = (s.consoles :: l₁).dropLast ++
          (s.consoles :: l₁).getLast (List.cons_ne_nil _ _) :: rest := by
        rw [List.append_cons, List.dropLast_append_getLast]
        rfl
      rw [hsplit] at h
      rw [hsplit]
      exact ⟨_, rfl, h.unlink⟩
    · rw [hout hmem, List.erase_of_not_mem]
      · exact ⟨s, rfl, h⟩
      · rw [List.mem_cons, not_or]
        exact ⟨Ne.symm he, hmem⟩

/-- The pointers follow the registration of `Ohwes.Kernel.Console`. -/
theorem registerConsole_refines {cs cs' : ConsoleState} (h : Linked s.next 0 s.consoles cs.consoles)
    (hreg : registerConsole methods cons cs = .ok cs') :
    ∃ calls t, s.registerConsole methods cons = .ok (calls, t) ∧
      Linked t.next 0 t.consoles cs'.consoles := by
  obtain ⟨hne, hreg⟩ := assert_bind_ok.mp hreg
  obtain ⟨t, ht, hlinked⟩ := registerConsole_linked methods h (bne_iff_ne.mp hne)
  refine ⟨_, t, ht, ?_⟩
  split at hreg
  · next hmem =>
    cases hreg
    rwa [if_pos hmem] at hlinked
  · next hmem =>
    obtain ⟨_, -, hreg⟩ := bind_ok.mp hreg
    cases hreg
    rw [if_neg hmem] at hlinked
    unfold replayLog
    split_ifs
    · exact hlinked
    · exact hlinked
    · exact hlinked

/-- A step that comes back keeps the list of what is registered. -/
theorem consoleListStep_linked {op : ConsoleListOp} (h : Linked s.next 0 s.consoles l)
    (hstep : consoleListStep methods hasGetc s op = .ok t) :
    Linked t.next 0 t.consoles (registeredAfter l op) := by
  cases op with
  | registerConsole cons =>
    by_cases hne : cons = 0
    · subst hne
      cases hstep
    · obtain ⟨u, hu, hlinked⟩ := registerConsole_linked methods h hne
      rw [consoleListStep, hu] at hstep
      cases hstep
      exact hlinked
  | unregisterConsole cons =>
    by_cases hne : cons = 0
    · subst hne
      cases hstep
    by_cases hl : l = []
    · subst hl
      rw [consoleListStep, unregisterConsole_empty h hne] at hstep
      cases hstep
    · obtain ⟨u, hu, hlinked⟩ := unregisterConsole_linked h hl hne
      rw [consoleListStep, hu] at hstep
      cases hstep
      exact hlinked
  | consoleGetc =>
    rw [consoleListStep, ConsoleLinks.consoleGetc] at hstep
    split_ifs at hstep
    · cases hstep
    · cases hstep
      exact h
    · cases hstep

/-- A step reads through `NULL` where it does not find a console. -/
theorem consoleListStep_fault_iff {op : ConsoleListOp} (h : Linked s.next 0 s.consoles l) :
    consoleListStep methods hasGetc s op ≠ .error .fault ↔ FindsConsole hasGetc s op := by
  cases op with
  | registerConsole cons =>
    refine iff_of_true ?_ trivial
    by_cases hne : cons = 0
    · subst hne
      exact nofun
    · obtain ⟨u, hu, -⟩ := registerConsole_linked methods h hne
      rw [consoleListStep, hu]
      exact nofun
  | unregisterConsole cons =>
    by_cases hne : cons = 0
    · subst hne
      exact iff_of_true nofun (Or.inl rfl)
    by_cases hl : l = []
    · subst hl
      rw [consoleListStep, unregisterConsole_empty h hne]
      refine iff_of_false (fun hn => hn rfl) ?_
      rintro (h0 | hsome)
      · exact hne h0
      · exact hsome (h.eq_nil_iff.mpr rfl)
    · obtain ⟨u, hu, -⟩ := unregisterConsole_linked h hl hne
      rw [consoleListStep, hu]
      exact iff_of_true nofun (Or.inr (h.eq_nil_iff.not.mpr hl))
  | consoleGetc =>
    rw [consoleListStep, ConsoleLinks.consoleGetc]
    split_ifs with hnone hgetc
    · exact iff_of_false (fun hn => hn rfl) fun hsome => hsome.1 hnone
    · exact iff_of_true nofun ⟨hnone, hgetc⟩
    · exact iff_of_false (fun hn => hn rfl) fun hsome => hgetc hsome.2

end Steps

/-! ## Runs -/

/-- No console is registered; the consoles themselves hold what they hold. -/
def bootLinks (next : Ptr → Ptr) : ConsoleLinks := ⟨0, next⟩

/-- The consoles that the operations leave registered. -/
def registered (ops : List ConsoleListOp) : List Ptr := ops.foldl registeredAfter []

/-- The same as a list at the pointers: it ends with `NULL` and has no console twice. -/
def ListsExactly (s : ConsoleLinks) (l : List Ptr) : Prop := Linked s.next 0 s.consoles l ∧ l.Nodup

section Runs
variable {methods : Ptr → ConsoleMethods} {hasGetc : Ptr → Bool}

theorem run_linked {ops : List ConsoleListOp} {s t : ConsoleLinks} {l : List Ptr}
    (h : Linked s.next 0 s.consoles l) (hrun : run (consoleListStep methods hasGetc) s ops = .ok t) :
    Linked t.next 0 t.consoles (ops.foldl registeredAfter l) := by
  induction ops generalizing s l with
  | nil =>
    cases hrun
    exact h
  | cons op ops ih =>
    obtain ⟨m, hm, hrest⟩ := (run_cons_ok _).mp hrun
    exact ih (consoleListStep_linked h hm) hrest

variable (methods hasGetc) in
/-- In a run from boot on, the list holds the registered consoles in the order of registration after
every call, and no call reads through `NULL`, if and only if every call that needs a console finds
one. -/
theorem console_list_iff (next : Ptr → Ptr) (ops : List ConsoleListOp) :
    ((∀ pre s, pre <+: ops → run (consoleListStep methods hasGetc) (bootLinks next) pre = .ok s →
        ListsExactly s (registered pre)) ∧
      Throughout (consoleListStep methods hasGetc)
        (fun s op => consoleListStep methods hasGetc s op ≠ .error .fault) (bootLinks next) ops) ↔
      Throughout (consoleListStep methods hasGetc) (FindsConsole hasGetc) (bootLinks next) ops := by
  have hiff (s : ConsoleLinks) (op : ConsoleListOp) (h : ∃ l, Linked s.next 0 s.consoles l) :
      consoleListStep methods hasGetc s op ≠ .error .fault ↔ FindsConsole hasGetc s op := by
    obtain ⟨l, hl⟩ := h
    exact consoleListStep_fault_iff hl
  have hstep (s : ConsoleLinks) (op : ConsoleListOp) (t : ConsoleLinks)
      (h : ∃ l, Linked s.next 0 s.consoles l) (_ : FindsConsole hasGetc s op)
      (ht : consoleListStep methods hasGetc s op = .ok t) : ∃ l, Linked t.next 0 t.consoles l := by
    obtain ⟨l, hl⟩ := h
    exact ⟨_, consoleListStep_linked hl ht⟩
  rw [throughout_iff hiff hstep ⟨[], linked_nil⟩]
  refine and_iff_right fun pre s _ hrun => ?_
  have hlinked : Linked s.next 0 s.consoles (registered pre) := run_linked linked_nil hrun
  exact ⟨hlinked, hlinked.nodup⟩

end Runs

/-- The two calls that go through `g_consoles` while it is `NULL`. -/
theorem no_console_is_read (methods : Ptr → ConsoleMethods) (hasGetc : Ptr → Bool)
    (next : Ptr → Ptr) (cons : Ptr) (hne : cons ≠ 0) :
    consoleListStep methods hasGetc (bootLinks next) (.unregisterConsole cons) = .error .fault ∧
      consoleListStep methods hasGetc (bootLinks next) .consoleGetc = .error .fault :=
  ⟨unregisterConsole_empty linked_nil hne, rfl⟩

/-- A console with all its functions is unregistered before any console is registered, and another
run asks for a character then. -/
theorem empty_list_is_read :
    ¬ Throughout (consoleListStep (fun _ => ⟨some (.ok ()), true⟩) fun _ => true)
        (fun s op => consoleListStep (fun _ => ⟨some (.ok ()), true⟩) (fun _ => true) s op ≠
          .error .fault) (bootLinks fun _ => 0) [.unregisterConsole 0x1000] ∧
      ¬ Throughout (consoleListStep (fun _ => ⟨some (.ok ()), true⟩) fun _ => true)
        (fun s op => consoleListStep (fun _ => ⟨some (.ok ()), true⟩) (fun _ => true) s op ≠
          .error .fault) (bootLinks fun _ => 0) [.consoleGetc] := by
  obtain ⟨hunregister, hgetc⟩ := no_console_is_read (fun _ => ⟨some (.ok ()), true⟩) (fun _ => true)
    (fun _ => 0) 0x1000 (by decide)
  exact ⟨fun h => h.1 hunregister, fun h => h.1 hgetc⟩

end Ohwes

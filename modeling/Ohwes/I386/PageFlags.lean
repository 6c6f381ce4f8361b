import Ohwes.I386.Paging
import Ohwes.Library.LastWrite
import Mathlib.Tactic.Common

/-! # `i386/paging.h`: the flags of page-table and page-directory entries

Below bit `PAGE_SHIFT` an entry holds flags, above it the number of the page frame. Every accessor
of a flag is one of three operations on a mask; `pte_mkpresent` and `pde_mkpresent` are not. -/

namespace Ohwes
set_option autoImplicit false

def PAGE_USER : BitVec 32 := 1 <<< 2
def PAGE_DIRTY : BitVec 32 := 1 <<< 6

/-- `e |= f`. -/
def raiseFlag (f e : BitVec 32) : BitVec 32 := e ||| f

/-- `e &= ~f`. -/
def lowerFlag (f e : BitVec 32) : BitVec 32 := e &&& ~~~f

/-- `(e & f) == f`. -/
def hasFlag (f e : BitVec 32) : Bool := e &&& f == f

/-! ## Page-directory entries -/

def pdeRead (pde : BitVec 32) : Bool := hasFlag PAGE_USER pde
def pdeExec (pde : BitVec 32) : Bool := hasFlag PAGE_USER pde
def pdeWrite (pde : BitVec 32) : Bool := hasFlag PAGE_RW pde
def pdeUser (pde : BitVec 32) : Bool := hasFlag PAGE_USER pde
def pdeDirty (pde : BitVec 32) : Bool := hasFlag PAGE_DIRTY pde

def pdeMkread (pde : BitVec 32) : BitVec 32 := raiseFlag PAGE_USER pde
def pdeMkexec (pde : BitVec 32) : BitVec 32 := raiseFlag PAGE_USER pde
def pdeMkwrite (pde : BitVec 32) : BitVec 32 := raiseFlag PAGE_RW pde
def pdeMkuser (pde : BitVec 32) : BitVec 32 := raiseFlag PAGE_USER pde
def pdeMkdirty (pde : BitVec 32) : BitVec 32 := raiseFlag PAGE_DIRTY pde
def pdeMkclean (pde : BitVec 32) : BitVec 32 := lowerFlag PAGE_DIRTY pde
def pdeMkpresent (pde : BitVec 32) : BitVec 32 := pde &&& PAGE_PRESENT
def pdeRdprotect (pde : BitVec 32) : BitVec 32 := lowerFlag PAGE_USER pde
def pdeExprotect (pde : BitVec 32) : BitVec 32 := lowerFlag PAGE_USER pde
def pdeWrprotect (pde : BitVec 32) : BitVec 32 := lowerFlag PAGE_RW pde

/-! ## Page-table entries -/

def pteRead (pte : BitVec 32) : Bool := hasFlag PAGE_USER pte
def pteExec (pte : BitVec 32) : Bool := hasFlag PAGE_USER pte
def pteWrite (pte : BitVec 32) : Bool := hasFlag PAGE_RW pte
def pteUser (pte : BitVec 32) : Bool := hasFlag PAGE_USER pte
def pteDirty (pte : BitVec 32) : Bool := hasFlag PAGE_DIRTY pte

def pteMkread (pte : BitVec 32) : BitVec 32 := raiseFlag PAGE_USER pte
def pteMkexec (pte : BitVec 32) : BitVec 32 := raiseFlag PAGE_USER pte
def pteMkwrite (pte : BitVec 32) : BitVec 32 := raiseFlag PAGE_RW pte
def pteMkuser (pte : BitVec 32) : BitVec 32 := raiseFlag PAGE_USER pte
def pteMkdirty (pte : BitVec 32) : BitVec 32 := raiseFlag PAGE_DIRTY pte
def pteMkclean (pte : BitVec 32) : BitVec 32 := lowerFlag PAGE_DIRTY pte
def pteMkpresent (pte : BitVec 32) : BitVec 32 := pte &&& PAGE_PRESENT
def pteRdprotect (pte : BitVec 32) : BitVec 32 := lowerFlag PAGE_USER pte
def pteExprotect (pte : BitVec 32) : BitVec 32 := lowerFlag PAGE_USER pte
def pteWrprotect (pte : BitVec 32) : BitVec 32 := lowerFlag PAGE_RW pte

/-! ## Operations and the flags they name -/

inductive EntryOp where
  | mkread | mkexec | mkwrite | mkuser | mkdirty | mkclean | mkpresent
  | rdprotect | exprotect | wrprotect
deriving DecidableEq, Repr

/-- The `pde_*` accessor of that name. -/
def EntryOp.pde : EntryOp → BitVec 32 → BitVec 32
  | .mkread => pdeMkread
  | .mkexec => pdeMkexec
  | .mkwrite => pdeMkwrite
  | .mkuser => pdeMkuser
  | .mkdirty => pdeMkdirty
  | .mkclean => pdeMkclean
  | .mkpresent => pdeMkpresent
  | .rdprotect => pdeRdprotect
  | .exprotect => pdeExprotect
  | .wrprotect => pdeWrprotect

/-- The `pte_*` accessor of that name. -/
def EntryOp.pte : EntryOp → BitVec 32 → BitVec 32
  | .mkread => pteMkread
  | .mkexec => pteMkexec
  | .mkwrite => pteMkwrite
  | .mkuser => pteMkuser
  | .mkdirty => pteMkdirty
  | .mkclean => pteMkclean
  | .mkpresent => pteMkpresent
  | .rdprotect => pteRdprotect
  | .exprotect => pteExprotect
  | .wrprotect => pteWrprotect

/-- The flags that have a query. -/
inductive EntryFlag where
  | present | write | user | dirty
deriving DecidableEq, Repr

/-- Number of the flag's bit. -/
def EntryFlag.bit : EntryFlag → Nat
  | .present => 0
  | .write => 1
  | .user => 2
  | .dirty => 6

def EntryFlag.pde : EntryFlag → BitVec 32 → Bool
  | .present => pdePresent
  | .write => pdeWrite
  | .user => pdeUser
  | .dirty => pdeDirty

def EntryFlag.pte : EntryFlag → BitVec 32 → Bool
  | .present => ptePresent
  | .write => pteWrite
  | .user => pteUser
  | .dirty => pteDirty

/-- The flag an operation names. Reading and executing are allowed by the user flag. -/
def EntryOp.flag : EntryOp → EntryFlag
  | .mkread | .mkexec | .mkuser | .rdprotect | .exprotect => .user
  | .mkwrite | .wrprotect => .write
  | .mkdirty | .mkclean => .dirty
  | .mkpresent => .present

/-- The value an operation is to give its flag. -/
def EntryOp.value : EntryOp → Bool
  | .mkread | .mkexec | .mkwrite | .mkuser | .mkdirty | .mkpresent => true
  | .mkclean | .rdprotect | .exprotect | .wrprotect => false

/-- The entry after a sequence of operations. -/
def applyOps (apply : EntryOp → BitVec 32 → BitVec 32) (ops : List EntryOp) (e : BitVec 32) :
    BitVec 32 :=
  ops.foldl (fun e op => apply op e) e

/-- What is asked of the accessors of one kind of entry: the frame number and the flags that no
operation names stay, and every query tells what the last operation naming its flag has set. -/
structure KeepsEntry (apply : EntryOp → BitVec 32 → BitVec 32)
    (query : EntryFlag → BitVec 32 → Bool) (ops : List EntryOp) (e : BitVec 32) : Prop where
  frame : applyOps apply ops e >>> PAGE_SHIFT = e >>> PAGE_SHIFT
  flags : ∀ k < PAGE_SHIFT, (∀ op ∈ ops, op.flag.bit ≠ k) →
    (applyOps apply ops e).getLsbD k = e.getLsbD k
  queries : ∀ before op after, ops = before ++ op :: after → (∀ o ∈ after, o.flag ≠ op.flag) →
    query op.flag (applyOps apply ops e) = op.value

/-! ## One bit of an entry -/

theorem EntryOp.pde_eq_pte (op : EntryOp) : op.pde = op.pte := by cases op <;> rfl

theorem EntryFlag.pde_eq_pte (f : EntryFlag) : f.pde = f.pte := by cases f <;> rfl

theorem EntryFlag.bit_lt (f : EntryFlag) : f.bit < PAGE_SHIFT := by cases f <;> decide

theorem EntryFlag.bit_injective {f g : EntryFlag} (h : f.bit = g.bit) : f = g := by
  cases f <;> cases g <;> first | rfl | exact absurd h (by decide)

theorem getLsbD_raiseFlag (b k : Nat) (e : BitVec 32) (hk : k < 32) :
    (raiseFlag (BitVec.twoPow 32 b) e).getLsbD k = if b = k then true else e.getLsbD k := by
  rw [raiseFlag, BitVec.getLsbD_or, BitVec.getLsbD_twoPow]
  by_cases h : b = k <;> simp [h, hk]

theorem getLsbD_lowerFlag (b k : Nat) (e : BitVec 32) (hk : k < 32) :
    (lowerFlag (BitVec.twoPow 32 b) e).getLsbD k = if b = k then false else e.getLsbD k := by
  rw [lowerFlag, BitVec.getLsbD_and, BitVec.getLsbD_not, BitVec.getLsbD_twoPow]
  by_cases h : b = k <;> simp [h, hk]

theorem hasFlag_twoPow (b : Nat) (e : BitVec 32) (hb : b < 32) :
    hasFlag (BitVec.twoPow 32 b) e = e.getLsbD b := by
  have hne : (0 : BitVec 32) ≠ BitVec.twoPow 32 b := by
    intro h
    have := congrArg (fun x : BitVec 32 => x.getLsbD b) h
    simp [hb] at this
  rw [hasFlag, BitVec.and_twoPow]
  cases e.getLsbD b with
  | true => simp
  | false => simpa using hne

theorem EntryFlag.pte_eq (f : EntryFlag) (e : BitVec 32) : f.pte e = e.getLsbD f.bit := by
  cases f with
  | present => exact hasFlag_twoPow 0 e (by decide)
  | write => exact hasFlag_twoPow 1 e (by decide)
  | user => exact hasFlag_twoPow 2 e (by decide)
  | dirty => exact hasFlag_twoPow 6 e (by decide)

/-- What an operation does to bit `k`. -/
def EntryOp.bitStep (op : EntryOp) (k : Nat) (b : Bool) : Bool :=
  if op = .mkpresent then decide (k = 0) && b
  else if op.flag.bit = k then op.value else b

theorem EntryOp.getLsbD_pte (op : EntryOp) (e : BitVec 32) (k : Nat) (hk : k < 32) :
    (op.pte e).getLsbD k = op.bitStep k (e.getLsbD k) := by
  cases op with
  | mkread => exact getLsbD_raiseFlag 2 k e hk
  | mkexec => exact getLsbD_raiseFlag 2 k e hk
  | mkwrite => exact getLsbD_raiseFlag 1 k e hk
  | mkuser => exact getLsbD_raiseFlag 2 k e hk
  | mkdirty => exact getLsbD_raiseFlag 6 k e hk
  | mkclean => exact getLsbD_lowerFlag 6 k e hk
  | rdprotect => exact getLsbD_lowerFlag 2 k e hk
  | exprotect => exact getLsbD_lowerFlag 2 k e hk
  | wrprotect => exact getLsbD_lowerFlag 1 k e hk
  | mkpresent =>
    have hone : PAGE_PRESENT = BitVec.twoPow 32 0 := rfl
    rw [EntryOp.pte, pteMkpresent, hone, BitVec.getLsbD_and, BitVec.getLsbD_twoPow,
      EntryOp.bitStep, if_pos rfl]
    by_cases h : k = 0 <;> simp [h, eq_comm]

theorem getLsbD_applyOps (ops : List EntryOp) (e : BitVec 32) (k : Nat) (hk : k < 32) :
    (applyOps EntryOp.pte ops e).getLsbD k =
      ops.foldl (fun b op => op.bitStep k b) (e.getLsbD k) := by
  induction ops generalizing e with
  | nil => rfl
  | cons op ops ih =>
    rw [List.foldl_cons, ← op.getLsbD_pte e k hk]
    exact ih (op.pte e)

/-- What the operations are to leave in bit `k`. -/
def bitAfter (ops : List EntryOp) (k : Nat) (b : Bool) : Bool :=
  lastWrite (fun op : EntryOp => op.flag.bit = k) EntryOp.value ops b

theorem bitAfter_of_unnamed {ops : List EntryOp} {k : Nat} (h : ∀ op ∈ ops, op.flag.bit ≠ k)
    (b : Bool) : bitAfter ops k b = b :=
  lastWrite_of_unnamed (fun op : EntryOp => op.flag.bit = k) _ h b

theorem bitAfter_of_named {ops : List EntryOp} {k : Nat} (h : ∃ op ∈ ops, op.flag.bit = k)
    (b b' : Bool) : bitAfter ops k b = bitAfter ops k b' :=
  lastWrite_of_named (fun op : EntryOp => op.flag.bit = k) _ h b b'

theorem bitAfter_of_last (before : List EntryOp) {after : List EntryOp} {op : EntryOp}
    (h : ∀ o ∈ after, o.flag ≠ op.flag) (b : Bool) :
    bitAfter (before ++ op :: after) op.flag.bit b = op.value := by
  refine lastWrite_of_last (fun o : EntryOp => o.flag.bit = op.flag.bit) _ rfl ?_ b
  intro o ho heq
  exact h o ho (EntryFlag.bit_injective heq)

theorem bitAfter_of_ge {k : Nat} (hk : PAGE_SHIFT ≤ k) (ops : List EntryOp) (b : Bool) :
    bitAfter ops k b = b := by
  apply bitAfter_of_unnamed
  intro op _ heq
  have := op.flag.bit_lt
  omega

theorem foldl_bitStep {ops : List EntryOp} (h : EntryOp.mkpresent ∉ ops) (k : Nat) (b : Bool) :
    ops.foldl (fun b op => op.bitStep k b) b = bitAfter ops k b := by
  induction ops generalizing b with
  | nil => rfl
  | cons op ops ih =>
    have hop : op ≠ .mkpresent := fun e => h (e ▸ List.mem_cons_self ..)
    have hops : EntryOp.mkpresent ∉ ops := fun hm => h (List.mem_cons_of_mem _ hm)
    rw [List.foldl_cons, ih hops, EntryOp.bitStep, if_neg hop]
    rfl

/-- No operation clears the present bit, and none sets it. -/
theorem foldl_bitStep_present (ops : List EntryOp) (b : Bool) :
    ops.foldl (fun b op => op.bitStep 0 b) b = b := by
  induction ops with
  | nil => rfl
  | cons op ops ih =>
    have hop : op.bitStep 0 b = b := by cases op <;> rfl
    rw [List.foldl_cons, hop, ih]

/-- Bits other than the present bit are lost at `mkpresent`. -/
theorem foldl_bitStep_mkpresent (before : List EntryOp) {after : List EntryOp}
    (h : EntryOp.mkpresent ∉ after) {k : Nat} (hk : k ≠ 0) (b : Bool) :
    (before ++ .mkpresent :: after).foldl (fun b op => op.bitStep k b) b =
      bitAfter after k false := by
  rw [List.foldl_append, List.foldl_cons, EntryOp.bitStep, if_pos rfl, decide_eq_false hk,
    Bool.false_and, foldl_bitStep h]

/-! ## The accessors as a whole -/

theorem keepsEntry_iff_bits (ops : List EntryOp) (e : BitVec 32) :
    KeepsEntry EntryOp.pte EntryFlag.pte ops e ↔
      ∀ k < 32, (applyOps EntryOp.pte ops e).getLsbD k = bitAfter ops k (e.getLsbD k) := by
  constructor
  · intro h k hk
    rw [bitAfter, eq_lastWrite_iff]
    constructor
    · intro hnone
      by_cases hflag : k < PAGE_SHIFT
      · exact h.flags k hflag hnone
      · have hpos := congrArg (fun x : BitVec 32 => x.getLsbD (k - PAGE_SHIFT)) h.frame
        simpa [show PAGE_SHIFT + (k - PAGE_SHIFT) = k by omega] using hpos
    · rintro before op after hops rfl hafter
      rw [← op.flag.pte_eq]
      exact h.queries before op after hops fun o ho e => hafter o ho (congrArg EntryFlag.bit e)
  · intro h
    refine ⟨?_, ?_, ?_⟩
    · apply BitVec.eq_of_getLsbD_eq
      intro i _
      rw [BitVec.getLsbD_ushiftRight, BitVec.getLsbD_ushiftRight]
      by_cases hi : PAGE_SHIFT + i < 32
      · rw [h _ hi, bitAfter_of_ge (Nat.le_add_right _ _)]
      · rw [BitVec.getLsbD_of_ge _ _ (by omega), BitVec.getLsbD_of_ge _ _ (by omega)]
    · intro k hk hnone
      have hk32 : k < 32 := Nat.lt_trans hk (by decide)
      rw [h k hk32, bitAfter_of_unnamed hnone]
    · rintro before op after rfl hafter
      have hbit : op.flag.bit < 32 := Nat.lt_trans op.flag.bit_lt (by decide)
      rw [op.flag.pte_eq, h _ hbit, bitAfter_of_last before hafter]

/-- `mkpresent` does no harm: it is not applied; or the present bit is set, and of the other bits
none is left set by the operations before the last `mkpresent` that none after it names. -/
def PresentHarmless (ops : List EntryOp) (e : BitVec 32) : Prop :=
  EntryOp.mkpresent ∉ ops ∨
    e.getLsbD 0 = true ∧
    ∀ before after, ops = before ++ .mkpresent :: after → EntryOp.mkpresent ∉ after →
      ∀ k ≠ 0, bitAfter before k (e.getLsbD k) = true → ∃ op ∈ after, op.flag.bit = k

theorem present_named_iff (op : EntryOp) : op.flag.bit = 0 ↔ op = .mkpresent := by
  cases op <;> decide

/-- One bit comes out as asked, or the last `mkpresent` has spoilt it. -/
theorem bit_kept_iff (before : List EntryOp) {after : List EntryOp}
    (h : EntryOp.mkpresent ∉ after) (k : Nat) (b : Bool) :
    (before ++ .mkpresent :: after).foldl (fun b op => op.bitStep k b) b =
        bitAfter (before ++ .mkpresent :: after) k b ↔
      if k = 0 then b = true
      else bitAfter before k b = true → ∃ op ∈ after, op.flag.bit = k := by
  by_cases hk : k = 0
  · subst hk
    have hlast : bitAfter (before ++ .mkpresent :: after) 0 b = true := by
      refine bitAfter_of_last before (?_ : ∀ o ∈ after, o.flag ≠ EntryOp.mkpresent.flag) b
      intro o ho heq
      exact h ((present_named_iff o).1 (congrArg EntryFlag.bit heq) ▸ ho)
    rw [foldl_bitStep_present, hlast, if_pos rfl]
  · have hasked : bitAfter (before ++ .mkpresent :: after) k b =
        bitAfter after k (bitAfter before k b) := by
      have hunnamed : ¬ EntryOp.mkpresent.flag.bit = k := fun e => hk e.symm
      rw [bitAfter, lastWrite_append, lastWrite_cons, if_neg hunnamed]
      rfl
    rw [foldl_bitStep_mkpresent before h hk, if_neg hk, hasked]
    by_cases hnamed : ∃ op ∈ after, op.flag.bit = k
    · simp only [hnamed, implies_true, iff_true]
      exact bitAfter_of_named hnamed _ _
    · have hnone : ∀ op ∈ after, ¬ op.flag.bit = k := by
        intro op hop heq
        exact hnamed ⟨op, hop, heq⟩
      rw [bitAfter_of_unnamed hnone, bitAfter_of_unnamed hnone]
      simp only [hnamed, imp_false]
      cases bitAfter before k b <;> simp

/-- With the last `mkpresent` singled out. -/
theorem pte_accessors_last_iff (before : List EntryOp) {after : List EntryOp}
    (h : EntryOp.mkpresent ∉ after) (e : BitVec 32) :
    KeepsEntry EntryOp.pte EntryFlag.pte (before ++ .mkpresent :: after) e ↔
      e.getLsbD 0 = true ∧
        ∀ k ≠ 0, bitAfter before k (e.getLsbD k) = true → ∃ op ∈ after, op.flag.bit = k := by
  rw [keepsEntry_iff_bits]
  constructor
  · intro hbits
    refine ⟨?_, fun k hk hset => ?_⟩
    · have hzero := hbits 0 (by decide)
      rw [getLsbD_applyOps _ _ _ (by decide), bit_kept_iff before h] at hzero
      simpa using hzero
    · by_cases hk32 : k < 32
      · have hbit := hbits k hk32
        rw [getLsbD_applyOps _ _ _ hk32, bit_kept_iff before h, if_neg hk] at hbit
        exact hbit hset
      · have hshift : PAGE_SHIFT ≤ k := Nat.le_trans (by decide) (Nat.le_of_not_lt hk32)
        rw [bitAfter_of_ge hshift, BitVec.getLsbD_of_ge _ _ (by omega)] at hset
        exact absurd hset (by decide)
  · rintro ⟨hzero, hothers⟩ k hk
    rw [getLsbD_applyOps _ _ _ hk, bit_kept_iff before h]
    by_cases hk0 : k = 0
    · rw [if_pos hk0, hk0]
      exact hzero
    · rw [if_neg hk0]
      exact hothers k hk0

theorem pte_accessors_iff (ops : List EntryOp) (e : BitVec 32) :
    KeepsEntry EntryOp.pte EntryFlag.pte ops e ↔ PresentHarmless ops e := by
  by_cases hpresent : EntryOp.mkpresent ∈ ops
  · rw [PresentHarmless, or_iff_right (not_not_intro hpresent)]
    constructor
    · intro h
      refine ⟨?_, ?_⟩
      · obtain ⟨before, op, after, rfl, rfl, hafter⟩ :=
          exists_last_named (· = EntryOp.mkpresent) ⟨_, hpresent, rfl⟩
        have hnot : EntryOp.mkpresent ∉ after := fun hm => hafter _ hm rfl
        exact ((pte_accessors_last_iff before hnot e).1 h).1
      · rintro before after rfl hnot
        exact ((pte_accessors_last_iff before hnot e).1 h).2
    · rintro ⟨hzero, hothers⟩
      obtain ⟨before, op, after, rfl, rfl, hafter⟩ :=
        exists_last_named (· = EntryOp.mkpresent) ⟨_, hpresent, rfl⟩
      have hnot : EntryOp.mkpresent ∉ after := fun hm => hafter _ hm rfl
      exact (pte_accessors_last_iff before hnot e).2 ⟨hzero, hothers before after rfl hnot⟩
  · rw [PresentHarmless, keepsEntry_iff_bits]
    refine iff_of_true (fun k hk => ?_) (.inl hpresent)
    rw [getLsbD_applyOps _ _ _ hk, foldl_bitStep hpresent]

/-- Page-table and page-directory entries are kept exactly when no `mkpresent` does harm. -/
theorem accessors_keep_iff (ops : List EntryOp) (e : BitVec 32) :
    (KeepsEntry EntryOp.pte EntryFlag.pte ops e ↔ PresentHarmless ops e) ∧
    (KeepsEntry EntryOp.pde EntryFlag.pde ops e ↔ PresentHarmless ops e) := by
  have hop : EntryOp.pde = EntryOp.pte := funext EntryOp.pde_eq_pte
  have hflag : EntryFlag.pde = EntryFlag.pte := funext EntryFlag.pde_eq_pte
  rw [hop, hflag]
  exact ⟨pte_accessors_iff ops e, pte_accessors_iff ops e⟩

/-- Making the entry of frame `0x12345` present leaves an entry of frame 0 that is not present. -/
theorem accessors_lose_frame :
    EntryOp.pte .mkpresent 0x12345002 = 0 ∧ EntryOp.pde .mkpresent 0x12345002 = 0 ∧
      ¬ KeepsEntry EntryOp.pte EntryFlag.pte [.mkpresent] 0x12345002 ∧
      ¬ KeepsEntry EntryOp.pde EntryFlag.pde [.mkpresent] 0x12345002 := by
  refine ⟨by decide, by decide, fun h => ?_, fun h => ?_⟩
  · exact absurd h.frame (by decide)
  · exact absurd h.frame (by decide)

end Ohwes

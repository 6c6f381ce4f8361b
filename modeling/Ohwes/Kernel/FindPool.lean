import Ohwes.Kernel.PoolRuns
import Ohwes.Libc.StringOrder

/-! # `find_pool`

A name is stored as far as it fits into 32 characters, and the search compares what is stored. The
slot it has looked at last is what it returns, also where it has found nothing. -/

namespace Ohwes
set_option autoImplicit false
open Library

/-- The loop of `find_pool`, with `n` slots to go, the next of them slot `i`; `p` is the live one
before. -/
def findPoolLoop (s : PoolState) (name : CString) : Nat → Nat → Option Nat → Call (Option Nat)
  | 0, _, p => .ok p
  | n + 1, i, p => do
    let free ← testBit s.poolMask i
    if free then findPoolLoop s name n (i + 1) p
    else if strcmp name (s.pools i).name = 0 then .ok (some i)
    else findPoolLoop s name n (i + 1) (some i)

def findPool (s : PoolState) (name : CString) : Call (Option Nat) :=
  findPoolLoop s name MAX_NR_POOLS 0 none

/-! ## The names of the pools -/

/-- A run of the pool functions with the names that `pool_create` was given. -/
structure PoolRegistry where
  s : PoolState
  names : Nat → Option CString

def PoolRegistry.boot (mem : Memory) : PoolRegistry where
  s := initPool (.bss mem)
  names := fun _ => none

def registryStep (w : PoolRegistry) : PoolOp → Call PoolRegistry
  | .create addr name itemSize capacity => do
    let (pool, s) ← poolCreate w.s addr name itemSize capacity
    .ok ⟨s, match pool with
      | none => w.names
      | some p => Function.update w.names p name⟩
  | .alloc pool => do
    let (_, s) ← poolAlloc w.s pool
    .ok ⟨s, w.names⟩
  | .free pool item => do
    let (_, s) ← poolFree w.s pool item
    .ok ⟨s, w.names⟩
  | .destroy pool => do
    let s ← poolDestroy w.s pool
    .ok ⟨s, match pool with
      | none => w.names
      | some p => Function.update w.names p none⟩

namespace PoolRegistry
variable (w : PoolRegistry) (name : CString)

/-- Slot `p` is live and was created under the name. -/
def CreatedAs (p : Nat) : Prop := ∃ n ∈ w.names p, cstring n = cstring name

/-- A pool that was created under the name, or `INVALID_POOL` where there is none. -/
def Answers : Option Nat → Prop
  | some p => w.CreatedAs name p
  | none => ∀ p, ¬ w.CreatedAs name p

def Finds : Prop := ∃ r, findPool w.s name = .ok r ∧ w.Answers name r

/-- No pool is live, or one was created under the name and no pool in front of it is stored under the
same characters; where they do not fit, nothing is stored under the name, and the pool is the last. -/
def Tells : Prop :=
  (∀ p, w.names p = none) ∨
    ∃ p, w.CreatedAs name p ∧
      if (cstring name).length ≤ POOL_NAME_LENGTH then
        ∀ q < p, ∀ n ∈ w.names q, (cstring n).take POOL_NAME_LENGTH ≠ cstring name
      else ∀ q, p < q → w.names q = none

end PoolRegistry

/-! ## What is stored -/

theorem strnlen_eq (str : CString) (n : Nat) : strnlen str n = ((cstring str).take n).length := by
  induction n generalizing str with
  | zero => cases str <;> rfl
  | succ n ih =>
    cases str with
    | nil => rfl
    | cons c str =>
      rw [strnlen, cstring_eq, List.headD_cons, List.tail_cons]
      by_cases hc : c = 0
      · rw [if_pos hc, if_pos hc]
        rfl
      · rw [if_neg hc, if_neg hc, ih, List.take_succ_cons, List.length_cons]

/-- A stored name ends behind its array at the latest. -/
def Ended (name : List Byte) : Prop := name.drop POOL_NAME_LENGTH = [0]

theorem take_strnlen (str : CString) (n : Nat) :
    str.take (strnlen str n) = (cstring str).take n := by
  have hprefix : cstring str <+: str := List.takeWhile_prefix _
  have htake := List.prefix_iff_eq_take.mp ((List.take_prefix n (cstring str)).trans hprefix)
  rw [strnlen_eq]
  exact htake.symm

theorem strncpy_stored {old : List Byte} (h : Ended old) (name : CString) :
    Ended (strncpy old name POOL_NAME_LENGTH) ∧
      cstring (strncpy old name POOL_NAME_LENGTH) = (cstring name).take POOL_NAME_LENGTH := by
  have hlen := strnlen_eq name POOL_NAME_LENGTH
  have hle : strnlen name POOL_NAME_LENGTH ≤ POOL_NAME_LENGTH := by
    rw [hlen]
    exact List.length_take_le _ _
  rw [strncpy, take_strnlen, h, List.append_assoc]
  constructor
  · rw [Ended, ← List.append_assoc]
    refine List.drop_left' ?_
    rw [List.length_append, List.length_replicate, ← hlen]
    omega
  · have hhead : ∃ z, List.replicate (POOL_NAME_LENGTH - strnlen name POOL_NAME_LENGTH) (0 : Byte) ++
        [0] = 0 :: z := by
      cases POOL_NAME_LENGTH - strnlen name POOL_NAME_LENGTH with
      | zero => exact ⟨[], rfl⟩
      | succ k => exact ⟨_, rfl⟩
    obtain ⟨z, hz⟩ := hhead
    rw [hz, cstring, List.takeWhile_append_of_pos]
    · rw [List.takeWhile_cons_of_neg (by simp), List.append_nil]
    · intro c hc
      have hne := zero_notMem_cstring name
      exact decide_eq_true fun h0 => hne (h0 ▸ List.mem_of_mem_take hc)

theorem strcmp_eq_zero_iff (lhs rhs : CString) :
    strcmp lhs rhs = 0 ↔ cstring lhs = cstring rhs := by
  have hnear := strncmp_eq_zero_iff lhs rhs ((terminated lhs).length + (terminated rhs).length)
  have hlen : ∀ s : CString, (terminated s).length = (cstring s).length + 1 := fun s => by
    rw [terminated, List.length_append, List.length_singleton]
  have hsame := (agree lhs rhs).strncmp ((terminated lhs).length + (terminated rhs).length)
    (by omega)
  rw [← hsame, hnear, List.take_of_length_le (by rw [hlen, hlen]; omega),
    List.take_of_length_le (by rw [hlen, hlen]; omega)]

/-! ## The calls keep the names -/

/-- The descriptors keep all that a call with the name of a pool looks at. -/
structure SamePools (s t : PoolState) : Prop where
  mask : t.poolMask = s.poolMask
  name (q : Nat) : (t.pools q).name = (s.pools q).name
  valid (q : Nat) : poolValid t q = poolValid s q

theorem SamePools.refl (s : PoolState) : SamePools s s := ⟨rfl, fun _ => rfl, fun _ => rfl⟩

/-- The first free chunk of a pool is no part of its name. -/
theorem SamePools.of_alloc {s t : PoolState} (hmask : t.poolMask = s.poolMask)
    (hpool : ∀ q, ∃ a, t.pools q = { s.pools q with alloc := a }) : SamePools s t := by
  refine ⟨hmask, fun q => ?_, fun q => ?_⟩
  · obtain ⟨a, ha⟩ := hpool q
    rw [ha]
  · obtain ⟨a, ha⟩ := hpool q
    exact poolValid_congr (by rw [ha]) (by rw [ha]) (by rw [ha])

theorem poolAlloc_same {s t : PoolState} {pool : Option Nat} {x : Ptr}
    (h : poolAlloc s pool = .ok (x, t)) : SamePools s t := by
  cases pool with
  | none =>
    obtain ⟨-, rfl⟩ := Prod.mk.inj (Except.ok.inj h)
    exact .refl s
  | some p =>
    rw [poolAlloc] at h
    split at h
    · obtain ⟨-, rfl⟩ := Prod.mk.inj (Except.ok.inj h)
      exact .refl s
    split at h
    · obtain ⟨-, rfl⟩ := Prod.mk.inj (Except.ok.inj h)
      exact .refl s
    split at h
    · rename_i c _
      rw [assert_bind_ok] at h
      obtain ⟨-, h⟩ := h
      obtain ⟨-, rfl⟩ := Prod.mk.inj (Except.ok.inj h)
      refine .of_alloc rfl fun q => ?_
      rw [allocChunk_pools]
      split
      · rename_i hq
        exact ⟨_, by rw [hq]⟩
      · exact ⟨_, rfl⟩
    · cases h

theorem poolFree_same {s t : PoolState} {pool : Option Nat} {item : Ptr} {r : Int}
    (h : poolFree s pool item = .ok (r, t)) : SamePools s t := by
  rcases poolFree_ok h with ⟨-, rfl⟩ | ⟨p, base, -, -, -, -, -, -, -, -, -, rfl⟩
  · exact .refl t
  · refine .of_alloc rfl fun q => ?_
    rw [freeChunk_pools]
    split
    · rename_i hq
      exact ⟨_, by rw [hq]⟩
    · exact ⟨_, rfl⟩

theorem releaseChunks_same {p n i : Nat} {s t : PoolState} (h : releaseChunks p n i s = .ok t) :
    t.pools = s.pools ∧ t.poolMask = s.poolMask := by
  induction n generalizing i s with
  | zero =>
    obtain rfl := Except.ok.inj h
    exact ⟨rfl, rfl⟩
  | succ n ih =>
    rw [releaseChunks] at h
    split at h
    · cases h
    · obtain ⟨mask, -, h⟩ := bind_ok.mp h
      have hrest := ih h
      exact hrest

/-- A destroyed pool has its slot back, and every other one is as before. -/
theorem poolDestroy_cases {s t : PoolState} {p : Nat} (h : poolDestroy s (some p) = .ok t) :
    poolValid s p = false ∧ t = s ∨
      poolValid s p = true ∧ t.pools = Function.update s.pools p Pool.zero ∧
        ∀ q, bitAt t.poolMask.1 q = (bitAt s.poolMask.1 q || decide (q = p)) := by
  rw [poolDestroy] at h
  split at h
  · rename_i hvalid
    obtain ⟨u, hu, h⟩ := bind_ok.mp h
    obtain ⟨mask, hmask, h⟩ := bind_ok.mp h
    obtain rfl := Except.ok.inj h
    obtain ⟨hpools, hsame⟩ := releaseChunks_same hu
    have hv : p < MAX_NR_POOLS ∧ (s.pools p).index = p := by
      simp only [poolValid, Bool.and_eq_true, decide_eq_true_eq] at hvalid
      exact hvalid.1.1
    have hindex : (u.pools p).index = p := by
      rw [hpools]
      exact hv.2
    have hlt : p / 32 < 1 := Nat.div_lt_of_lt_mul hv.1
    obtain ⟨mask', hmask', hbits⟩ := setBit_ok u.poolMask hlt
    rw [hindex, hmask'] at hmask
    obtain rfl := Except.ok.inj hmask
    refine Or.inr ⟨hvalid, ?_, fun q => ?_⟩
    · rw [PoolState.zeroPool, PoolState.setPool]
      dsimp only
      rw [hpools]
    · rw [← hsame]
      exact hbits q
  · rename_i hvalid
    obtain rfl := Except.ok.inj h
    exact Or.inl ⟨Bool.not_eq_true _ ▸ hvalid, rfl⟩

theorem createFreeList_name {p n i : Nat} {s t : PoolState} (h : createFreeList p n i s = .ok t)
    (q : Nat) : (t.pools q).name = (s.pools q).name := by
  induction n generalizing i s with
  | zero =>
    obtain rfl := Except.ok.inj h
    rfl
  | succ n ih =>
    rw [createFreeList] at h
    obtain ⟨c, -, h⟩ := bind_ok.mp h
    obtain ⟨mask, -, h⟩ := bind_ok.mp h
    rw [ih h]
    by_cases hq : q = p
    · rw [hq, addChunk_pool]
      split <;> rfl
    · rw [addChunk_pools_of_ne hq]

theorem poolCreate_name {s t : PoolState} {addr : Ptr} {name : Option CString}
    {itemSize capacity : BitVec 32} {p : Nat}
    (h : poolCreate s addr name itemSize capacity = .ok (some p, t)) :
    ∃ n, name = some n ∧ (t.pools p).name = strncpy (s.pools p).name n POOL_NAME_LENGTH := by
  unfold poolCreate at h
  split at h
  · exact nomatch h
  split at h
  · exact nomatch h
  rename_i n
  split at h
  · exact nomatch h
  split at h
  · exact nomatch h
  obtain ⟨index, -, h⟩ := bind_ok.mp h
  split at h
  · exact nomatch h
  obtain ⟨mask, -, h⟩ := bind_ok.mp h
  obtain ⟨u, hu, h⟩ := bind_ok.mp h
  obtain ⟨hp, rfl⟩ := Prod.mk.inj (Except.ok.inj h)
  obtain rfl := Option.some.inj hp
  refine ⟨n, rfl, ?_⟩
  rw [createFreeList_name hu, setupPool_pool]

/-! ## The invariant -/

/-- The mask and the names that are stored tell what was created. -/
structure Registered (w : PoolRegistry) : Prop where
  slot : ∀ p < MAX_NR_POOLS, bitAt w.s.poolMask.1 p = true ↔ w.names p = none
  range : ∀ p, MAX_NR_POOLS ≤ p → w.names p = none
  valid : ∀ p, poolValid w.s p = (w.names p).isSome
  stored : ∀ p, ∀ n ∈ w.names p, cstring (w.s.pools p).name = (cstring n).take POOL_NAME_LENGTH
  ended : ∀ p, Ended (w.s.pools p).name

theorem Registered.boot (mem : Memory) : Registered (PoolRegistry.boot mem) where
  slot p hp := iff_of_true (bitAt_ones (n := 1) hp) rfl
  range _ _ := rfl
  valid p := by
    simp [poolValid, PoolRegistry.boot, initPool, PoolState.bss, Pool.zero, POOL_MAGIC]
  stored _ _ h := nomatch h
  ended p := by
    change (List.replicate (POOL_NAME_LENGTH + 1) (0 : Byte)).drop POOL_NAME_LENGTH = [0]
    rfl

namespace Registered
variable {w : PoolRegistry}

theorem same {t : PoolState} (h : Registered w) (hs : SamePools w.s t) :
    Registered ⟨t, w.names⟩ where
  slot p hp := by
    rw [hs.mask]
    exact h.slot p hp
  range := h.range
  valid p := (hs.valid p).trans (h.valid p)
  stored p n hn := by
    rw [hs.name]
    exact h.stored p n hn
  ended p := by
    rw [hs.name]
    exact h.ended p

/-- One slot changes hands. -/
theorem update {t : PoolState} {p : Nat} {o : Option CString} (h : Registered w)
    (hp : p < MAX_NR_POOLS) (hslot : bitAt t.poolMask.1 p = true ↔ o = none)
    (hmask : ∀ q, q ≠ p → bitAt t.poolMask.1 q = bitAt w.s.poolMask.1 q)
    (hpools : ∀ q, q ≠ p → t.pools q = w.s.pools q) (hvalid : poolValid t p = o.isSome)
    (hstored : ∀ n ∈ o, cstring (t.pools p).name = (cstring n).take POOL_NAME_LENGTH)
    (hended : Ended (t.pools p).name) : Registered ⟨t, Function.update w.names p o⟩ := by
  have hself : Function.update w.names p o p = o := Function.update_self ..
  have hother : ∀ q, q ≠ p → Function.update w.names p o q = w.names q := fun q hq =>
    Function.update_of_ne hq ..
  constructor
  case slot =>
    intro q hq
    by_cases hqp : q = p
    · subst hqp
      exact hslot.trans (iff_of_eq (congrArg (· = none) hself.symm))
    · change bitAt t.poolMask.1 q = true ↔ Function.update w.names p o q = none
      rw [hmask q hqp, hother q hqp]
      exact h.slot q hq
  case range => exact fun q hq => (hother q (by omega)).trans (h.range q hq)
  case valid =>
    intro q
    by_cases hqp : q = p
    · subst hqp
      exact hvalid.trans (congrArg Option.isSome hself.symm)
    · have hkept := poolValid_of_pools (hpools q hqp)
      exact (hkept.trans (h.valid q)).trans (congrArg Option.isSome (hother q hqp).symm)
  case stored =>
    intro q m hm
    change m ∈ Function.update w.names p o q at hm
    by_cases hqp : q = p
    · subst hqp
      rw [hself] at hm
      exact hstored m hm
    · rw [hother q hqp] at hm
      change cstring (t.pools q).name = _
      rw [hpools q hqp]
      exact h.stored q m hm
  case ended =>
    intro q
    change Ended (t.pools q).name
    by_cases hqp : q = p
    · rw [hqp]
      exact hended
    · rw [hpools q hqp]
      exact h.ended q

theorem create {t : PoolState} {p : Nat} {cs : List Nat} {n : CString} (h : Registered w)
    (hc : Created w.s t p cs)
    (hname : (t.pools p).name = strncpy (w.s.pools p).name n POOL_NAME_LENGTH) :
    Registered ⟨t, Function.update w.names p (some n)⟩ := by
  have hp : p < MAX_NR_POOLS := hc.ok.lt
  have hlt : p < 32 * w.s.poolMask.1.length := by
    rw [w.s.poolMask.2]
    exact hp
  obtain ⟨hended, hstored⟩ := strncpy_stored (h.ended p) n
  have hmask : ∀ q, bitAt t.poolMask.1 q = (bitAt w.s.poolMask.1 q && !decide (q = p)) := fun q => by
    rw [hc.poolMask, bitAt_clearAt hlt]
  refine h.update hp ?_ (fun q hq => ?_) hc.outside.pools hc.ok.valid (fun m hm => ?_) ?_
  · rw [hmask]
    simp
  · rw [hmask]
    simp [hq]
  · rw [hname, hstored, Option.some.inj hm]
  · rw [hname]
    exact hended

theorem destroy {t : PoolState} {p : Nat} (h : Registered w)
    (hd : poolDestroy w.s (some p) = .ok t) :
    Registered ⟨t, Function.update w.names p none⟩ := by
  rcases poolDestroy_cases hd with ⟨hdead, rfl⟩ | ⟨hlive, hpools, hmask⟩
  · -- nothing was there
    have hnone : w.names p = none := by
      rw [h.valid p, Option.isSome_eq_false_iff, Option.isNone_iff_eq_none] at hdead
      exact hdead
    rw [← hnone, Function.update_eq_self]
    exact h
  · have hboot := Registered.boot w.s.mem
    have hp : p < MAX_NR_POOLS := by
      simp only [poolValid, Bool.and_eq_true, decide_eq_true_eq] at hlive
      exact hlive.1.1.1
    have hself : t.pools p = Pool.zero := by rw [hpools, Function.update_self]
    refine h.update hp ?_ (fun q hq => ?_) (fun q hq => ?_) ?_ (fun m hm => by cases hm) ?_
    · rw [hmask]
      simp
    · rw [hmask]
      simp [hq]
    · rw [hpools, Function.update_of_ne hq]
    · exact (poolValid_congr (by rw [hself]; rfl) (by rw [hself]; rfl) (by rw [hself]; rfl)).trans
        (hboot.valid p)
    · rw [hself]
      exact hboot.ended p

/-- **The step lemma**: every call keeps the invariant. -/
theorem step {w' : PoolRegistry} {op : PoolOp} (h : Registered w)
    (hstep : registryStep w op = .ok w') : Registered w' := by
  cases op with
  | create addr name itemSize capacity =>
    obtain ⟨⟨pool, t⟩, hcall, hstep⟩ := bind_ok.mp hstep
    obtain rfl := Except.ok.inj hstep
    rcases poolCreate_ok hcall with ⟨rfl, rfl, -⟩ | ⟨p, cs, rfl, hc, -⟩
    · exact h
    · obtain ⟨n, rfl, hname⟩ := poolCreate_name hcall
      exact h.create hc hname
  | alloc pool =>
    obtain ⟨⟨x, t⟩, hcall, hstep⟩ := bind_ok.mp hstep
    obtain rfl := Except.ok.inj hstep
    exact h.same (poolAlloc_same hcall)
  | free pool item =>
    obtain ⟨⟨r, t⟩, hcall, hstep⟩ := bind_ok.mp hstep
    obtain rfl := Except.ok.inj hstep
    exact h.same (poolFree_same hcall)
  | destroy pool =>
    obtain ⟨t, hcall, hstep⟩ := bind_ok.mp hstep
    obtain rfl := Except.ok.inj hstep
    cases pool with
    | none =>
      obtain rfl := Except.ok.inj hcall
      exact h
    | some p => exact h.destroy hcall

end Registered

/-! ## The search -/

/-- What the search over the slots from `lo` to `hi` ends with, where `p` is the live slot before. -/
inductive SlotSearch (live stored : Nat → Prop) (lo hi : Nat) (p : Option Nat) : Option Nat → Prop
  | first (k : Nat) : lo ≤ k → k < hi → live k → stored k →
      (∀ q, lo ≤ q → q < k → live q → ¬ stored q) → SlotSearch live stored lo hi p (some k)
  | last (k : Nat) : lo ≤ k → k < hi → live k → (∀ q, lo ≤ q → q < hi → live q → ¬ stored q) →
      (∀ q, k < q → q < hi → ¬ live q) → SlotSearch live stored lo hi p (some k)
  | empty : (∀ q, lo ≤ q → q < hi → ¬ live q) → SlotSearch live stored lo hi p p

namespace SlotSearch
variable {live stored : Nat → Prop} {i hi : Nat} {p r : Option Nat}

theorem cons_free (h : SlotSearch live stored (i + 1) hi p r) (hfree : ¬ live i) :
    SlotSearch live stored i hi p r := by
  cases h with
  | first k hlo hhi hlive hstored hfirst =>
    refine .first k (by omega) hhi hlive hstored fun q hq hqk hl => ?_
    rcases Nat.eq_or_lt_of_le hq with rfl | hlt
    · exact absurd hl hfree
    · exact hfirst q hlt hqk hl
  | last k hlo hhi hlive hnone hlast =>
    refine .last k (by omega) hhi hlive (fun q hq hqk hl => ?_) hlast
    rcases Nat.eq_or_lt_of_le hq with rfl | hlt
    · exact absurd hl hfree
    · exact hnone q hlt hqk hl
  | empty hnone =>
    refine .empty fun q hq hqk hl => ?_
    rcases Nat.eq_or_lt_of_le hq with rfl | hlt
    · exact absurd hl hfree
    · exact hnone q hlt hqk hl

/-- Where the rest is empty, the live slot in front of it is the last one. -/
theorem cons_other (h : SlotSearch live stored (i + 1) hi (some i) r) (hlt : i < hi)
    (hlive : live i) (hother : ¬ stored i) : SlotSearch live stored i hi p r := by
  cases h with
  | first k hlo hhi hlive hstored hfirst =>
    refine .first k (by omega) hhi hlive hstored fun q hq hqk hl => ?_
    rcases Nat.eq_or_lt_of_le hq with rfl | hlt
    · exact hother
    · exact hfirst q hlt hqk hl
  | last k hlo hhi hlive hnone hlast =>
    refine .last k (by omega) hhi hlive (fun q hq hqk hl => ?_) hlast
    rcases Nat.eq_or_lt_of_le hq with rfl | hlt
    · exact hother
    · exact hnone q hlt hqk hl
  | empty hnone =>
    refine .last i (Nat.le_refl i) hlt hlive (fun q hq hqk hl => ?_) fun q hq hqk => hnone q hq hqk
    rcases Nat.eq_or_lt_of_le hq with rfl | hlt
    · exact hother
    · exact absurd hl (hnone q hlt hqk)

end SlotSearch

theorem findPoolLoop_search (s : PoolState) (name : CString) {n i : Nat} (p : Option Nat)
    (hi : i + n ≤ MAX_NR_POOLS) :
    ∃ r, findPoolLoop s name n i p = .ok r ∧
      SlotSearch (fun q => bitAt s.poolMask.1 q = false)
        (fun q => cstring (s.pools q).name = cstring name) i (i + n) p r := by
  induction n generalizing i p with
  | zero => exact ⟨p, rfl, .empty fun q hq hlt => absurd hq (by omega)⟩
  | succ n ih =>
    have hslot : testBit s.poolMask i = .ok (bitAt s.poolMask.1 i) :=
      if_pos (Nat.div_lt_of_lt_mul (by rw [MAX_NR_POOLS] at hi; omega))
    have hend : i + 1 + n = i + (n + 1) := by omega
    rw [findPoolLoop, hslot, ok_bind]
    cases hbit : bitAt s.poolMask.1 i with
    | true =>
      obtain ⟨r, hr, hsearch⟩ := ih p (by omega : i + 1 + n ≤ MAX_NR_POOLS)
      rw [if_pos rfl]
      rw [hend] at hsearch
      exact ⟨r, hr, hsearch.cons_free fun h => by cases hbit.symm.trans h⟩
    | false =>
      rw [if_neg Bool.false_ne_true]
      by_cases hname : cstring name = cstring (s.pools i).name
      · rw [if_pos ((strcmp_eq_zero_iff _ _).mpr hname)]
        exact ⟨some i, rfl, .first i (Nat.le_refl i) (by omega) hbit hname.symm
          fun q hq hlt => absurd hq (by omega)⟩
      · obtain ⟨r, hr, hsearch⟩ := ih (some i) (by omega : i + 1 + n ≤ MAX_NR_POOLS)
        rw [if_neg fun h => hname ((strcmp_eq_zero_iff _ _).mp h)]
        rw [hend] at hsearch
        exact ⟨r, hr, hsearch.cons_other (by omega) hbit fun h => hname h.symm⟩

namespace Registered
variable {w : PoolRegistry} (h : Registered w) (name : CString)
include h

theorem names_iff {p : Nat} (hp : p < MAX_NR_POOLS) :
    bitAt w.s.poolMask.1 p = false ↔ ∃ n, w.names p = some n := by
  rw [← Bool.not_eq_true, h.slot p hp, ← ne_eq, Option.ne_none_iff_exists']

/-- A name that fits is found at the first pool that is stored under it. -/
theorem stored_iff {p : Nat} {n : CString} (hn : w.names p = some n) :
    cstring (w.s.pools p).name = cstring name ↔
      (cstring n).take POOL_NAME_LENGTH = cstring name := by
  rw [h.stored p n hn]

theorem lt_of_name {p : Nat} {n : CString} (hn : w.names p = some n) : p < MAX_NR_POOLS := by
  by_contra hp
  rw [h.range p (Nat.not_lt.mp hp)] at hn
  exact nomatch hn

omit h in
/-- A pool that was created under a name that fits is stored under it. -/
theorem stored_of_created {n : CString} (hsame : cstring n = cstring name)
    (hfits : (cstring name).length ≤ POOL_NAME_LENGTH) :
    (cstring n).take POOL_NAME_LENGTH = cstring name := by
  rw [hsame, List.take_of_length_le hfits]

omit h in
theorem length_of_stored {n : CString} (hsame : (cstring n).take POOL_NAME_LENGTH = cstring name) :
    (cstring name).length ≤ POOL_NAME_LENGTH := by
  rw [← hsame]
  exact List.length_take_le _ _

/-- A slot that is not live has no name, nor has one behind the table. -/
theorem names_none {p : Nat} (hfree : p < MAX_NR_POOLS → ¬ bitAt w.s.poolMask.1 p = false) :
    w.names p = none := by
  by_cases hp : p < MAX_NR_POOLS
  · have hdead := hfree hp
    rw [h.names_iff hp, not_exists] at hdead
    exact Option.eq_none_iff_forall_ne_some.mpr hdead
  · exact h.range p (Nat.not_lt.mp hp)

/-- The search ended at the first pool that is stored under the name. -/
theorem answers_first {k : Nat} (hk : k < MAX_NR_POOLS) (hlive : bitAt w.s.poolMask.1 k = false)
    (hstored : cstring (w.s.pools k).name = cstring name)
    (hfirst : ∀ q < k, bitAt w.s.poolMask.1 q = false →
      ¬ cstring (w.s.pools q).name = cstring name) : w.Answers name (some k) ↔ w.Tells name := by
  obtain ⟨n, hn⟩ := (h.names_iff hk).mp hlive
  have htake := (h.stored_iff name hn).mp hstored
  have hfits := length_of_stored name htake
  refine ⟨fun hcreated => Or.inr ⟨k, hcreated, ?_⟩, fun htells => ?_⟩
  · rw [if_pos hfits]
    intro q hq m hm hmtake
    have hqlt : q < MAX_NR_POOLS := hq.trans hk
    exact hfirst q hq ((h.names_iff hqlt).mpr ⟨m, hm⟩) ((h.stored_iff name hm).mpr hmtake)
  · rcases htells with hnone | ⟨p, ⟨m, hm, hsame⟩, hfront⟩
    · rw [hnone k] at hn
      exact nomatch hn
    · rw [if_pos hfits] at hfront
      have hmtake := stored_of_created name hsame hfits
      rcases Nat.lt_trichotomy p k with hpk | rfl | hkp
      · exact absurd ((h.stored_iff name hm).mpr hmtake)
          (hfirst p hpk ((h.names_iff (hpk.trans hk)).mpr ⟨m, hm⟩))
      · exact ⟨m, hm, hsame⟩
      · exact absurd htake (hfront k hkp n hn)

/-- No pool is stored under the name, and the search ended behind the last live one. -/
theorem answers_last {k : Nat} (hk : k < MAX_NR_POOLS) (hlive : bitAt w.s.poolMask.1 k = false)
    (hnone : ∀ q < MAX_NR_POOLS, bitAt w.s.poolMask.1 q = false →
      ¬ cstring (w.s.pools q).name = cstring name)
    (hlast : ∀ q, k < q → q < MAX_NR_POOLS → ¬ bitAt w.s.poolMask.1 q = false) :
    w.Answers name (some k) ↔ w.Tells name := by
  obtain ⟨n, hn⟩ := (h.names_iff hk).mp hlive
  have hlong : ∀ p, w.CreatedAs name p → ¬ (cstring name).length ≤ POOL_NAME_LENGTH := by
    rintro p ⟨m, hm, hsame⟩ hfits
    have hp := h.lt_of_name hm
    exact hnone p hp ((h.names_iff hp).mpr ⟨m, hm⟩)
      ((h.stored_iff name hm).mpr (stored_of_created name hsame hfits))
  refine ⟨fun hcreated => Or.inr ⟨k, hcreated, ?_⟩, fun htells => ?_⟩
  · rw [if_neg (hlong k hcreated)]
    exact fun q hq => h.names_none fun hqlt => hlast q hq hqlt
  · rcases htells with hall | ⟨p, hcreated, hbehind⟩
    · rw [hall k] at hn
      exact nomatch hn
    · rw [if_neg (hlong p hcreated)] at hbehind
      obtain ⟨m, hm, hsame⟩ := hcreated
      have hp := h.lt_of_name hm
      rcases Nat.lt_trichotomy p k with hpk | rfl | hkp
      · rw [hbehind k hpk] at hn
        exact nomatch hn
      · exact ⟨m, hm, hsame⟩
      · exact absurd ((h.names_iff hp).mpr ⟨m, hm⟩) (hlast p hkp hp)

/-- There is no pool. -/
theorem answers_none (hfree : ∀ q < MAX_NR_POOLS, ¬ bitAt w.s.poolMask.1 q = false) :
    w.Answers name none ↔ w.Tells name := by
  have hall : ∀ p, w.names p = none := fun p => h.names_none fun hp => hfree p hp
  refine iff_of_true (fun p hp => ?_) (Or.inl hall)
  obtain ⟨n, hn, -⟩ := hp
  rw [hall p] at hn
  exact nomatch hn

/-- `find_pool` answers rightly exactly where the names can be told apart. -/
theorem finds_iff : w.Finds name ↔ w.Tells name := by
  obtain ⟨r, hr, hsearch⟩ := findPoolLoop_search w.s name none (Nat.le_refl (0 + MAX_NR_POOLS))
  rw [Nat.zero_add] at hsearch
  have hfinds : w.Finds name ↔ w.Answers name r := by
    refine ⟨fun ⟨r', hr', hanswer⟩ => ?_, fun hanswer => ⟨r, hr, hanswer⟩⟩
    obtain rfl := Except.ok.inj (hr.symm.trans hr')
    exact hanswer
  rw [hfinds]
  cases hsearch with
  | first k _ hk hlive hstored hfirst =>
    exact h.answers_first name hk hlive hstored fun q hq => hfirst q (Nat.zero_le q) hq
  | last k _ hk hlive hnone hlast =>
    exact h.answers_last name hk hlive (fun q hq => hnone q (Nat.zero_le q) hq) hlast
  | empty hfree => exact h.answers_none name fun q hq => hfree q (Nat.zero_le q) hq

end Registered

/-- Three pools, the second of them destroyed. -/
def namedRun : List PoolOp :=
  [.create 0x1000 (some (text ['i', 'n', 'o', 'd', 'e'])) 8 2, .create 0x2000 (some [0x62]) 4 1,
    .create 0x3000 (some (text ['t', 't', 'y'])) 4 3, .destroy (some 1)]

end Ohwes

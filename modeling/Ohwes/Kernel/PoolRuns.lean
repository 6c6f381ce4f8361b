import Ohwes.Kernel.PoolSteps
import Ohwes.Library.Runs

/-! # Runs of the pool functions

A run is a list of `pool_create`, `pool_alloc`, `pool_free` and `pool_destroy` calls from the state
`init_pool` leaves. `PoolWorld` follows it with two records the code does not keep: `own p`, the
chunks `pool_create` took out of the mask for pool `p`, and `live p`, the addresses `pool_alloc` has
returned and `pool_free` has not taken back.

`pool_destroy` and `pool_free` reach for chunks by their distance from the first one of the pool.
`Placed` says that this is where the chunk is, at every such call of the run; `WorldOk` is the
invariant of the runs whose calls all meet it. -/

namespace Ohwes
set_option autoImplicit false
open Library

inductive PoolOp where
  | create (addr : Ptr) (name : Option CString) (itemSize capacity : BitVec 32)
  | alloc (pool : Option Nat)
  | free (pool : Option Nat) (item : Ptr)
  | destroy (pool : Option Nat)

structure PoolWorld where
  s : PoolState
  own : Nat → Option (List Nat)
  live : Nat → List Ptr

/-- The chunks whose bits a call has cleared. -/
def given (s t : PoolState) : List Nat :=
  (List.range MAX_NR_POOL_ITEMS).filter fun c => bitAt s.chunkMask.1 c && !bitAt t.chunkMask.1 c

namespace PoolWorld

def boot (mem : Memory) : PoolWorld where
  s := initPool (PoolState.bss mem)
  own := fun _ => none
  live := fun _ => []

def created (w : PoolWorld) (t : PoolState) : Option Nat → PoolWorld
  | none => { w with s := t }
  | some p =>
    { s := t
      own := Function.update w.own p (some (given w.s t))
      live := Function.update w.live p [] }

def allocated (w : PoolWorld) (t : PoolState) (pool : Option Nat) (x : Ptr) : PoolWorld :=
  match pool with
  | none => { w with s := t }
  | some p =>
    { w with
      s := t
      live := if x = 0 then w.live else Function.update w.live p (x :: w.live p) }

/-- `pool_free` takes back the item that `x` points into. -/
def freed (w : PoolWorld) (t : PoolState) (pool : Option Nat) (x : Ptr) (r : Int) : PoolWorld :=
  match pool with
  | none => { w with s := t }
  | some p =>
    { w with
      s := t
      live := if r = 0 then
          Function.update w.live p ((w.live p).erase (itemAddr w.s p (itemIndex w.s p x)))
        else w.live }

def destroyed (w : PoolWorld) (t : PoolState) : Option Nat → PoolWorld
  | none => { w with s := t }
  | some p =>
    { s := t, own := Function.update w.own p none, live := Function.update w.live p [] }

end PoolWorld

def poolStep (w : PoolWorld) : PoolOp → Call PoolWorld
  | .create addr name itemSize capacity => do
    let x ← poolCreate w.s addr name itemSize capacity
    .ok (w.created x.2 x.1)
  | .alloc pool => do
    let x ← poolAlloc w.s pool
    .ok (w.allocated x.2 pool x.1)
  | .free pool item => do
    let x ← poolFree w.s pool item
    .ok (w.freed x.2 pool item x.1)
  | .destroy pool => do
    let t ← poolDestroy w.s pool
    .ok (w.destroyed t pool)

/-! ## The condition on the calls -/

/-- Where `pool_free` looks for the chunk of the item that `item` points into, there is that chunk,
or a record that fails an assertion. -/
def FindsChunk (s : PoolState) (p : Nat) (cs : List Nat) (item : Ptr) : Prop :=
  addrValid s p item = true → ∀ base ∈ cs[0]?, itemIndex s p item < cs.length →
    cs[itemIndex s p item]? = some (base + itemIndex s p item) ∨
      (s.chunks (base + itemIndex s p item)).index ≠ itemIndex s p item ∨
      (s.chunks (base + itemIndex s p item)).data = 0

instance (s : PoolState) (p : Nat) (cs : List Nat) (item : Ptr) :
    Decidable (FindsChunk s p cs item) :=
  inferInstanceAs (Decidable (_ → _))

/-- `pool_destroy` is only used on pools in consecutive chunks, and `pool_free` finds its chunk. -/
def Placed (w : PoolWorld) : PoolOp → Prop
  | .free (some p) item => ∀ cs ∈ w.own p, FindsChunk w.s p cs item
  | .destroy (some p) => ∀ cs ∈ w.own p, Consecutive cs
  | _ => True

instance decidablePlaced (w : PoolWorld) : (op : PoolOp) → Decidable (Placed w op)
  | .create .. | .alloc _ | .free none _ | .destroy none => .isTrue trivial
  | .free (some p) item => inferInstanceAs (Decidable (∀ cs ∈ w.own p, FindsChunk w.s p cs item))
  | .destroy (some p) => inferInstanceAs (Decidable (∀ cs ∈ w.own p, Consecutive cs))

/-! ## The invariant -/

/-- The addresses held by the chunks `cs`. -/
def heldItems (s : PoolState) (cs : List Nat) : List Ptr :=
  (cs.map fun c => (s.chunks c).data).filter (· ≠ 0)

structure WorldOk (w : PoolWorld) : Prop where
  pool : ∀ p cs, w.own p = some cs →
    ∃ free, PoolOk w.s p cs free ∧ (w.live p).Perm (heldItems w.s cs)
  dead : ∀ p, w.own p = none → poolValid w.s p = false
  slot : ∀ p, bitAt w.s.poolMask.1 p = true → w.own p = none
  mask : ∀ c, c < MAX_NR_POOL_ITEMS →
    (bitAt w.s.chunkMask.1 c = true ↔ ∀ p cs, w.own p = some cs → c ∉ cs)
  disjoint : ∀ p q cs ds, w.own p = some cs → w.own q = some ds → p ≠ q → ∀ c ∈ cs, c ∉ ds

theorem Created.bit {s t : PoolState} {p : Nat} {cs : List Nat} (h : Created s t p cs) (c : Nat) :
    bitAt s.chunkMask.1 c = true ↔ c ∈ cs ∨ bitAt t.chunkMask.1 c = true := by
  rw [← mem_setBits (by omega), ← mem_setBits (by omega), h.mask, List.mem_append]

theorem Created.fresh {s t : PoolState} {p : Nat} {cs : List Nat} (h : Created s t p cs) (c : Nat)
    (hc : c ∈ cs) : bitAt t.chunkMask.1 c = false := by
  have hnd : (cs ++ setBits t.chunkMask.1).Nodup := by
    rw [← h.mask]
    exact setBits_nodup _
  have hn : c ∉ setBits t.chunkMask.1 := fun hm => List.disjoint_of_nodup_append hnd hc hm
  rw [mem_setBits (by omega)] at hn
  simpa using hn

theorem given_eq {s t : PoolState} {p : Nat} {cs : List Nat} (h : Created s t p cs) :
    given s t = cs := by
  have h1 : given s t = (setBits s.chunkMask.1).filter fun c => !bitAt t.chunkMask.1 c := by
    have hlen : 32 * s.chunkMask.1.length = MAX_NR_POOL_ITEMS := by rw [s.chunkMask.2]; rfl
    rw [given, setBits, hlen, List.filter_filter]
    exact List.filter_congr fun c _ => Bool.and_comm ..
  rw [h1, h.mask, List.filter_append]
  have h2 : (setBits t.chunkMask.1).filter (fun c => !bitAt t.chunkMask.1 c) = [] := by
    rw [List.filter_eq_nil_iff]
    intro c hc
    simp [(mem_setBits (by omega)).mp hc]
  have h3 : cs.filter (fun c => !bitAt t.chunkMask.1 c) = cs := by
    rw [List.filter_eq_self]
    intro c hc
    simp [h.fresh c hc]
  rw [h2, h3, List.append_nil]

/-- Giving one chunk of `cs` an address puts that address among those held. -/
theorem heldItems_perm {s t : PoolState} {cs : List Nat} {c : Nat} (hnd : cs.Nodup) (hc : c ∈ cs)
    (hs : (s.chunks c).data = 0) (ht : (t.chunks c).data ≠ 0)
    (hsame : ∀ d, d ≠ c → t.chunks d = s.chunks d) :
    (heldItems t cs).Perm ((t.chunks c).data :: heldItems s cs) := by
  obtain ⟨l, r, rfl⟩ := List.append_of_mem hc
  have hl : ∀ m : List Nat, c ∉ m →
      (m.map fun d => (t.chunks d).data) = m.map fun d => (s.chunks d).data := by
    intro m hm
    refine List.map_congr_left fun d hd => ?_
    rw [hsame d fun e => hm (e ▸ hd)]
  have hnd' := List.nodup_middle.mp hnd
  have hcl : c ∉ l := fun hm => (List.nodup_cons.mp hnd').1 (List.mem_append_left _ hm)
  have hcr : c ∉ r := fun hm => (List.nodup_cons.mp hnd').1 (List.mem_append_right _ hm)
  simp only [heldItems, List.map_append, List.map_cons, hl l hcl, hl r hcr, List.filter_append,
    List.filter_cons, hs, ht, ne_eq, not_true_eq_false, decide_false, decide_true,
    not_false_eq_true, if_true, Bool.false_eq_true, if_false]
  exact List.perm_middle

theorem heldItems_congr {s t : PoolState} {cs : List Nat}
    (h : ∀ c ∈ cs, t.chunks c = s.chunks c) : heldItems t cs = heldItems s cs := by
  unfold heldItems
  congr 1
  exact List.map_congr_left fun c hc => by rw [h c hc]

/-- A pool all of whose chunks are free holds no address. -/
theorem PoolOk.heldItems_nil {s : PoolState} {p : Nat} {cs : List Nat} (h : PoolOk s p cs cs) :
    heldItems s cs = [] := by
  rw [heldItems, List.filter_eq_nil_iff]
  intro x hx
  obtain ⟨c, hc, rfl⟩ := List.mem_map.mp hx
  simp [h.freeData c hc]

theorem bitAt_ones {n i : Nat} (h : i < 32 * n) : bitAt (BitString.ones n).1 i = true := by
  have h1 : i / 32 < n := by omega
  have h2 : i % 32 < 32 := Nat.mod_lt i (by omega)
  unfold bitAt BitString.ones
  rw [List.getD_eq_getElem?_getD, List.getElem?_replicate, if_pos h1, Option.getD_some,
    BitVec.getLsbD_allOnes]
  exact decide_eq_true h2

theorem WorldOk.boot (mem : Memory) : WorldOk (PoolWorld.boot mem) where
  pool p cs h := by cases h
  dead p _ := by simp [poolValid, PoolWorld.boot, initPool, PoolState.bss, Pool.zero, POOL_MAGIC]
  slot p _ := rfl
  mask c hc := by
    have h := bitAt_ones (n := 8) (i := c) (by unfold MAX_NR_POOL_ITEMS at hc; omega)
    refine ⟨fun _ p cs hp => ?_, fun _ => h⟩
    cases hp
  disjoint p q cs ds h := by cases h

/-! ## Every call keeps it -/

section Step
variable {w : PoolWorld}

/-- What happens in pool `p` and the chunks `cs` does not touch a pool of other chunks. -/
theorem WorldOk.other {t : PoolState} {p q : Nat} {cs ds : List Nat} (hw : WorldOk w)
    (hq : w.own q = some ds) (hout : SameOutside w.s t p cs) (hqp : q ≠ p)
    (hdis : ∀ c ∈ ds, c ∉ cs) :
    ∃ free, PoolOk t q ds free ∧ (w.live q).Perm (heldItems t ds) := by
  obtain ⟨free, hok, hperm⟩ := hw.pool q ds hq
  refine ⟨free, hok.frame hout hqp hdis, ?_⟩
  rw [heldItems_congr fun c hc => hout.chunks c (hdis c hc)]
  exact hperm

theorem WorldOk.other_dead {t : PoolState} {p q : Nat} {cs : List Nat} (hw : WorldOk w)
    (hq : w.own q = none) (hout : SameOutside w.s t p cs) (hqp : q ≠ p) : poolValid t q = false :=
  (poolValid_of_pools (hout.pools q hqp)).trans (hw.dead q hq)

/-- A step on pool `p` that keeps its invariant keeps that of the world. -/
theorem WorldOk.update {t : PoolState} {live : Nat → List Ptr} {p : Nat} {cs free : List Nat}
    (hw : WorldOk w) (hp : w.own p = some cs) (hout : SameOutside w.s t p cs)
    (hok : PoolOk t p cs free) (hcm : t.chunkMask = w.s.chunkMask)
    (hpm : t.poolMask = w.s.poolMask) (hlive : ∀ q, q ≠ p → live q = w.live q)
    (hperm : (live p).Perm (heldItems t cs)) :
    WorldOk { s := t, own := w.own, live := live } where
  pool q ds hq := by
    by_cases hqp : q = p
    · subst hqp
      have hd : cs = ds := Option.some.inj (hp.symm.trans hq)
      subst hd
      exact ⟨free, hok, hperm⟩
    · show ∃ free, PoolOk t q ds free ∧ (live q).Perm (heldItems t ds)
      rw [hlive q hqp]
      exact hw.other hq hout hqp (hw.disjoint q p ds cs hq hp hqp)
  dead q hq := by
    have hqp : q ≠ p := by
      rintro rfl
      rw [hp] at hq
      cases hq
    exact hw.other_dead hq hout hqp
  slot q hq := hw.slot q (hpm ▸ hq)
  mask c hc := by
    show bitAt t.chunkMask.1 c = true ↔ _
    rw [hcm]
    exact hw.mask c hc
  disjoint := hw.disjoint

theorem WorldOk.relive {live : Nat → List Ptr} (hw : WorldOk w)
    (h : ∀ p cs, w.own p = some cs → live p = w.live p) :
    WorldOk { s := w.s, own := w.own, live := live } where
  pool p cs hp := by
    obtain ⟨free, hok, hperm⟩ := hw.pool p cs hp
    refine ⟨free, hok, ?_⟩
    show (live p).Perm _
    rw [h p cs hp]
    exact hperm
  dead := hw.dead
  slot := hw.slot
  mask := hw.mask
  disjoint := hw.disjoint

/-- A new pool gets no chunk of another pool. -/
theorem WorldOk.fresh {t : PoolState} {p q : Nat} {cs ds : List Nat} (hw : WorldOk w)
    (hc : Created w.s t p cs) (hq : w.own q = some ds) : ∀ c ∈ ds, c ∉ cs := by
  intro c hcd hcc
  have hbit : bitAt w.s.chunkMask.1 c = true := (hc.bit c).mpr (Or.inl hcc)
  exact (hw.mask c (hc.ok.bound c hcc)).mp hbit q ds hq hcd

theorem WorldOk.create {t : PoolState} {p : Nat} {cs : List Nat} (hw : WorldOk w)
    (hc : Created w.s t p cs) : WorldOk (w.created t (some p)) := by
  have hnone := hw.slot p hc.slot
  have hp : p < 32 := by
    have := bitAt_lt (by omega) hc.slot
    rwa [w.s.poolMask.2] at this
  have hown : (w.created t (some p)).own = Function.update w.own p (some cs) := by
    show Function.update w.own p (some (given w.s t)) = _
    rw [given_eq hc]
  have hlive : (w.created t (some p)).live = Function.update w.live p [] := rfl
  have hcase : ∀ q ds, (w.created t (some p)).own q = some ds →
      (q = p ∧ ds = cs) ∨ (q ≠ p ∧ w.own q = some ds) := by
    intro q ds hq
    rw [hown, Function.update_apply] at hq
    by_cases hqp : q = p
    · rw [if_pos hqp] at hq
      exact Or.inl ⟨hqp, (Option.some.inj hq).symm⟩
    · rw [if_neg hqp] at hq
      exact Or.inr ⟨hqp, hq⟩
  refine ⟨?_, ?_, ?_, ?_, ?_⟩
  · intro q ds hq
    obtain ⟨rfl, rfl⟩ | ⟨hqp, hq⟩ := hcase q ds hq
    · refine ⟨ds, hc.ok, ?_⟩
      show (w.created t (some q)).live q |>.Perm (heldItems t ds)
      rw [hlive, Function.update_self, hc.ok.heldItems_nil]
    · rw [hlive, Function.update_of_ne hqp]
      exact hw.other hq hc.outside hqp (hw.fresh hc hq)
  · intro q hq
    rw [hown, Function.update_apply] at hq
    by_cases hqp : q = p
    · rw [if_pos hqp] at hq
      cases hq
    · rw [if_neg hqp] at hq
      exact hw.other_dead hq hc.outside hqp
  · intro q hq
    have hbit : bitAt t.poolMask.1 q = true := hq
    rw [hc.poolMask, bitAt_clearAt ((lt_bits w.s.poolMask).mpr (by omega))] at hbit
    simp only [Bool.and_eq_true, Bool.not_eq_true', decide_eq_false_iff_not] at hbit
    rw [hown, Function.update_of_ne hbit.2]
    exact hw.slot q hbit.1
  · intro c hcb
    show bitAt t.chunkMask.1 c = true ↔ _
    constructor
    · intro hbit q ds hq hcd
      obtain ⟨rfl, rfl⟩ | ⟨hqp, hq⟩ := hcase q ds hq
      · rw [hc.fresh c hcd] at hbit
        cases hbit
      · exact (hw.mask c hcb).mp ((hc.bit c).mpr (Or.inr hbit)) q ds hq hcd
    · intro hall
      have hcs : c ∉ cs := hall p cs (by rw [hown, Function.update_self])
      refine ((hc.bit c).mp ((hw.mask c hcb).mpr fun q ds hq => ?_)).resolve_left hcs
      have hqp : q ≠ p := by
        rintro rfl
        rw [hnone] at hq
        cases hq
      exact hall q ds (by rw [hown, Function.update_of_ne hqp]; exact hq)
  · intro q r ds es hq hr hne c hcd hce
    obtain ⟨hqp, hd⟩ | ⟨hqp, hqo⟩ := hcase q ds hq
    · obtain ⟨hrp, he⟩ | ⟨hrp, hro⟩ := hcase r es hr
      · exact hne (hqp.trans hrp.symm)
      · exact hw.fresh hc hro c hce (hd ▸ hcd)
    · obtain ⟨hrp, he⟩ | ⟨hrp, hro⟩ := hcase r es hr
      · exact hw.fresh hc hqo c hcd (he ▸ hce)
      · exact hw.disjoint q r ds es hqo hro hne c hcd hce

theorem poolAlloc_dead {p : Nat} (h : poolValid w.s p = false) :
    poolAlloc w.s (some p) = .ok (0, w.s) := by
  simp only [poolAlloc, h, Bool.not_false, if_true]

theorem WorldOk.alloc {t : PoolState} {p : Nat} {x : Ptr} (hw : WorldOk w)
    (h : poolAlloc w.s (some p) = .ok (x, t)) : WorldOk (w.allocated t (some p) x) := by
  have hsame : ∀ {u : PoolState}, u = w.s → WorldOk (w.allocated u (some p) 0) := by
    intro u hu
    subst hu
    exact hw.relive fun _ _ _ => rfl
  cases hp : w.own p with
  | none =>
    rw [poolAlloc_dead (hw.dead p hp)] at h
    obtain ⟨rfl, rfl⟩ := Prod.mk.inj (Except.ok.inj h)
    exact hsame rfl
  | some cs =>
    obtain ⟨free, hok, hperm⟩ := hw.pool p cs hp
    cases free with
    | nil =>
      rw [hok.poolAlloc_nil] at h
      obtain ⟨rfl, rfl⟩ := Prod.mk.inj (Except.ok.inj h)
      exact hsame rfl
    | cons c rest =>
      have hc : c ∈ cs := hok.freeSub c (List.mem_cons_self ..)
      obtain ⟨i, hi⟩ := List.getElem?_of_mem hc
      rw [hok.poolAlloc_cons hi] at h
      obtain ⟨rfl, rfl⟩ := Prod.mk.inj (Except.ok.inj h)
      have hdata : ((allocChunk w.s p c).chunks c).data = itemAddr w.s p i := by
        rw [allocChunk_chunks, if_pos rfl, hok.index i c hi]
      have hothers : ∀ d, d ≠ c → (allocChunk w.s p c).chunks d = w.s.chunks d := by
        intro d hd
        rw [allocChunk_chunks, if_neg hd]
      refine hw.update hp hok.allocChunk_outside hok.afterAlloc rfl rfl ?_ ?_
      · intro q hq
        show (if _ then _ else _ : Nat → List Ptr) q = _
        split
        · rfl
        · exact Function.update_of_ne hq ..
      · show ((if _ then _ else _ : Nat → List Ptr) p).Perm _
        split
        · rename_i h0
          have hdata0 : ((allocChunk w.s p c).chunks c).data = (w.s.chunks c).data := by
            rw [hdata, h0, hok.freeData c (List.mem_cons_self ..)]
          have heq : heldItems (allocChunk w.s p c) cs = heldItems w.s cs := by
            unfold heldItems
            congr 1
            refine List.map_congr_left fun d _ => ?_
            by_cases hdc : d = c
            · rw [hdc, hdata0]
            · rw [hothers d hdc]
          rw [heq]
          exact hperm
        · rename_i h0
          rw [Function.update_self]
          have h1 := heldItems_perm hok.nodup hc (hok.freeData c (List.mem_cons_self ..))
            (hdata ▸ h0) hothers
          rw [hdata] at h1
          exact (hperm.cons _).trans h1.symm

/-- The chunk `pool_free` has found is the one of the item. -/
theorem WorldOk.found {p base : Nat} {cs : List Nat} {item : Ptr} (hw : WorldOk w)
    (hp : w.own p = some cs) (hfind : FindsChunk w.s p cs item)
    (ha : addrValid w.s p item = true)
    (hlt : itemIndex w.s p item < (w.s.pools p).capacity.toNat)
    (hbase : (w.s.pools p).chunkBase = some base)
    (hidx : (w.s.chunks (base + itemIndex w.s p item)).index = itemIndex w.s p item)
    (hdata : (w.s.chunks (base + itemIndex w.s p item)).data ≠ 0) :
    cs[itemIndex w.s p item]? = some (base + itemIndex w.s p item) := by
  obtain ⟨free, hok, _⟩ := hw.pool p cs hp
  rw [← hok.length] at hlt
  have hfirst : cs[0]? = some base := by
    have h0 : cs[0]? = some cs[0] := List.getElem?_eq_getElem (by omega)
    have h1 := hok.chunkBase _ h0
    rw [hbase] at h1
    exact h0.trans h1.symm
  obtain h | h | h := hfind ha base hfirst hlt
  · exact h
  · exact absurd hidx h
  · exact absurd h hdata

theorem WorldOk.free {t : PoolState} {p : Nat} {item : Ptr} {r : Int} (hw : WorldOk w)
    (hplaced : Placed w (.free (some p) item)) (h : poolFree w.s (some p) item = .ok (r, t)) :
    WorldOk (w.freed t (some p) item r) := by
  obtain ⟨hr, rfl⟩ | ⟨p', base, hpp, rfl, hv, _, ha, hlt, hbase, hidx, hdata, rfl⟩ := poolFree_ok h
  · have hr0 : r ≠ 0 := by
      obtain rfl | rfl := hr
      · decide
      · decide
    refine hw.relive fun q _ _ => ?_
    rw [if_neg hr0]
  · obtain rfl := Option.some.inj hpp
    cases hp : w.own p with
    | none =>
      rw [hw.dead p hp] at hv
      cases hv
    | some cs =>
      obtain ⟨free, hok, hperm⟩ := hw.pool p cs hp
      have hi := hw.found hp (hplaced cs hp) ha hlt hbase hidx hdata
      have hc := List.mem_of_getElem? hi
      have hused : base + itemIndex w.s p item ∉ free := fun hm => hdata (hok.freeData _ hm)
      refine hw.update hp (hok.freeChunk_outside hc) (hok.afterFree hc hused) rfl rfl ?_ ?_
      · intro q hq
        rw [if_pos rfl, Function.update_of_ne hq]
      · rw [if_pos rfl, Function.update_self]
        have hothers : ∀ d, d ≠ base + itemIndex w.s p item →
            w.s.chunks d = (freeChunk w.s p (base + itemIndex w.s p item)).chunks d := by
          intro d hd
          rw [freeChunk_chunks, if_neg hd]
        have h1 := heldItems_perm hok.nodup hc (by rw [freeChunk_chunks, if_pos rfl]) hdata hothers
        rw [hok.usedData _ _ hi hused] at h1
        have h2 := (hperm.trans h1).erase (itemAddr w.s p (itemIndex w.s p item))
        rwa [List.erase_cons_head] at h2

theorem WorldOk.destroy {t : PoolState} {p : Nat} {cs : List Nat} (hw : WorldOk w)
    (hp : w.own p = some cs) (hd : Destroyed w.s t p cs) : WorldOk (w.destroyed t (some p)) := by
  have hcase : ∀ q ds, (w.destroyed t (some p)).own q = some ds → q ≠ p ∧ w.own q = some ds := by
    intro q ds hq
    have hq' : Function.update w.own p none q = some ds := hq
    rw [Function.update_apply] at hq'
    by_cases hqp : q = p
    · rw [if_pos hqp] at hq'
      cases hq'
    · rw [if_neg hqp] at hq'
      exact ⟨hqp, hq'⟩
  refine ⟨?_, ?_, ?_, ?_, ?_⟩
  · intro q ds hq
    obtain ⟨hqp, hq⟩ := hcase q ds hq
    show ∃ free, PoolOk t q ds free ∧ (Function.update w.live p [] q).Perm (heldItems t ds)
    rw [Function.update_of_ne hqp]
    exact hw.other hq hd.outside hqp (hw.disjoint q p ds cs hq hp hqp)
  · intro q hq
    by_cases hqp : q = p
    · rw [hqp]
      exact hd.dead
    · have hq' : Function.update w.own p none q = none := hq
      rw [Function.update_of_ne hqp] at hq'
      exact hw.other_dead hq' hd.outside hqp
  · intro q hq
    show Function.update w.own p none q = none
    by_cases hqp : q = p
    · rw [hqp, Function.update_self]
    · rw [Function.update_of_ne hqp]
      have hbit : bitAt t.poolMask.1 q = true := hq
      rw [hd.poolMask] at hbit
      simp only [hqp, decide_false, Bool.or_false] at hbit
      exact hw.slot q hbit
  · intro c hcb
    show bitAt t.chunkMask.1 c = true ↔ _
    rw [hd.mask, Bool.or_eq_true, decide_eq_true_eq]
    constructor
    · intro h q ds hq hcd
      obtain ⟨hqp, hq⟩ := hcase q ds hq
      obtain h | h := h
      · exact (hw.mask c hcb).mp h q ds hq hcd
      · exact hw.disjoint q p ds cs hq hp hqp c hcd h
    · intro hall
      by_cases hcs : c ∈ cs
      · exact Or.inr hcs
      · refine Or.inl ((hw.mask c hcb).mpr fun q ds hq hcd => ?_)
        have hqp : q ≠ p := by
          rintro rfl
          rw [hp] at hq
          cases hq
          exact hcs hcd
        have hq' : (w.destroyed t (some p)).own q = some ds := by
          show Function.update w.own p none q = some ds
          rw [Function.update_of_ne hqp]
          exact hq
        exact hall q ds hq' hcd
  · intro q r ds es hq hr
    exact hw.disjoint q r ds es (hcase q ds hq).2 (hcase r es hr).2

theorem poolDestroy_dead {p : Nat} (h : poolValid w.s p = false) :
    poolDestroy w.s (some p) = .ok w.s := by
  simp only [poolDestroy, h, Bool.false_eq_true, if_false]

/-- **Step.** A call that meets the condition keeps the invariant. -/
theorem poolStep_ok {w' : PoolWorld} {op : PoolOp} (hw : WorldOk w) (hplaced : Placed w op)
    (h : poolStep w op = .ok w') : WorldOk w' := by
  cases op with
  | create addr name itemSize capacity =>
    obtain ⟨⟨r, t⟩, hx, hr⟩ := bind_ok.mp h
    cases hr
    obtain ⟨rfl, rfl, _⟩ | ⟨p, cs, rfl, hc, _⟩ := poolCreate_ok hx
    · exact hw
    · exact hw.create hc
  | alloc pool =>
    obtain ⟨⟨x, t⟩, hx, hr⟩ := bind_ok.mp h
    cases hr
    cases pool with
    | none =>
      cases hx
      exact hw
    | some p => exact hw.alloc hx
  | free pool item =>
    obtain ⟨⟨r, t⟩, hx, hr⟩ := bind_ok.mp h
    cases hr
    cases pool with
    | none =>
      cases hx
      exact hw
    | some p => exact hw.free hplaced hx
  | destroy pool =>
    obtain ⟨t, hx, hr⟩ := bind_ok.mp h
    cases hr
    cases pool with
    | none =>
      cases hx
      exact hw
    | some p =>
      cases hp : w.own p with
      | none =>
        rw [poolDestroy_dead (hw.dead p hp)] at hx
        cases hx
        have hsame : w.destroyed w.s (some p) =
            { s := w.s, own := w.own, live := Function.update w.live p [] } := by
          simp only [PoolWorld.destroyed, PoolWorld.mk.injEq, true_and, and_true]
          rw [← hp, Function.update_eq_self]
        rw [hsame]
        refine hw.relive fun q ds hq => ?_
        have hqp : q ≠ p := by
          rintro rfl
          rw [hp] at hq
          cases hq
        rw [Function.update_of_ne hqp]
      | some cs =>
        obtain ⟨free, hok, _⟩ := hw.pool p cs hp
        obtain ⟨t', ht, hd⟩ := hok.poolDestroy_consecutive (hplaced cs hp)
        rw [ht] at hx
        cases hx
        exact hw.destroy hp hd

end Step

end Ohwes

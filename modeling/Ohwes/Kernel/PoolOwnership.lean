import Mathlib.Data.List.Perm.Subperm
import Ohwes.Kernel.PoolRuns

/-! # Who owns a chunk, and what a release touches

In a run whose `pool_free` and `pool_destroy` calls reach the chunks they are meant to (`Placed`),
every chunk has at most one owner, the chunk mask is the complement of the owned chunks, a
destruction gives back the pool's own chunks and nothing else changes (`pool_ownership`), and a
`pool_free` of an outstanding item frees the chunk that holds it exactly when that chunk is where
the address arithmetic points (`poolFree_outstanding`).

Without the condition both fail: a pool created over a hole in the mask gets chunks that do not
follow each other. -/

namespace Ohwes
set_option autoImplicit false
open Library

/-- The free list of pool `p`, as iterating over it visits it. -/
def freeList (s : PoolState) (p : Nat) : List Node :=
  listIterator s.links (.head p) (MAX_NR_POOL_ITEMS + 1)

theorem PoolOk.freeList_eq {s : PoolState} {p : Nat} {cs free : List Nat}
    (h : PoolOk s p cs free) : freeList s p = free.map .chunk := by
  apply listIterator_eq h.links
  have hsub : free ⊆ List.range MAX_NR_POOL_ITEMS :=
    fun c hc => List.mem_range.mpr (h.bound c (h.freeSub c hc))
  have hle := (h.free_nodup.subperm hsub).length_le
  rw [List.length_range] at hle
  rw [List.length_map]
  omega

/-- A pool none of whose chunks is touched keeps its record, its chunks and its free list. -/
structure PoolUnchanged (s t : PoolState) (q : Nat) (ds : List Nat) : Prop where
  pool : t.pools q = s.pools q
  chunks : ∀ c ∈ ds, t.chunks c = s.chunks c
  list : freeList t q = freeList s q

theorem WorldOk.unchanged {w : PoolWorld} {t : PoolState} {p q : Nat} {cs ds : List Nat}
    (hw : WorldOk w) (hout : SameOutside w.s t p cs) (hp : w.own p = some cs)
    (hq : w.own q = some ds) (hqp : q ≠ p) : PoolUnchanged w.s t q ds := by
  obtain ⟨free, hok, _⟩ := hw.pool q ds hq
  have hdis := hw.disjoint q p ds cs hq hp hqp
  refine ⟨hout.pools q hqp, fun c hc => hout.chunks c (hdis c hc), ?_⟩
  rw [hok.freeList_eq, (hok.frame hout hqp hdis).freeList_eq]

/-! ## Ownership -/

/-- No chunk has two owners, the record of a chunk names its owner, and the bit of a chunk is clear
exactly when it has one. -/
structure Ownership (w : PoolWorld) : Prop where
  unique : ∀ p q cs ds c, w.own p = some cs → w.own q = some ds → c ∈ cs → c ∈ ds → p = q
  owner : ∀ p cs c, w.own p = some cs → c ∈ cs → (w.s.chunks c).pool = some p
  mask : ∀ c, c < MAX_NR_POOL_ITEMS →
    (bitAt w.s.chunkMask.1 c = false ↔ ∃ p cs, w.own p = some cs ∧ c ∈ cs)

/-- `pool_destroy` of pool `p` comes back, gives back exactly its chunks `cs`, and leaves the other
live pools and the memory of all items as they are. -/
def DestroysExactly (w : PoolWorld) (p : Nat) (cs : List Nat) : Prop :=
  ∃ t, poolDestroy w.s (some p) = .ok t ∧
    (∀ c, bitAt t.chunkMask.1 c = (bitAt w.s.chunkMask.1 c || decide (c ∈ cs))) ∧
    (∀ q ds, q ≠ p → w.own q = some ds → PoolUnchanged w.s t q ds) ∧ t.mem = w.s.mem

/-- What a call does to ownership: a destruction is exact, the other calls have nothing to show. -/
def StepExact (w : PoolWorld) : PoolOp → Prop
  | .destroy (some p) => ∀ cs, w.own p = some cs → DestroysExactly w p cs
  | _ => True

theorem WorldOk.ownership {w : PoolWorld} (hw : WorldOk w) : Ownership w where
  unique p q cs ds c hp hq hc hd := by
    by_contra hne
    exact hw.disjoint p q cs ds hp hq hne c hc hd
  owner p cs c hp hc := by
    obtain ⟨free, hok, _⟩ := hw.pool p cs hp
    exact hok.owner c hc
  mask c hc := by
    have h := hw.mask c hc
    constructor
    · intro h0
      by_contra hn
      have h1 : bitAt w.s.chunkMask.1 c = true :=
        h.mpr fun p cs hp hm => hn ⟨p, cs, hp, hm⟩
      rw [h0] at h1
      cases h1
    · rintro ⟨p, cs, hp, hm⟩
      by_contra hn
      exact h.mp (by simpa using hn) p cs hp hm

theorem WorldOk.stepExact {w : PoolWorld} {op : PoolOp} (hw : WorldOk w) (h : Placed w op) :
    StepExact w op := by
  cases op with
  | destroy pool =>
    cases pool with
    | none => trivial
    | some p =>
      intro cs hp
      obtain ⟨free, hok, _⟩ := hw.pool p cs hp
      obtain ⟨t, ht, hd⟩ := hok.poolDestroy_consecutive (h cs hp)
      exact ⟨t, ht, hd.mask, fun q ds hqp hq => hw.unchanged hd.outside hp hq hqp, hd.mem⟩
  | _ => trivial

/-- Two pools, allocation and release in them, destruction and re-creation over the same chunks. -/
def refillRun : List PoolOp :=
  [.create 0x1000 (some [0x61]) 8 2, .create 0x2000 (some [0x62]) 4 3, .alloc (some 0),
    .alloc (some 0), .alloc (some 1), .free (some 0) 0x1008, .free (some 1) 0x2000,
    .destroy (some 0), .create 0x3000 (some [0x63]) 16 2, .alloc (some 0)]

/-- The third pool gets chunks 0 and 2, on both sides of the chunk of the second. -/
def fragmentRun : List PoolOp :=
  [.create 0x1000 (some [0x61]) 8 1, .create 0x2000 (some [0x62]) 8 1, .destroy (some 0),
    .create 0x3000 (some [0x63]) 8 2]

/-- `pool_free` of pool `p` has freed chunk `c` and nothing else. -/
structure FreesExactly (w : PoolWorld) (t : PoolState) (p c : Nat) : Prop where
  data : (t.chunks c).data = 0
  list : freeList t p = .chunk c :: freeList w.s p
  alloc : (t.pools p).alloc = .chunk c
  chunks : ∀ d, d ≠ c → t.chunks d = w.s.chunks d
  others : ∀ q ds, q ≠ p → w.own q = some ds → PoolUnchanged w.s t q ds
  masks : t.chunkMask = w.s.chunkMask ∧ t.poolMask = w.s.poolMask
  mem : t.mem = w.s.mem

/-- Chunk `c` of pool `p`, which holds `x`, is where `pool_free` looks: the address is inside the
area, the offset of the item does not overflow, and the chunk is as far from the first one as its
number in the pool says. -/
def Located (s : PoolState) (p : Nat) (x : Ptr) (c : Nat) : Prop :=
  addrValid s p x = true ∧ (s.pools p).itemSize.toNat * (s.chunks c).index < 2 ^ 32 ∧
    ∃ base, (s.pools p).chunkBase = some base ∧ base + (s.chunks c).index = c

theorem mem_heldItems {s : PoolState} {cs : List Nat} {x : Ptr} :
    x ∈ heldItems s cs ↔ x ≠ 0 ∧ ∃ c ∈ cs, (s.chunks c).data = x := by
  rw [heldItems, List.mem_filter, List.mem_map]
  simp only [decide_eq_true_eq, and_comm]

/-- Without overflow, the number of an item is recovered from its address. -/
theorem itemIndex_itemAddr {s : PoolState} {p i : Nat} (h0 : (s.pools p).itemSize ≠ 0)
    (hi : i < 2 ^ 32) (hfit : (s.pools p).itemSize.toNat * i < 2 ^ 32) :
    itemIndex s p (itemAddr s p i) = i := by
  have hpos : 0 < (s.pools p).itemSize.toNat := by
    apply Nat.pos_of_ne_zero
    intro h
    exact h0 (BitVec.eq_of_toNat_eq h)
  have hsub : itemAddr s p i - (s.pools p).base = (s.pools p).itemSize * BitVec.ofNat 32 i := by
    rw [itemAddr, BitVec.add_comm, BitVec.add_sub_cancel]
  rw [itemIndex, hsub, BitVec.toNat_mul, BitVec.toNat_ofNat, Nat.mod_eq_of_lt hi,
    Nat.mod_eq_of_lt hfit, Nat.mul_div_cancel_left i hpos]

theorem PoolOk.poolFree_located {s : PoolState} {p c : Nat} {cs free : List Nat} {x : Ptr}
    (hok : PoolOk s p cs free) (hx : x ≠ 0) (hc : c ∈ cs) (hcx : (s.chunks c).data = x)
    (hloc : Located s p x c) :
    c ∉ free ∧ poolFree s (some p) x = .ok (0, freeChunk s p c) := by
  obtain ⟨ha, hfit, base, hbase, hbc⟩ := hloc
  obtain ⟨i, hi⟩ := List.getElem?_of_mem hc
  have hidx := hok.index i c hi
  rw [hidx] at hfit hbc
  have hused : c ∉ free := by
    intro hm
    exact hx (hcx ▸ hok.freeData c hm)
  have hlt : i < (s.pools p).capacity.toNat := by
    rw [← hok.length]
    exact (List.getElem?_eq_some_iff.mp hi).1
  have hmax := hok.bound c hc
  have hcb : c < 256 := hmax
  have hsize := itemSize_ne_zero hok.valid ha
  have hix : itemIndex s p x = i := by
    rw [← hcx, hok.usedData i c hi hused]
    exact itemIndex_itemAddr hsize (by omega) hfit
  have h31 : i < 2 ^ 31 := by omega
  refine ⟨hused, ?_⟩
  simp only [poolFree, hok.valid, hx, ha, hsize, hix, h31, hlt, hbase, hmax, hbc, hidx, hcx,
    Bool.not_true, decide_false, Bool.or_self, Bool.false_eq_true, if_false, decide_true,
    Bool.and_self, assert_true, ok_bind, if_true, ne_eq, not_false_eq_true]

theorem WorldOk.free_located {w : PoolWorld} {p c : Nat} {cs : List Nat} {x : Ptr}
    (hw : WorldOk w) (hp : w.own p = some cs) (hx : x ≠ 0) (hc : c ∈ cs)
    (hcx : (w.s.chunks c).data = x) (hloc : Located w.s p x c) :
    ∃ t, poolFree w.s (some p) x = .ok (0, t) ∧ FreesExactly w t p c := by
  obtain ⟨free, hok, _⟩ := hw.pool p cs hp
  obtain ⟨hused, hfree⟩ := hok.poolFree_located hx hc hcx hloc
  have hout := hok.freeChunk_outside hc
  refine ⟨freeChunk w.s p c, hfree, ?_, ?_, ?_, fun d hd => ?_,
    fun q ds hqp hq => hw.unchanged hout hp hq hqp, ⟨rfl, rfl⟩, rfl⟩
  · rw [freeChunk_chunks, if_pos rfl]
  · rw [(hok.afterFree hc hused).freeList_eq, hok.freeList_eq]
    rfl
  · rw [freeChunk_pools, if_pos rfl]
  · rw [freeChunk_chunks, if_neg hd]

theorem WorldOk.located_of_free {w : PoolWorld} {p c : Nat} {cs : List Nat} {x : Ptr}
    {t : PoolState} (hw : WorldOk w) (hp : w.own p = some cs) (hx : x ≠ 0) (hc : c ∈ cs)
    (hcx : (w.s.chunks c).data = x) (hfree : poolFree w.s (some p) x = .ok (0, t))
    (hexact : FreesExactly w t p c) : Located w.s p x c := by
  obtain ⟨free, hok, _⟩ := hw.pool p cs hp
  obtain ⟨hr, _⟩ | ⟨p', base, hpp, _, _, _, ha, hlt, hbase, hidx, _, rfl⟩ := poolFree_ok hfree
  · obtain h | h := hr
    · cases h
    · cases h
  obtain rfl := Option.some.inj hpp
  -- The chunk the call has freed is `c`: it is the only one whose record has changed.
  have hcc : c = base + itemIndex w.s p x := by
    by_contra hne
    have h1 := hexact.data
    rw [freeChunk_chunks, if_neg hne, hcx] at h1
    exact hx h1
  rw [← hcc] at hidx
  obtain ⟨i, hi⟩ := List.getElem?_of_mem hc
  have hused : c ∉ free := fun hm => hx (hcx ▸ hok.freeData c hm)
  refine ⟨ha, ?_, base, hbase, ?_⟩
  · rw [hidx]
    calc (w.s.pools p).itemSize.toNat * itemIndex w.s p x
        ≤ (x - (w.s.pools p).base).toNat := Nat.mul_div_le ..
      _ < 2 ^ 32 := (x - (w.s.pools p).base).isLt
  · rw [hidx]
    exact hcc.symm

/-- **Release.** In a run that meets the condition, every outstanding item is held by a chunk of its
pool, and `pool_free` frees exactly that chunk if and only if it is where the call looks. -/
theorem poolFree_outstanding (mem : Memory) (ops : List PoolOp)
    (h : Throughout poolStep Placed (.boot mem) ops) :
    ∀ w, Reaches poolStep (.boot mem) ops w →
      ∀ p cs x, w.own p = some cs → x ∈ w.live p →
        (∃ c ∈ cs, (w.s.chunks c).data = x) ∧
        ∀ c ∈ cs, (w.s.chunks c).data = x →
          ((∃ t, poolFree w.s (some p) x = .ok (0, t) ∧ FreesExactly w t p c) ↔
            Located w.s p x c) := by
  intro w hr p cs x hp hx
  have hw : WorldOk w :=
    invariant_reaches (fun _ _ _ hw hpl hs => poolStep_ok hw hpl hs) (WorldOk.boot mem) h hr
  obtain ⟨_, _, hperm⟩ := hw.pool p cs hp
  obtain ⟨hx0, hheld⟩ := mem_heldItems.mp (hperm.mem_iff.mp hx)
  refine ⟨hheld, fun c hc hcx => ⟨?_, hw.free_located hp hx0 hc hcx⟩⟩
  rintro ⟨t, hfree, hexact⟩
  exact hw.located_of_free hp hx0 hc hcx hfree hexact

theorem poolFree_outstanding_refill :
    ∃ w, run poolStep (.boot fun _ => 0) refillRun = .ok w ∧ 0x3000 ∈ w.live 0 ∧
      ∃ t, poolFree w.s (some 0) 0x3000 = .ok (0, t) ∧ FreesExactly w t 0 0 := by
  have h : ∃ w, run poolStep (.boot fun _ => 0) refillRun = .ok w ∧
      w.own 0 = some [0, 1] ∧ 0x3000 ∈ w.live 0 ∧ (w.s.chunks 0).data = 0x3000 ∧
      (w.s.chunks 0).index = 0 ∧ (w.s.pools 0).chunkBase = some 0 ∧
      addrValid w.s 0 0x3000 = true := by decide +kernel
  obtain ⟨w, hw, hown, hlive, hdata, hidx, hbase, ha⟩ := h
  have hloc : Located w.s 0 0x3000 0 := ⟨ha, by rw [hidx]; omega, 0, hbase, by rw [hidx]⟩
  have hexact := poolFree_outstanding (fun _ => 0) refillRun (by decide +kernel) w (.of_run hw)
    0 [0, 1] 0x3000 hown hlive
  exact ⟨w, hw, hlive, (hexact.2 0 (by decide) hdata).mpr hloc⟩

/-- The second item of the third pool is in chunk 2, but `pool_free` looks at chunk 1. -/
theorem fragmented_free_asserts :
    ∃ w, run poolStep (.boot fun _ => 0)
        (fragmentRun ++ [.alloc (some 0), .alloc (some 0)]) = .ok w ∧
      w.own 0 = some [0, 2] ∧ 0x3008 ∈ w.live 0 ∧
      ¬ ∃ t, poolFree w.s (some 0) 0x3008 = .ok (0, t) := by
  have h : ∃ w, run poolStep (.boot fun _ => 0)
        (fragmentRun ++ [.alloc (some 0), .alloc (some 0)]) = .ok w ∧
      w.own 0 = some [0, 2] ∧ 0x3008 ∈ w.live 0 ∧
      ∀ r, poolFree w.s (some 0) 0x3008 = .ok r → r.1 ≠ 0 := by decide +kernel
  obtain ⟨w, hw, hown, hlive, hfree⟩ := h
  refine ⟨w, hw, hown, hlive, ?_⟩
  rintro ⟨t, ht⟩
  exact hfree _ ht rfl

end Ohwes

import Ohwes.Kernel.PoolInvariant

/-! # Allocation, release and destruction on a live pool

`pool_alloc` takes the first free chunk, whatever its number. `pool_free` and `pool_destroy` compute
chunk numbers from the first chunk of the pool; `poolFree_ok` says what a `pool_free` that comes back
has found, and `poolDestroy_consecutive` what `pool_destroy` does to a pool in consecutive chunks. -/

namespace Ohwes
set_option autoImplicit false
open Library

/-! ## `pool_alloc` -/

theorem allocChunk_pools (s : PoolState) (p c q : Nat) :
    (allocChunk s p c).pools q =
      if q = p then { s.pools p with alloc := s.links.next (.chunk c) } else s.pools q :=
  Function.update_apply ..

theorem allocChunk_chunks (s : PoolState) (p c d : Nat) :
    (allocChunk s p c).chunks d =
      if d = c then { s.chunks c with data := itemAddr s p (s.chunks c).index }
      else s.chunks d := by
  simp [allocChunk, PoolState.setChunk, PoolState.setPool, itemAddr, Function.update_apply]

theorem allocChunk_mem (s : PoolState) (p c : Nat) :
    (allocChunk s p c).mem =
      zeromem s.mem (itemAddr s p (s.chunks c).index) (s.pools p).itemSize.toNat := by
  simp [allocChunk, PoolState.setChunk, PoolState.setPool, itemAddr]

theorem itemAddr_congr {s t : PoolState} {p : Nat} (hb : (t.pools p).base = (s.pools p).base)
    (hi : (t.pools p).itemSize = (s.pools p).itemSize) (i : Nat) :
    itemAddr t p i = itemAddr s p i := by
  rw [itemAddr, itemAddr, hb, hi]

theorem poolValid_congr {s t : PoolState} {p : Nat} (hi : (t.pools p).index = (s.pools p).index)
    (hm : (t.pools p).magic = (s.pools p).magic) (hb : (t.pools p).base = (s.pools p).base) :
    poolValid t p = poolValid s p := by
  rw [poolValid, poolValid, hi, hm, hb]

theorem poolValid_of_pools {s t : PoolState} {p : Nat} (h : t.pools p = s.pools p) :
    poolValid t p = poolValid s p :=
  poolValid_congr (by rw [h]) (by rw [h]) (by rw [h])

namespace PoolOk
variable {s : PoolState} {p c i : Nat} {cs free rest : List Nat}

theorem poolAlloc_nil (h : PoolOk s p cs []) : poolAlloc s (some p) = .ok (0, s) := by
  have hl : listEmpty s.links (.head p) = true := by rw [listEmpty_eq h.links]; rfl
  simp only [poolAlloc, h.valid, hl, Bool.not_true, Bool.false_eq_true, if_false, if_true]

theorem poolAlloc_cons (h : PoolOk s p cs (c :: rest)) (hi : cs[i]? = some c) :
    poolAlloc s (some p) = .ok (itemAddr s p i, allocChunk s p c) := by
  have hl : listEmpty s.links (.head p) = false := by rw [listEmpty_eq h.links]; rfl
  have hd : (s.chunks c).data = 0 := h.freeData c (List.mem_cons_self ..)
  have hx : ((allocChunk s p c).chunks c).data = itemAddr s p i := by
    rw [allocChunk_chunks, if_pos rfl, h.index i c hi]
  simp only [poolAlloc, h.valid, hl, h.alloc c rfl, hd, Bool.not_true, Bool.false_eq_true, if_false,
    decide_true, assert_true, ok_bind, hx]

theorem allocChunk_outside (h : PoolOk s p cs (c :: rest)) :
    SameOutside s (allocChunk s p c) p cs where
  pools q hq := by rw [allocChunk_pools, if_neg hq]
  chunks d hd := by
    have hne : d ≠ c := fun e => hd (e ▸ h.freeSub c (List.mem_cons_self ..))
    rw [allocChunk_chunks, if_neg hne]
  links y hy := by
    have hl : Circular s.links (.head p) ([] ++ Node.chunk c :: rest.map Node.chunk) := h.links
    refine listRemove_of_notMem hl fun hm => hy ?_
    simp only [List.nil_append, List.mem_cons, List.mem_map] at hm ⊢
    obtain hm | hm | ⟨d, hd, hm⟩ := hm
    · exact Or.inl hm
    · exact Or.inr ⟨c, h.freeSub c (List.mem_cons_self ..), hm.symm⟩
    · exact Or.inr ⟨d, h.freeSub d (List.mem_cons_of_mem _ hd), hm⟩

theorem afterAlloc (h : PoolOk s p cs (c :: rest)) : PoolOk (allocChunk s p c) p cs rest := by
  have hp : ((allocChunk s p c).pools p) =
      { s.pools p with alloc := s.links.next (.chunk c) } := by
    rw [allocChunk_pools, if_pos rfl]
  have hl : Circular s.links (.head p) ([] ++ Node.chunk c :: rest.map Node.chunk) := h.links
  have hcr : c ∉ rest := (List.nodup_cons.mp h.free_nodup).1
  have hne : ∀ d ∈ rest, d ≠ c := fun d hd e => hcr (e ▸ hd)
  have hitem : ∀ i, itemAddr (allocChunk s p c) p i = itemAddr s p i :=
    itemAddr_congr (by rw [hp]) (by rw [hp])
  refine ⟨?_, ?_, h.sorted, h.bound, ?_, ?_, ?_, listRemove_circular hl, ?_, ?_, ?_, ?_⟩
  · have hv : poolValid (allocChunk s p c) p = poolValid s p :=
      poolValid_congr (by rw [hp]) (by rw [hp]) (by rw [hp])
    rw [hv]
    exact h.valid
  · rw [hp]
    exact h.length
  · rw [hp]
    exact h.chunkBase
  · intro i d hi
    rw [allocChunk_chunks]
    by_cases hd : d = c
    · subst hd
      rw [if_pos rfl]
      exact h.index i d hi
    · rw [if_neg hd]
      exact h.index i d hi
  · intro d hd
    rw [allocChunk_chunks]
    by_cases hdc : d = c
    · subst hdc
      rw [if_pos rfl]
      exact h.owner d hd
    · rw [if_neg hdc]
      exact h.owner d hd
  · exact fun d hd => h.freeSub d (List.mem_cons_of_mem _ hd)
  · intro d hd
    rw [allocChunk_chunks, if_neg (hne d hd)]
    exact h.freeData d (List.mem_cons_of_mem _ hd)
  · intro i d hi hd
    rw [allocChunk_chunks, hitem]
    by_cases hdc : d = c
    · subst hdc
      rw [if_pos rfl, h.index i d hi]
    · rw [if_neg hdc]
      refine h.usedData i d hi fun hm => ?_
      obtain hm | hm := List.mem_cons.mp hm
      · exact hdc hm
      · exact hd hm
  · intro d hd
    rw [hp]
    show s.links.next (.chunk c) = .chunk d
    rw [hl.next_item]
    cases rest with
    | nil => cases hd
    | cons e rest =>
      cases hd
      rfl

end PoolOk

/-! ## `pool_free` -/

theorem freeChunk_pools (s : PoolState) (p c q : Nat) :
    (freeChunk s p c).pools q = if q = p then { s.pools p with alloc := .chunk c } else s.pools q :=
  Function.update_apply ..

theorem freeChunk_chunks (s : PoolState) (p c d : Nat) :
    (freeChunk s p c).chunks d = if d = c then { s.chunks c with data := 0 } else s.chunks d :=
  Function.update_apply ..

/-- An address that lies in the area shows that the items have a size. -/
theorem itemSize_ne_zero {s : PoolState} {p : Nat} {item : Ptr} (hv : poolValid s p = true)
    (ha : addrValid s p item = true) : (s.pools p).itemSize ≠ 0 := by
  intro h0
  simp only [poolValid, Bool.and_eq_true, decide_eq_true_eq] at hv
  have hb : getBase s p ≠ 0 := hv.2
  simp only [addrValid, getLimit, h0, Bool.and_eq_true, decide_eq_true_eq] at ha
  have hz : (0 : BitVec 32) * (s.pools p).capacity = 0 := BitVec.zero_mul
  rw [hz] at ha
  bv_omega

/-- What a `pool_free` that comes back has done: refused the address and changed nothing, or found a
used chunk with the right index at the item's distance from the first chunk, and freed it. -/
theorem poolFree_ok {s t : PoolState} {pool : Option Nat} {item : Ptr} {r : Int}
    (h : poolFree s pool item = .ok (r, t)) :
    ((r = -EINVAL ∨ r = -EPERM) ∧ t = s) ∨
      ∃ p base, pool = some p ∧ r = 0 ∧ poolValid s p = true ∧ item ≠ 0 ∧
        addrValid s p item = true ∧ itemIndex s p item < (s.pools p).capacity.toNat ∧
        (s.pools p).chunkBase = some base ∧
        (s.chunks (base + itemIndex s p item)).index = itemIndex s p item ∧
        (s.chunks (base + itemIndex s p item)).data ≠ 0 ∧
        t = freeChunk s p (base + itemIndex s p item) := by
  unfold poolFree at h
  split at h
  · cases h
    exact Or.inl ⟨Or.inl rfl, rfl⟩
  rename_i p
  split at h
  · cases h
    exact Or.inl ⟨Or.inl rfl, rfl⟩
  rename_i hv
  split at h
  · cases h
    exact Or.inl ⟨Or.inr rfl, rfl⟩
  rename_i ha
  split at h
  · cases h
  rw [assert_bind_ok] at h
  obtain ⟨hlt, h⟩ := h
  split at h
  · cases h
  rename_i base hbase
  split at h
  · rw [assert_bind_ok] at h
    obtain ⟨hidx, h⟩ := h
    rw [assert_bind_ok] at h
    obtain ⟨hdata, h⟩ := h
    cases h
    simp only [Bool.not_eq_true', Bool.or_eq_true, decide_eq_true_eq, not_or, Bool.not_eq_false,
      Bool.and_eq_true] at hv ha hlt hidx hdata
    exact Or.inr ⟨p, base, rfl, rfl, hv.1, hv.2, ha, hlt.2, hbase, hidx, hdata, rfl⟩
  · cases h

namespace PoolOk
variable {s : PoolState} {p c i : Nat} {cs free rest : List Nat}

theorem freeChunk_outside (h : PoolOk s p cs free) (hc : c ∈ cs) :
    SameOutside s (freeChunk s p c) p cs where
  pools q hq := by rw [freeChunk_pools, if_neg hq]
  chunks d hd := by
    have hne : d ≠ c := fun e => hd (e ▸ hc)
    rw [freeChunk_chunks, if_neg hne]
  links y hy := by
    refine listAddTail_of_notMem h.links (fun hm => hy ?_) (fun e => hy ?_)
    · simp only [List.mem_cons, List.mem_map] at hm ⊢
      obtain hm | ⟨d, hd, hm⟩ := hm
      · exact Or.inl hm
      · exact Or.inr ⟨d, h.freeSub d hd, hm⟩
    · simp only [List.mem_cons, List.mem_map]
      exact Or.inr ⟨c, hc, e.symm⟩

theorem afterFree (h : PoolOk s p cs free) (hc : c ∈ cs) (hused : c ∉ free) :
    PoolOk (freeChunk s p c) p cs (c :: free) := by
  have hp : ((freeChunk s p c).pools p) = { s.pools p with alloc := .chunk c } := by
    rw [freeChunk_pools, if_pos rfl]
  have hnode : Node.chunk c ∉ Node.head p :: free.map Node.chunk := by simp [hused]
  have hitem : ∀ i, itemAddr (freeChunk s p c) p i = itemAddr s p i :=
    itemAddr_congr (by rw [hp]) (by rw [hp])
  refine ⟨?_, ?_, h.sorted, h.bound, ?_, ?_, ?_, listAddTail_circular h.links hnode, ?_, ?_, ?_, ?_⟩
  · have hv : poolValid (freeChunk s p c) p = poolValid s p :=
      poolValid_congr (by rw [hp]) (by rw [hp]) (by rw [hp])
    rw [hv]
    exact h.valid
  · rw [hp]
    exact h.length
  · rw [hp]
    exact h.chunkBase
  · intro i d hi
    rw [freeChunk_chunks]
    by_cases hd : d = c
    · subst hd
      rw [if_pos rfl]
      exact h.index i d hi
    · rw [if_neg hd]
      exact h.index i d hi
  · intro d hd
    rw [freeChunk_chunks]
    by_cases hdc : d = c
    · subst hdc
      rw [if_pos rfl]
      exact h.owner d hd
    · rw [if_neg hdc]
      exact h.owner d hd
  · intro d hd
    obtain rfl | hd := List.mem_cons.mp hd
    · exact hc
    · exact h.freeSub d hd
  · intro d hd
    rw [freeChunk_chunks]
    by_cases hdc : d = c
    · rw [if_pos hdc]
    · rw [if_neg hdc]
      exact h.freeData d ((List.mem_cons.mp hd).resolve_left hdc)
  · intro i d hi hd
    rw [List.mem_cons, not_or] at hd
    rw [freeChunk_chunks, hitem, if_neg hd.1]
    exact h.usedData i d hi hd.2
  · intro d hd
    rw [hp]
    cases hd
    rfl

end PoolOk

/-! ## `pool_destroy` -/

/-- The state in the loop of `pool_destroy` when it has released `i` chunks from chunk `base` on. -/
structure Released (s t : PoolState) (p base i : Nat) : Prop where
  pools : t.pools = s.pools
  chunks : ∀ d, ¬ (base ≤ d ∧ d < base + i) → t.chunks d = s.chunks d
  links : ∀ y, (∀ d, base ≤ d ∧ d < base + i → y ≠ .chunk d) →
    t.links.next y = s.links.next y ∧ t.links.prev y = s.links.prev y
  mask : ∀ d, bitAt t.chunkMask.1 d = (bitAt s.chunkMask.1 d || decide (base ≤ d ∧ d < base + i))
  rest : t.mem = s.mem ∧ t.poolMask = s.poolMask ∧ t.poolsInitialized = s.poolsInitialized

theorem Released.step {s t : PoolState} {p base i : Nat} {b : BitString 8}
    (hr : Released s t p base i)
    (hb : ∀ d, bitAt b.1 d = (bitAt t.chunkMask.1 d || decide (d = base + i))) :
    Released s ({ t with chunkMask := b }.zeroChunk base) p base (i + 1) where
  pools := hr.pools
  chunks d hd := by
    have hne : d ≠ base := by omega
    simp only [PoolState.zeroChunk, PoolState.setChunk, Function.update_of_ne hne]
    exact hr.chunks d (by omega)
  links y hy := by
    have hne : y ≠ .chunk base := hy base (by omega)
    simp only [PoolState.zeroChunk, PoolState.setChunk, Links.setNext_next, Links.setPrev_next,
      Links.setNext_prev, Links.setPrev_prev, if_neg hne]
    exact hr.links y fun d hd => hy d (by omega)
  mask d := by
    show bitAt b.1 d = _
    rw [hb, hr.mask, Bool.or_assoc]
    congr 1
    rw [Bool.eq_iff_iff]
    simp only [Bool.or_eq_true, decide_eq_true_eq]
    omega
  rest := hr.rest

theorem releaseChunks_ok {s : PoolState} {p base : Nat}
    (hbase : 0 < (s.pools p).capacity.toNat → (s.pools p).chunkBase = some base)
    (hbound : base + (s.pools p).capacity.toNat ≤ 256) :
    ∀ {n i : Nat} {t : PoolState}, i + n = (s.pools p).capacity.toNat → Released s t p base i →
      ∃ u, releaseChunks p n i t = .ok u ∧ Released s u p base (i + n) := by
  intro n
  induction n with
  | zero =>
    intro i t _ hr
    exact ⟨t, rfl, hr⟩
  | succ n ih =>
    intro i t hi hr
    have hcb : (t.pools p).chunkBase = some base := by
      rw [hr.pools]
      exact hbase (by omega)
    obtain ⟨b, hb, hbits⟩ := setBit_ok t.chunkMask (i := base + i) (by omega)
    obtain ⟨u, hu, hru⟩ := ih (by omega) (hr.step hbits)
    refine ⟨u, ?_, ?_⟩
    · rw [releaseChunks, hcb]
      show setBit t.chunkMask (base + i) >>= _ = _
      rw [hb, ok_bind]
      exact hu
    · rw [show i + (n + 1) = i + 1 + n by omega]
      exact hru

/-- Chunks one after the other in the chunk array. -/
def Consecutive (cs : List Nat) : Prop := cs = List.range' (cs.headD 0) cs.length

instance (cs : List Nat) : Decidable (Consecutive cs) := decEq ..

/-- `pool_destroy` of a pool whose chunks are consecutive gives exactly its chunks back. -/
structure Destroyed (s t : PoolState) (p : Nat) (cs : List Nat) : Prop where
  dead : poolValid t p = false
  outside : SameOutside s t p cs
  mask : ∀ d, bitAt t.chunkMask.1 d = (bitAt s.chunkMask.1 d || decide (d ∈ cs))
  poolMask : ∀ q, bitAt t.poolMask.1 q = (bitAt s.poolMask.1 q || decide (q = p))
  mem : t.mem = s.mem
  initialized : t.poolsInitialized = s.poolsInitialized

theorem PoolOk.consecutive_base {s : PoolState} {p : Nat} {cs free : List Nat}
    (h : PoolOk s p cs free) (hcons : Consecutive cs) :
    ∃ base, cs = List.range' base cs.length ∧ base + (s.pools p).capacity.toNat ≤ 256 ∧
      (0 < (s.pools p).capacity.toNat → (s.pools p).chunkBase = some base) := by
  obtain ⟨base, hcs⟩ : ∃ base, cs = List.range' base cs.length := ⟨_, hcons⟩
  have hlen := h.length
  by_cases h0 : cs.length = 0
  · refine ⟨0, ?_, by omega, by omega⟩
    rw [h0, List.length_eq_zero_iff.mp h0]
    rfl
  · have hlast : base + (cs.length - 1) ∈ cs := by
      have : base + (cs.length - 1) ∈ List.range' base cs.length :=
        List.mem_range'_1.mpr (by omega)
      rwa [← hcs] at this
    have hfirst : cs[0]? = some base := by
      rw [hcs, List.getElem?_range' (by omega)]
      simp
    have hlt := h.bound _ hlast
    unfold MAX_NR_POOL_ITEMS at hlt
    exact ⟨base, hcs, by omega, fun _ => h.chunkBase base hfirst⟩

theorem PoolOk.poolDestroy_consecutive {s : PoolState} {p : Nat} {cs free : List Nat}
    (h : PoolOk s p cs free) (hcons : Consecutive cs) :
    ∃ t, poolDestroy s (some p) = .ok t ∧ Destroyed s t p cs := by
  obtain ⟨base, hcs, hbound, hbase⟩ := h.consecutive_base hcons
  have hlen := h.length
  have hmem : ∀ d, d ∈ cs ↔ base ≤ d ∧ d < base + cs.length := by
    intro d
    rw [← List.mem_range'_1, ← hcs]
  have hstart : Released s s p base 0 :=
    ⟨rfl, fun _ _ => rfl, fun _ _ => ⟨rfl, rfl⟩, fun d => by simp, rfl, rfl, rfl⟩
  obtain ⟨u, hu, hr⟩ := releaseChunks_ok hbase hbound (Nat.zero_add _) hstart
  have hidx : (u.pools p).index = p := by rw [hr.pools, h.pool_index]
  have hp := h.lt
  unfold MAX_NR_POOLS at hp
  obtain ⟨b, hb, hbits⟩ := setBit_ok u.poolMask (i := p) (by omega)
  refine ⟨{ u with poolMask := b }.zeroPool p, ?_, ?_, ?_, ?_, ?_, hr.rest.1, hr.rest.2.2⟩
  · simp only [poolDestroy, h.valid, if_true, hu, ok_bind, hidx, hb]
  · simp [poolValid, PoolState.zeroPool, PoolState.setPool, Pool.zero, POOL_MAGIC]
  · refine ⟨fun q hq => ?_, fun d hd => ?_, fun y hy => ?_⟩
    · simp only [PoolState.zeroPool, PoolState.setPool, Function.update_of_ne hq]
      rw [hr.pools]
    · refine hr.chunks d fun hm => hd ?_
      rw [hmem, hlen]
      omega
    · have hne : y ≠ .head p := fun e => hy (e ▸ List.mem_cons_self ..)
      simp only [PoolState.zeroPool, PoolState.setPool, Links.setNext_next, Links.setPrev_next,
        Links.setNext_prev, Links.setPrev_prev, if_neg hne]
      refine hr.links y fun d hd e => hy ?_
      have hdm : d ∈ cs := by
        rw [hmem, hlen]
        omega
      exact List.mem_cons_of_mem _ (List.mem_map.mpr ⟨d, hdm, e.symm⟩)
  · intro d
    show bitAt u.chunkMask.1 d = _
    rw [hr.mask, Bool.eq_iff_iff]
    simp only [Bool.or_eq_true, decide_eq_true_eq, hmem, hlen, Nat.zero_add]
  · intro q
    show bitAt b.1 q = _
    rw [hbits, hr.rest.2.1]

end Ohwes

import Ohwes.Kernel.Pool

/-! # What the pool functions do to one pool

`PoolOk s p cs free` is the invariant of a live pool: `cs` are the chunks `pool_create` gave it, in
order, and `free` those of them on its free list, in the order of the list. One lemma a function
says what it does to a pool that satisfies the invariant, and `SameOutside` that it touches nothing
but this pool and its chunks.

`pool_destroy` and `pool_free` find a chunk by its distance from the first one, so what they do is
stated for pools whose chunks are consecutive, or for items whose chunk is where they look. -/

namespace Ohwes
set_option autoImplicit false
open Library

/-- The invariant of a live pool. -/
structure PoolOk (s : PoolState) (p : Nat) (cs free : List Nat) : Prop where
  valid : poolValid s p = true
  length : cs.length = (s.pools p).capacity.toNat
  sorted : cs.Pairwise (· < ·)
  bound : ∀ c ∈ cs, c < MAX_NR_POOL_ITEMS
  chunkBase : ∀ c, cs[0]? = some c → (s.pools p).chunkBase = some c
  index : ∀ i c, cs[i]? = some c → (s.chunks c).index = i
  owner : ∀ c ∈ cs, (s.chunks c).pool = some p
  links : Circular s.links (.head p) (free.map .chunk)
  freeSub : ∀ c ∈ free, c ∈ cs
  freeData : ∀ c ∈ free, (s.chunks c).data = 0
  usedData : ∀ i c, cs[i]? = some c → c ∉ free → (s.chunks c).data = itemAddr s p i
  alloc : ∀ c, free.head? = some c → (s.pools p).alloc = .chunk c

/-- `t` differs from `s` only in pool `p`, in the chunks `cs` and in their links. -/
structure SameOutside (s t : PoolState) (p : Nat) (cs : List Nat) : Prop where
  pools : ∀ q, q ≠ p → t.pools q = s.pools q
  chunks : ∀ c, c ∉ cs → t.chunks c = s.chunks c
  links : ∀ y, y ∉ Node.head p :: cs.map Node.chunk →
    t.links.next y = s.links.next y ∧ t.links.prev y = s.links.prev y

theorem SameOutside.trans {s t u : PoolState} {p : Nat} {cs : List Nat}
    (h : SameOutside s t p cs) (k : SameOutside t u p cs) : SameOutside s u p cs where
  pools q hq := (k.pools q hq).trans (h.pools q hq)
  chunks c hc := (k.chunks c hc).trans (h.chunks c hc)
  links y hy := ⟨(k.links y hy).1.trans (h.links y hy).1, (k.links y hy).2.trans (h.links y hy).2⟩

theorem SameOutside.mono {s t : PoolState} {p : Nat} {cs ds : List Nat}
    (h : SameOutside s t p cs) (hsub : ∀ c ∈ cs, c ∈ ds) : SameOutside s t p ds where
  pools := h.pools
  chunks c hc := h.chunks c fun hm => hc (hsub c hm)
  links y hy := by
    apply h.links
    intro hm
    apply hy
    rw [List.mem_cons, List.mem_map] at hm ⊢
    obtain hm | ⟨c, hc, hm⟩ := hm
    · exact Or.inl hm
    · exact Or.inr ⟨c, hsub c hc, hm⟩

namespace PoolOk
variable {s t : PoolState} {p : Nat} {cs free : List Nat}

theorem nodup (h : PoolOk s p cs free) : cs.Nodup :=
  h.sorted.imp fun hab => Nat.ne_of_lt hab

theorem free_nodup (h : PoolOk s p cs free) : free.Nodup :=
  List.Nodup.of_map _ h.links.items_nodup

theorem lt (h : PoolOk s p cs free) : p < MAX_NR_POOLS := by
  have := h.valid
  simp only [poolValid, Bool.and_eq_true, decide_eq_true_eq] at this
  exact this.1.1.1

theorem pool_index (h : PoolOk s p cs free) : (s.pools p).index = p := by
  have := h.valid
  simp only [poolValid, Bool.and_eq_true, decide_eq_true_eq] at this
  exact this.1.1.2

/-- The invariant of a pool is not affected by what happens outside it. -/
theorem frame {q : Nat} {ds : List Nat} (h : PoolOk s p cs free) (hs : SameOutside s t q ds)
    (hpq : p ≠ q) (hcd : ∀ c ∈ cs, c ∉ ds) : PoolOk t p cs free := by
  have hp := hs.pools p hpq
  have hc : ∀ c ∈ cs, t.chunks c = s.chunks c := fun c hc => hs.chunks c (hcd c hc)
  have hget : ∀ i c, cs[i]? = some c → t.chunks c = s.chunks c :=
    fun i c hi => hc c (List.mem_of_getElem? hi)
  refine ⟨?_, ?_, h.sorted, h.bound, ?_, ?_, ?_, ?_, h.freeSub, ?_, ?_, ?_⟩
  · have := h.valid
    unfold poolValid at this ⊢
    rw [hp]
    exact this
  · rw [hp]; exact h.length
  · rw [hp]; exact h.chunkBase
  · intro i c hi
    rw [hget i c hi]
    exact h.index i c hi
  · intro c hm
    rw [hc c hm]
    exact h.owner c hm
  · refine h.links.frame fun y hy => hs.links y ?_
    simp only [List.mem_cons, List.mem_map] at hy ⊢
    rintro (rfl | ⟨d, hd, rfl⟩)
    · obtain hy | ⟨_, _, hy⟩ := hy
      · exact hpq (Node.head.inj hy.symm)
      · cases hy
    · obtain hy | ⟨c, hm, hy⟩ := hy
      · cases hy
      · exact hcd c (h.freeSub c hm) (Node.chunk.inj hy ▸ hd)
  · intro c hm
    rw [hc c (h.freeSub c hm)]
    exact h.freeData c hm
  · intro i c hi hm
    rw [hget i c hi, h.usedData i c hi hm, itemAddr, itemAddr, hp]
  · rw [hp]; exact h.alloc

end PoolOk

/-! ## `pool_create` -/

theorem addChunk_pools_of_ne {s : PoolState} {p q i c : Nat} (h : q ≠ p) :
    (addChunk s p i c).pools q = s.pools q := by
  unfold addChunk
  split
  · exact Function.update_of_ne h ..
  · rfl

theorem addChunk_chunks (s : PoolState) (p i c d : Nat) :
    (addChunk s p i c).chunks d =
      if d = c then { magic := CHUNK_MAGIC, index := i, pool := some p, data := 0 }
      else s.chunks d := by
  have h : (addChunk s p i c).chunks =
      Function.update s.chunks c { magic := CHUNK_MAGIC, index := i, pool := some p, data := 0 } := by
    unfold addChunk
    split <;> rfl
  rw [h, Function.update_apply]

theorem addChunk_links (s : PoolState) (p i c : Nat) :
    (addChunk s p i c).links = listAdd s.links (.head p) (.chunk c) := by
  unfold addChunk
  split <;> rfl

theorem addChunk_rest (s : PoolState) (p i c : Nat) :
    (addChunk s p i c).mem = s.mem ∧ (addChunk s p i c).poolMask = s.poolMask ∧
      (addChunk s p i c).poolsInitialized = s.poolsInitialized ∧
      (addChunk s p i c).chunkMask = s.chunkMask := by
  unfold addChunk
  split <;> exact ⟨rfl, rfl, rfl, rfl⟩

/-- The first item sets the pool's pointers into the chunks, the others leave them. -/
theorem addChunk_pool (s : PoolState) (p i c : Nat) :
    (addChunk s p i c).pools p =
      if i = 0 then { s.pools p with chunkBase := some c, alloc := .chunk c } else s.pools p := by
  unfold addChunk
  split
  · exact Function.update_self ..
  · rfl

/-- The state in the loop of `pool_create`, started in `s₀`, when it has taken the chunks `taken`. -/
structure Filling (s₀ s : PoolState) (p : Nat) (taken : List Nat) : Prop where
  links : Circular s.links (.head p) (taken.map .chunk)
  mask : setBits s₀.chunkMask.1 = taken ++ setBits s.chunkMask.1
  chunk : ∀ i c, taken[i]? = some c →
    s.chunks c = { magic := CHUNK_MAGIC, index := i, pool := some p, data := 0 }
  pool : s.pools p = match taken.head? with
    | none => s₀.pools p
    | some c => { s₀.pools p with chunkBase := some c, alloc := .chunk c }
  outside : SameOutside s₀ s p taken
  rest : s.mem = s₀.mem ∧ s.poolMask = s₀.poolMask ∧ s.poolsInitialized = s₀.poolsInitialized

theorem toUnsigned_natCast {n : Nat} (h : n < 2 ^ 32) : toUnsigned (n : Int) = n := by
  unfold toUnsigned
  omega

theorem Filling.addChunk {s₀ s : PoolState} {p c : Nat} {taken : List Nat} {b : BitString 8}
    (hf : Filling s₀ s p taken) (hm : setBits s.chunkMask.1 = c :: setBits b.1) :
    Filling s₀ (addChunk { s with chunkMask := b } p taken.length c) p (taken ++ [c]) := by
  have hnew : c ∉ taken := by
    have h1 := setBits_nodup s₀.chunkMask.1
    rw [hf.mask, hm] at h1
    intro hmem
    exact List.disjoint_of_nodup_append h1 hmem (List.mem_cons_self ..)
  have hnode : Node.chunk c ∉ Node.head p :: taken.map Node.chunk := by simp [hnew]
  obtain ⟨hmem, hpm, hin, hcm⟩ := addChunk_rest { s with chunkMask := b } p taken.length c
  refine ⟨?_, ?_, ?_, ?_, ?_, ?_⟩
  · rw [addChunk_links, List.map_append]
    exact listAdd_circular hf.links hnode
  · rw [hcm, hf.mask, hm, List.append_assoc]
    rfl
  · intro i d hi
    rw [addChunk_chunks]
    rw [List.getElem?_append] at hi
    by_cases hlt : i < taken.length
    · rw [if_pos hlt] at hi
      have hd : d ≠ c := fun e => hnew (e ▸ List.mem_of_getElem? hi)
      rw [if_neg hd]
      exact hf.chunk i d hi
    · rw [if_neg hlt, List.getElem?_singleton] at hi
      by_cases h0 : i - taken.length = 0
      · have hlen : i = taken.length := by omega
        rw [if_pos h0, Option.some.injEq] at hi
        rw [if_pos hi.symm, hlen]
      · rw [if_neg h0] at hi
        cases hi
  · rw [addChunk_pool]
    have hp := hf.pool
    cases taken with
    | nil =>
      have hp' : s.pools p = s₀.pools p := hp
      simp [hp']
    | cons d taken => simpa using hp
  · refine (hf.outside.mono fun d hd => List.mem_append_left _ hd).trans ⟨?_, ?_, ?_⟩
    · intro q hq
      rw [addChunk_pools_of_ne hq]
    · intro d hd
      rw [addChunk_chunks, if_neg]
      intro e
      exact hd (by simp [e])
    · intro y hy
      rw [addChunk_links]
      simp only [List.map_append, List.mem_cons, List.mem_append, List.map_cons, List.map_nil] at hy
      refine listAdd_of_notMem hf.links ?_ ?_
      · intro hm
        rw [List.mem_cons] at hm
        tauto
      · tauto
  · rw [hmem, hpm, hin]
    exact hf.rest

/-- The loop takes the first `n` chunks of the mask. -/
theorem createFreeList_filling {s₀ : PoolState} {p : Nat} :
    ∀ {n : Nat} {s : PoolState} {taken : List Nat}, Filling s₀ s p taken →
      n ≤ (setBits s.chunkMask.1).length →
      ∃ t, createFreeList p n taken.length s = .ok t ∧
        Filling s₀ t p (taken ++ (setBits s.chunkMask.1).take n) := by
  intro n
  induction n with
  | zero =>
    intro s taken hf _
    exact ⟨s, rfl, by simpa using hf⟩
  | succ n ih =>
    intro s taken hf hlen
    obtain ⟨c, rest, hm⟩ : ∃ c rest, setBits s.chunkMask.1 = c :: rest := by
      cases hm : setBits s.chunkMask.1 with
      | nil => rw [hm] at hlen; simp at hlen
      | cons c rest => exact ⟨c, rest, rfl⟩
    have hmem : c ∈ setBits s.chunkMask.1 := by rw [hm]; exact List.mem_cons_self ..
    have hc : c < 256 := mem_setBits_lt hmem
    have hscan : bitScanForward s.chunkMask (MAX_NR_POOL_ITEMS >>> 3) = .ok (c : Int) := by
      rw [bitScanForward_eq (by decide), hm]
      rfl
    obtain ⟨b, hb, hbm⟩ := clearBit_ok s.chunkMask (i := c) (by omega)
    have hrest : setBits b.1 = rest := by rw [hbm, setBits_clear_head hm]
    have hcons : setBits s.chunkMask.1 = c :: setBits b.1 := by rw [hm, hrest]
    have hf' := hf.addChunk hcons
    have hmask := (addChunk_rest { s with chunkMask := b } p taken.length c).2.2.2
    have hlen' : n ≤ (setBits b.1).length := by
      rw [hm] at hlen
      rw [hrest]
      simpa using hlen
    obtain ⟨t, ht, hft⟩ := ih hf' (by rw [hmask]; exact hlen')
    refine ⟨t, ?_, ?_⟩
    · rw [createFreeList, hscan, ok_bind, toUnsigned_natCast (by omega), hb, ok_bind]
      rw [List.length_append] at ht
      exact ht
    · rw [hmask] at hft
      rw [hm, List.take_succ_cons, ← hrest]
      simpa using hft

/-- What a successful `pool_create` does: pool `p` is new and has the chunks `cs`, all free. -/
structure Created (s t : PoolState) (p : Nat) (cs : List Nat) : Prop where
  ok : PoolOk t p cs cs
  outside : SameOutside s t p cs
  mask : setBits s.chunkMask.1 = cs ++ setBits t.chunkMask.1
  slot : bitAt s.poolMask.1 p = true
  poolMask : t.poolMask.1 = clearAt s.poolMask.1 p
  mem : t.mem = s.mem
  initialized : t.poolsInitialized = s.poolsInitialized

theorem Filling.poolOk {s₀ s : PoolState} {p : Nat} {cs : List Nat} (hf : Filling s₀ s p cs)
    (hv : poolValid s₀ p = true) (hlen : cs.length = (s₀.pools p).capacity.toNat) :
    PoolOk s p cs cs := by
  have hsorted : (cs ++ setBits s.chunkMask.1).Pairwise (· < ·) := by
    rw [← hf.mask]
    exact setBits_pairwise _
  have hp : ∃ b a, s.pools p = { s₀.pools p with chunkBase := b, alloc := a } ∧
      ∀ c, cs.head? = some c → b = some c ∧ a = .chunk c := by
    rw [hf.pool]
    cases cs with
    | nil => exact ⟨_, _, rfl, by simp⟩
    | cons c cs => exact ⟨_, _, rfl, by simp⟩
  obtain ⟨b, a, hpool, hfirst⟩ := hp
  refine ⟨?_, ?_, (List.pairwise_append.mp hsorted).1, ?_, ?_, ?_, ?_, hf.links, fun c hc => hc,
    ?_, ?_, ?_⟩
  · unfold poolValid at hv ⊢
    rw [hpool]
    exact hv
  · rw [hpool]
    exact hlen
  · intro c hc
    have hm : c ∈ setBits s₀.chunkMask.1 := by
      rw [hf.mask]
      exact List.mem_append_left _ hc
    exact mem_setBits_lt hm
  · intro c hc
    rw [hpool]
    exact (hfirst c (by rw [List.head?_eq_getElem?]; exact hc)).1
  · intro i c hi
    rw [hf.chunk i c hi]
  · intro c hc
    obtain ⟨i, hi⟩ := List.getElem?_of_mem hc
    rw [hf.chunk i c hi]
  · intro c hc
    obtain ⟨i, hi⟩ := List.getElem?_of_mem hc
    rw [hf.chunk i c hi]
  · intro i c hi hc
    exact absurd (List.mem_of_getElem? hi) hc
  · intro c hc
    rw [hpool]
    exact (hfirst c hc).2

theorem setupPool_pool (s : PoolState) (p : Nat) (addr : Ptr) (name : CString)
    (itemSize capacity : BitVec 32) :
    (setupPool s p addr name itemSize capacity).pools p =
      { s.pools p with
        magic := POOL_MAGIC
        index := p
        base := addr
        itemSize := itemSize
        capacity := capacity
        name := strncpy (s.pools p).name name POOL_NAME_LENGTH } :=
  Function.update_self ..

theorem setupPool_outside (s : PoolState) (p : Nat) (addr : Ptr) (name : CString)
    (itemSize capacity : BitVec 32) :
    SameOutside s (setupPool s p addr name itemSize capacity) p [] where
  pools q hq := Function.update_of_ne hq ..
  chunks c _ := rfl
  links y hy := by
    have hne : y ≠ .head p := by simpa using hy
    simp [setupPool, listInit, PoolState.setPool, hne]

theorem setupPool_filling (s : PoolState) (p : Nat) (addr : Ptr) (name : CString)
    (itemSize capacity : BitVec 32) :
    Filling (setupPool s p addr name itemSize capacity)
      (setupPool s p addr name itemSize capacity) p [] where
  links := listInit_circular ..
  mask := rfl
  chunk := by simp
  pool := rfl
  outside := ⟨fun _ _ => rfl, fun _ _ => rfl, fun _ _ => ⟨rfl, rfl⟩⟩
  rest := ⟨rfl, rfl, rfl⟩

/-- The loop leaves the geometry of the pool as the descriptor has it. -/
theorem Filling.geometry {s₀ s : PoolState} {p : Nat} {cs : List Nat} (hf : Filling s₀ s p cs) :
    (s.pools p).base = (s₀.pools p).base ∧ (s.pools p).itemSize = (s₀.pools p).itemSize ∧
      (s.pools p).capacity = (s₀.pools p).capacity := by
  rw [hf.pool]
  cases cs <;> exact ⟨rfl, rfl, rfl⟩

/-- After the loop: the new pool and its chunks. -/
theorem createFreeList_created {s t : PoolState} {b : BitString 1} {p : Nat} {addr : Ptr}
    {name : CString} {itemSize capacity : BitVec 32} (hp : p < 32) (haddr : addr ≠ 0)
    (hbit : bitAt s.poolMask.1 p = true) (hb : b.1 = clearAt s.poolMask.1 p)
    (hcap : capacity.toNat ≤ (setBits s.chunkMask.1).length)
    (hf : Filling (setupPool { s with poolMask := b } p addr name itemSize capacity) t p
      ((setBits s.chunkMask.1).take capacity.toNat)) :
    Created s t p ((setBits s.chunkMask.1).take capacity.toNat) := by
  have hpool := setupPool_pool { s with poolMask := b } p addr name itemSize capacity
  refine ⟨?_, ?_, hf.mask, hbit, ?_, ?_, ?_⟩
  · apply hf.poolOk
    · unfold poolValid
      rw [hpool]
      have h0 : decide (addr ≠ 0) = true := decide_eq_true haddr
      simp only [hp, MAX_NR_POOLS, h0, decide_true, Bool.and_self]
    · rw [hpool, List.length_take]
      exact Nat.min_eq_left hcap
  · have h0 := setupPool_outside { s with poolMask := b } p addr name itemSize capacity
    have h1 : SameOutside s _ p [] := ⟨h0.pools, h0.chunks, h0.links⟩
    exact (h1.mono (by simp)).trans hf.outside
  · rw [hf.rest.2.1]
    exact hb
  · rw [hf.rest.1]
    rfl
  · rw [hf.rest.2.2]
    rfl

/-- With a free pool slot and enough free chunks, `pool_create` makes the pool. -/
theorem poolCreate_created {s : PoolState} {addr : Ptr} (name : CString)
    (itemSize : BitVec 32) {capacity : BitVec 32} {p : Nat} {rest : List Nat} (hinit : s.poolsInitialized = true)
    (haddr : addr ≠ 0) (hcap : capacity.toNat ≤ (setBits s.chunkMask.1).length)
    (hslot : setBits s.poolMask.1 = p :: rest) :
    ∃ t, poolCreate s addr (some name) itemSize capacity = .ok (some p, t) ∧
      Created s t p ((setBits s.chunkMask.1).take capacity.toNat) ∧ (t.pools p).base = addr ∧
      (t.pools p).itemSize = itemSize ∧ (t.pools p).capacity = capacity := by
  have hmem : p ∈ setBits s.poolMask.1 := by rw [hslot]; exact List.mem_cons_self ..
  have hp : p < 32 := mem_setBits_lt hmem
  have hbit := (mem_setBits (by omega)).mp hmem
  obtain ⟨b, hb, hbm⟩ := clearBit_ok s.poolMask (i := p) (by omega)
  have hne : ¬ (p : Int) = -1 := by omega
  have hstart := setupPool_filling { s with poolMask := b } p addr name itemSize capacity
  obtain ⟨t, ht, hf⟩ := createFreeList_filling hstart hcap
  rw [List.nil_append] at hf
  have hens : ensureCapacity s capacity = true := by
    rw [ensureCapacity, count_eq (by omega)]
    exact decide_eq_true hcap
  have hgeo := hf.geometry
  rw [setupPool_pool] at hgeo
  refine ⟨t, ?_, createFreeList_created hp haddr hbit hbm hcap hf, hgeo⟩
  have hready : (!s.poolsInitialized) = false := by rw [hinit]; rfl
  simp only [poolCreate, hready, haddr, hens, Bool.not_true, Bool.false_eq_true, if_false]
  rw [bitScanForward_eq (by decide)]
  simp only [hslot, List.head?_cons, ok_bind, if_neg hne, Int.toNat_natCast]
  rw [toUnsigned_natCast (by omega), hb, ok_bind]
  show createFreeList p capacity.toNat ([] : List Nat).length _ >>= _ = _
  rw [ht]
  rfl

theorem poolCreate_ok {s t : PoolState} {addr : Ptr} {name : Option CString}
    {itemSize capacity : BitVec 32} {r : Option Nat}
    (h : poolCreate s addr name itemSize capacity = .ok (r, t)) :
    (r = none ∧ t = s ∧ (name = none ∨ addr = 0)) ∨
      ∃ p cs, r = some p ∧ Created s t p cs ∧ (t.pools p).base = addr ∧
        (t.pools p).itemSize = itemSize ∧ (t.pools p).capacity = capacity := by
  have hcall := h
  unfold poolCreate at h
  split at h
  · cases h
  rename_i hinit
  split at h
  · cases h
    exact Or.inl ⟨rfl, rfl, Or.inl rfl⟩
  rename_i name
  split at h
  · rename_i haddr
    cases h
    exact Or.inl ⟨rfl, rfl, Or.inr haddr⟩
  rename_i haddr
  split at h
  · cases h
  rename_i hens
  have hcap : capacity.toNat ≤ (setBits s.chunkMask.1).length := by
    rw [← count_eq (by omega)]
    simpa [ensureCapacity] using hens
  rw [bitScanForward_eq (by decide)] at h
  cases hm : setBits s.poolMask.1 with
  | nil =>
    rw [hm] at h
    cases h
  | cons p rest =>
    obtain ⟨t', ht, hc, hgeo⟩ := poolCreate_created name itemSize (by simpa using hinit)
      haddr hcap hm
    rw [hcall] at ht
    cases ht
    exact Or.inr ⟨p, _, rfl, hc, hgeo⟩

end Ohwes

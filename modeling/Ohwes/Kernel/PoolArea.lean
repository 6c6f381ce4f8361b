import Ohwes.Kernel.PoolOwnership

/-! # Allocation from one pool

A pool in consecutive chunks, from its creation on, under every sequence of `pool_alloc` and of
`pool_free` calls that name a live item, `NULL` or an address outside its area. `ItemsOk` is the
invariant: the chunks that hold an address are those off the free list, chunk `i` holds the address
of slot `i` of the area, and the live items are the addresses held. From it every call is as
specified (`PoolCallOk`): `pool_alloc` fails exactly when all slots are live and else hands out a
zeroed slot apart from the live ones, and a `pool_free` that is refused changes nothing. -/

namespace Ohwes
set_option autoImplicit false
open Library

inductive ItemOp where
  | alloc
  | free (item : Ptr)

/-- A pool and the items of it that are live. -/
structure ItemWorld where
  s : PoolState
  live : List Ptr

def itemStep (p : Nat) (w : ItemWorld) : ItemOp → Call ItemWorld
  | .alloc => do
    let x ← poolAlloc w.s (some p)
    .ok { s := x.2, live := if x.1 = 0 then w.live else x.1 :: w.live }
  | .free item => do
    let x ← poolFree w.s (some p) item
    .ok { s := x.2, live := if x.1 = 0 then w.live.erase item else w.live }

/-- The area of a pool, as its creator has described it. -/
structure Area where
  base : Ptr
  itemSize : BitVec 32
  capacity : BitVec 32

namespace Area

def size (a : Area) : Nat := a.itemSize.toNat * a.capacity.toNat

/-- The area is a piece of the address space, and its items are not empty. -/
structure Fits (a : Area) : Prop where
  itemSize : 0 < a.itemSize.toNat
  capacity : 0 < a.capacity.toNat
  bound : a.base.toNat + a.size ≤ 2 ^ 32

def Outside (a : Area) (x : Ptr) : Prop := x.toNat < a.base.toNat ∨ a.base.toNat + a.size ≤ x.toNat

/-- `x` is the address of slot `i`. -/
def IsSlot (a : Area) (x : Ptr) (i : Nat) : Prop :=
  i < a.capacity.toNat ∧ x.toNat = a.base.toNat + a.itemSize.toNat * i

end Area

/-- The calls of the run: a `pool_free` is given a live item, `NULL` or an address outside. -/
def LegalItem (a : Area) (w : ItemWorld) : ItemOp → Prop
  | .alloc => True
  | .free item => item ∈ w.live ∨ item = 0 ∨ a.Outside item

instance decidableLegalItem (a : Area) (w : ItemWorld) : (op : ItemOp) → Decidable (LegalItem a w op)
  | .alloc => .isTrue trivial
  | .free item => inferInstanceAs (Decidable (item ∈ w.live ∨ item = 0 ∨
      (item.toNat < a.base.toNat ∨ a.base.toNat + a.size ≤ item.toNat)))

/-- What each call does. -/
def PoolCallOk (a : Area) (p : Nat) (w : ItemWorld) : ItemOp → Prop
  | .alloc => ∃ x t, poolAlloc w.s (some p) = .ok (x, t) ∧
      (x = 0 ↔ w.live.length = a.capacity.toNat) ∧
      (x ≠ 0 → (∃ i, a.IsSlot x i) ∧
        (∀ k, k < a.itemSize.toNat → t.mem (x + BitVec.ofNat 32 k) = 0) ∧
        (∀ y, a.itemSize.toNat ≤ (y - x).toNat → t.mem y = w.s.mem y) ∧
        ∀ y ∈ w.live, x.toNat + a.itemSize.toNat ≤ y.toNat ∨ y.toNat + a.itemSize.toNat ≤ x.toNat)
  | .free item => ∃ r t, poolFree w.s (some p) item = .ok (r, t) ∧
      (r = 0 ↔ item ∈ w.live) ∧ (r ≠ 0 → (r = -EINVAL ∨ r = -EPERM) ∧ t = w.s)

/-! ## The invariant -/

structure ItemsOk (a : Area) (p : Nat) (cs : List Nat) (w : ItemWorld) : Prop where
  geometry : (w.s.pools p).base = a.base ∧ (w.s.pools p).itemSize = a.itemSize ∧
    (w.s.pools p).capacity = a.capacity
  pool : ∃ free, PoolOk w.s p cs free
  live : w.live.Perm (heldItems w.s cs)

theorem PoolOk.length_le {s : PoolState} {p : Nat} {cs free : List Nat} (h : PoolOk s p cs free) :
    cs.length ≤ MAX_NR_POOL_ITEMS := by
  have hsub : cs ⊆ List.range MAX_NR_POOL_ITEMS :=
    fun c hc => List.mem_range.mpr (h.bound c hc)
  have hle := (h.nodup.subperm hsub).length_le
  rwa [List.length_range] at hle

section Items
variable {a : Area} {p : Nat} {cs : List Nat} {w : ItemWorld}

theorem Area.Fits.itemAddr (hf : a.Fits) {s : PoolState} (hb : (s.pools p).base = a.base)
    (hi : (s.pools p).itemSize = a.itemSize) {i : Nat} (hlt : i < a.capacity.toNat) :
    a.IsSlot (itemAddr s p i) i := by
  have hmul : a.itemSize.toNat * i < a.size := Nat.mul_lt_mul_of_pos_left hlt hf.itemSize
  have hbound := hf.bound
  have hc := a.capacity.isLt
  refine ⟨hlt, ?_⟩
  rw [Ohwes.itemAddr, hb, hi, BitVec.toNat_add, BitVec.toNat_mul, BitVec.toNat_ofNat,
    Nat.mod_eq_of_lt (by omega : i < 2 ^ 32), Nat.mod_eq_of_lt (by omega), Nat.mod_eq_of_lt (by omega)]

/-- A slot and the bytes after it up to the next one lie in the area. -/
theorem Area.IsSlot.bounds {x : Ptr} {i : Nat} (h : a.IsSlot x i) :
    a.base.toNat ≤ x.toNat ∧ x.toNat + a.itemSize.toNat ≤ a.base.toNat + a.size := by
  have hmul : a.itemSize.toNat * (i + 1) ≤ a.size := Nat.mul_le_mul_left _ h.1
  rw [Nat.mul_succ] at hmul
  rw [h.2]
  omega

theorem Area.IsSlot.disjoint {x y : Ptr} {i j : Nat} (hx : a.IsSlot x i) (hy : a.IsSlot y j)
    (hij : i ≠ j) :
    x.toNat + a.itemSize.toNat ≤ y.toNat ∨ y.toNat + a.itemSize.toNat ≤ x.toNat := by
  rw [hx.2, hy.2]
  by_cases h : i < j
  · have hmul : a.itemSize.toNat * (i + 1) ≤ a.itemSize.toNat * j := Nat.mul_le_mul_left _ h
    rw [Nat.mul_succ] at hmul
    omega
  · have hmul : a.itemSize.toNat * (j + 1) ≤ a.itemSize.toNat * i := Nat.mul_le_mul_left _ (by omega)
    rw [Nat.mul_succ] at hmul
    omega

theorem ItemsOk.slot (hw : ItemsOk a p cs w) (hf : a.Fits) {i c : Nat} (hi : cs[i]? = some c) :
    a.IsSlot (itemAddr w.s p i) i := by
  obtain ⟨free, hok⟩ := hw.pool
  apply hf.itemAddr hw.geometry.1 hw.geometry.2.1
  rw [← hw.geometry.2.2, ← hok.length]
  exact (List.getElem?_eq_some_iff.mp hi).1

theorem Area.IsSlot.ne_zero {x : Ptr} {i : Nat} (h : a.IsSlot x i) (hb : a.base ≠ 0) : x ≠ 0 := by
  have hpos : a.base.toNat ≠ 0 := fun h0 => hb (BitVec.eq_of_toNat_eq h0)
  have hle := h.bounds.1
  intro h0
  have hz : x.toNat = 0 := by rw [h0]; rfl
  omega

theorem ItemsOk.base_ne_zero (hw : ItemsOk a p cs w) : a.base ≠ 0 := by
  obtain ⟨free, hok⟩ := hw.pool
  have hv := hok.valid
  simp only [poolValid, Bool.and_eq_true, decide_eq_true_eq] at hv
  rw [← hw.geometry.1]
  exact hv.2

/-- All slots are live exactly when the free list is empty. -/
theorem ItemsOk.full_iff (hw : ItemsOk a p cs w) (hf : a.Fits) {free : List Nat}
    (hok : PoolOk w.s p cs free) : w.live.length = a.capacity.toNat ↔ free = [] := by
  have hcap : a.capacity.toNat = (cs.map fun c => (w.s.chunks c).data).length := by
    rw [List.length_map, hok.length, hw.geometry.2.2]
  rw [hw.live.length_eq, hcap, heldItems, List.length_filter_eq_length_iff]
  simp only [List.mem_map, decide_eq_true_eq]
  constructor
  · intro h
    cases free with
    | nil => rfl
    | cons c rest =>
      have hc := List.mem_cons_self (a := c) (l := rest)
      exact absurd (hok.freeData c hc) (h _ ⟨c, hok.freeSub c hc, rfl⟩)
  · rintro rfl x ⟨c, hc, rfl⟩
    obtain ⟨i, hi⟩ := List.getElem?_of_mem hc
    rw [hok.usedData i c hi List.not_mem_nil]
    exact (hw.slot hf hi).ne_zero hw.base_ne_zero

/-- The live items are the slots of the used chunks. -/
theorem ItemsOk.mem_live (hw : ItemsOk a p cs w) {free : List Nat} (hok : PoolOk w.s p cs free)
    {x : Ptr} : x ∈ w.live → ∃ i c, cs[i]? = some c ∧ c ∉ free ∧ x = itemAddr w.s p i := by
  intro hx
  obtain ⟨hx0, c, hc, hcx⟩ := mem_heldItems.mp (hw.live.mem_iff.mp hx)
  obtain ⟨i, hi⟩ := List.getElem?_of_mem hc
  have hused : c ∉ free := fun hm => hx0 (hcx ▸ hok.freeData c hm)
  exact ⟨i, c, hi, hused, hcx ▸ hok.usedData i c hi hused⟩

/-- Every chunk of the pool is free or holds a live item. -/
theorem ItemsOk.live_length (hw : ItemsOk a p cs w) (hf : a.Fits) {free : List Nat} (hok : PoolOk w.s p cs free) :
    w.live.length + free.length = a.capacity.toNat := by
  have hmem : ∀ c, c ∈ cs.filter (fun c => (w.s.chunks c).data = 0) ↔ c ∈ free := by
    intro c
    rw [List.mem_filter, decide_eq_true_eq]
    constructor
    · rintro ⟨hc, h0⟩
      obtain ⟨i, hi⟩ := List.getElem?_of_mem hc
      by_contra hused
      rw [hok.usedData i c hi hused] at h0
      exact (hw.slot hf hi).ne_zero hw.base_ne_zero h0
    · intro hc
      exact ⟨hok.freeSub c hc, hok.freeData c hc⟩
  have hperm := (List.perm_ext_iff_of_nodup (hok.nodup.filter _) hok.free_nodup).mpr hmem
  have hheld : (heldItems w.s cs).length =
      (cs.filter fun c => !decide ((w.s.chunks c).data = 0)).length := by
    rw [heldItems, List.filter_map, List.length_map]
    congr 2
    funext c
    simp
  have hsplit := List.length_eq_length_filter_add (l := cs) fun c => (w.s.chunks c).data = 0
  rw [hw.live.length_eq, hheld, ← hperm.length_eq, ← hw.geometry.2.2, ← hok.length, hsplit]
  exact Nat.add_comm ..

theorem ItemsOk.live_nodup (hw : ItemsOk a p cs w) (hf : a.Fits) : w.live.Nodup := by
  obtain ⟨free, hok⟩ := hw.pool
  have hpos := hf.itemSize
  rw [hw.live.nodup_iff, heldItems, List.Nodup, List.pairwise_filter, List.pairwise_map]
  refine hok.nodup.imp_of_mem fun {c d} hc hd hcd hc0 hd0 heq => hcd ?_
  obtain ⟨i, hi⟩ := List.getElem?_of_mem hc
  obtain ⟨j, hj⟩ := List.getElem?_of_mem hd
  rw [decide_eq_true_eq] at hc0 hd0
  have hcu : c ∉ free := fun hm => hc0 (hok.freeData c hm)
  have hdu : d ∉ free := fun hm => hd0 (hok.freeData d hm)
  rw [hok.usedData i c hi hcu, hok.usedData j d hj hdu] at heq
  have hij : i = j := by
    by_contra hne
    obtain h | h := (hw.slot hf hi).disjoint (hw.slot hf hj) hne
    · rw [heq] at h
      omega
    · rw [heq] at h
      omega
  subst hij
  exact Option.some.inj (hi.symm.trans hj)

/-! ## The calls -/

theorem ItemsOk.alloc (hw : ItemsOk a p cs w) (hf : a.Fits) {free : List Nat} {c : Nat}
    (hok : PoolOk w.s p cs (c :: free)) {i : Nat} (hi : cs[i]? = some c) :
    ItemsOk a p cs { s := allocChunk w.s p c, live := itemAddr w.s p i :: w.live } where
  geometry := by
    have hp : (allocChunk w.s p c).pools p =
        { w.s.pools p with alloc := w.s.links.next (.chunk c) } := by
      rw [allocChunk_pools, if_pos rfl]
    show ((allocChunk w.s p c).pools p).base = _ ∧ ((allocChunk w.s p c).pools p).itemSize = _ ∧
      ((allocChunk w.s p c).pools p).capacity = _
    rw [hp]
    exact hw.geometry
  pool := ⟨free, hok.afterAlloc⟩
  live := by
    have hdata : ((allocChunk w.s p c).chunks c).data = itemAddr w.s p i := by
      rw [allocChunk_chunks, if_pos rfl, hok.index i c hi]
    have h0 := (hw.slot hf hi).ne_zero hw.base_ne_zero
    have h1 := heldItems_perm hok.nodup (List.mem_of_getElem? hi)
      (hok.freeData c (List.mem_cons_self ..)) (hdata ▸ h0)
      (fun d hd => by rw [allocChunk_chunks, if_neg hd])
    rw [hdata] at h1
    exact (hw.live.cons _).trans h1.symm

theorem ItemsOk.alloc_ok (hw : ItemsOk a p cs w) (hf : a.Fits) : PoolCallOk a p w .alloc := by
  obtain ⟨free, hok⟩ := hw.pool
  cases free with
  | nil =>
    refine ⟨0, w.s, hok.poolAlloc_nil, ?_, fun h => absurd rfl h⟩
    exact ⟨fun _ => (hw.full_iff hf hok).mpr rfl, fun _ => rfl⟩
  | cons c free =>
    have hc : c ∈ cs := hok.freeSub c (List.mem_cons_self ..)
    obtain ⟨i, hi⟩ := List.getElem?_of_mem hc
    have hslot := hw.slot hf hi
    have h0 := hslot.ne_zero hw.base_ne_zero
    refine ⟨itemAddr w.s p i, allocChunk w.s p c, hok.poolAlloc_cons hi, ?_, fun _ => ?_⟩
    · constructor
      · intro h
        exact absurd h h0
      · intro h
        have := (hw.full_iff hf hok).mp h
        cases this
    have hmem : ∀ y, (allocChunk w.s p c).mem y =
        if (y - itemAddr w.s p i).toNat < a.itemSize.toNat then 0 else w.s.mem y := by
      intro y
      rw [allocChunk_mem, hok.index i c hi, zeromem_apply, hw.geometry.2.1]
    refine ⟨⟨i, hslot⟩, fun k hk => ?_, fun y hy => ?_, fun y hy => ?_⟩
    · have hoff : (itemAddr w.s p i + BitVec.ofNat 32 k - itemAddr w.s p i).toNat = k := by
        have := a.itemSize.isLt
        rw [BitVec.add_comm, BitVec.add_sub_cancel, BitVec.toNat_ofNat]
        exact Nat.mod_eq_of_lt (by omega)
      rw [hmem, hoff, if_pos hk]
    · rw [hmem, if_neg (by omega)]
    · obtain ⟨j, d, hj, hused, rfl⟩ := hw.mem_live hok hy
      have hij : i ≠ j := by
        rintro rfl
        rw [hi] at hj
        exact hused (Option.some.inj hj ▸ List.mem_cons_self ..)
      exact hslot.disjoint (hw.slot hf hj) hij

/-- The code's own test of an address agrees with the area. -/
theorem addrValid_iff {s : PoolState} (hf : a.Fits) (hg : (s.pools p).base = a.base ∧
    (s.pools p).itemSize = a.itemSize ∧ (s.pools p).capacity = a.capacity) (x : Ptr) :
    addrValid s p x = true ↔ ¬ a.Outside x := by
  have hsize : (a.itemSize * a.capacity).toNat = a.size % 2 ^ 32 := BitVec.toNat_mul ..
  have hpos : 0 < a.size := Nat.mul_pos hf.itemSize hf.capacity
  have hbound := hf.bound
  have hlimit : (a.base + a.itemSize * a.capacity - 1).toNat = a.base.toNat + a.size - 1 := by
    have h1 : (1 : Ptr).toNat = 1 := rfl
    rw [BitVec.toNat_sub, BitVec.toNat_add, hsize, h1]
    omega
  rw [addrValid, getLimit, getBase, hg.1, hg.2.1, hg.2.2, Bool.and_eq_true, decide_eq_true_eq,
    decide_eq_true_eq, BitVec.le_def, BitVec.le_def, hlimit]
  unfold Area.Outside
  omega

theorem ItemsOk.live_inside (hw : ItemsOk a p cs w) (hf : a.Fits) {x : Ptr} (hx : x ∈ w.live) :
    x ≠ 0 ∧ ¬ a.Outside x := by
  obtain ⟨free, hok⟩ := hw.pool
  obtain ⟨i, c, hi, _, rfl⟩ := hw.mem_live hok hx
  have hslot := hw.slot hf hi
  have hb := hslot.bounds
  have hpos := hf.itemSize
  refine ⟨hslot.ne_zero hw.base_ne_zero, ?_⟩
  unfold Area.Outside
  omega

/-- The chunk of a live item is where `pool_free` looks for it. -/
theorem ItemsOk.located (hw : ItemsOk a p cs w) (hf : a.Fits) (hcons : Consecutive cs) {x : Ptr}
    (hx : x ∈ w.live) : ∃ c ∈ cs, (w.s.chunks c).data = x ∧ Located w.s p x c := by
  obtain ⟨free, hok⟩ := hw.pool
  obtain ⟨i, c, hi, hused, hxi⟩ := hw.mem_live hok hx
  have hlt := (List.getElem?_eq_some_iff.mp hi).1
  obtain ⟨base, hcs, _, hbase⟩ := hok.consecutive_base hcons
  have hc : c = base + i := by
    rw [hcs, List.getElem?_range' hlt] at hi
    have := Option.some.inj hi
    omega
  have hmul : a.itemSize.toNat * i < a.size := by
    apply Nat.mul_lt_mul_of_pos_left _ hf.itemSize
    rw [← hw.geometry.2.2, ← hok.length]
    exact hlt
  have hbound := hf.bound
  refine ⟨c, List.mem_of_getElem? hi, ?_, ?_, ?_, base, hbase ?_, ?_⟩
  · rw [hok.usedData i c hi hused, hxi]
  · exact (addrValid_iff hf hw.geometry x).mpr (hw.live_inside hf hx).2
  · rw [hok.index i c hi, hw.geometry.2.1]
    omega
  · rw [← hok.length]
    omega
  · rw [hok.index i c hi, hc]

theorem ItemsOk.free (hw : ItemsOk a p cs w) {free : List Nat} {c : Nat} {x : Ptr}
    (hok : PoolOk w.s p cs free) (hx : x ≠ 0) (hc : c ∈ cs) (hused : c ∉ free)
    (hcx : (w.s.chunks c).data = x) :
    ItemsOk a p cs { s := freeChunk w.s p c, live := w.live.erase x } where
  geometry := by
    have hp : (freeChunk w.s p c).pools p = { w.s.pools p with alloc := .chunk c } := by
      rw [freeChunk_pools, if_pos rfl]
    show ((freeChunk w.s p c).pools p).base = _ ∧ ((freeChunk w.s p c).pools p).itemSize = _ ∧
      ((freeChunk w.s p c).pools p).capacity = _
    rw [hp]
    exact hw.geometry
  pool := ⟨c :: free, hok.afterFree hc hused⟩
  live := by
    have h1 := heldItems_perm (t := w.s) (s := freeChunk w.s p c) hok.nodup hc
      (by rw [freeChunk_chunks, if_pos rfl]) (hcx ▸ hx)
      (fun d hd => by rw [freeChunk_chunks, if_neg hd])
    rw [hcx] at h1
    have h2 := (hw.live.trans h1).erase x
    rwa [List.erase_cons_head] at h2

/-- A `pool_free` of a legal address either frees a live item or refuses and changes nothing. -/
theorem ItemsOk.free_cases (hw : ItemsOk a p cs w) (hf : a.Fits) (hcons : Consecutive cs) {x : Ptr}
    (hlegal : LegalItem a w (.free x)) :
    (x ∈ w.live ∧ ∃ t, poolFree w.s (some p) x = .ok (0, t) ∧
        ItemsOk a p cs { s := t, live := w.live.erase x }) ∨
      (x ∉ w.live ∧ ∃ r, (r = -EINVAL ∨ r = -EPERM) ∧ poolFree w.s (some p) x = .ok (r, w.s)) := by
  obtain ⟨free, hok⟩ := hw.pool
  by_cases hx : x ∈ w.live
  · obtain ⟨c, hc, hcx, hloc⟩ := hw.located hf hcons hx
    have hx0 := (hw.live_inside hf hx).1
    obtain ⟨hused, hfree⟩ := hok.poolFree_located hx0 hc hcx hloc
    exact Or.inl ⟨hx, _, hfree, hw.free hok hx0 hc hused hcx⟩
  · refine Or.inr ⟨hx, ?_⟩
    by_cases hx0 : x = 0
    · refine ⟨-EINVAL, Or.inl rfl, ?_⟩
      simp only [poolFree, hx0, decide_true, Bool.or_true, if_true]
    · have hout : a.Outside x := (hlegal.resolve_left hx).resolve_left hx0
      have hav : addrValid w.s p x = false := by
        have h := addrValid_iff hf hw.geometry x
        cases hv : addrValid w.s p x with
        | false => rfl
        | true => exact absurd hout (h.mp hv)
      refine ⟨-EPERM, Or.inr rfl, ?_⟩
      simp only [poolFree, hok.valid, hx0, hav, Bool.not_true, decide_false, Bool.or_self,
        Bool.false_eq_true, if_false, Bool.not_false, if_true]

theorem ItemsOk.callOk (hw : ItemsOk a p cs w) (hf : a.Fits) (hcons : Consecutive cs) {op : ItemOp}
    (hlegal : LegalItem a w op) : PoolCallOk a p w op := by
  cases op with
  | alloc => exact hw.alloc_ok hf
  | free x =>
    obtain ⟨hx, t, hfree, _⟩ | ⟨hx, r, hr, hfree⟩ := hw.free_cases hf hcons hlegal
    · exact ⟨0, t, hfree, ⟨fun _ => hx, fun _ => rfl⟩, fun h => absurd rfl h⟩
    · refine ⟨r, w.s, hfree, ⟨fun h => ?_, fun h => absurd h hx⟩, fun _ => ⟨hr, rfl⟩⟩
      obtain rfl | rfl := hr
      · exact absurd h (by decide)
      · exact absurd h (by decide)

theorem ItemsOk.step (hw : ItemsOk a p cs w) (hf : a.Fits) (hcons : Consecutive cs) {op : ItemOp}
    (hlegal : LegalItem a w op) {w' : ItemWorld} (h : itemStep p w op = .ok w') :
    ItemsOk a p cs w' := by
  cases op with
  | alloc =>
    obtain ⟨⟨x, t⟩, hx, hr⟩ := bind_ok.mp h
    cases hr
    obtain ⟨free, hok⟩ := hw.pool
    cases free with
    | nil =>
      rw [hok.poolAlloc_nil] at hx
      cases hx
      exact hw
    | cons c free =>
      obtain ⟨i, hi⟩ := List.getElem?_of_mem (hok.freeSub c (List.mem_cons_self ..))
      rw [hok.poolAlloc_cons hi] at hx
      cases hx
      show ItemsOk a p cs { s := _, live := if itemAddr w.s p i = 0 then _ else _ }
      rw [if_neg ((hw.slot hf hi).ne_zero hw.base_ne_zero)]
      exact hw.alloc hf hok hi
  | free x =>
    obtain ⟨⟨r, t⟩, hx, hr⟩ := bind_ok.mp h
    cases hr
    obtain ⟨_, t', hfree, hw'⟩ | ⟨_, r', hr', hfree⟩ := hw.free_cases hf hcons hlegal
    · rw [hfree] at hx
      cases hx
      exact hw'
    · rw [hfree] at hx
      cases hx
      have hr0 : r ≠ 0 := by
        obtain rfl | rfl := hr'
        · decide
        · decide
      show ItemsOk a p cs { s := _, live := if r = 0 then _ else _ }
      rw [if_neg hr0]
      exact hw

end Items

/-- **Allocation.** From the creation of a pool in consecutive chunks on, every call of a legal
sequence of `pool_alloc` and `pool_free` does what it should. -/
theorem pool_items_ok (s₀ s : PoolState) (a : Area) (name : Option CString) (p : Nat)
    (ops : List ItemOp) (hf : a.Fits)
    (hcreate : poolCreate s₀ a.base name a.itemSize a.capacity = .ok (some p, s))
    (hcons : Consecutive (given s₀ s))
    (hlegal : Throughout (itemStep p) (LegalItem a) { s := s, live := [] } ops) :
    Throughout (itemStep p) (PoolCallOk a p) { s := s, live := [] } ops := by
  obtain ⟨h, _⟩ | ⟨p', cs, hp, hc, hgeo⟩ := poolCreate_ok hcreate
  · cases h
  obtain rfl := Option.some.inj hp
  rw [given_eq hc] at hcons
  have hnil : heldItems s cs = [] := hc.ok.heldItems_nil
  have hstart : ItemsOk a p cs { s := s, live := [] } :=
    ⟨hgeo, ⟨cs, hc.ok⟩, by rw [hnil]⟩
  exact hlegal.of_invariant (fun _ _ _ hw hl hs => hw.step hf hcons hl hs)
    (fun _ _ hw hl => hw.callOk hf hcons hl) hstart

/-- The pool is filled, one allocation fails, and an item comes back to be used again. -/
def drainOps : List ItemOp :=
  [.alloc, .alloc, .alloc, .free 0x1008, .free 0, .free 0x1010, .alloc]

theorem pool_items_ok_drain :
    ∃ s, poolCreate (initPool (.bss fun _ => 0)) 0x1000 (some [0x61]) 8 2 = .ok (some 0, s) ∧
      Throughout (itemStep 0) (PoolCallOk ⟨0x1000, 8, 2⟩ 0) { s := s, live := [] } drainOps := by
  have h : ∃ r, poolCreate (initPool (.bss fun _ => 0)) 0x1000 (some [0x61]) 8 2 = .ok r ∧
      r.1 = some 0 ∧ Consecutive (given (initPool (.bss fun _ => 0)) r.2) ∧
      Throughout (itemStep 0) (LegalItem ⟨0x1000, 8, 2⟩) { s := r.2, live := [] } drainOps := by
    decide +kernel
  obtain ⟨⟨p, s⟩, hcreate, rfl, hcons, hlegal⟩ := h
  refine ⟨s, hcreate, ?_⟩
  exact pool_items_ok (initPool (.bss fun _ => 0)) s ⟨0x1000, 8, 2⟩ (some [0x61]) 0 drainOps
    ⟨by decide, by decide, by decide⟩ hcreate hcons hlegal

end Ohwes

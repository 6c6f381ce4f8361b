import Ohwes.Kernel.IoRanges

/-! # What the calls do to the registry

`IoOk s live rs` is the invariant of the registry: `rs` are the records on the list, in its order, and
`live` all the records the pool has given out, those that are not on the list any more included. On
the list of ranges held, `reserve_io_range` is the walk `place`, and `release_io_range` takes out the
first range with the given base and count. Neither gives a slot back. -/

namespace Ohwes
set_option autoImplicit false
open Library

/-! ## The invariant -/

structure IoOk (a : Area) (p : Nat) (cs : List Nat) (s : IoState) (live rs : List Ptr) : Prop where
  pool : s.rangesPool = some p
  items : ItemsOk a p cs { s := s.pool, live := live }
  links : Circular s.links .list (rs.map .range)
  sub : ∀ x ∈ rs, x ∈ live

namespace IoOk
variable {a : Area} {p : Nat} {cs : List Nat} {s t : IoState} {live rs : List Ptr}

theorem nodup (h : IoOk a p cs s live rs) : rs.Nodup := List.Nodup.of_map _ h.links.items_nodup

theorem length_le_live (h : IoOk a p cs s live rs) : rs.length ≤ live.length :=
  (h.nodup.subperm fun x hx => h.sub x hx).length_le

theorem length_lt (h : IoOk a p cs s live rs) (hf : a.Fits) : rs.length < listFuel := by
  obtain ⟨free, hok⟩ := h.items.pool
  have h1 := h.items.live_length hf hok
  have h2 := hok.length_le
  rw [hok.length, h.items.geometry.2.2] at h2
  have h3 := h.length_le_live
  unfold listFuel
  dsimp only at h1
  omega

theorem records_eq (h : IoOk a p cs s live rs) (hf : a.Fits) : s.records = rs := by
  have hfuel : (rs.map IoNode.range).length < listFuel := by
    rw [List.length_map]
    exact h.length_lt hf
  rw [IoState.records, listIterator_eq h.links hfuel, List.filterMap_map]
  exact List.filterMap_some

theorem held_eq (h : IoOk a p cs s live rs) (hf : a.Fits) : s.held = rs.map s.rangeAt := by
  rw [IoState.held, h.records_eq hf]

theorem slots_eq (h : IoOk a p cs s live rs) : s.slots = a.capacity.toNat := by
  rw [IoState.slots, h.pool]
  dsimp only
  rw [h.items.geometry.2.2]

theorem freeSlots_eq (h : IoOk a p cs s live rs) (hf : a.Fits) :
    live.length + s.freeSlots = a.capacity.toNat := by
  obtain ⟨free, hok⟩ := h.items.pool
  have h1 := h.items.live_length hf hok
  rw [IoState.freeSlots, h.pool]
  dsimp only
  rw [hok.freeList_eq, List.length_map]
  exact h1

theorem slotsInUse_eq (h : IoOk a p cs s live rs) (hf : a.Fits) : s.slotsInUse = live.length := by
  have h1 := h.freeSlots_eq hf
  rw [IoState.slotsInUse, h.slots_eq]
  omega

end IoOk

/-! ## `reserve_io_range` -/

/-- The position of a walk that has the records `l` still to come. -/
def position : List Ptr → IoNode
  | [] => .list
  | e :: _ => .range e

theorem head_eq_position (l : List Ptr) :
    (l.map IoNode.range ++ [IoNode.list]).head (by simp) = position l := by
  cases l <;> rfl

/-- The walk from a position of the list on comes to an end with what `place` finds. -/
theorem reserveWalk_spec {s : IoState} {new : Ptr} {v : IoRange} (hv : s.rangeAt new = v) :
    ∀ (l₂ l₁ : List Ptr) (fuel : Nat), Circular s.links .list ((l₁ ++ l₂).map .range) →
      new ∉ l₁ ++ l₂ → l₂.length < fuel →
      (place IoRange.first IoRange.limit v (l₂.map s.rangeAt) = none ∧
        reserveWalk s v.base v.count new fuel (position l₂) = .ok (-EBUSY, s)) ∨
      ∃ links m, place IoRange.first IoRange.limit v (l₂.map s.rangeAt) = some (m.map s.rangeAt) ∧
        m.Perm (new :: l₂) ∧ Circular links .list ((l₁ ++ m).map .range) ∧
        reserveWalk s v.base v.count new fuel (position l₂) = .ok (0, s.withLinks links) := by
  intro l₂
  induction l₂ with
  | nil =>
    intro l₁ fuel hc hnew hfuel
    obtain ⟨fuel, rfl⟩ : ∃ k, fuel = k + 1 := ⟨fuel - 1, by simp at hfuel; omega⟩
    rw [List.append_nil] at hc hnew
    have hnode : IoNode.range new ∉ IoNode.list :: l₁.map IoNode.range := by simpa using hnew
    have hadd := listAdd_circular hc hnode
    refine Or.inr ⟨listAdd s.links .list (.range new), [new], ?_, List.Perm.refl _, ?_, rfl⟩
    · simp [place, hv]
    · simpa using hadd
  | cons e l₂ ih =>
    intro l₁ fuel hc hnew hfuel
    obtain ⟨fuel, rfl⟩ : ∃ k, fuel = k + 1 := ⟨fuel - 1, by simp at hfuel; omega⟩
    have hc' : Circular s.links .list (l₁.map IoNode.range ++ .range e :: l₂.map IoNode.range) := by
      simpa using hc
    rw [List.map_cons, position]
    by_cases hfit : FitsBefore IoRange.first IoRange.limit v (s.rangeAt e)
    · -- A gap: the record goes in front of the current one.
      have hnode : IoNode.range new ∉
          IoNode.list :: (l₁.map IoNode.range ++ .range e :: l₂.map IoNode.range) := by
        simpa using hnew
      have hadd : Circular (listAdd s.links (.range e) (.range new)) .list
          (l₁.map IoNode.range ++ .range new :: .range e :: l₂.map IoNode.range) :=
        hc'.splice hnode hc'.prev_item rfl
      refine Or.inr ⟨listAdd s.links (.range e) (.range new), new :: e :: l₂, ?_,
        List.Perm.refl _, by simpa using hadd, ?_⟩
      · rw [place_cons_of_fits hfit, List.map_cons, List.map_cons, hv]
      · exact if_pos hfit
    by_cases hin : StartsIn IoRange.first IoRange.limit v (s.rangeAt e)
    · exact Or.inl ⟨place_cons_of_startsIn hin, (if_neg hfit).trans (if_pos hin)⟩
    -- The walk goes on behind the current record.
    have hnext : s.links.next (.range e) = position l₂ := by
      rw [hc'.next_item, head_eq_position]
    have hstep : reserveWalk s v.base v.count new (fuel + 1) (.range e) =
        reserveWalk s v.base v.count new fuel (position l₂) := by
      rw [← hnext]
      exact (if_neg hfit).trans (if_neg hin)
    have hc₂ : Circular s.links .list (((l₁ ++ [e]) ++ l₂).map .range) := by simpa using hc
    have hnew₂ : new ∉ (l₁ ++ [e]) ++ l₂ := by simpa using hnew
    rw [hstep, place_cons_of_passed hfit hin]
    obtain ⟨hp, hr⟩ | ⟨links, m, hp, hm, hcm, hr⟩ := ih _ _ hc₂ hnew₂ (by simpa using hfuel)
    · exact Or.inl ⟨by rw [hp]; rfl, hr⟩
    · refine Or.inr ⟨links, e :: m, by rw [hp]; rfl, ?_, by simpa using hcm, hr⟩
      exact (hm.cons e).trans (List.Perm.swap new e l₂)

namespace IoOk
variable {a : Area} {p : Nat} {cs : List Nat} {s : IoState} {live rs : List Ptr}

/-- A full pool: the call refuses and changes nothing. -/
theorem reserve_full (h : IoOk a p cs s live rs) (hf : a.Fits)
    (hfull : live.length = a.capacity.toNat) (base : BitVec 16) (count : BitVec 8) (name : CString) :
    reserveIoRange s base count name = .ok (-ENOMEM, s) := by
  obtain ⟨free, hok⟩ := h.items.pool
  obtain rfl := (h.items.full_iff hf hok).mp hfull
  have hsome : s.rangesPool ≠ none := by simp [h.pool]
  have halloc : poolAlloc s.pool s.rangesPool = .ok (0, s.pool) := by
    rw [h.pool]
    exact hok.poolAlloc_nil
  rw [reserveIoRange, if_neg hsome, halloc, ok_bind]
  exact if_pos rfl

/-- A fresh record, not yet on the list. -/
theorem allocRange (h : IoOk a p cs s live rs) (hf : a.Fits)
    (hroom : live.length < a.capacity.toNat) (v : IoRange) :
    ∃ x pool, poolAlloc s.pool s.rangesPool = .ok (x, pool) ∧ x ≠ 0 ∧ x ∉ rs ∧
      IoOk a p cs ({ s with pool := pool }.setRange x v) (x :: live) rs := by
  obtain ⟨free, hok⟩ := h.items.pool
  cases free with
  | nil =>
    have := (h.items.full_iff hf hok).mpr rfl
    dsimp only at this
    omega
  | cons c free =>
    obtain ⟨i, hi⟩ := List.getElem?_of_mem (hok.freeSub c (List.mem_cons_self ..))
    have hitems := h.items.alloc hf hok hi
    have hfresh : itemAddr s.pool p i ∉ live := (List.nodup_cons.mp (hitems.live_nodup hf)).1
    have hrs : itemAddr s.pool p i ∉ rs := fun hm => hfresh (h.sub _ hm)
    refine ⟨itemAddr s.pool p i, allocChunk s.pool p c, ?_, ?_, hrs, h.pool, hitems, ?_, ?_⟩
    · rw [h.pool]
      exact hok.poolAlloc_cons hi
    · exact (h.items.slot hf hi).ne_zero h.items.base_ne_zero
    · -- The zeroed chain is that of a record off the list.
      refine h.links.frame fun y hy => ?_
      have hne : y ≠ .range (itemAddr s.pool p i) := by
        rintro rfl
        simp [hrs] at hy
      simp [IoState.setRange, hne]
    · exact fun y hy => List.mem_cons_of_mem _ (h.sub y hy)

/-- A free slot: the record is filled in and the walk decides; the slot is taken either way. -/
theorem reserve_room (h : IoOk a p cs s live rs) (hf : a.Fits)
    (hroom : live.length < a.capacity.toNat) (base : BitVec 16) (count : BitVec 8) (name : CString) :
    ∃ x t rs', IoOk a p cs t (x :: live) rs' ∧
      ((place IoRange.first IoRange.limit ⟨name, base, count⟩ s.held = none ∧
          reserveIoRange s base count name = .ok (-EBUSY, t) ∧ t.held = s.held) ∨
        (place IoRange.first IoRange.limit ⟨name, base, count⟩ s.held = some t.held ∧
          reserveIoRange s base count name = .ok (0, t))) := by
  obtain ⟨x, pool, halloc, hx0, hxrs, hok⟩ := h.allocRange hf hroom ⟨name, base, count⟩
  have hheld : s.held = rs.map ({ s with pool := pool }.setRange x ⟨name, base, count⟩).rangeAt := by
    rw [h.held_eq hf]
    refine List.map_congr_left fun y hy => ?_
    have hne : y ≠ x := fun e => hxrs (e ▸ hy)
    exact (Function.update_of_ne hne ..).symm
  have hat : ({ s with pool := pool }.setRange x ⟨name, base, count⟩).rangeAt x =
      ⟨name, base, count⟩ := Function.update_self ..
  have hsome : s.rangesPool ≠ none := by simp [h.pool]
  have hcall : reserveIoRange s base count name =
      if listEmpty ({ s with pool := pool }.setRange x ⟨name, base, count⟩).links .list then
        .ok (0, ({ s with pool := pool }.setRange x ⟨name, base, count⟩).withLinks
          (listAdd ({ s with pool := pool }.setRange x ⟨name, base, count⟩).links .list (.range x)))
      else reserveWalk ({ s with pool := pool }.setRange x ⟨name, base, count⟩) base count x listFuel
        (({ s with pool := pool }.setRange x ⟨name, base, count⟩).links.next .list) := by
    rw [reserveIoRange, if_neg hsome, halloc, ok_bind]
    exact if_neg hx0
  generalize { s with pool := pool }.setRange x ⟨name, base, count⟩ = u at hok hheld hat hcall
  have hwalk := reserveWalk_spec hat rs [] listFuel hok.links hxrs (hok.length_lt hf)
  have hnext : u.links.next .list = position rs := by
    rw [hok.links.next_head, head_eq_position]
  rw [← hheld] at hwalk
  have hstays : ∀ links m, m.Perm (x :: rs) → Circular links .list (m.map .range) →
      IoOk a p cs (u.withLinks links) (x :: live) m := by
    intro links m hm hc
    refine ⟨hok.pool, hok.items, hc, fun y hy => ?_⟩
    obtain rfl | hy := List.mem_cons.mp (hm.mem_iff.mp hy)
    · exact List.mem_cons_self ..
    · exact hok.sub y hy
  rw [listEmpty_eq hok.links] at hcall
  cases rs with
  | nil =>
    -- The list is empty: no walk, and `place` says the same.
    have hadd := listAdd_circular (x := IoNode.range x) hok.links (by simp)
    have hinv := hstays _ [x] (List.Perm.refl _) hadd
    refine ⟨x, _, [x], hinv, Or.inr ⟨?_, hcall⟩⟩
    rw [hheld, hinv.held_eq hf]
    exact congrArg some (congrArg (· :: []) hat.symm)
  | cons e rs =>
    rw [hnext] at hcall
    obtain ⟨hp, hr⟩ | ⟨links, m, hp, hm, hc, hr⟩ := hwalk
    · refine ⟨x, u, e :: rs, hok, Or.inl ⟨hp, hcall.trans hr, ?_⟩⟩
      rw [hok.held_eq hf, hheld]
    · have hinv := hstays links m hm hc
      refine ⟨x, _, m, hinv, Or.inr ⟨?_, hcall.trans hr⟩⟩
      rw [hp, hinv.held_eq hf]
      rfl

end IoOk

/-! ## `release_io_range` -/

/-- The walk from a position of the list on takes the first matching record off the list. -/
theorem releaseWalk_spec {s : IoState} (base : BitVec 16) (count : BitVec 8) :
    ∀ (l₂ l₁ : List Ptr) (fuel : Nat), Circular s.links .list ((l₁ ++ l₂).map .range) →
      l₂.length < fuel →
      ∃ links, releaseWalk s base count fuel (position l₂) = .ok (s.withLinks links) ∧
        Circular links .list ((l₁ ++ l₂.eraseP fun e =>
          (s.rangeAt e).base = base ∧ (s.rangeAt e).count = count).map .range) := by
  intro l₂
  induction l₂ with
  | nil =>
    intro l₁ fuel hc hfuel
    obtain ⟨fuel, rfl⟩ : ∃ k, fuel = k + 1 := ⟨fuel - 1, by simp at hfuel; omega⟩
    exact ⟨s.links, rfl, by simpa using hc⟩
  | cons e l₂ ih =>
    intro l₁ fuel hc hfuel
    obtain ⟨fuel, rfl⟩ : ∃ k, fuel = k + 1 := ⟨fuel - 1, by simp at hfuel; omega⟩
    have hc' : Circular s.links .list (l₁.map IoNode.range ++ .range e :: l₂.map IoNode.range) := by
      simpa using hc
    rw [position, List.eraseP_cons]
    by_cases hm : (s.rangeAt e).base = base ∧ (s.rangeAt e).count = count
    · refine ⟨listRemove s.links (.range e), if_pos hm, ?_⟩
      simpa [hm] using listRemove_circular hc'
    · have hnext : s.links.next (.range e) = position l₂ := by
        rw [hc'.next_item, head_eq_position]
      have hc₂ : Circular s.links .list (((l₁ ++ [e]) ++ l₂).map .range) := by simpa using hc
      obtain ⟨links, hr, hcl⟩ := ih _ _ hc₂ (by simpa using hfuel)
      refine ⟨links, ?_, ?_⟩
      · rw [← hr, ← hnext]
        exact if_neg hm
      · simpa [hm] using hcl

/-- The first range with this base and count leaves the list; no slot comes back. -/
theorem IoOk.release {a : Area} {p : Nat} {cs : List Nat} {s : IoState} {live rs : List Ptr}
    (h : IoOk a p cs s live rs) (hf : a.Fits) (base : BitVec 16) (count : BitVec 8) :
    ∃ t rs', releaseIoRange s base count = .ok t ∧ IoOk a p cs t live rs' ∧
      t.held = s.held.eraseP fun r => r.base = base ∧ r.count = count := by
  obtain ⟨links, hr, hc⟩ := releaseWalk_spec base count rs [] listFuel h.links (h.length_lt hf)
  have hnext : s.links.next .list = position rs := by
    rw [h.links.next_head, head_eq_position]
  have hinv : IoOk a p cs (s.withLinks links) live _ :=
    ⟨h.pool, h.items, hc, fun x hx => h.sub x (List.mem_of_mem_eraseP hx)⟩
  refine ⟨s.withLinks links, _, ?_, hinv, ?_⟩
  · rw [releaseIoRange, hnext, hr]
  · rw [hinv.held_eq hf, h.held_eq hf, List.eraseP_map]
    rfl

/-! ## `init_io` -/

/-- The area of the pool: 16 items of 32 bytes. -/
def IoLayout.area (L : IoLayout) : Area where
  base := L.ranges
  itemSize := MAX_NR_IO_RANGES
  capacity := SIZEOF_IO_RANGE

theorem IoLayout.area_fits (L : IoLayout) : L.area.Fits where
  itemSize := by
    show 0 < MAX_NR_IO_RANGES.toNat
    decide
  capacity := by
    show 0 < SIZEOF_IO_RANGE.toNat
    decide
  bound := L.ranges_fits

theorem initIo_ok {L : IoLayout} {s₀ : PoolState} {s : IoState} (h : initIo L s₀ = .ok s) :
    ∃ p cs, IoOk L.area p cs s [] [] := by
  unfold initIo at h
  obtain ⟨⟨r, t⟩, hcreate, h⟩ := bind_ok.mp h
  dsimp only at h
  split at h
  · cases h
  rename_i hr
  cases h
  obtain ⟨rfl, _⟩ | ⟨p, cs, rfl, hc, hgeo⟩ := poolCreate_ok hcreate
  · exact absurd rfl hr
  have hnil : heldItems t cs = [] := by
    rw [heldItems, List.filter_eq_nil_iff]
    intro x hx
    obtain ⟨c, hcm, rfl⟩ := List.mem_map.mp hx
    simp [hc.ok.freeData c hcm]
  refine ⟨p, cs, rfl, ⟨hgeo, ⟨cs, hc.ok⟩, by rw [hnil]⟩, ?_, by simp⟩
  exact ⟨List.isChain_pair.mpr ⟨rfl, rfl⟩, List.nodup_singleton _⟩

end Ohwes

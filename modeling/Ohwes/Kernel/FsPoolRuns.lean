import Ohwes.Kernel.FsCapacity

/-! # Runs on the pools of `fs.c`

`FsPoolsOk` is the invariant: the three pools are sound, in consecutive chunks, and share none. From
`bootFs` on, the allocations of a run succeed as the lengths of the arrays promise if and only if
none comes when a pool is out of slots (`fs_pools_exact_iff`); that the live objects are disjoint and
inside their array holds in every state. -/

namespace Ohwes
set_option autoImplicit false
open Library

/-! ## One pool -/

section Items
variable {a : Area} {p : Nat} {cs : List Nat} {w : ItemWorld}

theorem ItemsOk.frame (hw : ItemsOk a p cs w) {t : PoolState} {q : Nat} {ds : List Nat}
    (hs : SameOutside w.s t q ds) (hpq : p ≠ q) (hcd : ∀ c ∈ cs, c ∉ ds) :
    ItemsOk a p cs { s := t, live := w.live } where
  geometry := by
    show (t.pools p).base = _ ∧ (t.pools p).itemSize = _ ∧ (t.pools p).capacity = _
    rw [hs.pools p hpq]
    exact hw.geometry
  pool := by
    obtain ⟨free, hok⟩ := hw.pool
    exact ⟨free, hok.frame hs hpq hcd⟩
  live := by
    show w.live.Perm (heldItems t cs)
    rw [heldItems_congr fun c hc => hs.chunks c (hcd c hc)]
    exact hw.live

theorem ItemsOk.of_perm (hw : ItemsOk a p cs w) {l : List Ptr} (hl : l.Perm w.live) :
    ItemsOk a p cs { s := w.s, live := l } where
  geometry := hw.geometry
  pool := hw.pool
  live := hl.trans hw.live

/-- Two addresses of live items in whose slots one address lies are the same. -/
theorem ItemsOk.slot_unique (hw : ItemsOk a p cs w) (hf : a.Fits) {x y z : Ptr} (hy : y ∈ w.live)
    (hz : z ∈ w.live) (hxy : y.toNat ≤ x.toNat ∧ x.toNat < y.toNat + a.itemSize.toNat)
    (hxz : z.toNat ≤ x.toNat ∧ x.toNat < z.toNat + a.itemSize.toNat) : y = z := by
  obtain ⟨free, hok⟩ := hw.pool
  obtain ⟨i, c, hi, _, rfl⟩ := hw.mem_live hok hy
  obtain ⟨j, d, hj, _, rfl⟩ := hw.mem_live hok hz
  by_cases hij : i = j
  · rw [hij]
  · have hdis := (hw.slot hf hi).disjoint (hw.slot hf hj) hij
    omega

/-- A refused address lies in no slot of a live item. -/
theorem ItemsOk.refused_elsewhere (hw : ItemsOk a p cs w) (hf : a.Fits) {x y : Ptr} {r : Int}
    {t : PoolState} (h : poolFree w.s (some p) x = .ok (r, t)) (hr : r = -EINVAL ∨ r = -EPERM)
    (hy : y ∈ w.live) : ¬ (y.toNat ≤ x.toNat ∧ x.toNat < y.toNat + a.itemSize.toNat) := by
  intro hxy
  obtain ⟨free, hok⟩ := hw.pool
  obtain ⟨hy0, hyout⟩ := hw.live_inside hf hy
  obtain ⟨i, c, hi, _, rfl⟩ := hw.mem_live hok hy
  have hb := (hw.slot hf hi).bounds
  have hav : addrValid w.s p x = true := by
    refine (addrValid_iff hf hw.geometry x).mpr ?_
    unfold Area.Outside
    omega
  have hxne : x ≠ 0 := by
    rintro rfl
    apply hy0
    apply BitVec.eq_of_toNat_eq
    exact Nat.le_zero.mp hxy.1
  have hne := itemSize_ne_zero hok.valid hav
  simp only [poolFree, hok.valid, hxne, hav, hne, Bool.not_true, decide_false, Bool.or_self,
    Bool.false_eq_true, if_false] at h
  obtain ⟨_, h⟩ := assert_bind_ok.mp h
  split at h
  · cases h
  split at h
  · obtain ⟨_, h⟩ := assert_bind_ok.mp h
    obtain ⟨_, h⟩ := assert_bind_ok.mp h
    obtain ⟨h0, -⟩ := Prod.mk.inj (Except.ok.inj h)
    obtain rfl | rfl := hr
    · exact absurd h0 (by decide)
    · exact absurd h0 (by decide)
  · cases h

/-- An address of the pool lies in the slot of the item it is rounded down to. -/
theorem ItemsOk.rounds_down (hw : ItemsOk a p cs w) (hf : a.Fits) {x : Ptr}
    (ha : addrValid w.s p x = true) {c : Nat} (hi : cs[itemIndex w.s p x]? = some c) :
    (itemAddr w.s p (itemIndex w.s p x)).toNat ≤ x.toNat ∧
      x.toNat < (itemAddr w.s p (itemIndex w.s p x)).toNat + a.itemSize.toNat := by
  have hgeo := hw.geometry
  have hslot := hw.slot hf hi
  have hbx : a.base.toNat ≤ x.toNat := by
    have hout := (addrValid_iff hf hgeo x).mp ha
    unfold Area.Outside at hout
    omega
  have hsub : (x - a.base).toNat = x.toNat - a.base.toNat := by
    rw [BitVec.toNat_sub_of_le (BitVec.le_def.mpr hbx)]
  have hix : itemIndex w.s p x = (x.toNat - a.base.toNat) / a.itemSize.toNat := by
    rw [itemIndex, hgeo.1, hgeo.2.1, hsub]
  have hdiv := Nat.div_add_mod (x.toNat - a.base.toNat) a.itemSize.toNat
  have hmod := Nat.mod_lt (x.toNat - a.base.toNat) hf.itemSize
  rw [hslot.2]
  rw [← hix] at hdiv
  omega

/-- A `pool_free` that comes back has taken back the items whose slot the address lies in. -/
theorem ItemsOk.free_any (hw : ItemsOk a p cs w) (hf : a.Fits) (hcons : Consecutive cs) {x : Ptr}
    {r : Int} {t : PoolState} (h : poolFree w.s (some p) x = .ok (r, t)) :
    ItemsOk a p cs { s := t, live := w.live.filter fun y =>
      ¬ (y.toNat ≤ x.toNat ∧ x.toNat < y.toNat + a.itemSize.toNat) } ∧
      SameOutside w.s t p cs := by
  obtain ⟨free, hok⟩ := hw.pool
  obtain ⟨hr, rfl⟩ | ⟨p', base, hpp, rfl, hv, hx0, ha, hlt, hbase, hidx, hdata, rfl⟩ := poolFree_ok h
  · refine ⟨hw.of_perm ?_, fun _ _ => rfl, fun _ _ => rfl, fun _ _ => ⟨rfl, rfl⟩⟩
    rw [List.filter_eq_self.mpr]
    intro y hy
    rw [decide_eq_true_eq]
    exact hw.refused_elsewhere hf h hr hy
  · obtain rfl := Option.some.inj hpp
    obtain ⟨b, hcs, _, hb⟩ := hok.consecutive_base hcons
    obtain rfl : b = base := by
      have := hb (by omega)
      rw [hbase] at this
      exact (Option.some.inj this).symm
    have hi : cs[itemIndex w.s p x]? = some (b + itemIndex w.s p x) := by
      rw [hcs, List.getElem?_range' (by rw [hok.length]; exact hlt)]
      simp
    have hc := List.mem_of_getElem? hi
    have hused : b + itemIndex w.s p x ∉ free := fun hm => hdata (hok.freeData _ hm)
    have hitem := hok.usedData _ _ hi hused
    have hslot := hw.slot hf hi
    have hmem : itemAddr w.s p (itemIndex w.s p x) ∈ w.live := by
      refine hw.live.mem_iff.mpr (mem_heldItems.mpr ⟨?_, _, hc, hitem⟩)
      exact hslot.ne_zero hw.base_ne_zero
    have hin := hw.rounds_down hf ha hi
    have hfilter : (w.live.filter fun y =>
        ¬ (y.toNat ≤ x.toNat ∧ x.toNat < y.toNat + a.itemSize.toNat)) =
        w.live.erase (itemAddr w.s p (itemIndex w.s p x)) := by
      rw [(hw.live_nodup hf).erase_eq_filter]
      refine List.filter_congr fun y hy => ?_
      rw [Bool.eq_iff_iff]
      simp only [decide_eq_true_eq, bne_iff_ne, ne_eq]
      refine not_congr ⟨fun hxy => hw.slot_unique hf hy hmem hxy hin, ?_⟩
      rintro rfl
      exact hin
    rw [hfilter]
    exact ⟨hw.free hok (hslot.ne_zero hw.base_ne_zero) hc hused hitem, hok.freeChunk_outside hc⟩

end Items

/-! ## The three pools -/

/-- Where the three pools are: their numbers and their chunks. -/
structure FsPlan where
  pid : FsPool → Nat
  cs : FsPool → List Nat
  ne : ∀ j k, j ≠ k → pid j ≠ pid k
  apart : ∀ j k, j ≠ k → ∀ c ∈ cs j, c ∉ cs k
  consecutive : ∀ k, Consecutive (cs k)

def FsPoolsOk (L : FsArrays) (P : FsPlan) (s : PoolState) (live : FsPool → List Ptr) : Prop :=
  ∀ k, ItemsOk (L.area k) (P.pid k) (P.cs k) { s := s, live := live k }

section Pools
variable {L : FsArrays} {P : FsPlan} {s t : PoolState} {live : FsPool → List Ptr}

/-- What keeps one pool sound and touches nothing outside it keeps all three sound. -/
theorem FsPoolsOk.update (h : FsPoolsOk L P s live) {k : FsPool} {l : List Ptr}
    (hout : SameOutside s t (P.pid k) (P.cs k))
    (hk : ItemsOk (L.area k) (P.pid k) (P.cs k) { s := t, live := l }) :
    FsPoolsOk L P t (Function.update live k l) := by
  intro j
  by_cases hjk : j = k
  · subst hjk
    rw [Function.update_self]
    exact hk
  · rw [Function.update_of_ne hjk]
    exact (h j).frame hout (P.ne j k hjk) (P.apart j k hjk)

/-- An allocation without a free slot. -/
theorem FsPoolsOk.alloc_full (h : FsPoolsOk L P s live) {k : FsPool}
    (hfull : (live k).length = k.size.toNat) : poolAlloc s (some (P.pid k)) = .ok (0, s) := by
  obtain ⟨free, hok⟩ := (h k).pool
  obtain rfl := ((h k).full_iff (L.area_fits k) hok).mp hfull
  exact hok.poolAlloc_nil

theorem FsPoolsOk.alloc_room (h : FsPoolsOk L P s live) {k : FsPool}
    (hroom : (live k).length < k.size.toNat) :
    ∃ x t, poolAlloc s (some (P.pid k)) = .ok (x, t) ∧ x ≠ 0 ∧
      FsPoolsOk L P t (Function.update live k (x :: live k)) := by
  have hf := L.area_fits k
  obtain ⟨free, hok⟩ := (h k).pool
  cases free with
  | nil =>
    have hfull : (live k).length = k.size.toNat := ((h k).full_iff hf hok).mpr rfl
    omega
  | cons c free =>
    obtain ⟨i, hi⟩ := List.getElem?_of_mem (hok.freeSub c (List.mem_cons_self ..))
    exact ⟨_, _, hok.poolAlloc_cons hi, ((h k).slot hf hi).ne_zero (h k).base_ne_zero,
      h.update hok.allocChunk_outside ((h k).alloc hf hok hi)⟩

theorem FsPoolsOk.length_le (h : FsPoolsOk L P s live) (k : FsPool) :
    (live k).length ≤ k.size.toNat := by
  obtain ⟨free, hok⟩ := (h k).pool
  have hlen : (live k).length + free.length = k.size.toNat := (h k).live_length (L.area_fits k) hok
  omega

theorem FsPoolsOk.free (h : FsPoolsOk L P s live) {k : FsPool} {x : Ptr} {r : Int}
    (hr : poolFree s (some (P.pid k)) x = .ok (r, t)) :
    FsPoolsOk L P t
      (Function.update live k ((live k).filter fun y => ¬ FsWorld.InSlot k x y)) := by
  obtain ⟨hok, hout⟩ := (h k).free_any (L.area_fits k) (P.consecutive k) hr
  exact h.update hout hok

/-- Slots are as long as the item size, which is not below the size of the structure. -/
theorem FsPoolsOk.liveDisjoint (h : FsPoolsOk L P s live) (k : FsPool) :
    ((live k).Pairwise fun x y =>
      x.toNat + k.size.toNat ≤ y.toNat ∨ y.toNat + k.size.toNat ≤ x.toNat) ∧
    ∀ x ∈ live k, (L.base k).toNat ≤ x.toNat ∧
      x.toNat + k.size.toNat ≤ (L.base k).toNat + k.maxNr.toNat * k.size.toNat := by
  have hf := L.area_fits k
  have hsize : k.size.toNat ≤ k.maxNr.toNat := by cases k <;> decide
  have hslot : ∀ x ∈ live k, ∃ i, (L.area k).IsSlot x i := by
    intro x hx
    obtain ⟨free, hok⟩ := (h k).pool
    obtain ⟨i, c, hi, _, rfl⟩ := (h k).mem_live hok hx
    exact ⟨i, (h k).slot hf hi⟩
  constructor
  · refine ((h k).live_nodup hf).imp_of_mem fun {x y} hx hy hxy => ?_
    obtain ⟨i, hi⟩ := hslot x hx
    obtain ⟨j, hj⟩ := hslot y hy
    have hij : i ≠ j := by
      rintro rfl
      apply hxy
      apply BitVec.eq_of_toNat_eq
      rw [hi.2, hj.2]
    obtain hd | hd := hi.disjoint hj hij
    · exact Or.inl ((Nat.add_le_add_left hsize _).trans hd)
    · exact Or.inr ((Nat.add_le_add_left hsize _).trans hd)
  · intro x hx
    obtain ⟨i, hi⟩ := hslot x hx
    obtain ⟨hlo, hhi⟩ := hi.bounds
    exact ⟨hlo, (Nat.add_le_add_left hsize _).trans hhi⟩

/-! ## `init_fs` -/

/-- The loop over the terminals, with room in both pools. -/
theorem FsPoolsOk.createDentries {φ : Type} (chdevOps : φ) (n i : Nat) {s : PoolState}
    {live : FsPool → List Ptr} (l : List (Dentry φ)) (h : FsPoolsOk L P s live)
    (hd : (live .dentries).length + n ≤ SIZEOF_DENTRY.toNat)
    (hi : (live .inodes).length + n ≤ SIZEOF_INODE.toNat) :
    ∃ t l' live', Ohwes.createDentries (some (P.pid .dentries)) (some (P.pid .inodes)) chdevOps n i s l =
      .ok (t, l') ∧ FsPoolsOk L P t live' ∧ live' .files = live .files := by
  induction n generalizing i s live l with
  | zero => exact ⟨s, l, live, rfl, h, rfl⟩
  | succ n ih =>
    have hroom : (live .dentries).length < FsPool.dentries.size.toNat := by
      show _ < SIZEOF_DENTRY.toNat
      omega
    obtain ⟨x, s₁, hx, hx0, h₁⟩ := h.alloc_room hroom
    unfold Ohwes.createDentries
    rw [hx, ok_bind, if_neg hx0]
    by_cases h0 : i = 0
    · rw [if_pos h0]
      obtain ⟨t, l', live', hc, hok, hfiles⟩ := ih (i + 1)
        ({ name := strncpy (List.replicate DENTRY_NAME_LENGTH 0) (ttyName i) DENTRY_NAME_LENGTH,
           inode := none } :: l) h₁ (by simp; omega) (by simp; omega)
      exact ⟨t, l', live', hc, hok, by rw [hfiles]; simp⟩
    · have hroom' : ((Function.update live .dentries (x :: live .dentries)) FsPool.inodes).length <
          FsPool.inodes.size.toNat := by
        show (live .inodes).length < SIZEOF_INODE.toNat
        omega
      obtain ⟨y, s₂, hy, hy0, h₂⟩ := h₁.alloc_room hroom'
      rw [if_neg h0, hy, ok_bind, if_neg hy0]
      obtain ⟨t, l', live', hc, hok, hfiles⟩ := ih (i + 1)
        ({ name := strncpy (List.replicate DENTRY_NAME_LENGTH 0) (ttyName i) DENTRY_NAME_LENGTH,
           inode := some { mode := MODE_CHRDEV, device := mkdev TTY_MAJOR i,
                           fops := some chdevOps } } :: l) h₂ (by simp; omega) (by simp; omega)
      exact ⟨t, l', live', hc, hok, by rw [hfiles]; simp⟩

end Pools

/-- The first `n` pools and the first `m` chunks are taken, and no others. -/
structure Fresh (s : PoolState) (n m : Nat) : Prop where
  ready : s.poolsInitialized = true
  pools : setBits s.poolMask.1 = List.range' n (32 - n)
  chunks : setBits s.chunkMask.1 = List.range' m (256 - m)

theorem Fresh.boot (mem : Memory) : Fresh (initPool (.bss mem)) 0 0 where
  ready := rfl
  pools := by
    show setBits (BitString.ones 1).1 = _
    decide +kernel
  chunks := by
    show setBits (BitString.ones 8).1 = _
    decide +kernel

/-- The next pool takes the next chunks. -/
theorem Fresh.create {s : PoolState} {n m : Nat} (h : Fresh s n m) {addr : Ptr} (name : CString)
    (itemSize : BitVec 32) {capacity : BitVec 32} (haddr : addr ≠ 0) (hn : n < 32) (m' : Nat)
    (hm : m + capacity.toNat = m') (hcap : m' ≤ 256) :
    ∃ t, poolCreate s addr (some name) itemSize capacity = .ok (some n, t) ∧
      Created s t n (List.range' m capacity.toNat) ∧ ((t.pools n).base = addr ∧
      (t.pools n).itemSize = itemSize ∧ (t.pools n).capacity = capacity) ∧ Fresh t (n + 1) m' := by
  subst hm
  have hslot : setBits s.poolMask.1 = n :: List.range' (n + 1) (32 - (n + 1)) := by
    rw [h.pools, ← List.range'_succ]
    congr 1
    omega
  have hlen : capacity.toNat ≤ (setBits s.chunkMask.1).length := by
    rw [h.chunks, List.length_range']
    omega
  have htake : (setBits s.chunkMask.1).take capacity.toNat = List.range' m capacity.toNat := by
    rw [h.chunks, List.take_range'_of_length_ge (by omega)]
  obtain ⟨t, ht, hc, hbase, hsize, hcapt⟩ :=
    poolCreate_created name itemSize h.ready haddr hlen hslot
  rw [htake] at hc
  refine ⟨t, ht, hc, ⟨hbase, hsize, hcapt⟩, by rw [hc.initialized, h.ready], ?_, ?_⟩
  · rw [hc.poolMask]
    exact setBits_clear_head hslot
  · have hmask := hc.mask
    rw [h.chunks] at hmask
    have hsplit : List.range' m (256 - m) =
        List.range' m capacity.toNat ++ List.range' (m + capacity.toNat)
          (256 - (m + capacity.toNat)) := by
      rw [List.range'_append_1]
      congr 1
      omega
    rw [hsplit] at hmask
    exact (List.append_cancel_left hmask).symm

/-- The pools as they are made at boot: `io_ranges` is the first one. -/
def bootPlan : FsPlan where
  pid
    | .inodes => 1
    | .dentries => 2
    | .files => 3
  cs
    | .inodes => List.range' 16 20
    | .dentries => List.range' 36 44
    | .files => List.range' 80 16
  ne j k := by
    intro hjk
    cases j <;> cases k <;> first | exact absurd rfl hjk | decide
  apart j k := by
    intro hjk
    cases j <;> cases k <;> first | exact absurd rfl hjk | decide
  consecutive k := by
    cases k <;> exact consecutive_range' ..

/-- A new pool: nothing of it is live. -/
theorem Created.itemsOk {s t : PoolState} {a : Area} {p : Nat} {cs : List Nat}
    (hc : Created s t p cs) (hgeo : (t.pools p).base = a.base ∧ (t.pools p).itemSize = a.itemSize ∧
      (t.pools p).capacity = a.capacity) : ItemsOk a p cs { s := t, live := [] } := by
  have hnil : heldItems t cs = [] := by
    rw [heldItems, List.filter_eq_nil_iff]
    intro x hx
    obtain ⟨c, hcm, rfl⟩ := List.mem_map.mp hx
    simp [hc.ok.freeData c hcm]
  exact ⟨hgeo, ⟨cs, hc.ok⟩, by rw [hnil]⟩

section Boot
variable {δ φ : Type}

/-- What is known of the world in every state of a run. -/
structure FsWorldOk (L : FsArrays) (w : FsWorld δ φ) : Prop where
  poolOf : ∀ k, w.poolOf k = some (bootPlan.pid k)
  filePool : w.fs.filePool = some (bootPlan.pid .files)
  pools : FsPoolsOk L bootPlan w.fs.pool w.live

theorem initIo_fresh (io : IoLayout) (mem : Memory) :
    ∃ s, initIo io (initPool (.bss mem)) = .ok s ∧ Fresh s.pool 1 16 := by
  obtain ⟨t, ht, _, _, hfresh⟩ := (Fresh.boot mem).create
    (text ['i', 'o', '\x5f', 'r', 'a', 'n', 'g', 'e', 's']) MAX_NR_IO_RANGES io.ranges_ne
    (by decide) 16 (by decide : 0 + SIZEOF_IO_RANGE.toNat = 16) (by decide)
  let links : Links IoNode := { prev := fun _ => .list, next := fun _ => .list }
  refine ⟨{ pool := t, rangesPool := some 0, rangeAt := fun _ => ⟨[], 0, 0⟩, links }, ?_, hfresh⟩
  rw [initIo, ht, ok_bind, if_neg (by simp)]

/-- `init_fs` after `init_io`: the pools as planned, and no file live. -/
theorem initFsPools_ok (L : FsArrays) (chdevOps : φ) (dev : δ) {s : PoolState} (h : Fresh s 1 16) :
    ∃ fs poolOf live, initFsPools L.toFsLayout chdevOps dev s = .ok (fs, poolOf) ∧
      (∀ k, poolOf k = some (bootPlan.pid k)) ∧ fs.filePool = some (bootPlan.pid .files) ∧
      FsPoolsOk L bootPlan fs.pool live ∧ live .files = [] := by
  obtain ⟨s₁, h₁, c₁, g₁, f₁⟩ := h.create (text ['i', 'n', 'o', 'd', 'e', 's']) MAX_NR_INODES
    L.inodes_ne (by decide) 36 (by decide : 16 + SIZEOF_INODE.toNat = 36) (by decide)
  obtain ⟨s₂, h₂, c₂, g₂, f₂⟩ := f₁.create (text ['d', 'e', 'n', 't', 'r', 'i', 'e', 's'])
    MAX_NR_DENTRIES L.dentries_ne (by decide) 80 (by decide : 36 + SIZEOF_DENTRY.toNat = 80)
    (by decide)
  obtain ⟨s₃, h₃, c₃, g₃, f₃⟩ := f₂.create (text ['f', 'i', 'l', 'e', 's']) MAX_NR_TOTAL_OPEN
    L.files_ne (by decide) 96 (by decide : 80 + SIZEOF_FILE.toNat = 96) (by decide)
  have hpools : FsPoolsOk L bootPlan s₃ fun _ => [] := by
    intro k
    cases k with
    | inodes =>
      have hok : ItemsOk (L.area .inodes) 1 (List.range' 16 20) { s := s₁, live := [] } :=
        c₁.itemsOk g₁
      have hok₂ := hok.frame c₂.outside (by decide) (by decide)
      exact hok₂.frame c₃.outside (by decide) (by decide)
    | dentries =>
      have hok : ItemsOk (L.area .dentries) 2 (List.range' 36 44) { s := s₂, live := [] } :=
        c₂.itemsOk g₂
      exact hok.frame c₃.outside (by decide) (by decide)
    | files => exact c₃.itemsOk g₃
  obtain ⟨t, l, live, hc, hok, hfiles⟩ := hpools.createDentries chdevOps NR_TTY 0 [] (by decide)
    (by decide)
  have hc' : createDentries (some 2) (some 1) chdevOps NR_TTY 0 s₃ [] = .ok (t, l) := hc
  let fs : FsState δ φ :=
    { pool := t
      filePool := some 3
      dentries := l
      fileAt := fun _ => File.zero
      files := fun _ => 0
      dev := dev }
  let poolOf : FsPool → Option Nat
    | .inodes => some 1
    | .dentries => some 2
    | .files => some 3
  refine ⟨fs, poolOf, live, ?_, ?_, rfl, hok, hfiles⟩
  · unfold initFsPools
    rw [h₁, ok_bind, if_neg (by simp), h₂, ok_bind, h₃, ok_bind]
    show createDentries (some 2) (some 1) chdevOps NR_TTY 0 s₃ [] >>= _ = _
    rw [hc']
    rfl
  · intro k
    cases k <;> rfl

/-- The world at boot. -/
theorem bootFs_ok (mem : Memory) (io : IoLayout) (L : FsArrays) (chdevOps : φ) (dev : δ) :
    ∃ w : FsWorld δ φ, bootFs mem io L.toFsLayout chdevOps dev = .ok w ∧ FsWorldOk L w ∧
      w.live .files = [] := by
  obtain ⟨s, hs, hfresh⟩ := initIo_fresh io mem
  obtain ⟨fs, poolOf, live, hx, hp, hfile, hok, hnone⟩ := initFsPools_ok L chdevOps dev hfresh
  have hperm : ∀ k, (poolItems fs.pool (bootPlan.pid k)).Perm (live k) :=
    fun k => (hok k).poolItems_perm (L.area_fits k) (bootPlan.consecutive k)
  let w : FsWorld δ φ :=
    { fs := fs, poolOf := poolOf, live := fun k => poolItems fs.pool (bootPlan.pid k) }
  refine ⟨w, ?_, ⟨hp, hfile, fun k => (hok k).of_perm (hperm k)⟩, ?_⟩
  · rw [bootFs, hs, ok_bind, hx, ok_bind]
    show Except.ok _ = Except.ok w
    congr 2
    funext k
    dsimp only
    rw [hp k]
  · have hfiles := hperm .files
    rw [hnone] at hfiles
    exact hfiles.eq_nil

/-! ## The calls -/

section Steps
variable {L : FsArrays} {w t : FsWorld δ φ} {k : FsPool} {x : Ptr} {s : PoolState}

theorem fsPoolStep_alloc (hk : k ≠ .files) : fsPoolStep w (.alloc k) =
    (poolAlloc w.fs.pool (w.poolOf k) >>= fun x =>
      .ok ((w.withPool x.2).handedOut k (if x.1 = 0 then none else some x.1))) := by
  cases k with
  | files => exact absurd rfl hk
  | inodes => rfl
  | dentries => rfl

theorem fsPoolStep_free (hk : k ≠ .files) : fsPoolStep w (.free k x) =
    (poolFree w.fs.pool (w.poolOf k) x >>= fun r => .ok ((w.withPool r.2).takenBack k x)) := by
  cases k with
  | files => exact absurd rfl hk
  | inodes => rfl
  | dentries => rfl

theorem allocExact_iff_of_ne (hk : k ≠ .files) : w.AllocExact (.alloc k) ↔
    ∃ y u, poolAlloc w.fs.pool (w.poolOf k) = .ok (y, u) ∧
      (y ≠ 0 ↔ (w.live k).length < k.maxNr.toNat) := by
  cases k with
  | files => exact absurd rfl hk
  | inodes => exact Iff.rfl
  | dentries => exact Iff.rfl

/-- What an allocation leads to, and what it returns, is what `pool_alloc` makes it. -/
theorem FsWorldOk.alloc_of (h : FsWorldOk L w) (hx : poolAlloc w.fs.pool (w.poolOf k) = .ok (x, s)) :
    (∃ t, fsPoolStep w (.alloc k) = .ok t ∧ t.fs.pool = s ∧ t.fs.filePool = w.fs.filePool ∧
      t.poolOf = w.poolOf ∧
      t.live = if x = 0 then w.live else Function.update w.live k (x :: w.live k)) ∧
    (w.AllocExact (.alloc k) ↔ (x ≠ 0 ↔ (w.live k).length < k.maxNr.toNat)) := by
  by_cases hk : k = .files
  · subst hk
    have hfile : w.fs.filePool = w.poolOf .files := h.filePool.trans (h.poolOf .files).symm
    rw [← hfile] at hx
    by_cases h0 : x = 0
    · subst h0
      have halloc : allocFd w.fs = .ok (-ENOMEM, none, { w.fs with pool := s }) := by
        rw [allocFd, hx, ok_bind]
        exact if_pos rfl
      have hstep : fsPoolStep w (.alloc .files) =
          .ok ({ w with fs.pool := s }.handedOut .files none) := by
        rw [fsPoolStep, halloc]
        rfl
      refine ⟨⟨_, hstep, rfl, rfl, rfl, rfl⟩, ?_⟩
      rw [FsWorld.AllocExact, halloc]
      constructor
      · rintro ⟨r, file, t, hr, hiff⟩
        cases hr
        exact ⟨fun hn => absurd rfl hn, fun hlt => absurd (hiff.mpr hlt) (by decide)⟩
      · intro hiff
        exact ⟨_, _, _, rfl, fun hr => absurd hr (by decide), fun hlt => absurd rfl (hiff.mpr hlt)⟩
    · have halloc : allocFd w.fs =
          .ok (0, some x, ({ w.fs with pool := s } : FsState δ φ).setFile x File.zero) := by
        rw [allocFd, hx, ok_bind]
        exact if_neg h0
      have hstep : fsPoolStep w (.alloc .files) = .ok ({ w with
          fs := ({ w.fs with pool := s } : FsState δ φ).setFile x File.zero }.handedOut .files
            (some x)) := by
        rw [fsPoolStep, halloc]
        rfl
      refine ⟨⟨_, hstep, rfl, rfl, rfl, ?_⟩, ?_⟩
      · rw [if_neg h0]
        rfl
      · rw [FsWorld.AllocExact, halloc]
        constructor
        · rintro ⟨r, file, t, hr, hiff⟩
          cases hr
          exact ⟨fun _ => hiff.mp rfl, fun _ => h0⟩
        · intro hiff
          exact ⟨_, _, _, rfl, fun _ => hiff.mp h0, fun _ => rfl⟩
  · have hstep : fsPoolStep w (.alloc k) =
        .ok ((w.withPool s).handedOut k (if x = 0 then none else some x)) := by
      rw [fsPoolStep_alloc hk, hx]
      rfl
    refine ⟨⟨_, hstep, ?_⟩, ?_⟩
    · by_cases h0 : x = 0
      · rw [if_pos h0, if_pos h0]
        exact ⟨rfl, rfl, rfl, rfl⟩
      · rw [if_neg h0, if_neg h0]
        exact ⟨rfl, rfl, rfl, rfl⟩
    · rw [allocExact_iff_of_ne hk, hx]
      constructor
      · rintro ⟨y, u, hy, hiff⟩
        cases hy
        exact hiff
      · exact fun hiff => ⟨x, s, rfl, hiff⟩

/-- An allocation keeps the pools sound, and succeeds as promised exactly when there is a slot. -/
theorem FsWorldOk.alloc (h : FsWorldOk L w) (k : FsPool) :
    (w.AllocExact (.alloc k) ↔ w.HasSlot (.alloc k)) ∧
      ∀ t, fsPoolStep w (.alloc k) = .ok t → FsWorldOk L t := by
  have hsize : k.size.toNat < k.maxNr.toNat := by cases k <;> decide
  have hstay : ∀ {x s live}, poolAlloc w.fs.pool (w.poolOf k) = .ok (x, s) →
      live = (if x = 0 then w.live else Function.update w.live k (x :: w.live k)) →
      FsPoolsOk L bootPlan s live → ∀ t, fsPoolStep w (.alloc k) = .ok t → FsWorldOk L t := by
    intro x s live hx hlive hok t ht
    obtain ⟨⟨t', hstep, hpool, hfile, hof, hl⟩, _⟩ := h.alloc_of hx
    rw [hstep] at ht
    cases ht
    refine ⟨fun j => by rw [hof, h.poolOf], hfile.trans h.filePool, ?_⟩
    rw [hpool, hl, ← hlive]
    exact hok
  by_cases hroom : (w.live k).length < k.size.toNat
  · obtain ⟨x, s, hx, hx0, hok⟩ := h.pools.alloc_room hroom
    rw [← h.poolOf k] at hx
    refine ⟨?_, hstay hx (if_neg hx0).symm hok⟩
    rw [(h.alloc_of hx).2, FsWorld.HasSlot]
    exact ⟨fun _ => hroom, fun _ => ⟨fun _ => hroom.trans hsize, fun _ => hx0⟩⟩
  · have hfull : (w.live k).length = k.size.toNat :=
      Nat.le_antisymm (h.pools.length_le k) (Nat.not_lt.mp hroom)
    have hx := h.pools.alloc_full hfull
    rw [← h.poolOf k] at hx
    refine ⟨?_, hstay hx (if_pos rfl).symm h.pools⟩
    rw [(h.alloc_of hx).2, FsWorld.HasSlot]
    constructor
    · intro hiff
      rw [hfull] at hiff
      exact absurd rfl (hiff.mpr hsize)
    · exact fun hlt => absurd hlt hroom

theorem FsWorldOk.free (h : FsWorldOk L w) (k : FsPool) (x : Ptr)
    (ht : fsPoolStep w (.free k x) = .ok t) : FsWorldOk L t := by
  have hkey : ∀ {r s}, poolFree w.fs.pool (w.poolOf k) x = .ok (r, s) →
      FsPoolsOk L bootPlan s
        (Function.update w.live k ((w.live k).filter fun y => ¬ FsWorld.InSlot k x y)) := by
    intro r s hr
    rw [h.poolOf k] at hr
    exact h.pools.free hr
  by_cases hk : k = .files
  · subst hk
    have hfile : w.fs.filePool = w.poolOf .files := h.filePool.trans (h.poolOf .files).symm
    rw [fsPoolStep] at ht
    obtain ⟨fs, hfs, ht⟩ := bind_ok.mp ht
    cases ht
    unfold freeFd at hfs
    split at hfs
    · -- `free_fd` of `NULL`: no slot holds it.
      rename_i h0
      cases hfs
      have hr : poolFree w.fs.pool (w.poolOf .files) x = .ok (-EINVAL, w.fs.pool) := by
        rw [h.poolOf, poolFree, h0]
        simp
      exact ⟨h.poolOf, h.filePool, hkey hr⟩
    · obtain ⟨⟨r, s⟩, hr, hfs⟩ := bind_ok.mp hfs
      cases hfs
      rw [hfile] at hr
      exact ⟨h.poolOf, h.filePool, hkey hr⟩
  · rw [fsPoolStep_free hk] at ht
    obtain ⟨⟨r, s⟩, hr, ht⟩ := bind_ok.mp ht
    cases ht
    exact ⟨h.poolOf, h.filePool, hkey hr⟩

end Steps

/-- **Capacity.** From the boot on, the live objects of each pool of `fs.c` are disjoint and inside
their array, and allocations succeed exactly as long as fewer are live than the array is long, if and
only if none comes when as many are live as the structure has bytes. -/
theorem fs_pools_exact_iff (mem : Memory) (io : IoLayout) (L : FsArrays) (chdevOps : φ) (dev : δ)
    (ops : List FsPoolOp) :
    ∃ w : FsWorld δ φ, bootFs mem io L.toFsLayout chdevOps dev = .ok w ∧ w.live .files = [] ∧
      (((∀ t, Reaches fsPoolStep w ops t → t.LiveDisjoint L) ∧
          Throughout fsPoolStep FsWorld.AllocExact w ops) ↔
        Throughout fsPoolStep FsWorld.HasSlot w ops) := by
  obtain ⟨w, hw, hok, hnone⟩ := bootFs_ok mem io L chdevOps dev
  have hstep : ∀ (u : FsWorld δ φ) op t, FsWorldOk L u → fsPoolStep u op = .ok t →
      FsWorldOk L t := by
    intro u op t hu ht
    cases op with
    | alloc k => exact (hu.alloc k).2 t ht
    | free k x => exact hu.free k x ht
  have hiff : ∀ (u : FsWorld δ φ) op, FsWorldOk L u → (u.AllocExact op ↔ u.HasSlot op) := by
    intro u op hu
    cases op with
    | alloc k => exact (hu.alloc k).1
    | free k x => exact Iff.rfl
  have hlive : ∀ t, Reaches fsPoolStep w ops t → t.LiveDisjoint L :=
    fun t ht => (invariant_reached hstep hok ht).pools.liveDisjoint
  refine ⟨w, hw, hnone, ?_⟩
  rw [and_iff_right hlive]
  exact throughout_iff hiff (fun u op t hu _ ht => hstep u op t hu ht) hok

end Boot

def plainArrays : FsArrays where
  toFsLayout := plainLayout
  inodes_ne := by decide
  inodes_fits := by decide
  dentries_ne := by decide
  dentries_fits := by decide

def plainIo : IoLayout where
  ranges := 0xC0140000
  ranges_ne := by decide
  ranges_fits := by decide

/-- With 16 files open, `alloc_fd` finds none of the other 48. -/
theorem seventeenth_file_refused :
    ∃ w : FsWorld Unit Unit, bootFs (fun _ => 0) plainIo plainArrays.toFsLayout () () = .ok w ∧
      ∃ t, run fsPoolStep w (List.replicate 16 (.alloc .files)) = .ok t ∧
        (t.live .files).length = 16 ∧ ¬ t.AllocExact (.alloc .files) := by
  have h : ∃ w : FsWorld Unit Unit, bootFs (fun _ => 0) plainIo plainArrays.toFsLayout () () = .ok w ∧
      ∃ t, run fsPoolStep w (List.replicate 16 (.alloc .files)) = .ok t ∧
        (t.live .files).length = 16 ∧ ∃ x, allocFd t.fs = .ok x ∧ x.1 = -ENOMEM := by
    decide +kernel
  obtain ⟨w, hw, t, ht, hlen, ⟨r, file, u⟩, hx, hr⟩ := h
  refine ⟨w, hw, t, ht, hlen, ?_⟩
  rintro ⟨r', file', u', hx', hiff⟩
  rw [hx] at hx'
  cases hx'
  have hr0 : r = 0 := hiff.mpr (by rw [hlen]; decide)
  have hr1 : r = -ENOMEM := hr
  rw [hr0] at hr1
  exact absurd hr1 (by decide)

end Ohwes

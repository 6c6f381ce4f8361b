import Ohwes.Kernel.Descriptors

/-! # Runs of the descriptor calls from `init_fs` on

`init_fs` leaves the file pool in consecutive chunks, with 16 items of 64 bytes, all free, and an
empty table (`initFs_ok`). From there on the calls of a run are exact if and only if none of them
takes a leaking path (`descriptors_exact_iff`). -/

namespace Ohwes
set_option autoImplicit false
open Library

/-! ## Pools made one after the other -/

theorem consecutive_range' (k n : Nat) : Consecutive (List.range' k n) := by
  cases n with
  | zero => rfl
  | succ n => simp [Consecutive, List.range'_succ]

/-- A pool created from a mask without holes gets consecutive chunks, and leaves no hole. -/
theorem Created.consecutive {s t : PoolState} {p : Nat} {cs : List Nat} (h : Created s t p cs)
    (hs : Consecutive (setBits s.chunkMask.1)) :
    Consecutive cs ∧ Consecutive (setBits t.chunkMask.1) := by
  unfold Consecutive at hs
  rw [h.mask, List.length_append, ← List.range'_append_1] at hs
  obtain ⟨h1, h2⟩ := List.append_inj hs (by rw [List.length_range'])
  refine ⟨?_, ?_⟩
  · rw [h1]
    exact consecutive_range' ..
  · rw [h2]
    exact consecutive_range' ..

theorem Created.disjoint {s t u : PoolState} {p q : Nat} {cs ds : List Nat} (h : Created s t p cs)
    (k : Created t u q ds) : ∀ c ∈ cs, c ∉ ds := by
  intro c hc hd
  have h1 := (k.bit c).mpr (Or.inl hd)
  rw [h.fresh c hc] at h1
  cases h1

theorem Created.slot_ne {s t : PoolState} {p q : Nat} {cs : List Nat} (h : Created s t p cs)
    (hq : bitAt t.poolMask.1 q = true) : q ≠ p ∧ bitAt s.poolMask.1 q = true := by
  have hp := bitAt_lt (by omega) h.slot
  rw [h.poolMask, bitAt_clearAt hp, Bool.and_eq_true] at hq
  exact ⟨by simpa using hq.2, hq.1⟩

/-- A live pool, whatever is free in it. -/
def Sound (s : PoolState) (p : Nat) (cs : List Nat) : Prop := ∃ free, PoolOk s p cs free

theorem Sound.alloc {s t : PoolState} {p : Nat} {cs : List Nat} {x : Ptr} (h : Sound s p cs)
    (ha : poolAlloc s (some p) = .ok (x, t)) : Sound t p cs ∧ SameOutside s t p cs := by
  obtain ⟨free, hok⟩ := h
  cases free with
  | nil =>
    rw [hok.poolAlloc_nil] at ha
    cases ha
    exact ⟨⟨[], hok⟩, fun _ _ => rfl, fun _ _ => rfl, fun _ _ => ⟨rfl, rfl⟩⟩
  | cons c rest =>
    obtain ⟨i, hi⟩ := List.getElem?_of_mem (hok.freeSub c (List.mem_cons_self ..))
    rw [hok.poolAlloc_cons hi] at ha
    cases ha
    exact ⟨⟨rest, hok.afterAlloc⟩, hok.allocChunk_outside⟩

/-- The pools of `init_fs`: no two share a chunk. -/
structure FsPools (s : PoolState) (d i f : Nat) (ds is fs : List Nat) : Prop where
  dentries : Sound s d ds
  inodes : Sound s i is
  files : PoolOk s f fs fs
  ne : d ≠ i ∧ d ≠ f ∧ i ≠ f
  apart : (∀ c ∈ is, c ∉ ds) ∧ (∀ c ∈ fs, c ∉ ds) ∧ ∀ c ∈ fs, c ∉ is

namespace FsPools
variable {s t : PoolState} {d i f : Nat} {ds is fs : List Nat}

theorem allocDentry (h : FsPools s d i f ds is fs) {x : Ptr}
    (ha : poolAlloc s (some d) = .ok (x, t)) :
    FsPools t d i f ds is fs ∧ t.pools f = s.pools f := by
  obtain ⟨hs, hout⟩ := h.dentries.alloc ha
  obtain ⟨free, hi⟩ := h.inodes
  exact ⟨⟨hs, ⟨free, hi.frame hout h.ne.1.symm h.apart.1⟩,
    h.files.frame hout h.ne.2.1.symm h.apart.2.1, h.ne, h.apart⟩, hout.pools f h.ne.2.1.symm⟩

theorem allocInode (h : FsPools s d i f ds is fs) {x : Ptr}
    (ha : poolAlloc s (some i) = .ok (x, t)) :
    FsPools t d i f ds is fs ∧ t.pools f = s.pools f := by
  obtain ⟨hs, hout⟩ := h.inodes.alloc ha
  obtain ⟨free, hd⟩ := h.dentries
  have hdi : ∀ c ∈ ds, c ∉ is := fun c hc hi => h.apart.1 c hi hc
  exact ⟨⟨⟨free, hd.frame hout h.ne.1 hdi⟩, hs, h.files.frame hout h.ne.2.2.symm h.apart.2.2,
    h.ne, h.apart⟩, hout.pools f h.ne.2.2.symm⟩

/-- The loop over the terminals does not touch the file pool. -/
theorem createDentries {φ : Type} {chdevOps : φ} :
    ∀ {n k : Nat} {s t : PoolState} {l l' : List (Dentry φ)}, FsPools s d i f ds is fs →
      Ohwes.createDentries (some d) (some i) chdevOps n k s l = .ok (t, l') →
      FsPools t d i f ds is fs ∧ t.pools f = s.pools f := by
  intro n
  induction n with
  | zero =>
    intro k s t l l' h hc
    cases hc
    exact ⟨h, rfl⟩
  | succ n ih =>
    intro k s t l l' h hc
    unfold Ohwes.createDentries at hc
    obtain ⟨⟨x, s₁⟩, hx, hc⟩ := bind_ok.mp hc
    obtain ⟨h₁, hp₁⟩ := h.allocDentry hx
    dsimp only at hc
    split at hc
    · cases hc
    split at hc
    · obtain ⟨h₂, hp₂⟩ := ih h₁ hc
      exact ⟨h₂, hp₂.trans hp₁⟩
    obtain ⟨⟨y, s₂⟩, hy, hc⟩ := bind_ok.mp hc
    obtain ⟨h₂, hp₂⟩ := h₁.allocInode hy
    dsimp only at hc
    split at hc
    · cases hc
    obtain ⟨h₃, hp₃⟩ := ih h₂ hc
    exact ⟨h₃, hp₃.trans (hp₂.trans hp₁)⟩

end FsPools

/-! ## `init_fs` -/

/-- The area of the file pool: 16 items of 64 bytes. -/
def FsLayout.area (L : FsLayout) : Area where
  base := L.files
  itemSize := MAX_NR_TOTAL_OPEN
  capacity := SIZEOF_FILE

theorem FsLayout.area_fits (L : FsLayout) : L.area.Fits where
  itemSize := by
    show 0 < MAX_NR_TOTAL_OPEN.toNat
    decide
  capacity := by
    show 0 < SIZEOF_FILE.toNat
    decide
  bound := L.files_fits

theorem poolCreate_some {s t : PoolState} {addr : Ptr} {name : CString}
    {itemSize capacity : BitVec 32} {p : Nat}
    (h : poolCreate s addr (some name) itemSize capacity = .ok (some p, t)) :
    ∃ cs, Created s t p cs ∧ (t.pools p).base = addr ∧ (t.pools p).itemSize = itemSize ∧
      (t.pools p).capacity = capacity := by
  obtain ⟨hn, _⟩ | ⟨p', cs, hp, hc, hgeo⟩ := poolCreate_ok h
  · cases hn
  · cases hp
    exact ⟨cs, hc, hgeo⟩

section Init
variable {δ φ : Type} {L : FsLayout} {chdevOps : φ} {dev : δ} {s : PoolState} {fs : FsState δ φ}

theorem initFs_ok (hmask : Consecutive (setBits s.chunkMask.1))
    (h : initFs L chdevOps dev s = .ok fs) : FilesOk L.area fs := by
  obtain ⟨⟨ip, s₁⟩, ⟨dp, s₂⟩, ⟨fp, s₃⟩, ⟨s₄, l⟩, h₁, hip, h₂, h₃, h₄, rfl⟩ := initFs_made h
  dsimp only at h₂ h₃ h₄
  obtain ⟨i, rfl⟩ := Option.ne_none_iff_exists'.mp hip
  -- Without a dentry pool the first `pool_alloc` of the loop would return `NULL`.
  cases dp with
  | none => cases h₄
  | some d =>
    obtain ⟨hn, _, hbad⟩ | ⟨f, cs, rfl, c₃, hbase, hsize, hcap⟩ := poolCreate_ok h₃
    · obtain h0 | h0 := hbad
      · cases h0
      · exact absurd h0 L.files_ne
    obtain ⟨is, c₁, _⟩ := poolCreate_some h₁
    obtain ⟨ds, c₂, _⟩ := poolCreate_some h₂
    obtain ⟨hfd, hfslot⟩ := c₂.slot_ne c₃.slot
    obtain ⟨hdi, _⟩ := c₁.slot_ne c₂.slot
    obtain ⟨hfi, _⟩ := c₁.slot_ne hfslot
    have hm₂ := (c₂.consecutive (c₁.consecutive hmask).2).2
    -- The third pool takes chunks that were still free after the second.
    have his : ∀ c ∈ is, c ∉ cs := by
      intro c hc hm
      have h1 := (c₂.bit c).mpr (Or.inr ((c₃.bit c).mpr (Or.inl hm)))
      rw [c₁.fresh c hc] at h1
      cases h1
    have hpools : FsPools s₃ d i f ds is cs := by
      refine ⟨⟨ds, c₂.ok.frame c₃.outside hfd.symm (c₂.disjoint c₃)⟩, ⟨is, ?_⟩, c₃.ok,
        ⟨hdi, hfd.symm, hfi.symm⟩, c₁.disjoint c₂, ?_, ?_⟩
      · exact (c₁.ok.frame c₂.outside hdi.symm (c₁.disjoint c₂)).frame c₃.outside hfi.symm his
      · exact fun c hc hd => c₂.disjoint c₃ c hd hc
      · exact fun c hc hi => his c hi hc
    obtain ⟨h4, hp4⟩ := hpools.createDentries h₄
    have hnil : heldItems s₄ cs = [] := by
      rw [heldItems, List.filter_eq_nil_iff]
      intro x hx
      obtain ⟨c, hc, rfl⟩ := List.mem_map.mp hx
      simp [h4.files.freeData c hc]
    have hitems : ItemsOk L.area f cs { s := s₄, live := [] } := by
      refine ⟨?_, ⟨cs, h4.files⟩, by rw [hnil]⟩
      show (s₄.pools f).base = _ ∧ (s₄.pools f).itemSize = _ ∧ (s₄.pools f).capacity = _
      rw [hp4]
      exact ⟨hbase, hsize, hcap⟩
    refine FilePoolOk.exact ⟨f, cs, rfl, (c₃.consecutive hm₂).1, hitems⟩ L.area_fits ?_
    exact ⟨fun x hx => absurd hx List.not_mem_nil, fun k _ h0 => absurd rfl h0⟩

theorem fsStep_ok {ops : φ → FileOps δ φ} {s t : FsState δ φ} {op : FsOp}
    (h : fsStep ops s op = .ok t) : ∃ r, fsCall ops s op = .ok (r, t) := by
  unfold fsStep at h
  cases hc : fsCall ops s op with
  | error e =>
    rw [hc] at h
    cases h
  | ok x =>
    rw [hc] at h
    cases h
    exact ⟨x.1, rfl⟩

/-- **Descriptors.** In a run from `init_fs` on, table and pool are in bijection in every state and
every call that fails leaves both alone, if and only if no call takes a leaking path. -/
theorem descriptors_exact_iff (L : FsLayout) (chdevOps : φ) (dev : δ) (s : PoolState)
    (fs : FsState δ φ) (ops : φ → FileOps δ φ) (calls : List FsOp)
    (hmask : Consecutive (setBits s.chunkMask.1)) (hinit : initFs L chdevOps dev s = .ok fs)
    (hret : CloseReturns ops) :
    ((∀ t, Reaches (fsStep ops) fs calls t → Bijection t) ∧
        Throughout (fsStep ops) (CallExact ops) fs calls) ↔
      Throughout (fsStep ops) (NoLeak ops) fs calls := by
  have hstart : FilesOk L.area fs := initFs_ok hmask hinit
  have hcap : MAX_OPEN < L.area.capacity.toNat := by
    show MAX_OPEN < SIZEOF_FILE.toNat
    decide
  have hiff : ∀ t op, FilesOk L.area t → (CallExact ops t op ↔ NoLeak ops t op) :=
    fun t op ht => (ht.step_iff L.area_fits hcap hret op).1
  have hstep : ∀ t op u, FilesOk L.area t → NoLeak ops t op → fsStep ops t op = .ok u →
      FilesOk L.area u := by
    intro t op u ht hn hs
    obtain ⟨r, hr⟩ := fsStep_ok hs
    exact (ht.step_iff L.area_fits hcap hret op).2 hn r u hr
  constructor
  · rintro ⟨_, h⟩
    exact (throughout_iff hiff hstep hstart).mp h
  · intro h
    exact ⟨fun t ht => (invariant_reaches hstep hstart h ht).table,
      (throughout_iff hiff hstep hstart).mpr h⟩

end Init

/-- A driver that opens and closes without fail. -/
def plainOps : Unit → FileOps Unit Unit := fun _ =>
  { openFn := some fun inode _ file dev => .ok (0, { file with inode := some inode }, dev)
    closeFn := some fun _ file dev => .ok (0, file, dev) }

def plainLayout : FsLayout where
  inodes := 0xC0110000
  dentries := 0xC0120000
  files := 0xC0130000
  files_ne := by decide
  files_fits := by decide

def tty1 : CString := text ['/', 'd', 'e', 'v', '/', 't', 't', 'y', '1']

/-- Opening, copying onto free and open descriptors, closing, and calls that fail. -/
def shareCalls : List FsOp :=
  [.sysOpen tty1 O_RDWR, .sysDup 0, .sysDup2 1 5, .sysDup2 0 1, .sysClose 5, .sysClose 5,
    .sysDup2 5 1, .sysOpen tty1 3, .sysDup2 1 1, .sysClose 0]

theorem descriptors_exact_share :
    ∃ fs, initFs plainLayout () () (initPool (.bss fun _ => 0)) = .ok fs ∧
      (∀ t, Reaches (fsStep plainOps) fs shareCalls t → Bijection t) ∧
        Throughout (fsStep plainOps) (CallExact plainOps) fs shareCalls := by
  have h : ∃ fs, initFs plainLayout () () (initPool (.bss fun _ => 0)) = .ok fs ∧
      Throughout (fsStep plainOps) (NoLeak plainOps) fs shareCalls := by decide +kernel
  obtain ⟨fs, hinit, hrun⟩ := h
  have hret : CloseReturns plainOps := by
    intro f closeFn hc file v dev
    cases hc
    exact ⟨_, rfl⟩
  exact ⟨fs, hinit, (descriptors_exact_iff plainLayout () () (initPool (.bss fun _ => 0)) fs plainOps
    shareCalls (by decide +kernel) hinit hret).mpr hrun⟩

/-- An unknown name: the call returns `-ENOENT` and keeps the file struct. -/
theorem open_unknown_leaks :
    ∃ fs, initFs plainLayout () () (initPool (.bss fun _ => 0)) = .ok fs ∧
      ¬ CallExact plainOps fs (.sysOpen (text ['x']) O_RDWR) := by
  have h : ∃ fs, initFs plainLayout () () (initPool (.bss fun _ => 0)) = .ok fs ∧
      allocatedFiles fs = [] ∧
      ∃ x, fsCall plainOps fs (.sysOpen (text ['x']) O_RDWR) = .ok x ∧
        x.1 = -ENOENT ∧ 0xC0130000 ∈ allocatedFiles x.2 := by decide +kernel
  obtain ⟨fs, hinit, hnone, ⟨r, t⟩, hcall, hr, hmem⟩ := h
  refine ⟨fs, hinit, ?_⟩
  rintro ⟨r', t', hcall', _, herr⟩
  rw [hcall] at hcall'
  cases hcall'
  have hr' : r = -ENOENT := hr
  have hneg : r < 0 := by rw [hr']; decide
  have hold := ((herr hneg).2 _).mp hmem
  rw [hnone] at hold
  cases hold

end Ohwes

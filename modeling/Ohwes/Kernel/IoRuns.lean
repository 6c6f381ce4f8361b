import Ohwes.Kernel.IoRegistry

/-! # Runs of the registry from `init_io` on

The ranges held stay apart and in order, and a reservation is refused exactly when it meets one of
them, if and only if no reservation that starts outside all of them reaches over the start of one
(`io_ranges_exclusive_iff`): the loop of `reserve_io_range` tests the start of the new range only.

The slots in use are those of the ranges held, and `-ENOMEM` means that the registry is full, if and
only if no call refuses a range or releases one, and none comes when the 16 slots that `init_io` has
made are taken (`io_slots_exact_iff`): a slot is never given back. -/

namespace Ohwes
set_option autoImplicit false
open Library

inductive IoOp where
  | reserve (base : BitVec 16) (count : BitVec 8) (name : CString)
  | release (base : BitVec 16) (count : BitVec 8)

def ioStep (s : IoState) : IoOp → Call IoState
  | .reserve base count name => (reserveIoRange s base count name).map Prod.snd
  | .release base count => releaseIoRange s base count

/-- The range of the call is not empty and lies in the I/O address space. -/
def IoOp.Proper : IoOp → Prop
  | .reserve base count _ => 0 < count.toNat ∧ base.toNat + count.toNat ≤ 65536
  | .release base count => 0 < count.toNat ∧ base.toNat + count.toNat ≤ 65536

instance : (op : IoOp) → Decidable op.Proper
  | .reserve _ _ _ => inferInstanceAs (Decidable (_ ∧ _))
  | .release _ _ => inferInstanceAs (Decidable (_ ∧ _))

namespace IoState

/-- The ranges held are pairwise disjoint and sorted by base. -/
def Exclusive (s : IoState) : Prop :=
  s.held.Pairwise (fun r q => ¬ Meets IoRange.first IoRange.limit r q) ∧
    s.held.Pairwise fun r q => r.base ≤ q.base

/-- With a free slot, the reservation returns `-EBUSY` if the range meets one that is held, else 0. -/
def ReserveExact (s : IoState) : IoOp → Prop
  | .reserve base count name => ∃ r t, reserveIoRange s base count name = .ok (r, t) ∧
      (0 < s.freeSlots →
        r = if ∃ q ∈ s.held, Meets IoRange.first IoRange.limit ⟨name, base, count⟩ q
          then -EBUSY else 0)
  | .release _ _ => True

/-- The new range starts in one that is held, or reaches over the start of none. -/
def Clear (s : IoState) : IoOp → Prop
  | .reserve base count name => 0 < s.freeSlots →
      (∃ q ∈ s.held, StartsIn IoRange.first IoRange.limit ⟨name, base, count⟩ q) ∨
        ∀ q ∈ s.held, ¬ ReachesOver IoRange.first IoRange.limit ⟨name, base, count⟩ q
  | .release _ _ => True

instance (s : IoState) : (op : IoOp) → Decidable (s.Clear op)
  | .reserve _ _ _ => inferInstanceAs (Decidable (_ → _))
  | .release _ _ => .isTrue trivial

end IoState

section Runs
variable {a : Area} {p : Nat} {cs : List Nat} {s t : IoState} {live rs : List Ptr}

theorem ioStep_reserve_of_ok {base : BitVec 16} {count : BitVec 8} {name : CString} {r : Int}
    (h : reserveIoRange s base count name = .ok (r, t)) :
    ioStep s (.reserve base count name) = .ok t := by
  rw [ioStep, h]
  rfl

/-! ## Exclusivity -/

/-- The registry is sound and the ranges held stand apart, in order. -/
def Apart (a : Area) (p : Nat) (cs : List Nat) (s : IoState) : Prop :=
  (∃ live rs, IoOk a p cs s live rs) ∧ Ascending IoRange.first IoRange.limit s.held ∧
    ∀ r ∈ s.held, r.first < r.limit

theorem Apart.exclusive (h : Apart a p cs s) : s.Exclusive := by
  refine ⟨h.2.1.not_meets, (h.2.1.sorted h.2.2).imp fun hrq => ?_⟩
  exact BitVec.le_def.mpr hrq.le

theorem Apart.of_exclusive (hok : ∃ live rs, IoOk a p cs s live rs)
    (hne : ∀ r ∈ s.held, r.first < r.limit) (h : s.Exclusive) : Apart a p cs s :=
  ⟨hok, ascending_of_sorted (h.2.imp fun hrq => BitVec.le_def.mp hrq) h.1 hne, hne⟩

/-- What a reservation does to ranges that stand apart, for each of the ways the walk can go. -/
theorem Apart.reserve (h : Apart a p cs s) (hf : a.Fits) (base : BitVec 16) {count : BitVec 8}
    (name : CString) (hcount : 0 < count.toNat) :
    ∃ r t, reserveIoRange s base count name = .ok (r, t) ∧
      (∃ live rs, IoOk a p cs t live rs) ∧ (∀ q ∈ t.held, q.first < q.limit) ∧
      (0 < s.freeSlots → (r = -EBUSY ∧ t.held = s.held ∧
          place IoRange.first IoRange.limit ⟨name, base, count⟩ s.held = none) ∨
        (r = 0 ∧ place IoRange.first IoRange.limit ⟨name, base, count⟩ s.held = some t.held)) ∧
      (s.freeSlots = 0 → t = s) := by
  obtain ⟨⟨live, rs, hok⟩, _, hne⟩ := h
  have hslots := hok.freeSlots_eq hf
  by_cases hfull : live.length = a.capacity.toNat
  · have h0 : s.freeSlots = 0 := by omega
    refine ⟨-ENOMEM, s, hok.reserve_full hf hfull base count name, ⟨live, rs, hok⟩, hne, ?_,
      fun _ => rfl⟩
    omega
  · have hpos : 0 < s.freeSlots := by omega
    obtain ⟨x, t, rs', hok', hcase⟩ := hok.reserve_room hf (by omega) base count name
    obtain ⟨hp, hr, hheld⟩ | ⟨hp, hr⟩ := hcase
    · refine ⟨-EBUSY, t, hr, ⟨_, rs', hok'⟩, by rw [hheld]; exact hne, ?_, by omega⟩
      exact fun _ => Or.inl ⟨rfl, hheld, hp⟩
    · refine ⟨0, t, hr, ⟨_, rs', hok'⟩, fun q hq => ?_, fun _ => Or.inr ⟨rfl, hp⟩, by omega⟩
      obtain rfl | hq := List.mem_cons.mp ((place_perm hp).mem_iff.mp hq)
      · show base.toNat < base.toNat + count.toNat
        omega
      · exact hne q hq

theorem Apart.release (h : Apart a p cs s) (hf : a.Fits) (base : BitVec 16) (count : BitVec 8) :
    ∃ t, releaseIoRange s base count = .ok t ∧ Apart a p cs t := by
  obtain ⟨⟨live, rs, hok⟩, hasc, hne⟩ := h
  obtain ⟨t, rs', hr, hok', hheld⟩ := hok.release hf base count
  refine ⟨t, hr, ⟨live, rs', hok'⟩, ?_, ?_⟩
  · rw [hheld]
    exact hasc.sublist List.eraseP_sublist
  · rw [hheld]
    exact fun q hq => hne q (List.mem_of_mem_eraseP hq)

/-- One call keeps the ranges apart and answers as it should exactly when it meets the condition. -/
theorem Apart.step_iff (h : Apart a p cs s) (hf : a.Fits) {op : IoOp} (hop : op.Proper) :
    ((s.ReserveExact op ∧ ∀ t, ioStep s op = .ok t → t.Exclusive) ↔ s.Clear op) ∧
      (s.Clear op → ∀ t, ioStep s op = .ok t → Apart a p cs t) := by
  cases op with
  | release base count =>
    obtain ⟨t, hr, ht⟩ := h.release hf base count
    have hstep : ∀ u, ioStep s (.release base count) = .ok u → Apart a p cs u := by
      intro u hu
      obtain rfl := Except.ok.inj (hr.symm.trans hu)
      exact ht
    exact ⟨⟨fun _ => trivial, fun _ => ⟨trivial, fun u hu => (hstep u hu).exclusive⟩⟩,
      fun _ => hstep⟩
  | reserve base count name =>
    have hasc := h.2.1
    have hne := h.2.2
    have hx : IoRange.first ⟨name, base, count⟩ < IoRange.limit ⟨name, base, count⟩ :=
      Nat.lt_add_of_pos_right hop.1
    obtain ⟨r, t, hr, hok, hne', hcase, hfull⟩ := h.reserve hf base name hop.1
    have hstep := ioStep_reserve_of_ok hr
    have hgood : s.Clear (.reserve base count name) →
        Ascending IoRange.first IoRange.limit t.held ∧ (0 < s.freeSlots →
          r = if ∃ q ∈ s.held, Meets IoRange.first IoRange.limit ⟨name, base, count⟩ q
            then -EBUSY else 0) := by
      intro hclear
      by_cases h0 : s.freeSlots = 0
      · rw [hfull h0]
        exact ⟨hasc, by omega⟩
      have hpos : 0 < s.freeSlots := by omega
      have hiff := place_eq_none_iff_meets hasc hne hx (hclear hpos)
      obtain ⟨rfl, hheld, hp⟩ | ⟨rfl, hp⟩ := hcase hpos
      · refine ⟨by rw [hheld]; exact hasc, fun _ => ?_⟩
        rw [if_pos (hiff.mp hp)]
      · have hnot : ¬ ∃ q ∈ s.held, Meets IoRange.first IoRange.limit ⟨name, base, count⟩ q := by
          intro hm
          rw [hiff.mpr hm] at hp
          cases hp
        refine ⟨place_ascending hasc hne (fun q hq hover => ?_) hp, fun _ => ?_⟩
        · exact hnot ⟨q, hq, hover.meets (hne q hq)⟩
        · rw [if_neg hnot]
    refine ⟨⟨?_, ?_⟩, ?_⟩
    · -- A range that slips through is held next to one that it meets.
      rintro ⟨-, hexcl⟩ hpos
      by_contra hbad
      rw [not_or, not_forall] at hbad
      obtain ⟨hstart, q, hq⟩ := hbad
      rw [Classical.not_imp, not_not] at hq
      obtain ⟨hqm, hover⟩ := hq
      obtain ⟨rfl, hheld, hp⟩ | ⟨rfl, hp⟩ := hcase hpos
      · exact hstart (startsIn_of_place_eq_none hp)
      · have hapart := Apart.of_exclusive hok hne' (hexcl t hstep)
        have hmem := place_perm hp
        have hpair := (hmem.pairwise_iff fun hrq hqr => hrq hqr.symm).mp hapart.2.1.not_meets
        exact (List.pairwise_cons.mp hpair).1 q hqm (hover.meets (hne q hqm))
    · intro hclear
      obtain ⟨hasc', hret⟩ := hgood hclear
      refine ⟨⟨r, t, hr, hret⟩, fun u hu => ?_⟩
      obtain rfl := Except.ok.inj (hstep.symm.trans hu)
      exact Apart.exclusive (a := a) (p := p) ⟨hok, hasc', hne'⟩
    · intro hclear u hu
      obtain rfl := Except.ok.inj (hstep.symm.trans hu)
      exact ⟨hok, (hgood hclear).1, hne'⟩

theorem initIo_apart {L : IoLayout} {s₀ : PoolState} (h : initIo L s₀ = .ok s) :
    ∃ p cs, Apart L.area p cs s := by
  obtain ⟨p, cs, hok⟩ := initIo_ok h
  have hnil : s.held = [] := hok.held_eq L.area_fits
  refine ⟨p, cs, ⟨[], [], hok⟩, ?_, ?_⟩
  · rw [hnil]
    exact List.Pairwise.nil
  · simp [hnil]

/-- **Exclusivity.** In a run of proper calls from `init_io` on, the ranges held are disjoint and
sorted in every state and every reservation answers as it should, if and only if none of them slips
over the start of a range held. -/
theorem io_ranges_exclusive_iff (L : IoLayout) (s₀ : PoolState) (s : IoState) (ops : List IoOp)
    (hinit : initIo L s₀ = .ok s) (hops : ∀ op ∈ ops, op.Proper) :
    ((∀ t, Reaches ioStep s ops t → t.Exclusive) ∧ Throughout ioStep IoState.ReserveExact s ops) ↔
      Throughout ioStep IoState.Clear s ops := by
  obtain ⟨p, cs, hstart⟩ := initIo_apart hinit
  rw [reaches_iff_throughout, and_assoc, and_comm (b := Throughout _ _ _ _), ← throughout_and,
    and_iff_right hstart.exclusive]
  exact throughout_iff_mem (fun t op hop ht => (ht.step_iff L.area_fits hop).1)
    (fun t op u hop ht hclear hu => (ht.step_iff L.area_fits hop).2 hclear u hu) hops hstart

end Runs

theorem highRanges_ne : (0xC0140000 : Ptr) ≠ 0 := by decide

theorem highRanges_fits : (0xC0140000 : Ptr).toNat + 32 * 16 ≤ 2 ^ 32 := by decide

def highRanges : IoLayout where
  ranges := 0xC0140000
  ranges_ne := highRanges_ne
  ranges_fits := highRanges_fits

/-- Two serial ports, a range between them, one that meets two of them, and a release. -/
def portCalls : List IoOp :=
  [.reserve 0x3F8 8 [], .reserve 0x2F8 8 [], .reserve 0x300 0xF8 [], .reserve 0x2FF 2 [],
    .release 0x2F8 8, .reserve 0x2F0 0x10 []]

theorem io_ranges_exclusive_ports :
    ∃ s, initIo highRanges (initPool (.bss fun _ => 0)) = .ok s ∧
      (∀ t, Reaches ioStep s portCalls t → t.Exclusive) ∧
        Throughout ioStep IoState.ReserveExact s portCalls := by
  have h : ∃ s, initIo highRanges (initPool (.bss fun _ => 0)) = .ok s ∧
      Throughout ioStep IoState.Clear s portCalls := by decide +kernel
  obtain ⟨s, hinit, hclear⟩ := h
  exact ⟨s, hinit, (io_ranges_exclusive_iff highRanges (initPool (.bss fun _ => 0)) s portCalls hinit
    (by decide)).mpr hclear⟩

/-- A range that starts below a held one and ends in it is reserved, behind it. -/
theorem overlap_from_below_granted :
    ∃ s, initIo highRanges (initPool (.bss fun _ => 0)) = .ok s ∧
      ∃ t, run ioStep s [.reserve 0x3F8 8 [], .reserve 0x3F0 0x10 []] = .ok t ∧ ¬ t.Exclusive := by
  have h : ∃ s, initIo highRanges (initPool (.bss fun _ => 0)) = .ok s ∧
      ∃ t, run ioStep s [.reserve 0x3F8 8 [], .reserve 0x3F0 0x10 []] = .ok t ∧
        t.held = [⟨[], 0x3F8, 8⟩, ⟨[], 0x3F0, 0x10⟩] := by decide +kernel
  obtain ⟨s, hinit, t, hrun, hheld⟩ := h
  refine ⟨s, hinit, t, hrun, ?_⟩
  rintro ⟨-, hsorted⟩
  rw [hheld] at hsorted
  exact absurd hsorted (by decide)

/-! ## Slots -/

namespace IoState

/-- Every slot in use is that of a range held. -/
def SlotsExact (s : IoState) : Prop := s.slotsInUse = s.held.length

/-- `-ENOMEM` is returned only with the maximal number of ranges held. -/
def FullExact (s : IoState) : IoOp → Prop
  | .reserve base count name => ∃ r t, reserveIoRange s base count name = .ok (r, t) ∧
      (r = -ENOMEM → s.held.length = MAX_NR_IO_RANGES.toNat)
  | .release _ _ => True

/-- A reservation is not refused, and comes with fewer ranges held than the pool has slots; a release
names no range held. -/
def NoSlotLost (s : IoState) : IoOp → Prop
  | .reserve base count name => s.held.length < SIZEOF_IO_RANGE.toNat ∧
      ¬ Blocked IoRange.first IoRange.limit ⟨name, base, count⟩ s.held
  | .release base count => ¬ ∃ q ∈ s.held, q.base = base ∧ q.count = count

instance (s : IoState) : (op : IoOp) → Decidable (s.NoSlotLost op)
  | .reserve _ _ _ => inferInstanceAs (Decidable (_ ∧ _))
  | .release base count =>
    inferInstanceAs (Decidable (¬ ∃ q ∈ s.held, q.base = base ∧ q.count = count))

end IoState

section Slots
variable {a : Area} {p : Nat} {cs : List Nat} {s : IoState}

/-- The registry is sound and every record the pool has given out is on the list. -/
def AllListed (a : Area) (p : Nat) (cs : List Nat) (s : IoState) : Prop :=
  ∃ live rs, IoOk a p cs s live rs ∧ live.length = rs.length

theorem IoOk.slotsExact_iff {live rs : List Ptr} (h : IoOk a p cs s live rs) (hf : a.Fits) :
    s.SlotsExact ↔ live.length = rs.length := by
  rw [IoState.SlotsExact, h.slotsInUse_eq hf, h.held_eq hf, List.length_map]

/-- A call that answers as it should loses no slot exactly when all records are listed behind it. -/
theorem IoOk.step_exact {t : IoState} {live rs : List Ptr} (h : IoOk a p cs t live rs) (hf : a.Fits)
    {op : IoOp} (hstep : ioStep s op = .ok t) (hfull : s.FullExact op)
    (hiff : live.length = rs.length ↔ s.NoSlotLost op) :
    ((s.FullExact op ∧ ∀ t, ioStep s op = .ok t → t.SlotsExact) ↔ s.NoSlotLost op) ∧
      (s.NoSlotLost op → ∀ t, ioStep s op = .ok t → AllListed a p cs t) := by
  refine ⟨⟨?_, ?_⟩, ?_⟩
  · rintro ⟨-, hexact⟩
    exact hiff.mp ((h.slotsExact_iff hf).mp (hexact t hstep))
  · intro hn
    refine ⟨hfull, fun u hu => ?_⟩
    obtain rfl := Except.ok.inj (hstep.symm.trans hu)
    exact (h.slotsExact_iff hf).mpr (hiff.mpr hn)
  · intro hn u hu
    obtain rfl := Except.ok.inj (hstep.symm.trans hu)
    exact ⟨live, rs, h, hiff.mpr hn⟩

/-- One call loses no slot, and answers as it should, exactly when it meets the condition. -/
theorem AllListed.step_iff (h : AllListed a p cs s) (hf : a.Fits)
    (hcap : a.capacity = SIZEOF_IO_RANGE) (op : IoOp) :
    ((s.FullExact op ∧ ∀ t, ioStep s op = .ok t → t.SlotsExact) ↔ s.NoSlotLost op) ∧
      (s.NoSlotLost op → ∀ t, ioStep s op = .ok t → AllListed a p cs t) := by
  obtain ⟨live, rs, hok, hlen⟩ := h
  have hheld : s.held.length = rs.length := by rw [hok.held_eq hf, List.length_map]
  have hroom := hok.freeSlots_eq hf
  cases op with
  | release base count =>
    obtain ⟨t, rs', hr, hok', ht⟩ := hok.release hf base count
    have hlen' : t.held.length = rs'.length := by rw [hok'.held_eq hf, List.length_map]
    have hiff : live.length = rs'.length ↔ s.NoSlotLost (.release base count) := by
      rw [IoState.NoSlotLost, ← hlen', ht]
      constructor
      · rintro he ⟨q, hq, hm⟩
        have hless := List.length_eraseP_of_mem (p := fun r => r.base = base ∧ r.count = count) hq
          (decide_eq_true hm)
        have hpos := List.length_pos_of_mem hq
        omega
      · intro hnone
        rw [List.eraseP_of_forall_not fun q hq hm => hnone ⟨q, hq, of_decide_eq_true hm⟩]
        omega
    exact hok'.step_exact hf hr trivial hiff
  | reserve base count name =>
    by_cases hfull : live.length = a.capacity.toNat
    · -- No slot is left: the call fails with at most 16 ranges held.
      have hr := hok.reserve_full hf hfull base count name
      have hnot : ¬ s.NoSlotLost (.reserve base count name) := by
        rintro ⟨hlt, -⟩
        rw [← hcap] at hlt
        omega
      refine ⟨⟨?_, fun hn => absurd hn hnot⟩, fun hn => absurd hn hnot⟩
      rintro ⟨⟨r, t, hr', hmax⟩, -⟩
      rw [hr] at hr'
      cases hr'
      have h32 := hmax rfl
      rw [hheld, ← hlen, hfull, hcap] at h32
      exact absurd h32 (by decide)
    obtain ⟨x, t, rs', hok', hcase⟩ := hok.reserve_room hf (by omega) base count name
    have hlen' : t.held.length = rs'.length := by rw [hok'.held_eq hf, List.length_map]
    have hlt : s.held.length < SIZEOF_IO_RANGE.toNat := by
      rw [← hcap]
      omega
    have hiff : (x :: live).length = rs'.length ↔ s.NoSlotLost (.reserve base count name) := by
      rw [IoState.NoSlotLost, and_iff_right hlt, ← place_eq_none_iff, ← hlen', List.length_cons]
      obtain ⟨hp, _, ht⟩ | ⟨hp, _⟩ := hcase
      · rw [ht]
        constructor
        · intro he
          omega
        · exact fun hn => absurd hp hn
      · have hperm := (place_perm hp).length_eq
        rw [List.length_cons] at hperm
        constructor
        · intro _ hnone
          rw [hp] at hnone
          cases hnone
        · intro _
          omega
    obtain ⟨r, hr, hne⟩ : ∃ r, reserveIoRange s base count name = .ok (r, t) ∧ r ≠ -ENOMEM := by
      obtain ⟨_, hr, _⟩ | ⟨_, hr⟩ := hcase
      · exact ⟨_, hr, by decide⟩
      · exact ⟨_, hr, by decide⟩
    exact hok'.step_exact hf (ioStep_reserve_of_ok hr) ⟨r, t, hr, fun he => absurd he hne⟩ hiff

/-- **Slots.** In a run from `init_io` on, the slots in use are those of the ranges held in every
state and `-ENOMEM` means a full registry, if and only if no call loses a slot. -/
theorem io_slots_exact_iff (L : IoLayout) (s₀ : PoolState) (s : IoState) (ops : List IoOp)
    (hinit : initIo L s₀ = .ok s) :
    ((∀ t, Reaches ioStep s ops t → t.SlotsExact) ∧ Throughout ioStep IoState.FullExact s ops) ↔
      Throughout ioStep IoState.NoSlotLost s ops := by
  obtain ⟨p, cs, hok⟩ := initIo_ok hinit
  have hstart : AllListed L.area p cs s := ⟨[], [], hok, rfl⟩
  have hexact : s.SlotsExact := (hok.slotsExact_iff L.area_fits).mpr rfl
  rw [reaches_iff_throughout, and_assoc, and_comm (b := Throughout _ _ _ _), ← throughout_and,
    and_iff_right hexact]
  exact throughout_iff (fun t op ht => (ht.step_iff L.area_fits rfl op).1)
    (fun t op u ht hn hu => (ht.step_iff L.area_fits rfl op).2 hn u hu) hstart

end Slots

/-- Distinct ranges, and the release of one that is not held. -/
def freshCalls : List IoOp :=
  [.reserve 0x3F8 8 [], .reserve 0x2F8 8 [], .release 0x2F8 4, .reserve 0x60 1 []]

theorem io_slots_exact_fresh :
    ∃ s, initIo highRanges (initPool (.bss fun _ => 0)) = .ok s ∧
      (∀ t, Reaches ioStep s freshCalls t → t.SlotsExact) ∧
        Throughout ioStep IoState.FullExact s freshCalls := by
  have h : ∃ s, initIo highRanges (initPool (.bss fun _ => 0)) = .ok s ∧
      Throughout ioStep IoState.NoSlotLost s freshCalls := by decide +kernel
  obtain ⟨s, hinit, hn⟩ := h
  exact ⟨s, hinit, (io_slots_exact_iff highRanges (initPool (.bss fun _ => 0)) s freshCalls
    hinit).mpr hn⟩

/-- A release takes the range off the list and keeps its slot. -/
theorem release_keeps_slot :
    ∃ s, initIo highRanges (initPool (.bss fun _ => 0)) = .ok s ∧
      ∃ t, run ioStep s [.reserve 0x3F8 8 [], .release 0x3F8 8] = .ok t ∧ ¬ t.SlotsExact := by
  have h : ∃ s, initIo highRanges (initPool (.bss fun _ => 0)) = .ok s ∧
      ∃ t, run ioStep s [.reserve 0x3F8 8 [], .release 0x3F8 8] = .ok t ∧
        t.slotsInUse = 1 ∧ t.held = [] := by decide +kernel
  obtain ⟨s, hinit, t, hrun, huse, hheld⟩ := h
  refine ⟨s, hinit, t, hrun, ?_⟩
  rw [IoState.SlotsExact, huse, hheld]
  decide

end Ohwes

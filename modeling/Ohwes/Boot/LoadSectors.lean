import Ohwes.Boot.SectorAddress
import Ohwes.Library.Ensures
import Ohwes.Library.Retry

/-! # What `load_sectors` loads

A load into free memory that the drive lets through leaves there the sectors it was asked for, one
behind the other across the end of a segment, whatever failed requests stored before. -/

namespace Ohwes.Boot
open Library Fatfs
set_option autoImplicit false

/-- The disk in the drive is the one that the parameter block describes. -/
structure Drive.Serves (v : Drive) (b : BiosParamBlock) : Prop where
  addressable : Addressable b v.geometry
  sectorSize : b.sectorSize = 512
  cylinders_le : v.cylinders ≤ 1024

def Drive.capacity (v : Drive) : Nat := v.cylinders * (v.geometry.heads * v.geometry.sectors)

/-- Why a load ends early: three requests in a row failed. -/
def Drive.FailsFrom (v : Drive) (n : Nat) (e : Halt) : Prop :=
  e = diskError ∧ ∃ k ≥ n, ∀ i < 3, v.fault (k + i) = true

def Drive.Fails (v : Drive) (e : Halt) : Prop := e = diskError ∧ ∃ n, ∀ i < 3, v.fault (n + i) = true

theorem Drive.FailsFrom.fails {v : Drive} {n : Nat} {e : Halt} (h : v.FailsFrom n e) : v.Fails e := by
  obtain ⟨rfl, k, -, hall⟩ := h
  exact ⟨rfl, k, hall⟩

/-- The outcome of the requests for some sectors. -/
def asked : Option Nat → Call Nat
  | none => .error diskError
  | some n => .ok n

/-! ## One request -/

theorem overlay_covers {α : Type} (m : Nat → α) (start : Nat) {xs ys : List α}
    (h : xs.length ≤ ys.length) : overlay (overlay m start xs) start ys = overlay m start ys := by
  funext a
  by_cases hin : start ≤ a ∧ a < start + ys.length
  · obtain ⟨i, rfl⟩ : ∃ i, a = start + i := ⟨a - start, by omega⟩
    rw [overlay_inside _ start (by omega), overlay_inside _ start (by omega)]
  · by_cases ha : a < start
    · rw [overlay_before _ ys ha, overlay_before _ ys ha, overlay_before _ xs ha]
    · rw [overlay_after _ ys (by omega), overlay_after _ ys (by omega), overlay_after _ xs (by omega)]

/-! ## Free memory -/

namespace Workspace
variable {w : Workspace} {start n k a : Nat}

theorem Free.take (h : w.Free start (n + k)) : w.Free start n := by
  rcases h with ⟨hlow, hhigh⟩ | ⟨hlow, hhigh⟩
  · exact Or.inl ⟨hlow, by omega⟩
  · exact Or.inr ⟨hlow, by omega⟩

theorem Free.drop (h : w.Free start (n + k)) : w.Free (start + n) k := by
  rcases h with ⟨hlow, hhigh⟩ | ⟨hlow, hhigh⟩
  · exact Or.inl ⟨by omega, by omega⟩
  · exact Or.inr ⟨by omega, by omega⟩

theorem Free.below (h : w.Free start n) : start + n ≤ 0x100000 := by
  have htop := w.top_le
  rcases h with ⟨-, hhigh⟩ | ⟨-, hhigh⟩
  · omega
  · omega

/-- The BIOS leaves free memory alone. -/
theorem Free.not_scratch (h : w.Free start n) (ha : start ≤ a) (ha' : a < start + n) :
    ¬ w.Scratch a := by
  have hbase : STACK_BASE.toNat = 31744 := rfl
  have hstack := w.stack_le
  have htop := w.le_top
  rw [Scratch]
  rcases h with ⟨hlow, hhigh⟩ | ⟨hlow, hhigh⟩
  · omega
  · omega

theorem afterCall_of_not (s m : Memory) (h : ¬ w.Scratch a) : w.afterCall s m a = m a := if_neg h

/-- Only the last call of the BIOS shows. -/
theorem afterCall_overlay (s s' m : Memory) (start : Nat) (bytes : List Byte) :
    w.afterCall s (overlay (w.afterCall s' m) start bytes) =
      w.afterCall s (overlay m start bytes) := by
  funext a
  rw [afterCall, afterCall]
  by_cases ha : w.Scratch a
  · rw [if_pos ha, if_pos ha]
  · rw [if_neg ha, if_neg ha, overlay, overlay, afterCall_of_not s' m ha]

/-- The bytes are in memory, and no other byte has changed that a load should leave alone. -/
structure Loaded (w : Workspace) (m : Memory) (start : Nat) (bytes : List Byte) (m' : Memory) : Prop where
  held : slice m' start bytes.length = bytes
  frame : ∀ a, a < start ∨ start + bytes.length ≤ a → ¬ w.Scratch a → m' a = m a

theorem loaded_afterCall {bytes : List Byte} (h : w.Free start bytes.length) (s m : Memory) :
    w.Loaded m start bytes (w.afterCall s (overlay m start bytes)) where
  held := by
    have hread : slice (w.afterCall s (overlay m start bytes)) start bytes.length =
        slice (overlay m start bytes) start bytes.length :=
      slice_congr fun _ ha ha' => afterCall_of_not s _ (h.not_scratch ha ha')
    rw [hread, slice_overlay]
  frame a ha hscratch := by
    rw [afterCall_of_not _ _ hscratch]
    rcases ha with ha | ha
    · exact overlay_before m bytes ha
    · exact overlay_after m bytes ha

end Workspace

section Load
variable {w : Workspace} {v : Drive} {b : BiosParamBlock} (h : v.Serves b)

/-- The number of the cylinder of a sector that the drive has. -/
theorem Drive.cylinder_lt {lba : Nat} (hlba : lba < v.capacity) :
    (v.geometry.address lba).cylinder < v.cylinders := by
  refine Nat.div_lt_of_lt_mul ?_
  rwa [Nat.mul_comm]

include h

/-- A request for a sector is refused only by the drive. -/
theorem Drive.Serves.request {f : LoadFrame} (hlba : f.lba.toNat < v.capacity)
    (hfree : w.Free (linear f.es f.buffer) SECTOR_SIZE) :
    ∃ c, lba2chs b f.lba = .ok c ∧ v.int13 w f.machine (packAddress c) c.dh f.es f.buffer =
      if v.fault f.machine.requests then
        .ok (true, v.stores w f.machine (linear f.es f.buffer)
          ((v.partialData f.machine.requests).take SECTOR_SIZE))
      else .ok (false, v.stores w f.machine (linear f.es f.buffer) (v.sector f.lba.toNat)) := by
  have hcyl := Drive.cylinder_lt hlba
  have hle := h.cylinders_le
  obtain ⟨c, hc, haddr⟩ := h.addressable.decodeAddress_eq f.lba (by omega)
  have hreads : v.reads f.machine.requests (v.geometry.address f.lba.toNat) =
      !v.fault f.machine.requests := by
    rw [Drive.reads, decide_eq_true (v.geometry.address_onTrack _), decide_eq_true hcyl,
      Bool.and_true, Bool.and_true]
  refine ⟨c, hc, ?_⟩
  rw [Drive.int13, haddr, hreads, v.geometry.block_address, if_pos hfree]
  cases v.fault f.machine.requests
  · rfl
  · rfl

theorem Drive.Serves.loadPass_eq {f : LoadFrame} (hlba : f.lba.toNat < v.capacity)
    (hfree : w.Free (linear f.es f.buffer) SECTOR_SIZE) :
    loadPass w v b f =
      if v.fault f.machine.requests then
        if f.nretries - 1 = 0 then .error diskError
        else .ok (false, { f with
          nretries := f.nretries - 1
          machine := v.stores w f.machine (linear f.es f.buffer)
            ((v.partialData f.machine.requests).take SECTOR_SIZE) })
      else
        let f' := f.advance b
          (v.stores w f.machine (linear f.es f.buffer) (v.sector f.lba.toNat))
        .ok (f'.count == 0, f') := by
  obtain ⟨c, hc, hint⟩ := h.request hlba hfree
  rw [loadPass, hc, ok_bind, hint]
  cases v.fault f.machine.requests
  · rfl
  · rfl

/-! ## One sector -/

/-- Up to `r` requests for a sector, and then on to the next one. -/
theorem Drive.Serves.loadLoop_sector {r : Nat} (hr : r < 65536) {f : LoadFrame}
    (hretries : f.nretries = BitVec.ofNat 16 r) (hpos : 0 < r) (hlba : f.lba.toNat < v.capacity)
    (hfree : w.Free (linear f.es f.buffer) SECTOR_SIZE) (passes : Nat) :
    ∃ more, passes ≤ more ∧ loadLoop w v b (passes + r) f =
      (asked (attempt v.fault r f.machine.requests)).bind fun n =>
        let f' := f.advance b ⟨w.afterCall (v.scratch n)
          (overlay f.machine.memory (linear f.es f.buffer) (v.sector f.lba.toNat)), n⟩
        if f'.count == 0 then .ok f' else loadLoop w v b more f' := by
  induction r generalizing f with
  | zero => exact absurd hpos (Nat.lt_irrefl 0)
  | succ r ih =>
    have hpred : f.nretries - 1 = BitVec.ofNat 16 r := by
      rw [hretries]
      refine BitVec.eq_of_toNat_eq ?_
      rw [BitVec.toNat_sub, BitVec.toNat_ofNat, BitVec.toNat_ofNat]
      change (65536 - 1 + (r + 1) % 65536) % 65536 = r % 65536
      omega
    rw [← Nat.add_assoc, loadLoop, h.loadPass_eq hlba hfree, attempt]
    by_cases hfault : v.fault f.machine.requests = true
    · rw [if_pos hfault, if_pos hfault, hpred]
      rcases Nat.eq_zero_or_pos r with rfl | hrpos
      · exact ⟨passes, le_refl _, rfl⟩
      · have hne : ¬ BitVec.ofNat 16 r = 0 := by
          intro h0
          have := congrArg BitVec.toNat h0
          rw [BitVec.toNat_ofNat, Nat.mod_eq_of_lt (by omega)] at this
          exact absurd this hrpos.ne'
        rw [if_neg hne, ok_bind]
        have hcover : ((v.partialData f.machine.requests).take SECTOR_SIZE).length ≤
            (v.sector f.lba.toNat).length := by
          rw [Drive.sector, slice_length, List.length_take]
          exact Nat.min_le_left _ _
        obtain ⟨more, hmore, hloop⟩ := ih (f := { f with
          nretries := BitVec.ofNat 16 r
          machine := v.stores w f.machine (linear f.es f.buffer)
            ((v.partialData f.machine.requests).take SECTOR_SIZE) })
          (by omega) rfl hrpos hlba hfree
        refine ⟨more, hmore, ?_⟩
        dsimp only at hloop ⊢
        rw [if_neg Bool.false_ne_true, hloop]
        simp only [Drive.stores, Workspace.afterCall_overlay, overlay_covers _ _ hcover]
        rfl
    · rw [if_neg hfault, if_neg hfault, ok_bind]
      refine ⟨passes + r, Nat.le_add_right _ _, ?_⟩
      rfl

end Load

/-! ## All of them -/

/-- The frame once `k` sectors of the load are in memory and the drive has had `n` requests. -/
def LoadFrame.after (f : LoadFrame) (w : Workspace) (v : Drive) (k n : Nat) : LoadFrame where
  es := f.es + BitVec.ofNat 16 (4096 * ((f.buffer.toNat + 512 * k) / 65536))
  buffer := f.buffer + BitVec.ofNat 16 (512 * k)
  lba := f.lba + BitVec.ofNat 16 k
  count := f.count - BitVec.ofNat 16 k
  nretries := RETRY_COUNT
  machine := ⟨w.afterCall (v.scratch n) (overlay f.machine.memory (linear f.es f.buffer)
    (slice v.data (512 * f.lba.toNat) (512 * k))), n⟩

/-- There are so many sectors on the disk, and there is free memory for them. -/
structure LoadFrame.Room (f : LoadFrame) (w : Workspace) (v : Drive) (k : Nat) : Prop where
  aligned : f.buffer.toNat % 512 = 0
  free : w.Free (linear f.es f.buffer) (512 * k)
  disk : f.lba.toNat + k ≤ v.capacity
  lba : f.lba.toNat + k ≤ 65536

namespace LoadFrame
variable {f : LoadFrame} {w : Workspace} {v : Drive} {b : BiosParamBlock}

theorem advance_eq (hb : b.sectorSize = 512) (hf : f.buffer.toNat % 512 = 0) (n : Nat) :
    f.advance b ⟨w.afterCall (v.scratch n)
      (overlay f.machine.memory (linear f.es f.buffer) (v.sector f.lba.toNat)), n⟩ =
      f.after w v 1 n := by
  have hlt := f.buffer.isLt
  have hsum : (f.buffer + 512).toNat = (f.buffer.toNat + 512) % 65536 := by
    rw [BitVec.toNat_add]
    rfl
  have hes : (if f.buffer + 512 < f.buffer then f.es + BitVec.ofNat 16 (SEGMENT_SIZE / 16) else f.es) =
      f.es + BitVec.ofNat 16 (4096 * ((f.buffer.toNat + 512 * 1) / 65536)) := by
    by_cases hwrap : f.buffer.toNat + 512 < 65536
    · have hdiv : (f.buffer.toNat + 512 * 1) / 65536 = 0 := Nat.div_eq_of_lt (by omega)
      rw [if_neg (by rw [BitVec.lt_def]; omega), hdiv]
      exact (BitVec.add_zero f.es).symm
    · have hdiv : (f.buffer.toNat + 512 * 1) / 65536 = 1 := by omega
      rw [if_pos (by rw [BitVec.lt_def]; omega), hdiv]
      rfl
  rw [advance, after, hb, hes]
  rfl

theorem Room.next {k n : Nat} (h : f.Room w v (k + 2)) :
    (f.after w v 1 n).Room w v (k + 1) ∧ (f.after w v 1 n).lba.toNat = f.lba.toNat + 1 ∧
      linear (f.after w v 1 n).es (f.after w v 1 n).buffer = linear f.es f.buffer + 512 := by
  obtain ⟨hal, hfree, hdisk, hlba⟩ := h
  have hbuf := f.buffer.isLt
  have hes := f.es.isLt
  have hmem := hfree.below
  have hbytes : 512 * (k + 2) = 512 + 512 * (k + 1) := by omega
  have hlba' : (f.after w v 1 n).lba.toNat = f.lba.toNat + 1 := by
    rw [after, BitVec.toNat_add, BitVec.toNat_ofNat]
    omega
  have hbuffer' : (f.after w v 1 n).buffer.toNat = (f.buffer.toNat + 512) % 65536 := by
    rw [after, BitVec.toNat_add]
    rfl
  have hes' : (f.after w v 1 n).es.toNat =
      (f.es.toNat + 4096 * ((f.buffer.toNat + 512) / 65536)) % 65536 := by
    rw [after, BitVec.toNat_add, BitVec.toNat_ofNat]
    omega
  have hlin : linear (f.after w v 1 n).es (f.after w v 1 n).buffer = linear f.es f.buffer + 512 := by
    rw [linear] at hmem
    rw [linear, linear, hbuffer', hes']
    omega
  refine ⟨⟨?_, ?_, ?_, ?_⟩, hlba', hlin⟩
  · rw [hbuffer']
    omega
  · rw [hbytes] at hfree
    rw [hlin]
    exact hfree.drop
  · rw [hlba']
    omega
  · rw [hlba']
    omega

theorem after_after {k n m : Nat} (h : f.Room w v (k + 2)) :
    (f.after w v 1 n).after w v (k + 1) m = f.after w v (k + 2) m := by
  obtain ⟨hroom, hlba, hlin⟩ := h.next (n := n)
  have hal := h.aligned
  have hbuf := f.buffer.isLt
  have hnat : ∀ (x : Word) (i j : Nat), x + BitVec.ofNat 16 i + BitVec.ofNat 16 j =
      x + BitVec.ofNat 16 (i + j) := by
    intro x i j
    rw [BitVec.add_assoc, BitVec.ofNat_add]
  have hbuffer : (f.after w v 1 n).buffer.toNat = (f.buffer.toNat + 512) % 65536 := by
    rw [after, BitVec.toNat_add]
    rfl
  rw [after]
  rw [hlba, hlin, hbuffer]
  refine LoadFrame.mk.injEq .. ▸ ⟨?_, ?_, ?_, ?_, rfl, ?_⟩
  · change f.es + BitVec.ofNat 16 _ + BitVec.ofNat 16 _ = _
    rw [hnat]
    exact congrArg (fun x => f.es + BitVec.ofNat 16 x) (by omega)
  · change f.buffer + BitVec.ofNat 16 _ + BitVec.ofNat 16 _ = _
    rw [hnat]
    exact congrArg (fun x => f.buffer + BitVec.ofNat 16 x) (by omega)
  · change f.lba + BitVec.ofNat 16 _ + BitVec.ofNat 16 _ = _
    rw [hnat]
    exact congrArg (fun x => f.lba + BitVec.ofNat 16 x) (by omega)
  · change f.count - BitVec.ofNat 16 _ - BitVec.ofNat 16 _ = f.count - BitVec.ofNat 16 _
    rw [BitVec.sub_sub, ← BitVec.ofNat_add]
    exact congrArg (fun x => f.count - BitVec.ofNat 16 x) (by omega)
  · change Machine.mk (w.afterCall _
      (overlay (w.afterCall _ (overlay _ _ (slice v.data (512 * f.lba.toNat) (512 * 1)))) _ _)) m = _
    have hlen : linear f.es f.buffer + 512 =
        linear f.es f.buffer + (slice v.data (512 * f.lba.toNat) (512 * 1)).length := by
      rw [slice_length]
    have hdata : 512 * (f.lba.toNat + 1) = 512 * f.lba.toNat + 512 * 1 := by omega
    have hcount : 512 * (k + 2) = 512 * 1 + 512 * (k + 1) := by omega
    rw [Workspace.afterCall_overlay, hlen, overlay_append, hdata, ← slice_add, ← hcount]

end LoadFrame

section Load
variable {w : Workspace} {v : Drive} {b : BiosParamBlock} (h : v.Serves b)
include h

/-- **The loop**: by induction on the sectors that are to be read, each of them at most three times. -/
theorem Drive.Serves.loadLoop_eq {k : Nat} {f : LoadFrame} (hcount : f.count.toNat = k + 1)
    (hretries : f.nretries = RETRY_COUNT) (hroom : f.Room w v (k + 1)) {passes : Nat}
    (hpasses : 3 * (k + 1) ≤ passes) :
    loadLoop w v b passes f =
      (asked (attempts v.fault 3 (k + 1) f.machine.requests)).map fun n => f.after w v (k + 1) n := by
  induction k generalizing f passes with
  | zero =>
    have hdisk := hroom.disk
    obtain ⟨rest, rfl⟩ : ∃ rest, passes = rest + 3 := ⟨passes - 3, by omega⟩
    obtain ⟨more, -, hloop⟩ := h.loadLoop_sector (r := 3) (by omega) hretries (by omega)
      (by omega : f.lba.toNat < v.capacity) hroom.free rest
    rw [hloop, attempts]
    cases attempt v.fault 3 f.machine.requests with
    | none => rfl
    | some n =>
      have hlast : ((f.after w v 1 n).count == 0) = true := by
        rw [beq_iff_eq]
        refine BitVec.eq_of_toNat_eq ?_
        rw [LoadFrame.after, BitVec.toNat_sub, hcount, BitVec.toNat_ofNat]
        simp
      rw [asked, Except.bind, LoadFrame.advance_eq h.sectorSize hroom.aligned]
      dsimp only
      rw [if_pos hlast]
      rfl
  | succ k ih =>
    have hdisk := hroom.disk
    obtain ⟨rest, rfl⟩ : ∃ rest, passes = rest + 3 := ⟨passes - 3, by omega⟩
    have hfree := hroom.free
    have hbytes : 512 * (k + 1 + 1) = 512 + 512 * (k + 1) := by omega
    rw [hbytes] at hfree
    obtain ⟨more, hmore, hloop⟩ := h.loadLoop_sector (r := 3) (by omega) hretries (by omega)
      (by omega : f.lba.toNat < v.capacity) hfree.take rest
    rw [hloop, attempts]
    cases attempt v.fault 3 f.machine.requests with
    | none => rfl
    | some n =>
      have hlt := f.count.isLt
      have hcount' : (f.after w v 1 n).count.toNat = k + 1 := by
        rw [LoadFrame.after, BitVec.toNat_sub, hcount, BitVec.toNat_ofNat]
        omega
      have hgoes : ((f.after w v 1 n).count == 0) = false := by
        rw [beq_eq_false_iff_ne]
        intro h0
        rw [h0] at hcount'
        exact absurd hcount' (by simp)
      rw [asked, Except.bind, LoadFrame.advance_eq h.sectorSize hroom.aligned]
      dsimp only
      rw [hgoes, if_neg Bool.false_ne_true, ih hcount' rfl hroom.next.1 (by omega), Option.bind_some]
      have hframes : (fun m => (f.after w v 1 n).after w v (k + 1) m) = fun m => f.after w v (k + 2) m :=
        funext fun m => LoadFrame.after_after hroom
      rw [hframes]
      rfl

/-- **`load_sectors` loads exactly the sectors it is asked for**, across the ends of segments, unless
the drive fails three requests for one of them. -/
theorem Drive.Serves.loadSectors_eq (m : Machine) {es bx ax cx : Word} {k : Nat}
    (hcx : cx.toNat = k + 1) (hal : bx.toNat % 512 = 0)
    (hfree : w.Free (linear es bx) (512 * (k + 1))) (hdisk : ax.toNat + (k + 1) ≤ v.capacity)
    (hlba : ax.toNat + (k + 1) ≤ 65536) :
    loadSectors w v b m es bx ax cx =
      (asked (attempts v.fault 3 (k + 1) m.requests)).map fun n =>
        (es + BitVec.ofNat 16 (4096 * ((bx.toNat + 512 * (k + 1)) / 65536)),
          ⟨w.afterCall (v.scratch n)
            (overlay m.memory (linear es bx) (slice v.data (512 * ax.toNat) (512 * (k + 1)))), n⟩) := by
  have hlt := cx.isLt
  have hroom : (LoadFrame.mk es bx ax cx RETRY_COUNT m).Room w v (k + 1) := ⟨hal, hfree, hdisk, hlba⟩
  have hpasses : 3 * (k + 1) ≤ LOAD_PASSES := by
    rw [LOAD_PASSES]
    omega
  rw [loadSectors, h.loadLoop_eq hcx rfl hroom hpasses]
  cases attempts v.fault 3 (k + 1) m.requests with
  | none => rfl
  | some n => rfl

theorem Drive.Serves.loadSectors_ensures (m : Machine) {es bx ax cx : Word} (hcx : 0 < cx.toNat)
    (hal : bx.toNat % 512 = 0) (hfree : w.Free (linear es bx) (512 * cx.toNat))
    (hdisk : ax.toNat + cx.toNat ≤ v.capacity) (hlba : ax.toNat + cx.toNat ≤ 65536) :
    Ensures (fun r => r.1 = es + BitVec.ofNat 16 (4096 * ((bx.toNat + 512 * cx.toNat) / 65536)) ∧
        w.Loaded m.memory (linear es bx) (slice v.data (512 * ax.toNat) (512 * cx.toNat)) r.2.memory)
      (v.FailsFrom m.requests) (loadSectors w v b m es bx ax cx) := by
  obtain ⟨k, hk⟩ : ∃ k, cx.toNat = k + 1 := ⟨cx.toNat - 1, by omega⟩
  rw [hk] at hfree hdisk hlba ⊢
  rw [h.loadSectors_eq m hk hal hfree hdisk hlba]
  cases hr : attempts v.fault 3 (k + 1) m.requests with
  | none => exact .error ⟨rfl, attempts_eq_none hr⟩
  | some n => exact .ok ⟨rfl, Workspace.loaded_afterCall (by rwa [slice_length]) _ _⟩

/-- **A load into free memory comes to an end**: with the sectors there and nothing else changed but
what the stack and the BIOS's own memory hold, or with three failing requests in a row. -/
theorem loadSectors_ends (m : Machine) {es bx ax cx : Word} (hcx : 0 < cx.toNat)
    (hal : bx.toNat % 512 = 0) (hfree : w.Free (linear es bx) (512 * cx.toNat))
    (hdisk : ax.toNat + cx.toNat ≤ v.capacity) (hlba : ax.toNat + cx.toNat ≤ 65536) :
    (∃ es' m', loadSectors w v b m es bx ax cx = .ok (es', m') ∧
        w.Loaded m.memory (linear es bx) (slice v.data (512 * ax.toNat) (512 * cx.toNat)) m'.memory) ∨
      loadSectors w v b m es bx ax cx = .error diskError ∧
        ∃ n ≥ m.requests, ∀ i < 3, v.fault (n + i) = true := by
  have hends := h.loadSectors_ensures m hcx hal hfree hdisk hlba
  generalize loadSectors w v b m es bx ax cx = r at hends
  cases hends with
  | ok h =>
    left
    exact ⟨_, _, rfl, h.2⟩
  | error h =>
    obtain ⟨rfl, hfault⟩ := h
    right
    exact ⟨rfl, hfault⟩

end Load

def slowDrive : Drive where
  geometry := geometry1440
  cylinders := 80
  data := fun a => BitVec.ofNat 8 (a / 512)
  fault := fun n => n == 0
  partialData := fun _ => [0xFF]
  scratch := fun n _ => BitVec.ofNat 8 n

def loaderSpace : Workspace := ⟨0x8200, 0xA0000, by decide, by decide, by decide⟩

theorem slowDrive_ends :
    (∃ es' m', loadSectors loaderSpace slowDrive biosParamBlock ⟨fun _ => 0, 0⟩ 0x0A00 0xFE00 2000 5 =
          .ok (es', m') ∧
        loaderSpace.Loaded (fun _ => 0) (linear 0x0A00 0xFE00)
          (slice slowDrive.data (512 * (2000 : Word).toNat) (512 * (5 : Word).toNat)) m'.memory) ∨
      loadSectors loaderSpace slowDrive biosParamBlock ⟨fun _ => 0, 0⟩ 0x0A00 0xFE00 2000 5 =
          .error diskError ∧
        ∃ n ≥ 0, ∀ i < 3, slowDrive.fault (n + i) = true :=
  loadSectors_ends (v := slowDrive) ⟨addressable_1440, by decide, by decide⟩ ⟨fun _ => 0, 0⟩
    (by decide) (by decide) (by decide) (by decide) (by decide)

end Ohwes.Boot

import Ohwes.Boot.LoadSectors
import Ohwes.Boot.Stage2

/-! # The memory map that stage 2 collects

Every answer of the BIOS takes one entry of the table. Where the answer has no extended attributes,
they keep what memory held there; where it has, their low word is cleared. -/

namespace Ohwes.Boot
open Library Fatfs
set_option autoImplicit false

/-- The answers `0` to `stop` are those that the loop asks for. -/
structure Stops (answers : Nat → MapAnswer) (stop : Nat) : Prop where
  goes : ∀ i < stop, (answers i).failed = false ∧ (answers i).ebx ≠ 0
  ends : (answers stop).failed = true ∨ (answers stop).ebx = 0

/-- No answer stores more than it was asked for, and the table stays below the stack. -/
structure Fits (answers : Nat → MapAnswer) (stop : Nat) : Prop where
  entry : ∀ i ≤ stop, (answers i).entry.length ≤ MAP_ENTRY_SIZE
  room : MEMMAP_BASE.toNat + MAP_ENTRY_SIZE * (stop + 1) ≤ 0x7A00

def mapBase (i : Nat) : Nat := MEMMAP_BASE.toNat + MAP_ENTRY_SIZE * i

/-- What a byte of the entry `i` holds once the answer `r` is stored there and the next is asked for. -/
def mapByte (m : Memory) (i : Nat) (r : MapAnswer) (j : Nat) : Byte :=
  if r.cl ≠ 0x14 ∧ (j = 20 ∨ j = 21) then 0 else (r.entry[j]?).getD (m (mapBase i + j))

/-- The table of the memory `m'` from entry `k` on, over the memory `m`, and the pointer to it. -/
structure Mapped (w : Workspace) (memMap : Nat) (answers : Nat → MapAnswer) (m : Memory) (k stop : Nat)
    (m' : Memory) : Prop where
  entry : ∀ i, k ≤ i → i < stop → ∀ j < MAP_ENTRY_SIZE, m' (mapBase i + j) = mapByte m i (answers i) j
  last : ∀ j < MAP_ENTRY_SIZE, m' (mapBase stop + j) =
    ((answers stop).entry[j]?).getD (m (mapBase stop + j))
  pointer : (answers stop).failed = false → getLong m' memMap = MEMMAP_BASE.setWidth 32
  frame : ∀ a, a < mapBase k ∨ mapBase (stop + 1) ≤ a → ¬ w.Scratch a →
    (answers stop).failed = true ∨ a < memMap ∨ memMap + 4 ≤ a → m' a = m a

/-! ## Longs in memory -/

theorem getLong_storeLong (m : Memory) (a : Nat) (x : BitVec 32) : getLong (storeLong m a x) a = x := by
  have hheld : ∀ i (hi : i < (longBytes x).length), storeLong m a x (a + i) = (longBytes x)[i] :=
    fun _ hi => overlay_inside m a hi
  exact getLong_held hheld 0 x (by simp [longBytes]) rfl rfl rfl rfl

theorem storeLong_apart (m : Memory) {a i : Nat} (x : BitVec 32) (h : i < a ∨ a + 4 ≤ i) :
    storeLong m a x i = m i := by
  rcases h with h | h
  · exact overlay_before m _ h
  · exact overlay_after m _ h

/-! ## The loop -/

section Loop
variable {w : Workspace} {memMap : Nat} {answers : Nat → MapAnswer} {stop : Nat}

theorem mapBase_succ (i : Nat) : mapBase (i + 1) = mapBase i + 24 := rfl

theorem mapBase_le {i j : Nat} (h : i ≤ j) : mapBase i ≤ mapBase j :=
  Nat.add_le_add_left (Nat.mul_le_mul_left MAP_ENTRY_SIZE h) _

theorem mapBase_ge (i : Nat) : 0x1000 ≤ mapBase i := Nat.le_add_right 0x1000 _

theorem Fits.mapBase_le (h : Fits answers stop) {k : Nat} (hk : k ≤ stop) : mapBase k + 24 ≤ 0x7A00 :=
  (Boot.mapBase_le (Nat.succ_le_succ hk)).trans h.room

theorem Fits.mapBase_toNat (h : Fits answers stop) {k : Nat} (hk : k ≤ stop) :
    (BitVec.ofNat 16 (mapBase k)).toNat = mapBase k := by
  have hle := h.mapBase_le hk
  exact Nat.mod_eq_of_lt (by omega)

theorem Fits.free (h : Fits answers stop) {k : Nat} (hk : k ≤ stop) : w.Free (mapBase k) MAP_ENTRY_SIZE :=
  Or.inl ⟨(by decide : 0x500 ≤ 0x1000).trans (mapBase_ge k), h.mapBase_le hk⟩

theorem Fits.entry_free (h : Fits answers stop) {k : Nat} (hk : k ≤ stop) :
    w.Free (mapBase k) (answers k).entry.length := by
  obtain ⟨rest, hrest⟩ := Nat.exists_eq_add_of_le (h.entry k hk)
  exact (hrest ▸ h.free hk).take

theorem Fits.entry_kept (h : Fits answers stop) {k : Nat} (hk : k ≤ stop) {j : Nat}
    (hj : j < MAP_ENTRY_SIZE) (s m : Memory) : w.afterCall s m (mapBase k + j) = m (mapBase k + j) :=
  Workspace.afterCall_of_not s m ((h.free hk).not_scratch (Nat.le_add_right _ _) (by omega))

def passed (w : Workspace) (m : Memory) (k : Nat) (r : MapAnswer) : Memory :=
  let m := w.afterCall r.scratch (overlay m (mapBase k) r.entry)
  if r.cl = 0x14 then m else overlay m (mapBase k + 20) [0, 0]

theorem overlay_entry (m : Memory) {k j : Nat} (r : MapAnswer) :
    overlay m (mapBase k) r.entry (mapBase k + j) = (r.entry[j]?).getD (m (mapBase k + j)) := by
  rw [overlay, if_neg (by omega), Nat.add_sub_cancel_left]

theorem Fits.passed_entry (h : Fits answers stop) {k : Nat} (hk : k ≤ stop) (m : Memory) {j : Nat}
    (hj : j < MAP_ENTRY_SIZE) : passed w m k (answers k) (mapBase k + j) = mapByte m k (answers k) j := by
  rw [passed, mapByte]
  by_cases hcl : (answers k).cl = 0x14
  · rw [if_pos hcl, if_neg (fun h => h.1 hcl), h.entry_kept hk hj, overlay_entry]
  · rw [if_neg hcl]
    by_cases hj' : j = 20 ∨ j = 21
    · rw [if_pos ⟨hcl, hj'⟩, overlay, if_neg (by omega)]
      rcases hj' with rfl | rfl
      · have hzero : mapBase k + 20 - (mapBase k + 20) = 0 := by omega
        rw [hzero]
        rfl
      · have hone : mapBase k + 21 - (mapBase k + 20) = 1 := by omega
        rw [hone]
        rfl
    · have hkept := h.entry_kept (w := w) hk hj (answers k).scratch
        (overlay m (mapBase k) (answers k).entry)
      rw [if_neg (fun h => hj' h.2), ← overlay_entry, ← hkept]
      by_cases hlow : j < 20
      · exact overlay_before _ _ (by omega)
      · exact overlay_after _ _ (by rw [List.length_cons, List.length_singleton]; omega)

theorem passed_frame (m : Memory) {k : Nat} {r : MapAnswer} (hr : r.entry.length ≤ MAP_ENTRY_SIZE)
    {a : Nat} (ha : a < mapBase k ∨ mapBase (k + 1) ≤ a) (hscratch : ¬ w.Scratch a) :
    passed w m k r a = m a := by
  rw [mapBase_succ] at ha
  rw [MAP_ENTRY_SIZE] at hr
  have hentry : w.afterCall r.scratch (overlay m (mapBase k) r.entry) a = m a := by
    rw [Workspace.afterCall_of_not _ _ hscratch]
    rcases ha with ha | ha
    · exact overlay_before m _ ha
    · exact overlay_after m _ (by omega)
  rw [passed]
  split
  · exact hentry
  · rw [← hentry]
    rcases ha with ha | ha
    · exact overlay_before _ _ (by omega)
    · exact overlay_after _ _ (by rw [List.length_cons, List.length_singleton]; omega)

theorem e820Loop_goes (hfit : Fits answers stop) {k : Nat} (hk : k < stop)
    (hgoes : (answers k).failed = false ∧ (answers k).ebx ≠ 0) (calls : Nat) (m : Memory) :
    e820Loop w memMap answers (calls + 1) k (BitVec.ofNat 16 (mapBase k)) m =
      e820Loop w memMap answers calls (k + 1) (BitVec.ofNat 16 (mapBase (k + 1)))
        (passed w m k (answers k)) := by
  have hdi := hfit.mapBase_toNat (Nat.le_of_lt hk)
  have hnext : BitVec.ofNat 16 (mapBase k) + BitVec.ofNat 16 MAP_ENTRY_SIZE =
      BitVec.ofNat 16 (mapBase (k + 1)) := (BitVec.ofNat_add _ _).symm
  have hback : (BitVec.ofNat 16 (mapBase (k + 1)) - 4).toNat = mapBase k + 20 := by
    have hfour : (4 : Word).toNat = 4 := rfl
    have hbase := hfit.mapBase_toNat hk
    rw [mapBase_succ] at hbase
    have hlt := (BitVec.ofNat 16 (mapBase k + 24)).isLt
    rw [BitVec.toNat_sub, hfour, mapBase_succ]
    omega
  have hattributes : w.Free (mapBase k + 20) 2 := (hfit.free (Nat.le_of_lt hk)).drop.take (k := 2)
  rw [e820Loop]
  dsimp only
  rw [hgoes.1, if_neg Bool.false_ne_true, if_neg hgoes.2, hnext, hback, hdi,
    if_pos (hfit.entry_free (Nat.le_of_lt hk)), if_pos hattributes, passed]
  split
  · rfl
  · rfl

theorem e820Loop_ends (hstop : Stops answers stop) (hfit : Fits answers stop)
    (hmemMap : 0x7A00 ≤ memMap) (calls : Nat) (m : Memory) :
    ∃ m', e820Loop w memMap answers (calls + 1) stop (BitVec.ofNat 16 (mapBase stop)) m = .ok m' ∧
      Mapped w memMap answers m stop stop m' := by
  have hle := hfit.mapBase_le (le_refl stop)
  have hlen := hfit.entry stop (le_refl stop)
  have hbytes : MAP_ENTRY_SIZE = 24 := rfl
  rw [e820Loop]
  dsimp only
  rw [hfit.mapBase_toNat (le_refl stop), if_pos (hfit.entry_free (le_refl stop))]
  generalize hm1 : w.afterCall (answers stop).scratch (overlay m (mapBase stop) (answers stop).entry) = m1
  have hentry : ∀ j < MAP_ENTRY_SIZE, m1 (mapBase stop + j) =
      ((answers stop).entry[j]?).getD (m (mapBase stop + j)) := by
    intro j hj
    rw [← hm1, hfit.entry_kept (le_refl stop) hj, overlay_entry]
  have hframe : ∀ a, a < mapBase stop ∨ mapBase (stop + 1) ≤ a → ¬ w.Scratch a → m1 a = m a := by
    intro a ha hscratch
    rw [mapBase_succ] at ha
    rw [← hm1, Workspace.afterCall_of_not _ _ hscratch]
    rcases ha with ha | ha
    · exact overlay_before m _ ha
    · exact overlay_after m _ (by omega)
  cases hfailed : (answers stop).failed with
  | true =>
    rw [if_pos rfl]
    exact ⟨m1, rfl, fun i hi hlt => by omega, hentry, (fun h => nomatch hfailed.symm.trans h),
      fun a ha hscratch _ => hframe a ha hscratch⟩
  | false =>
    have hzero := hstop.ends.resolve_left (by rw [hfailed]; exact Bool.false_ne_true)
    rw [if_neg Bool.false_ne_true, if_pos hzero]
    refine ⟨_, rfl, fun i hi hlt => by omega, fun j hj => ?_, fun _ => getLong_storeLong _ _ _,
      fun a ha hscratch happart => ?_⟩
    · rw [storeLong_apart _ _ (Or.inl (by omega)), hentry j hj]
    · rw [storeLong_apart _ _ (happart.resolve_left (by rw [hfailed]; exact Bool.false_ne_true)),
        hframe a ha hscratch]

/-- The loop from entry `k` on: by induction on the entries to go. -/
theorem e820Loop_eq (hstop : Stops answers stop) (hfit : Fits answers stop) (hmemMap : 0x7A00 ≤ memMap)
    {left k : Nat} (hk : k + left = stop) (m : Memory) {calls : Nat} (hcalls : left < calls) :
    ∃ m', e820Loop w memMap answers calls k (BitVec.ofNat 16 (mapBase k)) m = .ok m' ∧
      Mapped w memMap answers m k stop m' := by
  induction left generalizing k m calls with
  | zero =>
    obtain ⟨calls, rfl⟩ : ∃ c, calls = c + 1 := ⟨calls - 1, by omega⟩
    obtain rfl : k = stop := hk
    exact e820Loop_ends hstop hfit hmemMap calls m
  | succ left ih =>
    obtain ⟨calls, rfl⟩ : ∃ c, calls = c + 1 := ⟨calls - 1, by omega⟩
    have hlt : k < stop := by omega
    have hle := hfit.mapBase_le (Nat.le_of_lt hlt)
    have hlen := hfit.entry k (Nat.le_of_lt hlt)
    have hleft : left < calls := by omega
    have hbytes : MAP_ENTRY_SIZE = 24 := rfl
    obtain ⟨m', hloop, hmap⟩ := ih (k := k + 1) (by omega) (passed w m k (answers k)) hleft
    have hkeep : ∀ i, k < i → i ≤ stop → ∀ j < MAP_ENTRY_SIZE,
        passed w m k (answers k) (mapBase i + j) = m (mapBase i + j) := by
      intro i hi hi' j hj
      exact passed_frame m hlen (Or.inr ((mapBase_le hi).trans (Nat.le_add_right _ _)))
        ((hfit.free hi').not_scratch (Nat.le_add_right _ _) (by omega))
    refine ⟨m', ?_, ⟨fun i hi hi' j hj => ?_, fun j hj => ?_, hmap.pointer,
      fun a ha hscratch happart => ?_⟩⟩
    · rw [e820Loop_goes hfit hlt (hstop.goes k hlt), hloop]
    · rcases Nat.eq_or_lt_of_le hi with rfl | hi
      · have hscratch : ¬ w.Scratch (mapBase k + j) :=
          (hfit.free (Nat.le_of_lt hlt)).not_scratch (Nat.le_add_right _ _) (by omega)
        rw [hmap.frame _ (Or.inl (by rw [mapBase_succ]; omega)) hscratch (Or.inr (Or.inl (by omega))),
          hfit.passed_entry (Nat.le_of_lt hlt) m hj]
      · rw [hmap.entry i hi hi' j hj, mapByte, mapByte, hkeep i hi (Nat.le_of_lt hi') j hj]
    · rw [hmap.last j hj, hkeep stop hlt (le_refl stop) j hj]
    · have hmono := mapBase_le (Nat.succ_le_of_lt hlt)
      have hmono' := mapBase_le (Nat.le_succ stop)
      have ha' : a < mapBase (k + 1) ∨ mapBase (stop + 1) ≤ a := by
        rw [mapBase_succ k]
        omega
      rw [hmap.frame a ha' hscratch happart, passed_frame m hlen (by
        rcases ha with ha | ha
        · exact Or.inl ha
        · exact Or.inr (by rw [Nat.succ_eq_add_one] at *; omega)) hscratch]

end Loop

def twoRegions : Nat → MapAnswer
  | 0 => ⟨false, 0x53, 1, 24, List.replicate 24 0xAA, fun _ => 0xDD⟩
  | _ => ⟨false, 0x53, 0, 20, List.replicate 20 0xBB, fun _ => 0xEE⟩

end Ohwes.Boot

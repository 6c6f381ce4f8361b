import Ohwes.Fatfs.FatSizing

/-! # The arithmetic of `create`

Which values of the options pass the parameter checks and yet divide by zero, overflow an `int` or
are cut off in a field of the block. -/

namespace Ohwes.Fatfs
set_option autoImplicit false

/-! ## Defined operations -/

def Defined {α : Type} (x : Command α) : Prop := x ≠ .error (.halted .fault)

def IsInt (x : Int) : Prop := -2147483648 ≤ x ∧ x < 2147483648

theorem defined_ok {α : Type} (r : α) : Defined (.ok r : Command α) := nofun

theorem command_ok_bind {α β : Type} (a : α) (f : α → Command β) :
    ((.ok a : Command α) >>= f) = f a := rfl

theorem defined_bind {α β : Type} {x : Command α} {f : α → Command β} :
    Defined (x >>= f) ↔ Defined x ∧ ∀ r, x = .ok r → Defined (f r) := by
  cases x with
  | error e =>
    exact ⟨fun h => ⟨fun he => h (congrArg Except.error (Except.error.inj he)), nofun⟩,
      fun h he => h.1 (congrArg Except.error (Except.error.inj he))⟩
  | ok a =>
    refine ⟨fun h => ⟨defined_ok a, fun r hr => ?_⟩, fun h => h.2 a rfl⟩
    cases hr
    exact h

theorem int32_eq {x : Int} (h : IsInt x) : int32 x = .ok x := if_pos h

theorem int32_defined {x : Int} : Defined (int32 x) ↔ IsInt x := by
  by_cases h : IsInt x
  · rw [int32_eq h]
    exact iff_of_true (defined_ok x) h
  · have hfault : int32 x = .error (.halted .fault) := if_neg h
    rw [hfault]
    exact iff_of_false (fun hd => hd rfl) h

theorem alignInt_defined {x n : Int} :
    Defined (alignInt x n) ↔ IsInt (x + n) ∧ IsInt (x + n - 1) ∧ IsInt (n - 1) := by
  rw [alignInt, defined_bind, int32_defined]
  refine and_congr_right fun hsum => ?_
  rw [int32_eq hsum]
  constructor
  · intro h
    have h := h _ rfl
    rw [defined_bind, int32_defined] at h
    have hmask := h.2 _ (int32_eq h.1)
    rw [defined_bind, int32_defined] at hmask
    exact ⟨h.1, hmask.1⟩
  · rintro ⟨htop, hmask⟩ r hr
    cases hr
    rw [int32_eq htop, int32_eq hmask]
    exact defined_ok _

theorem alignInt_ok_of_defined {x n : Int} (hd : Defined (alignInt x n)) :
    ∃ y, alignInt x n = .ok y := by
  obtain ⟨hsum, htop, hmask⟩ := alignInt_defined.mp hd
  rw [alignInt, int32_eq hsum, command_ok_bind, int32_eq htop, command_ok_bind, int32_eq hmask]
  exact ⟨_, rfl⟩

/-- `Align` to a power of two, where it is defined. -/
theorem alignInt_eq {x : Int} {k : Nat} (hk : k < 31) (hx : 0 ≤ x)
    (h : x + ((2 ^ k : Nat) : Int) < 2147483648) :
    alignInt x ((2 ^ k : Nat) : Int) = .ok (roundUp x ((2 ^ k : Nat) : Int)) := by
  have hpos := Nat.two_pow_pos k
  have hsum : IsInt (x + ((2 ^ k : Nat) : Int)) := ⟨by omega, h⟩
  have htop : IsInt (x + ((2 ^ k : Nat) : Int) - 1) := ⟨by omega, by omega⟩
  have hmask : IsInt (((2 ^ k : Nat) : Int) - 1) := ⟨by omega, by omega⟩
  obtain ⟨y, hy⟩ := alignInt_ok_of_defined (alignInt_defined.mpr ⟨hsum, htop, hmask⟩)
  rw [hy, alignInt_ok hk hx hy]

/-! ## The decision on a size of the FAT -/

/-- The room that a FAT of `fatSize` bytes has, for the width asked for or the one in question. -/
def roomFor (fatWidth clusters fatSize : Int) : Int :=
  if fatWidth = 12 then fatCapacity12 fatSize
  else if fatWidth = 16 then fatCapacity16 fatSize
  else roomIn clusters fatSize

/-- The most clusters that the width asked for allows. -/
def mostClusters (fatWidth : Int) : Int :=
  if fatWidth = 12 then MAX_CLUSTERS_12 else MAX_CLUSTERS_16

def leastClusters (fatWidth : Int) : Int :=
  if fatWidth = 16 then MIN_CLUSTERS_16 else MIN_CLUSTERS_12

section Settle
variable {w c f : Int} (hw : w = 0 ∨ w = 12 ∨ w = 16) (hf : 512 ≤ f)
include hw hf

theorem settle_none_iff :
    settle w c f = .ok none ↔ roomFor w c f < c ∧ roomFor w c f ≤ mostClusters w := by
  simp only [settle, tooMany_iff, roomFor, roomIn, mostClusters, fatCapacity12, fatCapacity16,
    MAX_CLUSTERS_12, MAX_CLUSTERS_16, MIN_CLUSTERS_12, MIN_CLUSTERS_16, CLUSTER_FIRST]
  rcases hw with rfl | rfl | rfl
  all_goals
    simp
    split_ifs <;> simp <;> omega

theorem settle_some_iff : (∃ v, settle w c f = .ok (some v)) ↔
    c ≤ roomFor w c f ∧ leastClusters w ≤ c ∧ c ≤ mostClusters w := by
  simp only [settle, tooMany_iff, roomFor, roomIn, mostClusters, leastClusters, fatCapacity12,
    fatCapacity16, MAX_CLUSTERS_12, MAX_CLUSTERS_16, MIN_CLUSTERS_12, MIN_CLUSTERS_16, CLUSTER_FIRST]
  rcases hw with rfl | rfl | rfl
  all_goals
    simp
    split_ifs <;> simp <;> omega

end Settle

/-! ## The sizing loop -/

theorem clusters_defined_of_pass {g : Sizing} {passes : Nat} {used size : Int}
    (hd : Defined (sizeFat g (passes + 1) used size)) : Defined (g.clusters (used + g.fatCount)) := by
  rw [sizeFat, defined_bind, int32_defined] at hd
  have hd := hd.2 _ (int32_eq hd.1)
  rw [defined_bind, int32_defined] at hd
  have hd := hd.2 _ (int32_eq hd.1)
  rw [defined_bind] at hd
  exact hd.1

theorem divisor_of_defined {g : Sizing} {used : Int} (hd : Defined (g.clusters used)) :
    IsInt (g.sectorsPerCluster - 1) ∧ g.sectorsPerCluster ≠ 0 := by
  rw [Sizing.clusters, defined_bind] at hd
  obtain ⟨halign, hd⟩ := hd
  obtain ⟨top, htop⟩ := alignInt_ok_of_defined halign
  refine ⟨(alignInt_defined.mp halign).2.2, fun hzero => ?_⟩
  have hd := hd top htop
  rw [defined_bind, int32_defined] at hd
  have hd := hd.2 _ (int32_eq hd.1)
  rw [if_pos hzero] at hd
  exact hd rfl

section Loop
variable (a : CreateArgs)

def sizing : Sizing where
  sectorSize := a.sectorSize
  sectorCount := totalSectors a
  sectorsPerCluster := a.sectorsPerCluster
  fatCount := a.fatCount
  fatWidth := a.fatWidth

/-- The clusters that FATs of `n` sectors leave, the system area rounded up. -/
def clustersLeft (n : Nat) : Int :=
  (totalSectors a - roundUp (usedSectors a n) a.sectorsPerCluster).tdiv a.sectorsPerCluster

/-- With FATs of `n` sectors there are more clusters than entries for them, and a larger FAT is not
ruled out. -/
def NeedsMore (n : Nat) : Prop :=
  roomFor a.fatWidth (clustersLeft a n) (n * a.sectorSize) < clustersLeft a n ∧
    roomFor a.fatWidth (clustersLeft a n) (n * a.sectorSize) ≤ mostClusters a.fatWidth

/-- The loop tries FATs of `n` sectors. -/
def Tries (n : Nat) : Prop := 1 ≤ n ∧ ∀ m, 1 ≤ m → m < n → NeedsMore a m

/-- FATs of `n` sectors are what the loop ends with. -/
def EndsWith (n : Nat) : Prop :=
  Tries a n ∧ clustersLeft a n ≤ roomFor a.fatWidth (clustersLeft a n) (n * a.sectorSize) ∧
    leastClusters a.fatWidth ≤ clustersLeft a n ∧ clustersLeft a n ≤ mostClusters a.fatWidth

instance (n : Nat) : Decidable (NeedsMore a n) := inferInstanceAs (Decidable (_ ∧ _))

/-- The system area, rounded up, stays an `int`. -/
def AreaFits (n : Nat) : Prop := usedSectors a n + a.sectorsPerCluster < 2147483648

variable {a} {k n : Nat} (h : Accepted a k)
include h

theorem Accepted.fatBytes_ge (hn : 1 ≤ n) : 512 ≤ (n : Int) * a.sectorSize := by
  have := Int.mul_le_mul (Int.ofNat_le.mpr hn) h.size_ge (by omega) (by omega)
  omega

theorem NeedsMore.bytes_le (hm : NeedsMore a n) : n * a.sectorSize ≤ 131053 := by
  obtain ⟨-, hle⟩ := hm
  simp only [roomFor, roomIn, mostClusters, fatCapacity12, fatCapacity16, MAX_CLUSTERS_12,
    MAX_CLUSTERS_16, CLUSTER_FIRST] at hle
  have := h.width
  split_ifs at hle <;> omega

theorem NeedsMore.lt (hm : NeedsMore a n) : n < 256 := by
  have hle := hm.bytes_le h
  by_contra hge
  have := Int.mul_le_mul (Int.ofNat_le.mpr (Nat.le_of_not_lt hge)) h.size_ge (by omega) (by omega)
  omega

theorem Accepted.areaFits_mono {m : Nat} (hmn : m ≤ n) (hn : AreaFits a n) : AreaFits a m := by
  have := h.usedSectors_mono hmn
  rw [AreaFits] at hn ⊢
  omega

theorem Accepted.total_pos : 0 < totalSectors a := by
  have hcount := h.count_pos
  have hup := le_roundUp (x := a.sectorCount) h.spc_pos
  rw [totalSectors]
  split
  · omega
  · omega

/-- The number of clusters is computed if the system area fits. -/
theorem Accepted.clusters_eq (htotal : totalSectors a < 2147483648) (hfit : AreaFits a n) :
    (sizing a).clusters (usedSectors a n) = .ok (clustersLeft a n) := by
  have hused := h.usedSectors_pos n
  have hpos := h.spc_pos
  have hmin := h.total_pos
  have hle := le_roundUp (x := usedSectors a n) hpos
  have hge := roundUp_le (x := usedSectors a n) hpos
  rw [AreaFits] at hfit
  have halign : alignInt (usedSectors a n) (sizing a).sectorsPerCluster =
      .ok (roundUp (usedSectors a n) a.sectorsPerCluster) := by
    have hk := h.k_lt
    have hspc : (sizing a).sectorsPerCluster = ((2 ^ k : Nat) : Int) := h.spc
    rw [h.spc] at hfit ⊢
    rw [hspc]
    exact alignInt_eq (by omega) hused.le hfit
  have hleft : IsInt ((sizing a).sectorCount - roundUp (usedSectors a n) a.sectorsPerCluster) := by
    have hcount : (sizing a).sectorCount = totalSectors a := rfl
    rw [hcount]
    exact ⟨by omega, by omega⟩
  have hne : ¬ (sizing a).sectorsPerCluster = 0 := hpos.ne'
  rw [Sizing.clusters, halign, command_ok_bind, int32_eq hleft, command_ok_bind, if_neg hne]
  rfl

omit h in
theorem areaFits_of_defined (hd : Defined ((sizing a).clusters (usedSectors a n))) :
    AreaFits a n := by
  rw [Sizing.clusters, defined_bind, alignInt_defined] at hd
  exact hd.1.1.2

omit h in
theorem usedSectors_succ (n : Nat) : usedSectors a n + a.fatCount = usedSectors a (n + 1) := by
  rw [usedSectors, usedSectors]
  push_cast
  ring

omit h in
theorem fatBytes_succ (n : Nat) :
    n * a.sectorSize + a.sectorSize = ((n + 1 : Nat) : Int) * a.sectorSize := by
  push_cast
  ring

/-- A pass, where its sums stay inside an `int`. -/
theorem Accepted.sizeFat_succ (htotal : totalSectors a < 2147483648) (hfit : AreaFits a (n + 1))
    (hbytes : ((n + 1 : Nat) : Int) * a.sectorSize < 2147483648) (passes : Nat) :
    sizeFat (sizing a) (passes + 1) (usedSectors a n) (n * a.sectorSize) =
      match settle a.fatWidth (clustersLeft a (n + 1)) ((n + 1 : Nat) * a.sectorSize) with
      | .error msg => .error (.refused msg)
      | .ok (some width) => .ok ((n + 1 : Nat) * a.sectorSize, width)
      | .ok none =>
        sizeFat (sizing a) passes (usedSectors a (n + 1)) ((n + 1 : Nat) * a.sectorSize) := by
  have hused : int32 (usedSectors a n + (sizing a).fatCount) = .ok (usedSectors a (n + 1)) := by
    have hpos := h.usedSectors_pos (n + 1)
    have hspc := h.spc_pos
    have hsucc : usedSectors a n + (sizing a).fatCount = usedSectors a (n + 1) := usedSectors_succ n
    rw [AreaFits] at hfit
    rw [hsucc]
    exact int32_eq ⟨by omega, by omega⟩
  have hsize : int32 (n * a.sectorSize + (sizing a).sectorSize) =
      .ok ((n + 1 : Nat) * a.sectorSize) := by
    have hge := h.fatBytes_ge (n := n + 1) (by omega)
    have hsucc : n * a.sectorSize + (sizing a).sectorSize = ((n + 1 : Nat) : Int) * a.sectorSize :=
      fatBytes_succ n
    rw [hsucc]
    exact int32_eq ⟨by omega, hbytes⟩
  rw [sizeFat, hused, command_ok_bind, hsize, command_ok_bind, h.clusters_eq htotal hfit,
    command_ok_bind]
  rfl

omit h in
/-- A pass is defined only if the system area fits. -/
theorem areaFits_of_pass {passes : Nat}
    (hd : Defined (sizeFat (sizing a) (passes + 1) (usedSectors a n) (n * a.sectorSize))) :
    AreaFits a (n + 1) := by
  have hclusters := clusters_defined_of_pass hd
  have hsucc : usedSectors a n + (sizing a).fatCount = usedSectors a (n + 1) := usedSectors_succ n
  rw [hsucc] at hclusters
  exact areaFits_of_defined hclusters

/-- The passes over FATs that are too small. -/
theorem Accepted.sizeFat_passes (htotal : totalSectors a < 2147483648) (m passes : Nat)
    (hmore : ∀ j, n < j → j ≤ n + m → NeedsMore a j ∧ AreaFits a j) :
    sizeFat (sizing a) (passes + m) (usedSectors a n) (n * a.sectorSize) =
      sizeFat (sizing a) passes (usedSectors a (n + m)) ((n + m : Nat) * a.sectorSize) := by
  induction m generalizing n with
  | zero => rfl
  | succ m ih =>
    obtain ⟨hneeds, hfit⟩ := hmore (n + 1) (by omega) (by omega)
    have hbytes := hneeds.bytes_le h
    have hnone := (settle_none_iff h.width (h.fatBytes_ge (by omega))).mpr hneeds
    rw [← Nat.add_assoc, h.sizeFat_succ htotal hfit (by omega), hnone]
    dsimp only
    rw [ih fun j hj hle => hmore j (by omega) (by omega), Nat.add_right_comm n 1 m]
    rfl

/-- What the loop makes of a size at which it ends. -/
def verdict (a : CreateArgs) (n : Nat) : Command (Int × Int) :=
  match settle a.fatWidth (clustersLeft a n) (n * a.sectorSize) with
  | .error msg => .error (.refused msg)
  | .ok (some width) => .ok (n * a.sectorSize, width)
  | .ok none => .error (.halted .diverges)

omit h in
theorem usedSectors_zero : a.rootSectorCount + a.reservedSectorCount = usedSectors a 0 := by
  rw [usedSectors, Nat.cast_zero, Int.zero_mul, Int.add_zero]

theorem Tries.le (hn : Tries a n) : n ≤ SIZING_PASSES := by
  by_contra hlt
  have hneeds := hn.2 256 (by omega) (by rw [SIZING_PASSES] at hlt; omega)
  exact absurd (hneeds.lt h) (Nat.lt_irrefl 256)

/-- The sizes that are too small end with one that is not. -/
theorem Accepted.exists_last : ∃ n, Tries a n ∧ ¬ NeedsMore a n := by
  have hex : ∃ n, 1 ≤ n ∧ ¬ NeedsMore a n :=
    ⟨256, by omega, fun hneeds => absurd (hneeds.lt h) (Nat.lt_irrefl 256)⟩
  obtain ⟨hpos, hno⟩ := Nat.find_spec hex
  refine ⟨Nat.find hex, ⟨hpos, fun m hm hlt => ?_⟩, hno⟩
  by_contra hneeds
  exact Nat.find_min hex hlt ⟨hm, hneeds⟩

omit h in
theorem Tries.unique {m : Nat} (hn : Tries a n) (hno : ¬ NeedsMore a n) (hm : Tries a m)
    (hmno : ¬ NeedsMore a m) : n = m := by
  rcases Nat.lt_trichotomy n m with hlt | heq | hgt
  · exact absurd (hm.2 n hn.1 hlt) hno
  · exact heq
  · exact absurd (hn.2 m hm.1 hgt) hmno

/-- The loop comes to the first size that is large enough, if the sums stay inside an `int`. -/
theorem Accepted.sizeFat_verdict (htotal : totalSectors a < 2147483648) (hn : Tries a n)
    (hno : ¬ NeedsMore a n) (hfit : AreaFits a n) :
    sizeFat (sizing a) SIZING_PASSES (a.rootSectorCount + a.reservedSectorCount) 0 =
      verdict a n := by
  have hle := hn.le h
  obtain ⟨hpos, hbefore⟩ := hn
  obtain ⟨m, rfl⟩ : ∃ m, n = m + 1 := ⟨n - 1, by omega⟩
  have hpasses : SIZING_PASSES = (SIZING_PASSES - (m + 1) + 1) + m := by omega
  have hwalk := h.sizeFat_passes htotal m (SIZING_PASSES - (m + 1) + 1) (n := 0) fun j hj hjm =>
    ⟨hbefore j hj (by omega), h.areaFits_mono (by omega) hfit⟩
  have hbytes : ((m + 1 : Nat) : Int) * a.sectorSize < 2147483648 := by
    have := Int.mul_le_mul (Int.ofNat_le.mpr hle) h.size_le (by have := h.size_ge; omega)
      (Int.natCast_nonneg _)
    rw [SIZING_PASSES] at this
    omega
  rw [Nat.zero_add, Nat.cast_zero, Int.zero_mul, ← usedSectors_zero, ← hpasses] at hwalk
  rw [hwalk, h.sizeFat_succ htotal hfit hbytes, verdict]
  cases hsettle : settle a.fatWidth (clustersLeft a (m + 1)) ((m + 1 : Nat) * a.sectorSize) with
  | error msg => rfl
  | ok decided =>
    cases decided with
    | some width => rfl
    | none =>
      exact absurd ((settle_none_iff h.width (h.fatBytes_ge (by omega))).mp hsettle) hno

theorem Accepted.areaFits_of_sizeFat (htotal : totalSectors a < 2147483648)
    (hd : Defined (sizeFat (sizing a) SIZING_PASSES (a.rootSectorCount + a.reservedSectorCount) 0))
    (hn : Tries a n) : AreaFits a n := by
  induction n using Nat.strong_induction_on with
  | _ n ih =>
    have hle := hn.le h
    obtain ⟨hpos, hbefore⟩ := hn
    obtain ⟨m, rfl⟩ : ∃ m, n = m + 1 := ⟨n - 1, by omega⟩
    have hpasses : SIZING_PASSES = (SIZING_PASSES - (m + 1) + 1) + m := by omega
    have hwalk := h.sizeFat_passes htotal m (SIZING_PASSES - (m + 1) + 1) (n := 0) fun j hj hjm =>
      ⟨hbefore j hj (by omega),
        ih j (by omega) ⟨hj, fun i hi hij => hbefore i hi (by omega)⟩⟩
    rw [Nat.zero_add, Nat.cast_zero, Int.zero_mul, ← usedSectors_zero, ← hpasses] at hwalk
    rw [hwalk] at hd
    exact areaFits_of_pass hd

omit h in
theorem verdict_defined : Defined (verdict a n) := by
  rw [verdict]
  split
  · nofun
  · nofun
  · nofun

/-- The verdict is a width if the disk has neither too few clusters nor too many. -/
theorem Accepted.verdict_ok_iff (hn : Tries a n) :
    (∃ r, verdict a n = .ok r) ↔ EndsWith a n := by
  have hsome := settle_some_iff h.width (h.fatBytes_ge hn.1) (c := clustersLeft a n)
  rw [EndsWith, and_iff_right hn, ← hsome, verdict]
  cases settle a.fatWidth (clustersLeft a n) (n * a.sectorSize) with
  | error msg => exact iff_of_false nofun nofun
  | ok decided =>
    cases decided with
    | some width => exact iff_of_true ⟨_, rfl⟩ ⟨_, rfl⟩
    | none => exact iff_of_false nofun nofun

end Loop

/-! ## The geometry -/

section Geometry
variable (a : CreateArgs)

/-- The aligned sizes stay inside an `int`. -/
def GeometryFits : Prop :=
  a.aligned = true → a.sectorCount + a.sectorsPerCluster < 2147483648 ∧
    a.rootSectorCount * a.sectorSize < 2147483648

variable {a} {k : Nat} (h : Accepted a k)
include h

theorem Accepted.rootSize_nonneg : 0 ≤ a.rootSectorCount * a.sectorSize :=
  Int.mul_nonneg h.rootSectorCount_nonneg (by have := h.size_ge; omega)

theorem Accepted.geometry_eq (hfits : GeometryFits a) :
    a.geometry = .ok (totalSectors a, storedRootCapacity a) := by
  rw [CreateArgs.geometry, totalSectors, storedRootCapacity]
  split
  · obtain ⟨hcount, hroot⟩ := hfits ‹_›
    have hk := h.k_lt
    have hpos := h.count_pos
    have hnonneg := h.rootSize_nonneg
    rw [h.spc] at hcount
    rw [h.spc, alignInt_eq (by omega) (by omega) hcount, command_ok_bind,
      int32_eq ⟨by omega, hroot⟩]
    rfl
  · rfl

theorem Accepted.geometryFits_of_defined (hd : Defined a.geometry) : GeometryFits a := by
  intro hal
  rw [CreateArgs.geometry, if_pos hal, defined_bind, alignInt_defined] at hd
  obtain ⟨hcount, hd⟩ := hd
  have hk := h.k_lt
  have hpos := h.count_pos
  have hsum := hcount.1.2
  rw [h.spc] at hsum
  have heq := alignInt_eq (k := k) (by omega) hpos.le hsum
  rw [h.spc] at hd ⊢
  have hd := hd _ heq
  rw [defined_bind, int32_defined] at hd
  exact ⟨hsum, hd.1.2⟩

theorem Accepted.total_lt (hcount : a.sectorCount < 2147483648) (hfits : GeometryFits a) :
    totalSectors a < 2147483648 := by
  rw [totalSectors]
  split
  · have hup := roundUp_le (x := a.sectorCount) h.spc_pos
    have := (hfits ‹_›).1
    omega
  · exact hcount

end Geometry

/-! ## The fields of the block -/

/-- The field is the number; a negative one is read back with its sign. -/
def Keeps {w : Nat} (field : BitVec w) (x : Int) : Prop :=
  if x < 0 then field.toInt = x else (field.toNat : Int) = x

theorem keeps_iff {w : Nat} {x : Int} (hx : 0 ≤ x) :
    Keeps (BitVec.ofInt w x) x ↔ x < ((2 ^ w : Nat) : Int) := by
  rw [Keeps, if_neg (by omega), ofInt_toNat_mod]
  have hpos := Nat.two_pow_pos w
  constructor
  · intro h
    rw [← h]
    exact Int.emod_lt_of_pos x (by omega)
  · intro h
    exact Int.emod_eq_of_lt hx h

theorem keeps_byte_iff {x : Int} : Keeps (BitVec.ofInt 8 x) x ↔ -128 ≤ x ∧ x < 256 := by
  rw [Keeps]
  split
  · rw [BitVec.toInt_ofInt, Int.bmod_def]
    split_ifs <;> omega
  · rw [ofInt_toNat_mod]
    omega

theorem keeps_long {x : Int} (h : IsInt x) : Keeps (BitVec.ofInt 32 x) x := by
  obtain ⟨hlow, hhigh⟩ := h
  rw [Keeps]
  split
  · rw [BitVec.toInt_ofInt, Int.bmod_def]
    split_ifs <;> omega
  · rw [ofInt_toNat_mod]
    omega

/-- The fields of a block and the numbers that were computed for them. -/
structure FieldsKept (a : CreateArgs) (count capacity fatSize : Int)
    (bpb : BiosParamBlock) : Prop where
  mediaType : Keeps bpb.mediaType a.mediaType
  headCount : Keeps bpb.headCount a.headCount
  driveNumber : Keeps bpb.driveNumber a.driveNumber
  sectorCount : Keeps bpb.sectorCount (if count > 65535 then 0 else count)
  sectorCountLarge : Keeps bpb.sectorCountLarge (if count > 65535 then count else 0)
  sectorSize : Keeps bpb.sectorSize a.sectorSize
  tableCount : Keeps bpb.tableCount a.fatCount
  sectorsPerTable : Keeps bpb.sectorsPerTable (fatSize / a.sectorSize)
  sectorsPerTrack : Keeps bpb.sectorsPerTrack a.sectorsPerTrack
  sectorsPerCluster : Keeps bpb.sectorsPerCluster a.sectorsPerCluster
  rootDirCapacity : Keeps bpb.rootDirCapacity capacity
  reservedSectorCount : Keeps bpb.reservedSectorCount a.reservedSectorCount
  hiddenSectorCount : Keeps bpb.hiddenSectorCount 0
  volumeId : Keeps bpb.volumeId a.volumeId

/-- The numbers that a field of 8 or 16 bits holds. -/
structure FieldsFit (a : CreateArgs) : Prop where
  mediaType : -128 ≤ a.mediaType ∧ a.mediaType < 256
  headCount : a.headCount < 65536
  driveNumber : -128 ≤ a.driveNumber ∧ a.driveNumber < 256
  fatCount : a.fatCount < 256
  sectorsPerTrack : a.sectorsPerTrack < 65536
  rootDirCapacity : storedRootCapacity a < 65536
  reservedSectorCount : a.reservedSectorCount < 65536

section Fields
variable {a : CreateArgs} {k n : Nat} {width : Int}

/-- What the parameter checks let through besides. -/
theorem checkArgs_geometry {u : Unit} (h : checkArgs a = .ok u) :
    0 < a.headCount ∧ 0 < a.sectorsPerTrack := by
  simp only [checkArgs, command_bind_ok, checkParam_ok] at h
  obtain ⟨_, -, _, -, _, -, _, -, _, hheads, _, htrack, -⟩ := h
  exact ⟨of_decide_eq_true hheads, of_decide_eq_true htrack⟩

/-- The fields for which the checks leave no room are kept in any case. -/
theorem Accepted.fieldsKept_iff (h : Accepted a k) (hargs : checkArgs a = .ok ())
    (hid : IsInt a.volumeId) (htotal : totalSectors a < 2147483648) (hn : n ≤ 256) :
    FieldsKept a (totalSectors a) (storedRootCapacity a) (n * a.sectorSize)
      (createBpb a (totalSectors a) (storedRootCapacity a) (n * a.sectorSize) width) ↔
      FieldsFit a := by
  obtain ⟨hheads, htrack⟩ := checkArgs_geometry hargs
  have hsize := h.size_ge
  have hsize' := h.size_le
  have hspc := h.spc_pos
  have hspc' := h.spc_le
  have hfats := h.fats_pos
  have hres := h.reserved_pos
  have hmin := h.total_pos
  have hcapacity : 0 ≤ storedRootCapacity a := by
    have hnonneg := h.rootSize_nonneg
    have hroot := h.root_pos
    rw [storedRootCapacity]
    split
    · exact Int.ediv_nonneg hnonneg (by decide)
    · exact hroot.le
  have htable : (n : Int) * a.sectorSize / a.sectorSize = n := Int.mul_ediv_cancel _ (by omega)
  constructor
  · intro hk
    exact
      { mediaType := keeps_byte_iff.mp hk.mediaType
        headCount := (keeps_iff hheads.le).mp hk.headCount
        driveNumber := keeps_byte_iff.mp hk.driveNumber
        fatCount := (keeps_iff (by omega)).mp hk.tableCount
        sectorsPerTrack := (keeps_iff htrack.le).mp hk.sectorsPerTrack
        rootDirCapacity := (keeps_iff hcapacity).mp hk.rootDirCapacity
        reservedSectorCount := (keeps_iff (by omega)).mp hk.reservedSectorCount }
  · intro hf
    have hcount : Keeps (if totalSectors a > 65535 then 0 else BitVec.ofInt 16 (totalSectors a))
        (if totalSectors a > 65535 then 0 else totalSectors a) := by
      split
      · rfl
      · exact (keeps_iff hmin.le).mpr (by norm_num; omega)
    have hlarge : Keeps (if totalSectors a > 65535 then BitVec.ofInt 32 (totalSectors a) else 0)
        (if totalSectors a > 65535 then totalSectors a else 0) := by
      split
      · exact keeps_long ⟨by omega, htotal⟩
      · rfl
    exact
      { mediaType := keeps_byte_iff.mpr hf.mediaType
        headCount := (keeps_iff hheads.le).mpr hf.headCount
        driveNumber := keeps_byte_iff.mpr hf.driveNumber
        sectorCount := hcount
        sectorCountLarge := hlarge
        sectorSize := (keeps_iff (by omega)).mpr (by norm_num; omega)
        tableCount := (keeps_iff (by omega)).mpr hf.fatCount
        sectorsPerTable := by
          rw [htable]
          exact (congrArg (Keeps · (n : Int)) (congrArg (BitVec.ofInt 16) htable)).mpr
            ((keeps_iff (Int.natCast_nonneg n)).mpr (by norm_num; omega))
        sectorsPerTrack := (keeps_iff htrack.le).mpr hf.sectorsPerTrack
        sectorsPerCluster := (keeps_iff hspc.le).mpr (by norm_num; omega)
        rootDirCapacity := (keeps_iff hcapacity).mpr hf.rootDirCapacity
        reservedSectorCount := (keeps_iff (by omega)).mpr hf.reservedSectorCount
        hiddenSectorCount := rfl
        volumeId := keeps_long hid }

end Fields

/-! ## The whole command -/

/-- The numbers that `create` computes: sector count, root directory capacity, bytes and width of the
FAT. -/
def CreateArgs.computed (a : CreateArgs) : Command (Int × Int × Int × Int) := do
  checkArgs a
  let sectorsUsed ← int32 (a.rootSectorCount + a.reservedSectorCount)
  let (sectorCount, rootDirCapacity) ← a.geometry
  let (fatSize, fatWidth) ← sizeFat
    { sectorSize := a.sectorSize
      sectorCount := sectorCount
      sectorsPerCluster := a.sectorsPerCluster
      fatCount := a.fatCount
      fatWidth := a.fatWidth } SIZING_PASSES sectorsUsed 0
  return (sectorCount, rootDirCapacity, fatSize, fatWidth)

/-- The block is filled in from the computed numbers. -/
theorem create_eq (a : CreateArgs) :
    create a = a.computed >>= fun r =>
      .ok (createBpb a r.1 r.2.1 r.2.2.1 r.2.2.2, r.2.2.2) := by
  rw [create, CreateArgs.computed]
  simp only [bind_assoc]
  rfl

/-- The loop ends, no operation on the way is undefined, and the fields hold what was computed. -/
structure CreateExact (a : CreateArgs) : Prop where
  ends : create a ≠ .error (.halted .diverges)
  defined : create a ≠ .error (.halted .fault)
  kept : ∀ bpb width, create a = .ok (bpb, width) → ∀ count capacity fatSize width',
    a.computed = .ok (count, capacity, fatSize, width') → FieldsKept a count capacity fatSize bpb

/-- The values of the options that are numbers. -/
def CreateArgs.ints (a : CreateArgs) : List Int :=
  [a.volumeId, a.sectorSize, a.sectorCount, a.headCount, a.sectorsPerTrack, a.sectorsPerCluster,
    a.mediaType, a.driveNumber, a.fatCount, a.fatWidth, a.rootDirCapacity, a.reservedSectorCount]

/-- There is a number of sectors per cluster to divide by, the sums for the aligned sizes and for
every size of the FAT that is tried stay inside an `int`, and if one of them is settled on, the
fields have room. -/
structure CreateFits (a : CreateArgs) : Prop where
  divisor : a.sectorsPerCluster ≠ 0 ∧ a.sectorsPerCluster ≠ -2147483648
  geometry : GeometryFits a
  areas : ∀ n, Tries a n → AreaFits a n
  fields : (∃ n, EndsWith a n) → FieldsFit a

section Command
variable {a : CreateArgs} {k : Nat}

/-- With a geometry that fits, the loop is all that is left. -/
theorem Accepted.computed_eq (h : Accepted a k) (hargs : checkArgs a = .ok ())
    (hbase : IsInt (a.rootSectorCount + a.reservedSectorCount)) (hfits : GeometryFits a) :
    a.computed =
      sizeFat (sizing a) SIZING_PASSES (a.rootSectorCount + a.reservedSectorCount) 0 >>= fun r =>
        .ok (totalSectors a, storedRootCapacity a, r.1, r.2) := by
  rw [CreateArgs.computed, hargs, command_ok_bind, int32_eq hbase, command_ok_bind,
    h.geometry_eq hfits, command_ok_bind]
  rfl

theorem geometry_ok_of_defined (hd : Defined a.geometry) : ∃ r, a.geometry = .ok r := by
  rw [CreateArgs.geometry] at hd ⊢
  split
  · rw [if_pos ‹_›, defined_bind] at hd
    obtain ⟨count, hcount⟩ := alignInt_ok_of_defined hd.1
    have hd := hd.2 count hcount
    rw [defined_bind, int32_defined] at hd
    rw [hcount, command_ok_bind, int32_eq hd.1]
    exact ⟨_, rfl⟩
  · exact ⟨_, rfl⟩

/-- Without the sectors of a cluster the first pass divides by zero. -/
theorem divisor_of_computed (hargs : checkArgs a = .ok ()) (hd : Defined a.computed) :
    IsInt (a.sectorsPerCluster - 1) ∧ a.sectorsPerCluster ≠ 0 := by
  rw [CreateArgs.computed, hargs, command_ok_bind, defined_bind, int32_defined] at hd
  have hd := hd.2 _ (int32_eq hd.1)
  rw [defined_bind] at hd
  obtain ⟨⟨count, capacity⟩, hgeo⟩ := geometry_ok_of_defined hd.1
  have hd := hd.2 _ hgeo
  dsimp only at hd
  rw [defined_bind, SIZING_PASSES] at hd
  exact divisor_of_defined (clusters_defined_of_pass hd.1)

theorem verdict_size {n : Nat} {fatSize width : Int} (h : verdict a n = .ok (fatSize, width)) :
    fatSize = n * a.sectorSize := by
  rw [verdict] at h
  split at h
  · cases h
  · cases h
    rfl
  · cases h

theorem EndsWith.not_needsMore {n : Nat} (h : EndsWith a n) : ¬ NeedsMore a n :=
  fun hneeds => absurd (Int.lt_of_lt_of_le hneeds.1 h.2.1) (Int.lt_irrefl _)

/-- The numbers that are computed where everything fits. -/
theorem Accepted.computed_verdict (h : Accepted a k) (hargs : checkArgs a = .ok ())
    (hcount : a.sectorCount < 2147483648) (hgeo : GeometryFits a)
    (hareas : ∀ n, Tries a n → AreaFits a n) {n : Nat} (hn : Tries a n) (hno : ¬ NeedsMore a n) :
    a.computed = verdict a n >>= fun r =>
      .ok (totalSectors a, storedRootCapacity a, r.1, r.2) := by
  have hbase : IsInt (a.rootSectorCount + a.reservedSectorCount) := by
    have hfit := hareas n hn
    have hpos := h.usedSectors_pos 0
    have hmono := h.usedSectors_mono (Nat.zero_le n)
    have hspc := h.spc_pos
    rw [usedSectors_zero]
    rw [AreaFits] at hfit
    exact ⟨by omega, by omega⟩
  rw [h.computed_eq hargs hbase hgeo,
    h.sizeFat_verdict (h.total_lt hcount hgeo) hn hno (hareas n hn)]

end Command

/-- **Create.** For options that pass the parameter checks, the arithmetic is exact if and only if the
sectors per cluster are not zero and everything fits. -/
theorem create_exact_iff (a : CreateArgs) (hints : ∀ x ∈ a.ints, IsInt x)
    (hargs : checkArgs a = .ok ()) : CreateExact a ↔ CreateFits a := by
  have hdefined : Defined (create a) ↔ Defined a.computed := by
    rw [create_eq, defined_bind]
    exact and_iff_left fun _ _ => defined_ok _
  have hint : ∀ {x : Int}, x ∈ a.ints → IsInt x := fun hx => hints _ hx
  have hcount : a.sectorCount < 2147483648 := (hint (by simp [CreateArgs.ints])).2
  have hspc : IsInt a.sectorsPerCluster := hint (by simp [CreateArgs.ints])
  have hid : IsInt a.volumeId := hint (by simp [CreateArgs.ints])
  constructor
  · intro hc
    have hd := hdefined.mp hc.defined
    obtain ⟨hmask, hzero⟩ := divisor_of_computed hargs hd
    obtain ⟨k, h⟩ := checkArgs_ok hargs hmask.1 hzero
    rw [CreateArgs.computed, hargs, command_ok_bind, defined_bind, int32_defined] at hd
    have hd := hd.2 _ (int32_eq hd.1)
    rw [defined_bind] at hd
    have hgeo := h.geometryFits_of_defined hd.1
    have htotal := h.total_lt hcount hgeo
    have hd := hd.2 _ (h.geometry_eq hgeo)
    dsimp only at hd
    rw [defined_bind] at hd
    have hareas := fun n (hn : Tries a n) => h.areaFits_of_sizeFat htotal hd.1 hn
    refine ⟨⟨hzero, fun hmin => ?_⟩, hgeo, hareas, ?_⟩
    · have := hmask.1
      omega
    · rintro ⟨n, hn⟩
      have hcomputed := h.computed_verdict hargs hcount hgeo hareas hn.1 hn.not_needsMore
      obtain ⟨⟨fatSize, width⟩, hverdict⟩ := (h.verdict_ok_iff hn.1).mpr hn
      rw [hverdict, command_ok_bind] at hcomputed
      have hcreate := create_eq a
      rw [hcomputed, command_ok_bind] at hcreate
      have hkept := hc.kept _ _ hcreate _ _ _ _ hcomputed
      rw [verdict_size hverdict] at hkept
      exact (h.fieldsKept_iff hargs hid htotal (hn.1.le h)).mp hkept
  · intro hf
    obtain ⟨k, h⟩ := checkArgs_ok hargs (by have := hf.divisor.2; have := hspc.1; omega) hf.divisor.1
    have htotal := h.total_lt hcount hf.geometry
    obtain ⟨n, hn, hno⟩ := h.exists_last
    have hcomputed := h.computed_verdict hargs hcount hf.geometry hf.areas hn hno
    refine ⟨create_comesBack a, hdefined.mpr ?_, ?_⟩
    · rw [hcomputed, defined_bind]
      exact ⟨verdict_defined, fun _ _ => defined_ok _⟩
    · intro bpb width hcreate count capacity fatSize width' hok
      rw [create_eq, hok, command_ok_bind] at hcreate
      cases hcreate
      rw [hcomputed] at hok
      obtain ⟨⟨f, v⟩, hverdict, hok⟩ := command_bind_ok.mp hok
      cases hok
      have hends := (h.verdict_ok_iff hn).mp ⟨_, hverdict⟩
      rw [verdict_size hverdict]
      exact (h.fieldsKept_iff hargs hid htotal (hn.le h)).mpr (hf.fields ⟨n, hends⟩)

theorem default_create_fits : CreateFits { volumeId := 0 } := by
  refine ⟨by decide, fun hal => absurd hal (by decide), fun n hn => ?_, fun _ => ?_⟩
  · have hle : n ≤ 9 := by
      by_contra hlt
      exact absurd (hn.2 9 (by omega) (by omega)) (by decide)
    have hroot : (CreateArgs.rootSectorCount { volumeId := 0 }) = 14 := by rfl
    rw [AreaFits, usedSectors, hroot]
    dsimp only
    omega
  · exact ⟨by decide, by decide, by decide, by decide, by decide, by decide, by decide⟩

theorem create_exact_default : CreateExact { volumeId := 0 } :=
  (create_exact_iff { volumeId := 0 } (by unfold IsInt; decide) (by rfl)).mpr default_create_fits

/-- Zero is a power of two to the parameter checks, and the number of clusters is divided by it. -/
theorem create_divides_by_zero :
    checkArgs { volumeId := 0, sectorsPerCluster := 0 } = .ok () ∧
      create { volumeId := 0, sectorsPerCluster := 0 } = .error (.halted .fault) ∧
      ¬ CreateExact { volumeId := 0, sectorsPerCluster := 0 } := by
  have hfault : create { volumeId := 0, sectorsPerCluster := 0 } = .error (.halted .fault) := by rfl
  exact ⟨by rfl, hfault, fun h => h.defined hfault⟩

end Ohwes.Fatfs

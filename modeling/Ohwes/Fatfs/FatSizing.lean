import Mathlib.Order.Bounds.Basic
import Mathlib.Tactic.Ring
import Ohwes.Fatfs.Create

/-! # When the FAT that `create` sizes covers the disk

The sizing loop rounds the system area up to whole clusters; the block it fills in describes the
exact one. The clusters in between are hidden from the loop. -/

namespace Ohwes.Fatfs
set_option autoImplicit false

/-! ## Rounding up to a power of two -/

def roundUp (x n : Int) : Int := (x + n - 1) / n * n

theorem and_not_mask (x : BitVec 32) (k : Nat) :
    (x &&& ~~~(BitVec.ofNat 32 (2 ^ k - 1))).toNat = x.toNat / 2 ^ k * 2 ^ k := by
  have hx := x.isLt
  have hmask : x &&& ~~~(BitVec.ofNat 32 (2 ^ k - 1)) = x >>> k <<< k := by
    refine BitVec.eq_of_getLsbD_eq fun i hi => ?_
    have hbit : (BitVec.ofNat 32 (2 ^ k - 1)).getLsbD i = decide (i < k) := by
      rw [BitVec.getLsbD_ofNat, Nat.testBit_two_pow_sub_one, decide_eq_true hi, Bool.true_and]
    rw [BitVec.getLsbD_and, BitVec.getLsbD_not, hbit, BitVec.getLsbD_shiftLeft,
      BitVec.getLsbD_ushiftRight]
    by_cases hik : i < k
    · simp [hik]
    · have hki : k + (i - k) = i := by omega
      simp [hi, hik, hki]
  have hle := Nat.div_mul_le_self x.toNat (2 ^ k)
  rw [hmask, BitVec.toNat_shiftLeft, BitVec.toNat_ushiftRight, Nat.shiftRight_eq_div_pow,
    Nat.shiftLeft_eq, Nat.mod_eq_of_lt (by omega)]

theorem alignInt_ok {x y : Int} {k : Nat} (hk : k < 31) (hx : 0 ≤ x)
    (h : alignInt x ((2 ^ k : Nat) : Int) = .ok y) : y = roundUp x ((2 ^ k : Nat) : Int) := by
  have hpow : 2 ^ k < 2147483648 := Nat.pow_lt_pow_right (by omega) hk
  have hpos : 0 < 2 ^ k := Nat.two_pow_pos k
  simp only [alignInt, command_bind_ok, int32_ok] at h
  obtain ⟨-, ⟨-, -, rfl⟩, -, ⟨-, htop, rfl⟩, -, ⟨-, -, rfl⟩, h⟩ := h
  obtain ⟨n, rfl⟩ := Int.eq_ofNat_of_zero_le hx
  have hsum : (n : Int) + ((2 ^ k : Nat) : Int) - 1 = ((n + 2 ^ k - 1 : Nat) : Int) := by omega
  have hmask : ((2 ^ k : Nat) : Int) - 1 = ((2 ^ k - 1 : Nat) : Int) := by omega
  have hand := and_not_mask (BitVec.ofNat 32 (n + 2 ^ k - 1)) k
  have hle := Nat.div_mul_le_self (n + 2 ^ k - 1) (2 ^ k)
  rw [BitVec.toNat_ofNat, Nat.mod_eq_of_lt (by omega)] at hand
  have hy : y = (BitVec.ofNat 32 (n + 2 ^ k - 1) &&& ~~~BitVec.ofNat 32 (2 ^ k - 1)).toInt := by
    rw [hsum, hmask, BitVec.ofInt_natCast, BitVec.ofInt_natCast] at h
    exact (Except.ok.inj h).symm
  rw [hy, BitVec.toInt_eq_toNat_of_lt (by omega), hand, roundUp, hsum]
  push_cast
  rfl

theorem isPow2_small : ∀ n : Fin 129, isPow2 (BitVec.ofNat 32 n.val) = true →
    n.val = 0 ∨ ∃ k : Fin 8, n.val = 2 ^ k.val := by
  decide

/-- The check of `create` for the sectors per cluster, with what else its arithmetic needs. -/
theorem isPow2_int {s : Int} (hp : isPow2 (BitVec.ofInt 32 s) = true) (hle : s ≤ 128)
    (hlow : -2147483648 ≤ s - 1) (hzero : s ≠ 0) : ∃ k, k < 8 ∧ s = ((2 ^ k : Nat) : Int) := by
  by_cases hneg : s < 0
  · exfalso
    have hsub : BitVec.ofInt 32 s - 1 = BitVec.ofInt 32 (s - 1) := by
      rw [Int.sub_eq_add_neg, BitVec.ofInt_add, BitVec.sub_eq_add_neg]
      rfl
    have hmsb : ∀ x : Int, -2147483648 ≤ x → x < 0 → (BitVec.ofInt 32 x).msb = true := by
      intro x hx hx0
      rw [BitVec.msb_eq_toInt, BitVec.toInt_ofInt, decide_eq_true_eq, Int.bmod]
      omega
    have hand : (BitVec.ofInt 32 s &&& BitVec.ofInt 32 (s - 1)).msb = true := by
      rw [BitVec.msb_and, hmsb s (by omega) hneg, hmsb (s - 1) hlow (by omega)]
      rfl
    rw [isPow2, hsub, beq_iff_eq] at hp
    rw [hp] at hand
    exact absurd hand (by decide)
  · obtain ⟨n, rfl⟩ := Int.eq_ofNat_of_zero_le (by omega : 0 ≤ s)
    rw [BitVec.ofInt_natCast] at hp
    rcases isPow2_small ⟨n, by omega⟩ hp with h | ⟨k, hk⟩
    · simp only at h
      omega
    · exact ⟨k.val, k.isLt, congrArg Nat.cast hk⟩

/-! ## The arithmetic of the geometry -/

section Geometry
variable (a : CreateArgs)

/-- The sector count of the disk: a whole number of clusters if sizes are aligned. -/
def totalSectors : Int :=
  if a.aligned then roundUp a.sectorCount a.sectorsPerCluster else a.sectorCount

/-- The sectors of the system area with FATs of `n` sectors. -/
def usedSectors (n : Nat) : Int := a.rootSectorCount + a.reservedSectorCount + n * a.fatCount

/-- The root directory capacity that goes into the block. -/
def storedRootCapacity : Int :=
  if a.aligned then a.rootSectorCount * a.sectorSize / DIR_ENTRY_SIZE else a.rootDirCapacity

/-- The sectors of the system area as the fields of the block hold them: 8 bits for the number of
FATs, 16 for the reserved sectors and the root directory capacity. -/
def storedSectors (n : Nat) : Int :=
  a.reservedSectorCount % 65536 + n * (a.fatCount % 256) +
    (storedRootCapacity a % 65536 * DIR_ENTRY_SIZE + a.sectorSize - 1) / a.sectorSize

/-- The clusters left over with FATs of `n` sectors, the system area rounded up. -/
def roundedClusters (n : Nat) : Int :=
  (totalSectors a - roundUp (usedSectors a n) a.sectorsPerCluster) / a.sectorsPerCluster

/-- The clusters that a FAT of `n` sectors has entries for, at the width their number calls for. -/
def fatRoom (clusters : Int) (n : Nat) : Int :=
  if clusters ≤ MAX_CLUSTERS_12 then n * a.sectorSize / 3 * 2 - CLUSTER_FIRST
  else n * a.sectorSize / 2 - CLUSTER_FIRST

/-- The sectors that the rounding hides: what is left over at the end of the disk, the padding
behind the system area, and what the fields of the block do not hold. -/
def hiddenSectors (n : Nat) : Int :=
  totalSectors a % a.sectorsPerCluster +
    (roundUp (usedSectors a n) a.sectorsPerCluster - usedSectors a n) +
    (usedSectors a n - storedSectors a n)

/-- The clusters that may come on top without a wider entry or a larger FAT. -/
def spareClusters (n : Nat) : Int :=
  if roundedClusters a n ≤ MAX_CLUSTERS_12 then
    min (MAX_CLUSTERS_12 : Int) (fatRoom a (roundedClusters a n) n) - roundedClusters a n
  else fatRoom a (roundedClusters a n) n - roundedClusters a n

/-- The sectors hidden from the sizing make up no more clusters than the smallest sufficient FAT has
to spare. -/
def RoundingHarmless : Prop :=
  ∀ n, IsLeast {n | 1 ≤ n ∧ roundedClusters a n ≤ fatRoom a (roundedClusters a n) n} n →
    hiddenSectors a n / a.sectorsPerCluster ≤ spareClusters a n

end Geometry

/-! ## The loop -/

/-- The capacity in a FAT of `fatSize` bytes at the width that the number of clusters calls for. -/
def roomIn (clusters fatSize : Int) : Int :=
  if clusters ≤ 4084 then fatSize / 3 * 2 - 2 else fatSize / 2 - 2

theorem tooMany_iff {clusters fatCapacity : Int} {maxClusters : Nat} :
    tooMany clusters fatCapacity maxClusters = true ↔
      clusters > maxClusters ∧ fatCapacity > maxClusters := by
  simp [tooMany]

/-- Every way through the decision, as conditions on the numbers. -/
theorem settle_cases {w c f : Int} {r : Option Int} (hw : w = 0 ∨ w = 12 ∨ w = 16)
    (h : settle w c f = .ok r) :
    (c ≤ 4084 ∨ f / 3 * 2 - 2 ≤ 4084 ∨ w ≠ 12) ∧ (c ≤ 65524 ∨ f / 2 - 2 ≤ 65524) ∧
    (r = some 12 ∧ w ≠ 16 ∧ (c ≤ 4084 ∨ f / 3 * 2 - 2 ≤ 4084) ∧ c ≤ f / 3 * 2 - 2 ∧ 1 ≤ c ∨
      (w = 16 ∨ (4084 < c ∧ 4084 < f / 3 * 2 - 2) ∨ f / 3 * 2 - 2 < c) ∧
        (r = some 16 ∧ (w = 0 ∨ w = 16) ∧ c ≤ f / 2 - 2 ∧ (w = 16 → 4085 ≤ c) ∨
          r = none ∧ (w = 12 ∨ f / 2 - 2 < c))) := by
  have hnum : (MAX_CLUSTERS_12 : Int) = 4084 ∧ (MAX_CLUSTERS_16 : Int) = 65524 ∧
      (MIN_CLUSTERS_12 : Int) = 1 ∧ (MIN_CLUSTERS_16 : Int) = 4085 ∧ (CLUSTER_FIRST : Int) = 2 :=
    ⟨rfl, rfl, rfl, rfl, rfl⟩
  rw [settle] at h
  split at h
  · exact nomatch h
  split at h
  · exact nomatch h
  rename_i h12 h16
  rw [tooMany_iff] at h12 h16
  simp only [fatCapacity12, fatCapacity16] at h12 h16
  split at h
  · rename_i hcond
    rw [tooMany_iff] at hcond
    simp only [fatCapacity12] at hcond
    split at h
    · exact nomatch h
    · have hr : r = some 12 := (Except.ok.inj h).symm
      refine ⟨by omega, by omega, Or.inl ⟨hr, by omega, by omega, by omega, by omega⟩⟩
  · rename_i hcond
    rw [tooMany_iff] at hcond
    simp only [fatCapacity12] at hcond
    refine ⟨by omega, by omega, Or.inr ⟨by omega, ?_⟩⟩
    split at h
    · rename_i hwide
      simp only [fatCapacity16] at hwide
      split at h
      · exact nomatch h
      · exact Or.inl ⟨(Except.ok.inj h).symm, by omega, by omega, by omega⟩
    · rename_i hwide
      simp only [fatCapacity16] at hwide
      exact Or.inr ⟨(Except.ok.inj h).symm, by omega⟩

theorem settle_none {w c f : Int} (hw : w = 0 ∨ w = 12 ∨ w = 16) (hc : w = 16 → 4084 < c)
    (h : settle w c f = .ok none) : f < 131054 ∧ roomIn c f < c := by
  have := settle_cases hw h
  simp only [reduceCtorEq, false_and, false_or, true_and] at this
  rw [roomIn]
  split
  · omega
  · omega

/-- A FAT of 256 sectors settles it one way or the other. -/
theorem settle_none_size {w c f : Int} (hw : w = 0 ∨ w = 12 ∨ w = 16)
    (h : settle w c f = .ok none) : f < 131054 := by
  have := settle_cases hw h
  simp only [reduceCtorEq, false_and, false_or, true_and] at this
  omega

theorem settle_some {w c f v : Int} (hw : w = 0 ∨ w = 12 ∨ w = 16) (hf : 512 ≤ f)
    (h : settle w c f = .ok (some v)) :
    (v = 12 ∧ 1 ≤ c ∧ c ≤ 4084 ∨ v = 16 ∧ 4085 ≤ c ∧ c ≤ 65524) ∧ c ≤ roomIn c f := by
  have := settle_cases hw h
  simp only [Option.some.injEq, reduceCtorEq, false_and, or_false] at this
  rw [roomIn]
  split
  · omega
  · omega

theorem sizeFat_ok {g : Sizing} {passes : Nat} {used size fatSize width : Int}
    (h : sizeFat g passes used size = .ok (fatSize, width)) :
    ∃ m : Nat, 1 ≤ m ∧ fatSize = size + m * g.sectorSize ∧
      (∃ c, g.clusters (used + m * g.fatCount) = .ok c ∧
        settle g.fatWidth c fatSize = .ok (some width)) ∧
      ∀ j : Nat, 1 ≤ j → j < m → ∃ c, g.clusters (used + j * g.fatCount) = .ok c ∧
        settle g.fatWidth c (size + j * g.sectorSize) = .ok none := by
  induction passes generalizing used size with
  | zero => exact nomatch h
  | succ passes ih =>
    simp only [sizeFat, command_bind_ok, int32_ok] at h
    obtain ⟨-, ⟨-, -, rfl⟩, -, ⟨-, -, rfl⟩, c, hc, h⟩ := h
    cases hs : settle g.fatWidth c (size + g.sectorSize) with
    | error msg => simp [hs] at h
    | ok decided =>
      cases decided with
      | some w =>
        have hw : size + g.sectorSize = fatSize ∧ w = width := by simpa [hs] using h
        obtain ⟨rfl, rfl⟩ := hw
        exact ⟨1, le_refl 1, by simp, ⟨c, by simpa using hc, hs⟩, fun j h1 hj => by omega⟩
      | none =>
        rw [hs] at h
        obtain ⟨m, hm, hsize, hlast, hbefore⟩ := ih h
        have hstep : ∀ (x y : Int) (j : Nat), x + y + j * y = x + ((j + 1 : Nat) : Int) * y := by
          intro x y j
          push_cast
          ring
        refine ⟨m + 1, by omega, ?_, ?_, ?_⟩
        · rw [hsize, hstep]
        · rwa [hstep] at hlast
        · intro j h1 hj
          rcases Nat.lt_or_eq_of_le h1 with h1 | rfl
          · obtain ⟨i, rfl⟩ : ∃ i, j = i + 1 := ⟨j - 1, by omega⟩
            have hi := hbefore i (by omega) (by omega)
            rwa [hstep, hstep] at hi
          · exact ⟨c, by simpa using hc, by simpa using hs⟩

/-! ## The loop ends -/

def ComesBack {α : Type} (x : Command α) : Prop := x ≠ .error (.halted .diverges)

theorem ComesBack.bind {α β : Type} {x : Command α} {f : α → Command β} (hx : ComesBack x)
    (hf : ∀ r, x = .ok r → ComesBack (f r)) : ComesBack (x >>= f) := by
  cases x with
  | error e => simpa [ComesBack, Bind.bind, Except.bind] using hx
  | ok r => exact hf r rfl

theorem comesBack_ok {α : Type} (r : α) : ComesBack (.ok r : Command α) := by
  simp [ComesBack]

theorem int32_comesBack (x : Int) : ComesBack (int32 x) := by
  rw [int32]
  split
  · exact comesBack_ok x
  · simp [ComesBack]

theorem checkParam_comesBack (c : Bool) (msg : String) : ComesBack (checkParam c msg) := by
  cases c
  · simp [ComesBack, checkParam]
  · exact comesBack_ok ()

theorem alignInt_comesBack (x n : Int) : ComesBack (alignInt x n) :=
  (int32_comesBack _).bind fun _ _ => (int32_comesBack _).bind fun _ _ =>
    (int32_comesBack _).bind fun _ _ => comesBack_ok _

theorem clusters_comesBack (g : Sizing) (used : Int) : ComesBack (g.clusters used) := by
  refine (alignInt_comesBack _ _).bind fun _ _ => (int32_comesBack _).bind fun left _ => ?_
  split
  · simp [ComesBack, throw, throwThe, MonadExceptOf.throw]
  · exact comesBack_ok _

theorem sizeFat_comesBack (g : Sizing) (hsize : 512 ≤ g.sectorSize)
    (hw : g.fatWidth = 0 ∨ g.fatWidth = 12 ∨ g.fatWidth = 16) (passes : Nat) (used size : Int)
    (hlt : size < 131054) (hpasses : 131072 ≤ size + passes * 512) :
    ComesBack (sizeFat g passes used size) := by
  induction passes generalizing used size with
  | zero => omega
  | succ passes ih =>
    refine (int32_comesBack _).bind fun used' _ => (int32_comesBack _).bind fun size' hsize' =>
      (clusters_comesBack g used').bind fun c _ => ?_
    obtain ⟨-, -, rfl⟩ := int32_ok.mp hsize'
    cases hs : settle g.fatWidth c (size + g.sectorSize) with
    | error msg => simp [ComesBack]
    | ok decided =>
      cases decided with
      | some width => exact comesBack_ok _
      | none => exact ih _ _ (settle_none_size hw hs) (by push_cast at hpasses; omega)

/-! ## What an accepted geometry is -/

theorem roundUp_le {x n : Int} (hn : 0 < n) : roundUp x n ≤ x + n - 1 := by
  have := Int.emod_add_mul_ediv (x + n - 1) n
  have := Int.emod_nonneg (x + n - 1) hn.ne'
  rw [roundUp, Int.mul_comm]
  omega

theorem le_roundUp {x n : Int} (hn : 0 < n) : x ≤ roundUp x n := by
  have := Int.emod_add_mul_ediv (x + n - 1) n
  have := Int.emod_lt_of_pos (x + n - 1) hn
  rw [roundUp, Int.mul_comm]
  omega

theorem roundUp_mono {x y n : Int} (hn : 0 < n) (h : x ≤ y) : roundUp x n ≤ roundUp y n :=
  Int.mul_le_mul_of_nonneg_right (Int.ediv_le_ediv hn (by omega)) hn.le

/-- What the parameter checks and the arithmetic let through. -/
structure Accepted (a : CreateArgs) (k : Nat) : Prop where
  k_lt : k < 8
  spc : a.sectorsPerCluster = ((2 ^ k : Nat) : Int)
  size_ge : 512 ≤ a.sectorSize
  size_le : a.sectorSize ≤ 32768
  count_pos : 0 < a.sectorCount
  fats_pos : 1 ≤ a.fatCount
  width : a.fatWidth = 0 ∨ a.fatWidth = 12 ∨ a.fatWidth = 16
  root_pos : 0 < a.rootDirCapacity
  reserved_pos : 1 ≤ a.reservedSectorCount

theorem clusters_divisor {g : Sizing} {used c : Int} (h : g.clusters used = .ok c) :
    -2147483648 ≤ g.sectorsPerCluster - 1 ∧ g.sectorsPerCluster ≠ 0 := by
  simp only [Sizing.clusters, alignInt, command_bind_ok, int32_ok] at h
  obtain ⟨_, ⟨_, _, _, _, _, ⟨hlow, _⟩, _⟩, _, _, h⟩ := h
  refine ⟨hlow, fun hzero => ?_⟩
  simp [hzero, throw, throwThe, MonadExceptOf.throw] at h

theorem clusters_eq {g : Sizing} {used c : Int} {k : Nat} (hk : k < 8)
    (hs : g.sectorsPerCluster = ((2 ^ k : Nat) : Int)) (hused : 0 ≤ used)
    (h : g.clusters used = .ok c) :
    c = (g.sectorCount - roundUp used g.sectorsPerCluster).tdiv g.sectorsPerCluster := by
  have hne := (clusters_divisor h).2
  simp only [Sizing.clusters, command_bind_ok, int32_ok, hne, if_false] at h
  obtain ⟨top, htop, -, ⟨-, -, rfl⟩, h⟩ := h
  rw [hs] at htop
  rw [alignInt_ok (by omega) hused htop, ← hs] at h
  exact (Except.ok.inj h).symm

theorem clusters_bound {g : Sizing} {used c : Int} {k : Nat} (hk : k < 8)
    (hs : g.sectorsPerCluster = ((2 ^ k : Nat) : Int)) (hused : 0 ≤ used)
    (h : g.clusters used = .ok c) : g.sectorCount < 4294967296 := by
  have hpos : 0 < g.sectorsPerCluster := by
    have := Nat.two_pow_pos k
    omega
  simp only [Sizing.clusters, command_bind_ok, int32_ok] at h
  obtain ⟨top, htop, -, ⟨-, hleft, -⟩, -⟩ := h
  have hup : top = roundUp used g.sectorsPerCluster := by
    rw [hs] at htop ⊢
    exact alignInt_ok (by omega) hused htop
  simp only [alignInt, command_bind_ok, int32_ok] at htop
  obtain ⟨-, ⟨-, -, rfl⟩, -, ⟨-, hsum, -⟩, -⟩ := htop
  have := roundUp_le (x := used) hpos
  omega

theorem tdiv_eq_of_pos {x n : Int} (hn : 0 < n) (h : 1 ≤ x.tdiv n) : 0 ≤ x ∧ x.tdiv n = x / n := by
  have hx : 0 ≤ x := by
    by_contra hneg
    have hpos := Int.tdiv_nonneg (a := -x) (b := n) (by omega) hn.le
    rw [Int.neg_tdiv] at hpos
    omega
  exact ⟨hx, Int.tdiv_eq_ediv_of_nonneg hx⟩

theorem checkArgs_ok {a : CreateArgs} {u : Unit} (h : checkArgs a = .ok u)
    (hlow : -2147483648 ≤ a.sectorsPerCluster - 1) (hne : a.sectorsPerCluster ≠ 0) :
    ∃ k, Accepted a k := by
  simp only [checkArgs, command_bind_ok, checkParam_ok] at h
  obtain ⟨_, -, _, hge, _, hle, _, hcount, _, -, _, -, _, hspc, _, hspcle, _, hfats, _, hwidth, _,
    hroot, hres⟩ := h
  obtain ⟨k, hk, hpow⟩ := isPow2_int hspc (of_decide_eq_true hspcle) hlow hne
  exact ⟨k, hk, hpow, of_decide_eq_true hge, of_decide_eq_true hle, of_decide_eq_true hcount,
    of_decide_eq_true hfats, of_decide_eq_true hwidth, of_decide_eq_true hroot,
    of_decide_eq_true hres⟩

section
variable {a : CreateArgs} {k : Nat}

theorem Accepted.spc_pos (h : Accepted a k) : 0 < a.sectorsPerCluster := by
  have := Nat.two_pow_pos k
  rw [h.spc]
  omega

theorem Accepted.spc_le (h : Accepted a k) : a.sectorsPerCluster ≤ 128 := by
  have := Nat.pow_le_pow_right (n := 2) (by omega) (Nat.lt_succ_iff.mp h.k_lt)
  rw [h.spc]
  omega

theorem Accepted.rootSectorCount_nonneg (h : Accepted a k) : 0 ≤ a.rootSectorCount := by
  have hroot := h.root_pos
  have hsize := h.size_ge
  have hentry : (DIR_ENTRY_SIZE : Int) = 32 := rfl
  refine Int.ediv_nonneg ?_ (by omega)
  rw [hentry]
  omega

theorem Accepted.usedSectors_pos (h : Accepted a k) (n : Nat) : 0 < usedSectors a n := by
  have hroot := h.rootSectorCount_nonneg
  have hres := h.reserved_pos
  have hfats := Int.mul_nonneg (Int.natCast_nonneg n) (by have := h.fats_pos; omega :
    0 ≤ a.fatCount)
  rw [usedSectors]
  omega

theorem Accepted.usedSectors_mono (h : Accepted a k) {m n : Nat} (hmn : m ≤ n) :
    usedSectors a m ≤ usedSectors a n := by
  have hmul := Int.mul_le_mul_of_nonneg_right (Int.ofNat_le.mpr hmn) (by
    have := h.fats_pos; omega : 0 ≤ a.fatCount)
  rw [usedSectors, usedSectors]
  omega

theorem Accepted.roundedClusters_anti (h : Accepted a k) {m n : Nat} (hmn : m ≤ n) :
    roundedClusters a n ≤ roundedClusters a m := by
  have hup := roundUp_mono h.spc_pos (h.usedSectors_mono hmn)
  exact Int.ediv_le_ediv h.spc_pos (by omega)

/-- The geometry after alignment, in the terms of the analysis. -/
theorem geometry_ok (h : Accepted a k) {sectorCount rootDirCapacity : Int}
    (hg : a.geometry = .ok (sectorCount, rootDirCapacity)) :
    sectorCount = totalSectors a ∧ rootDirCapacity = storedRootCapacity a := by
  by_cases hal : a.aligned = true
  · simp only [CreateArgs.geometry, hal, if_true, command_bind_ok, int32_ok] at hg
    obtain ⟨count, hcount, size, ⟨-, -, rfl⟩, hg⟩ := hg
    rw [h.spc] at hcount
    have hup := alignInt_ok (by have := h.k_lt; omega) (by have := h.count_pos; omega) hcount
    have hpair := Prod.mk.inj (Except.ok.inj hg)
    rw [totalSectors, storedRootCapacity, if_pos hal, if_pos hal, h.spc, ← hup]
    exact ⟨hpair.1.symm, hpair.2.symm⟩
  · simp only [CreateArgs.geometry, hal] at hg
    have hpair := Prod.mk.inj (Except.ok.inj hg)
    rw [totalSectors, storedRootCapacity, if_neg hal, if_neg hal]
    exact ⟨hpair.1.symm, hpair.2.symm⟩

/-- The geometry that an accepted call ends with: the smallest FAT with room for the rounded
cluster count, and the width that goes with this count. -/
structure Settled (a : CreateArgs) (n : Nat) (width : Int) : Prop where
  least : IsLeast {n | 1 ≤ n ∧ roundedClusters a n ≤ fatRoom a (roundedClusters a n) n} n
  n_le : n ≤ 256
  total_lt : totalSectors a < 4294967296
  fits : roundUp (usedSectors a n) a.sectorsPerCluster ≤ totalSectors a
  clusters : width = 12 ∧ 1 ≤ roundedClusters a n ∧ roundedClusters a n ≤ 4084 ∨
    width = 16 ∧ 4085 ≤ roundedClusters a n ∧ roundedClusters a n ≤ 65524

theorem fatRoom_eq (clusters : Int) (n : Nat) :
    fatRoom a clusters n = roomIn clusters (n * a.sectorSize) := rfl

theorem sizeFat_settled (h : Accepted a k) {passes : Nat} {fatSize width : Int}
    (hs : sizeFat ⟨a.sectorSize, totalSectors a, a.sectorsPerCluster, a.fatCount, a.fatWidth⟩ passes
      (a.rootSectorCount + a.reservedSectorCount) 0 = .ok (fatSize, width)) :
    ∃ n : Nat, fatSize = n * a.sectorSize ∧ Settled a n width := by
  obtain ⟨n, hn, hsize, ⟨c, hc, hsettle⟩, hbefore⟩ := sizeFat_ok hs
  simp only [Int.zero_add] at hsize hbefore
  have hcount : ∀ (m : Nat) (c : Int), Sizing.clusters ⟨a.sectorSize, totalSectors a,
      a.sectorsPerCluster, a.fatCount, a.fatWidth⟩
      (a.rootSectorCount + a.reservedSectorCount + m * a.fatCount) = .ok c →
      c = (totalSectors a - roundUp (usedSectors a m) a.sectorsPerCluster).tdiv
        a.sectorsPerCluster := fun m c hm => clusters_eq h.k_lt h.spc (h.usedSectors_pos m).le hm
  have hbytes : ∀ m : Nat, 1 ≤ m → 512 ≤ (m : Int) * a.sectorSize := by
    intro m hm
    have := Int.mul_le_mul (Int.ofNat_le.mpr hm) h.size_ge (by omega) (by omega)
    omega
  have hc' := hcount n c hc
  obtain ⟨hrange, hroom⟩ := settle_some h.width (by rw [hsize]; exact hbytes n hn) hsettle
  obtain ⟨hnonneg, hrounded⟩ := tdiv_eq_of_pos h.spc_pos (x := totalSectors a -
    roundUp (usedSectors a n) a.sectorsPerCluster) (by rw [← hc']; omega)
  rw [hrounded] at hc'
  have hcr : c = roundedClusters a n := hc'
  subst hcr
  -- a smaller FAT was tried before and had no room
  have hsmall : ∀ m : Nat, 1 ≤ m → m < n →
      (m : Int) * a.sectorSize < 131054 ∧ fatRoom a (roundedClusters a m) m < roundedClusters a m := by
    intro m hm hmn
    obtain ⟨d, hd, hnone⟩ := hbefore m hm hmn
    have hanti := h.roundedClusters_anti hmn.le
    have hup := roundUp_mono h.spc_pos (h.usedSectors_mono hmn.le)
    have hd' : d = roundedClusters a m := by
      rw [hcount m d hd, roundedClusters, Int.tdiv_eq_ediv_of_nonneg (by omega)]
    subst hd'
    refine settle_none h.width (fun hw => ?_) hnone
    have := settle_cases h.width hsettle
    simp only [Option.some.injEq, reduceCtorEq, false_and, or_false] at this
    omega
  have htotal : totalSectors a < 4294967296 :=
    clusters_bound h.k_lt h.spc (h.usedSectors_pos n).le hc
  refine ⟨n, hsize, ⟨⟨⟨hn, ?_⟩, ?_⟩, ?_, htotal, by omega, hrange⟩⟩
  · rw [fatRoom_eq, ← hsize]
    exact hroom
  · rintro m ⟨hm, hmroom⟩
    by_contra hlt
    have := (hsmall m hm (by omega)).2
    omega
  · by_contra hbig
    have hpass := (hsmall (n - 1) (by omega) (by omega)).1
    have := Int.mul_le_mul (by omega : (256 : Int) ≤ ((n - 1 : Nat) : Int)) h.size_ge (by omega)
      (by omega)
    omega

theorem create_settled {bpb : BiosParamBlock} {width : Int} (h : create a = .ok (bpb, width)) :
    ∃ k n, Accepted a k ∧ Settled a n width ∧
      bpb = createBpb a (totalSectors a) (storedRootCapacity a) (n * a.sectorSize) width := by
  simp only [create, command_bind_ok, int32_ok] at h
  obtain ⟨_, hargs, _, ⟨-, -, rfl⟩, ⟨count, capacity⟩, hgeo, ⟨fatSize, w⟩, hsize, hret⟩ := h
  obtain ⟨m, hm, -, ⟨c, hc, -⟩, -⟩ := sizeFat_ok hsize
  obtain ⟨hlow, hne⟩ := clusters_divisor hc
  obtain ⟨k, hk⟩ := checkArgs_ok hargs hlow hne
  obtain ⟨rfl, rfl⟩ := geometry_ok hk hgeo
  obtain ⟨n, rfl, hsettled⟩ := sizeFat_settled hk hsize
  have hpair := Prod.mk.inj (Except.ok.inj hret)
  obtain ⟨hbpb, rfl⟩ := hpair
  exact ⟨k, n, hk, hsettled, hbpb.symm⟩

theorem geometry_comesBack (a : CreateArgs) : ComesBack a.geometry := by
  rw [CreateArgs.geometry]
  split
  · exact (alignInt_comesBack _ _).bind fun _ _ => (int32_comesBack _).bind fun _ _ =>
      comesBack_ok _
  · exact comesBack_ok _

/-- The sizing loop of `create` ends, whatever the options. -/
theorem create_comesBack (a : CreateArgs) : ComesBack (create a) := by
  have hchecks : ComesBack (checkArgs a) := by
    simp only [checkArgs]
    repeat' refine (checkParam_comesBack _ _).bind fun _ _ => ?_
    exact checkParam_comesBack _ _
  refine hchecks.bind fun _ hargs => (int32_comesBack _).bind fun used _ =>
    (geometry_comesBack a).bind fun _ _ => ?_
  simp only [checkArgs, command_bind_ok, checkParam_ok] at hargs
  obtain ⟨_, -, _, hge, _, -, _, -, _, -, _, -, _, -, _, -, _, -, _, hwidth, -⟩ := hargs
  have hsize : (512 : Int) ≤ a.sectorSize := of_decide_eq_true hge
  have hw : a.fatWidth = 0 ∨ a.fatWidth = 12 ∨ a.fatWidth = 16 := of_decide_eq_true hwidth
  exact (sizeFat_comesBack ⟨_, _, _, _, _⟩ hsize hw SIZING_PASSES _ 0 (by omega)
    (by decide)).bind fun _ _ => comesBack_ok _

/-! ## What the block describes -/

theorem ofInt_toNat_of_lt {w : Nat} {x : Int} (h0 : 0 ≤ x) (h : x < ((2 ^ w : Nat) : Int)) :
    ((BitVec.ofInt w x).toNat : Int) = x := by
  rw [BitVec.toNat_ofInt, Int.emod_eq_of_lt h0 h, Int.toNat_of_nonneg h0]

theorem ofInt_toNat_mod {w : Nat} (x : Int) :
    ((BitVec.ofInt w x).toNat : Int) = x % ((2 ^ w : Nat) : Int) := by
  have hpos : ((2 ^ w : Nat) : Int) ≠ 0 := by
    have := Nat.two_pow_pos w
    omega
  rw [BitVec.toNat_ofInt, Int.toNat_of_nonneg (Int.emod_nonneg _ hpos)]

theorem Accepted.storedRoot_le (h : Accepted a k) :
    (storedRootCapacity a % 65536 * DIR_ENTRY_SIZE + a.sectorSize - 1) / a.sectorSize ≤
      a.rootSectorCount := by
  have hsize := h.size_ge
  have hroot := h.root_pos
  have hentry : (DIR_ENTRY_SIZE : Int) = 32 := rfl
  by_cases hal : a.aligned = true
  · have hnonneg := Int.mul_nonneg h.rootSectorCount_nonneg (by omega : 0 ≤ a.sectorSize)
    have hle : storedRootCapacity a % 65536 * DIR_ENTRY_SIZE ≤
        a.rootSectorCount * a.sectorSize := by
      rw [storedRootCapacity, if_pos hal, hentry]
      omega
    have hone : (a.sectorSize - 1) / a.sectorSize = 0 :=
      Int.ediv_eq_zero_of_lt (by omega) (by omega)
    have hdiv := Int.ediv_le_ediv (by omega : 0 < a.sectorSize) (by omega :
      storedRootCapacity a % 65536 * DIR_ENTRY_SIZE + a.sectorSize - 1 ≤
        a.sectorSize - 1 + a.rootSectorCount * a.sectorSize)
    rwa [Int.add_mul_ediv_right _ _ (by omega), hone, Int.zero_add] at hdiv
  · refine Int.ediv_le_ediv (by omega) ?_
    rw [storedRootCapacity, if_neg hal, hentry]
    omega

theorem Accepted.storedSectors_le (h : Accepted a k) (n : Nat) :
    0 ≤ storedSectors a n ∧ storedSectors a n ≤ usedSectors a n := by
  have hroot := h.storedRoot_le
  have hsize := h.size_ge
  have hfats := h.fats_pos
  have hres := h.reserved_pos
  have hentry : (DIR_ENTRY_SIZE : Int) = 32 := rfl
  have hcut := Int.mul_le_mul_of_nonneg_left (by omega : a.fatCount % 256 ≤ a.fatCount)
    (Int.natCast_nonneg n)
  have hnonneg := Int.mul_nonneg (Int.natCast_nonneg n) (by omega : 0 ≤ a.fatCount % 256)
  have hrootNonneg : 0 ≤ (storedRootCapacity a % 65536 * DIR_ENTRY_SIZE + a.sectorSize - 1) /
      a.sectorSize := Int.ediv_nonneg (by rw [hentry]; omega) (by omega)
  rw [storedSectors, usedSectors]
  omega

theorem ceilDiv_cast {x y : Nat} (hy : 0 < y) :
    ((ceilDiv x y : Nat) : Int) = ((x : Int) + y - 1) / y := by
  rw [ceilDiv, Int.natCast_ediv, Int.natCast_sub (by omega)]
  push_cast
  rfl

/-- The block that an accepted geometry ends with. -/
def settledBpb (a : CreateArgs) (n : Nat) (width : Int) : BiosParamBlock :=
  createBpb a (totalSectors a) (storedRootCapacity a) (n * a.sectorSize) width

variable {n : Nat} {width : Int}

theorem settledBpb_sectorSize (h : Accepted a k) (n : Nat) (width : Int) :
    ((settledBpb a n width).sectorSize.toNat : Int) = a.sectorSize :=
  ofInt_toNat_of_lt (by have := h.size_ge; omega) (by have := h.size_le; omega)

theorem settledBpb_sectorsPerCluster (h : Accepted a k) :
    ((settledBpb a n width).sectorsPerCluster.toNat : Int) = a.sectorsPerCluster :=
  ofInt_toNat_of_lt h.spc_pos.le (by have := h.spc_le; omega)

theorem settledBpb_sectorsPerTable (h : Accepted a k) (hs : Settled a n width) :
    (settledBpb a n width).sectorsPerTable.toNat = n := by
  have hdiv : (n : Int) * a.sectorSize / a.sectorSize = n :=
    Int.mul_ediv_cancel _ (by have := h.size_ge; omega)
  have hn := ofInt_toNat_of_lt (w := 16) (Int.natCast_nonneg n) (by have := hs.n_le; omega)
  change (BitVec.ofInt 16 ((n : Int) * a.sectorSize / a.sectorSize)).toNat = n
  rw [hdiv]
  exact Int.ofNat.inj hn

theorem settledBpb_getSectorCount (h : Accepted a k) (hs : Settled a n width) :
    ((settledBpb a n width).getSectorCount : Int) = totalSectors a := by
  have hlt := hs.total_lt
  have hpos : 0 < totalSectors a := by
    have := h.usedSectors_pos n
    have := le_roundUp (x := usedSectors a n) h.spc_pos
    have := hs.fits
    omega
  by_cases hbig : totalSectors a > 65535
  · have hlarge := ofInt_toNat_of_lt (w := 32) hpos.le (by omega)
    have hzero : (settledBpb a n width).sectorCount = 0 := if_pos hbig
    have hfield : (settledBpb a n width).sectorCountLarge = BitVec.ofInt 32 (totalSectors a) :=
      if_pos hbig
    rw [BiosParamBlock.getSectorCount, if_pos hzero, hfield, hlarge]
  · have hsmall := ofInt_toNat_of_lt (w := 16) hpos.le (by omega)
    have hfield : (settledBpb a n width).sectorCount = BitVec.ofInt 16 (totalSectors a) :=
      if_neg hbig
    have hne : (settledBpb a n width).sectorCount ≠ 0 := by
      intro hzero
      rw [← hfield, hzero] at hsmall
      simp only [BitVec.ofNat_eq_ofNat, BitVec.toNat_ofNat, Nat.zero_mod] at hsmall
      omega
    rw [BiosParamBlock.getSectorCount, if_neg hne, hfield, hsmall]

theorem settledBpb_fsDataSectors (h : Accepted a k) (hs : Settled a n width) :
    ((settledBpb a n width).fsDataSectors : Int) = storedSectors a n := by
  have hsize := settledBpb_sectorSize h n width
  have hge := h.size_ge
  have hroot : ((settledBpb a n width).rootSectorCount : Int) =
      (storedRootCapacity a % 65536 * DIR_ENTRY_SIZE + a.sectorSize - 1) / a.sectorSize := by
    rw [BiosParamBlock.rootSectorCount, ceilDiv_cast (by omega), hsize, Int.natCast_mul]
    have hfield : ((settledBpb a n width).rootDirCapacity.toNat : Int) =
      storedRootCapacity a % 65536 := ofInt_toNat_mod (storedRootCapacity a)
    rw [hfield]
  have hres : ((settledBpb a n width).reservedSectorCount.toNat : Int) =
      a.reservedSectorCount % 65536 := ofInt_toNat_mod a.reservedSectorCount
  have hfats : ((settledBpb a n width).tableCount.toNat : Int) = a.fatCount % 256 :=
    ofInt_toNat_mod a.fatCount
  have hsum : (((settledBpb a n width).reservedSectorCount.toNat +
      (settledBpb a n width).sectorsPerTable.toNat * (settledBpb a n width).tableCount.toNat +
      (settledBpb a n width).rootSectorCount : Nat) : Int) = storedSectors a n := by
    rw [storedSectors, Int.natCast_add, Int.natCast_add, Int.natCast_mul, hres,
      settledBpb_sectorsPerTable h hs, hfats, hroot]
  have hstored := h.storedSectors_le n
  have hup := le_roundUp (x := usedSectors a n) h.spc_pos
  have hfits := hs.fits
  have hlt := hs.total_lt
  rw [BiosParamBlock.fsDataSectors, u32_of_lt (by omega), hsum]

/-- The cluster count of the block: the exact one, over the system area as its fields hold it. -/
theorem settledBpb_getClusterCount (h : Accepted a k) (hs : Settled a n width) :
    ((settledBpb a n width).getClusterCount : Int) =
      (totalSectors a - storedSectors a n) / a.sectorsPerCluster := by
  have hcount := settledBpb_getSectorCount h hs
  have hfs := settledBpb_fsDataSectors h hs
  have hstored := h.storedSectors_le n
  have hup := le_roundUp (x := usedSectors a n) h.spc_pos
  have hfits := hs.fits
  have hlt := hs.total_lt
  rw [BiosParamBlock.getClusterCount, u32Sub_of_le (by omega) (by omega), Int.natCast_ediv,
    Int.natCast_sub (by omega), hcount, hfs, settledBpb_sectorsPerCluster h]

/-- Counted exactly, the disk has the clusters of the rounded count and those hidden from it. -/
theorem exact_eq_rounded_add_hidden (h : Accepted a k) (n : Nat) :
    (totalSectors a - storedSectors a n) / a.sectorsPerCluster =
      roundedClusters a n + hiddenSectors a n / a.sectorsPerCluster := by
  have hpos := h.spc_pos
  have hmod : (totalSectors a - roundUp (usedSectors a n) a.sectorsPerCluster) %
      a.sectorsPerCluster = totalSectors a % a.sectorsPerCluster := by
    rw [roundUp, Int.sub_mul_emod_self_right]
  have hdiv := Int.mul_ediv_add_emod (totalSectors a -
    roundUp (usedSectors a n) a.sectorsPerCluster) a.sectorsPerCluster
  rw [hmod] at hdiv
  have hsplit : totalSectors a - storedSectors a n =
      hiddenSectors a n + a.sectorsPerCluster * roundedClusters a n := by
    rw [roundedClusters, hiddenSectors]
    omega
  rw [hsplit, Int.add_mul_ediv_left _ _ hpos.ne', Int.add_comm]

theorem hiddenClusters_nonneg (h : Accepted a k) (n : Nat) :
    0 ≤ hiddenSectors a n / a.sectorsPerCluster := by
  have hpos := h.spc_pos
  have hstored := h.storedSectors_le n
  have hup := le_roundUp (x := usedSectors a n) hpos
  have hmod := Int.emod_nonneg (totalSectors a) hpos.ne'
  refine Int.ediv_nonneg ?_ hpos.le
  rw [hiddenSectors]
  omega

theorem settledBpb_getFatCapacity (h : Accepted a k) (hs : Settled a n width) :
    ((settledBpb a n width).getFatCapacity : Int) =
      if (settledBpb a n width).getClusterCount ≤ 4084 then n * a.sectorSize / 3 * 2 - 2
      else n * a.sectorSize / 2 - 2 := by
  have hsize := settledBpb_sectorSize h n width
  have hn := hs.least.1.1
  have hmul := Int.mul_le_mul (by omega : (1 : Int) ≤ n) h.size_ge (by omega) (by omega)
  have hmul' := Int.mul_le_mul (by have := hs.n_le; omega : (n : Int) ≤ 256) h.size_le (by
    have := h.size_ge; omega) (by omega)
  have hbytes : (((settledBpb a n width).sectorsPerTable.toNat *
      (settledBpb a n width).sectorSize.toNat : Nat) : Int) = n * a.sectorSize := by
    rw [Int.natCast_mul, settledBpb_sectorsPerTable h hs, hsize]
  have hfat12 := (settledBpb a n width).isFat12_iff
  rw [BiosParamBlock.getFatCapacity]
  simp only [CLUSTER_FIRST]
  by_cases hc : (settledBpb a n width).getClusterCount ≤ 4084
  · rw [if_pos (hfat12.mpr hc), if_pos hc, u32Sub_of_le (by omega) (by omega)]
    omega
  · rw [if_neg fun h12 => hc (hfat12.mp h12), if_neg hc, u32Sub_of_le (by omega) (by omega)]
    omega

end

/-- `CreateNew` counts the clusters as `FatDisk` does. -/
theorem createNewFat12_eq_isFat12 (bpb : BiosParamBlock) : createNewFat12 bpb = bpb.isFat12 := by
  have hroot : u32 (bpb.rootDirCapacity.toNat * DIR_ENTRY_SIZE) = _ := u32_of_lt (by
    have := bpb.rootDirCapacity.isLt
    rw [DIR_ENTRY_SIZE]
    omega)
  have hcount : (layout bpb 0).clusters = bpb.getClusterCount := by
    simp only [layout, hroot]
    rfl
  rw [createNewFat12, hcount]
  rfl

def widthOf (fat12 : Bool) : Int := if fat12 then 12 else 16

/-- The FAT has an entry for every cluster of the disk that the block describes, and `CreateNew` and
`FatDisk` see it as wide as `create` settled on. -/
structure FatCovers (bpb : BiosParamBlock) (width : Int) : Prop where
  capacity : bpb.getClusterCount ≤ bpb.getFatCapacity
  formatted : widthOf (createNewFat12 bpb) = width
  opened : widthOf bpb.isFat12 = width

/-- **The FAT that `create` sizes covers the disk** exactly if the rounding of the sizing loop hides
no more clusters than the FAT has to spare. -/
theorem create_fat_covers_iff (a : CreateArgs) (bpb : BiosParamBlock) (width : Int)
    (h : create a = .ok (bpb, width)) : FatCovers bpb width ↔ RoundingHarmless a := by
  obtain ⟨k, n, hk, hs, rfl⟩ := create_settled h
  change FatCovers (settledBpb a n width) width ↔ _
  have hcount := settledBpb_getClusterCount hk hs
  have hcap := settledBpb_getFatCapacity hk hs
  have hhidden := hiddenClusters_nonneg hk n
  have hrange := hs.clusters
  have hroom := hs.least.1.2
  rw [exact_eq_rounded_add_hidden hk] at hcount
  have hharm : RoundingHarmless a ↔
      hiddenSectors a n / a.sectorsPerCluster ≤ spareClusters a n := by
    constructor
    · exact fun hall => hall n hs.least
    · intro hle m hm
      rwa [hm.unique hs.least]
  have hnum : (MAX_CLUSTERS_12 : Int) = 4084 ∧ (CLUSTER_FIRST : Int) = 2 := ⟨rfl, rfl⟩
  have hspare : spareClusters a n = if roundedClusters a n ≤ 4084 then
      min 4084 (n * a.sectorSize / 3 * 2 - 2) - roundedClusters a n
      else n * a.sectorSize / 2 - 2 - roundedClusters a n := by
    rw [spareClusters, fatRoom, hnum.1, hnum.2]
    split
    · rfl
    · rfl
  have hwidth : widthOf (settledBpb a n width).isFat12 = width ↔
      ((settledBpb a n width).getClusterCount ≤ 4084 ↔ roundedClusters a n ≤ 4084) := by
    have hfat12 : (settledBpb a n width).isFat12 = true ↔ _ ≤ 4084 :=
      (settledBpb a n width).isFat12_iff
    rw [← hfat12, widthOf]
    split
    · rename_i h12
      simp only [h12, true_iff]
      omega
    · rename_i h12
      simp only [h12, Bool.false_eq_true, false_iff]
      omega
  have hcovers : FatCovers (settledBpb a n width) width ↔
      (settledBpb a n width).getClusterCount ≤ (settledBpb a n width).getFatCapacity ∧
      widthOf (settledBpb a n width).isFat12 = width :=
    ⟨fun ⟨hc, _, ho⟩ => ⟨hc, ho⟩,
      fun ⟨hc, ho⟩ => ⟨hc, by rw [createNewFat12_eq_isFat12, ho], ho⟩⟩
  rw [hcovers, hharm, hwidth, hspare]
  by_cases hr : roundedClusters a n ≤ 4084
  · rw [if_pos hr]
    by_cases hc : (settledBpb a n width).getClusterCount ≤ 4084
    · rw [if_pos hc] at hcap
      omega
    · rw [if_neg hc] at hcap
      omega
  · have hc : ¬ (settledBpb a n width).getClusterCount ≤ 4084 := by omega
    rw [if_neg hc] at hcap
    rw [if_neg hr]
    omega

theorem default_rounding_harmless : RoundingHarmless { volumeId := 0 } :=
  (create_fat_covers_iff { volumeId := 0 } _ 12 (by rfl)).mp
    ⟨by decide, by decide, by decide⟩

/-- A disk of 681 sectors, two to a cluster, with one FAT and one root directory sector: the loop
counts 338 clusters, which is what one FAT sector holds, and the block describes 339. -/
def oddDisk : CreateArgs where
  volumeId := 0
  sectorCount := 681
  sectorsPerCluster := 2
  fatCount := 1
  rootDirCapacity := 16

theorem oddDisk_outgrows_fat :
    ∃ bpb, create oddDisk = .ok (bpb, 12) ∧ bpb.getClusterCount = 339 ∧ bpb.getFatCapacity = 338 ∧
      ¬ FatCovers bpb 12 := by
  refine ⟨_, rfl, by decide, by decide, fun hcovers => ?_⟩
  exact absurd hcovers.capacity (by decide)

end Ohwes.Fatfs

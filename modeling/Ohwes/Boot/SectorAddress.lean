import Ohwes.Boot.Stage1

/-! # Where `lba2chs` leads the BIOS

The cylinder of a request has ten bits, the sector six and the head eight. What the loader packs
into the registers is the address of the sector exactly where the cylinder fits. -/

namespace Ohwes.Boot
open Library Fatfs
set_option autoImplicit false

/-! ## The division -/

theorem zero_append_toInt (ax : Word) : ((0 : Word) ++ ax).toInt = ax.toNat := by
  have hlt := ax.isLt
  have hnat : ((0 : Word) ++ ax).toNat = ax.toNat := by
    rw [BitVec.toNat_append]
    simp
  rw [BitVec.toInt_eq_toNat_cond, hnat, if_pos (by omega)]

/-- A quotient that fits is that of the numbers. -/
theorem idivw_eq {ax d : Word} (hpos : 0 < d.toNat) (hd : d.toNat < 32768)
    (hq : ax.toNat / d.toNat < 32768) :
    idivw 0 ax d = .ok (BitVec.ofNat 16 (ax.toNat / d.toNat), BitVec.ofNat 16 (ax.toNat % d.toNat)) := by
  have hdiv : d.toInt = d.toNat := by
    rw [BitVec.toInt_eq_toNat_cond, if_pos (by omega)]
  have hne : d ≠ 0 := by
    rintro rfl
    exact absurd hpos (by decide)
  have hquot : ((ax.toNat : Int)).tdiv (d.toNat : Int) = ((ax.toNat / d.toNat : Nat) : Int) :=
    (Int.ofNat_tdiv ax.toNat d.toNat).symm
  have hrem : ((ax.toNat : Int)).tmod (d.toNat : Int) = ((ax.toNat % d.toNat : Nat) : Int) :=
    (Int.ofNat_tmod ax.toNat d.toNat).symm
  have hfits : ∀ q : Nat, q < 32768 → ¬ (d = 0 ∨ (q : Int) < -32768 ∨ 32767 < (q : Int)) := by
    rintro q hq (h | h | h)
    · exact hne h
    · omega
    · omega
  rw [idivw, zero_append_toInt, hdiv]
  simp only [hquot, hrem, if_neg (hfits _ hq), BitVec.ofInt_natCast]

/-! ## The address -/

/-- The block's geometry as a signed division and the registers of the BIOS can take it. -/
structure Addressable (b : BiosParamBlock) (g : DiskGeometry) : Prop where
  heads : b.headCount.toNat = g.heads
  sectors : b.sectorsPerTrack.toNat = g.sectors
  heads_le : g.heads ≤ 256
  sectors_le : g.sectors ≤ 63
  /-- A quotient of a signed division stays below `32768`. -/
  sectors_ge : 2 ≤ g.sectors

section Address
variable {b : BiosParamBlock} {g : DiskGeometry} (h : Addressable b g)
include h

theorem Addressable.product : (b.sectorsPerTrack * b.headCount).toNat = g.heads * g.sectors := by
  have hle := Nat.mul_le_mul h.heads_le h.sectors_le
  rw [BitVec.toNat_mul, h.heads, h.sectors, Nat.mul_comm, Nat.mod_eq_of_lt (by omega)]

/-- The registers hold the address of the block. -/
theorem Addressable.lba2chs_eq (lba : Word) :
    lba2chs b lba = .ok
      ⟨BitVec.ofNat 16 (g.address lba.toNat).cylinder, BitVec.ofNat 8 (g.address lba.toNat).head,
        BitVec.ofNat 8 (g.address lba.toNat).sector⟩ := by
  have hlba := lba.isLt
  have hheads := h.heads_le
  have hheads0 := g.heads_pos
  have hle := h.sectors_le
  have hge := h.sectors_ge
  have hprod := Nat.mul_le_mul h.heads_le h.sectors_le
  have hprod2 : 2 ≤ g.heads * g.sectors := by
    calc 2 ≤ 1 * g.sectors := by omega
      _ ≤ g.heads * g.sectors := Nat.mul_le_mul_right _ hheads0
  have hcyl : lba.toNat / (g.heads * g.sectors) < 32768 :=
    Nat.div_lt_of_lt_mul (by omega)
  have htrack : lba.toNat / g.sectors < 32768 := Nat.div_lt_of_lt_mul (by omega)
  have hcyl' : lba.toNat / (b.sectorsPerTrack * b.headCount).toNat < 32768 := by rwa [h.product]
  have hdiv1 := idivw_eq (by rw [h.product]; omega) (by rw [h.product]; omega) hcyl'
  have htrack' : lba.toNat / b.sectorsPerTrack.toNat < 32768 := by rwa [h.sectors]
  have hdiv2 := idivw_eq (by rw [h.sectors]; omega) (by rw [h.sectors]; omega) htrack'
  have hq : (BitVec.ofNat 16 (lba.toNat / g.sectors)).toNat = lba.toNat / g.sectors := by
    rw [BitVec.toNat_ofNat, Nat.mod_eq_of_lt (by omega)]
  have hhead : lba.toNat / g.sectors / g.heads < 32768 :=
    lt_of_le_of_lt (Nat.div_le_self _ _) htrack
  have hhead' : (BitVec.ofNat 16 (lba.toNat / g.sectors)).toNat / b.headCount.toNat < 32768 := by
    rwa [h.heads, hq]
  have hdiv3 := idivw_eq (by rw [h.heads]; omega) (by rw [h.heads]; omega) hhead'
  rw [h.product] at hdiv1
  rw [h.sectors] at hdiv2
  rw [h.heads, hq] at hdiv3
  simp only [lba2chs, hdiv1, hdiv2, hdiv3, ok_bind]
  refine congrArg Except.ok (Chs.mk.injEq .. ▸ ⟨rfl, ?_, ?_⟩)
  · refine BitVec.eq_of_toNat_eq ?_
    simp [DiskGeometry.address]
  · refine BitVec.eq_of_toNat_eq ?_
    simp [DiskGeometry.address]

end Address

/-! ## The registers -/

section Registers
variable {c : Chs} (hdl : c.dl.toNat < 64)
include hdl

theorem dl_high {i : Nat} (hi : 6 ≤ i) : c.dl.getLsbD i = false := by
  have hle : 2 ^ 6 ≤ 2 ^ i := Nat.pow_le_pow_right (by omega) hi
  exact Nat.testBit_lt_two_pow (by omega)

theorem packAddress_high : (packAddress c).extractLsb' 6 2 = c.cx.extractLsb' 8 2 := by
  refine BitVec.eq_of_getLsbD_eq fun i hi => ?_
  have hdl := dl_high hdl (i := 6 + i) (by omega)
  have h8 : 6 + i < 8 := by omega
  have hwrap : ¬ 6 + i < 8 - 2 % 8 := by omega
  have hback : 6 + i - (8 - 2 % 8) = i := by omega
  have hi8 : i < 8 := by omega
  rw [packAddress, BitVec.getLsbD_extractLsb', BitVec.getLsbD_extractLsb', BitVec.getLsbD_append,
    if_pos h8, BitVec.getLsbD_or, hdl, Bool.or_false, BitVec.getLsbD_rotateRight,
    decide_eq_false hwrap, cond_false, hback, decide_eq_true h8, Bool.true_and,
    BitVec.getLsbD_extractLsb', decide_eq_true hi8, Bool.true_and]

omit hdl in
theorem packAddress_low : (packAddress c).extractLsb' 8 8 = c.cx.extractLsb' 0 8 := by
  refine BitVec.eq_of_getLsbD_eq fun i hi => ?_
  rw [packAddress, BitVec.getLsbD_extractLsb', BitVec.getLsbD_append, if_neg (by omega),
    Nat.add_sub_cancel_left, decide_eq_true hi, Bool.true_and]

/-- The BIOS is asked for the low ten bits of the cylinder. -/
theorem decodeAddress_cylinder (dh : Byte) :
    (decodeAddress (packAddress c) dh).cylinder = c.cx.toNat % 1024 := by
  have hbits : c.cx.extractLsb' 8 2 ++ c.cx.extractLsb' 0 8 = c.cx.extractLsb' 0 10 :=
    BitVec.extractLsb'_append_extractLsb'_eq_extractLsb' rfl
  rw [decodeAddress, packAddress_high hdl, packAddress_low, hbits]
  simp

/-- The bits above the tenth would spoil the sector. -/
theorem decodeAddress_sector (dh : Byte) (hcx : c.cx.toNat < 1024) :
    (decodeAddress (packAddress c) dh).sector = c.dl.toNat := by
  have hclear : ∀ i, 10 ≤ i → c.cx.getLsbD i = false := by
    intro i hi
    have hle : 2 ^ 10 ≤ 2 ^ i := Nat.pow_le_pow_right (by omega) hi
    exact Nat.testBit_lt_two_pow (by omega)
  have hbits : (packAddress c).extractLsb' 0 6 = c.dl.extractLsb' 0 6 := by
    refine BitVec.eq_of_getLsbD_eq fun i hi => ?_
    have h8 : i < 8 := by omega
    have hstay : i < 8 - 2 % 8 := by omega
    rw [packAddress, BitVec.getLsbD_extractLsb', BitVec.getLsbD_extractLsb', Nat.zero_add,
      BitVec.getLsbD_append, if_pos h8, BitVec.getLsbD_or, BitVec.getLsbD_rotateRight,
      decide_eq_true hstay, cond_true, BitVec.getLsbD_extractLsb', hclear _ (by omega),
      Bool.and_false, Bool.false_or]
  have hdl6 : c.dl.toNat % 2 ^ 6 = c.dl.toNat := Nat.mod_eq_of_lt (by omega)
  rw [decodeAddress, hbits, BitVec.extractLsb'_toNat, Nat.shiftRight_zero, hdl6]

end Registers

/-! ## The request -/

section Request
variable {b : BiosParamBlock} {g : DiskGeometry} (h : Addressable b g) (lba : Word)

theorem address_cylinder_lt : (g.address lba.toNat).cylinder < 65536 :=
  lt_of_le_of_lt (Nat.div_le_self _ _) lba.isLt

include h

/-- What `lba2chs` leaves in the registers. -/
theorem Addressable.chs : ∃ c, lba2chs b lba = .ok c ∧ c.cx.toNat = (g.address lba.toNat).cylinder ∧
    c.dh.toNat = (g.address lba.toNat).head ∧ c.dl.toNat = (g.address lba.toNat).sector := by
  have htrack := g.address_onTrack lba.toNat
  have hhead := htrack.head_lt
  have hsector := htrack.sector_le
  have hheads := h.heads_le
  have hsectors := h.sectors_le
  exact ⟨_, h.lba2chs_eq lba, Nat.mod_eq_of_lt (address_cylinder_lt lba), Nat.mod_eq_of_lt (by omega),
    Nat.mod_eq_of_lt (by omega)⟩

/-- The BIOS is asked for the sector itself if its cylinder has ten bits. -/
theorem Addressable.decodeAddress_eq (hcylinder : (g.address lba.toNat).cylinder < 1024) :
    ∃ c, lba2chs b lba = .ok c ∧ decodeAddress (packAddress c) c.dh = g.address lba.toNat := by
  obtain ⟨c, hc, hcx, hdh, hdl⟩ := h.chs lba
  have hsector := (g.address_onTrack lba.toNat).sector_le
  have hsectors := h.sectors_le
  have hsmall : c.dl.toNat < 64 := by omega
  have hmod := decodeAddress_cylinder hsmall c.dh
  have hsect := decodeAddress_sector hsmall c.dh (by omega)
  rw [Nat.mod_eq_of_lt (by omega), hcx] at hmod
  rw [hdl] at hsect
  refine ⟨c, hc, ?_⟩
  generalize g.address lba.toNat = a at *
  cases a
  exact SectorAddress.mk.injEq .. ▸ ⟨hmod, hdh, hsect⟩

/-- **A sector is asked for under its own address exactly where its cylinder has ten bits.** -/
theorem request_iff : ∃ c, lba2chs b lba = .ok c ∧
    (decodeAddress (packAddress c) c.dh = g.address lba.toNat ↔
      lba.toNat < 1024 * (g.heads * g.sectors)) := by
  obtain ⟨c, hc, hcx, -, hdl⟩ := h.chs lba
  have hsector := (g.address_onTrack lba.toNat).sector_le
  have hsectors := h.sectors_le
  have hsmall : c.dl.toNat < 64 := by omega
  have hpos : 0 < g.heads * g.sectors := Nat.mul_pos g.heads_pos g.sectors_pos
  have hcylinder : (g.address lba.toNat).cylinder < 1024 ↔ lba.toNat < 1024 * (g.heads * g.sectors) :=
    Nat.div_lt_iff_lt_mul hpos
  refine ⟨c, hc, ?_⟩
  rw [← hcylinder]
  constructor
  · intro heq
    have hmod := decodeAddress_cylinder hsmall c.dh
    rw [heq, hcx] at hmod
    omega
  · intro hlt
    obtain ⟨c', hc', haddress⟩ := h.decodeAddress_eq lba hlt
    rw [hc] at hc'
    obtain rfl := Except.ok.inj hc'
    exact haddress

end Request

/-! ## The diskette of the boot sector -/

def geometry1440 : DiskGeometry := ⟨2, 18, by decide, by decide⟩

theorem addressable_1440 : Addressable biosParamBlock geometry1440 :=
  ⟨by decide, by decide, by decide, by decide, by decide⟩

theorem request_1440 : ∃ c, lba2chs biosParamBlock 2879 = .ok c ∧
    (decodeAddress (packAddress c) c.dh = geometry1440.address (2879 : Word).toNat ↔
      (2879 : Word).toNat < 1024 * (geometry1440.heads * geometry1440.sectors)) :=
  request_iff addressable_1440 2879

end Ohwes.Boot

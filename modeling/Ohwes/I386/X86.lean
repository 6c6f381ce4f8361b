import Ohwes.Library.Descriptors386
import Ohwes.Kernel.Basic

/-! # `kernel/x86.c`

The functions that build descriptors. Their `int` arguments are words, of which a field takes the low
bits. -/

namespace Ohwes
open Library
set_option autoImplicit false

def DESCTYPE_LDT : BitVec 4 := 0x02
def DESCTYPE_TASK : BitVec 4 := 0x05
def DESCTYPE_TSS32 : BitVec 4 := 0x09
def DESCTYPE_INTR32 : BitVec 4 := 0x0E
def DESCTYPE_TRAP32 : BitVec 4 := 0x0F
def DESCTYPE_DATA_RW : BitVec 4 := 0x02
def DESCTYPE_DATA_RWA : BitVec 4 := 0x03
def DESCTYPE_CODE_XR : BitVec 4 := 0x0A
def DESCTYPE_CODE_XRA : BitVec 4 := 0x0B
def TSS_SIZE : BitVec 32 := 108

def makeLdtDesc (dpl base limit : BitVec 32) : Desc386 :=
  let d := setField (0 : Desc386) 40 DESCTYPE_LDT
  let d := setField d 45 (dpl.setWidth 2)
  let d := setField d 44 (0 : BitVec 1)
  let d := setField d 54 (1 : BitVec 1)
  let d := setField d 16 ((base &&& 0x00FFFFFF).setWidth 24)
  let d := setField d 56 (((base &&& 0xFF000000) >>> 24).setWidth 8)
  let d := setField d 0 ((limit &&& 0x0FFFF).setWidth 16)
  let d := setField d 48 (((limit &&& 0xF0000) >>> 16).setWidth 4)
  let d := setField d 55 (0 : BitVec 1)
  setField d 47 (1 : BitVec 1)

def makeTssDesc (dpl base : BitVec 32) : Desc386 :=
  let d := setField (0 : Desc386) 40 DESCTYPE_TSS32
  let d := setField d 45 (dpl.setWidth 2)
  let d := setField d 16 ((base &&& 0x00FFFFFF).setWidth 24)
  let d := setField d 56 (((base &&& 0xFF000000) >>> 24).setWidth 8)
  let d := setField d 0 (((TSS_SIZE - 1) &&& 0x0FFFF).setWidth 16)
  let d := setField d 48 ((((TSS_SIZE - 1) &&& 0xF0000) >>> 16).setWidth 4)
  let d := setField d 55 (0 : BitVec 1)
  setField d 47 (1 : BitVec 1)

def makeTaskGate (tssSegsel dpl : BitVec 32) : Desc386 :=
  let d := setField (0 : Desc386) 40 DESCTYPE_TASK
  let d := setField d 16 (tssSegsel.setWidth 16)
  let d := setField d 45 (dpl.setWidth 2)
  setField d 47 (1 : BitVec 1)

/-- The gates of handlers differ in their type. -/
def makeGate (type : BitVec 4) (segsel dpl handler : BitVec 32) : Desc386 :=
  let d := setField (0 : Desc386) 40 type
  let d := setField d 16 (segsel.setWidth 16)
  let d := setField d 45 (dpl.setWidth 2)
  let d := setField d 0 ((handler &&& 0xFFFF).setWidth 16)
  let d := setField d 48 ((handler >>> 16).setWidth 16)
  setField d 47 (if handler ≠ 0 then 1 else 0 : BitVec 1)

def makeIntrGate (segsel dpl handler : BitVec 32) : Desc386 :=
  makeGate DESCTYPE_INTR32 segsel dpl handler

def makeTrapGate (segsel dpl handler : BitVec 32) : Desc386 :=
  makeGate DESCTYPE_TRAP32 segsel dpl handler

/-! ## What the processor reads in them -/

/-- An address from its parts. -/
theorem address_parts (a : BitVec 32) :
    (((a &&& 0xFF000000) >>> 24).setWidth 8 ++ (a &&& 0x00FFFFFF).setWidth 24 : BitVec 32) = a := by
  have hhigh : ((a &&& 0xFF000000) >>> 24).setWidth 8 = a.extractLsb' 24 8 := by
    refine BitVec.eq_of_getLsbD_eq fun i hi => ?_
    have hmask : ∀ i < 8, (0xFF000000 : BitVec 32).getLsbD (24 + i) = true := by decide
    rw [BitVec.getLsbD_setWidth, BitVec.getLsbD_ushiftRight, BitVec.getLsbD_and, hmask i hi,
      BitVec.getLsbD_extractLsb', Bool.and_true]
  have hlow : (a &&& 0x00FFFFFF).setWidth 24 = a.extractLsb' 0 24 := by
    refine BitVec.eq_of_getLsbD_eq fun i hi => ?_
    have hmask : ∀ i < 24, (0x00FFFFFF : BitVec 32).getLsbD i = true := by decide
    rw [BitVec.getLsbD_setWidth, BitVec.getLsbD_and, hmask i hi, BitVec.getLsbD_extractLsb', Bool.and_true,
      Nat.zero_add]
  rw [hhigh, hlow]
  exact BitVec.extractLsb'_append_extractLsb'

theorem offset_parts (a : BitVec 32) :
    ((a >>> 16).setWidth 16 ++ (a &&& 0xFFFF).setWidth 16 : BitVec 32) = a := by
  have hhigh : (a >>> 16).setWidth 16 = a.extractLsb' 16 16 := by
    refine BitVec.eq_of_getLsbD_eq fun i hi => ?_
    rw [BitVec.getLsbD_setWidth, BitVec.getLsbD_ushiftRight, BitVec.getLsbD_extractLsb']
  have hlow : (a &&& 0xFFFF).setWidth 16 = a.extractLsb' 0 16 := by
    refine BitVec.eq_of_getLsbD_eq fun i hi => ?_
    have hmask : ∀ i < 16, (0xFFFF : BitVec 32).getLsbD i = true := by decide
    rw [BitVec.getLsbD_setWidth, BitVec.getLsbD_and, hmask i hi, BitVec.getLsbD_extractLsb', Bool.and_true,
      Nat.zero_add]
  rw [hhigh, hlow]
  exact BitVec.extractLsb'_append_extractLsb'

section Gate
variable (type : BitVec 4) (segsel dpl handler : BitVec 32)

/-- The fields of a gate, one by one. -/
theorem makeGate_fields : field (makeGate type segsel dpl handler) 40 4 = type ∧
    field (makeGate type segsel dpl handler) 44 1 = 0 ∧
    field (makeGate type segsel dpl handler) 16 16 = segsel.setWidth 16 ∧
    field (makeGate type segsel dpl handler) 45 2 = dpl.setWidth 2 ∧
    field (makeGate type segsel dpl handler) 0 16 = (handler &&& 0xFFFF).setWidth 16 ∧
    field (makeGate type segsel dpl handler) 48 16 = (handler >>> 16).setWidth 16 ∧
    field (makeGate type segsel dpl handler) 47 1 = if handler ≠ 0 then 1 else 0 := by
  simp (disch := omega) only [makeGate, field_setField, field_setField_apart, field_zero, and_self]

end Gate

section Tss
variable (dpl base : BitVec 32)

theorem makeTssDesc_fields : field (makeTssDesc dpl base) 40 4 = DESCTYPE_TSS32 ∧
    field (makeTssDesc dpl base) 44 1 = 0 ∧ field (makeTssDesc dpl base) 45 2 = dpl.setWidth 2 ∧
    field (makeTssDesc dpl base) 47 1 = 1 ∧ field (makeTssDesc dpl base) 55 1 = 0 ∧
    field (makeTssDesc dpl base) 16 24 = (base &&& 0x00FFFFFF).setWidth 24 ∧
    field (makeTssDesc dpl base) 56 8 = ((base &&& 0xFF000000) >>> 24).setWidth 8 ∧
    field (makeTssDesc dpl base) 0 16 = 107 ∧ field (makeTssDesc dpl base) 48 4 = 0 := by
  have hlimit : ((TSS_SIZE - 1) &&& 0x0FFFF).setWidth 16 = (107 : BitVec 16) := by decide
  have hhigh : (((TSS_SIZE - 1) &&& 0xF0000) >>> 16).setWidth 4 = (0 : BitVec 4) := by decide
  simp (disch := omega) only [makeTssDesc, hlimit, hhigh, field_setField, field_setField_apart,
    field_zero, and_self]

/-- The task is where its descriptor says, and has the size of the structure. -/
theorem makeTssDesc_task : Desc386.available (makeTssDesc dpl base) = true ∧
    Desc386.present (makeTssDesc dpl base) = true ∧ Desc386.base (makeTssDesc dpl base) = base ∧
    Desc386.size (makeTssDesc dpl base) = 107 := by
  obtain ⟨htype, hsystem, -, hpresent, hgranular, hlow, hhigh, hlimit, hlimit'⟩ :=
    makeTssDesc_fields dpl base
  refine ⟨?_, ?_, ?_, ?_⟩
  · rw [Desc386.available, Desc386.memory, Desc386.type, htype, hsystem]
    rfl
  · rw [Desc386.present, hpresent]
    rfl
  · rw [Desc386.base, hhigh, hlow]
    exact address_parts base
  · rw [Desc386.size, Desc386.granular, hgranular, Desc386.limit, hlimit, hlimit']
    rfl

end Tss

theorem makeLdtDesc_local (dpl base limit : BitVec 32) :
    Desc386.memory (makeLdtDesc dpl base limit) = false ∧
    Desc386.type (makeLdtDesc dpl base limit) = DESCTYPE_LDT ∧
    Desc386.present (makeLdtDesc dpl base limit) = true := by
  have hsystem : field (makeLdtDesc dpl base limit) 44 1 = 0 := by
    simp (disch := omega) only [makeLdtDesc, field_setField, field_setField_apart]
  have htype : field (makeLdtDesc dpl base limit) 40 4 = DESCTYPE_LDT := by
    simp (disch := omega) only [makeLdtDesc, field_setField, field_setField_apart]
  have hpresent : field (makeLdtDesc dpl base limit) 47 1 = 1 := by
    simp (disch := omega) only [makeLdtDesc, field_setField]
  rw [Desc386.memory, Desc386.type, Desc386.present, hsystem, htype, hpresent]
  exact ⟨rfl, rfl, rfl⟩

end Ohwes

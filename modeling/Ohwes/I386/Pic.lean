import Ohwes.Kernel.Irq
import Ohwes.Library.Pic8259

/-! # `kernel/pic.c`

The functions that set up the two controllers and their masks. Interrupts are off in each of them.
Acknowledging an interrupt is `picEoi`. -/

namespace Ohwes
open Library
set_option autoImplicit false

def PIC_MASTER_DATA_PORT : BitVec 16 := 0x21
def PIC_SLAVE_DATA_PORT : BitVec 16 := 0xA1
def PIC_MASK_ALL : BitVec 16 := 0xFFFF
/-- `interrupt.h`. -/
def IRQ_BASE_VECTOR : Byte := 0x20

def SLAVE_MASK : Byte := 1 <<< IRQ_SLAVE.toNat
def ICW1 : Byte := 0x11
def ICW2_M : Byte := IRQ_BASE_VECTOR
def ICW2_S : Byte := IRQ_BASE_VECTOR + 8
def ICW3_M : Byte := SLAVE_MASK
def ICW3_S : Byte := IRQ_SLAVE
def ICW4 : Byte := 0x01
def OCW1_MASK_ALL : Byte := 0xFF

/-- Where the ports of the controllers are. -/
def picOutb (p : PicPair) (port : BitVec 16) (data : Byte) : PicPair :=
  if port = PIC_MASTER_CMD_PORT then { p with master := p.master.writeCommand data }
  else if port = PIC_MASTER_DATA_PORT then { p with master := p.master.writeData data }
  else if port = PIC_SLAVE_CMD_PORT then { p with slave := p.slave.writeCommand data }
  else if port = PIC_SLAVE_DATA_PORT then { p with slave := p.slave.writeData data }
  else p

inductive PicNum
  | master
  | slave
  deriving DecidableEq

def picWriteCmd (p : PicPair) : PicNum → Byte → PicPair
  | .master, cmd => picOutb p PIC_MASTER_CMD_PORT cmd
  | .slave, cmd => picOutb p PIC_SLAVE_CMD_PORT cmd

def picWriteData (p : PicPair) : PicNum → Byte → PicPair
  | .master, data => picOutb p PIC_MASTER_DATA_PORT data
  | .slave, data => picOutb p PIC_SLAVE_DATA_PORT data

/-- The mask register is at the data port. -/
def picReadData (p : PicPair) : PicNum → Byte
  | .master => p.master.imr
  | .slave => p.slave.imr

def picNum (irqNum : Byte) : PicNum := if irqNum ≥ 8 then .slave else .master

/-- Write a mask and read it back. -/
def picUpdate (p : PicPair) (pic : PicNum) (ocw1 : Byte) : Call PicPair :=
  let p := picWriteData p pic ocw1
  if ocw1 = picReadData p pic then .ok p else .error .assertion

def picMask (p : PicPair) (irqNum : Byte) : Call PicPair :=
  let mask := (1 : Byte) <<< (irqNum &&& 0x7).toNat
  picUpdate p (picNum irqNum) (picReadData p (picNum irqNum) ||| mask)

def picUnmask (p : PicPair) (irqNum : Byte) : Call PicPair :=
  let mask := (1 : Byte) <<< (irqNum &&& 0x7).toNat
  picUpdate p (picNum irqNum) (picReadData p (picNum irqNum) &&& ~~~ mask)

def picGetmask (p : PicPair) : BitVec 16 := picReadData p .slave ++ picReadData p .master

def picSetmask (p : PicPair) (mask : BitVec 16) : Call PicPair :=
  let p := picWriteData p .master (mask.extractLsb' 0 8)
  let p := picWriteData p .slave (mask.extractLsb' 8 8)
  if mask.extractLsb' 0 8 = picReadData p .master ∧ mask.extractLsb' 8 8 = picReadData p .slave then
    .ok p
  else .error .assertion

def initPic (p : PicPair) : Call PicPair :=
  let p := picWriteCmd p .master ICW1
  let p := picWriteData p .master ICW2_M
  let p := picWriteData p .master ICW3_M
  let p := picWriteData p .master ICW4
  let p := picWriteCmd p .slave ICW1
  let p := picWriteData p .slave ICW2_S
  let p := picWriteData p .slave ICW3_S
  let p := picWriteData p .slave ICW4
  let p := picWriteData p .master (OCW1_MASK_ALL &&& ~~~ SLAVE_MASK)
  let p := picWriteData p .slave OCW1_MASK_ALL
  picSetmask p PIC_MASK_ALL

/-! ## Controllers that are set up -/

/-- What `init_pic` sets up and nothing changes. -/
structure Configured (p : PicPair) : Prop where
  master_todo : p.master.todo = []
  master_vectors : p.master.vectors = ICW2_M
  master_cascade : p.master.cascade = ICW3_M
  master_mode : p.master.mode = ICW4
  slave_todo : p.slave.todo = []
  slave_vectors : p.slave.vectors = ICW2_S
  slave_cascade : p.slave.cascade = ICW3_S
  slave_mode : p.slave.mode = ICW4

/-- The controllers as `init_pic` leaves them. -/
def freshPics : PicPair where
  master := ⟨[], ICW2_M, ICW3_M, ICW4, 0xFF, 0, 0⟩
  slave := ⟨[], ICW2_S, ICW3_S, ICW4, 0xFF, 0, 0⟩

/-- It does not matter what the BIOS has done to them. -/
theorem initPic_eq (p : PicPair) : initPic p = .ok freshPics := rfl

theorem freshPics_configured : Configured freshPics := ⟨rfl, rfl, rfl, rfl, rfl, rfl, rfl, rfl⟩

/-- The pair with another mask in one of the controllers. -/
def withMask (p : PicPair) : PicNum → Byte → PicPair
  | .master, mask => { p with master := { p.master with imr := mask } }
  | .slave, mask => { p with slave := { p.slave with imr := mask } }

section Masks
variable {p : PicPair} (h : Configured p)
include h

theorem Configured.withMask (pic : PicNum) (mask : Byte) : Configured (withMask p pic mask) := by
  obtain ⟨h1, h2, h3, h4, h5, h6, h7, h8⟩ := h
  cases pic
  · exact ⟨h1, h2, h3, h4, h5, h6, h7, h8⟩
  · exact ⟨h1, h2, h3, h4, h5, h6, h7, h8⟩

theorem picWriteData_eq (pic : PicNum) (mask : Byte) :
    picWriteData p pic mask = Ohwes.withMask p pic mask := by
  cases pic with
  | master =>
    change ({ p with master := p.master.writeData mask } : PicPair) = _
    rw [Pic8259.writeData_mask h.master_todo]
    rfl
  | slave =>
    change ({ p with slave := p.slave.writeData mask } : PicPair) = _
    rw [Pic8259.writeData_mask h.slave_todo]
    rfl

omit h in
theorem picReadData_withMask (pic : PicNum) (mask : Byte) :
    picReadData (Ohwes.withMask p pic mask) pic = mask := by
  cases pic
  · rfl
  · rfl

/-- What is read back is what was written. -/
theorem picUpdate_eq (pic : PicNum) (mask : Byte) :
    picUpdate p pic mask = .ok (Ohwes.withMask p pic mask) := by
  rw [picUpdate, picWriteData_eq h]
  rw [picReadData_withMask, if_pos rfl]

theorem picSetmask_eq (mask : BitVec 16) : picSetmask p mask = .ok
    (Ohwes.withMask (Ohwes.withMask p .master (mask.extractLsb' 0 8)) .slave (mask.extractLsb' 8 8)) := by
  rw [picSetmask, picWriteData_eq h]
  rw [picWriteData_eq (h.withMask _ _)]
  exact if_pos ⟨rfl, rfl⟩

end Masks

end Ohwes

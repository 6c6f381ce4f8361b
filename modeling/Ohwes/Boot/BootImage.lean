import Ohwes.Boot.LoadKernel
import Ohwes.Fatfs.PackedStore

/-! # The boot image

`make img` formats a diskette image with `create`, stores the boot sector over its first sector, and
adds each file with `add` and `attr -s`. The machine boots the files that were added. -/

namespace Ohwes.Boot
open Library Fatfs ShortName
set_option autoImplicit false

/-- `dd` of one block of 512 bytes, with `conv=notrunc`. -/
def installBootSector (img : Image) (sector : List Byte) : Image :=
  ⟨overlay img.data 0 sector, img.size⟩

/-! ## The loader as it is assembled

The sections `.stage1` and `.stage2`, linked by `boot.ld`. -/

def bootBin : List Byte :=
  [0xEB, 0x3C, 0x90, 0x57, 0x48, 0x41, 0x4D, 0x21, 0x53, 0x4F, 0x4E, 0x00, 0x02, 0x01, 0x01, 0x00,
    0x02, 0xE0, 0x00, 0x40, 0x0B, 0xF0, 0x09, 0x00, 0x12, 0x00, 0x02, 0x00, 0x00, 0x00, 0x00, 0x00,
    0x00, 0x00, 0x00, 0x00, 0x00, 0x00, 0x29, 0x7E, 0xE7, 0x55, 0xCA, 0x4F, 0x48, 0x2D, 0x57, 0x45,
    0x53, 0x20, 0x20, 0x20, 0x20, 0x20, 0x46, 0x41, 0x54, 0x31, 0x32, 0x20, 0x20, 0x20, 0xEA, 0x43,
    0x7C, 0x00, 0x00, 0x31, 0xC0, 0x8E, 0xD0, 0x8E, 0xD8, 0x8E, 0xC0, 0x8E, 0xE0, 0x66, 0xB8, 0x40,
    0x00, 0x00, 0x00, 0x8E, 0xE8, 0xBD, 0x00, 0x7C, 0x89, 0xEC, 0x8B, 0x0E, 0x11, 0x7C, 0xC1, 0xE1,
    0x05, 0xA1, 0x16, 0x7C, 0xF6, 0x26, 0x10, 0x7C, 0x03, 0x06, 0x0E, 0x7C, 0xA3, 0xA4, 0x7D, 0x49,
    0xC1, 0xE9, 0x09, 0x41, 0x01, 0x0E, 0xA4, 0x7D, 0xBB, 0x00, 0x20, 0xE8, 0x5C, 0x00, 0x8D, 0x36,
    0xA8, 0x7D, 0xE8, 0x09, 0x00, 0xBB, 0x00, 0x7E, 0xE8, 0x32, 0x00, 0xE9, 0x72, 0x01, 0x55, 0x89,
    0xE5, 0x06, 0x8C, 0xD8, 0x8E, 0xC0, 0xBF, 0x00, 0x20, 0x8B, 0x1E, 0x11, 0x7C, 0xFC, 0x56, 0x57,
    0xB9, 0x0B, 0x00, 0xF3, 0xA6, 0x74, 0x0C, 0x5F, 0x5E, 0x83, 0xC7, 0x20, 0x4B, 0x0F, 0x84, 0xEA,
    0x00, 0xEB, 0xEB, 0x8B, 0x7E, 0xFA, 0x8B, 0x46, 0xFE, 0x8E, 0xC0, 0xC9, 0xC3, 0x55, 0x89, 0xE5,
    0x8B, 0x45, 0x1A, 0x83, 0xE8, 0x02, 0x66, 0x8B, 0x4D, 0x1C, 0x66, 0x49, 0x66, 0xC1, 0xE9, 0x09,
    0x41, 0x03, 0x06, 0xA4, 0x7D, 0xE8, 0x02, 0x00, 0xC9, 0xC3, 0x55, 0x89, 0xE5, 0x53, 0x50, 0x51,
    0x6A, 0x03, 0xFF, 0x4E, 0xF8, 0x8B, 0x46, 0xFC, 0xE8, 0x4D, 0x00, 0x86, 0xCD, 0xC0, 0xC9, 0x02,
    0x08, 0xD1, 0x8B, 0x5E, 0xFE, 0x8A, 0x16, 0x24, 0x7C, 0xB0, 0x01, 0xB4, 0x02, 0xCD, 0x13, 0x73,
    0x0A, 0x83, 0x7E, 0xF8, 0x00, 0x0F, 0x84, 0x92, 0x00, 0xEB, 0xD7, 0x8D, 0x36, 0xA6, 0x7D, 0xE8,
    0x4D, 0x00, 0x8B, 0x5E, 0xFE, 0xA1, 0x0B, 0x7C, 0x01, 0x46, 0xFE, 0x39, 0x5E, 0xFE, 0x73, 0x07,
    0x8C, 0xC0, 0x05, 0x00, 0x10, 0x8E, 0xC0, 0xC7, 0x46, 0xF8, 0x03, 0x00, 0xFF, 0x46, 0xFC, 0xFF,
    0x4E, 0xFA, 0x74, 0x02, 0xEB, 0xAC, 0xC9, 0xC3, 0x89, 0xC1, 0x8B, 0x1E, 0x18, 0x7C, 0x0F, 0xAF,
    0x1E, 0x1A, 0x7C, 0x31, 0xD2, 0xF7, 0xFB, 0x50, 0x31, 0xD2, 0x89, 0xC8, 0xF7, 0x3E, 0x18, 0x7C,
    0x42, 0x88, 0xD1, 0x31, 0xD2, 0xF7, 0x3E, 0x1A, 0x7C, 0x88, 0xD6, 0x88, 0xCA, 0x59, 0xC3, 0x31,
    0xC0, 0xB4, 0x0E, 0xBB, 0x07, 0x00, 0xAC, 0xE6, 0xE9, 0x20, 0xC0, 0x74, 0x04, 0xCD, 0x10, 0xEB,
    0xEE, 0xC3, 0xB4, 0x01, 0xCD, 0x16, 0x74, 0x06, 0x30, 0xE4, 0xCD, 0x16, 0xEB, 0xF4, 0x30, 0xE4,
    0xCD, 0x16, 0xC3, 0x8D, 0x36, 0xCB, 0x7D, 0xE8, 0xD5, 0xFF, 0xE8, 0xE5, 0xFF, 0xEB, 0x00, 0x65,
    0xC7, 0x06, 0x72, 0x00, 0x34, 0x12, 0xEA, 0x00, 0x00, 0xFF, 0xFF, 0x8D, 0x36, 0xB4, 0x7D, 0xE8,
    0xBD, 0xFF, 0xEB, 0xDF, 0x00, 0x00, 0x2E, 0x00, 0x42, 0x4F, 0x4F, 0x54, 0x20, 0x20, 0x20, 0x20,
    0x53, 0x59, 0x53, 0x00, 0x0D, 0x0A, 0x44, 0x69, 0x73, 0x6B, 0x65, 0x74, 0x74, 0x65, 0x20, 0x72,
    0x65, 0x61, 0x64, 0x20, 0x65, 0x72, 0x72, 0x6F, 0x72, 0x21, 0x00, 0x0D, 0x0A, 0x50, 0x72, 0x65,
    0x73, 0x73, 0x20, 0x61, 0x6E, 0x79, 0x20, 0x6B, 0x65, 0x79, 0x20, 0x74, 0x6F, 0x20, 0x72, 0x65,
    0x62, 0x6F, 0x6F, 0x74, 0x2E, 0x2E, 0x2E, 0x00, 0xCC, 0xCC, 0xCC, 0xCC, 0xCC, 0xCC, 0xCC, 0xCC,
    0xCC, 0xCC, 0xCC, 0xCC, 0xCC, 0xCC, 0xCC, 0xCC, 0xCC, 0xCC, 0xCC, 0xCC, 0xCC, 0xCC, 0x55, 0xAA]

def bootSys : List Byte :=
  [0x66, 0x31, 0xC0, 0xCD, 0x11, 0xA3, 0xA6, 0x80, 0x65, 0x66, 0x0F, 0xB7, 0x1E, 0x0E, 0x00, 0x66,
    0xC1, 0xE3, 0x04, 0x66, 0x89, 0x1E, 0x8A, 0x80, 0xE8, 0x6B, 0x00, 0xE8, 0x9C, 0x01, 0xE8, 0xE8,
    0x00, 0x8D, 0x36, 0xD8, 0x80, 0xE8, 0x66, 0xFE, 0x66, 0x8B, 0x4D, 0x1C, 0x66, 0x89, 0x0E, 0xA2,
    0x80, 0xE8, 0x1D, 0x02, 0x66, 0xB8, 0x00, 0x0A, 0x00, 0x00, 0x8E, 0xC0, 0x66, 0x31, 0xDB, 0xE8,
    0x7B, 0xFE, 0xFA, 0x0F, 0x01, 0x16, 0xD2, 0x80, 0x0F, 0x20, 0xC0, 0x66, 0x83, 0xC8, 0x01, 0x0F,
    0x22, 0xC0, 0x66, 0xEA, 0x5A, 0x7E, 0x00, 0x00, 0x08, 0x00, 0x66, 0xB8, 0x10, 0x00, 0x8E, 0xD8,
    0x8E, 0xC0, 0x8E, 0xD0, 0xBE, 0x00, 0xA0, 0x00, 0x00, 0xBF, 0x00, 0x00, 0x10, 0x00, 0x8B, 0x0D,
    0xA2, 0x80, 0x00, 0x00, 0xFC, 0xF3, 0xA4, 0x8D, 0x0D, 0x8A, 0x80, 0x00, 0x00, 0xBB, 0x00, 0x00,
    0x10, 0x00, 0x8B, 0x1B, 0xFF, 0xE3, 0x30, 0xFF, 0xB4, 0x03, 0xCD, 0x10, 0x72, 0x71, 0x88, 0x36,
    0x82, 0x80, 0x88, 0x16, 0x86, 0x80, 0xB0, 0x03, 0x0C, 0x80, 0xB4, 0x00, 0xCD, 0x10, 0x72, 0x4B,
    0xB8, 0x01, 0x00, 0x83, 0xF8, 0x01, 0x75, 0x02, 0xEB, 0x0C, 0x83, 0xF8, 0x02, 0x75, 0x02, 0xEB,
    0x05, 0x83, 0xF8, 0x04, 0x75, 0x3F, 0x05, 0x10, 0x11, 0x30, 0xDB, 0xCD, 0x10, 0x72, 0x36, 0x30,
    0xC0, 0xB4, 0x05, 0xCD, 0x10, 0x72, 0x38, 0xB4, 0x0F, 0xCD, 0x10, 0x72, 0x32, 0x24, 0x7F, 0xA2,
    0xAE, 0x80, 0x30, 0xFF, 0xB4, 0x03, 0xCD, 0x10, 0x72, 0x25, 0x31, 0xC0, 0x8A, 0x36, 0x82, 0x80,
    0x8A, 0x16, 0x86, 0x80, 0xB4, 0x02, 0xCD, 0x10, 0x72, 0x15, 0xC3, 0x8D, 0x36, 0xF4, 0x80, 0xE8,
    0x6D, 0xFE, 0xE9, 0x8E, 0xFE, 0x8D, 0x36, 0x08, 0x81, 0xE8, 0x63, 0xFE, 0xE9, 0x84, 0xFE, 0x8D,
    0x36, 0x1C, 0x81, 0xE8, 0x59, 0xFE, 0xE9, 0x7A, 0xFE, 0xE8, 0x1D, 0x00, 0xE8, 0x65, 0x00, 0xE8,
    0x7F, 0x00, 0x66, 0xA1, 0x96, 0x80, 0x66, 0x3D, 0x00, 0x02, 0x00, 0x00, 0x72, 0x01, 0xC3, 0x8D,
    0x36, 0x5C, 0x81, 0xE8, 0x39, 0xFE, 0xE9, 0x5A, 0xFE, 0xF8, 0x66, 0x31, 0xC0, 0x8E, 0xC0, 0xBF,
    0x00, 0x10, 0x66, 0x31, 0xDB, 0x66, 0xB9, 0x18, 0x00, 0x00, 0x00, 0x66, 0xBA, 0x50, 0x41, 0x4D,
    0x53, 0x66, 0xB8, 0x20, 0xE8, 0x00, 0x00, 0xCD, 0x15, 0x72, 0x28, 0x80, 0xFC, 0x80, 0x74, 0x23,
    0x80, 0xFC, 0x86, 0x74, 0x1E, 0x66, 0x85, 0xDB, 0x74, 0x10, 0x83, 0xC7, 0x18, 0x80, 0xF9, 0x14,
    0x74, 0xD3, 0x67, 0xC7, 0x47, 0xFC, 0x00, 0x00, 0xEB, 0xCB, 0x66, 0xC7, 0x06, 0x8E, 0x80, 0x00,
    0x10, 0x00, 0x00, 0xC3, 0x31, 0xC0, 0x31, 0xDB, 0x31, 0xC9, 0x31, 0xD2, 0xB8, 0x01, 0xE8, 0xCD,
    0x15, 0x72, 0x0D, 0xE3, 0x04, 0x89, 0xC8, 0x89, 0xD3, 0xA3, 0x9A, 0x80, 0x89, 0x1E, 0x9E, 0x80,
    0xC3, 0xF8, 0xB4, 0x88, 0xCD, 0x15, 0x72, 0x0D, 0x80, 0xFC, 0x80, 0x74, 0x08, 0x80, 0xFC, 0x86,
    0x74, 0x03, 0xA3, 0x96, 0x80, 0xF8, 0xCD, 0x12, 0x72, 0x06, 0xA3, 0x92, 0x80, 0x74, 0x01, 0xC3,
    0x8D, 0x36, 0xE4, 0x80, 0xE8, 0xA8, 0xFD, 0xE9, 0xC9, 0xFD, 0xE8, 0x25, 0x00, 0x73, 0x18, 0xE8,
    0x3E, 0x00, 0xE8, 0x1D, 0x00, 0x73, 0x10, 0xE8, 0x49, 0x00, 0xE8, 0x15, 0x00, 0x73, 0x08, 0xE8,
    0x50, 0x00, 0xE8, 0x0D, 0x00, 0x72, 0x01, 0xC3, 0x8D, 0x36, 0x38, 0x81, 0xE8, 0x80, 0xFD, 0xE9,
    0xA1, 0xFD, 0x31, 0xC0, 0x8E, 0xC0, 0x48, 0x8E, 0xE0, 0xC1, 0x0E, 0xFE, 0x7D, 0x04, 0x26, 0x8B,
    0x16, 0xFE, 0x7D, 0x64, 0xA1, 0x0E, 0x7E, 0x39, 0xC2, 0x74, 0x03, 0xF8, 0xEB, 0x01, 0xF9, 0xC3,
    0xB8, 0x01, 0x24, 0xCD, 0x15, 0x72, 0x0B, 0x80, 0xFC, 0x86, 0x74, 0x06, 0xC7, 0x06, 0xAA, 0x80,
    0x03, 0x00, 0xC3, 0xE4, 0x92, 0x0C, 0x02, 0x24, 0xFE, 0xE6, 0x92, 0xC7, 0x06, 0xAA, 0x80, 0x02,
    0x00, 0xC3, 0xE8, 0x1E, 0x00, 0xB0, 0xD1, 0xE6, 0x64, 0xE8, 0x0E, 0x00, 0xB0, 0xFF, 0xE6, 0x60,
    0xE8, 0x10, 0x00, 0xC7, 0x06, 0xAA, 0x80, 0x01, 0x00, 0xC3, 0xE4, 0x64, 0xA8, 0x02, 0x74, 0x02,
    0xEB, 0xF8, 0xC3, 0xE8, 0xF4, 0xFF, 0xE4, 0x64, 0xA8, 0x01, 0x74, 0x04, 0xE4, 0x60, 0xEB, 0xF6,
    0xC3, 0x66, 0xB8, 0x00, 0xA0, 0x00, 0x00, 0x66, 0x83, 0x3E, 0x8A, 0x80, 0x00, 0x74, 0x07, 0x66,
    0x8B, 0x1E, 0x8A, 0x80, 0xEB, 0x09, 0x66, 0x8B, 0x1E, 0x92, 0x80, 0x66, 0xC1, 0xE3, 0x0A, 0x66,
    0x29, 0xC3, 0x66, 0x39, 0xCB, 0x7C, 0x01, 0xC3, 0x8D, 0x36, 0x44, 0x81, 0xE8, 0xE0, 0xFC, 0xE9,
    0x01, 0xFD, 0x00, 0x00, 0x00, 0x00, 0x00, 0x00, 0x00, 0x00, 0x00, 0x00, 0x00, 0x00, 0x00, 0x00,
    0x00, 0x00, 0x00, 0x00, 0x00, 0x00, 0x00, 0x00, 0x00, 0x00, 0x00, 0x00, 0x00, 0x00, 0x00, 0x00,
    0x00, 0x00, 0x00, 0x00, 0x00, 0x00, 0x00, 0x00, 0x00, 0x00, 0x00, 0x00, 0x00, 0x00, 0x00, 0x00,
    0x00, 0x00, 0x90, 0x2E, 0x8D, 0xB4, 0x00, 0x00, 0x00, 0x00, 0x00, 0x00, 0x00, 0x00, 0x00, 0x00,
    0xFF, 0xFF, 0x00, 0x00, 0x00, 0x9A, 0xCF, 0x00, 0xFF, 0xFF, 0x00, 0x00, 0x00, 0x92, 0xCF, 0x00,
    0x00, 0x00, 0x17, 0x00, 0xB8, 0x80, 0x00, 0x00, 0x4F, 0x48, 0x57, 0x45, 0x53, 0x20, 0x20, 0x20,
    0x53, 0x59, 0x53, 0x00, 0x0D, 0x0A, 0x4D, 0x65, 0x6D, 0x6F, 0x72, 0x79, 0x20, 0x65, 0x72, 0x72,
    0x6F, 0x72, 0x21, 0x00, 0x0D, 0x0A, 0x49, 0x6E, 0x76, 0x61, 0x6C, 0x69, 0x64, 0x20, 0x56, 0x47,
    0x41, 0x20, 0x6D, 0x6F, 0x64, 0x65, 0x21, 0x00, 0x0D, 0x0A, 0x49, 0x6E, 0x76, 0x61, 0x6C, 0x69,
    0x64, 0x20, 0x56, 0x47, 0x41, 0x20, 0x66, 0x6F, 0x6E, 0x74, 0x21, 0x00, 0x0D, 0x0A, 0x56, 0x47,
    0x41, 0x20, 0x69, 0x6E, 0x69, 0x74, 0x69, 0x61, 0x6C, 0x69, 0x7A, 0x61, 0x74, 0x69, 0x6F, 0x6E,
    0x20, 0x65, 0x72, 0x72, 0x6F, 0x72, 0x21, 0x00, 0x0D, 0x41, 0x32, 0x30, 0x20, 0x65, 0x72, 0x72,
    0x6F, 0x72, 0x21, 0x00, 0x0D, 0x0A, 0x4B, 0x65, 0x72, 0x6E, 0x65, 0x6C, 0x20, 0x69, 0x6D, 0x61,
    0x67, 0x65, 0x20, 0x74, 0x6F, 0x6F, 0x20, 0x62, 0x69, 0x67, 0x21, 0x00, 0x0D, 0x0A, 0x4E, 0x6F,
    0x74, 0x20, 0x65, 0x6E, 0x6F, 0x75, 0x67, 0x68, 0x20, 0x73, 0x79, 0x73, 0x74, 0x65, 0x6D, 0x20,
    0x6D, 0x65, 0x6D, 0x6F, 0x72, 0x79, 0x21, 0x00]

/-- With the addresses that the linker gives to the variables. -/
def assembled : BootCode where
  stage1 := bootBin
  stage2 := bootSys
  firstCluster := 0x7DA4
  tmpCursorRow := 0x8082
  hasBlock := ⟨by decide +kernel, by decide +kernel⟩
  bootId := by decide +kernel
  firstCluster_ge := by decide
  firstCluster_le := by decide
  tmpCursorRow_ge := by decide
  tmpCursorRow_le := by decide +kernel
  zeroed := by decide +kernel
  stage2_le := by decide +kernel

/-! ## The formatted image -/

/-- The parameter block that `create` fills in for 2880 sectors. -/
def createdBlock (volumeId : Int) : BiosParamBlock := createBpb { volumeId := volumeId } 2880 224 4608 12

theorem create_diskette (volumeId : Int) :
    create { volumeId := volumeId } = .ok (createdBlock volumeId, 12) := by
  have hchecks : checkArgs { volumeId := volumeId } = .ok () :=
    (rfl : _ = checkArgs { volumeId := 0 }).trans (by decide +kernel)
  have hused : int32 (CreateArgs.rootSectorCount { volumeId := volumeId } + 1) = .ok 15 :=
    (rfl : _ = int32 (CreateArgs.rootSectorCount { volumeId := 0 } + 1)).trans (by decide +kernel)
  have hgeometry : CreateArgs.geometry { volumeId := volumeId } = .ok (2880, 224) :=
    (rfl : _ = CreateArgs.geometry { volumeId := 0 }).trans (by decide +kernel)
  have hsize : sizeFat ⟨512, 2880, 1, 2, 0⟩ SIZING_PASSES 15 0 = .ok (4608, 12) := by decide +kernel
  simp only [create, hchecks, hused, hgeometry, hsize, bind, Except.bind, pure, Except.pure, createdBlock]

/-! ## The layout

What the parameter blocks of the two programs agree in, in numbers. -/

theorem biosParamBlock_mountable : Mountable biosParamBlock := by
  decide

section Layout
variable (volumeId : Int)

theorem block_fatStart :
    biosParamBlock.reservedSectorCount.toNat * biosParamBlock.sectorSize.toNat = 512 := by
  decide

theorem createdBlock_fatStart :
    (createdBlock volumeId).reservedSectorCount.toNat * (createdBlock volumeId).sectorSize.toNat = 512 :=
  block_fatStart

theorem block_rootStart :
    (biosParamBlock.reservedSectorCount.toNat + biosParamBlock.sectorsPerTable.toNat *
      biosParamBlock.tableCount.toNat) * biosParamBlock.sectorSize.toNat = 9728 := by
  decide

theorem createdBlock_rootStart :
    ((createdBlock volumeId).reservedSectorCount.toNat + (createdBlock volumeId).sectorsPerTable.toNat *
      (createdBlock volumeId).tableCount.toNat) * (createdBlock volumeId).sectorSize.toNat = 9728 :=
  block_rootStart

theorem block_fatBytes : biosParamBlock.fatBytes = 4608 := by
  decide

theorem createdBlock_fatBytes : (createdBlock volumeId).fatBytes = 4608 := block_fatBytes

theorem block_clusterCount : biosParamBlock.getClusterCount = 2847 := by
  decide

theorem createdBlock_clusterCount : (createdBlock volumeId).getClusterCount = 2847 := block_clusterCount

theorem block_fatCapacity : biosParamBlock.getFatCapacity = 3070 := by
  decide

theorem createdBlock_fatCapacity : (createdBlock volumeId).getFatCapacity = 3070 := block_fatCapacity

theorem block_size : biosParamBlock.getSectorCount * biosParamBlock.sectorSize.toNat = 1474560 := by
  decide

theorem createdBlock_size :
    (createdBlock volumeId).getSectorCount * (createdBlock volumeId).sectorSize.toNat = 1474560 :=
  block_size

theorem block_isFat12 : biosParamBlock.isFat12 = true := by
  decide

theorem createdBlock_mountable : Mountable (createdBlock volumeId) := by
  obtain ⟨h1, h2, h3, h4, h5, h6, h7, h8, h9⟩ := biosParamBlock_mountable
  exact ⟨h1, h2, h3, h4, h5, h6, h7, h8, h9⟩

end Layout

section Created
variable {volumeId : Int} {junk : Buffer} {now : Tm} {f : HostFile}
  (hnew : createNew junk now (createdBlock volumeId) 0 = .ok (.ok f))
include hnew

theorem created_fresh : FreshImage (createdBlock volumeId) ⟨f.data, f.size⟩ := by
  refine ⟨?_, ?_, junk, now, f, hnew, rfl⟩
  · rw [createdBlock_clusterCount, createdBlock_fatCapacity]
    decide
  · rw [createdBlock_clusterCount]
    decide

theorem created_size : f.size = 1474560 := by
  have hformattable := (created_fresh hnew).formattable
  obtain ⟨-, -, rfl⟩ := (createNew_ok junk now hformattable 0 f).mp hnew
  have hlen := areas_length junk now hformattable
  rw [createdBlock_size] at hlen
  have hne : (areas junk now (createdBlock volumeId)).flatten ≠ [] := by
    intro hnil
    rw [hnil] at hlen
    exact absurd hlen (by decide)
  rw [startWriter_file, HostFile.write, if_neg hne, hlen]
  exact Nat.max_eq_right (Nat.zero_le _)

variable {sector : List Byte} (hsector : HasBlock sector) (host : Host)
include hsector

omit hnew in
theorem HasBlock.after (img : Image) {a : Nat} (ha : 512 ≤ a) :
    (installBootSector img sector).data a = img.data a := by
  have hlen := hsector.length_eq
  have hend : 0 + sector.length ≤ a := by omega
  exact overlay_after img.data sector hend

omit hnew in
theorem HasBlock.ofBytes_eq (img : Image) :
    BiosParamBlock.ofBytes (installBootSector img sector).data 11 = biosParamBlock := by
  have hlen := hsector.length_eq
  rw [← hsector.block]
  refine BiosParamBlock.ofBytes_congr fun k hk => ?_
  have hin : 11 + k < sector.length := by omega
  have hget := overlay_inside img.data 0 hin
  rw [Nat.zero_add] at hget
  rw [List.getD_eq_getElem?_getD, List.getElem?_eq_getElem hin, Option.getD_some]
  exact hget

theorem installed_open : openDisk host (installBootSector ⟨f.data, f.size⟩ sector) 0 =
    .ok (some (mount host (installBootSector ⟨f.data, f.size⟩ sector) 0 biosParamBlock
      biosParamBlock_mountable)) := by
  have hsize : (installBootSector ⟨f.data, f.size⟩ sector).size = 1474560 := created_size hnew
  refine openDisk_block _ (hsector.ofBytes_eq _) (by omega) ?_
  rw [hsize]
  decide

omit hnew hsector in
theorem mount_block_sound (img : Image) :
    (mount host img 0 biosParamBlock biosParamBlock_mountable).Sound where
  base_zero := rfl
  size_lt := by
    change biosParamBlock.getSectorCount * biosParamBlock.sectorSize.toNat < _
    rw [block_size]
    decide
  capacity := by
    change biosParamBlock.getClusterCount ≤ biosParamBlock.getFatCapacity
    rw [block_clusterCount, block_fatCapacity]
    decide
  limit := by
    change biosParamBlock.getClusterCount ≤ _
    rw [block_clusterCount]
    decide

/-- The FAT is that of the formatted image, -/
theorem installed_getCluster {c : Nat} (hpos : 0 < c) (hc : c ≤ 2848) :
    (mount host (installBootSector ⟨f.data, f.size⟩ sector) 0 biosParamBlock
      biosParamBlock_mountable).getCluster c = if c = 1 then CLUSTER_EOC_12 else CLUSTER_FREE := by
  have hm := createdBlock_mountable volumeId
  have hold := (created_fresh hnew).getCluster_eq host hm hpos
    (by rw [createdBlock_clusterCount]; exact hc)
  have hfat : ∀ i < 4608, (mount host (installBootSector ⟨f.data, f.size⟩ sector) 0 biosParamBlock
      biosParamBlock_mountable).fat i =
      (mount host ⟨f.data, f.size⟩ 0 (createdBlock volumeId) hm).fat i := by
    intro i hi
    have hin : i < biosParamBlock.fatBytes := by rwa [block_fatBytes]
    have hin' : i < (createdBlock volumeId).fatBytes := by rwa [createdBlock_fatBytes]
    rw [← FatDisk.mount_synced host _ _ biosParamBlock_mountable i hin,
      ← FatDisk.mount_synced host _ _ hm i hin']
    change (installBootSector ⟨f.data, f.size⟩ sector).data
      (biosParamBlock.reservedSectorCount.toNat * biosParamBlock.sectorSize.toNat + i) =
        f.data ((createdBlock volumeId).reservedSectorCount.toNat *
          (createdBlock volumeId).sectorSize.toNat + i)
    rw [block_fatStart, createdBlock_fatStart]
    exact hsector.after _ (by omega)
  have hcount : c ≤ biosParamBlock.getClusterCount + 1 := by rwa [block_clusterCount]
  have hcount' : c ≤ (createdBlock volumeId).getClusterCount + 1 := by rwa [createdBlock_clusterCount]
  have hroom : if true then c + c / 2 + 1 < 4608 else 2 * c + 1 < 4608 := by
    rw [if_pos rfl]
    omega
  have h12 : (mount host (installBootSector ⟨f.data, f.size⟩ sector) 0 biosParamBlock
      biosParamBlock_mountable).bpb.isFat12 = true := block_isFat12
  have h12' : (createdBlock volumeId).isFat12 = true := block_isFat12
  have h12'' : (mount host ⟨f.data, f.size⟩ 0 (createdBlock volumeId) hm).bpb.isFat12 = true :=
    block_isFat12
  have hindex : c < 2147483648 := by omega
  have hsame := getCluster_table_congr hfat hindex hroom
  rw [if_pos rfl, if_pos rfl] at hsame
  rw [FatDisk.getCluster_of_le _ hcount', h12'', h12', if_pos rfl, if_pos rfl] at hold
  rw [FatDisk.getCluster_of_le _ hcount, h12, if_pos rfl, hsame, hold]

omit hnew in
/-- and so is the root directory. -/
theorem installed_rootEntry (i : Nat) :
    (mount host (installBootSector ⟨f.data, f.size⟩ sector) 0 biosParamBlock
      biosParamBlock_mountable).rootEntry i =
      (mount host ⟨f.data, f.size⟩ 0 (createdBlock volumeId)
        (createdBlock_mountable volumeId)).rootEntry i := by
  refine entryAt_congr fun a _ _ => ?_
  change (installBootSector ⟨f.data, f.size⟩ sector).data
    ((biosParamBlock.reservedSectorCount.toNat + biosParamBlock.sectorsPerTable.toNat *
      biosParamBlock.tableCount.toNat) * biosParamBlock.sectorSize.toNat + a) =
      f.data (((createdBlock volumeId).reservedSectorCount.toNat +
        (createdBlock volumeId).sectorsPerTable.toNat * (createdBlock volumeId).tableCount.toNat) *
        (createdBlock volumeId).sectorSize.toNat + a)
  rw [block_rootStart, createdBlock_rootStart]
  exact hsector.after _ (by omega)

omit hnew in
/-- Whoever leaves the reserved sectors alone leaves the boot sector. -/
theorem installed_sector {img : Image}
    (hsame : (installBootSector ⟨f.data, f.size⟩ sector).SameReserved biosParamBlock img) :
    slice img.data 0 512 = sector := by
  have hread := slice_overlay f.data 0 sector
  rw [hsector.length_eq] at hread
  rw [← hread]
  refine slice_congr fun a _ ha => hsame a ?_
  rw [block_fatStart]
  omega

/-- **The boot sector leaves an image without a file.** -/
theorem installed_packs :
    (installBootSector ⟨f.data, f.size⟩ sector).Packs biosParamBlock RootStore.empty := by
  intro host
  have hfresh := created_fresh hnew
  have hblank : (mount host (installBootSector ⟨f.data, f.size⟩ sector) 0 biosParamBlock
      biosParamBlock_mountable).Blank := by
    refine ⟨mount_block_sound host _, ?_, fun i hi => ?_, fun c hc => ?_⟩
    · have hisFat12 : (mount host (installBootSector ⟨f.data, f.size⟩ sector) 0 biosParamBlock
          biosParamBlock_mountable).bpb.isFat12 = true := block_isFat12
      rw [FatDisk.getClusterNumberEOC_eq, installed_getCluster hnew hsector host Nat.one_pos (by omega),
        if_pos rfl, FatDisk.EndMark, hisFat12]
      decide
    · rw [installed_rootEntry hsector]
      exact hfresh.root_free host _ rfl hi
    · have hrange := (FatDisk.mem_clusterNumbers _).mp hc
      change 2 ≤ c ∧ c < biosParamBlock.getClusterCount + 2 at hrange
      rw [block_clusterCount] at hrange
      rw [installed_getCluster hnew hsector host (by omega) (by omega), if_neg (by omega)]
  exact ⟨_, _, _, installed_open hnew hsector host, rfl, hblank.packs⟩

end Created

end Ohwes.Boot

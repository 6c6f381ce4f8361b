import Mathlib.Algebra.Order.Group.Nat
import Mathlib.Tactic.Ring

/-! # Cylinders, heads and sectors

A disk of `heads` surfaces with `sectors` sectors to a track numbers its blocks along a track, then
from head to head, then from cylinder to cylinder. Sectors are counted from one. -/

namespace Ohwes.Library
set_option autoImplicit false

structure DiskGeometry where
  heads : Nat
  sectors : Nat
  heads_pos : 0 < heads
  sectors_pos : 0 < sectors

structure SectorAddress where
  cylinder : Nat
  head : Nat
  sector : Nat
  deriving DecidableEq

namespace DiskGeometry
variable (g : DiskGeometry)

/-- The address of a block. -/
def address (block : Nat) : SectorAddress where
  cylinder := block / (g.heads * g.sectors)
  head := block / g.sectors % g.heads
  sector := block % g.sectors + 1

/-- The block at an address. -/
def block (a : SectorAddress) : Nat := (a.cylinder * g.heads + a.head) * g.sectors + (a.sector - 1)

/-- The addresses that the disk has on its tracks. -/
structure OnTrack (a : SectorAddress) : Prop where
  head_lt : a.head < g.heads
  sector_pos : 0 < a.sector
  sector_le : a.sector ≤ g.sectors

instance (a : SectorAddress) : Decidable (g.OnTrack a) :=
  decidable_of_iff (a.head < g.heads ∧ 0 < a.sector ∧ a.sector ≤ g.sectors)
    ⟨fun ⟨h, h', h''⟩ => ⟨h, h', h''⟩, fun ⟨h, h', h''⟩ => ⟨h, h', h''⟩⟩

theorem address_onTrack (block : Nat) : g.OnTrack (g.address block) where
  head_lt := Nat.mod_lt _ g.heads_pos
  sector_pos := Nat.succ_pos _
  sector_le := Nat.mod_lt _ g.sectors_pos

theorem block_address (block : Nat) : g.block (g.address block) = block := by
  have htrack := Nat.div_add_mod' block g.sectors
  have hhead := Nat.div_add_mod' (block / g.sectors) g.heads
  have hcylinder : block / (g.heads * g.sectors) = block / g.sectors / g.heads := by
    rw [Nat.div_div_eq_div_mul, Nat.mul_comm]
  rw [DiskGeometry.block, address, hcylinder]
  dsimp only
  rw [hhead, Nat.add_sub_cancel, htrack]

end DiskGeometry

end Ohwes.Library

import Ohwes.I386.GdbMemory
import Ohwes.I386.Setup

/-! # The debugger in the address space of the kernel

The debugger checks an area with `virt_addr_valid` before it reads or writes it for the host: what it
touches is mapped, in the address space that `ksetup` leaves. -/

namespace Ohwes
open Library
set_option autoImplicit false

/-! ## What goes over the line -/

/-- What a command does but for memory. -/
def besideMem (x : Int × Gdb) : Int × Gdb := (x.1, { x.2 with mem := fun _ => 0 })

theorem recvAck_besideMem (mem : Memory) (cs : List Byte) (g : Gdb) :
    (recvAck cs { g with mem }).map besideMem = (recvAck cs g).map besideMem := by
  induction cs generalizing g with
  | nil => rfl
  | cons c rest ih =>
    rw [recvAck, recvAck]
    by_cases hack : c = ACK
    · rw [if_pos hack, if_pos hack]
      rfl
    rw [if_neg hack, if_neg hack]
    by_cases hnack : c = NACK
    · rw [if_pos hnack, if_pos hnack]
      split
      · next hlong =>
        have hlong : (g.readTo rest).txBuf.length > GDB_MAXLEN - 1 := hlong
        rw [if_pos hlong]
        rfl
      · next hfits =>
        have hfits : ¬ (g.readTo rest).txBuf.length > GDB_MAXLEN - 1 := hfits
        rw [if_neg hfits]
        exact ih (emitPacket (countNack (g.readTo rest)) (g.readTo rest).txBuf)
    · rw [if_neg hnack, if_neg hnack]
      rfl

theorem gdbSendPacket_besideMem (mem : Memory) (g : Gdb) (buf : List Byte) :
    (gdbSendPacket { g with mem } buf).map besideMem = (gdbSendPacket g buf).map besideMem := by
  rw [gdbSendPacket, gdbSendPacket]
  split
  · rfl
  · exact recvAck_besideMem mem _ (emitPacket g buf)

theorem gdbSendPacket_mem {g : Gdb} {buf : List Byte} {x : Int × Gdb} (h : gdbSendPacket g buf = .ok x) :
    x.2.mem = g.mem := by
  rw [gdbSendPacket] at h
  split at h
  · cases h
    rfl
  · have hmem := recvAck_mem h
    exact hmem

/-! ## Commands that keep to what is mapped -/

section Commands
variable (L : PageLabels) (m : Memory386)

/-- The debugger in the kernel's address space. -/
def inKernel (junk : Memory) (g : Gdb) : Gdb :=
  { g with mem := kernelView m L.pageDir junk, pgdir := getPgdir L }

/-- What is not mapped has no part in a command, and stays as it is. -/
def StaysMapped (command : Gdb → Call (Int × Gdb)) : Prop :=
  ∀ g junk, (∀ junk', (command (inKernel L m junk g)).map besideMem =
      (command (inKernel L m junk' g)).map besideMem) ∧
    ∀ x, command (inKernel L m junk g) = .ok x →
      ∀ va, translate386 m L.pageDir va = none → x.2.mem va = junk va

variable {L m}

theorem kernelView_unmapped {cr3 va : Ptr} {junk : Memory} (h : translate386 m cr3 va = none) :
    kernelView m cr3 junk va = junk va := by
  rw [kernelView, h]

theorem StaysMapped.congr {c d : Gdb → Call (Int × Gdb)} (h : StaysMapped L m d)
    (hsame : ∀ g junk, c (inKernel L m junk g) = d (inKernel L m junk g)) : StaysMapped L m c := by
  intro g junk
  rw [hsame g junk]
  exact ⟨fun junk' => by rw [hsame g junk']; exact (h g junk).1 junk', (h g junk).2⟩

theorem staysMapped_eof : StaysMapped L m fun g => .ok (EOF, g) := by
  refine fun g junk => ⟨fun _ => rfl, fun x hx va hva => ?_⟩
  cases hx
  exact kernelView_unmapped hva

/-- An area of mapped bytes may be written first. -/
theorem staysMapped_write (addr : Ptr) {data : List Byte} (hlen : data.length ≤ GDB_MAXLEN / 2)
    (hmapped : ∀ i < data.length, (translate386 m L.pageDir (addr + BitVec.ofNat 32 i)).isSome = true)
    (buf : List Byte) :
    StaysMapped L m fun g => gdbSendPacket { g with mem := writeMem g.mem addr data } buf := by
  refine fun g junk => ⟨fun junk' => ?_, fun x hx va hva => ?_⟩
  · exact (gdbSendPacket_besideMem _ { g with pgdir := getPgdir L } buf).trans
      (gdbSendPacket_besideMem _ { g with pgdir := getPgdir L } buf).symm
  · have hout : ¬ (va - addr).toNat < data.length := by
      intro hin
      have hat : addr + BitVec.ofNat 32 (va - addr).toNat = va := by
        rw [BitVec.ofNat_toNat, BitVec.setWidth_eq, BitVec.add_comm, BitVec.sub_add_cancel]
      have hsome := hmapped _ hin
      rw [hat, hva] at hsome
      exact Bool.noConfusion hsome
    have hmem : x.2.mem = writeMem (kernelView m L.pageDir junk) addr data := gdbSendPacket_mem hx
    rw [hmem, writeMem_overwritten _ addr hlen va, if_neg hout]
    exact kernelView_unmapped hva

theorem staysMapped_send (buf : List Byte) : StaysMapped L m fun g => gdbSendPacket g buf :=
  (staysMapped_write 0 (show ([] : List Byte).length ≤ GDB_MAXLEN / 2 from Nat.zero_le _)
    (fun _ hi => absurd hi (Nat.not_lt_zero _)) buf).congr fun _ _ => rfl

theorem staysMapped_sendEncoded (bufsiz : Nat) (data : List Byte) :
    StaysMapped L m fun g => sendEncoded bufsiz g data := by
  unfold sendEncoded
  cases encodeHex bufsiz data with
  | none => exact staysMapped_eof
  | some hex => exact staysMapped_send hex

theorem readMem_mapped {addr : Ptr} {count : Nat} {junk : Memory}
    (h : ∀ i < count, (translate386 m L.pageDir (addr + BitVec.ofNat 32 i)).isSome = true) (junk' : Memory) :
    readMem (kernelView m L.pageDir junk) addr count =
      readMem (kernelView m L.pageDir junk') addr count := by
  refine List.map_congr_left fun i hi => ?_
  obtain ⟨p, hp⟩ := Option.isSome_iff_exists.mp (h i (List.mem_range.mp hi))
  rw [kernelView, kernelView, hp]

section Tables
variable (htbl : Tabled m L.pageTbl kernelTable) (hdir : Tabled m L.pageDir (kernelDirectory L))
include htbl hdir

theorem valid_inKernel (g : Gdb) (junk : Memory) (va : Ptr) :
    virtAddrValid (inKernel L m junk g).mem (inKernel L m junk g).pgdir va =
      (translate386 m L.pageDir va).isSome := virtAddrValid_tabled L htbl hdir junk va

/-- What passes the check is mapped. -/
theorem checked_mapped {addr count : Ptr} (hcount : ¬ count.toNat > GDB_MAXLEN / 2)
    (hends : ¬ (!(translate386 m L.pageDir addr).isSome ||
      !(translate386 m L.pageDir (addr + count)).isSome) = true) :
    ∀ i < count.toNat, (translate386 m L.pageDir (addr + BitVec.ofNat 32 i)).isSome = true := by
  rw [← Bool.not_and, Bool.not_eq_true', ← Bool.not_eq_true, not_not, Bool.and_eq_true] at hends
  intro i hi
  have hword : BitVec.ofNat 32 count.toNat = count := by rw [BitVec.ofNat_toNat, BitVec.setWidth_eq]
  have hvalid := valid_inKernel htbl hdir (freshGdb []) fun _ => 0
  have hmapped := mapped_of_ends (g := inKernel L m (fun _ => 0) (freshGdb [])) (Nat.not_lt.mp hcount)
    ((hvalid addr).trans hends.1) (by rw [hword]; exact (hvalid _).trans hends.2)
  exact (hvalid _).symm.trans (hmapped i hi)

theorem gdbReadMem_staysMapped (pkt : Pkt) (pktlen : Nat) :
    StaysMapped L m fun g => gdbReadMem g pkt pktlen := by
  unfold gdbReadMem
  dsimp only
  generalize strtol (cString (pkt.chars 1 pktlen)) 16 = addr
  split
  · exact staysMapped_eof
  generalize strtol ((cString (pkt.chars 1 pktlen)).drop (addr.2.getD 0 + 1)) 16 = count
  by_cases hcount : count.1.toNat > GDB_MAXLEN / 2
  · exact staysMapped_eof.congr fun _ _ => if_pos hcount
  by_cases hends : (!(translate386 m L.pageDir addr.1).isSome ||
      !(translate386 m L.pageDir (addr.1 + count.1)).isSome) = true
  · refine (staysMapped_send (errorText GDB_EFAULT)).congr fun g junk => ?_
    rw [if_neg hcount, valid_inKernel htbl hdir, valid_inKernel htbl hdir, if_pos hends,
      gdbSendErrorPacket_eq]
  · have hmapped := checked_mapped htbl hdir hcount hends
    refine (staysMapped_sendEncoded GDB_MAXLEN
      (readMem (kernelView m L.pageDir fun _ => 0) addr.1 count.1.toNat)).congr fun g junk => ?_
    rw [if_neg hcount, valid_inKernel htbl hdir, valid_inKernel htbl hdir, if_neg hends,
      show (inKernel L m junk g).mem = kernelView m L.pageDir junk from rfl,
      readMem_mapped hmapped fun _ => 0]

theorem gdbWriteMem_staysMapped (pkt : Pkt) (pktlen : Nat) :
    StaysMapped L m fun g => gdbWriteMem g pkt pktlen := by
  unfold gdbWriteMem
  dsimp only
  generalize strtol (cString (pkt.chars 1 pktlen)) 16 = addr
  generalize strtol ((cString (pkt.chars 1 pktlen)).drop (addr.2.getD 0 + 1)) 16 = count
  split
  · exact staysMapped_eof
  split
  · exact staysMapped_eof
  by_cases hlong : count.1.toNat > GDB_MAXLEN / 2
  · exact staysMapped_eof.congr fun _ _ => if_pos hlong
  cases hdata : decodeHex (pkt.chars (1 + (addr.2.getD 0 + 1 + count.2.getD 0 + 1))
      (pktlen - (addr.2.getD 0 + 1 + count.2.getD 0 + 1))) count.1.toNat with
  | none => exact staysMapped_eof.congr fun _ _ => if_neg hlong
  | some data =>
    by_cases hends : (!(translate386 m L.pageDir addr.1).isSome ||
        !(translate386 m L.pageDir (addr.1 + count.1)).isSome) = true
    · refine (staysMapped_send (errorText GDB_EFAULT)).congr fun g junk => ?_
      rw [if_neg hlong]
      dsimp only
      rw [valid_inKernel htbl hdir, valid_inKernel htbl hdir, if_pos hends, gdbSendErrorPacket_eq]
    · have hlen : data.length = count.1.toNat := (decodeHex_some hdata).2
      have hmapped := checked_mapped htbl hdir hlong hends
      refine (staysMapped_write addr.1 (by omega) (hlen ▸ hmapped) okText).congr fun g junk => ?_
      rw [if_neg hlong]
      dsimp only
      rw [valid_inKernel htbl hdir, valid_inKernel htbl hdir, if_neg hends]
      rfl

end Tables

/-- **The debugger stays within the kernel's address space.** Whatever the packet holds, reading and
writing memory for the host goes to mapped addresses only. -/
theorem debugger_stays_mapped (L : PageLabels) (m : Memory386) : ∃ m', kernelSpace L m = .ok m' ∧
    ∀ pkt pktlen, StaysMapped L m' (fun g => gdbReadMem g pkt pktlen) ∧
      StaysMapped L m' fun g => gdbWriteMem g pkt pktlen := by
  obtain ⟨m', hm', htbl, hdir⟩ := kernelSpace_tables L m
  exact ⟨m', hm', fun pkt pktlen =>
    ⟨gdbReadMem_staysMapped htbl hdir pkt pktlen, gdbWriteMem_staysMapped htbl hdir pkt pktlen⟩⟩

end Commands

end Ohwes

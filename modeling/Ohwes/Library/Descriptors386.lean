import Ohwes.Library.BitField
import Ohwes.Library.Cpu386

/-! # Descriptor tables of a 32-bit x86 processor

What the processor reads out of its tables when it is interrupted, when it loads the task register and
when a program uses a port. Limits are offsets of last bytes. Local descriptor tables are left out: a
selector of one is refused. -/

namespace Ohwes.Library
set_option autoImplicit false

abbrev Desc386 := BitVec 64

namespace Desc386
variable (d : Desc386)

def type : BitVec 4 := field d 40 4

/-- Of code or data, not of the system. -/
def memory : Bool := field d 44 1 == 1

def dpl : BitVec 2 := field d 45 2

def present : Bool := field d 47 1 == 1

/-! The other fields of a gate, -/

def selector : BitVec 16 := field d 16 16

def offset : BitVec 32 := field d 48 16 ++ field d 0 16

/-! and of a segment. -/

def base : BitVec 32 := field d 56 8 ++ field d 16 24

def limit : BitVec 20 := field d 48 4 ++ field d 0 16

def granular : Bool := field d 55 1 == 1

def code : Bool := memory d && (type d).getLsbD 3

def conforming : Bool := code d && (type d).getLsbD 2

def writable : Bool := memory d && !(type d).getLsbD 3 && (type d).getLsbD 1

/-- The offset of the last byte. -/
def size : Nat := if granular d then (limit d).toNat * 0x1000 + 0xFFF else (limit d).toNat

/-- A task that is not running. -/
def available : Bool := !memory d && (type d == 1 || type d == 9)

def setBusy : Desc386 := setField d 41 (1 : BitVec 1)

/-- A segment that was loaded. -/
def setAccessed : Desc386 := setField d 40 (1 : BitVec 1)

end Desc386

structure DescTable386 where
  limit : Nat
  desc : Nat → Desc386

def DescTable386.get (t : DescTable386) (index : Nat) : Option Desc386 :=
  if 8 * index + 7 ≤ t.limit then some (t.desc index) else none

/-- The index of a selector of the global table. -/
def selectorIndex (s : BitVec 16) : Nat := (field s 3 13).toNat

/-- The descriptor of a selector of the global table. -/
def DescTable386.select (t : DescTable386) (s : BitVec 16) : Option Desc386 :=
  if s.getLsbD 2 then none else t.get (selectorIndex s)

/-- The tables, the descriptor in the task register, and the memory the task is in. -/
structure Tables386 where
  idt : DescTable386
  gdt : DescTable386
  tr : Desc386
  mem : Memory386

/-! ## Interrupts -/

inductive Fault386
  | invalidTss (code : BitVec 16)
  | notPresent (code : BitVec 16)
  | stack (code : BitVec 16)
  | protection (code : BitVec 16)
  deriving DecidableEq

def Fault386.vector : Fault386 → BitVec 8
  | .invalidTss _ => 10
  | .notPresent _ => 11
  | .stack _ => 12
  | .protection _ => 13

def Fault386.code : Fault386 → BitVec 16
  | .invalidTss c | .notPresent c | .stack c | .protection c => c

/-- Where an interrupt leads. -/
inductive Entry386
  | handler (gate : Gate386)
  | task (tss : BitVec 32)

/-- What an interrupt comes from: an instruction, or the processor and its devices. -/
inductive Source386
  | software
  | external
  deriving DecidableEq

def externalBit : Source386 → BitVec 16
  | .software => 0
  | .external => 1

def vectorCode (src : Source386) (vector : BitVec 8) : BitVec 16 :=
  (vector.setWidth 16 <<< 3) ||| 2 ||| externalBit src

def selectorCode (src : Source386) (s : BitVec 16) : BitVec 16 := (s &&& 0xFFFC) ||| externalBit src

section Enter
variable (t : Tables386) (cpl : BitVec 2) (src : Source386)

/-- The stack of level zero in the task. -/
def innerStack : Except Fault386 (BitVec 32 × BitVec 16) :=
  let base := Desc386.base t.tr
  let ss := (readWord t.mem (base + 8)).truncate 16
  if Desc386.size t.tr < 9 then .error (.invalidTss (externalBit src))
  else if ss &&& 0xFFFC = 0 then .error (.invalidTss (externalBit src))
  else
    match t.gdt.select ss with
    | none => .error (.invalidTss (selectorCode src ss))
    | some d =>
      if rpl ss ≠ 0 ∨ Desc386.dpl d ≠ 0 ∨ Desc386.writable d = false then
        .error (.invalidTss (selectorCode src ss))
      else if Desc386.present d = false then .error (.stack (selectorCode src ss))
      else .ok (readWord t.mem (base + 4), ss)

def enterCode (gate : Desc386) (disables : Bool) : Except Fault386 Entry386 :=
  let cs := Desc386.selector gate
  if cs &&& 0xFFFC = 0 then .error (.protection (externalBit src))
  else
    match t.gdt.select cs with
    | none => .error (.protection (selectorCode src cs))
    | some d =>
      if Desc386.code d = false ∨ cpl < Desc386.dpl d then .error (.protection (selectorCode src cs))
      else if Desc386.present d = false then .error (.notPresent (selectorCode src cs))
      else if Desc386.conforming d ∨ Desc386.dpl d = cpl then
        -- no stack is switched: the processor does not look at these two
        .ok (.handler ⟨cs, Desc386.offset gate, disables, readWord t.mem (Desc386.base t.tr + 4),
          (readWord t.mem (Desc386.base t.tr + 8)).truncate 16⟩)
      else (innerStack t src).map fun s => .handler ⟨cs, Desc386.offset gate, disables, s.1, s.2⟩

def enterTask (gate : Desc386) : Except Fault386 Entry386 :=
  let s := Desc386.selector gate
  match t.gdt.select s with
  | none => .error (.protection (selectorCode src s))
  | some d =>
    if Desc386.available d = false then .error (.protection (selectorCode src s))
    else if Desc386.present d = false then .error (.notPresent (selectorCode src s))
    else .ok (.task (Desc386.base d))

def enter (vector : BitVec 8) : Except Fault386 Entry386 :=
  match t.idt.get vector.toNat with
  | none => .error (.protection (vectorCode src vector))
  | some gate =>
    let type := Desc386.type gate
    if Desc386.memory gate ∨ ¬ (type = 5 ∨ type = 14 ∨ type = 15) then
      .error (.protection (vectorCode src vector))
    else if src = .software ∧ Desc386.dpl gate < cpl then
      .error (.protection (vectorCode src vector))
    else if Desc386.present gate = false then .error (.notPresent (vectorCode src vector))
    else if type = 5 then enterTask t src gate
    else enterCode t cpl src gate (type == 14)

/-- How an interrupt ends: at a vector, with the code of the fault that has taken its place, or in a
shutdown. -/
inductive Outcome386
  | entered (vector : BitVec 8) (code : Option (BitVec 16)) (entry : Entry386)
  | shutdown

def DOUBLE_FAULT_VECTOR : BitVec 8 := 8

/-- A fault on the way there becomes a double fault. -/
def contributes (vector : BitVec 8) : Bool := vector = 0 ∨ 10 ≤ vector ∧ vector ≤ 14

def doubleFault : Outcome386 :=
  match enter t cpl .external DOUBLE_FAULT_VECTOR with
  | .ok e => .entered DOUBLE_FAULT_VECTOR (some 0) e
  | .error _ => .shutdown

def interrupt386 (vector : BitVec 8) : Outcome386 :=
  match enter t cpl src vector with
  | .ok e => .entered vector none e
  | .error f =>
    if src = .external ∧ vector = DOUBLE_FAULT_VECTOR then .shutdown
    else if src = .external ∧ contributes vector then doubleFault t cpl
    else
      match enter t cpl .external f.vector with
      | .ok e => .entered f.vector (some f.code) e
      | .error _ => doubleFault t cpl

end Enter

/-! ## The registers of the task and of its table -/

def Tables386.loadTask (t : Tables386) (s : BitVec 16) : Except Fault386 Tables386 :=
  if s &&& 0xFFFC = 0 then .error (.protection 0)
  else
    match t.gdt.select s with
    | none => .error (.protection (selectorCode .software s))
    | some d =>
      if Desc386.available d = false then .error (.protection (selectorCode .software s))
      else if Desc386.present d = false then .error (.notPresent (selectorCode .software s))
      else .ok { t with
        tr := d
        gdt := { t.gdt with
          desc := Function.update t.gdt.desc (selectorIndex s) (Desc386.setBusy d) } }

/-- The register of the local table is checked only. -/
def Tables386.loadLocal (t : Tables386) (s : BitVec 16) : Except Fault386 Unit :=
  if s &&& 0xFFFC = 0 then .ok ()
  else
    match t.gdt.select s with
    | none => .error (.protection (selectorCode .software s))
    | some d =>
      if Desc386.memory d ∨ Desc386.type d ≠ 2 then .error (.protection (selectorCode .software s))
      else if Desc386.present d = false then .error (.notPresent (selectorCode .software s))
      else .ok ()

/-! ## Ports -/

def IO_MAP_BASE : BitVec 32 := 0x66

/-- A byte of a port can be used on a level that the flags do not let use all ports: the bit for it in
the map of the task is clear, and the map goes on for a byte. -/
def portPermitted (t : Tables386) (port : BitVec 16) : Prop :=
  let base := Desc386.base t.tr
  let map := ((readWord t.mem (base + IO_MAP_BASE)).truncate 16 : BitVec 16).toNat
  map + port.toNat / 8 + 1 ≤ Desc386.size t.tr ∧
    (t.mem (base + BitVec.ofNat 32 (map + port.toNat / 8))).getLsbD (port.toNat % 8) = false

instance (t : Tables386) (port : BitVec 16) : Decidable (portPermitted t port) :=
  inferInstanceAs (Decidable (_ ∧ _))

end Ohwes.Library

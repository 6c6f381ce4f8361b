import Ohwes.Kernel.Basic

/-! # `kernel/char/ps2.c`: the PS/2 controller

What the controller and the device behind it will do is a list of their answers, in the order in
which the kernel asks. A poll for input finds a byte or times out; a poll for output finds the
controller ready or times out. An answer that the list does not hold is no byte, and ready. -/

namespace Ohwes
set_option autoImplicit false

structure Ps2 where
  input : List (Option Byte)
  output : List Bool
  deriving DecidableEq, Repr

/-- The polls of a loop that waits for a byte. -/
def Ps2.poll (d : Ps2) : Option Byte × Ps2 := (d.input.head?.join, { d with input := d.input.tail })

/-- The polls of a loop that waits until the controller takes a byte. -/
def Ps2.accepts (d : Ps2) : Bool := d.output.head?.getD true

def Ps2.sent (d : Ps2) : Ps2 := { d with output := d.output.tail }

def PS2_RESP_PASS : Byte := 0x55
def PS2_RESP_P1PASS : Byte := 0x00
def PS2_RESP_P2PASS : Byte := 0x00
def PS2_CFG_P2CLKOFF : Byte := 0x20

/-- `ps2_cmd` and `ps2_write` differ in the port alone. -/
def ps2Write (d : Ps2) : Call Ps2 :=
  if d.accepts then .ok d.sent
  else .error (.panic "timed out waiting for PS/2 controller write! (%d tries)")

def ps2Cmd (d : Ps2) : Call Ps2 := ps2Write d

def ps2Read (d : Ps2) : Call (Byte × Ps2) :=
  match d.poll with
  | (some b, d) => .ok (b, d)
  | (none, _) => .error (.panic "timed out waiting for PS/2 controller read! (%d tries)")

/-- What is waiting is dropped, up to the first poll that finds nothing. -/
def ps2Flush (d : Ps2) : Ps2 := { d with input := (d.input.dropWhile Option.isSome).tail }

/-- The self test of the mouse port, where there is one; the port is left off. -/
def testPort2 (port2 : Bool) (d : Ps2) : Call Ps2 :=
  if !port2 then .ok d
  else do
    let d ← ps2Cmd d
    let (resp, d) ← ps2Read d
    if resp ≠ PS2_RESP_PASS ∧ resp ≠ PS2_RESP_P2PASS then
      .error (.panic "PS/2 controller port 2 self-test failed!")
    else ps2Cmd d

def enablePorts (port2 : Bool) (d : Ps2) : Call Ps2 := do
  let d ← ps2Cmd d
  let d ← ps2Write d
  let d ← ps2Cmd d
  if port2 then ps2Cmd d else .ok d

/-- A second port that has no clock line reads back as switched off. -/
def initPs2 (d : Ps2) : Call Ps2 := do
  let d ← ps2Cmd d
  let d ← ps2Cmd d
  let d ← ps2Cmd (ps2Flush d)
  let d ← ps2Cmd d
  let (cfg, d) ← ps2Read d
  let port2 := cfg &&& PS2_CFG_P2CLKOFF == 0
  let d ← ps2Cmd d
  let (resp, d) ← ps2Read d
  if resp ≠ PS2_RESP_PASS then .error (.panic "PS/2 controller self-test failed!")
  else do
    let d ← ps2Cmd d
    let (resp, d) ← ps2Read d
    if resp ≠ PS2_RESP_PASS ∧ resp ≠ PS2_RESP_P1PASS then
      .error (.panic "PS/2 controller port 1 self-test failed!")
    else do
      let d ← testPort2 port2 d
      let d ← enablePorts port2 d
      .ok (ps2Flush d)

end Ohwes

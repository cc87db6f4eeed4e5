import LabComputers.Proj.Mouse

/-!
# The keyboard controller and the two handlers

The output buffer of the KBC holds one byte.  The keyboard and the mouse place a byte whenever the
buffer is empty, and set or clear AUX for it; a read of port 0x60 clears OBF and leaves AUX as it
was.  A handler makes one port access at a time, and any number of arrivals may fall between two of
its accesses.  `game_loop` calls the handlers one after another, in any order.
-/

namespace LabComputers

open Port

/-- The two devices behind the KBC; also the two interrupt handlers. -/
inductive Device where
  | keyboard
  | mouse
  deriving DecidableEq, Repr

/-- The output buffer and the two status bits.  `source` is not a register: it is the device that
sent the byte in the buffer. -/
structure Kbc where
  obf : Bool
  aux : Bool
  data : UInt8
  source : Device
  deriving DecidableEq

namespace Kbc

/-- The status register; the other six bits are arbitrary. -/
def status (kbc : Kbc) (noise : UInt8) : UInt8 :=
  (noise &&& 0xDE) ||| (if kbc.obf then kbcOutBufFull else 0) |||
    (if kbc.aux then mouseCheck else 0)

/-- What a port access returns; all accesses succeed. -/
def reply (kbc : Kbc) (noise : UInt8) : Op → Reply
  | .inb port =>
    ⟨0, (if port = kbcStatReg then kbc.status noise
      else if port = kbcOutBuf then kbc.data else noise).toUInt32⟩
  | .outb _ _ => ⟨0, 0⟩

/-- A device places a byte in the buffer. -/
def place (source : Device) (byte : UInt8) : Kbc := ⟨true, source = .mouse, byte, source⟩

end Kbc

/-- The controller, the state of the program, the handler that is running with the rest of its
program, and which handler consumed whose bytes, the latest first. -/
structure Machine where
  kbc : Kbc
  game : Globals
  running : Option (Device × Prog Globals)
  consumed : List (Device × Device)

/-- What can happen next. -/
inductive Action where
  | arrive (source : Device) (byte : UInt8)
  | call (handler : Device)
  | advance (noise : UInt8)
  deriving DecidableEq

/-- The handler of a device. -/
def handler : Device → Globals → Prog Globals
  | .keyboard => kbcIh
  | .mouse => mouseIh

namespace Machine

/-- The running handler makes its next port access. -/
def access (m : Machine) (h : Device) (op : Op) (k : Reply → Prog Globals) (noise : UInt8) : Machine :=
  { m with
    running := some (h, k (m.kbc.reply noise op))
    kbc := if op = .inb kbcOutBuf then { m.kbc with obf := false } else m.kbc
    consumed :=
      if op = .inb kbcOutBuf ∧ m.kbc.obf = true then (h, m.kbc.source) :: m.consumed
      else m.consumed }

/-- One step; an action that is not possible leaves the machine as it is. -/
def step (m : Machine) : Action → Machine
  | .arrive source byte => if m.kbc.obf then m else { m with kbc := .place source byte }
  | .call h =>
    match m.running with
    | none => { m with running := some (h, handler h m.game) }
    | some _ => m
  | .advance noise =>
    match m.running with
    | none => m
    | some (_, .ret g) => { m with running := none, game := g }
    | some (h, .io op k) => m.access h op k noise

end Machine

end LabComputers

import LabComputers.Lab3.CommandByte

/-!
# The i8042

An abstract keyboard controller with a mouse behind it, as `i8042.h` and `ps2.h` describe their commands.
The controller takes each byte that is written to it, but may go on to show its input buffer as full for
some reads of the status, and a byte reaches its output buffer after some reads of the status.  How many
they are is arbitrary, and so are the answers of the mouse and the bits of the status that the
functions here do not test.
-/

namespace LabComputers

open Port

/-- The mouse: the bytes that it was sent, its answers to the commands to come, each with the number
of status reads that it takes to arrive, and whether it reports its data. -/
structure Ps2Mouse where
  received : List UInt8
  answers : ℕ → ℕ × UInt8
  reporting : Bool

/-- The mouse is sent a byte.  It carries out a command if it acknowledges it. -/
def Ps2Mouse.take (byte : UInt8) (m : Ps2Mouse) : Ps2Mouse where
  received := m.received ++ [byte]
  answers k := m.answers (k + 1)
  reporting :=
    if (m.answers 0).2 ≠ ackByte then m.reporting
    else if byte = dataReport.toUInt8 then true
    else if byte = disable.toUInt8 then false
    else m.reporting

/-- What the next byte on port `0x60` is for, when it is not for the keyboard. -/
inductive Parameter where
  | commandByte
  | mouseCommand
  deriving DecidableEq

/-- The controller: its command byte with the status reads that it takes to arrive, the parameter that
it waits for, the reads that will show the input buffer as full now and after each of the writes to come,
the output buffer with the byte that was read last and the bytes that are on their way, the bytes sent
to the keyboard, and the mouse. -/
structure I8042 where
  commandByte : UInt8
  lag : ℕ
  awaits : Option Parameter
  full : ℕ
  delays : ℕ → ℕ
  output : Option UInt8
  last : UInt8
  coming : List (ℕ × UInt8)
  keyboard : List UInt8
  mouse : Ps2Mouse
  noise : ℕ → UInt8

namespace I8042

/-- The status register. -/
def status (c : I8042) : UInt8 :=
  (c.noise 0 &&& 0xFC) ||| (if c.output.isSome then kbcOutBufFull else 0) |||
    (if c.full ≠ 0 then kbcInBufFull else 0)

/-- The first of the bytes on their way comes nearer, and into the output buffer if that is empty. -/
def arrive : Option UInt8 → List (ℕ × UInt8) → Option UInt8 × List (ℕ × UInt8)
  | none, (0, byte) :: coming => (some byte, coming)
  | none, (n + 1, byte) :: coming => (none, (n, byte) :: coming)
  | output, coming => (output, coming)

/-- The controller after a read of the status. -/
def wait (c : I8042) : I8042 :=
  { c with
    full := c.full - 1
    output := (arrive c.output c.coming).1
    coming := (arrive c.output c.coming).2
    noise := fun k => c.noise (k + 1) }

/-- A byte is written, and the input buffer is full for a while. -/
def fill (c : I8042) : I8042 := { c with full := c.delays 0, delays := fun k => c.delays (k + 1) }

/-- A command is written to port `0x64`.  The command byte is the next one in the output buffer: at
once, if it takes no time and nothing is there. -/
def command (c : I8042) (val : UInt32) : I8042 :=
  if val = kbcReadCmdByte then
    if c.output = none ∧ c.lag = 0 then { c.fill with awaits := none, output := some c.commandByte }
    else { c.fill with awaits := none, coming := (c.lag - 1, c.commandByte) :: c.coming }
  else if val = kbcWriteCmdByte then { c.fill with awaits := some .commandByte }
  else if val = wrMouse then { c.fill with awaits := some .mouseCommand }
  else { c.fill with awaits := none }

/-- A byte is written to port `0x60`. -/
def data (c : I8042) (byte : UInt8) : I8042 :=
  match c.awaits with
  | none => { c.fill with keyboard := c.keyboard ++ [byte] }
  | some .commandByte => { c.fill with awaits := none, commandByte := byte }
  | some .mouseCommand =>
    { c.fill with
      awaits := none
      mouse := c.mouse.take byte
      coming := c.coming ++ [c.mouse.answers 0] }

/-- The output buffer is read; an empty one gives the last byte again. -/
def read (c : I8042) : UInt8 := c.output.getD c.last

/-- What the controller answers to an access, and the controller after it. -/
def answer (c : I8042) : Op → Reply × I8042
  | .inb port =>
    if port = kbcStatReg then (⟨0, c.status.toUInt32⟩, c.wait)
    else if port = kbcOutBuf then (⟨0, c.read.toUInt32⟩, { c with output := none, last := c.read })
    else (⟨0, 0⟩, c)
  | .outb port val =>
    if port = kbcStatReg then (⟨0, 0⟩, c.command val)
    else if port = kbcOutBuf then (⟨0, 0⟩, c.data val.toUInt8)
    else (⟨0, 0⟩, c)

end I8042

end LabComputers

import LabComputers.Lab3.Keyboard
import LabComputers.Proj.MouseCommand

/-!
# The command byte of the KBC

`read_command_byte`, `write_command_byte` and `enable_interrupts`, which lab 3 and the project share
but for the counter of lab 3: `inputFull` is the poll of the status register and `tick` counts the
read of the command byte.  The loops run on fuel and give `none` when it runs out, as those of
`mouse.c` do.
-/

namespace LabComputers

open Port

def kbcReadCmdByte : UInt32 := 0x20
def kbcWriteCmdByte : UInt32 := 0x60
def kbcCommandEnableInterrupts : UInt8 := 0x01

namespace CommandByte

variable {σ : Type} (inputFull : σ → Prog (Bool × σ)) (tick : σ → σ)

/-- The loop of `read_command_byte`. -/
def readLoop : ℕ → ℕ → σ → Prog (Option σ)
  | 0, _, _ => return none
  | fuel + 1, counterCycles, g =>
    if counterCycles < 100000 then do
      let (full, g) ← inputFull g
      if !full then do
        sysOutb kbcStatReg kbcReadCmdByte
        -- `counterCycles++` stands here, just before the `break`
        return some g
      else readLoop fuel counterCycles g
    else return some g

/-- The loop of `write_command_byte`. -/
def writeLoop : ℕ → ℕ → σ → Prog (Option σ)
  | 0, _, _ => return none
  | fuel + 1, counterCycles, g =>
    if counterCycles < 100000 then do
      let counterCycles := counterCycles + 1
      let (full, g) ← inputFull g
      if !full then do
        sysOutb kbcStatReg kbcWriteCmdByte
        return some g
      else writeLoop fuel counterCycles g
    else return some g

/-- `read_command_byte` -/
def readCommandByte (fuel : ℕ) (g : σ) : Prog (Option (UInt8 × σ)) := do
  match ← readLoop inputFull fuel 0 g with
  | none => return none
  | some g => do
    let (_, comm) ← utilSysInb kbcOutBuf
    return some (comm, tick g)

/-- `write_command_byte` -/
def writeCommandByte (commandByte : UInt8) (fuel : ℕ) (g : σ) : Prog (Option σ) := do
  match ← writeLoop inputFull fuel 0 g with
  | none => return none
  | some g => do
    sysOutb kbcOutBuf commandByte.toUInt32
    return some g

/-- `enable_interrupts` -/
def enableInterrupts (fuel : ℕ) (g : σ) : Prog (Option σ) := do
  match ← readCommandByte inputFull tick fuel g with
  | none => return none
  | some (commandByte, g) =>
    writeCommandByte inputFull (commandByte ||| kbcCommandEnableInterrupts) fuel g

end CommandByte

/-- `kbc_intput_buf_full` of lab 3 -/
def Lab3.kbcIntputBufFull (g : Lab3.Globals) : Prog (Bool × Lab3.Globals) := do
  let (_, statusReg) ← Lab3.utilSysInb Lab3.kbcStatReg
  return (if statusReg &&& kbcInBufFull ≠ 0 then true else false, g.countSysIn)

/-- `enable_interrupts` of lab 3 -/
def Lab3.enableInterrupts : ℕ → Lab3.Globals → Prog (Option Lab3.Globals) :=
  CommandByte.enableInterrupts Lab3.kbcIntputBufFull Lab3.Globals.countSysIn

/-- `kbc_input_buf_full` of the project, which has no counter. -/
def pollInput (u : Unit) : Prog (Bool × Unit) := do
  let full ← kbcInputBufFull
  return (full, u)

/-- `enable_interrupts` of the project -/
def enableInterrupts : ℕ → Unit → Prog (Option Unit) := CommandByte.enableInterrupts pollInput id

end LabComputers

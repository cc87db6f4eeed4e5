import LabComputers.Proj.Keyboard

/-!
# The mouse set-up commands of `mouse.c`

`_mouse_enable_data_reporting_` and `mouse_disable_data_reporting` as port programs.  The three loops
that send a command until it is not answered by NACK differ in the command only (`sendMouseCommand`).
The loops without a bound run on fuel and give `none` when it runs out, so that the runs for all
amounts of fuel are the beginnings of the run of the source.  Each call of `read_ACK_byte` finds an
arbitrary byte in its uninitialised `ack_byte`; `acks` are these bytes.
-/

namespace LabComputers

open Port

def kbcInBufFull : UInt8 := 0x02
def ackByte : UInt8 := 0xFA
def nackByte : UInt8 := 0xFE
def errorByte : UInt8 := 0xFC
def wrMouse : UInt32 := 0xD4
def streamMode : UInt32 := 0xEA
def dataReport : UInt32 := 0xF4
def disable : UInt32 := 0xF5

/-- `sys_outb`; its result is ignored everywhere. -/
def sysOutb (port : ℕ) (val : UInt32) : Prog Unit := .io (.outb port val) fun _ => .ret ()

/-- `kbc_input_buf_full` -/
def kbcInputBufFull : Prog Bool := do
  let (_, statusReg) ← utilSysInb kbcStatReg
  return if statusReg &&& kbcInBufFull ≠ 0 then true else false

/-- `read_ACK_byte`, with `ack` in `ack_byte`. -/
def readAckByte : ℕ → UInt8 → Prog (Option ℤ)
  | 0, _ => return none
  | fuel + 1, ack => do
    let (res, stat) ← utilSysInb kbcStatReg
    if res ≠ 0 then return some (-1)
    else do
      let ack ← if stat &&& kbcOutBufFull ≠ 0 then kbcReadOutputBuffer else pure ack
      if ack = ackByte then return some 0
      else if ack = errorByte then return some (-1)
      else if ack = nackByte then return some 1
      else readAckByte fuel ack

/-- The loop `while (counterCycles < 10)`, with `n` cycles left. -/
def selectMouse : ℕ → Prog Unit
  | 0 => return ()
  | n + 1 => do
    let full ← kbcInputBufFull
    if full then selectMouse n else sysOutb kbcStatReg wrMouse

/-- The loop `while (try_again)` around a command, for at most `n` rounds. -/
def sendMouseCommand (cmd : UInt32) (fuel : ℕ) : ℕ → (ℕ → UInt8) → Prog (Option ℤ)
  | 0, _ => return none
  | n + 1, acks => do
    selectMouse 10
    sysOutb kbcOutBuf cmd
    let r ← readAckByte fuel (acks 0)
    if r = some 1 then sendMouseCommand cmd fuel n fun k => acks (k + 1) else return r

/-- `_mouse_enable_data_reporting_`; `acks` and `acks'` belong to its two loops. -/
def mouseEnableDataReporting (fuel : ℕ) (acks acks' : ℕ → UInt8) : Prog (Option ℤ) := do
  let r ← sendMouseCommand streamMode fuel fuel acks
  if r = none then return none
  else if r = some (-1) then return some 1
  else do
    let r ← sendMouseCommand dataReport fuel fuel acks'
    if r = none then return none else return some 0

/-- `mouse_disable_data_reporting`; the parameter `mode` is not used. -/
def mouseDisableDataReporting (_mode : ℤ) (fuel : ℕ) (acks : ℕ → UInt8) : Prog (Option ℤ) :=
  sendMouseCommand disable fuel fuel acks

end LabComputers

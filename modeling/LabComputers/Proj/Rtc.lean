import LabComputers.Proj.GameLoop
import LabComputers.Proj.MouseCommand

/-!
# `rtc.c`

The functions of `rtc.c` as port programs over its global variables, and the real-time clock that
answers their accesses.  The loop of `wait_valid_rtc` runs on fuel and gives `none` when it runs out.
`rtc_ih` of `GameLoop` is given the registers that `read_time` finds; here it reads them.
-/

namespace LabComputers.Rtc

open Port

/-! ## `rtc_macros.h` -/

def rtcAddrReg : ℕ := 0x70
def rtcDataReg : ℕ := 0x71

def seconds : UInt8 := 0x00
def minutes : UInt8 := 0x02
def hours : UInt8 := 0x04
def dateOfTheMonth : UInt8 := 0x07
def month : UInt8 := 0x08
def year : UInt8 := 0x09
def registerA : UInt8 := 0x0A
def registerB : UInt8 := 0x0B

def rtcUIP : UInt8 := 0x80
def disINT : UInt8 := 0x8F
def enINT : UInt8 := 0x70
def set24 : UInt8 := 0x02
def setBCD : UInt8 := 0xFB

/-! ## Registers A and B -/

/-- The global variables of `rtc.c`. -/
structure Variables where
  regA : UInt8
  regB : UInt8
  gRtcSeconds : UInt8
  gRtcMinutes : UInt8
  gRtcHours : UInt8
  gRtcDay : UInt8
  gRtcMonth : UInt8
  gRtcYear : UInt8
  deriving DecidableEq, Repr

/-- The two calls that read a register. -/
def readRegister (register : UInt8) : Prog UInt8 := do
  sysOutb rtcAddrReg register.toUInt32
  let (_, value) ← utilSysInb rtcDataReg
  return value

/-- `read_reg_B` -/
def readRegB (v : Variables) : Prog Variables := do
  let regB1 ← readRegister registerB
  return { v with regB := regB1 }

/-- `write_reg_B` -/
def writeRegB (v : Variables) : Prog Unit := do
  sysOutb rtcAddrReg registerB.toUInt32
  sysOutb rtcDataReg v.regB.toUInt32

/-- `disable_interrupts_rtc` -/
def disableInterruptsRtc (v : Variables) : Prog Variables := do
  let v ← readRegB v
  let v := { v with regB := v.regB ||| set24 }
  let v := { v with regB := v.regB &&& setBCD }
  let v := { v with regB := v.regB &&& disINT }
  writeRegB v
  return v

/-- `enable_interrupts_rtc` -/
def enableInterruptsRtc (v : Variables) : Prog Variables := do
  let v ← readRegB v
  let v := { v with regB := v.regB ||| enINT }
  writeRegB v
  return v

/-! ## Reading the time -/

/-- The body of the loop of `wait_valid_rtc`. -/
def poll (v : Variables) : Prog (UInt8 × Variables) := do
  let v ← disableInterruptsRtc v
  let regA1 ← readRegister registerA
  let v ← enableInterruptsRtc v
  return (regA1, v)

/-- The loop of `wait_valid_rtc`. -/
def waitLoop : ℕ → Variables → Prog (Option (UInt8 × Variables))
  | 0, _ => return none
  | fuel + 1, v => do
    let polled ← poll v
    if polled.1 &&& rtcUIP ≠ 0 then waitLoop fuel polled.2 else return some polled

/-- `wait_valid_rtc` -/
def waitValidRtc (fuel : ℕ) (v : Variables) : Prog (Option Variables) := do
  match ← waitLoop fuel v with
  | none => return none
  | some (regA1, v) => return some { v with regA := regA1 }

/-- `read_time`, whose result is not used. -/
def readTime (fuel : ℕ) (v : Variables) : Prog (Option Variables) := do
  match ← waitValidRtc fuel v with
  | none => return none
  | some v => do
    let value ← readRegister seconds
    let v := { v with gRtcSeconds := toBCD value }
    let value ← readRegister minutes
    let v := { v with gRtcMinutes := toBCD value }
    let value ← readRegister hours
    let v := { v with gRtcHours := toBCD value }
    let value ← readRegister dateOfTheMonth
    let v := { v with gRtcDay := toBCD value }
    let value ← readRegister month
    let v := { v with gRtcMonth := toBCD value }
    let value ← readRegister year
    return some { v with gRtcYear := toBCD value }

/-- `rtc_ih` -/
def rtcIh (fuel : ℕ) (v : Variables) (g : Globals) : Prog (Option (Variables × Globals)) := do
  match ← readTime fuel v with
  | none => return none
  | some v => return some (v, { g with hours := v.gRtcHours, minutes := v.gRtcMinutes })

/-! ## The clock -/

/-- The clock: the register that is selected, the contents of the registers other than A, and the
values of register A: those that its next reads will give, and those that were read, the latest
first. -/
structure Clock where
  address : UInt8
  registers : UInt8 → UInt8
  nextA : ℕ → UInt8
  readsA : List UInt8

/-- Register B. -/
def Clock.regB (c : Clock) : UInt8 := c.registers registerB

/-- A read of the selected register. -/
def Clock.read (c : Clock) : UInt8 × Clock :=
  if c.address = registerA then
    (c.nextA 0, { c with nextA := fun k => c.nextA (k + 1), readsA := c.nextA 0 :: c.readsA })
  else (c.registers c.address, c)

/-- What the clock does at an access; all calls succeed. -/
def Clock.answer (c : Clock) : Op → Reply × Clock
  | .inb port => if port = rtcDataReg then (⟨0, c.read.1.toUInt32⟩, c.read.2) else (⟨0, 0⟩, c)
  | .outb port val =>
    if port = rtcAddrReg then (⟨0, 0⟩, { c with address := val.toUInt8 })
    else if port = rtcDataReg then
      (⟨0, 0⟩, { c with registers := Function.update c.registers c.address val.toUInt8 })
    else (⟨0, 0⟩, c)

end LabComputers.Rtc

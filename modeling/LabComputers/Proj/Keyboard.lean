import LabComputers.Lib.Port
import LabComputers.Proj.Game

/-!
# `keyboard.c`

The status and data reads of the KBC as port programs, the keyboard interrupt handler built from
them, and `keyboard_event_handler`, which acts on one scancode.
-/

namespace LabComputers

open CString Port

/-! ## Port reads -/

@[simp] def kbcStatReg : ℕ := 0x64
@[simp] def kbcOutBuf : ℕ := 0x60
@[simp] def kbcStatCheck : UInt8 := 0xC0
@[simp] def mouseCheck : UInt8 := 0x20
@[simp] def kbcOutBufFull : UInt8 := 0x01

/-- `util_sys_inb`: the result code and the byte stored in `*value`. -/
def utilSysInb (port : ℕ) : Prog (ℤ × UInt8) :=
  .io (.inb port) fun r => .ret (r.res, r.val.toUInt8)

/-- `kbc_communication_error` -/
def kbcCommunicationError : Prog Bool := do
  let (res, st) ← utilSysInb kbcStatReg
  return if res ≠ 0 then true else if st &&& kbcStatCheck = 0 then false else true

/-- `keyboard_check` -/
def keyboardCheck : Prog Bool := do
  let (res, st) ← utilSysInb kbcStatReg
  return if res ≠ 0 then true else if st &&& mouseCheck = 0 then true else false

/-- `kbc_output_buf_full` -/
def kbcOutputBufFull : Prog Bool := do
  let (res, st) ← utilSysInb kbcStatReg
  return if res ≠ 0 then true else if st &&& kbcOutBufFull ≠ 0 then true else false

/-- `kbc_read_output_buffer` -/
def kbcReadOutputBuffer : Prog UInt8 := do
  let (_, scanCode) ← utilSysInb kbcOutBuf
  return scanCode

/-! ## Scancodes -/

@[simp] def kbcScancode2B : UInt8 := 0xE0
@[simp] def escBreak : UInt8 := 0x81
@[simp] def pBreak : UInt8 := 0x99
@[simp] def enterMake : UInt8 := 0x1c
@[simp] def delMake : UInt8 := 0x0e

/-- The make codes that append a character to the name, with the character. -/
def nameKeys : List (UInt8 × Char) :=
  [(0x1e, 'A'), (0x30, 'B'), (0x2e, 'C'), (0x20, 'D'), (0x12, 'E'), (0x21, 'F'), (0x22, 'G'),
    (0x23, 'H'), (0x17, 'I'), (0x24, 'J'), (0x25, 'K'), (0x26, 'L'), (0x32, 'M'), (0x31, 'N'),
    (0x18, 'O'), (0x19, 'P'), (0x10, 'Q'), (0x13, 'R'), (0x1f, 'S'), (0x14, 'T'), (0x16, 'U'),
    (0x2f, 'V'), (0x11, 'W'), (0x2d, 'X'), (0x15, 'Y'), (0x2c, 'Z'), (0x35, '-')]

/-- The case labels of the letters and the dash: the byte a make code appends. -/
def nameByte (scanCode : UInt8) : Option UInt8 :=
  (nameKeys.find? fun key => key.1 = scanCode).map fun key => UInt8.ofNat key.2.toNat

/-- `name[strlen(name) - 1] = '\0'` -/
def deleteLast (name : List UInt8) : List UInt8 := name.set (strlen name - 1) 0

/-- The case `LB_INPUT` of `keyboard_event_handler`. -/
def editName (scanCode : UInt8) (g : Globals) : Globals :=
  if g.name.getD 5 0 = 0 then
    match nameByte scanCode with
    | some c => { g with name := strcat g.name [c] }
    | none =>
      if scanCode = delMake then
        if g.name.getD 0 0 ≠ 0 then { g with name := deleteLast g.name } else g
      else if scanCode = enterMake then
        if g.name.getD 0 0 ≠ 0 then gameSaveAndDisplayLb g else g
      else g
  else
    let g :=
      if scanCode = enterMake ∧ g.name.getD 0 0 ≠ 0 then gameSaveAndDisplayLb g else g
    if scanCode = delMake ∧ g.name.getD 0 0 ≠ 0 then { g with name := deleteLast g.name } else g

/-- `keyboard_event_handler` -/
def keyboardEventHandler (scanCode : UInt8) (g : Globals) : Globals :=
  if scanCode = escBreak then { g with gameState := .exit }
  else
    match g.gameState with
    | .playing => if scanCode = pBreak then { g with gameState := .pause } else g
    | .pause => if scanCode = pBreak then { g with gameState := .playing } else g
    | .lbInput => editName scanCode g
    | .leaderboard => if scanCode = enterMake then gameInitialize g else g
    | _ => g

/-- `kbc_ih` after the scancode was read without an error. -/
def kbcScancode (scanCode : UInt8) (g : Globals) : Globals :=
  if scanCode = kbcScancode2B then { g with flag2Bytes := true }
  else
    let g := if g.flag2Bytes then { g with flag2Bytes := false } else g
    let g := if scanCode = escBreak then { g with flagESC := false } else g
    keyboardEventHandler scanCode g

/-- `kbc_ih` -/
def kbcIh (g : Globals) : Prog Globals := do
  if !(← kbcOutputBufFull) then return g
  if !(← keyboardCheck) then return g
  let scanCode ← kbcReadOutputBuffer
  if ← kbcCommunicationError then return g
  return kbcScancode scanCode g

end LabComputers

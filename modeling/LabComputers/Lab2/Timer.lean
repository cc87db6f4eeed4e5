import Mathlib.Data.Int.Bitwise
import LabComputers.Lib.MessageLoop
import LabComputers.Lib.Port

/-!
# `timer.c` of lab 2

The functions that read the configuration of an i8254 timer and set its frequency, as port programs,
and the loops that wait for a number of seconds.  A division by zero traps: `timerSetFrequency` returns
`none` there.  The texts printed on the way are left out.
-/

namespace LabComputers.Lab2

open Port

/-! ## `i8254.h` -/

def timerFreq : UInt32 := 1193182

def timer0 : ℕ := 0x40
def timer1 : ℕ := 0x41
def timer2 : ℕ := 0x42
def timerCtrl : ℕ := 0x43

/-- `BIT`; the processor takes the shift count modulo 32. -/
def bit (n : UInt32) : UInt32 := 1 <<< n

/-- `TIMER_CTRL_SEL` -/
def timerCtrlSel (n : UInt8) : UInt32 := n.toUInt32 <<< 6
def timerRbCmd : UInt32 := bit 7 ||| bit 6
def timerLsbMsb : UInt32 := bit 4 ||| bit 5
def timerRbCount : UInt32 := bit 5

/-! ## `utils.c` -/

/-- `util_get_LSB` -/
def utilGetLSB (val : UInt16) : UInt8 := val.toUInt8

/-- `util_get_MSB` -/
def utilGetMSB (val : UInt16) : UInt8 := (val >>> 8).toUInt8

/-- `util_sys_inb`: the result code and the byte stored in `*value`. -/
def utilSysInb (port : ℕ) : Prog (ℤ × UInt8) :=
  .io (.inb port) fun r => .ret (r.res, r.val.toUInt8)

/-- `sys_outb` -/
def sysOutb (port : ℕ) (val : UInt32) : Prog ℤ := .io (.outb port val) fun r => .ret r.res

/-! ## `timer.c` -/

/-- The read-back command of `timer_get_conf`. -/
def readBackCommand (timer : UInt8) : UInt8 :=
  (timerRbCmd ||| timerRbCount ||| bit (timer.toUInt32 + 1)).toUInt8

/-- `timer_get_conf`: the result and the byte left in `*st`. -/
def timerGetConf (timer st : UInt8) : Prog (ℤ × UInt8) := do
  let res ← sysOutb timerCtrl (readBackCommand timer).toUInt32
  if res ≠ 0 then return (1, st)
  else if timer = 0 then utilSysInb timer0
  else if timer = 1 then utilSysInb timer1
  else if timer = 2 then utilSysInb timer2
  else return (1, st)

/-- The control word of `timer_set_frequency`, from the configuration that was read. -/
def controlWord (timer st : UInt8) : UInt8 :=
  (st &&& 0x0F) ||| (timerCtrlSel timer ||| timerLsbMsb).toUInt8

/-- The two counter bytes of `timer_set_frequency`. -/
def writeCounter (port : ℕ) (lsb msb : UInt8) : Prog ℤ := do
  let res1 ← sysOutb port lsb.toUInt32
  let res2 ← sysOutb port msb.toUInt32
  return Int.land res1 res2

/-- `timer_set_frequency` -/
def timerSetFrequency (timer : UInt8) (freq : UInt32) : Prog (Option ℤ) := do
  let (res, st) ← timerGetConf timer 0
  if res ≠ 0 then return some 1
  else if freq = 0 then return none
  else do
    let timerCounter := (timerFreq / freq).toUInt16
    let lsb := utilGetLSB timerCounter
    let msb := utilGetMSB timerCounter
    let res ← sysOutb timerCtrl (controlWord timer st).toUInt32
    if res ≠ 0 then return some 1
    else if timer = 0 then return some (← writeCounter timer0 lsb msb)
    else if timer = 1 then return some (← writeCounter timer1 lsb msb)
    else if timer = 2 then return some (← writeCounter timer2 lsb msb)
    else return some 1

/-! ## The configuration -/

/-- `enum timer_status_field` -/
inductive StatusField where
  | all
  | initial
  | mode
  | base
  deriving DecidableEq, Repr

/-- `enum timer_init` -/
inductive TimerInit where
  | invalid
  | lsbOnly
  | msbOnly
  | msbAfterLsb
  deriving DecidableEq, Repr

/-- `union timer_status_field_val`, with the member that was written. -/
inductive StatusValue where
  | byte (st : UInt8)
  | inMode (mode : TimerInit)
  | countMode (mode : UInt8)
  | bcd (b : Bool)
  deriving DecidableEq, Repr

/-- The value that `timer_display_conf` passes to `timer_print_config`. -/
def timerDisplayConf (st : UInt8) : StatusField → StatusValue
  | .all => .byte st
  | .initial =>
    .inMode (if st &&& 0x20 ≠ 0 ∧ st &&& 0x10 ≠ 0 then .msbAfterLsb
      else if st &&& 0x20 ≠ 0 then .msbOnly
      else if st &&& 0x10 ≠ 0 then .lsbOnly
      else .invalid)
  | .mode =>
    let st := st >>> 1
    let st := st &&& 0x07
    .countMode (if st = 0 then 0 else if st = 1 then 1 else if st = 2 then 2 else if st = 3 then 3
      else if st = 4 then 4 else 5)
  | .base => .bcd (st &&& 0x01 ≠ 0)

/-- `timer_test_read_config`, with the calls of `timer_print_config`; `printed` is what that returns. -/
def timerTestReadConfig (timer : UInt8) (field : StatusField) (printed : ℤ) :
    Prog (ℤ × List (UInt8 × StatusField × StatusValue)) := do
  let (res, status) ← timerGetConf timer 0
  if res ≠ 0 then return (1, [])
  else
    let call := (timer, field, timerDisplayConf status field)
    if printed ≠ 0 then return (1, [call]) else return (0, [call])

/-! ## Waiting -/

/-- `timer_global_counter`, `counter_seconds`, and the calls of `timer_print_elapsed_time` so far. -/
structure Elapsed (κ : Type) where
  timerGlobalCounter : ℕ
  counterSeconds : κ
  printed : ℕ

/-- `timer_int_handler` -/
def timerIntHandler {κ : Type} (s : Elapsed κ) : Elapsed κ :=
  { s with timerGlobalCounter := s.timerGlobalCounter + 1 }

/-- The body of the loops of `timer_test_int` and `delay_seconds`; a notification is one of timer 0. -/
def secondsStep {κ : Type} [Add κ] [OfNat κ 1] (s : Elapsed κ) :
    MessageLoop.Message Unit → Elapsed κ
  | .failed => s
  | .other => s
  | .notified _ =>
    let s := timerIntHandler s
    if s.timerGlobalCounter % 60 = 0 then
      { s with printed := s.printed + 1, counterSeconds := s.counterSeconds + 1 }
    else s

/-- `timer_test_int`, in which `counter_seconds` is an `int`, up to the end of its loop. -/
def timerTestInt (time : UInt8) (msgs : List (MessageLoop.Message Unit)) : Elapsed ℕ :=
  MessageLoop.loop secondsStep (fun s => !decide (s.counterSeconds < time.toNat)) ⟨0, 0, 0⟩ msgs

/-- `delay_seconds`, in which `counter_seconds` is a `uint8_t`, up to the end of its loop. -/
def delaySeconds (seconds : UInt8) (msgs : List (MessageLoop.Message Unit)) : Elapsed UInt8 :=
  MessageLoop.loop secondsStep (fun s => !decide (s.counterSeconds < seconds)) ⟨0, 0, 0⟩ msgs

end LabComputers.Lab2

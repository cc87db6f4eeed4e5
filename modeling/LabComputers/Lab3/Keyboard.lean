import LabComputers.Lib.MessageLoop
import LabComputers.Lib.Port

/-!
# `keyboard.c` of lab 3

The interrupt handler `kbc_ih`, which prints every scancode, and the loops of `kbd_test_scan`,
`kbd_test_poll` and `kbd_test_timed_scan` that call it.  The calls of `kbd_print_scancode`, which the
course's library provides, are recorded in `printed`.
-/

namespace LabComputers.Lab3

open Port

/-! ## Port reads -/

def kbcStatReg : ℕ := 0x64
def kbcOutBuf : ℕ := 0x60
def kbcStatCheck : UInt8 := 0xC0
def kbcOutBufFull : UInt8 := 0x01
def kbcScancode2B : UInt8 := 0xE0
def escBreak : UInt8 := 0x81

/-- A call of `kbd_print_scancode`; `bytes` is the array of two bytes that is passed to it. -/
structure PrintCall where
  make : Bool
  size : UInt8
  bytes : UInt8 × UInt8
  deriving DecidableEq, Repr

/-- The global variables, and the calls of `kbd_print_scancode` so far.  The `int` `counter_sys_in`
wraps around. -/
structure Globals where
  counterSysIn : Int32
  flagESC : Bool
  flag2Bytes : Bool
  printed : List PrintCall
  deriving DecidableEq, Repr

/-- `util_sys_inb` of lab 2: the result code and the byte stored in `*value`. -/
def utilSysInb (port : ℕ) : Prog (ℤ × UInt8) :=
  .io (.inb port) fun r => .ret (r.res, r.val.toUInt8)

/-- `counter_sys_in++` -/
def Globals.countSysIn (g : Globals) : Globals := { g with counterSysIn := g.counterSysIn + 1 }

/-- `kbc_communication_error` -/
def kbcCommunicationError (g : Globals) : Prog (Bool × Globals) := do
  let (res, st) ← utilSysInb kbcStatReg
  return (if res ≠ 0 then true else if st &&& kbcStatCheck = 0 then false else true, g.countSysIn)

/-- `kbc_output_buf_full` -/
def kbcOutputBufFull (g : Globals) : Prog (Bool × Globals) := do
  let (res, st) ← utilSysInb kbcStatReg
  return (if res ≠ 0 then true else if st &&& kbcOutBufFull ≠ 0 then true else false, g.countSysIn)

/-- `kbc_read_output_buffer` -/
def kbcReadOutputBuffer (g : Globals) : Prog (UInt8 × Globals) := do
  let (_, scanCode) ← utilSysInb kbcOutBuf
  return (scanCode, g.countSysIn)

/-! ## The interrupt handler -/

/-- `kbd_print_scancode` -/
def kbdPrintScancode (make : Bool) (size : UInt8) (bytes : UInt8 × UInt8) (g : Globals) : Globals :=
  { g with printed := g.printed ++ [⟨make, size, bytes⟩] }

/-- `kbc_ih` after the scancode was read without an error; `arr` is the uninitialised array. -/
def kbcScancode (arr : UInt8 × UInt8) (scanCode : UInt8) (g : Globals) : Globals :=
  if scanCode = kbcScancode2B then { g with flag2Bytes := true }
  else
    let arr := if g.flag2Bytes then (arr.1, kbcScancode2B) else arr
    let size := if g.flag2Bytes then 2 else 1
    let g := if g.flag2Bytes then { g with flag2Bytes := false } else g
    let arr := (scanCode, arr.2)
    let g := if scanCode = escBreak then { g with flagESC := false } else g
    kbdPrintScancode (scanCode &&& 0x80 = 0) size arr g

/-- `kbc_ih` -/
def kbcIh (arr : UInt8 × UInt8) (g : Globals) : Prog Globals := do
  let (full, g) ← kbcOutputBufFull g
  if !full then return g
  let (scanCode, g) ← kbcReadOutputBuffer g
  let (error, g) ← kbcCommunicationError g
  if error then return g
  return kbcScancode arr scanCode g

/-! ## The tests -/

/-- What a call of `kbc_ih` finds: its uninitialised array and the replies to its reads. -/
structure Call where
  arr : UInt8 × UInt8
  replies : ℕ → Reply

/-- A call of `kbc_ih`. -/
def handle (g : Globals) (call : Call) : Globals := (kbcIh call.arr g).value call.replies

/-- What `driver_receive` returns: an error, a message other than a keyboard interrupt, or a keyboard
interrupt, with what the handler then finds. -/
inductive Received where
  | failed
  | other
  | interrupt (call : Call)

/-- The call of `kbc_ih` that is made for a message. -/
def Received.call : Received → Option Call
  | .interrupt call => some call
  | _ => none

/-- The loop of `kbd_test_scan` on the messages that are received. -/
def scanLoop (g : Globals) : List Received → Globals
  | [] => g
  | msg :: msgs =>
    if g.flagESC then
      match msg with
      | .failed => scanLoop g msgs
      | .other => scanLoop g msgs
      | .interrupt call => scanLoop (handle g call) msgs
    else g

/-- `kbd_test_scan` up to the end of its loop. -/
def kbdTestScan (g : Globals) (msgs : List Received) : Globals :=
  scanLoop { g with flagESC := true, flag2Bytes := false, counterSysIn := 0 } msgs

/-- The loop of `kbd_test_poll`, for at most `n` rounds. -/
def pollLoop : ℕ → (ℕ → UInt8 × UInt8) → Globals → Prog Globals
  | 0, _, g => return g
  | n + 1, arrs, g =>
    if g.flagESC then do
      let g ← kbcIh (arrs 0) g
      pollLoop n (fun k => arrs (k + 1)) g
    else return g

/-- `kbd_test_poll` up to the end of its loop. -/
def kbdTestPoll (n : ℕ) (arrs : ℕ → UInt8 × UInt8) (g : Globals) : Prog Globals :=
  pollLoop n arrs { g with counterSysIn := 0, flagESC := true }

/-- What a notification of `kbd_test_timed_scan` carries: the event is the interrupt of the keyboard,
with what `kbc_ih` then finds, and the tick that of timer 0. -/
abbrev Interrupts := MessageLoop.Signal Call

/-- The body of the loop of `kbd_test_timed_scan`, on the globals and `counter`. -/
def timedScanStep (s : Globals × ℕ) : MessageLoop.Message Interrupts → Globals × ℕ
  | .failed => s
  | .other => s
  | .notified interrupts =>
    let s := match interrupts.event with
      | some call => (handle s.1 call, 0)
      | none => s
    if interrupts.tick then (s.1, s.2 + 1) else s

/-- `kbd_test_timed_scan` up to the end of its loop: the globals and `counter`. -/
def kbdTestTimedScan (n : UInt8) (g : Globals) (msgs : List (MessageLoop.Message Interrupts)) :
    Globals × ℕ :=
  MessageLoop.loop timedScanStep (fun s => !(s.1.flagESC && decide (s.2 / 60 < n.toNat)))
    ({ g with flagESC := true, flag2Bytes := false, counterSysIn := 0 }, 0) msgs

end LabComputers.Lab3

import LabComputers.Lib.MessageLoop
import LabComputers.Proj.Mouse

/-!
# `mouse.c` of lab 4

The interrupt handler `mouse_ih`, which fills the `struct packet` of the course's library, and the loops
of `mouse_test_packet` and `mouse_test_async` that print the packets.  The reads of the KBC other than
`mouse_check` are those of the project.  The calls of `mouse_print_packet` are recorded in `printed`.
-/

namespace LabComputers.Lab4

open CString Port MessageLoop

/-- `struct packet` -/
structure Packet where
  bytes : UInt8 × UInt8 × UInt8
  rb : Bool
  mb : Bool
  lb : Bool
  deltaX : Int16
  deltaY : Int16
  xOv : Bool
  yOv : Bool
  deriving DecidableEq

/-- The global variables, and the calls of `mouse_print_packet` so far. -/
structure Globals where
  arr : List UInt8
  nbytes : ℕ
  p : Packet
  printed : List Packet

def rbMouse : UInt8 := 0x02
def mbMouse : UInt8 := 0x04

/-! ## The interrupt handler -/

/-- `mouse_check` -/
def mouseCheck : Prog Bool := do
  let (res, st) ← utilSysInb kbcStatReg
  return if res ≠ 0 then true else if st &&& LabComputers.mouseCheck = 0 then false else true

/-- The fields of `p` for a complete packet. -/
def packetOf (arr : List UInt8) : Packet where
  bytes := (arr.getD 0 0, arr.getD 1 0, arr.getD 2 0)
  rb := (arr.getD 0 0 &&& rbMouse) >>> 1 ≠ 0
  lb := arr.getD 0 0 &&& lbMouse ≠ 0
  mb := (arr.getD 0 0 &&& mbMouse) >>> 2 ≠ 0
  xOv := (arr.getD 0 0 &&& xOvMouse) >>> 6 ≠ 0
  yOv := (arr.getD 0 0 &&& yOvMouse) >>> 7 ≠ 0
  deltaX := signed (arr.getD 1 0) (arr.getD 0 0 &&& xSign ≠ 0)
  deltaY := signed (arr.getD 2 0) (arr.getD 0 0 &&& ySign ≠ 0)

/-- `mouse_ih` after a byte was read without an error. -/
def mouseByte (byte : UInt8) (g : Globals) : Globals :=
  if byte &&& 0x08 = 0 ∧ g.nbytes = 0 then g
  else
    let g := { g with arr := g.arr.set g.nbytes byte, nbytes := g.nbytes + 1 }
    if g.nbytes = 3 then { g with p := packetOf g.arr } else g

/-- `mouse_ih` -/
def mouseIh (g : Globals) : Prog Globals := do
  let g := if g.nbytes = 0 then { g with arr := zeros 3 } else g
  if !(← mouseCheck) then return g
  if !(← kbcOutputBufFull) then return g
  let byte ← kbcReadOutputBuffer
  if ← kbcCommunicationError then return g
  return mouseByte byte g

/-! ## The tests -/

/-- `mouse_print_packet` -/
def mousePrintPacket (g : Globals) : Globals := { g with printed := g.printed ++ [g.p] }

/-- The body of the loop of `mouse_test_packet`, on the globals and `counter`. -/
def testPacketStep (s : Globals × ℕ) : Message (ℕ → Reply) → Globals × ℕ
  | .failed => s
  | .other => s
  | .notified replies =>
    let g := (mouseIh s.1).value replies
    if g.nbytes = 3 then (mousePrintPacket { g with nbytes := 0 }, s.2 + 1) else (g, s.2)

/-- `mouse_test_packet` up to the end of its loop: the globals and `counter`. -/
def mouseTestPacket (cnt : UInt32) (g : Globals) (msgs : List (Message (ℕ → Reply))) : Globals × ℕ :=
  loop testPacketStep (fun s => !decide ((s.2 : ℤ) < toInt cnt)) (g, 0) msgs

/-- What `mouse_test_async` does at an interrupt of the mouse. -/
def asyncHandle (g : Globals) (replies : ℕ → Reply) : Globals :=
  let g := (mouseIh g).value replies
  if g.nbytes = 3 then mousePrintPacket { g with nbytes := 0 } else g

/-- The body of the loop of `mouse_test_async`, on the globals and `timer_global_counter`.  The event of
a notification is the interrupt of the mouse, with the replies to its reads, and the tick that of
timer 0. -/
def testAsyncStep (s : Globals × ℕ) : Message (Signal (ℕ → Reply)) → Globals × ℕ
  | .failed => s
  | .other => s
  | .notified interrupts =>
    let s := match interrupts.event with
      | some replies => (asyncHandle s.1 replies, 0)
      | none => s
    if interrupts.tick then (s.1, s.2 + 1) else s

/-- `mouse_test_async` up to the end of its loop: the globals and `timer_global_counter`. -/
def mouseTestAsync (idleTime : UInt8) (g : Globals) (msgs : List (Message (Signal (ℕ → Reply)))) :
    Globals × ℕ :=
  loop testAsyncStep (fun s => !decide (s.2 / 60 < idleTime.toNat)) (g, 0) msgs

end LabComputers.Lab4

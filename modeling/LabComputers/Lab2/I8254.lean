import Mathlib.Logic.Function.Basic
import LabComputers.Lab2.Timer

/-!
# The i8254

An abstract i8254 with three timers, as `i8254.h` describes its ports: a control word selects a timer
and sets its mode, a read-back command latches the status of timers, and the two bytes of a count are
written to the port of the timer.  The values of the pins and the counting itself are arbitrary.
-/

namespace LabComputers.Lab2

open Port

/-- A timer: the lower six bits of its last control word, a pending status byte, the first byte of a
count that is not complete, and the last complete count. -/
structure Timer where
  control : UInt8
  latched : Bool
  low : Option UInt8
  count : UInt16
  deriving DecidableEq

/-- The chip.  Each access finds new values on the pins. -/
structure I8254 where
  timers : Fin 3 → Timer
  pins : ℕ → UInt8

namespace Timer

/-- The status byte: the two upper bits come from the pins. -/
def status (t : Timer) (pins : UInt8) : UInt8 := (pins &&& 0xC0) ||| (t.control &&& 0x3F)

/-- A byte of a count is written. -/
def write (t : Timer) (byte : UInt8) : Timer :=
  if (t.control >>> 4) &&& 3 = 3 then
    match t.low with
    | none => { t with low := some byte }
    | some low => { t with low := none, count := byte.toUInt16 <<< 8 ||| low.toUInt16 }
  else if (t.control >>> 4) &&& 3 = 2 then { t with count := byte.toUInt16 <<< 8 }
  else { t with count := byte.toUInt16 }

end Timer

namespace I8254

/-- A byte is written to the control register: a read-back command, a command that latches a count,
or a control word. -/
def command (word : UInt8) (timers : Fin 3 → Timer) : Fin 3 → Timer := fun i =>
  if word >>> 6 = 3 then
    if word &&& 0x10 = 0 ∧ word.toNat.testBit (i + 1) then { timers i with latched := true }
    else timers i
  else if (word >>> 6).toNat = i ∧ (word >>> 4) &&& 3 ≠ 0 then
    { timers i with control := word &&& 0x3F, low := none }
  else timers i

/-- The timer with this port. -/
def timer? (port : ℕ) : Option (Fin 3) :=
  if port = timer0 then some ⟨0, by decide⟩
  else if port = timer1 then some ⟨1, by decide⟩
  else if port = timer2 then some ⟨2, by decide⟩
  else none

/-- What the chip answers to an access, and the chip after it. -/
def answer (chip : I8254) : Op → Reply × I8254
  | .outb port val =>
    let timers :=
      if port = timerCtrl then command val.toUInt8 chip.timers
      else match timer? port with
        | some i => Function.update chip.timers i ((chip.timers i).write val.toUInt8)
        | none => chip.timers
    (⟨0, 0⟩, ⟨timers, fun k => chip.pins (k + 1)⟩)
  | .inb port =>
    match timer? port with
    | some i =>
      let t := chip.timers i
      (⟨0, (if t.latched then t.status (chip.pins 0) else chip.pins 0).toUInt32⟩,
        ⟨Function.update chip.timers i { t with latched := false }, fun k => chip.pins (k + 1)⟩)
    | none => (⟨0, (chip.pins 0).toUInt32⟩, ⟨chip.timers, fun k => chip.pins (k + 1)⟩)

end I8254

end LabComputers.Lab2

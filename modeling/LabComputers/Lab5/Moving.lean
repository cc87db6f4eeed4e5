import LabComputers.Lab3.Keyboard
import LabComputers.Lab5.VideoCard

/-!
# `vg_draw_moving_sprite`

The loop of `vg_draw_moving_sprite` on the messages that `driver_receive` returns.  A frame is drawn
at a timer interrupt after `no_interrupts` others; a frame is recorded as the coordinates that are
passed to `vg_draw_sprite`.  `keyboard2.c` is the copy of lab 3's `keyboard.c` whose `kbc_ih` prints
nothing.
-/

namespace LabComputers.Lab5

open Port

/-! ## The keyboard -/

/-- `kbc_ih` of `keyboard2.c` after the scancode was read without an error. -/
def kbcScancode (scanCode : UInt8) (g : Lab3.Globals) : Lab3.Globals :=
  if scanCode = Lab3.kbcScancode2B then { g with flag2Bytes := true }
  else
    let g := if g.flag2Bytes then { g with flag2Bytes := false } else g
    if scanCode = Lab3.escBreak then { g with flagESC := false } else g

/-- `kbc_ih` of `keyboard2.c` -/
def kbcIh (g : Lab3.Globals) : Prog Lab3.Globals := do
  let (full, g) ← Lab3.kbcOutputBufFull g
  if !full then return g
  let (scanCode, g) ← Lab3.kbcReadOutputBuffer g
  let (error, g) ← Lab3.kbcCommunicationError g
  if error then return g
  return kbcScancode scanCode g

/-! ## The movement -/

/-- The arguments of `vg_draw_moving_sprite`, with the size of the image. -/
structure Move where
  width : UInt16
  height : UInt16
  xi : UInt16
  yi : UInt16
  xf : UInt16
  yf : UInt16
  speed : Int16
  frRate : UInt8

/-- The local variables that describe the movement. -/
structure Motion where
  x : UInt16
  y : UInt16
  speedX : Int16
  speedY : Int16
  negSpeedFrameCounter : ℕ
  deriving DecidableEq, Repr

/-- `abs(speed)` -/
def Move.absSpeed (a : Move) : ℕ := a.speed.toInt.natAbs

/-- The variables before the loop. -/
def Move.start (a : Move) : Motion :=
  if a.xf = a.xi then ⟨a.xi, a.yi, 0, Int16.ofNat a.absSpeed, 0⟩
  else ⟨a.xi, a.yi, Int16.ofNat a.absSpeed, 0, 0⟩

/-- `coordinate += speed` -/
def plusSpeed (coordinate : UInt16) (speed : Int16) : UInt16 :=
  UInt16.ofInt (coordinate.toNat + speed.toInt)

/-- `coordinate -= speed` -/
def minusSpeed (coordinate : UInt16) (speed : Int16) : UInt16 :=
  UInt16.ofInt (coordinate.toNat - speed.toInt)

/-- The sprite moves on, unless it has to wait for its next pixel. -/
def Move.displace (a : Move) (s : Motion) : Motion :=
  if a.speed > 0 then { s with x := plusSpeed s.x s.speedX, y := plusSpeed s.y s.speedY }
  else if s.negSpeedFrameCounter = a.absSpeed then
    if s.speedX = 0 then { s with y := s.y + 1, negSpeedFrameCounter := 0 }
    else { s with x := s.x + 1, negSpeedFrameCounter := 0 }
  else { s with negSpeedFrameCounter := s.negSpeedFrameCounter + 1 }

/-- The rollback at the edges; the coordinates are unsigned, so that they are never negative. -/
def Move.rollback (m : VideoMode) (a : Move) (s : Motion) : Motion :=
  if s.x.toNat + a.width.toNat > m.hRes ∨ s.y.toNat + a.height.toNat > m.vRes then
    { s with x := minusSpeed s.x s.speedX, y := minusSpeed s.y s.speedY, speedX := 0, speedY := 0 }
  else s

/-- What follows the drawing of a frame. -/
def Move.advance (m : VideoMode) (a : Move) (s : Motion) : Motion :=
  if s.x = a.xf ∧ s.y = a.yf then s else a.rollback m (a.displace s)

/-! ## The loop -/

/-- What `driver_receive` returns: an error, a message other than an interrupt, or the interrupts
that are notified: the keyboard's, with what its handler finds, and the timer's. -/
inductive Received where
  | failed
  | other
  | hardware (keyboard : Option (ℕ → Reply)) (timer : Bool)

/-- The variables of the loop. -/
structure MoveLoop where
  motion : Motion
  counterInterrupts : ℕ
  keyboard : Lab3.Globals

/-- A timer interrupt, and the coordinates of the frame it draws. -/
def Move.timer (m : VideoMode) (a : Move) (noInterrupts : ℕ) (s : MoveLoop) :
    MoveLoop × Option (UInt16 × UInt16) :=
  if s.counterInterrupts < noInterrupts then
    ({ s with counterInterrupts := s.counterInterrupts + 1 }, none)
  else
    ({ s with counterInterrupts := 0, motion := a.advance m s.motion },
      some (s.motion.x, s.motion.y))

/-- A keyboard interrupt, if there is one. -/
def MoveLoop.handle (s : MoveLoop) : Option (ℕ → Reply) → MoveLoop
  | none => s
  | some replies => { s with keyboard := (kbcIh s.keyboard).value replies }

/-- The handlers of a message. -/
def Move.receive (m : VideoMode) (a : Move) (noInterrupts : ℕ) (s : MoveLoop) :
    Received → MoveLoop × Option (UInt16 × UInt16)
  | .failed => (s, none)
  | .other => (s, none)
  | .hardware keyboard timer =>
    if timer then a.timer m noInterrupts (s.handle keyboard) else (s.handle keyboard, none)

/-- The loop `while (flagESC)` on the messages that are received: the variables after it, and the
frames it draws. -/
def Move.loop (m : VideoMode) (a : Move) (noInterrupts : ℕ) (s : MoveLoop) :
    List Received → MoveLoop × List (UInt16 × UInt16)
  | [] => (s, [])
  | msg :: msgs =>
    if s.keyboard.flagESC then
      let received := a.receive m noInterrupts s msg
      let rest := a.loop m noInterrupts received.1 msgs
      (rest.1, received.2.toList ++ rest.2)
    else (s, [])

/-- The variables when the loop starts. -/
def Move.init (a : Move) (g : Lab3.Globals) : MoveLoop :=
  ⟨a.start, 0, { g with flagESC := true, flag2Bytes := false, counterSysIn := 0 }⟩

/-- `vg_draw_moving_sprite` on the messages that are received, or `none` if the division by
`fr_rate` traps. -/
def vgDrawMovingSprite (m : VideoMode) (a : Move) (g : Lab3.Globals) (msgs : List Received) :
    Option (MoveLoop × List (UInt16 × UInt16)) :=
  if a.frRate = 0 then none else some (a.loop m (60 / a.frRate.toNat) (a.init g) msgs)

end LabComputers.Lab5

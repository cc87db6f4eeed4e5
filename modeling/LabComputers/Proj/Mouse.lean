import LabComputers.Proj.Keyboard
import LabComputers.Proj.Sprites

/-!
# `mouse.c`

The mouse interrupt handler, which collects three bytes into a packet, and the event handler that
moves the pointer and acts on clicks.
-/

namespace LabComputers

open CString Port

/-! ## The event handler -/

/-- `mouse_check_kill` -/
def mouseCheckKill (g : Globals) : Globals :=
  let x := (g.mouseX.toInt - gameHorizontalMargin).tdiv alienWidth
  let y := (g.mouseY.toInt - gameVerticalMargin).tdiv alienHeight
  let g := g.record .mouseCheckKill
  if x ≥ 11 ∨ x < 0 then g
  else if y ≥ 7 ∨ y < 0 then g
  else
    let i : Row := Fin.ofNat 7 y.toNat
    let j : Col := Fin.ofNat 11 x.toNat
    let alien := g.gameMatrix i j
    if alien.state = AlienState.empty then g
    else if alien.state = AlienState.alive ∨ alien.state = AlienState.appearing then
      let g := { g with points := g.points + 1 }
      (g.setAlien i j ⟨AlienState.dead1, alienTime AlienState.dead1⟩).record (.hit i j)
    else g

/-- The pointer lies outside the rectangle of a button. -/
def outsideButton (g : Globals) (xi yi xf yf : ℕ) : Prop :=
  g.mouseX.toInt < xi ∨ g.mouseX.toInt > xf ∨ g.mouseY.toInt < yi ∨ g.mouseY.toInt > yf

instance (g : Globals) (xi yi xf yf : ℕ) : Decidable (outsideButton g xi yi xf yf) :=
  inferInstanceAs (Decidable (_ ∨ _))

/-- `mouse_check_play_button` -/
def mouseCheckPlayButton (g : Globals) : Globals :=
  let g := g.record .mouseCheckPlayButton
  if outsideButton g playButtonXi playButtonYi playButtonXf playButtonYf then g
  else { g with gameState := .playing }

/-- `mouse_check_exit_button` -/
def mouseCheckExitButton (g : Globals) : Globals :=
  let g := g.record .mouseCheckExitButton
  if outsideButton g exitButtonXi exitButtonYi exitButtonXf exitButtonYf then g
  else { g with gameState := .exit }

/-- Clamp a coordinate as `mouse_event_handler` does. -/
@[irreducible] def clamp (half border v : Int16) : Int16 :=
  let v := if v < half then half else v
  if v ≥ border then border - 1 else v

/-- The movement of the pointer in `mouse_event_handler`. -/
def movePointer (event : MouseEvent) (g : Globals) : Globals :=
  { g with
    mouseX := clamp g.crosshairHalfWidth g.crosshairWidthBorder (g.mouseX + event.moveX)
    mouseY := clamp g.crosshairHalfHeight g.crosshairHeightBorder (g.mouseY - event.moveY) }

/-- `mouse_event_handler` -/
def mouseEventHandler (event : MouseEvent) (g : Globals) : Globals :=
  let g := g.record (.mouseEventHandler event)
  if event.overflow then g
  else
    let g := movePointer event g
    let g := if !event.lbdown then { g with buttonWasRaised := true } else g
    match g.gameState with
    | .playing =>
      if event.lbdown && g.buttonWasRaised then
        { mouseCheckKill g with buttonWasRaised := false }
      else g
    | .menu =>
      if event.lbdown && g.buttonWasRaised then
        { mouseCheckExitButton (mouseCheckPlayButton g) with buttonWasRaised := false }
      else g
    | _ => g

/-! ## The interrupt handler -/

@[simp] def lbMouse : UInt8 := 0x01
@[simp] def xSign : UInt8 := 0x10
@[simp] def ySign : UInt8 := 0x20
@[simp] def xOvMouse : UInt8 := 0x40
@[simp] def yOvMouse : UInt8 := 0x80

/-- A movement byte with its sign bit, as the `int16_t` built by or-ing `0xFF00` into it. -/
def signed (byte : UInt8) (negative : Bool) : Int16 :=
  let v := byte.toUInt16.toInt16
  if negative then v ||| 0xFF00 else v

/-- The event of a complete packet. -/
def mouseEvent (arr : List UInt8) : MouseEvent where
  moveX := signed (arr.getD 1 0) (arr.getD 0 0 &&& xSign ≠ 0)
  moveY := signed (arr.getD 2 0) (arr.getD 0 0 &&& ySign ≠ 0)
  lbdown := arr.getD 0 0 &&& lbMouse ≠ 0
  overflow := (arr.getD 0 0 &&& xOvMouse) >>> 6 ≠ 0 ∨ (arr.getD 0 0 &&& yOvMouse) >>> 7 ≠ 0

/-- `mouse_ih` after a byte was read without an error. -/
def mouseByte (byte : UInt8) (g : Globals) : Globals :=
  if byte &&& 0x08 = 0 ∧ g.nbytes = 0 then g
  else
    let g := { g with arr := g.arr.set g.nbytes byte, nbytes := g.nbytes + 1 }
    if g.nbytes = 3 then { mouseEventHandler (mouseEvent g.arr) g with nbytes := 0 } else g

/-- `mouse_ih` -/
def mouseIh (g : Globals) : Prog Globals := do
  let g := if g.nbytes = 0 then { g with arr := zeros 3 } else g
  if ← keyboardCheck then return g
  if !(← kbcOutputBufFull) then return g
  let byte ← kbcReadOutputBuffer
  if ← kbcCommunicationError then return g
  return mouseByte byte g

end LabComputers

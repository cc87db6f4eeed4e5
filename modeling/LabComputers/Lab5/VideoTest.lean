import LabComputers.Lib.Traced
import LabComputers.Proj.Startup
import LabComputers.Lab5.Moving

/-!
# The tests of lab 5

`video_test_rectangle`, `video_test_pattern`, `video_test_xpm` and `video_test_move`, and the
functions of `video_card.c` and `keyboard2.c` that they call.  `Platform` holds the results of the
external calls, whatever they are.  A test reports what it does with the video card, every byte that
it writes to the video memory among it.  It stops if it panics, if it is killed for a division by
zero or an access through `NULL`, or if it still waits for messages.
-/

namespace LabComputers.Lab5

open Startup (ok null mapFailed vbeModeAh vbeSetModeAl biosServiceVideoCard MemRange Reg86)
open Raster Traced

/-! ## The external calls -/

/-- The fields of `vbe_mode_info_t` that lab 5 uses. -/
structure ModeInfo extends Startup.ModeInfo where
  fields : ColorFields

/-- What `xpm_load` returns and stores in `img_info`: both are indeterminate if it fails, except that
the address is `NULL`. -/
structure Image where
  address : UInt32
  width : UInt16
  height : UInt16
  bytes : List UInt8

/-- The results of the external calls.  Pointers are addresses. -/
structure Platform where
  vbeGetModeInfo : UInt16 → ℤ × ModeInfo
  sysPrivctl : MemRange → ℤ
  vmMapPhys : UInt32 → UInt32 → UInt32
  sysInt86 : Reg86 → ℤ
  xpmLoad : List String → Image
  malloc : UInt32 → UInt32
  driverReceive : List Received
  vgExit : ℤ

/-- The static variables of `video_card.c` and the global ones of `keyboard2.c`. -/
structure Statics where
  videoMem : UInt32
  mode : VideoMode
  fields : ColorFields
  keyboard : Lab3.Globals

/-- What a test does with the video card. -/
inductive Event where
  | vbeGetModeInfo (result : ℤ)
  | setGraphics (done : Bool)
  | write (offset : ℕ) (value : UInt8)
  | vgExit
  deriving DecidableEq, Repr

/-- Why a test does not return. -/
inductive Stop where
  | panic (message : String)
  | divisionByZero
  | nullPointer
  | running
  deriving DecidableEq, Repr

/-- The sprite at the address. -/
def Image.sprite (image : Image) : Sprite := ⟨image.bytes, image.width.toNat, image.height.toNat⟩

/-- The static variables that describe a mode. -/
def ModeInfo.mode (info : ModeInfo) : VideoMode where
  hRes := info.xResolution.toNat
  vRes := info.yResolution.toNat
  bytesPerPixel := (info.bitsPerPixel.toNat + 7) / 8
  hRes_lt := info.xResolution.toNat_lt
  vRes_lt := info.yResolution.toNat_lt

section Functions

variable (p : Platform)

/-! ## Setting the mode -/

/-- `prepareGraphics` -/
def prepareGraphics (mode : UInt16) (v : Statics) : Run Event Stop (Bool × Statics) := do
  let info := p.vbeGetModeInfo mode
  Run.report (.vbeGetModeInfo info.1)
  if info.1 ≠ ok then return (true, v)
  else
    let v := { v with mode := info.2.mode, fields := info.2.fields }
    let vramSize := UInt32.ofNat v.mode.frameSize
    let mr : MemRange := ⟨info.2.physBasePtr, info.2.physBasePtr + vramSize⟩
    let r := p.sysPrivctl mr
    if ok ≠ r then Run.stop (.panic s!"sys_privctl (ADD_MEM) failed: {r}\n")
    else
      let v := { v with videoMem := p.vmMapPhys mr.base vramSize }
      if v.videoMem = mapFailed then Run.stop (.panic "couldn’t map video memory")
      else return (true, v)

/-- `setGraphics` -/
def setGraphics (mode : UInt16) : Run Event Stop Bool := do
  let r86 : Reg86 :=
    ⟨(vbeModeAh <<< 8) ||| vbeSetModeAl, ((1 : UInt16) <<< 14) ||| mode, biosServiceVideoCard⟩
  let done := if p.sysInt86 r86 ≠ ok then false else true
  Run.report (.setGraphics done)
  return done

/-- `vg_exit` -/
def vgExit : Run Event Stop ℤ := do
  Run.report .vgExit
  return p.vgExit

/-! ## Waiting for the escape key -/

/-- The loop of `kbd_scan` on the messages that are received. -/
def scanLoop (g : Lab3.Globals) : List Received → Lab3.Globals
  | [] => g
  | msg :: msgs =>
    if g.flagESC then
      match msg with
      | .hardware (some replies) _ => scanLoop ((kbcIh g).value replies) msgs
      | _ => scanLoop g msgs
    else g

/-- `kbd_scan` -/
def kbdScan (v : Statics) : Run Event Stop Unit :=
  let g := { v.keyboard with flagESC := true, flag2Bytes := false, counterSysIn := 0 }
  if (scanLoop g p.driverReceive).flagESC then Run.stop .running else return ()

/-! ## Drawing -/

/-- Accesses through these pointers, the first of which kills the process if a pointer is `NULL`. -/
def access (pointers : List UInt32) (accesses : List (Access UInt8)) : Run Event Stop Unit :=
  if null ∈ pointers ∧ accesses ≠ [] then Run.stop .nullPointer else return ()

/-- A write to the video memory. -/
def written : Access UInt8 → Option Event
  | .read _ => none
  | .write offset value => some (.write offset value)

/-- Accesses whose writes go to the video memory. -/
def paint (pointers : List UInt32) (accesses : List (Access UInt8)) : Run Event Stop Unit := do
  access pointers accesses
  ⟨accesses.filterMap written, .ok ()⟩

/-- The call of `vg_draw_rectangle`. -/
def drawRectangle (x y width height : UInt16) (color : UInt32) (v : Statics) :
    Run Event Stop ℤ := do
  let r := vgDrawRectangle v.mode x y width height color
  paint [v.videoMem] r.2
  return r.1.toNat

/-- The call of `vg_draw_pattern`. -/
def drawPattern (mode : UInt16) (noRectangles : UInt8) (first : UInt32) (step : UInt8)
    (v : Statics) : Run Event Stop ℤ := do
  match vgDrawPattern v.mode v.fields mode noRectangles first step with
  | none => Run.stop .divisionByZero
  | some r =>
    paint [v.videoMem] r.2
    return r.1

/-- The call of `vg_draw_sprite` on the video memory, with `buffer_no` 0. -/
def drawSprite (image : Image) (x y : UInt16) (v : Statics) : Run Event Stop ℤ := do
  paint [image.address, v.videoMem] (vgDrawSprite v.mode image.sprite x y 0)
  return 0

/-- What `memset` writes to the buffer. -/
def clearBuffer (m : VideoMode) : List (Access UInt8) :=
  (List.range m.frameSize).map fun k => .write k 0

/-- What `memcpy` writes to the video memory: the buffer, with the sprite in it. -/
def copyBuffer (m : VideoMode) (sprite : List (Access UInt8)) : List (Access UInt8) :=
  (List.range m.frameSize).map fun k => .write k (store (2 ^ 32) (fun _ => 0) sprite k)

/-- A frame of `vg_draw_moving_sprite`. -/
def drawFrame (image : Image) (buffer : UInt32) (v : Statics) (frame : UInt16 × UInt16) :
    Run Event Stop Unit := do
  let accesses := vgDrawSprite v.mode image.sprite frame.1 frame.2 1
  access [buffer] (clearBuffer v.mode)
  access [image.address, buffer] accesses
  paint [buffer, v.videoMem] (copyBuffer v.mode accesses)

/-- The call of `vg_draw_moving_sprite`. -/
def drawMovingSprite (image : Image) (a : Move) (v : Statics) : Run Event Stop ℤ := do
  let buffer := p.malloc (UInt32.ofNat v.mode.frameSize)
  match vgDrawMovingSprite v.mode a v.keyboard p.driverReceive with
  | none => Run.stop .divisionByZero
  | some (s, frames) =>
    frames.forM (drawFrame image buffer v)
    if s.keyboard.flagESC then Run.stop .running else return 0

/-! ## The tests -/

/-- The tests differ in the mode, in what they draw and in whether they wait after that. -/
def videoTest (mode : UInt16) (draw : Statics → Run Event Stop ℤ)
    (wait : Statics → Run Event Stop Unit) (v : Statics) : Run Event Stop ℤ := do
  let (prepared, v) ← prepareGraphics p mode v
  if !prepared then return 1
  if !(← setGraphics p mode) then return 1
  if (← draw v) ≠ ok then return 1
  wait v
  if (← vgExit p) ≠ ok then return 1
  return 0

/-- `video_test_rectangle` -/
def videoTestRectangle (mode x y width height : UInt16) (color : UInt32) :
    Statics → Run Event Stop ℤ :=
  videoTest p mode (drawRectangle x y width height color) (kbdScan p)

/-- `video_test_pattern` -/
def videoTestPattern (mode : UInt16) (noRectangles : UInt8) (first : UInt32) (step : UInt8) :
    Statics → Run Event Stop ℤ :=
  videoTest p mode (drawPattern mode noRectangles first step) (kbdScan p)

/-- `video_test_xpm` -/
def videoTestXpm (xpm : List String) (x y : UInt16) : Statics → Run Event Stop ℤ :=
  videoTest p 0x105 (drawSprite (p.xpmLoad xpm) x y) (kbdScan p)

/-- The arguments of `vg_draw_moving_sprite` for an image. -/
def Image.move (image : Image) (xi yi xf yf : UInt16) (speed : Int16) (frRate : UInt8) : Move :=
  ⟨image.width, image.height, xi, yi, xf, yf, speed, frRate⟩

/-- `video_test_move` -/
def videoTestMove (xpm : List String) (xi yi xf yf : UInt16) (speed : Int16) (frRate : UInt8) :
    Statics → Run Event Stop ℤ :=
  let image := p.xpmLoad xpm
  videoTest p 0x105 (drawMovingSprite p image (image.move xi yi xf yf speed frRate))
    fun _ => return ()

/-- The tests and their arguments. -/
inductive VideoTest where
  | rectangle (mode x y width height : UInt16) (color : UInt32)
  | pattern (mode : UInt16) (noRectangles : UInt8) (first : UInt32) (step : UInt8)
  | xpm (xpm : List String) (x y : UInt16)
  | move (xpm : List String) (xi yi xf yf : UInt16) (speed : Int16) (frRate : UInt8)

/-- The mode that a test sets. -/
def VideoTest.mode : VideoTest → UInt16
  | .rectangle mode .. => mode
  | .pattern mode .. => mode
  | .xpm .. => 0x105
  | .move .. => 0x105

/-- A run of a test. -/
def VideoTest.run : VideoTest → Statics → Run Event Stop ℤ
  | .rectangle mode x y width height color => videoTestRectangle p mode x y width height color
  | .pattern mode noRectangles first step => videoTestPattern p mode noRectangles first step
  | .xpm map x y => videoTestXpm p map x y
  | .move map xi yi xf yf speed frRate => videoTestMove p map xi yi xf yf speed frRate

end Functions

end LabComputers.Lab5

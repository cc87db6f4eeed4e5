import LabComputers.Proj.VideoCard

/-!
# The drawing functions of lab 5

`video_card.c` of lab 5, the version the project started from: lines, rectangles, patterns and
sprites.  A function that fills pixels returns its result and the bytes it writes.  Unsigned
arithmetic wraps at 32 bits, and the processor takes shift counts modulo 32.

`vg_draw_sprite` computes the offset of every byte from the two loop counters, where the one of the
project carries a pointer along.  The sprite's data and its `xpm_image_t` are two arguments there;
here they are one `Sprite`.
-/

namespace LabComputers.Lab5

open Raster

/-! ## Lines and rectangles -/

/-- `(color >> (j * 8)) & 0xFF` -/
def colorByte (color : UInt32) (j : ℕ) : UInt8 := ((color >>> UInt32.ofNat (j * 8)) &&& 0xFF).toUInt8

/-- `vg_draw_hline`: the result and the bytes written. -/
def vgDrawHline (m : VideoMode) (x y len : UInt16) (color : UInt32) : ℤ × List (Access UInt8) :=
  if x.toNat > m.hRes ∨ y.toNat > m.vRes then (1, [])
  else
    let start := (y.toNat * m.hRes + x.toNat) * m.bytesPerPixel % 2 ^ 32
    let cols := min m.hRes (x.toNat + len.toNat) - x.toNat
    (0, (scanRow (fillBytes (colorByte color) m.bytesPerPixel) cols m.bytesPerPixel
      ⟨start, 0, []⟩).accesses)

/-- `vg_draw_rectangle`: the result, collected in a `uint8_t`, and the bytes written.  The counter
of the loop does not wrap, because `v_res` is below `2 ^ 16`. -/
def vgDrawRectangle (m : VideoMode) (x y width height : UInt16) (color : UInt32) :
    UInt8 × List (Access UInt8) :=
  let rows := min m.vRes (y.toNat + height.toNat) - y.toNat
  (List.range rows).foldl (fun r i =>
    let line := vgDrawHline m x (UInt16.ofNat (y.toNat + i)) width color
    (r.1 ||| UInt8.ofInt line.1, r.2 ++ line.2)) (0, [])

/-! ## Patterns -/

/-- A colour field of the mode information: `red_mask_size` and `red_field_position`, and the same
for green and blue. -/
structure ColorField where
  maskSize : UInt8
  fieldPosition : UInt8
  deriving DecidableEq, Repr

/-- The colour fields of a mode. -/
structure ColorFields where
  red : ColorField
  green : ColorField
  blue : ColorField
  deriving DecidableEq, Repr

/-- `1 << mask_size` -/
def ColorField.modulus (f : ColorField) : UInt32 := 1 <<< f.maskSize.toUInt32

/-- `getRedBitsFirst`, `getGreenBitsFirst` and `getBlueBitsFirst` -/
def ColorField.bitsFirst (f : ColorField) (first : UInt32) : UInt32 :=
  (f.modulus - 1) &&& (first >>> f.fieldPosition.toUInt32)

/-- `calculateColorPatternIndexed` -/
def calculateColorPatternIndexed (m : VideoMode) (noRectangles : UInt8) (x y first : UInt32)
    (step : UInt8) : UInt32 :=
  (first + (y * noRectangles.toUInt32 + x) * step.toUInt32) %
    (1 <<< UInt32.ofNat (m.bytesPerPixel * 8))

/-- `calculateColorPatternDirect`; the blue bits are not shifted to their field. -/
def calculateColorPatternDirect (fields : ColorFields) (x y first : UInt32) (step : UInt8) :
    UInt32 :=
  let blueBits := (fields.blue.bitsFirst first + (x + y) * step.toUInt32) % fields.blue.modulus
  let greenBits := ((fields.green.bitsFirst first + y * step.toUInt32) % fields.green.modulus) <<<
    fields.green.fieldPosition.toUInt32
  let redBits := ((fields.red.bitsFirst first + x * step.toUInt32) % fields.red.modulus) <<<
    fields.red.fieldPosition.toUInt32
  redBits ||| greenBits ||| blueBits

/-- The colour of a rectangle of the pattern: the two branches of `vg_draw_pattern` differ in it
only. -/
def patternColor (m : VideoMode) (fields : ColorFields) (mode : UInt16) (noRectangles : UInt8)
    (first : UInt32) (step : UInt8) (x y : ℕ) : UInt32 :=
  if mode = 0x105 then
    calculateColorPatternIndexed m noRectangles (UInt32.ofNat x) (UInt32.ofNat y) first step
  else calculateColorPatternDirect fields (UInt32.ofNat x) (UInt32.ofNat y) first step

/-- The body of the loops of `vg_draw_pattern`. -/
def drawTile (m : VideoMode) (w h : ℕ) (color : ℕ → ℕ → UInt32) (x y : ℕ) : List (Access UInt8) :=
  if (x + 1) * w > m.hRes ∨ (y + 1) * h > m.vRes then []
  else (vgDrawRectangle m (UInt16.ofNat (x * w)) (UInt16.ofNat (y * h)) (UInt16.ofNat w)
    (UInt16.ofNat h) (color x y)).2

/-- `vg_draw_pattern`: the result and the bytes written, or `none` if the division by
`no_rectangles` traps.  The results of the rectangles are ignored. -/
def vgDrawPattern (m : VideoMode) (fields : ColorFields) (mode : UInt16) (noRectangles : UInt8)
    (first : UInt32) (step : UInt8) : Option (ℤ × List (Access UInt8)) :=
  if noRectangles = 0 then none
  else
    let n := noRectangles.toNat
    let tile := drawTile m (m.hRes / n) (m.vRes / n)
      (patternColor m fields mode noRectangles first step)
    some (0, (List.range n).flatMap fun y => (List.range n).flatMap fun x => tile x y)

/-! ## Sprites -/

/-- `(i*h_res+j)*bytes_per_pixel + byte` -/
def offset (m : VideoMode) (i j byte : ℕ) : ℕ :=
  ((i * m.hRes + j) * m.bytesPerPixel + byte) % 2 ^ 32

/-- `vg_draw_sprite`: the bytes it reads from the sprite and writes to the buffer. -/
def vgDrawSprite (m : VideoMode) (sprite : Sprite) (x y : UInt16) (bufferNo : UInt8) :
    List (Access UInt8) :=
  if bufferNo = 0 ∨ bufferNo = 1 then
    let rows := min m.vRes ((y.toNat + sprite.height) % 2 ^ 32) - y.toNat
    let cols := min m.hRes ((x.toNat + sprite.width) % 2 ^ 32) - x.toNat
    (plot sprite.byte (fun i j byte => offset m (y.toNat + i) (x.toNat + j) byte) rows cols
      m.bytesPerPixel ⟨0, 0, []⟩).accesses
  else []

end LabComputers.Lab5

import LabComputers.Lib.Raster
import LabComputers.Proj.Mouse

/-!
# The drawing functions of `video_card.c`

One call of `vg_ih` clears the buffer, makes the draws of the current screen and copies the buffer
to the video memory (`Frame`).  A `Draw` is one call of `vg_draw_sprite`, or of the loops that
`vg_draw_crosshair` and `vg_draw_killer_alien` have of their own; `Draw.accesses` are the bytes it
reads from the sprite and writes to the buffer.  Unsigned arithmetic wraps at 32 bits, the `uint16_t`
coordinates at 16.

The sprite tables are indexed without a check; an index past the end of its table finds the
arbitrary sprite `past`.
-/

namespace LabComputers

open CString Raster

/-! ## Copying a sprite -/

/-- The frame of a video mode.  `h_res` and `v_res` are taken from 16-bit fields of the mode
information, so that the `uint16_t` counters below them do not wrap. -/
structure VideoMode where
  hRes : ℕ
  vRes : ℕ
  bytesPerPixel : ℕ
  hRes_lt : hRes < 2 ^ 16
  vRes_lt : vRes < 2 ^ 16

/-- `h_res * v_res * bytes_per_pixel` -/
def VideoMode.frameSize (m : VideoMode) : ℕ := m.hRes * m.vRes * m.bytesPerPixel % 2 ^ 32

/-- `GAME_GRAPHICS_MODE` -/
def gameGraphicsMode : VideoMode := ⟨800, 600, 3, by decide, by decide⟩

/-- The byte at an offset of a sprite's data. -/
def Sprite.byte (sprite : Sprite) (offset : ℕ) : UInt8 := sprite.bytes.getD offset 0

/-- The pixel of `vg_draw_crosshair` and `vg_draw_killer_alien`: black pixels are skipped. -/
def copyVisible (data : ℕ → UInt8) (n : ℕ) (c : Cursor UInt8) : Cursor UInt8 :=
  let reads := c.accesses ++ [.read c.src, .read (c.src + 1), .read (c.src + 2)]
  if data c.src ||| data (c.src + 1) ||| data (c.src + 2) = 0 then
    { c with src := c.src + 3, accesses := reads }
  else copyBytes data n { c with accesses := reads }

/-- A sprite to be copied to `(x, y)`, without its black pixels if `skipBlack`. -/
structure Draw where
  sprite : Sprite
  x : ℕ
  y : ℕ
  bufferNo : UInt8
  skipBlack : Bool

/-- The loops shared by `vg_draw_sprite`, `vg_draw_crosshair` and `vg_draw_killer_alien`.  The
counters start at `x` and `y` as `uint16_t`. -/
def Draw.accesses (m : VideoMode) (d : Draw) : List (Access UInt8) :=
  if d.bufferNo = 0 ∨ d.bufferNo = 1 then
    let rowIncrement := (m.hRes + 2 ^ 32 - d.sprite.width) * m.bytesPerPixel % 2 ^ 32
    let start := (m.hRes * d.y + d.x) * m.bytesPerPixel % 2 ^ 32
    let rows := min m.vRes ((d.y + d.sprite.height) % 2 ^ 32) - d.y % 2 ^ 16
    let cols := min m.hRes ((d.x + d.sprite.width) % 2 ^ 32) - d.x % 2 ^ 16
    let pixel := if d.skipBlack then copyVisible d.sprite.byte m.bytesPerPixel
      else copyBytes d.sprite.byte m.bytesPerPixel
    (scan pixel rows cols m.bytesPerPixel rowIncrement ⟨start, 0, []⟩).accesses
  else []

/-- `vg_draw_sprite` -/
def vgDrawSprite (sprite : Sprite) (x y : UInt16) (bufferNo : UInt8) : Draw :=
  ⟨sprite, x.toNat, y.toNat, bufferNo, false⟩

section Screens

variable (s : Sprites) (past : Sprite) (g : Globals)

/-! ## The parts of a screen -/

/-- `vg_draw_crosshair` -/
def vgDrawCrosshair (bufferNo : UInt8) : Draw where
  sprite := s.crosshair
  x := (UInt16.ofInt (g.mouseX.toInt - g.crosshairHalfWidth.toInt)).toNat
  y := (UInt16.ofInt (g.mouseY.toInt - g.crosshairHalfHeight.toInt)).toNat
  bufferNo := bufferNo
  skipBlack := true

/-- `vg_draw_killer_alien` -/
def vgDrawKillerAlien : Draw where
  sprite := s.killerAlienSprites.getD g.killerAlien.state past
  x := (g.killerAlien.x * alienWidth + alienHorizontalMargin + gameHorizontalMargin) % 2 ^ 32
  y := (g.killerAlien.y * alienHeight + alienVerticalMargin + gameVerticalMargin) % 2 ^ 32
  bufferNo := 1
  skipBlack := true

/-- `vg_draw_aliens` -/
def vgDrawAliens : List Draw :=
  cells.flatMap fun (i, j) =>
    let state := (g.gameMatrix i j).state
    let x := gameHorizontalMargin + j * alienWidth
    let y := gameVerticalMargin + i * alienHeight
    if state = AlienState.empty then []
    else [vgDrawSprite (s.alienSprites.getD state past) (UInt16.ofNat (x + alienHorizontalMargin))
      (UInt16.ofNat (y + alienVerticalMargin)) 1]

/-- `numbers_sprites[d]` -/
def numberSprite (d : ℕ) : Sprite := s.numbersSprites.getD d past

/-- `x -= numbers_sprites[d].info.width + POINTS_BETWEEN_MARGIN` -/
def leftOf (d : ℕ) (x : UInt16) : UInt16 :=
  x - UInt16.ofNat ((numberSprite s past d).width + pointsBetweenMargin)

/-- The loop over the digits of `n`, from the last one leftwards: the draws, the `x` after them and
their number. -/
def drawDigits (y : UInt16) (n : ℕ) (x : UInt16) : List Draw × UInt16 × ℕ :=
  if n = 0 then ([], x, 0)
  else
    let rest := drawDigits y (n / 10) (leftOf s past (n % 10) x)
    (vgDrawSprite (numberSprite s past (n % 10)) x y 1 :: rest.1, rest.2.1, rest.2.2 + 1)
termination_by n

/-- `vg_draw_points` -/
def vgDrawPoints : List Draw :=
  let x := UInt16.ofNat pointsWidthMargin
  let y := UInt16.ofNat pointsHeightMargin
  if g.points = 0 then [vgDrawSprite (numberSprite s past 0) x y 1]
  else (drawDigits s past y g.points.toNat x).1

/-- The minutes or the hours of `vg_draw_time_info`, with leading zeros, and the `x` after them. -/
def drawTimeField (y : UInt16) (value : UInt8) (x : UInt16) : List Draw × UInt16 :=
  let (digits, x, n) := drawDigits s past y value.toNat x
  let zero (x : UInt16) : Draw := vgDrawSprite (numberSprite s past 0) x y 1
  let next := leftOf s past 0 x
  if n = 1 then (digits ++ [zero x], next)
  else if n = 0 then (digits ++ [zero x, zero next], leftOf s past 0 next)
  else (digits, x)

/-- `vg_draw_time_info` -/
def vgDrawTimeInfo : List Draw :=
  let y := UInt16.ofNat (pointsHeightMargin + 8)
  let minutes := drawTimeField s past y g.minutes (UInt16.ofNat pointsWidthMargin)
  let x := minutes.2
  let hours := drawTimeField s past y g.hours (leftOf s past 1 x)
  minutes.1 ++ vgDrawSprite (s.symbSprites.getD 2 past) (x + 8) (y + 6 + 8) 1 :: hours.1

/-- A call of `vg_draw_sprite` with `int` coordinates. -/
def drawAt (sprite : Sprite) (x y : ℤ) : Draw :=
  vgDrawSprite sprite (UInt16.ofInt x) (UInt16.ofInt y) 1

/-- The draws of the `switch` of `vg_draw_str`. -/
def drawChar (c : UInt8) (x y : ℤ) : List Draw :=
  if 'A'.toUInt8 ≤ c ∧ c ≤ 'Z'.toUInt8 then
    [drawAt (s.lettersSprites.getD (c - 'A'.toUInt8).toNat past) x y]
  else if '0'.toUInt8 ≤ c ∧ c ≤ '9'.toUInt8 then
    [drawAt (s.numbersSprites.getD (c - '0'.toUInt8).toNat past) x y]
  else if c = '-'.toUInt8 then [drawAt (s.symbSprites.getD 0 past) x y]
  else if c = '/'.toUInt8 then [drawAt (s.symbSprites.getD 1 past) x y]
  else if c = ':'.toUInt8 then [drawAt (s.symbSprites.getD 2 past) (x + 8) (y + 8)]
  else []

/-- `letters_sprites[0]` -/
def letterA : Sprite := s.lettersSprites.getD 0 past

/-- The loop of `vg_draw_str` over the characters that are left. -/
def drawChars (x0 : ℤ) : List UInt8 → ℤ → ℤ → List Draw
  | [], _, _ => []
  | c :: cs, x, y =>
    let w : ℤ := (letterA s past).width
    let h : ℤ := (letterA s past).height
    drawChar s past c x y ++
      if c = ' '.toUInt8 then drawChars x0 cs (x - (w - 20) + w) y
      else if c = 10 then drawChars x0 cs (x0 - w + w) (y + h)
      else drawChars x0 cs (x + w) y

/-- `vg_draw_str` -/
def vgDrawStr (text : List UInt8) (x0 y0 : ℤ) : List Draw :=
  drawChars s past x0 (str text) x0 y0

/-- `vg_draw_play_button` -/
def vgDrawPlayButton : Draw :=
  let k := if outsideButton g playButtonXi playButtonYi playButtonXf playButtonYf then 1 else 0
  vgDrawSprite (s.playButton.getD k past) (UInt16.ofNat playButtonXi) (UInt16.ofNat playButtonYi) 1

/-- `vg_draw_exit_button` -/
def vgDrawExitButton : Draw :=
  let k := if outsideButton g exitButtonXi exitButtonYi exitButtonXf exitButtonYf then 1 else 0
  vgDrawSprite (s.exitButton.getD k past) (UInt16.ofNat exitButtonXi) (UInt16.ofNat exitButtonYi) 1

/-- `vg_draw_game_name` -/
def vgDrawGameName : Draw :=
  vgDrawSprite s.gameName (UInt16.ofNat gameNameX) (UInt16.ofNat gameNameY) 1

/-! ## The screens -/

/-- `vg_draw_game` -/
def vgDrawGame : List Draw :=
  vgDrawAliens s past g ++ vgDrawPoints s past g ++ [vgDrawCrosshair s g 1]

/-- `vg_draw_menu` -/
def vgDrawMenu : List Draw :=
  [vgDrawGameName s, vgDrawPlayButton s past g, vgDrawExitButton s past g] ++
    vgDrawTimeInfo s past g ++ [vgDrawCrosshair s g 1]

/-- `vg_draw_game_over` -/
def vgDrawGameOver : List Draw :=
  (if g.gameOverCounter < gameOverWait - 30 then
    [vgDrawSprite s.gameOver (UInt16.ofNat gameOverX) (UInt16.ofNat gameOverY) 1]
  else vgDrawAliens s past g) ++ [vgDrawKillerAlien s past g, vgDrawCrosshair s g 1]

/-- `vg_draw_paused` -/
def vgDrawPaused : List Draw :=
  [vgDrawSprite s.paused (UInt16.ofNat pausedX) (UInt16.ofNat pausedY) 1]

/-- `vg_draw_input_screen` -/
def vgDrawInputScreen : List Draw :=
  vgDrawStr s past g.inputMessage 100 100 ++
    (if g.name.getD 0 0 ≠ 0 then
      vgDrawStr s past g.name (8 * (letterA s past).width + 96) ((letterA s past).height + 100)
    else []) ++ [vgDrawCrosshair s g 1]

/-- `vg_draw_leadeboard` -/
def vgDrawLeadeboard : List Draw :=
  [vgDrawSprite (s.lbCorners.getD 0 past) 1 1 1, vgDrawSprite (s.lbCorners.getD 1 past) 702 1 1,
    vgDrawSprite (s.lbCorners.getD 2 past) 702 502 1,
    vgDrawSprite (s.lbCorners.getD 3 past) 1 502 1] ++
  vgDrawStr s past (getLeaderBoard g.lb) 230 30 ++
  vgDrawStr s past (ascii "PRESS ENTER TO CONTINUE") 50 (100 + 12 * (letterA s past).height) ++
  [vgDrawCrosshair s g 1]

/-- What one call of `vg_ih` does: the bytes of the buffer it clears, the draws, and the bytes of
the buffer it copies to the video memory. -/
structure Frame where
  cleared : ℕ
  draws : List Draw
  copied : ℕ

/-- `vg_ih` -/
def vgIh (m : VideoMode) : Frame where
  cleared := m.frameSize
  draws :=
    match g.gameState with
    | .playing => vgDrawGame s past g
    | .menu => vgDrawMenu s past g
    | .gameOver => vgDrawGameOver s past g
    | .pause => vgDrawPaused s
    | .lbInput => vgDrawInputScreen s past g
    | .leaderboard => vgDrawLeadeboard s past g
    | .exit => []
  copied := m.frameSize

end Screens

end LabComputers

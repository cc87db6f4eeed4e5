import LabComputers.Proj.Globals

/-!
# Pixmaps and the positions derived from them

The pixmaps of `sprites/`, with the sizes in their headers, and what `vg_load_sprites` makes of
them: the sprite tables, and the positions of the buttons and titles.  `xpm_load` is not part of
the repository; `XpmLoader` is its documented behaviour, a block of `width * height * 3` bytes for
the format `XPM_8_8_8` together with the width and height of the pixmap.
-/

namespace LabComputers

/-- The pixmaps loaded by `vg_load_sprites`. -/
inductive Xpm where
  | alienAppearing
  | alienAlive
  | alienDead (k : Fin 5)
  | alienKill (k : Fin 3)
  | crosshair
  | number (d : Fin 10)
  | letter (l : Fin 26)
  | dash
  | slash
  | twoPoints
  | lbc (k : Fin 4)
  | playButtonPressed
  | playButtonUnpressed
  | exitButtonPressed
  | exitButtonUnpressed
  | gameOver
  | gameName
  | paused
  deriving DecidableEq, Repr

namespace Xpm

/-- The number of columns in the header of a pixmap. -/
def width : Xpm → ℕ
  | alienAppearing | alienAlive | alienDead _ | alienKill _ | crosshair => 64
  | number _ | letter _ | dash | slash => 32
  | twoPoints => 16
  | lbc _ => 96
  | playButtonPressed | playButtonUnpressed | exitButtonPressed | exitButtonUnpressed => 256
  | gameOver => 512
  | gameName | paused => 768

/-- The number of rows in the header of a pixmap. -/
def height : Xpm → ℕ
  | alienAppearing | alienAlive | alienDead _ | alienKill _ | crosshair => 64
  | number _ | letter _ | dash | slash => 32
  | twoPoints => 16
  | lbc _ => 96
  | playButtonPressed | playButtonUnpressed | exitButtonPressed | exitButtonUnpressed => 64
  | gameOver => 256
  | gameName | paused => 128

end Xpm

/-- `struct SPRITE`: the bytes at `ptr` and the fields of `info` that are used. -/
structure Sprite where
  bytes : List UInt8
  width : ℕ
  height : ℕ

/-- The documented result of `xpm_load` on the pixmaps of the repository. -/
structure XpmLoader where
  load : Xpm → Sprite
  width_load : ∀ x, (load x).width = x.width
  height_load : ∀ x, (load x).height = x.height
  length_bytes : ∀ x, (load x).bytes.length = x.width * x.height * 3

/-- The sprite tables of `video_card.c`. -/
structure Sprites where
  alienSprites : List Sprite
  killerAlienSprites : List Sprite
  numbersSprites : List Sprite
  lettersSprites : List Sprite
  symbSprites : List Sprite
  lbCorners : List Sprite
  playButton : List Sprite
  exitButton : List Sprite
  crosshair : Sprite
  gameOver : Sprite
  gameName : Sprite
  paused : Sprite

/-- `vg_load_sprites`: the tables.  The source swaps the names of the appearing and the living alien
twice, so that `alien_sprites` is in the order of the states. -/
def vgLoadSprites (xpm : XpmLoader) : Sprites where
  alienSprites := [xpm.load .alienAppearing, xpm.load .alienAlive, xpm.load (.alienDead 0),
    xpm.load (.alienDead 1), xpm.load (.alienDead 2), xpm.load (.alienDead 3),
    xpm.load (.alienDead 4)]
  killerAlienSprites := [xpm.load (.alienKill 0), xpm.load (.alienKill 1), xpm.load (.alienKill 2),
    xpm.load .alienAlive]
  numbersSprites := List.ofFn fun d => xpm.load (.number d)
  lettersSprites := List.ofFn fun l => xpm.load (.letter l)
  symbSprites := [xpm.load .dash, xpm.load .slash, xpm.load .twoPoints]
  lbCorners := List.ofFn fun k => xpm.load (.lbc k)
  playButton := [xpm.load .playButtonPressed, xpm.load .playButtonUnpressed]
  exitButton := [xpm.load .exitButtonPressed, xpm.load .exitButtonUnpressed]
  crosshair := xpm.load .crosshair
  gameOver := xpm.load .gameOver
  gameName := xpm.load .gameName
  paused := xpm.load .paused

/-! ## Positions -/

@[simp] def playButtonXi : ℕ := gameWidth / 2 - Xpm.playButtonPressed.width / 2
@[simp] def playButtonYi : ℕ := gameHeight / 2 + buttonMarginTop - Xpm.playButtonPressed.height / 2
@[simp] def playButtonXf : ℕ := gameWidth / 2 + Xpm.playButtonPressed.width / 2
@[simp] def playButtonYf : ℕ := gameHeight / 2 + buttonMarginTop + Xpm.playButtonPressed.height / 2
@[simp] def exitButtonXi : ℕ := gameWidth / 2 - Xpm.exitButtonPressed.width / 2
@[simp] def exitButtonYi : ℕ :=
  gameHeight / 2 + buttonMarginTop * 2 - Xpm.exitButtonPressed.height / 2
@[simp] def exitButtonXf : ℕ := gameWidth / 2 + Xpm.exitButtonPressed.width / 2
@[simp] def exitButtonYf : ℕ :=
  gameHeight / 2 + buttonMarginTop * 2 + Xpm.exitButtonPressed.height / 2
@[simp] def gameOverX : ℕ := gameWidth / 2 - Xpm.gameOver.width / 2
@[simp] def gameOverY : ℕ := gameHeight / 2 - Xpm.gameOver.height / 2
@[simp] def gameNameX : ℕ := gameWidth / 2 - Xpm.gameName.width / 2
@[simp] def gameNameY : ℕ := gameMarginTop
@[simp] def pausedX : ℕ := gameWidth / 2 - Xpm.paused.width / 2
@[simp] def pausedY : ℕ := gameHeight / 2 - Xpm.paused.height / 2

end LabComputers

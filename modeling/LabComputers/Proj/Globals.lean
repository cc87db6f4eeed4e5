import Mathlib.Data.Fintype.Pi
import Mathlib.Data.Fintype.Prod
import LabComputers.Lib.CString

/-!
# The state of the game

The constants and types of `game.h`, `leaderboard.h` and `mouse.h`, and `Globals`: every global
variable that `game.c`, `mouse.c`, `keyboard.c`, `leaderboard.c` and `rtc.c` share.  Unsigned
counters, coordinates and bytes have the fixed widths of the source.

`enum ALIEN_STATE` is advanced by an unguarded `state++`, so an alien's state is a number and not
an element of an eight-valued type; that it never passes `empty` is a theorem.  `time` is only
decremented when it is positive and is a natural number.

`Globals.calls` is not a variable of the program.  It records the calls that statements about
whole runs speak of, the latest first; no function reads it.
-/

namespace LabComputers

/-! ## Layout and gameplay macros -/

@[simp] def gameWidth : ℕ := 800
@[simp] def gameHeight : ℕ := 600
@[simp] def gameHorizontalMargin : ℕ := 15
@[simp] def gameVerticalMargin : ℕ := 95
@[simp] def alienWidth : ℕ := 70
@[simp] def alienHeight : ℕ := 70
@[simp] def alienHorizontalMargin : ℕ := 3
@[simp] def alienVerticalMargin : ℕ := 3
@[simp] def crosshairWidth : ℕ := 64
@[simp] def crosshairHeight : ℕ := 64
@[simp] def pointsWidthMargin : ℕ := 700
@[simp] def pointsHeightMargin : ℕ := 32
@[simp] def pointsBetweenMargin : ℕ := 5
@[simp] def buttonMarginTop : ℕ := 100
@[simp] def gameMarginTop : ℕ := 150

@[simp] def alienInitSpawnTime : UInt32 := 70
@[simp] def alienSpawnRateIncrease : UInt32 := 5
@[simp] def alienRandomSpawnAttempts : ℕ := 2
@[simp] def alienMaxSpawnRate : UInt32 := 20
@[simp] def gameOverWait : UInt32 := 120

/-- `GAME_FRAME_RATE` divides the timer's 60 interrupts per second. -/
@[simp] def gameFrameRate : UInt32 := 30
@[simp] def frameNumber : UInt32 := 60 / gameFrameRate

/-- A row of the alien matrix; there are `GAME_HEIGHT_MATRIX` of them. -/
abbrev Row := Fin 7

/-- A column of the alien matrix; there are `GAME_WIDTH_MATRIX` of them. -/
abbrev Col := Fin 11

instance neZeroRows : @NeZero ℕ Zero.ofOfNat0 7 := ⟨by decide⟩
instance neZeroCols : @NeZero ℕ Zero.ofOfNat0 11 := ⟨by decide⟩

/-- The leaderboard has ten entries. -/
instance neZeroEntries : @NeZero ℕ Zero.ofOfNat0 10 := ⟨by decide⟩

/-- A cell of the alien matrix. -/
abbrev Cell := Row × Col

/-! ## Data types -/

/-- `enum GAME_STATE` -/
inductive GameState where
  | playing
  | pause
  | menu
  | gameOver
  | exit
  | leaderboard
  | lbInput
  deriving DecidableEq, Repr

namespace AlienState

@[simp] def appearing : ℕ := 0
@[simp] def alive : ℕ := 1
@[simp] def dead1 : ℕ := 2
@[simp] def dead5 : ℕ := 6
@[simp] def empty : ℕ := 7

end AlienState

/-- `struct ALIEN` -/
@[ext] structure Alien where
  state : ℕ
  time : ℕ
  deriving DecidableEq, Repr

/-- The array `alien_times`, indexed by the alien's state. -/
def alienTimes : List ℕ := [5, 300, 2, 2, 2, 2, 2, 0]

/-- `alien_times[state]` -/
def alienTime (state : ℕ) : ℕ := alienTimes.getD state 0

/-- `struct KILLER_ALIEN` -/
@[ext] structure KillerAlien where
  state : ℕ
  x : ℕ
  y : ℕ
  deriving DecidableEq, Repr

/-- `struct leaderboard` -/
@[ext] structure Leaderboard where
  names : Fin 10 → List UInt8
  scores : Fin 10 → UInt8
  deriving DecidableEq

/-- The all-zero leaderboard. -/
def Leaderboard.zero : Leaderboard := ⟨fun _ => CString.zeros 7, fun _ => 0⟩

/-- `struct MOUSE_EVENT` -/
@[ext] structure MouseEvent where
  moveX : Int16
  moveY : Int16
  lbdown : Bool
  overflow : Bool
  deriving DecidableEq

/-- The calls that are recorded. -/
inductive Call where
  | gameInitialize
  | gameStep
  | spawn (i : Row) (j : Col)
  | hit (i : Row) (j : Col)
  | mouseEventHandler (event : MouseEvent)
  | mouseCheckKill
  | mouseCheckPlayButton
  | mouseCheckExitButton
  | addScore (score : ℤ) (name : List UInt8) (lb : Leaderboard)
  deriving DecidableEq

/-- The global variables. -/
@[ext] structure Globals where
  gameState : GameState
  gameMatrix : Row → Col → Alien
  points : UInt32
  gameOverCounter : UInt32
  killerAlien : KillerAlien
  frameCounter : UInt32
  randomAlienCounter : UInt32
  randomAlienNumber : UInt32
  randomAlienSpawnRateIncrease : UInt32
  mouseX : Int16
  mouseY : Int16
  crosshairHalfWidth : Int16
  crosshairHalfHeight : Int16
  crosshairWidthBorder : Int16
  crosshairHeightBorder : Int16
  name : List UInt8
  inputMessage : List UInt8
  lb : Leaderboard
  minutes : UInt8
  hours : UInt8
  nbytes : ℕ
  arr : List UInt8
  buttonWasRaised : Bool
  flagESC : Bool
  flag2Bytes : Bool
  calls : List Call

/-- The values of the global variables when the program starts. -/
def Globals.atStart : Globals where
  gameState := .playing
  gameMatrix := fun _ _ => ⟨0, 0⟩
  points := 0
  gameOverCounter := 0
  killerAlien := ⟨0, 0, 0⟩
  frameCounter := 0
  randomAlienCounter := 0
  randomAlienNumber := 0
  randomAlienSpawnRateIncrease := 0
  mouseX := 0
  mouseY := 0
  crosshairHalfWidth := 0
  crosshairHalfHeight := 0
  crosshairWidthBorder := 0
  crosshairHeightBorder := 0
  name := CString.zeros 7
  inputMessage := CString.zeros 100
  lb := .zero
  minutes := 0
  hours := 0
  nbytes := 0
  arr := CString.zeros 3
  buttonWasRaised := true
  flagESC := false
  flag2Bytes := false
  calls := []

namespace Globals

/-- Record a call. -/
def record (g : Globals) (c : Call) : Globals := { g with calls := c :: g.calls }

/-- Store an alien in a cell of the matrix. -/
def setAlien (g : Globals) (i : Row) (j : Col) (a : Alien) : Globals :=
  { g with gameMatrix := fun i' j' => if i' = i ∧ j' = j then a else g.gameMatrix i' j' }

end Globals

/-- The calls since the last `game_initialize`, the latest first. -/
def sinceInit : List Call → List Call
  | [] => []
  | .gameInitialize :: _ => []
  | c :: cs => c :: sinceInit cs

end LabComputers

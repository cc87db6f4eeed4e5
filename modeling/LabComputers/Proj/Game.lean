import LabComputers.Proj.Leaderboard

/-!
# `game.c`

The game model: one function for each function of the source, from the state before the call to
the state after it.  `rand()` is a stream of results, of which each call of
`game_generate_new_alien` uses the first ones.
-/

namespace LabComputers

open CString

/-- `game_reset` -/
def gameReset (g : Globals) : Globals :=
  { g with gameMatrix := fun _ _ => ⟨AlienState.empty, 0⟩ }

/-- `game_initialize` -/
def gameInitialize (g : Globals) : Globals :=
  gameReset { g with
    gameState := .menu
    points := 0
    gameOverCounter := 0
    mouseX := Int16.ofNat (gameWidth / 2)
    mouseY := Int16.ofNat (gameHeight / 2)
    crosshairHalfWidth := Int16.ofNat (crosshairWidth / 2)
    crosshairHalfHeight := Int16.ofNat (crosshairHeight / 2)
    crosshairWidthBorder := Int16.ofNat (gameWidth - crosshairWidth / 2)
    crosshairHeightBorder := Int16.ofNat (gameHeight - crosshairHeight / 2)
    randomAlienCounter := 0
    randomAlienNumber := alienInitSpawnTime
    randomAlienSpawnRateIncrease := alienSpawnRateIncrease
    calls := .gameInitialize :: g.calls }

/-- `kill_other_aliens` -/
def killOtherAliens (g : Globals) : Globals :=
  { g with gameMatrix := fun i j =>
      let alien := g.gameMatrix i j
      if alien.state = AlienState.empty ∨ (g.killerAlien.x = j ∧ g.killerAlien.y = i) then alien
      else ⟨AlienState.dead1, 2⟩ }

/-- The cells in the order of the two nested loops over the matrix. -/
def cells : List Cell :=
  (List.finRange 7).flatMap fun i => (List.finRange 11).map fun j => (i, j)

/-- The loops of `game_update_alien_times` over the cells that are left. -/
def updateAlienTimes (g : Globals) : List Cell → Globals
  | [] => g
  | (i, j) :: rest =>
    let alien := g.gameMatrix i j
    if alien.state = AlienState.empty then updateAlienTimes g rest
    else if g.gameState = .gameOver then
      if g.killerAlien.x = j ∧ g.killerAlien.y = i then updateAlienTimes g rest
      else if alien.time > 0 then
        updateAlienTimes (g.setAlien i j ⟨alien.state, alien.time - 1⟩) rest
      else updateAlienTimes (g.setAlien i j ⟨alien.state + 1, 2⟩) rest
    else if alien.state = AlienState.alive ∧ alien.time = 0 then
      killOtherAliens { g with
        gameOverCounter := gameOverWait
        gameState := .gameOver
        killerAlien := ⟨0, j, i⟩ }
    else if alien.time > 0 then
      updateAlienTimes (g.setAlien i j ⟨alien.state, alien.time - 1⟩) rest
    else
      updateAlienTimes (g.setAlien i j ⟨alien.state + 1, alienTime (alien.state + 1)⟩) rest

/-- `game_update_alien_times` -/
def gameUpdateAlienTimes (g : Globals) : Globals := updateAlienTimes g cells

/-- The attempts of `game_generate_new_alien` to find an empty cell, from result `k` of `rand()`
on. -/
def spawnAttempts (rand : ℕ → ℕ) (g : Globals) : ℕ → ℕ → Globals
  | 0, _ => g
  | attempts + 1, k =>
    let j : Col := Fin.ofNat 11 (rand k)
    let i : Row := Fin.ofNat 7 (rand (k + 1))
    if (g.gameMatrix i j).state = AlienState.empty then
      (g.setAlien i j ⟨AlienState.appearing, alienTime AlienState.appearing⟩).record (.spawn i j)
    else spawnAttempts rand g attempts (k + 2)

/-- `game_generate_new_alien` -/
def gameGenerateNewAlien (rand : ℕ → ℕ) (g : Globals) : Globals :=
  if g.randomAlienCounter < g.randomAlienNumber then
    { g with randomAlienCounter := g.randomAlienCounter + 1 }
  else
    let g := { g with randomAlienCounter := 0 }
    let g :=
      if g.randomAlienSpawnRateIncrease > g.randomAlienNumber then
        { g with randomAlienNumber := alienMaxSpawnRate, randomAlienSpawnRateIncrease := 0 }
      else g
    let g := { g with randomAlienNumber := g.randomAlienNumber - g.randomAlienSpawnRateIncrease }
    spawnAttempts rand g alienRandomSpawnAttempts 0

/-- `game_step` -/
def gameStep (rand : ℕ → ℕ) (g : Globals) : Globals :=
  gameGenerateNewAlien rand (gameUpdateAlienTimes (g.record .gameStep))

/-- The text that `game_leaderboard` builds in `input_message`.  The numeral goes through the
four bytes of `sc`, which nothing guards; the text is the one of a numeral that fits. -/
def scoreMessage (points : UInt32) (submitted : Bool) : List UInt8 :=
  let message := strcpy (zeros 100) (ascii "SCORE:   ")
  let message := strcat message (printD (toInt points))
  if submitted then strcat message (ascii "\nNAME:   \n\nTYPE AND PRESS ENTER") else message

/-- `game_leaderboard` -/
def gameLeaderboard (g : Globals) : Globals :=
  let submitted := compareScore (toInt g.points) g.lb
  { g with
    name := zeros 7
    inputMessage := scoreMessage g.points submitted
    gameState := if submitted then .lbInput else .leaderboard }

/-- `game_save_and_display_lb`; the byte after the leaderboard in memory is irrelevant
(`addScore_past`). -/
def gameSaveAndDisplayLb (g : Globals) : Globals :=
  { g with
    lb := addScore 0 (toInt g.points) g.name g.lb
    gameState := .leaderboard
    calls := .addScore (toInt g.points) g.name g.lb :: g.calls }

/-- `game_ih` -/
def gameIh (rand : ℕ → ℕ) (g : Globals) : Globals :=
  match g.gameState with
  | .playing => gameStep rand g
  | .gameOver =>
    let g := gameUpdateAlienTimes g
    let g := { g with gameOverCounter := g.gameOverCounter - 1 }
    let g := { g with killerAlien.state := (g.gameOverCounter / 5 % 4).toNat }
    if g.gameOverCounter = 0 then gameLeaderboard g else g
  | _ => g

end LabComputers

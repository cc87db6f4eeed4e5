import LabComputers.Proj.GameLoopProof

/-!
# What the event handlers do, case by case

One lemma for each handler lists everything it can do to the state, guards included; the invariants
are case analyses over these lists and never unfold a handler.
-/

namespace LabComputers

open CString

/-! ## `mouse_event_handler` -/

/-- Or-ing `0xFF00` into a movement byte subtracts 256 from it. -/
theorem toInt_signed (byte : UInt8) (negative : Bool) :
    (signed byte negative).toInt = byte.toNat - if negative then 256 else 0 := by
  have table : ∀ (b : Fin 256) (negative : Bool),
      (signed (UInt8.ofFin b) negative).toInt = (b : ℕ) - if negative then 256 else 0 := by
    decide +kernel
  exact table byte.toFin negative

/-- The state after `mouse_event_handler` has moved the pointer and noticed a raised button. -/
def moved (event : MouseEvent) (g : Globals) : Globals :=
  { movePointer event g with
    buttonWasRaised := g.buttonWasRaised || !event.lbdown
    calls := .mouseEventHandler event :: g.calls }

/-- The alien is `APPEARING` or `ALIVE`. -/
def Alien.Live (a : Alien) : Prop := a.state = AlienState.alive ∨ a.state = AlienState.appearing

instance (a : Alien) : Decidable a.Live := inferInstanceAs (Decidable (_ ∨ _))

theorem Alien.not_live_of_empty {a : Alien} (vacant : a.state = AlienState.empty) : ¬ a.Live := by
  rintro (live | live) <;> rw [vacant] at live <;> cases live

/-- The state after `mouse_check_kill` has hit the alien in cell `c`. -/
def Globals.hitAt (g : Globals) (c : Cell) : Globals :=
  ({ g with points := g.points + 1 }.setAlien c.1 c.2 ⟨AlienState.dead1, 2⟩).record (.hit c.1 c.2)

/-- The cell that a click hits, if it hits an alien. -/
def struckCell (mouseX mouseY : Int16) (m : Row → Col → Alien) : Option Cell :=
  let x := (mouseX.toInt - gameHorizontalMargin).tdiv alienWidth
  let y := (mouseY.toInt - gameVerticalMargin).tdiv alienHeight
  let c : Cell := (Fin.ofNat 7 y.toNat, Fin.ofNat 11 x.toNat)
  if (x ≥ 11 ∨ x < 0) ∨ (y ≥ 7 ∨ y < 0) then none else if (m c.1 c.2).Live then some c else none

theorem struckCell_live {mouseX mouseY : Int16} {m : Row → Col → Alien} {c : Cell}
    (h : struckCell mouseX mouseY m = some c) : (m c.1 c.2).Live := by
  unfold struckCell at h
  simp only at h
  split_ifs at h with _ live
  obtain rfl := Option.some.inj h
  exact live

theorem mouseCheckKill_eq (g : Globals) :
    mouseCheckKill g =
      match struckCell g.mouseX g.mouseY g.gameMatrix with
      | none => g.record .mouseCheckKill
      | some c => (g.record .mouseCheckKill).hitAt c := by
  unfold mouseCheckKill struckCell
  simp only
  by_cases x : (g.mouseX.toInt - gameHorizontalMargin).tdiv alienWidth ≥ 11 ∨
      (g.mouseX.toInt - gameHorizontalMargin).tdiv alienWidth < 0
  · rw [if_pos x, if_pos (Or.inl x)]
  · by_cases y : (g.mouseY.toInt - gameVerticalMargin).tdiv alienHeight ≥ 7 ∨
        (g.mouseY.toInt - gameVerticalMargin).tdiv alienHeight < 0
    · rw [if_neg x, if_pos y, if_pos (Or.inr y)]
    · have inside : ¬ (((g.mouseX.toInt - gameHorizontalMargin).tdiv alienWidth ≥ 11 ∨
          (g.mouseX.toInt - gameHorizontalMargin).tdiv alienWidth < 0) ∨
          (g.mouseY.toInt - gameVerticalMargin).tdiv alienHeight ≥ 7 ∨
          (g.mouseY.toInt - gameVerticalMargin).tdiv alienHeight < 0) := fun h => h.elim x y
      rw [if_neg x, if_neg y, if_neg inside]
      change (if (g.gameMatrix _ _).state = AlienState.empty then _
        else if (g.gameMatrix _ _).Live then _ else _) = _
      split_ifs with vacant live
      · exact absurd live (Alien.not_live_of_empty vacant)
      · rfl
      · rfl
      · rfl

theorem mouseCheckKill_cases (g : Globals) :
    mouseCheckKill g = g.record .mouseCheckKill ∨
      ∃ c : Cell, (g.gameMatrix c.1 c.2).Live ∧
        mouseCheckKill g = (g.record .mouseCheckKill).hitAt c := by
  rw [mouseCheckKill_eq]
  cases struck : struckCell g.mouseX g.mouseY g.gameMatrix with
  | none => exact Or.inl rfl
  | some c => exact Or.inr ⟨c, struckCell_live struck, rfl⟩

/-- The state that the two button checks leave: `st` is the new game state. -/
def Globals.pressedIn (g : Globals) (st : GameState) : Globals :=
  { g with
    gameState := st
    calls := .mouseCheckExitButton :: .mouseCheckPlayButton :: g.calls }

theorem mouseCheckButtons_cases (g : Globals) :
    ∃ st, (st = g.gameState ∨ st = .playing ∨ st = .exit) ∧
      mouseCheckExitButton (mouseCheckPlayButton g) = g.pressedIn st := by
  unfold mouseCheckExitButton mouseCheckPlayButton
  simp only
  split_ifs
  · exact ⟨_, Or.inl rfl, rfl⟩
  · exact ⟨_, Or.inr (Or.inr rfl), rfl⟩
  · exact ⟨_, Or.inr (Or.inl rfl), rfl⟩
  · exact ⟨_, Or.inr (Or.inr rfl), rfl⟩

/-- `mouse_event_handler` in one equation: only a fresh press of the left button does more than move
the pointer. -/
theorem mouseEventHandler_eq (event : MouseEvent) (g : Globals) :
    mouseEventHandler event g =
      if event.overflow = true then g.record (.mouseEventHandler event)
      else if event.lbdown = true ∧ g.buttonWasRaised = true then
        match g.gameState with
        | .playing => { mouseCheckKill (moved event g) with buttonWasRaised := false }
        | .menu =>
          { mouseCheckExitButton (mouseCheckPlayButton (moved event g)) with
            buttonWasRaised := false }
        | _ => moved event g
      else moved event g := by
  have noticed : ∀ g' : Globals, g' = (g.record (.mouseEventHandler event)) →
      (if !event.lbdown then { movePointer event g' with buttonWasRaised := true }
        else movePointer event g') = moved event g := by
    rintro _ rfl
    cases down : event.lbdown <;> simp [moved, movePointer, Globals.record, down]
  unfold mouseEventHandler
  by_cases overflow : event.overflow = true
  · rw [if_pos overflow, if_pos overflow]
  · rw [if_neg overflow, if_neg overflow]
    simp only
    rw [noticed _ rfl]
    have press : (event.lbdown && (moved event g).buttonWasRaised) = true ↔
        event.lbdown = true ∧ g.buttonWasRaised = true := by
      cases down : event.lbdown <;> simp [moved, down]
    simp only [press]
    split_ifs
    · rfl
    · cases state : g.gameState <;>
        simp only [show (moved event g).gameState = g.gameState from rfl, state]

theorem mouseEventHandler_up {event : MouseEvent} (clear : event.overflow = false)
    (up : event.lbdown = false) (g : Globals) : mouseEventHandler event g = moved event g := by
  rw [mouseEventHandler_eq, if_neg (by simp [clear]), if_neg (by simp [up])]

theorem mouseEventHandler_playing {event : MouseEvent} (clear : event.overflow = false)
    (down : event.lbdown = true) {g : Globals} (raised : g.buttonWasRaised = true)
    (running : g.gameState = .playing) :
    mouseEventHandler event g =
      { mouseCheckKill (moved event g) with buttonWasRaised := false } := by
  rw [mouseEventHandler_eq, if_neg (by simp [clear]), if_pos ⟨down, raised⟩, running]

theorem mouseEventHandler_menu {event : MouseEvent} (clear : event.overflow = false)
    (down : event.lbdown = true) {g : Globals} (raised : g.buttonWasRaised = true)
    (menu : g.gameState = .menu) :
    mouseEventHandler event g =
      { mouseCheckExitButton (mouseCheckPlayButton (moved event g)) with
        buttonWasRaised := false } := by
  rw [mouseEventHandler_eq, if_neg (by simp [clear]), if_pos ⟨down, raised⟩, menu]

theorem mouseEventHandler_cases (event : MouseEvent) (g : Globals) :
    mouseEventHandler event g = g.record (.mouseEventHandler event) ∨
    mouseEventHandler event g = moved event g ∨
    (g.gameState = .playing ∧ ∃ c : Cell, (g.gameMatrix c.1 c.2).Live ∧
      mouseEventHandler event g =
        { ((moved event g).record .mouseCheckKill).hitAt c with buttonWasRaised := false }) ∨
    (g.gameState = .playing ∧ mouseEventHandler event g =
      { (moved event g).record .mouseCheckKill with buttonWasRaised := false }) ∨
    (g.gameState = .menu ∧ ∃ st, (st = .menu ∨ st = .playing ∨ st = .exit) ∧
      mouseEventHandler event g =
        { (moved event g).pressedIn st with buttonWasRaised := false }) := by
  rw [mouseEventHandler_eq]
  split_ifs
  · exact Or.inl rfl
  · cases state : g.gameState <;>
      simp only [reduceCtorEq, false_and, true_and, or_false, false_or]
    case playing =>
      rcases mouseCheckKill_cases (moved event g) with h | ⟨c, live, h⟩
      · rw [h]
        exact Or.inr (Or.inr (Or.inr rfl))
      · rw [h]
        exact Or.inr (Or.inr (Or.inl ⟨c, live, rfl⟩))
    case menu =>
      obtain ⟨st, hst, h⟩ := mouseCheckButtons_cases (moved event g)
      rw [h]
      exact Or.inr (Or.inr ⟨st, by rwa [show (moved event g).gameState = g.gameState from rfl,
        state] at hst, rfl⟩)
    all_goals exact Or.inr trivial
  · exact Or.inr (Or.inl rfl)

/-! ## `keyboard_event_handler` -/

/-- The state with another name. -/
def Globals.withName (g : Globals) (name : List UInt8) : Globals := { g with name := name }

/-- The state with another game state. -/
def Globals.withState (g : Globals) (st : GameState) : Globals := { g with gameState := st }

/-- `LB_INPUT` in one equation: the two branches of the source differ in the characters only. -/
theorem editName_eq (scanCode : UInt8) (g : Globals) :
    editName scanCode g =
      match if g.name.getD 5 0 = 0 then nameByte scanCode else none with
      | some c => g.withName (strcat g.name [c])
      | none =>
        if g.name.getD 0 0 = 0 then g
        else if scanCode = delMake then g.withName (deleteLast g.name)
        else if scanCode = enterMake then gameSaveAndDisplayLb g
        else g := by
  unfold editName
  by_cases room : g.name.getD 5 0 = 0
  · rw [if_pos room, if_pos room]
    cases nameByte scanCode with
    | some c => rfl
    | none =>
      by_cases typed : g.name.getD 0 0 = 0
      · simp only [ne_eq, typed, not_true_eq_false, if_false, if_true, ite_self]
      · simp only [ne_eq, typed, not_false_eq_true, if_true, if_false]
        rfl
  · rw [if_neg room, if_neg room]
    by_cases typed : g.name.getD 0 0 = 0
    · simp only [ne_eq, typed, not_true_eq_false, and_false, if_false, if_true]
    · by_cases del : scanCode = delMake
      · have notEnter : ¬ scanCode = enterMake := by
          rw [del]
          decide
        simp only [notEnter, false_and, if_false]
        rw [if_pos ⟨del, typed⟩, if_neg typed, if_pos del]
        rfl
      · simp only [ne_eq, typed, del, not_false_eq_true, and_true, false_and, if_false]

theorem editName_cases (scanCode : UInt8) (g : Globals) :
    editName scanCode g = g ∨
    (∃ c, nameByte scanCode = some c ∧ g.name.getD 5 0 = 0 ∧
      editName scanCode g = g.withName (strcat g.name [c])) ∨
    (g.name.getD 0 0 ≠ 0 ∧ editName scanCode g = g.withName (deleteLast g.name)) ∨
    (g.name.getD 0 0 ≠ 0 ∧ editName scanCode g = gameSaveAndDisplayLb g) := by
  rw [editName_eq]
  split
  · next c hc =>
    split_ifs at hc with room
    exact Or.inr (Or.inl ⟨c, hc, room, rfl⟩)
  · split_ifs with typed
    · exact Or.inl rfl
    · exact Or.inr (Or.inr (Or.inl ⟨typed, rfl⟩))
    · exact Or.inr (Or.inr (Or.inr ⟨typed, rfl⟩))
    · exact Or.inl rfl

theorem keyboardEventHandler_cases (scanCode : UInt8) (g : Globals) :
    keyboardEventHandler scanCode g = g ∨
    keyboardEventHandler scanCode g = g.withState .exit ∨
    (g.gameState = .playing ∧ keyboardEventHandler scanCode g = g.withState .pause) ∨
    (g.gameState = .pause ∧ keyboardEventHandler scanCode g = g.withState .playing) ∨
    (g.gameState = .lbInput ∧ ((∃ c, nameByte scanCode = some c ∧ g.name.getD 5 0 = 0 ∧
        keyboardEventHandler scanCode g = g.withName (strcat g.name [c])) ∨
      keyboardEventHandler scanCode g = g.withName (deleteLast g.name) ∨
      (g.name.getD 0 0 ≠ 0 ∧ keyboardEventHandler scanCode g = gameSaveAndDisplayLb g))) ∨
    (g.gameState = .leaderboard ∧ keyboardEventHandler scanCode g = gameInitialize g) := by
  unfold keyboardEventHandler
  by_cases esc : scanCode = escBreak
  · rw [if_pos esc]
    exact Or.inr (Or.inl rfl)
  · rw [if_neg esc]
    cases state : g.gameState <;> simp only [reduceCtorEq, false_and, true_and, or_false, false_or]
    case playing =>
      split_ifs
      · exact Or.inr (Or.inr rfl)
      · exact Or.inl rfl
    case pause =>
      split_ifs
      · exact Or.inr (Or.inr rfl)
      · exact Or.inl rfl
    case lbInput =>
      rcases editName_cases scanCode g with h | ⟨c, hc, room, h⟩ | ⟨-, h⟩ | ⟨typed, h⟩
      · exact Or.inl h
      · exact Or.inr (Or.inr (Or.inl ⟨c, hc, room, h⟩))
      · exact Or.inr (Or.inr (Or.inr (Or.inl h)))
      · exact Or.inr (Or.inr (Or.inr (Or.inr ⟨typed, h⟩)))
    case leaderboard =>
      split_ifs
      · exact Or.inr (Or.inr rfl)
      · exact Or.inl rfl
    all_goals exact Or.inl trivial

/-! ## `game_ih` -/

/-- The state with other values of the three spawn variables. -/
def Globals.withSpawn (g : Globals) (counter number increase : UInt32) : Globals :=
  { g with
    randomAlienCounter := counter
    randomAlienNumber := number
    randomAlienSpawnRateIncrease := increase }

/-- The spawn interval and its step after the guard of `game_generate_new_alien`, which are then
subtracted. -/
def rateGuard (number increase : UInt32) : UInt32 × UInt32 :=
  if increase > number then (alienMaxSpawnRate, 0) else (number, increase)

/-- The state of a spawn round when the search of an empty cell starts. -/
def Globals.spawnRound (g : Globals) : Globals :=
  let rate := rateGuard g.randomAlienNumber g.randomAlienSpawnRateIncrease
  g.withSpawn 0 (rate.1 - rate.2) rate.2

theorem gameGenerateNewAlien_wait {g : Globals} (wait : g.randomAlienCounter < g.randomAlienNumber)
    (rand : ℕ → ℕ) :
    gameGenerateNewAlien rand g =
      g.withSpawn (g.randomAlienCounter + 1) g.randomAlienNumber g.randomAlienSpawnRateIncrease := by
  rw [gameGenerateNewAlien, if_pos wait]
  rfl

theorem gameGenerateNewAlien_due {g : Globals} (due : ¬ g.randomAlienCounter < g.randomAlienNumber)
    (rand : ℕ → ℕ) :
    gameGenerateNewAlien rand g =
      match freeCell rand g.gameMatrix alienRandomSpawnAttempts 0 with
      | none => g.spawnRound
      | some c => g.spawnRound.spawnAt c := by
  have round : gameGenerateNewAlien rand g =
      spawnAttempts rand g.spawnRound alienRandomSpawnAttempts 0 := by
    unfold gameGenerateNewAlien Globals.spawnRound rateGuard
    rw [if_neg due]
    by_cases fast : g.randomAlienSpawnRateIncrease > g.randomAlienNumber
    · simp only [if_pos fast]
      rfl
    · simp only [if_neg fast]
      rfl
  rw [round, spawnAttempts_eq]
  rfl

theorem gameGenerateNewAlien_cases (rand : ℕ → ℕ) (g : Globals) :
    ∃ counter number increase,
      gameGenerateNewAlien rand g = g.withSpawn counter number increase ∨
      ∃ c : Cell, (g.gameMatrix c.1 c.2).state = AlienState.empty ∧
        gameGenerateNewAlien rand g = (g.withSpawn counter number increase).spawnAt c := by
  by_cases wait : g.randomAlienCounter < g.randomAlienNumber
  · exact ⟨_, _, _, Or.inl (gameGenerateNewAlien_wait wait rand)⟩
  · rw [gameGenerateNewAlien_due wait]
    cases free : freeCell rand g.gameMatrix alienRandomSpawnAttempts 0 with
    | none => exact ⟨_, _, _, Or.inl rfl⟩
    | some c => exact ⟨_, _, _, Or.inr ⟨c, freeCell_vacant free, rfl⟩⟩

/-- The state at the death of the player, killed by the alien in cell `c`. -/
def Globals.killedBy (g : Globals) (c : Cell) : Globals :=
  { g with
    gameMatrix := deathMatrix g.gameMatrix c
    gameOverCounter := gameOverWait
    gameState := .gameOver
    killerAlien := ⟨0, c.2, c.1⟩ }

/-- The state with every alien aged by one frame. -/
def Globals.aged (g : Globals) : Globals :=
  { g with gameMatrix := fun i j => ageAlien (g.gameMatrix i j) }

theorem firstExpired_none {m : Row → Col → Alien} (h : firstExpired m = none) (i : Row) (j : Col) :
    ¬ expired (m i j) := by
  have safe : ∀ c ∈ cells, ¬ expired (m c.1 c.2) := by
    simpa [firstExpired, List.find?_eq_none] using h
  exact safe (i, j) (mem_cells _)

theorem firstExpired_some {m : Row → Col → Alien} {c : Cell} (h : firstExpired m = some c) :
    expired (m c.1 c.2) := by
  simpa using List.find?_some h

/-- `game_step` in one equation. -/
theorem gameStep_eq {g : Globals} (running : g.gameState = .playing) (rand : ℕ → ℕ) :
    gameStep rand g =
      gameGenerateNewAlien rand
        (match firstExpired g.gameMatrix with
        | none => (g.record .gameStep).aged
        | some c => (g.record .gameStep).killedBy c) := by
  have running' : (g.record .gameStep).gameState ≠ .gameOver := by simp [Globals.record, running]
  have matrix : (g.record .gameStep).gameMatrix = g.gameMatrix := rfl
  rw [gameStep, gameUpdateAlienTimes_eq running', matrix]
  cases firstExpired g.gameMatrix <;> rfl

theorem gameStep_cases {g : Globals} (running : g.gameState = .playing) (rand : ℕ → ℕ) :
    ((∀ i j, ¬ expired (g.gameMatrix i j)) ∧
      gameStep rand g = gameGenerateNewAlien rand (g.record .gameStep).aged) ∨
    ∃ c : Cell, expired (g.gameMatrix c.1 c.2) ∧
      gameStep rand g = gameGenerateNewAlien rand ((g.record .gameStep).killedBy c) := by
  rw [gameStep_eq running]
  cases first : firstExpired g.gameMatrix with
  | none => exact Or.inl ⟨firstExpired_none first, rfl⟩
  | some c => exact Or.inr ⟨c, firstExpired_some first, rfl⟩

/-- Spawning does not change the game state. -/
theorem gameGenerateNewAlien_state (rand : ℕ → ℕ) (g : Globals) :
    (gameGenerateNewAlien rand g).gameState = g.gameState := by
  obtain ⟨counter, number, increase, e | ⟨c, -, e⟩⟩ := gameGenerateNewAlien_cases rand g <;>
    rw [e] <;> rfl

/-- The state of one frame of the countdown after the death, before its end is noticed. -/
def Globals.countedDown (g : Globals) : Globals :=
  { g with
    gameMatrix := fun i j =>
      if g.killerAlien.x = j ∧ g.killerAlien.y = i then g.gameMatrix i j
      else decayAlien (g.gameMatrix i j)
    gameOverCounter := g.gameOverCounter - 1
    killerAlien.state := ((g.gameOverCounter - 1) / 5 % 4).toNat }

theorem gameIh_over {g : Globals} (ended : g.gameState = .gameOver) (rand : ℕ → ℕ) :
    gameIh rand g =
      if g.gameOverCounter - 1 = 0 then gameLeaderboard g.countedDown else g.countedDown := by
  unfold gameIh
  rw [ended]
  simp only
  rw [gameUpdateAlienTimes_over ended]
  rfl

theorem gameIh_cases (rand : ℕ → ℕ) (g : Globals) :
    (g.gameState = .playing ∧ gameIh rand g = gameStep rand g) ∨
    (g.gameState = .gameOver ∧ g.gameOverCounter - 1 ≠ 0 ∧ gameIh rand g = g.countedDown) ∨
    (g.gameState = .gameOver ∧ g.gameOverCounter - 1 = 0 ∧
      gameIh rand g = gameLeaderboard g.countedDown) ∨
    (g.gameState ≠ .playing ∧ g.gameState ≠ .gameOver ∧ gameIh rand g = g) := by
  by_cases ended : g.gameState = .gameOver
  · rw [gameIh_over ended]
    by_cases last : g.gameOverCounter - 1 = 0
    · rw [if_pos last]
      exact Or.inr (Or.inr (Or.inl ⟨ended, last, rfl⟩))
    · rw [if_neg last]
      exact Or.inr (Or.inl ⟨ended, last, rfl⟩)
  · unfold gameIh
    cases state : g.gameState <;> simp_all

theorem gameIh_playing {g : Globals} (running : g.gameState = .playing) (rand : ℕ → ℕ) :
    gameIh rand g = gameStep rand g := by
  rcases gameIh_cases rand g with ⟨-, e⟩ | ⟨ended, -⟩ | ⟨ended, -⟩ | ⟨other, -⟩
  · exact e
  · rw [running] at ended
    cases ended
  · rw [running] at ended
    cases ended
  · exact absurd running other

end LabComputers

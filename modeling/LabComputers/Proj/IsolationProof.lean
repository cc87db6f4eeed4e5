import LabComputers.Proj.HandlerProof

/-!
# One game does not leak into the next

`Alike` relates two states that differ only in what the previous games left behind: the killer alien
and the countdown unless the game is over, and the name and the message unless a name is being typed.
Every interrupt keeps two alike states alike (`Alike.handle`), because each of these variables is
written before it is next read.
-/

namespace LabComputers

open CString

/-- The two states have the same future. -/
structure Alike (s t : Globals) : Prop where
  gameState : s.gameState = t.gameState
  gameMatrix : s.gameMatrix = t.gameMatrix
  points : s.points = t.points
  counter : s.randomAlienCounter = t.randomAlienCounter
  number : s.randomAlienNumber = t.randomAlienNumber
  increase : s.randomAlienSpawnRateIncrease = t.randomAlienSpawnRateIncrease
  mouseX : s.mouseX = t.mouseX
  mouseY : s.mouseY = t.mouseY
  halfWidth : s.crosshairHalfWidth = t.crosshairHalfWidth
  halfHeight : s.crosshairHalfHeight = t.crosshairHalfHeight
  widthBorder : s.crosshairWidthBorder = t.crosshairWidthBorder
  heightBorder : s.crosshairHeightBorder = t.crosshairHeightBorder
  lb : s.lb = t.lb
  buttonWasRaised : s.buttonWasRaised = t.buttonWasRaised
  nbytes : s.nbytes = t.nbytes
  arr : s.arr = t.arr
  parity : s.frameCounter % frameNumber = t.frameCounter % frameNumber
  dying : s.gameState = .gameOver →
    s.killerAlien = t.killerAlien ∧ s.gameOverCounter = t.gameOverCounter
  typing : s.gameState = .lbInput → s.name = t.name ∧ s.inputMessage = t.inputMessage

/-- `game_initialize` makes states alike. -/
theorem alike_gameInitialize {s t : Globals} (lb : s.lb = t.lb)
    (raised : s.buttonWasRaised = t.buttonWasRaised) (nbytes : s.nbytes = t.nbytes)
    (arr : s.arr = t.arr) (parity : s.frameCounter % frameNumber = t.frameCounter % frameNumber) :
    Alike (gameInitialize s) (gameInitialize t) :=
  ⟨rfl, rfl, rfl, rfl, rfl, rfl, rfl, rfl, rfl, rfl, rfl, rfl, lb, raised, nbytes, arr, parity,
    nofun, nofun⟩

namespace Alike

variable {s t : Globals}

/-! ## `mouse_ih` -/

theorem moved (h : Alike s t) (event : MouseEvent) : Alike (moved event s) (moved event t) :=
  { h with
    mouseX := by
      change clamp s.crosshairHalfWidth s.crosshairWidthBorder (s.mouseX + event.moveX) =
        clamp t.crosshairHalfWidth t.crosshairWidthBorder (t.mouseX + event.moveX)
      rw [h.halfWidth, h.widthBorder, h.mouseX]
    mouseY := by
      change clamp s.crosshairHalfHeight s.crosshairHeightBorder (s.mouseY - event.moveY) =
        clamp t.crosshairHalfHeight t.crosshairHeightBorder (t.mouseY - event.moveY)
      rw [h.halfHeight, h.heightBorder, h.mouseY]
    buttonWasRaised := congrArg (· || !event.lbdown) h.buttonWasRaised }

theorem hitAt (h : Alike s t) (c : Cell) : Alike (s.hitAt c) (t.hitAt c) :=
  { h with
    gameMatrix := by
      change (fun i j => if i = c.1 ∧ j = c.2 then _ else s.gameMatrix i j) =
        fun i j => if i = c.1 ∧ j = c.2 then _ else t.gameMatrix i j
      rw [h.gameMatrix]
    points := congrArg (· + 1) h.points }

theorem mouseCheckKill (h : Alike s t) : Alike (mouseCheckKill s) (mouseCheckKill t) := by
  have h' : Alike (s.record .mouseCheckKill) (t.record .mouseCheckKill) := { h with }
  rw [mouseCheckKill_eq, mouseCheckKill_eq, h.mouseX, h.mouseY, h.gameMatrix]
  split
  · exact h'
  · exact h'.hitAt _

theorem withState (h : Alike s t) {st : GameState} (ended : st ≠ .gameOver) (input : st ≠ .lbInput) :
    Alike (s.withState st) (t.withState st) :=
  { h with
    gameState := rfl
    dying := fun dying => absurd dying ended
    typing := fun typing => absurd typing input }

theorem outsideButton_iff (h : Alike s t) (xi yi xf yf : ℕ) :
    outsideButton s xi yi xf yf ↔ outsideButton t xi yi xf yf := by
  unfold outsideButton
  rw [h.mouseX, h.mouseY]

theorem mouseCheckPlayButton (h : Alike s t) :
    Alike (mouseCheckPlayButton s) (mouseCheckPlayButton t) := by
  have h' : Alike (s.record .mouseCheckPlayButton) (t.record .mouseCheckPlayButton) := { h with }
  unfold LabComputers.mouseCheckPlayButton
  simp only [h'.outsideButton_iff]
  split_ifs
  · exact h'
  · exact h'.withState nofun nofun

theorem mouseCheckExitButton (h : Alike s t) :
    Alike (mouseCheckExitButton s) (mouseCheckExitButton t) := by
  have h' : Alike (s.record .mouseCheckExitButton) (t.record .mouseCheckExitButton) := { h with }
  unfold LabComputers.mouseCheckExitButton
  simp only [h'.outsideButton_iff]
  split_ifs
  · exact h'
  · exact h'.withState nofun nofun

theorem mouseEventHandler (h : Alike s t) (event : MouseEvent) :
    Alike (mouseEventHandler event s) (mouseEventHandler event t) := by
  rw [mouseEventHandler_eq, mouseEventHandler_eq, h.gameState, h.buttonWasRaised]
  split_ifs
  · exact { h with }
  · cases t.gameState
    case playing => exact { (h.moved event).mouseCheckKill with buttonWasRaised := rfl }
    case menu =>
      exact { (h.moved event).mouseCheckPlayButton.mouseCheckExitButton with
        buttonWasRaised := rfl }
    all_goals exact h.moved event
  · exact h.moved event

theorem clearPacket (h : Alike s t) : Alike (clearPacket s) (clearPacket t) := by
  unfold LabComputers.clearPacket
  rw [h.nbytes]
  split_ifs
  · exact { h with nbytes := rfl, arr := rfl }
  · exact h

theorem mouseByte (h : Alike s t) (byte : UInt8) : Alike (mouseByte byte s) (mouseByte byte t) := by
  have h' : Alike { s with arr := s.arr.set s.nbytes byte, nbytes := s.nbytes + 1 }
      { t with arr := t.arr.set t.nbytes byte, nbytes := t.nbytes + 1 } :=
    { h with nbytes := congrArg (· + 1) h.nbytes, arr := by simp only [h.arr, h.nbytes] }
  have event : mouseEvent (s.arr.set s.nbytes byte) = mouseEvent (t.arr.set t.nbytes byte) := by
    rw [h.arr, h.nbytes]
  unfold LabComputers.mouseByte
  simp only
  rw [event, h.nbytes]
  rw [h.nbytes] at h'
  split_ifs
  · exact h
  · exact { h'.mouseEventHandler _ with nbytes := rfl }
  · exact h'

/-! ## `kbc_ih` -/

theorem withName (h : Alike s t) (input : t.gameState = .lbInput) (name : List UInt8) :
    Alike (s.withName name) (t.withName name) :=
  { h with typing := fun _ => ⟨rfl, (h.typing (h.gameState.trans input)).2⟩ }

theorem gameSaveAndDisplayLb (h : Alike s t) (input : t.gameState = .lbInput) :
    Alike (gameSaveAndDisplayLb s) (gameSaveAndDisplayLb t) :=
  { h with
    gameState := rfl
    lb := by
      change addScore 0 (toInt s.points) s.name s.lb = addScore 0 (toInt t.points) t.name t.lb
      rw [h.points, (h.typing (h.gameState.trans input)).1, h.lb]
    dying := nofun
    typing := nofun }

theorem editName (h : Alike s t) (input : t.gameState = .lbInput) (scanCode : UInt8) :
    Alike (editName scanCode s) (editName scanCode t) := by
  have name := (h.typing (h.gameState.trans input)).1
  rw [editName_eq, editName_eq, name]
  split
  · exact h.withName input _
  · split_ifs
    · exact h
    · exact h.withName input _
    · exact h.gameSaveAndDisplayLb input
    · exact h

theorem keyboardEventHandler (h : Alike s t) (scanCode : UInt8) :
    Alike (keyboardEventHandler scanCode s) (keyboardEventHandler scanCode t) := by
  unfold LabComputers.keyboardEventHandler
  by_cases esc : scanCode = escBreak
  · rw [if_pos esc, if_pos esc]
    exact h.withState nofun nofun
  · rw [if_neg esc, if_neg esc, h.gameState]
    cases state : t.gameState <;> simp only
    case playing =>
      split_ifs
      · exact h.withState nofun nofun
      · exact h
    case pause =>
      split_ifs
      · exact h.withState nofun nofun
      · exact h
    case lbInput => exact h.editName state scanCode
    case leaderboard =>
      split_ifs
      · exact alike_gameInitialize h.lb h.buttonWasRaised h.nbytes h.arr h.parity
      · exact h
    all_goals exact h

theorem kbcScancode (h : Alike s t) (scanCode : UInt8) :
    Alike (kbcScancode scanCode s) (kbcScancode scanCode t) := by
  have single : Alike (if s.flag2Bytes then { s with flag2Bytes := false } else s)
      (if t.flag2Bytes then { t with flag2Bytes := false } else t) := by
    split_ifs <;> exact { h with }
  unfold LabComputers.kbcScancode
  by_cases two : scanCode = kbcScancode2B
  · rw [if_pos two, if_pos two]
    exact { h with }
  · rw [if_neg two, if_neg two]
    refine keyboardEventHandler ?_ scanCode
    by_cases esc : scanCode = escBreak
    · rw [if_pos esc, if_pos esc]
      exact { single with }
    · rw [if_neg esc, if_neg esc]
      exact single

/-! ## The timer -/

theorem gameUpdateAlienTimes (h : Alike s t) :
    Alike (gameUpdateAlienTimes s) (gameUpdateAlienTimes t) := by
  by_cases ended : t.gameState = .gameOver
  · have ended' := h.gameState.trans ended
    rw [gameUpdateAlienTimes_over ended, gameUpdateAlienTimes_over ended']
    exact { h with gameMatrix := by simp only [h.gameMatrix, (h.dying ended').1] }
  · have ended' : s.gameState ≠ .gameOver := fun ended' => ended (h.gameState.symm.trans ended')
    rw [gameUpdateAlienTimes_eq ended, gameUpdateAlienTimes_eq ended', h.gameMatrix]
    split
    · exact { h with gameMatrix := rfl }
    · exact { h with
        gameState := rfl, gameMatrix := rfl, dying := fun _ => ⟨rfl, rfl⟩, typing := nofun }

theorem spawnAttempts (h : Alike s t) (rand : ℕ → ℕ) (attempts k : ℕ) :
    Alike (spawnAttempts rand s attempts k) (spawnAttempts rand t attempts k) := by
  rw [spawnAttempts_eq, spawnAttempts_eq, h.gameMatrix]
  split
  · exact h
  · next c _ =>
    refine { h with gameMatrix := ?_ }
    change (fun i j => if i = c.1 ∧ j = c.2 then _ else s.gameMatrix i j) =
      fun i j => if i = c.1 ∧ j = c.2 then _ else t.gameMatrix i j
    rw [h.gameMatrix]

theorem gameGenerateNewAlien (h : Alike s t) (rand : ℕ → ℕ) :
    Alike (gameGenerateNewAlien rand s) (gameGenerateNewAlien rand t) := by
  unfold LabComputers.gameGenerateNewAlien
  by_cases wait : t.randomAlienCounter < t.randomAlienNumber
  · have wait' : s.randomAlienCounter < s.randomAlienNumber := by rwa [h.counter, h.number]
    rw [if_pos wait, if_pos wait']
    exact { h with counter := congrArg (· + 1) h.counter }
  · have wait' : ¬ s.randomAlienCounter < s.randomAlienNumber := by rwa [h.counter, h.number]
    rw [if_neg wait, if_neg wait']
    refine spawnAttempts ?_ rand _ _
    simp only [h.number, h.increase]
    split_ifs <;> exact { h with counter := rfl, number := rfl, increase := rfl }

theorem gameLeaderboard (h : Alike s t) : Alike (gameLeaderboard s) (gameLeaderboard t) := by
  unfold LabComputers.gameLeaderboard
  simp only [h.points, h.lb]
  refine { h with
    gameState := rfl, dying := ?_, typing := fun _ => ⟨rfl, rfl⟩, points := rfl, lb := rfl }
  simp only
  split_ifs <;> exact nofun

theorem countedDown (h : Alike s t) (ended : t.gameState = .gameOver) :
    Alike s.countedDown t.countedDown := by
  have ended' := h.gameState.trans ended
  obtain ⟨killer, counter⟩ := h.dying ended'
  refine { h with gameMatrix := ?_, dying := fun _ => ?_ }
  · simp only [Globals.countedDown, h.gameMatrix, killer]
  · simp only [Globals.countedDown, killer, counter, and_self]

theorem gameIh (h : Alike s t) (rand : ℕ → ℕ) : Alike (gameIh rand s) (gameIh rand t) := by
  by_cases ended : t.gameState = .gameOver
  · have ended' := h.gameState.trans ended
    rw [gameIh_over ended, gameIh_over ended', (h.dying ended').2]
    split_ifs
    · exact (h.countedDown ended).gameLeaderboard
    · exact h.countedDown ended
  · unfold LabComputers.gameIh
    rw [h.gameState]
    cases state : t.gameState <;> simp only
    case playing =>
      have recorded : Alike (s.record .gameStep) (t.record .gameStep) := { h with }
      exact recorded.gameUpdateAlienTimes.gameGenerateNewAlien rand
    case gameOver => exact absurd state ended
    all_goals exact h

theorem timerIh (h : Alike s t) (rtcHours rtcMinutes : UInt8) (rand : ℕ → ℕ) :
    Alike (timerIh rtcHours rtcMinutes rand s) (timerIh rtcHours rtcMinutes rand t) := by
  have parity : (s.frameCounter + 1) % frameNumber = (t.frameCounter + 1) % frameNumber := by
    have even := h.parity
    rw [show frameNumber = 2 by decide] at *
    grind
  have counted : Alike { s with frameCounter := s.frameCounter + 1 }
      { t with frameCounter := t.frameCounter + 1 } := { h with parity := parity }
  have clocked : Alike
      (if s.gameState = .menu then rtcIh rtcHours rtcMinutes { s with frameCounter := s.frameCounter + 1 }
        else { s with frameCounter := s.frameCounter + 1 })
      (if t.gameState = .menu then rtcIh rtcHours rtcMinutes { t with frameCounter := t.frameCounter + 1 }
        else { t with frameCounter := t.frameCounter + 1 }) := by
    by_cases menu : t.gameState = .menu
    · rw [if_pos menu, if_pos (h.gameState.trans menu)]
      exact { counted with }
    · rw [if_neg menu, if_neg (by rwa [h.gameState])]
      exact counted
  unfold LabComputers.timerIh
  simp only [parity]
  by_cases frame : (t.frameCounter + 1) % frameNumber = 0
  · rw [if_pos frame, if_pos frame]
    exact clocked.gameIh rand
  · rw [if_neg frame, if_neg frame]
    exact counted

/-- Every interrupt keeps two alike states alike. -/
theorem handle (h : Alike s t) (e : Interrupt) : Alike (handle s e) (handle t e) := by
  cases e with
  | mouse replies =>
    simp only [LabComputers.handle, mouseIh_value]
    split_ifs
    · exact h.clearPacket.mouseByte _
    · exact h.clearPacket
  | kbc replies =>
    simp only [LabComputers.handle, kbcIh_value]
    split_ifs
    · exact h.kbcScancode _
    · exact h
  | timer rtcHours rtcMinutes rand => exact h.timerIh rtcHours rtcMinutes rand

end Alike

/-- What the player sees of two states is the same. -/
structure Indistinguishable (s t : Globals) : Prop where
  gameState : s.gameState = t.gameState
  gameMatrix : s.gameMatrix = t.gameMatrix
  points : s.points = t.points
  pointer : s.mouseX = t.mouseX ∧ s.mouseY = t.mouseY
  spawn : s.randomAlienCounter = t.randomAlienCounter ∧
    s.randomAlienNumber = t.randomAlienNumber ∧
    s.randomAlienSpawnRateIncrease = t.randomAlienSpawnRateIncrease
  lb : s.lb = t.lb
  dying : s.gameState = .gameOver →
    s.killerAlien = t.killerAlien ∧ s.gameOverCounter = t.gameOverCounter
  typing : s.gameState = .lbInput → s.name = t.name ∧ s.inputMessage = t.inputMessage

theorem Alike.indistinguishable {s t : Globals} (h : Alike s t) : Indistinguishable s t :=
  ⟨h.gameState, h.gameMatrix, h.points, ⟨h.mouseX, h.mouseY⟩, ⟨h.counter, h.number, h.increase⟩,
    h.lb, h.dying, h.typing⟩

/-- Two runs that have just initialized the game with the same leaderboard, button, packet buffer and
frame parity stay indistinguishable on the same interrupts. -/
theorem gameInitialize_forgets {s t : Globals} (lb : s.lb = t.lb)
    (raised : s.buttonWasRaised = t.buttonWasRaised) (nbytes : s.nbytes = t.nbytes)
    (arr : s.arr = t.arr) (parity : s.frameCounter % 2 = t.frameCounter % 2)
    (es : List Interrupt) :
    Indistinguishable (Transition.run handle (gameInitialize s) es)
      (Transition.run handle (gameInitialize t) es) :=
  (Transition.run_related handle (fun _ _ e h => h.handle e)
    (alike_gameInitialize lb raised nbytes arr parity) es).indistinguishable

/-- A state that a finished game leaves behind. -/
def leftover : Globals :=
  { Globals.atStart with
    gameState := .leaderboard
    gameMatrix := fun _ _ => ⟨AlienState.dead1, 2⟩
    points := 7
    killerAlien := ⟨3, 5, 4⟩
    name := strcpy (zeros 7) (ascii "A") }

/-- A first game and one after another game, two frames later. -/
theorem gameInitialize_forgets_leftover :
    Indistinguishable
      (Transition.run handle (gameInitialize .atStart) (List.replicate 4 (.timer 0 0 id)))
      (Transition.run handle (gameInitialize leftover) (List.replicate 4 (.timer 0 0 id))) :=
  gameInitialize_forgets (s := .atStart) (t := leftover) rfl rfl rfl rfl rfl _

end LabComputers

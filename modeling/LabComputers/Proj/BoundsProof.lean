import LabComputers.Proj.HandlerProof

/-!
# The representation invariant

`Bounded` collects the ranges of the variables that are used as indices or counters.  Every handler
keeps it, hence it holds in every reachable state (`Reachable.bounded`), and the indices built from
it stay inside their arrays.
-/

namespace LabComputers

/-- The ranges of the variables of the game. -/
structure Bounded (g : Globals) : Prop where
  state_le : ∀ i j, (g.gameMatrix i j).state ≤ AlienState.empty
  time_le : ∀ i j, (g.gameMatrix i j).time ≤ 300
  killer_state : g.killerAlien.state < 4
  killer_x : g.killerAlien.x < 11
  killer_y : g.killerAlien.y < 7
  half : g.crosshairHalfWidth = 32 ∧ g.crosshairHalfHeight = 32
  border : g.crosshairWidthBorder = 768 ∧ g.crosshairHeightBorder = 568
  mouse_x : 32 ≤ g.mouseX.toInt ∧ g.mouseX.toInt ≤ 767
  mouse_y : 32 ≤ g.mouseY.toInt ∧ g.mouseY.toInt ≤ 567
  counter : g.gameState = .gameOver → 1 ≤ g.gameOverCounter ∧ g.gameOverCounter ≤ gameOverWait

theorem bounded_core (g : Globals) : Bounded (core g) ↔ Bounded g :=
  ⟨fun h => { h with }, fun h => { h with }⟩

theorem bounded_gameInitialize {g : Globals} (state : g.killerAlien.state < 4)
    (x : g.killerAlien.x < 11) (y : g.killerAlien.y < 7) : Bounded (gameInitialize g) where
  state_le _ _ := le_refl 7
  time_le _ _ := Nat.zero_le 300
  killer_state := state
  killer_x := x
  killer_y := y
  half := ⟨rfl, rfl⟩
  border := ⟨rfl, rfl⟩
  mouse_x := by
    change (32 : ℤ) ≤ (Int16.ofNat (800 / 2)).toInt ∧ (Int16.ofNat (800 / 2)).toInt ≤ 767
    decide
  mouse_y := by
    change (32 : ℤ) ≤ (Int16.ofNat (600 / 2)).toInt ∧ (Int16.ofNat (600 / 2)).toInt ≤ 567
    decide
  counter ended := by cases ended

theorem bounded_loopStart (lb : Leaderboard) : Bounded (loopStart lb) :=
  { bounded_gameInitialize (g := .atStart) (by decide) (by decide) (by decide) with }

/-! ## Aliens -/

theorem alienTime_le (state : ℕ) : alienTime state ≤ 300 := by
  have entries : ∀ t ∈ alienTimes, t ≤ 300 := by decide
  unfold alienTime
  by_cases h : state < alienTimes.length
  · rw [List.getD_eq_getElem?_getD, List.getElem?_eq_getElem h, Option.getD_some]
    exact entries _ (List.getElem_mem h)
  · rw [List.getD_eq_getElem?_getD, List.getElem?_eq_none (by omega), Option.getD_none]
    omega

theorem ageAlien_bounded {a : Alien} (hs : a.state ≤ AlienState.empty) (ht : a.time ≤ 300) :
    (ageAlien a).state ≤ AlienState.empty ∧ (ageAlien a).time ≤ 300 := by
  unfold ageAlien
  split_ifs with vacant
  · exact ⟨hs, ht⟩
  · exact ⟨hs, by simp only; omega⟩
  · exact ⟨by simp only [AlienState.empty] at *; omega, alienTime_le _⟩

theorem decayAlien_bounded {a : Alien} (hs : a.state ≤ AlienState.empty) (ht : a.time ≤ 300) :
    (decayAlien a).state ≤ AlienState.empty ∧ (decayAlien a).time ≤ 300 := by
  unfold decayAlien
  split_ifs with vacant
  · exact ⟨hs, ht⟩
  · exact ⟨hs, by simp only; omega⟩
  · exact ⟨by simp only [AlienState.empty] at *; omega, by simp⟩

theorem deathMatrix_bounded {m : Row → Col → Alien} (hs : ∀ i j, (m i j).state ≤ AlienState.empty)
    (ht : ∀ i j, (m i j).time ≤ 300) (c : Cell) (i : Row) (j : Col) :
    (deathMatrix m c i j).state ≤ AlienState.empty ∧ (deathMatrix m c i j).time ≤ 300 := by
  have aged := ageAlien_bounded (hs i j) (ht i j)
  unfold deathMatrix
  simp only
  split_ifs
  · exact aged
  · exact ⟨by simp, by simp⟩
  · exact ⟨hs i j, ht i j⟩
  · exact ⟨by simp, by simp⟩

namespace Bounded

variable {g : Globals}

/-- A new matrix with aliens in range keeps the invariant. -/
theorem withMatrix (h : Bounded g) {m : Row → Col → Alien}
    (hm : ∀ i j, (m i j).state ≤ AlienState.empty ∧ (m i j).time ≤ 300) :
    Bounded { g with gameMatrix := m } :=
  { h with state_le := fun i j => (hm i j).1, time_le := fun i j => (hm i j).2 }

theorem setAlien (h : Bounded g) (i : Row) (j : Col) {a : Alien}
    (ha : a.state ≤ AlienState.empty ∧ a.time ≤ 300) : Bounded (g.setAlien i j a) := by
  apply h.withMatrix
  intro i' j'
  split_ifs
  · exact ha
  · exact ⟨h.state_le i' j', h.time_le i' j'⟩

theorem aged (h : Bounded g) : Bounded g.aged :=
  h.withMatrix fun i j => ageAlien_bounded (h.state_le i j) (h.time_le i j)

theorem killedBy (h : Bounded g) (c : Cell) : Bounded (g.killedBy c) :=
  { h.withMatrix (deathMatrix_bounded h.state_le h.time_le c) with
    killer_state := Nat.zero_lt_succ 3
    killer_x := c.2.isLt
    killer_y := c.1.isLt
    counter := fun _ => show 1 ≤ gameOverWait ∧ gameOverWait ≤ gameOverWait by decide }

theorem spawnAt (h : Bounded g) (c : Cell) : Bounded (g.spawnAt c) :=
  { h.setAlien c.1 c.2 (a := ⟨AlienState.appearing, 5⟩) (by simp) with }

theorem hitAt (h : Bounded g) (c : Cell) : Bounded (g.hitAt c) :=
  { h.setAlien c.1 c.2 (a := ⟨AlienState.dead1, 2⟩) (by simp) with }

theorem countedDown (h : Bounded g) (st : GameState)
    (more : st = .gameOver → 1 ≤ g.gameOverCounter - 1 ∧ g.gameOverCounter - 1 ≤ gameOverWait) :
    Bounded (g.countedDown.withState st) := by
  have matrix : ∀ i j, (g.countedDown.gameMatrix i j).state ≤ AlienState.empty ∧
      (g.countedDown.gameMatrix i j).time ≤ 300 := by
    intro i j
    simp only [Globals.countedDown]
    split_ifs
    · exact ⟨h.state_le i j, h.time_le i j⟩
    · exact decayAlien_bounded (h.state_le i j) (h.time_le i j)
  refine { h.withMatrix matrix with killer_state := ?_, counter := more }
  change ((g.gameOverCounter - 1) / 5 % 4).toNat < 4
  rw [UInt32.toNat_mod]
  exact Nat.mod_lt _ (by decide)

/-! ## The pointer -/

theorem clamp_bounds {half border : Int16} (wide : half < border) (positive : 0 ≤ half) (v : Int16) :
    half ≤ clamp half border v ∧ clamp half border v < border := by
  unfold clamp
  simp only
  split_ifs <;> grind

theorem moved (h : Bounded g) (event : MouseEvent) : Bounded (moved event g) := by
  obtain ⟨halfX, halfY⟩ := h.half
  obtain ⟨borderX, borderY⟩ := h.border
  refine { h with mouse_x := ?_, mouse_y := ?_ }
  · change 32 ≤ (clamp g.crosshairHalfWidth g.crosshairWidthBorder _).toInt ∧
      (clamp g.crosshairHalfWidth g.crosshairWidthBorder _).toInt ≤ 767
    rw [halfX, borderX]
    have := clamp_bounds (show 32 < 768 by decide) (by decide) (g.mouseX + event.moveX)
    rw [Int16.le_iff_toInt_le, Int16.lt_iff_toInt_lt] at this
    exact ⟨this.1, Int.le_of_lt_add_one this.2⟩
  · change 32 ≤ (clamp g.crosshairHalfHeight g.crosshairHeightBorder _).toInt ∧
      (clamp g.crosshairHalfHeight g.crosshairHeightBorder _).toInt ≤ 567
    rw [halfY, borderY]
    have := clamp_bounds (show 32 < 568 by decide) (by decide) (g.mouseY - event.moveY)
    rw [Int16.le_iff_toInt_le, Int16.lt_iff_toInt_lt] at this
    exact ⟨this.1, Int.le_of_lt_add_one this.2⟩

/-! ## The handlers -/

theorem mouseEventHandler (h : Bounded g) (event : MouseEvent) :
    Bounded (mouseEventHandler event g) := by
  have h' := h.moved event
  rcases mouseEventHandler_cases event g with e | e | ⟨-, c, -, e⟩ | ⟨-, e⟩ | ⟨-, st, hst, e⟩ <;>
    rw [e]
  · exact { h with }
  · exact h'
  · exact { h'.hitAt c with }
  · exact { h' with }
  · refine { h' with counter := ?_ }
    intro ended
    change st = .gameOver at ended
    rcases hst with rfl | rfl | rfl <;> cases ended

theorem keyboardEventHandler (h : Bounded g) (scanCode : UInt8) :
    Bounded (keyboardEventHandler scanCode g) := by
  rcases keyboardEventHandler_cases scanCode g with e | e | ⟨-, e⟩ | ⟨-, e⟩ |
    ⟨state, ⟨c, -, -, e⟩ | e | ⟨-, e⟩⟩ | ⟨-, e⟩ <;> rw [e]
  · exact h
  · exact { h with counter := fun ended => by cases ended }
  · exact { h with counter := fun ended => by cases ended }
  · exact { h with counter := fun ended => by cases ended }
  · exact { h with }
  · exact { h with }
  · exact { h with counter := fun ended => by cases ended }
  · exact bounded_gameInitialize h.killer_state h.killer_x h.killer_y

theorem gameGenerateNewAlien (h : Bounded g) (rand : ℕ → ℕ) :
    Bounded (gameGenerateNewAlien rand g) := by
  obtain ⟨counter, number, increase, e | ⟨c, -, e⟩⟩ := gameGenerateNewAlien_cases rand g <;> rw [e]
  · exact { h with }
  · have h' : Bounded (g.withSpawn counter number increase) := { h with }
    exact h'.spawnAt c

theorem gameStep (h : Bounded g) (running : g.gameState = .playing) (rand : ℕ → ℕ) :
    Bounded (gameStep rand g) := by
  have h' : Bounded (g.record .gameStep) := { h with }
  rcases gameStep_cases running rand with ⟨-, e⟩ | ⟨c, -, e⟩ <;> rw [e]
  · exact h'.aged.gameGenerateNewAlien rand
  · exact (h'.killedBy c).gameGenerateNewAlien rand

theorem gameIh (h : Bounded g) (rand : ℕ → ℕ) : Bounded (gameIh rand g) := by
  rcases gameIh_cases rand g with ⟨running, e⟩ | ⟨ended, more, e⟩ | ⟨ended, -, e⟩ | ⟨-, -, e⟩ <;>
    rw [e]
  · exact h.gameStep running rand
  · have range := h.counter ended
    have range' : 1 ≤ g.gameOverCounter - 1 ∧ g.gameOverCounter - 1 ≤ gameOverWait := by
      simp only [gameOverWait] at *
      grind
    exact { h.countedDown .gameOver fun _ => range' with counter := fun _ => range' }
  · refine { h.countedDown .leaderboard (by simp) with counter := ?_ }
    simp only [gameLeaderboard]
    split_ifs <;> simp
  · exact h

end Bounded

/-- The representation invariant holds in every reachable state. -/
theorem Reachable.bounded {g : Globals} (reachable : Reachable g) : Bounded g :=
  reachable.induction bounded_loopStart bounded_core (fun _ _ h => h.mouseEventHandler _)
    (fun _ _ h => h.keyboardEventHandler _) fun _ _ h => h.gameIh _

/-! ## Indices -/

theorem moveX_bounds (arr : List UInt8) :
    -256 ≤ (mouseEvent arr).moveX.toInt ∧ (mouseEvent arr).moveX.toInt ≤ 255 := by
  simp only [mouseEvent, toInt_signed]
  have := (arr.getD 1 0).toNat_lt
  split_ifs <;> omega

theorem moveY_bounds (arr : List UInt8) :
    -256 ≤ (mouseEvent arr).moveY.toInt ∧ (mouseEvent arr).moveY.toInt ≤ 255 := by
  simp only [mouseEvent, toInt_signed]
  have := (arr.getD 2 0).toNat_lt
  split_ifs <;> omega

/-- The additions of `mouse_event_handler` to the pointer do not overflow. -/
def MovesExactly (g : Globals) (event : MouseEvent) : Prop :=
  (g.mouseX + event.moveX).toInt = g.mouseX.toInt + event.moveX.toInt ∧
    (g.mouseY - event.moveY).toInt = g.mouseY.toInt - event.moveY.toInt

theorem Bounded.movesExactly {g : Globals} (h : Bounded g) (arr : List UInt8) :
    MovesExactly g (mouseEvent arr) := by
  have mx := h.mouse_x
  have my := h.mouse_y
  have dx := moveX_bounds arr
  have dy := moveY_bounds arr
  constructor
  · rw [Int16.toInt_add]
    exact Int.bmod_eq_of_le (by omega) (by omega)
  · rw [Int16.toInt_sub]
    exact Int.bmod_eq_of_le (by omega) (by omega)

/-- The indices that the handlers and `vg_ih` derive from the state lie inside their arrays:
`game_matrix` in `mouse_check_kill`, `alien_times` in `game_update_alien_times`, and the two sprite
tables indexed by an alien's state. -/
structure IndicesInRange (g : Globals) : Prop where
  row : 0 ≤ (g.mouseY.toInt - gameVerticalMargin).tdiv alienHeight ∧
    (g.mouseY.toInt - gameVerticalMargin).tdiv alienHeight < 7
  column : 0 ≤ (g.mouseX.toInt - gameHorizontalMargin).tdiv alienWidth ∧
    (g.mouseX.toInt - gameHorizontalMargin).tdiv alienWidth < 11
  alienTimes : ∀ i j, (g.gameMatrix i j).state ≠ AlienState.empty →
    (g.gameMatrix i j).state + 1 < alienTimes.length
  alienSprites : ∀ (xpm : XpmLoader) i j, (g.gameMatrix i j).state ≠ AlienState.empty →
    (g.gameMatrix i j).state < (vgLoadSprites xpm).alienSprites.length
  killerAlienSprites : ∀ xpm : XpmLoader,
    g.killerAlien.state < (vgLoadSprites xpm).killerAlienSprites.length

/-- Division truncates, so the first cell of a row reaches one cell width further down. -/
theorem tdiv_bounds {a n : ℤ} (low : -70 < a) (high : a < 70 * n) (positive : 0 < n) :
    0 ≤ a.tdiv 70 ∧ a.tdiv 70 < n := by
  by_cases sign : 0 ≤ a
  · rw [Int.tdiv_eq_ediv_of_nonneg sign]
    omega
  · obtain ⟨b, rfl⟩ : ∃ b, a = -b := ⟨-a, by omega⟩
    rw [Int.neg_tdiv, Int.tdiv_eq_ediv_of_nonneg (by omega)]
    omega

theorem Bounded.indicesInRange {g : Globals} (h : Bounded g) : IndicesInRange g := by
  have mx := h.mouse_x
  have my := h.mouse_y
  refine ⟨?_, ?_, fun i j occupied => ?_, fun xpm i j occupied => ?_, fun xpm => h.killer_state⟩
  · exact tdiv_bounds (by simp only [gameVerticalMargin]; omega)
      (by simp only [gameVerticalMargin]; omega) (by decide)
  · exact tdiv_bounds (by simp only [gameHorizontalMargin]; omega)
      (by simp only [gameHorizontalMargin]; omega) (by decide)
  · have := h.state_le i j
    simp only [AlienState.empty, LabComputers.alienTimes, List.length_cons, List.length_nil] at *
    omega
  · have := h.state_le i j
    simp only [AlienState.empty, vgLoadSprites, List.length_cons, List.length_nil] at *
    omega

/-- In every reachable state the game's variables are in range, the pointer moves and the countdown
do not overflow, and every index stays inside its array. -/
theorem reachable_in_range {g : Globals} (reachable : Reachable g) :
    (∀ i j, (g.gameMatrix i j).state ≤ AlienState.empty ∧ (g.gameMatrix i j).time ≤ 300) ∧
    (g.killerAlien.state < 4 ∧ g.killerAlien.x < 11 ∧ g.killerAlien.y < 7) ∧
    (32 ≤ g.mouseX.toInt ∧ g.mouseX.toInt ≤ 767) ∧ (32 ≤ g.mouseY.toInt ∧ g.mouseY.toInt ≤ 567) ∧
    (∀ arr, MovesExactly g (mouseEvent arr)) ∧
    (g.gameState = .gameOver → (1 ≤ g.gameOverCounter ∧ g.gameOverCounter ≤ gameOverWait) ∧
      (g.gameOverCounter - 1).toNat + 1 = g.gameOverCounter.toNat) ∧
    IndicesInRange g := by
  have h := reachable.bounded
  refine ⟨fun i j => ⟨h.state_le i j, h.time_le i j⟩, ⟨h.killer_state, h.killer_x, h.killer_y⟩,
    h.mouse_x, h.mouse_y, h.movesExactly, fun ended => ⟨h.counter ended, ?_⟩, h.indicesInRange⟩
  have positive := UInt32.le_iff_toNat_le.1 (h.counter ended).1
  rw [UInt32.toNat_sub_of_le _ _ (h.counter ended).1]
  simp only [UInt32.toNat_one] at *
  omega

end LabComputers

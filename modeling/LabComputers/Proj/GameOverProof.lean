import LabComputers.Proj.ReplayProof

/-!
# After the death of the player

While the game is over the matrix is only changed by `game_update_alien_times`, but the `game_step` in
which the player dies still calls `game_generate_new_alien`.  `onlyKillerLive_iff` says in which runs
this leaves the killer as the only live alien; `gone_under_banner` that in all runs every other cell is
empty by the time the banner replaces the aliens.
-/

namespace LabComputers

/-- Cell `(i, j)` is the killer's. -/
def Globals.killerAt (g : Globals) (i : Row) (j : Col) : Prop :=
  g.killerAlien.x = j ∧ g.killerAlien.y = i

instance (g : Globals) (i : Row) (j : Col) : Decidable (g.killerAt i j) :=
  inferInstanceAs (Decidable (_ ∧ _))

/-! ## What one interrupt does while the game is over -/

theorem mouseEventHandler_gameOver {event : MouseEvent} {g : Globals}
    (ended : (mouseEventHandler event g).gameState = .gameOver) :
    g.gameState = .gameOver ∧ (mouseEventHandler event g).gameMatrix = g.gameMatrix ∧
      (mouseEventHandler event g).killerAlien = g.killerAlien ∧
      (mouseEventHandler event g).gameOverCounter = g.gameOverCounter := by
  have before := (mouseEventHandler_gameSteps event g).2 ended
  refine ⟨before, ?_⟩
  rcases mouseEventHandler_cases event g with e | e | ⟨running, -⟩ | ⟨running, -⟩ | ⟨menu, -⟩
  · rw [e]
    exact ⟨rfl, rfl, rfl⟩
  · rw [e]
    exact ⟨rfl, rfl, rfl⟩
  · exact absurd (running.symm.trans before) (by decide)
  · exact absurd (running.symm.trans before) (by decide)
  · exact absurd (menu.symm.trans before) (by decide)

theorem keyboardEventHandler_gameOver {scanCode : UInt8} {g : Globals}
    (ended : (keyboardEventHandler scanCode g).gameState = .gameOver) :
    g.gameState = .gameOver ∧ (keyboardEventHandler scanCode g).gameMatrix = g.gameMatrix ∧
      (keyboardEventHandler scanCode g).killerAlien = g.killerAlien ∧
      (keyboardEventHandler scanCode g).gameOverCounter = g.gameOverCounter := by
  have before := (keyboardEventHandler_gameSteps scanCode g).2 ended
  refine ⟨before, ?_⟩
  rcases keyboardEventHandler_cases scanCode g with e | e | ⟨running, -⟩ | ⟨paused, -⟩ | ⟨input, -⟩ |
    ⟨shown, -⟩
  · rw [e]
    exact ⟨rfl, rfl, rfl⟩
  · rw [e]
    exact ⟨rfl, rfl, rfl⟩
  · exact absurd (running.symm.trans before) (by decide)
  · exact absurd (paused.symm.trans before) (by decide)
  · exact absurd (input.symm.trans before) (by decide)
  · exact absurd (shown.symm.trans before) (by decide)

/-- The player died in this interrupt, or earlier and the interrupt leaves the aliens alone or is one
frame of the countdown. -/
theorem handle_gameOver {g : Globals} {e : Interrupt} (ended : (handle g e).gameState = .gameOver) :
    (Steps g e ∧ ∃ rtcHours rtcMinutes rand g₁, e = .timer rtcHours rtcMinutes rand ∧
      core g₁ = core g ∧ handle g e = gameStep rand g₁) ∨
    (g.gameState = .gameOver ∧ (handle g e).gameMatrix = g.gameMatrix ∧
      (handle g e).killerAlien = g.killerAlien ∧
      (handle g e).gameOverCounter = g.gameOverCounter) ∨
    (g.gameState = .gameOver ∧ ∃ g₁, core g₁ = core g ∧ handle g e = g₁.countedDown) := by
  by_cases tick : ticks g e = true
  · rcases e with _ | _ | ⟨rtcHours, rtcMinutes, rand⟩
    · cases tick
    · cases tick
    · obtain ⟨g₁, h₁, h'⟩ := handle_timer tick
      have state := gameState_of_core h₁
      rw [h'] at ended ⊢
      rcases gameIh_cases rand g₁ with ⟨running, e'⟩ | ⟨over', -, e'⟩ | ⟨-, -, e'⟩ | ⟨-, other, e'⟩
      · exact Or.inl ⟨⟨state.symm.trans running, tick⟩, rtcHours, rtcMinutes, rand, g₁, rfl, h₁, e'⟩
      · exact Or.inr (Or.inr ⟨state.symm.trans over', g₁, h₁, e'⟩)
      · rw [e'] at ended
        change (if _ then GameState.lbInput else GameState.leaderboard) = _ at ended
        split_ifs at ended
      · rw [e'] at ended
        exact absurd ended other
  · rcases handle_cases g e with ⟨h', -⟩ | ⟨g₁, arr, h₁, h', -⟩ | ⟨g₁, scanCode, h₁, h', -⟩ |
      ⟨g₁, rand, h₁, h', tick'⟩
    · have same := sameGame_of_core h'
      exact Or.inr (Or.inl ⟨same.gameState.symm.trans ended, same.gameMatrix, same.killerAlien,
        same.gameOverCounter⟩)
    · rw [gameState_of_core h'] at ended
      obtain ⟨before, matrix, killer, counter⟩ := mouseEventHandler_gameOver ended
      have same := sameGame_of_core h'
      have same₁ := sameGame_of_core h₁
      exact Or.inr (Or.inl ⟨same₁.gameState.symm.trans before,
        (same.gameMatrix.trans matrix).trans same₁.gameMatrix,
        (same.killerAlien.trans killer).trans same₁.killerAlien,
        (same.gameOverCounter.trans counter).trans same₁.gameOverCounter⟩)
    · rw [h'] at ended ⊢
      obtain ⟨before, matrix, killer, counter⟩ := keyboardEventHandler_gameOver ended
      have same₁ := sameGame_of_core h₁
      exact Or.inr (Or.inl ⟨same₁.gameState.symm.trans before, matrix.trans same₁.gameMatrix,
        killer.trans same₁.killerAlien, counter.trans same₁.gameOverCounter⟩)
    · exact absurd tick' tick

/-! ## The matrix at the death of the player -/

theorem not_mem_before (c : Cell) : c ∉ cells.takeWhile (· ≠ c) := by
  intro h
  have := List.mem_takeWhile_imp h
  simp at this

theorem deathMatrix_killer (m : Row → Col → Alien) (c : Cell) : deathMatrix m c c.1 c.2 = m c.1 c.2 := by
  unfold deathMatrix
  simp only [Prod.mk.eta, not_mem_before, if_false, or_true, if_true]

theorem deathMatrix_other (m : Row → Col → Alien) {c : Cell} {i : Row} {j : Col} (other : (i, j) ≠ c) :
    (deathMatrix m c i j).state = AlienState.empty ∨ deathMatrix m c i j = ⟨AlienState.dead1, 2⟩ := by
  unfold deathMatrix
  simp only [other, or_false]
  split_ifs with before vacant vacant
  · exact Or.inl vacant
  · exact Or.inr rfl
  · exact Or.inl vacant
  · exact Or.inr rfl

theorem deathMatrix_live_iff {m : Row → Col → Alien} {c : Cell} (dead : expired (m c.1 c.2)) (i : Row)
    (j : Col) : (deathMatrix m c i j).Live ↔ (i, j) = c := by
  by_cases here : (i, j) = c
  · subst here
    exact iff_of_true (by rw [deathMatrix_killer]; exact Or.inl dead.1) rfl
  · apply iff_of_false _ here
    rcases deathMatrix_other m here with vacant | killed
    · exact Alien.not_live_of_empty vacant
    · rw [killed]
      decide

/-- Cell `k` is empty after the scan in which the alien in cell `c` kills the player: it was empty
before, or its alien vanishes in that scan before the killer's turn. -/
def VacantAtDeath (m : Row → Col → Alien) (c k : Cell) : Prop :=
  (m k.1 k.2).state = AlienState.empty ∨
    (k ∈ cells.takeWhile (· ≠ c) ∧ (m k.1 k.2).state = AlienState.dead5 ∧ (m k.1 k.2).time = 0)

theorem ageAlien_empty_iff (a : Alien) :
    (ageAlien a).state = AlienState.empty ↔
      a.state = AlienState.empty ∨ (a.state = AlienState.dead5 ∧ a.time = 0) := by
  by_cases vacant : a.state = AlienState.empty
  · rw [ageAlien_empty vacant]
    exact iff_of_true vacant (Or.inl vacant)
  · by_cases left : a.time > 0
    · rw [ageAlien_wait vacant left]
      apply iff_of_false vacant
      rintro (vacant' | ⟨-, due⟩)
      · exact vacant vacant'
      · omega
    · have due : a.time = 0 := by omega
      rw [ageAlien_next vacant due]
      simp only [AlienState.empty, AlienState.dead5] at *
      omega

theorem deathMatrix_empty_iff (m : Row → Col → Alien) (c k : Cell) :
    (deathMatrix m c k.1 k.2).state = AlienState.empty ↔ VacantAtDeath m c k := by
  have killed : ∀ a : Alien,
      (if a.state = AlienState.empty ∨ k = c then a else ⟨AlienState.dead1, 2⟩).state =
        AlienState.empty ↔ a.state = AlienState.empty := by
    intro a
    split_ifs with spared
    · exact Iff.rfl
    · refine iff_of_false (by decide) fun vacant => spared (Or.inl vacant)
  unfold deathMatrix VacantAtDeath
  simp only [Prod.mk.eta, killed]
  by_cases before : k ∈ cells.takeWhile (· ≠ c)
  · rw [if_pos before, ageAlien_empty_iff, and_iff_right before]
  · rw [if_neg before]
    exact (or_iff_left fun h => before h.1).symm

theorem freeCell_eq_none_iff (rand : ℕ → ℕ) (m : Row → Col → Alien) :
    freeCell rand m alienRandomSpawnAttempts 0 = none ↔
      (m (Fin.ofNat 7 (rand 1)) (Fin.ofNat 11 (rand 0))).state ≠ AlienState.empty ∧
        (m (Fin.ofNat 7 (rand 3)) (Fin.ofNat 11 (rand 2))).state ≠ AlienState.empty := by
  change (if (m (Fin.ofNat 7 (rand 1)) (Fin.ofNat 11 (rand 0))).state = AlienState.empty then some _
    else if (m (Fin.ofNat 7 (rand 3)) (Fin.ofNat 11 (rand 2))).state = AlienState.empty then some _
    else none) = none ↔ _
  split_ifs with first second
  · exact iff_of_false (by simp) fun h => h.1 first
  · exact iff_of_false (by simp) fun h => h.2 second
  · exact iff_of_true rfl ⟨first, second⟩

/-! ## The killer is the only live alien -/

/-- If the game is over, the killer is the only live alien. -/
def OnlyKillerLive (g : Globals) : Prop :=
  g.gameState = .gameOver → ∀ i j, (g.gameMatrix i j).Live ↔ g.killerAt i j

/-- In this interrupt an alien kills the player, a spawn is due, and one of the two cells selected by
`rand()` is empty. -/
def SpawnsAtDeath (g : Globals) (e : Interrupt) : Prop :=
  ∃ rtcHours rtcMinutes rand c, e = .timer rtcHours rtcMinutes rand ∧ Steps g e ∧
    firstExpired g.gameMatrix = some c ∧ ¬ g.randomAlienCounter < g.randomAlienNumber ∧
    (VacantAtDeath g.gameMatrix c (Fin.ofNat 7 (rand 1), Fin.ofNat 11 (rand 0)) ∨
      VacantAtDeath g.gameMatrix c (Fin.ofNat 7 (rand 3), Fin.ofNat 11 (rand 2)))

theorem killerAt_killedBy (g : Globals) (c : Cell) (i : Row) (j : Col) :
    (g.killedBy c).killerAt i j ↔ (i, j) = c := by
  change (c.2 : ℕ) = j ∧ (c.1 : ℕ) = i ↔ _
  rw [Fin.val_inj, Fin.val_inj, Prod.ext_iff, eq_comm (a := c.2), eq_comm (a := c.1), and_comm]

theorem decayAlien_not_live {a : Alien} (h : ¬ a.Live) : ¬ (decayAlien a).Live := by
  unfold decayAlien
  split_ifs
  · exact h
  · exact h
  · simp only [Alien.Live, AlienState.alive, AlienState.appearing, not_or] at *
    omega

/-- A spawn in the step in which the player dies leaves a second live alien. -/
theorem SpawnsAtDeath.not_onlyKillerLive {g : Globals} {e : Interrupt} (h : SpawnsAtDeath g e) :
    ¬ OnlyKillerLive (handle g e) := by
  obtain ⟨rtcHours, rtcMinutes, rand, c, rfl, ⟨running, tick⟩, first, due, vacant⟩ := h
  obtain ⟨g₁, h₁, h'⟩ := handle_timer tick
  have same := sameGame_of_core h₁
  have running₁ : g₁.gameState = .playing := same.gameState.trans running
  have matrix := same.gameMatrix
  have due₁ : ¬ ((g₁.record .gameStep).killedBy c).randomAlienCounter <
      ((g₁.record .gameStep).killedBy c).randomAlienNumber := by
    change ¬ g₁.randomAlienCounter < g₁.randomAlienNumber
    rwa [same.randomAlienCounter, same.randomAlienNumber]
  have found : freeCell rand (deathMatrix g.gameMatrix c) alienRandomSpawnAttempts 0 ≠ none := by
    rw [Ne, freeCell_eq_none_iff]
    rintro ⟨full, full'⟩
    rcases vacant with vacant | vacant
    · exact full ((deathMatrix_empty_iff _ _ _).2 vacant)
    · exact full' ((deathMatrix_empty_iff _ _ _).2 vacant)
  obtain ⟨k, free⟩ := Option.ne_none_iff_exists'.1 found
  have free₁ : freeCell rand ((g₁.record .gameStep).killedBy c).gameMatrix alienRandomSpawnAttempts 0 =
      some k := by
    change freeCell rand (deathMatrix g₁.gameMatrix c) _ 0 = _
    rwa [matrix]
  have spawned : handle g (.timer rtcHours rtcMinutes rand) =
      ((g₁.record .gameStep).killedBy c).spawnRound.spawnAt k := by
    rw [h', gameIh_playing running₁, gameStep_eq running₁, matrix, first]
    simp only
    rw [gameGenerateNewAlien_due due₁, free₁]
  have other : k ≠ c := by
    rintro rfl
    have empty := freeCell_vacant free
    rw [deathMatrix_killer, (firstExpired_some first).1] at empty
    cases empty
  intro only
  rw [spawned] at only
  have live : ((((g₁.record .gameStep).killedBy c).spawnRound.spawnAt k).gameMatrix k.1 k.2).Live := by
    change Alien.Live (if k.1 = k.1 ∧ k.2 = k.2 then _ else _)
    rw [if_pos ⟨rfl, rfl⟩]
    exact Or.inr rfl
  exact other ((killerAt_killedBy (g₁.record .gameStep) c k.1 k.2).1 ((only rfl k.1 k.2).1 live))

/-- A step in which the player dies and nothing is spawned leaves the killer as the only live alien. -/
theorem onlyKillerLive_gameStep {g : Globals} (running : g.gameState = .playing) {rand : ℕ → ℕ}
    (clear : ∀ c, firstExpired g.gameMatrix = some c → ¬ g.randomAlienCounter < g.randomAlienNumber →
      freeCell rand (deathMatrix g.gameMatrix c) alienRandomSpawnAttempts 0 = none) :
    OnlyKillerLive (gameStep rand g) := by
  rw [gameStep_eq running]
  cases first : firstExpired g.gameMatrix with
  | none =>
    intro ended
    rw [gameGenerateNewAlien_state] at ended
    exact absurd (running.symm.trans ended) (by decide)
  | some c =>
    simp only
    have unchanged : ∀ g' : Globals,
        g'.gameMatrix = ((g.record .gameStep).killedBy c).gameMatrix →
        g'.killerAlien = ((g.record .gameStep).killedBy c).killerAlien → OnlyKillerLive g' := by
      intro g' matrix killer _ i j
      rw [matrix, Globals.killerAt, killer]
      exact (deathMatrix_live_iff (firstExpired_some first) i j).trans
        (killerAt_killedBy (g.record .gameStep) c i j).symm
    by_cases wait : g.randomAlienCounter < g.randomAlienNumber
    · rw [gameGenerateNewAlien_wait (g := (g.record .gameStep).killedBy c) wait]
      exact unchanged _ rfl rfl
    · rw [gameGenerateNewAlien_due (g := (g.record .gameStep).killedBy c) wait,
        show ((g.record .gameStep).killedBy c).gameMatrix = deathMatrix g.gameMatrix c from rfl,
        clear c first wait]
      exact unchanged _ rfl rfl

/-- Without such a spawn the killer stays the only live alien. -/
theorem OnlyKillerLive.handle {g : Globals} (h : OnlyKillerLive g) {e : Interrupt}
    (clear : ¬ SpawnsAtDeath g e) : OnlyKillerLive (handle g e) := by
  intro ended i j
  rcases handle_gameOver ended with ⟨steps, rtcHours, rtcMinutes, rand, g₁, rfl, h₁, h'⟩ |
    ⟨before, matrix, killer, -⟩ | ⟨before, g₁, h₁, h'⟩
  · have same := sameGame_of_core h₁
    rw [h'] at ended ⊢
    refine onlyKillerLive_gameStep (same.gameState.trans steps.1) ?_ ended i j
    intro c first due
    rw [same.gameMatrix] at first ⊢
    rw [same.randomAlienCounter, same.randomAlienNumber] at due
    rw [freeCell_eq_none_iff]
    constructor
    · intro vacant
      exact clear ⟨_, _, rand, c, rfl, steps, first, due,
        Or.inl ((deathMatrix_empty_iff _ _ (_, _)).1 vacant)⟩
    · intro vacant
      exact clear ⟨_, _, rand, c, rfl, steps, first, due,
        Or.inr ((deathMatrix_empty_iff _ _ (_, _)).1 vacant)⟩
  · rw [matrix, Globals.killerAt, killer]
    exact h before i j
  · have same := sameGame_of_core h₁
    rw [h']
    change Alien.Live (if g₁.killerAt i j then g₁.gameMatrix i j else decayAlien (g₁.gameMatrix i j)) ↔
      g₁.killerAt i j
    have only := h before i j
    rw [← same.gameMatrix, Globals.killerAt, ← same.killerAlien] at only
    by_cases here : g₁.killerAt i j
    · rw [if_pos here]
      exact only
    · rw [if_neg here]
      exact iff_of_false (decayAlien_not_live fun live => here (only.1 live)) here

/-- In all states of a run the killer is the only live alien while the game is over, if and only if no
interrupt of the run spawns an alien in the step in which the player dies. -/
theorem onlyKillerLive_iff (lb : Leaderboard) (es : List Interrupt) :
    Transition.EveryState handle OnlyKillerLive (loopStart lb) es ↔
      Transition.EveryStep handle (fun g e => ¬ SpawnsAtDeath g e) (loopStart lb) es := by
  apply Transition.everyState_iff
  · intro g e h
    constructor
    · exact fun h' spawns => spawns.not_onlyKillerLive h'
    · exact fun clear => h.handle clear
  · intro ended
    cases ended

theorem Target.firstExpired {g : Globals} {n : ℕ} (h : Target g n ⟨AlienState.alive, 0⟩) :
    firstExpired g.gameMatrix = some (4, 5) := by
  have dead : expired (g.gameMatrix 4 5) := by
    rw [h.alien]
    decide
  cases first : LabComputers.firstExpired g.gameMatrix with
  | none => exact absurd dead (firstExpired_none first 4 5)
  | some c =>
    by_contra other
    have here := firstExpired_some first
    rw [h.others c.1 c.2 fun same => other (congrArg some same)] at here
    cases here.1

/-- The alien that appears in frame 254 kills the player in frame 561, in which a spawn is due. -/
theorem second_alien_after_death : ∃ g, Reachable g ∧ ¬ OnlyKillerLive g := by
  obtain ⟨g, leads, h⟩ := exists_fourth_alien
  obtain ⟨g', leads', h'⟩ := h.frames
    (show Play.frames 306 _ = some ⟨⟨AlienState.alive, 0⟩, 20, 20, 0⟩ by decide +kernel)
  have running := h'.target.running
  have awake : g'.gameState ≠ .exit := by simp [running]
  have leads₁ : Leads (loopStart .zero) g'.between :=
    (leads.trans leads').trans (leads_between awake h'.target.even)
  have tick : ticks g'.between (.timer 0 0 fun _ => 0) = true := by
    have even := later_even h'.target.even
    rw [← frameNumber_eq] at even
    exact decide_eq_true even
  have due : ¬ g'.randomAlienCounter < g'.randomAlienNumber := by
    rw [h'.counter, h'.number]
    decide
  have vacant : (g'.gameMatrix 0 0).state = AlienState.empty := by
    rw [h'.target.others 0 0 (by decide)]
  have spawns : SpawnsAtDeath g'.between (.timer 0 0 fun _ => 0) :=
    ⟨0, 0, fun _ => 0, (4, 5), rfl, ⟨running, tick⟩, h'.target.firstExpired, due, Or.inl (Or.inl vacant)⟩
  refine ⟨_, Leads.reachable (leads₁.tail (.timer 0 0 fun _ => 0) ?_), spawns.not_onlyKillerLive⟩
  exact decide_eq_false awake

/-! ## The other cells are empty when the banner is shown -/

/-- The frames after the death of the player until the alien of a cell has vanished. -/
def framesLeft (a : Alien) : ℕ := a.time + 1 + 3 * (AlienState.dead5 - a.state)

theorem framesLeft_decayAlien {a : Alien} (low : a.state ≤ AlienState.dead5) :
    (decayAlien a).state = AlienState.empty ∨
      ((decayAlien a).state ≤ AlienState.dead5 ∧ framesLeft (decayAlien a) + 1 = framesLeft a) := by
  have occupied : a.state ≠ AlienState.empty := by
    simp only [AlienState.dead5, AlienState.empty] at *
    omega
  by_cases left : a.time > 0
  · have waits : decayAlien a = ⟨a.state, a.time - 1⟩ := by
      rw [decayAlien, if_neg occupied, if_pos left]
    rw [waits]
    refine Or.inr ⟨low, ?_⟩
    simp only [framesLeft]
    omega
  · have next : decayAlien a = ⟨a.state + 1, 2⟩ := by
      rw [decayAlien, if_neg occupied, if_neg left]
    rw [next]
    simp only [framesLeft, AlienState.dead5, AlienState.empty] at *
    omega

/-- If the game is over, each cell but the killer's is empty or its alien vanishes in time. -/
def Fading (g : Globals) : Prop :=
  g.gameState = .gameOver → ∀ i j, ¬ g.killerAt i j →
    (g.gameMatrix i j).state = AlienState.empty ∨
      ((g.gameMatrix i j).state ≤ AlienState.dead5 ∧
        framesLeft (g.gameMatrix i j) + 96 ≤ g.gameOverCounter.toNat)

/-- At the death of the player every other alien has just been killed or has just appeared. -/
theorem fading_gameStep {g : Globals} (running : g.gameState = .playing) (rand : ℕ → ℕ) :
    Fading (gameStep rand g) := by
  rw [gameStep_eq running]
  cases first : firstExpired g.gameMatrix with
  | none =>
    intro ended
    rw [gameGenerateNewAlien_state] at ended
    exact absurd (running.symm.trans ended) (by decide)
  | some c =>
    simp only
    have killed : ∀ i j, ¬ ((g.record .gameStep).killedBy c).killerAt i j →
        (deathMatrix g.gameMatrix c i j).state = AlienState.empty ∨
          ((deathMatrix g.gameMatrix c i j).state ≤ AlienState.dead5 ∧
            framesLeft (deathMatrix g.gameMatrix c i j) + 96 ≤ 120) := by
      intro i j other
      rw [killerAt_killedBy] at other
      rcases deathMatrix_other g.gameMatrix other with vacant | killed
      · exact Or.inl vacant
      · rw [killed]
        exact Or.inr ⟨by decide, by decide⟩
    obtain ⟨counter, number, increase, e | ⟨k, -, e⟩⟩ :=
      gameGenerateNewAlien_cases rand ((g.record .gameStep).killedBy c) <;> rw [e]
    · exact fun _ => killed
    · intro _ i j other
      have cell : ((((g.record .gameStep).killedBy c).withSpawn counter number increase).spawnAt k
          ).gameMatrix i j = if i = k.1 ∧ j = k.2 then ⟨AlienState.appearing, 5⟩
            else deathMatrix g.gameMatrix c i j := rfl
      rw [cell]
      split_ifs
      · refine Or.inr ⟨by decide, ?_⟩
        change framesLeft ⟨AlienState.appearing, 5⟩ + 96 ≤ 120
        decide
      · exact killed i j other

theorem Fading.handle {g : Globals} (h : Fading g) (e : Interrupt) : Fading (handle g e) := by
  by_cases ended : (LabComputers.handle g e).gameState = .gameOver
  · rcases handle_gameOver ended with ⟨steps, -, -, rand, g₁, -, h₁, h'⟩ |
      ⟨before, matrix, killer, counter⟩ | ⟨before, g₁, h₁, h'⟩
    · rw [h']
      exact fading_gameStep ((gameState_of_core h₁).trans steps.1) rand
    · intro _ i j other
      rw [Globals.killerAt, killer] at other
      rw [matrix, counter]
      exact h before i j other
    · have same := sameGame_of_core h₁
      rw [h']
      intro _ i j other
      have other₁ : ¬ g₁.killerAt i j := other
      have decayed : g₁.countedDown.gameMatrix i j = decayAlien (g.gameMatrix i j) := by
        rw [← same.gameMatrix]
        exact if_neg other₁
      have less : g₁.countedDown.gameOverCounter = g.gameOverCounter - 1 := by
        rw [← same.gameOverCounter]
        rfl
      rw [Globals.killerAt, same.killerAlien] at other₁
      rw [decayed, less]
      rcases h before i j other₁ with vacant | ⟨low, time⟩
      · refine Or.inl ?_
        rw [decayAlien, if_pos vacant]
        exact vacant
      · rcases framesLeft_decayAlien low with gone | ⟨low', shorter⟩
        · exact Or.inl gone
        · refine Or.inr ⟨low', ?_⟩
          have positive : (1 : UInt32) ≤ g.gameOverCounter := by
            rw [UInt32.le_iff_toNat_le, UInt32.toNat_one]
            omega
          rw [UInt32.toNat_sub_of_le _ _ positive, UInt32.toNat_one]
          omega
  · exact fun ended' => absurd ended' ended

/-- When the banner is shown instead of the aliens, every cell but the killer's is empty. -/
theorem gone_under_banner {g : Globals} (reachable : Reachable g) (ended : g.gameState = .gameOver)
    (banner : g.gameOverCounter < gameOverWait - 30) (i : Row) (j : Col) (other : ¬ g.killerAt i j) :
    (g.gameMatrix i j).state = AlienState.empty := by
  obtain ⟨lb, es, rfl⟩ := reachable.exists_run
  have start : Fading (loopStart lb) := fun ended => by cases ended
  have fading : Fading (Transition.run handle (loopStart lb) es) :=
    Transition.run_induction handle (fun _ e h => h.handle e) start es
  rcases fading ended i j other with vacant | ⟨-, time⟩
  · exact vacant
  · have late := UInt32.lt_iff_toNat_lt.1 banner
    rw [show (gameOverWait - 30).toNat = 90 by decide] at late
    omega

/-- A game without a hit comes to the banner. -/
theorem gone_under_banner_once :
    ∃ g, Reachable g ∧ g.gameState = .gameOver ∧ g.gameOverCounter.toNat = 89 ∧
      ∀ i j, ¬ g.killerAt i j → (g.gameMatrix i j).state = AlienState.empty := by
  obtain ⟨g, leads, h⟩ := exists_target 0
  obtain ⟨g₁, leads₁, h₁⟩ := h.expires (k := 0) (Or.inl ⟨rfl, rfl⟩)
  have leads₂ := leads_twoTimers (by simp [h₁.running]) (by simp [h₁.running]) h₁.even aim
  obtain ⟨g₂, leads₃, h₂⟩ := h₁.twoTimers_over.frames (k := 88) (m := 31)
  have reachable : Reachable g₂ := Leads.reachable (((leads.trans leads₁).trans leads₂).trans leads₃)
  have banner : g₂.gameOverCounter < gameOverWait - 30 := by
    rw [UInt32.lt_iff_toNat_lt, h₂.counter]
    decide
  exact ⟨g₂, reachable, h₂.ended, h₂.counter, gone_under_banner reachable h₂.ended banner⟩

end LabComputers

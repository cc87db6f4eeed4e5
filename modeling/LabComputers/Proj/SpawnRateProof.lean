import LabComputers.Proj.ReplayProof

/-!
# The spawn interval

`random_alien_number` is meant to fall from `ALIEN_INIT_SPAWN_TIME` to `ALIEN_MAX_SPAWN_RATE` in steps
of `ALIEN_SPAWN_RATE_INCREASE`.  The guard of `game_generate_new_alien` compares the step with the
interval and not with the floor, so the interval falls on to zero and only then returns to the floor.
`rateKept_iff` says which runs stay clear of this: those without a spawn round at the floor.
-/

namespace LabComputers

/-! ## The spawn variables of one step -/

/-- The spawn variables after `game_step`. -/
def Globals.nextSpawnVars (g : Globals) : UInt32 × UInt32 × UInt32 :=
  if g.randomAlienCounter < g.randomAlienNumber then
    (g.randomAlienCounter + 1, g.randomAlienNumber, g.randomAlienSpawnRateIncrease)
  else g.spawnRound.spawnVars

theorem gameGenerateNewAlien_spawnVars (rand : ℕ → ℕ) (g : Globals) :
    (gameGenerateNewAlien rand g).spawnVars = g.nextSpawnVars := by
  unfold Globals.nextSpawnVars
  by_cases wait : g.randomAlienCounter < g.randomAlienNumber
  · rw [gameGenerateNewAlien_wait wait, if_pos wait]
    rfl
  · rw [gameGenerateNewAlien_due wait, if_neg wait]
    split <;> rfl

theorem gameStep_spawnVars {g : Globals} (running : g.gameState = .playing) (rand : ℕ → ℕ) :
    (gameStep rand g).spawnVars = g.nextSpawnVars := by
  rcases gameStep_cases running rand with ⟨-, e⟩ | ⟨c, -, e⟩ <;>
    rw [e, gameGenerateNewAlien_spawnVars] <;> rfl

theorem mouseEventHandler_spawnVars (event : MouseEvent) (g : Globals) :
    (mouseEventHandler event g).spawnVars = g.spawnVars := by
  rcases mouseEventHandler_cases event g with e | e | ⟨-, c, -, e⟩ | ⟨-, e⟩ | ⟨-, st, -, e⟩ <;>
    rw [e] <;> rfl

theorem spawnVars_of_core {g g' : Globals} (h : core g = core g') : g.spawnVars = g'.spawnVars :=
  (congrArg Globals.spawnVars h :)

/-- The interrupt starts a new game. -/
def StartsGame (g : Globals) (e : Interrupt) : Prop :=
  (handle g e).calls = .gameInitialize :: g.calls

/-- An interrupt makes a step of the game, starts a new game, or keeps the spawn variables. -/
theorem handle_spawnVars (g : Globals) (e : Interrupt) :
    (Steps g e ∧ (handle g e).spawnVars = g.nextSpawnVars) ∨
    (¬ Steps g e ∧ StartsGame g e ∧
      (handle g e).spawnVars = (0, alienInitSpawnTime, alienSpawnRateIncrease)) ∨
    (¬ Steps g e ∧ (handle g e).spawnVars = g.spawnVars) := by
  have still : ticks g e = false → ¬ Steps g e := fun quiet steps => by
    rw [steps.2] at quiet
    cases quiet
  rcases handle_cases g e with ⟨h', quiet⟩ | ⟨g₁, arr, h₁, h', quiet⟩ |
    ⟨g₁, scanCode, h₁, h', quiet⟩ | ⟨g₁, rand, h₁, h', tick⟩
  · exact Or.inr (Or.inr ⟨still quiet, spawnVars_of_core h'⟩)
  · refine Or.inr (Or.inr ⟨still quiet, ?_⟩)
    rw [spawnVars_of_core h', mouseEventHandler_spawnVars, spawnVars_of_core h₁]
  · have calls := (sameGame_of_core h₁).calls
    have vars := spawnVars_of_core h₁
    rw [StartsGame, h', ← calls, ← vars]
    rcases keyboardEventHandler_cases scanCode g₁ with e' | e' | ⟨-, e'⟩ | ⟨-, e'⟩ |
      ⟨-, ⟨c, -, -, e'⟩ | e' | ⟨-, e'⟩⟩ | ⟨-, e'⟩ <;> rw [e']
    on_goal 8 => exact Or.inr (Or.inl ⟨still quiet, rfl, rfl⟩)
    all_goals exact Or.inr (Or.inr ⟨still quiet, rfl⟩)
  · have state := gameState_of_core h₁
    have vars := spawnVars_of_core h₁
    rw [h']
    rcases gameIh_cases rand g₁ with ⟨running, e'⟩ | ⟨ended, -, e'⟩ | ⟨ended, -, e'⟩ | ⟨other, -, e'⟩ <;>
      rw [e']
    · refine Or.inl ⟨⟨state.symm.trans running, tick⟩, ?_⟩
      rw [gameStep_spawnVars running]
      exact (congrArg Globals.nextSpawnVars h₁ :)
    · refine Or.inr (Or.inr ⟨fun steps => ?_, vars⟩)
      rw [state, steps.1] at ended
      cases ended
    · refine Or.inr (Or.inr ⟨fun steps => ?_, vars⟩)
      rw [state, steps.1] at ended
      cases ended
    · exact Or.inr (Or.inr ⟨fun steps => other (state.trans steps.1), vars⟩)

/-! ## Runs without a spawn round at the floor -/

/-- The interrupt starts a spawn round although the interval is already the shortest one. -/
def DueAtFloor (g : Globals) (e : Interrupt) : Prop :=
  Steps g e ∧ ¬ g.randomAlienCounter < g.randomAlienNumber ∧ g.randomAlienNumber = alienMaxSpawnRate

/-- The interrupt leaves the interval in its range, raises it only by starting a new game, and the
subtraction of a spawn round does not wrap. -/
structure RateKept (g : Globals) (e : Interrupt) : Prop where
  range : alienMaxSpawnRate ≤ (handle g e).randomAlienNumber ∧
    (handle g e).randomAlienNumber ≤ alienInitSpawnTime
  falls : (handle g e).randomAlienNumber ≤ g.randomAlienNumber ∨ StartsGame g e
  noWrap : (rateGuard g.randomAlienNumber g.randomAlienSpawnRateIncrease).2 ≤
    (rateGuard g.randomAlienNumber g.randomAlienSpawnRateIncrease).1

/-- The interval is on its way from the longest to the shortest. -/
structure Ramp (g : Globals) : Prop where
  increase : g.randomAlienSpawnRateIncrease = alienSpawnRateIncrease
  low : 20 ≤ g.randomAlienNumber.toNat
  high : g.randomAlienNumber.toNat ≤ 70
  whole : g.randomAlienNumber.toNat % 5 = 0

theorem Ramp.of_vars {g g' : Globals} (h : Ramp g) (vars : g'.spawnVars = g.spawnVars) : Ramp g' := by
  have number : g'.randomAlienNumber = g.randomAlienNumber := congrArg (·.2.1) vars
  have increase : g'.randomAlienSpawnRateIncrease = g.randomAlienSpawnRateIncrease :=
    congrArg (·.2.2) vars
  exact ⟨increase.trans h.increase, number ▸ h.low, number ▸ h.high, number ▸ h.whole⟩

theorem ramp_of_start {g : Globals}
    (vars : g.spawnVars = (0, alienInitSpawnTime, alienSpawnRateIncrease)) : Ramp g := by
  have number : g.randomAlienNumber = 70 := congrArg (·.2.1) vars
  refine ⟨congrArg (·.2.2) vars, ?_, ?_, ?_⟩ <;> rw [number] <;> decide

theorem rateGuard_le (number increase : UInt32) :
    (rateGuard number increase).2 ≤ (rateGuard number increase).1 := by
  unfold rateGuard
  split_ifs with fast
  · exact UInt32.zero_le
  · exact UInt32.not_lt.1 fast

theorem Ramp.range {g : Globals} (h : Ramp g) :
    alienMaxSpawnRate ≤ g.randomAlienNumber ∧ g.randomAlienNumber ≤ alienInitSpawnTime :=
  ⟨UInt32.le_iff_toNat_le.2 h.low, UInt32.le_iff_toNat_le.2 h.high⟩

/-- In a spawn round the interval loses one step. -/
theorem Ramp.spawnRound_number {g : Globals} (h : Ramp g) :
    g.spawnRound.randomAlienNumber.toNat = g.randomAlienNumber.toNat - 5 ∧
      g.spawnRound.randomAlienSpawnRateIncrease = alienSpawnRateIncrease := by
  have low := h.low
  have slow : ¬ alienSpawnRateIncrease > g.randomAlienNumber := by
    rw [gt_iff_lt, UInt32.not_lt, UInt32.le_iff_toNat_le]
    exact Nat.le_trans (by decide) low
  have rate : rateGuard g.randomAlienNumber g.randomAlienSpawnRateIncrease =
      (g.randomAlienNumber, alienSpawnRateIncrease) := by
    rw [rateGuard, h.increase, if_neg slow]
  rw [Globals.spawnRound, rate]
  exact ⟨UInt32.toNat_sub_of_le _ _ (UInt32.not_lt.1 slow), rfl⟩

/-- A step that is not due at the floor continues the ramp. -/
theorem Ramp.step {g g' : Globals} (h : Ramp g) (vars : g'.spawnVars = g.nextSpawnVars)
    (clear : ¬ (¬ g.randomAlienCounter < g.randomAlienNumber ∧
      g.randomAlienNumber = alienMaxSpawnRate)) :
    Ramp g' ∧ g'.randomAlienNumber ≤ g.randomAlienNumber := by
  unfold Globals.nextSpawnVars at vars
  split_ifs at vars with wait
  · have number : g'.randomAlienNumber = g.randomAlienNumber := congrArg (·.2.1) vars
    refine ⟨⟨(congrArg (·.2.2) vars).trans h.increase, ?_, ?_, ?_⟩, ?_⟩ <;> rw [number]
    · exact h.low
    · exact h.high
    · exact h.whole
    · exact UInt32.le_refl _
  · obtain ⟨less, increase⟩ := h.spawnRound_number
    have number : g'.randomAlienNumber = g.spawnRound.randomAlienNumber := congrArg (·.2.1) vars
    have above : g.randomAlienNumber.toNat ≠ 20 := fun floor =>
      clear ⟨wait, UInt32.toNat_inj.1 floor⟩
    obtain ⟨-, low, high, whole⟩ := h
    refine ⟨⟨(congrArg (·.2.2) vars).trans increase, ?_, ?_, ?_⟩, ?_⟩
    · rw [number, less]
      omega
    · rw [number, less]
      omega
    · rw [number, less]
      omega
    · rw [UInt32.le_iff_toNat_le, number, less]
      omega

theorem Ramp.handle {g : Globals} (h : Ramp g) {e : Interrupt} (clear : ¬ DueAtFloor g e) :
    Ramp (handle g e) ∧ RateKept g e := by
  have noWrap := rateGuard_le g.randomAlienNumber g.randomAlienSpawnRateIncrease
  rcases handle_spawnVars g e with ⟨steps, vars⟩ | ⟨-, starts, vars⟩ | ⟨-, vars⟩
  · obtain ⟨h', falls⟩ := h.step vars fun due => clear ⟨steps, due⟩
    exact ⟨h', h'.range, Or.inl falls, noWrap⟩
  · have h' := ramp_of_start vars
    exact ⟨h', h'.range, Or.inr starts, noWrap⟩
  · have h' := h.of_vars vars
    have number : (LabComputers.handle g e).randomAlienNumber = g.randomAlienNumber :=
      congrArg (·.2.1) vars
    exact ⟨h', h'.range, Or.inl (number ▸ UInt32.le_refl _), noWrap⟩

/-- A spawn round at the floor takes the interval below it. -/
theorem Ramp.not_rateKept {g : Globals} (h : Ramp g) {e : Interrupt} (due : DueAtFloor g e) :
    ¬ RateKept g e := by
  obtain ⟨steps, due, floor⟩ := due
  intro kept
  have vars : (LabComputers.handle g e).spawnVars = g.spawnRound.spawnVars := by
    rcases handle_spawnVars g e with ⟨-, vars⟩ | ⟨not, -⟩ | ⟨not, -⟩
    · rw [vars, Globals.nextSpawnVars, if_neg due]
    · exact absurd steps not
    · exact absurd steps not
  have number : (LabComputers.handle g e).randomAlienNumber = g.spawnRound.randomAlienNumber :=
    congrArg (·.2.1) vars
  have low := UInt32.le_iff_toNat_le.1 kept.range.1
  rw [number, h.spawnRound_number.1, floor] at low
  exact absurd low (by decide)

/-- The spawn interval starts at its longest; in a run it never increases within a game, never leaves
its range and its subtraction never wraps, if and only if no spawn round is started while the interval
is the shortest one. -/
theorem rateKept_iff (lb : Leaderboard) (es : List Interrupt) :
    (loopStart lb).randomAlienNumber = alienInitSpawnTime ∧
    (Transition.EveryStep handle RateKept (loopStart lb) es ↔
      Transition.EveryStep handle (fun g e => ¬ DueAtFloor g e) (loopStart lb) es) := by
  refine ⟨rfl, Transition.everyStep_congr (I := Ramp) handle ?_ ?_ (ramp_of_start rfl) es⟩
  · intro g e h clear
    exact (h.handle clear).1
  · intro g e h
    constructor
    · exact fun kept due => h.not_rateKept due kept
    · exact fun clear => (h.handle clear).2

/-- In frame 506 of a game the interval has fallen to 15. -/
theorem rate_below_floor :
    ∃ g, Reachable g ∧ g.gameState = .playing ∧ g.randomAlienNumber = 15 ∧
      g.randomAlienNumber < alienMaxSpawnRate := by
  obtain ⟨g, leads, h⟩ := exists_fourth_alien
  obtain ⟨g', leads', h'⟩ := h.frames
    (show Play.frames 252 _ = some ⟨⟨AlienState.alive, 54⟩, 0, 15, 5⟩ by decide +kernel)
  refine ⟨g', Leads.reachable (leads.trans leads'), h'.target.running, h'.number, ?_⟩
  rw [h'.number]
  decide

end LabComputers

import LabComputers.Lib.Lifetime
import LabComputers.Proj.HandlerProof

/-!
# The lives of the aliens

The calls recorded since the last `game_initialize` form a history of ticks (`game_step`), births
(`game_generate_new_alien`) and deaths (`mouse_check_kill`) in the sense of `Lifetime`.  `Tracked`
ties the state and the countdown of every cell to the age of its alien in this history, and
`Recorded` holds in every reachable state.
-/

namespace LabComputers

open Lifetime

/-! ## The history of a game -/

/-- What a recorded call means for the aliens. -/
def Call.life? : Call → Option (Event Cell)
  | .gameStep => some .tick
  | .spawn i j => some (.born (i, j))
  | .hit i j => some (.died (i, j))
  | _ => none

/-- The lives of the aliens of the current game. -/
def life (calls : List Call) : List (Event Cell) := (sinceInit calls).filterMap Call.life?

/-- A call that does not concern the aliens leaves no trace in the history. -/
theorem life_cons {c : Call} (other : c ≠ .gameInitialize) (none : c.life? = none)
    (calls : List Call) : life (c :: calls) = life calls := by
  have kept : sinceInit (c :: calls) = c :: sinceInit calls := by
    cases c <;> first | rfl | exact absurd rfl other
  rw [life, kept, List.filterMap_cons_none none, life]

theorem life_mouseEventHandler (event : MouseEvent) (calls : List Call) :
    life (.mouseEventHandler event :: calls) = life calls := life_cons (by simp) rfl calls

theorem life_mouseCheckKill (calls : List Call) : life (.mouseCheckKill :: calls) = life calls :=
  life_cons (by simp) rfl calls

theorem life_mouseCheckButtons (calls : List Call) :
    life (.mouseCheckExitButton :: .mouseCheckPlayButton :: calls) = life calls :=
  (life_cons (by simp) rfl _).trans (life_cons (by simp) rfl calls)

theorem life_addScore (score : ℤ) (name : List UInt8) (lb : Leaderboard) (calls : List Call) :
    life (.addScore score name lb :: calls) = life calls := life_cons (by simp) rfl calls

theorem life_gameStep (calls : List Call) : life (.gameStep :: calls) = .tick :: life calls := rfl

theorem life_hit (i : Row) (j : Col) (calls : List Call) :
    life (.hit i j :: calls) = .died (i, j) :: life calls := rfl

/-- The number of calls of `game_step` in the current game. -/
def gameSteps (g : Globals) : ℕ := clock (life g.calls)

/-- The number of aliens spawned in the current game. -/
def spawned (g : Globals) : ℕ := births (life g.calls)

/-- The number of aliens hit in the current game. -/
def hits (g : Globals) : ℕ := deaths (life g.calls)

/-! ## Cells and ages -/

/-- The state and countdown of a cell whose alien has the given age, if one lives there. -/
def Aged (a : Alien) : Option ℕ → Prop
  | none => AlienState.dead1 ≤ a.state
  | some n =>
    (a.state = AlienState.appearing ∧ a.time + n = 5) ∨
      (a.state = AlienState.alive ∧ a.time + n = 306 ∧ 6 ≤ n)

theorem Aged.live_iff {a : Alien} {o : Option ℕ} (h : Aged a o) : a.Live ↔ o ≠ none := by
  cases o with
  | none =>
    simp only [Aged, Alien.Live, AlienState.dead1, AlienState.alive, AlienState.appearing] at *
    simp only [ne_eq, not_true_eq_false, iff_false]
    omega
  | some n =>
    simp only [Aged, Alien.Live, AlienState.alive, AlienState.appearing] at *
    simp only [ne_eq, reduceCtorEq, not_false_eq_true, iff_true]
    omega

/-- The alien that kills the player is the one of age 306. -/
theorem Aged.expired_iff {a : Alien} {o : Option ℕ} (h : Aged a o) : expired a ↔ o = some 306 := by
  cases o with
  | none =>
    simp only [Aged, expired, AlienState.dead1, AlienState.alive] at *
    simp only [reduceCtorEq, iff_false]
    omega
  | some n =>
    simp only [Aged, expired, AlienState.alive, AlienState.appearing, Option.some.injEq] at *
    omega

theorem Aged.ageAlien {a : Alien} {o : Option ℕ} (h : Aged a o) (safe : ¬ expired a) :
    Aged (ageAlien a) (o.map (· + 1)) := by
  by_cases vacant : a.state = AlienState.empty
  · rw [ageAlien_empty vacant]
    cases o with
    | none => exact h
    | some n => simp [Aged, vacant] at h
  · by_cases left : a.time > 0
    · rw [ageAlien_wait vacant left]
      cases o with
      | none => exact h
      | some n =>
        simp only [Aged, Option.map_some] at *
        omega
    · have due : a.time = 0 := by omega
      rw [ageAlien_next vacant due]
      cases o with
      | none =>
        simp only [Aged, Option.map_none] at *
        omega
      | some n =>
        obtain ⟨state, time⟩ | ⟨state, -, -⟩ := h
        · rw [state, show n = 5 by omega]
          exact Or.inr ⟨rfl, rfl, le_refl 6⟩
        · exact absurd ⟨state, due⟩ safe

/-! ## The invariant -/

/-- Every cell is in step with the history of the game. -/
structure Tracked (g : Globals) : Prop where
  aged : ∀ i j, Aged (g.gameMatrix i j) (age (life g.calls) (i, j))
  lawful : Lawful (life g.calls)

/-- The game is in one of the states before the death of the player. -/
def InPlay (st : GameState) : Prop := st = .menu ∨ st = .playing ∨ st = .pause

instance (st : GameState) : Decidable (InPlay st) := inferInstanceAs (Decidable (_ ∨ _ ∨ _))

/-- What the variables of the game tell about its history. -/
structure Recorded (g : Globals) : Prop where
  tracked : InPlay g.gameState → Tracked g
  points : g.points = UInt32.ofNat (hits g)

/-- The invariant is about four components of the state. -/
theorem Recorded.congr {g g' : Globals} (h : Recorded g)
    (state : InPlay g'.gameState → InPlay g.gameState) (matrix : g'.gameMatrix = g.gameMatrix)
    (points : g'.points = g.points) (history : life g'.calls = life g.calls) : Recorded g' where
  tracked p := ⟨by rw [matrix, history]; exact (h.tracked (state p)).aged,
    history ▸ (h.tracked (state p)).lawful⟩
  points := by rw [points, h.points, hits, hits, history]

theorem recorded_core (g : Globals) : Recorded (core g) ↔ Recorded g :=
  ⟨fun h => h.congr id rfl rfl rfl, fun h => h.congr id rfl rfl rfl⟩

theorem tracked_gameInitialize (g : Globals) : Tracked (gameInitialize g) where
  aged _ _ := show 2 ≤ 7 by decide
  lawful := .nil

theorem recorded_gameInitialize (g : Globals) : Recorded (gameInitialize g) where
  tracked _ := tracked_gameInitialize g
  points := rfl

theorem recorded_loopStart (lb : Leaderboard) : Recorded (loopStart lb) where
  tracked _ := { tracked_gameInitialize .atStart with }
  points := rfl

namespace Tracked

variable {g : Globals}

theorem hitAt (h : Tracked g) {c : Cell} (live : (g.gameMatrix c.1 c.2).Live) :
    Tracked (g.hitAt c) where
  aged i j := by
    change Aged (if i = c.1 ∧ j = c.2 then _ else _) (if (i, j) = (c.1, c.2) then _ else _)
    simp only [Prod.mk.injEq]
    split_ifs
    · exact le_refl 2
    · exact h.aged i j
  lawful := .died h.lawful ((h.aged c.1 c.2).live_iff.1 live)

theorem aged_gameStep (h : Tracked g) (safe : ∀ i j, ¬ expired (g.gameMatrix i j)) :
    Tracked (g.record .gameStep).aged where
  aged i j := (h.aged i j).ageAlien (safe i j)
  lawful := .tick h.lawful

theorem spawnAt (h : Tracked g) {c : Cell} (vacant : (g.gameMatrix c.1 c.2).state = AlienState.empty)
    (young : ∀ k, age (life g.calls) k ≠ some 0) : Tracked (g.spawnAt c) where
  aged i j := by
    change Aged (if i = c.1 ∧ j = c.2 then _ else _) (if (i, j) = (c.1, c.2) then _ else _)
    simp only [Prod.mk.injEq]
    split_ifs
    · exact Or.inl ⟨rfl, rfl⟩
    · exact h.aged i j
  lawful := by
    refine .born h.lawful ?_ young
    by_contra occupied
    exact Alien.not_live_of_empty vacant ((h.aged c.1 c.2).live_iff.2 occupied)

/-- `game_step` that does not end the game keeps the cells in step. -/
theorem gameStep (h : Tracked g) (safe : ∀ i j, ¬ expired (g.gameMatrix i j))
    (rand : ℕ → ℕ) : Tracked (gameGenerateNewAlien rand (g.record .gameStep).aged) := by
  have ticked := h.aged_gameStep safe
  have young : ∀ k, age (life (g.record .gameStep).aged.calls) k ≠ some 0 := by
    intro k hk
    obtain ⟨a, -, ha⟩ := Option.map_eq_some_iff.1 hk
    omega
  obtain ⟨counter, number, increase, e | ⟨c, vacant, e⟩⟩ :=
    gameGenerateNewAlien_cases rand (g.record .gameStep).aged
  · rw [e]
    exact { ticked with }
  · rw [e]
    have ticked' : Tracked ((g.record .gameStep).aged.withSpawn counter number increase) :=
      { ticked with }
    exact ticked'.spawnAt vacant young

end Tracked

namespace Recorded

variable {g : Globals}

theorem hitAt (h : Recorded g) {c : Cell} (running : g.gameState = .playing)
    (live : (g.gameMatrix c.1 c.2).Live) : Recorded (g.hitAt c) where
  tracked _ := (h.tracked (Or.inr (Or.inl running))).hitAt live
  points := by
    have more : hits (g.hitAt c) = hits g + 1 := by
      rw [hits, Globals.hitAt, Globals.record, life_hit, deaths]
      rfl
    rw [more, UInt32.ofNat_add, ← h.points]
    rfl

theorem mouseEventHandler (h : Recorded g) (event : MouseEvent) :
    Recorded (mouseEventHandler event g) := by
  have h' : Recorded (moved event g) :=
    h.congr id rfl rfl (life_mouseEventHandler event g.calls)
  have h'' : Recorded ((moved event g).record .mouseCheckKill) :=
    h'.congr id rfl rfl (life_mouseCheckKill _)
  rcases mouseEventHandler_cases event g with e | e | ⟨running, c, live, e⟩ | ⟨-, e⟩ |
    ⟨menu, st, -, e⟩ <;> rw [e]
  · exact h.congr id rfl rfl (life_mouseEventHandler event g.calls)
  · exact h'
  · exact (h''.hitAt running live).congr id rfl rfl rfl
  · exact h''.congr id rfl rfl rfl
  · exact h'.congr (fun _ => Or.inl menu) rfl rfl (life_mouseCheckButtons _)

theorem keyboardEventHandler (h : Recorded g) (scanCode : UInt8) :
    Recorded (keyboardEventHandler scanCode g) := by
  rcases keyboardEventHandler_cases scanCode g with e | e | ⟨running, e⟩ | ⟨paused, e⟩ |
    ⟨state, ⟨c, -, -, e⟩ | e | ⟨-, e⟩⟩ | ⟨-, e⟩ <;> rw [e]
  · exact h
  · exact h.congr (fun p => absurd p (show ¬ InPlay .exit by decide)) rfl rfl rfl
  · exact h.congr (fun _ => Or.inr (Or.inl running)) rfl rfl rfl
  · exact h.congr (fun _ => Or.inr (Or.inr paused)) rfl rfl rfl
  · exact h.congr id rfl rfl rfl
  · exact h.congr id rfl rfl rfl
  · exact h.congr (fun p => absurd p (show ¬ InPlay .leaderboard by decide)) rfl rfl
      (life_addScore _ _ _ _)
  · exact recorded_gameInitialize g

/-- Spawning does not change what was hit. -/
theorem gameGenerateNewAlien_points {g : Globals} (rand : ℕ → ℕ)
    (points : g.points = UInt32.ofNat (hits g)) :
    (gameGenerateNewAlien rand g).points = UInt32.ofNat (hits (gameGenerateNewAlien rand g)) := by
  obtain ⟨counter, number, increase, e | ⟨c, -, e⟩⟩ := gameGenerateNewAlien_cases rand g <;>
    rw [e] <;> exact points

theorem gameStep (h : Recorded g) (running : g.gameState = .playing) (rand : ℕ → ℕ) :
    Recorded (gameStep rand g) := by
  rcases gameStep_cases running rand with ⟨safe, e⟩ | ⟨c, -, e⟩ <;> rw [e] <;>
    refine ⟨fun inPlay => ?_, gameGenerateNewAlien_points rand h.points⟩
  · exact (h.tracked (Or.inr (Or.inl running))).gameStep safe rand
  · rw [gameGenerateNewAlien_state] at inPlay
    exact absurd inPlay (show ¬ InPlay .gameOver by decide)

theorem gameIh (h : Recorded g) (rand : ℕ → ℕ) : Recorded (gameIh rand g) := by
  rcases gameIh_cases rand g with ⟨running, e⟩ | ⟨ended, -, e⟩ | ⟨ended, -, e⟩ | ⟨-, -, e⟩ <;> rw [e]
  · exact h.gameStep running rand
  · refine ⟨fun p => absurd p ?_, h.points⟩
    change ¬ InPlay g.gameState
    rw [ended]
    decide
  · refine ⟨fun p => absurd p ?_, h.points⟩
    change ¬ InPlay (if _ then _ else _)
    split_ifs <;> decide
  · exact h

end Recorded

/-- In every reachable state the variables of the game are in step with its history. -/
theorem Reachable.recorded {g : Globals} (reachable : Reachable g) : Recorded g :=
  reachable.induction recorded_loopStart recorded_core (fun _ _ h => h.mouseEventHandler _)
    (fun _ _ h => h.keyboardEventHandler _) fun _ _ h => h.gameIh _

/-! ## The death of the player -/

theorem gameStep_spec {g : Globals} (running : g.gameState = .playing) (rand : ℕ → ℕ) :
    gameSteps (gameStep rand g) = gameSteps g + 1 ∧
      ((gameStep rand g).gameState = .gameOver ↔ ∃ i j, expired (g.gameMatrix i j)) := by
  have clocked : ∀ g' : Globals, life g'.calls = .tick :: life g.calls →
      gameSteps (gameGenerateNewAlien rand g') = gameSteps g + 1 := by
    intro g' history
    obtain ⟨counter, number, increase, e | ⟨c, -, e⟩⟩ := gameGenerateNewAlien_cases rand g' <;>
      rw [e] <;> exact congrArg clock history
  rcases gameStep_cases running rand with ⟨safe, e⟩ | ⟨c, dead, e⟩ <;> rw [e]
  · refine ⟨clocked _ (life_gameStep g.calls), ?_⟩
    rw [gameGenerateNewAlien_state]
    refine iff_of_false (running.trans_ne (by decide)) ?_
    rintro ⟨i, j, dead⟩
    exact safe i j dead
  · refine ⟨clocked _ (life_gameStep g.calls), ?_⟩
    rw [gameGenerateNewAlien_state]
    exact iff_of_true rfl ⟨c.1, c.2, dead⟩

theorem gameSteps_of_core {g g' : Globals} (h : core g = core g') : gameSteps g = gameSteps g' := by
  rw [gameSteps, (sameGame_of_core h).calls, gameSteps]

theorem gameState_of_core {g g' : Globals} (h : core g = core g') : g.gameState = g'.gameState :=
  (sameGame_of_core h).gameState

theorem mouseEventHandler_gameSteps (event : MouseEvent) (g : Globals) :
    gameSteps (mouseEventHandler event g) = gameSteps g ∧
      ((mouseEventHandler event g).gameState = .gameOver → g.gameState = .gameOver) := by
  have same : life (moved event g).calls = life g.calls := life_mouseEventHandler event g.calls
  rcases mouseEventHandler_cases event g with e | e | ⟨running, c, live, e⟩ | ⟨-, e⟩ |
    ⟨menu, st, hst, e⟩ <;> rw [e]
  · exact ⟨congrArg clock same, id⟩
  · exact ⟨congrArg clock same, id⟩
  · exact ⟨congrArg (fun h => clock (.died c :: h)) ((life_mouseCheckKill _).trans same), id⟩
  · exact ⟨congrArg clock ((life_mouseCheckKill _).trans same), id⟩
  · refine ⟨congrArg clock ((life_mouseCheckButtons _).trans same), ?_⟩
    intro ended
    change st = .gameOver at ended
    rcases hst with rfl | rfl | rfl <;> cases ended

theorem keyboardEventHandler_gameSteps (scanCode : UInt8) (g : Globals) :
    gameSteps (keyboardEventHandler scanCode g) ≤ gameSteps g ∧
      ((keyboardEventHandler scanCode g).gameState = .gameOver → g.gameState = .gameOver) := by
  rcases keyboardEventHandler_cases scanCode g with e | e | ⟨-, e⟩ | ⟨-, e⟩ |
    ⟨state, ⟨c, -, -, e⟩ | e | ⟨-, e⟩⟩ | ⟨-, e⟩ <;> rw [e]
  · exact ⟨le_refl _, id⟩
  · exact ⟨le_refl _, nofun⟩
  · exact ⟨le_refl _, nofun⟩
  · exact ⟨le_refl _, nofun⟩
  · exact ⟨le_refl _, id⟩
  · exact ⟨le_refl _, id⟩
  · exact ⟨le_of_eq (congrArg clock (life_addScore _ _ _ g.calls)), nofun⟩
  · exact ⟨Nat.zero_le _, nofun⟩

/-- Only `game_step` counts as a step and ends the game. -/
theorem handle_gameStep (g : Globals) (e : Interrupt) :
    (g.gameState = .playing ∧ ∃ g₁ rand, core g₁ = core g ∧ handle g e = gameStep rand g₁) ∨
    (gameSteps (handle g e) ≤ gameSteps g ∧
      ((handle g e).gameState = .gameOver → g.gameState = .gameOver)) := by
  rcases handle_cases g e with ⟨h', -⟩ | ⟨g₁, arr, h₁, h', -⟩ | ⟨g₁, scanCode, h₁, h', -⟩ |
    ⟨g₁, rand, h₁, h', -⟩
  · right
    rw [gameSteps_of_core h', gameState_of_core h']
    exact ⟨le_refl _, id⟩
  · right
    rw [gameSteps_of_core h', gameState_of_core h', ← gameSteps_of_core h₁, ← gameState_of_core h₁]
    obtain ⟨steps, ended⟩ := mouseEventHandler_gameSteps (mouseEvent arr) g₁
    exact ⟨le_of_eq steps, ended⟩
  · right
    rw [h', ← gameSteps_of_core h₁, ← gameState_of_core h₁]
    exact keyboardEventHandler_gameSteps scanCode g₁
  · rw [h', ← gameSteps_of_core h₁, ← gameState_of_core h₁]
    rcases gameIh_cases rand g₁ with ⟨running, e'⟩ | ⟨ended, -, e'⟩ | ⟨ended, -, e'⟩ | ⟨-, -, e'⟩
    · exact Or.inl ⟨running, g₁, rand, h₁, e'⟩
    · right
      rw [e']
      exact ⟨le_refl _, fun _ => ended⟩
    · right
      rw [e']
      exact ⟨le_refl _, fun _ => ended⟩
    · right
      rw [e']
      exact ⟨le_refl _, id⟩

/-- The interrupt makes the `k`-th call of `game_step` since the last `game_initialize`. -/
def MakesStep (g : Globals) (e : Interrupt) (k : ℕ) : Prop :=
  gameSteps g + 1 = k ∧ gameSteps (handle g e) = k

/-- The interrupt ends the game. -/
def EntersGameOver (g : Globals) (e : Interrupt) : Prop :=
  g.gameState ≠ .gameOver ∧ (handle g e).gameState = .gameOver

theorem makesStep_iff {g : Globals} {e : Interrupt} {k : ℕ} :
    MakesStep g e k ↔ gameSteps g + 1 = k ∧ g.gameState = .playing ∧
      ∃ g₁ rand, core g₁ = core g ∧ handle g e = gameStep rand g₁ := by
  constructor
  · rintro ⟨hk, hk'⟩
    rcases handle_gameStep g e with h | ⟨fewer, -⟩
    · exact ⟨hk, h⟩
    · omega
  · rintro ⟨hk, running, g₁, rand, h₁, h'⟩
    refine ⟨hk, ?_⟩
    rw [h', (gameStep_spec ((gameState_of_core h₁).trans running) rand).1, gameSteps_of_core h₁, hk]

/-- An alien expires in the 307th call of `game_step` after the one that created it. -/
theorem Tracked.expired_iff {g : Globals} (h : Tracked g) (c : Cell) :
    expired (g.gameMatrix c.1 c.2) ↔ ∃ n, n + 307 = gameSteps g + 1 ∧ Survivor (life g.calls) n c := by
  rw [(h.aged c.1 c.2).expired_iff]
  constructor
  · intro ha
    have old := age_le_clock ha
    refine ⟨gameSteps g - 306, by rw [gameSteps]; omega, (survivor_iff h.lawful).2 ⟨306, ha, ?_⟩⟩
    rw [gameSteps]
    omega
  · rintro ⟨n, hn, survivor⟩
    obtain ⟨a, ha, total⟩ := (survivor_iff h.lawful).1 survivor
    obtain rfl : a = 306 := by
      rw [gameSteps] at hn
      omega
    exact ha

theorem Tracked.expired_unique {g : Globals} (h : Tracked g) {c c' : Cell}
    (dead : expired (g.gameMatrix c.1 c.2)) (dead' : expired (g.gameMatrix c'.1 c'.2)) : c = c' :=
  h.lawful.age_inj ((h.aged c.1 c.2).expired_iff.1 dead) ((h.aged c'.1 c'.2).expired_iff.1 dead')

/-- The game ends in the `k`-th call of `game_step` if and only if the alien created in call `k - 307`
exists and has not been hit, and then its cell is the only one that has expired. -/
theorem entersGameOver_iff {g : Globals} (reachable : Reachable g) (e : Interrupt) :
    (EntersGameOver g e ↔
      ∃ k, MakesStep g e k ∧ ∃ n c, n + 307 = k ∧ Survivor (life g.calls) n c) ∧
    ∀ k n c, MakesStep g e k → n + 307 = k → Survivor (life g.calls) n c →
      ∀ c' : Cell, expired (g.gameMatrix c'.1 c'.2) ↔ c' = c := by
  have inStep : g.gameState = .playing → Tracked g := fun running =>
    reachable.recorded.tracked (Or.inr (Or.inl running))
  have ends : ∀ {g₁ : Globals} {rand}, core g₁ = core g → g.gameState = .playing →
      ((gameStep rand g₁).gameState = .gameOver ↔ ∃ i j, expired (g.gameMatrix i j)) := by
    intro g₁ rand h₁ running
    have same := sameGame_of_core h₁
    rw [(gameStep_spec (same.gameState.trans running) rand).2, same.gameMatrix]
  refine ⟨⟨?_, ?_⟩, ?_⟩
  · rintro ⟨before, ended⟩
    rcases handle_gameStep g e with ⟨running, g₁, rand, h₁, h'⟩ | ⟨-, still⟩
    · rw [h', ends h₁ running] at ended
      obtain ⟨i, j, dead⟩ := ended
      obtain ⟨n, hn, survivor⟩ := ((inStep running).expired_iff (i, j)).1 dead
      exact ⟨gameSteps g + 1, makesStep_iff.2 ⟨rfl, running, g₁, rand, h₁, h'⟩, n, (i, j), hn,
        survivor⟩
    · exact absurd (still ended) before
  · rintro ⟨k, step, n, c, hn, survivor⟩
    obtain ⟨rfl, running, g₁, rand, h₁, h'⟩ := makesStep_iff.1 step
    refine ⟨by rw [running]; decide, ?_⟩
    rw [h', ends h₁ running]
    exact ⟨c.1, c.2, ((inStep running).expired_iff c).2 ⟨n, hn, survivor⟩⟩
  · intro k n c step hn survivor c'
    obtain ⟨rfl, running, -⟩ := makesStep_iff.1 step
    have dead := ((inStep running).expired_iff c).2 ⟨n, hn, survivor⟩
    constructor
    · exact fun dead' => (inStep running).expired_unique dead' dead
    · rintro rfl
      exact dead

/-! ## Conservation -/

/-- The cells with a live alien. -/
def liveCells (g : Globals) : Finset Cell := {c | (g.gameMatrix c.1 c.2).Live}

theorem Tracked.liveCells_eq {g : Globals} (h : Tracked g) : liveCells g = living (life g.calls) := by
  ext c
  rw [mem_living, liveCells, Finset.mem_filter, (h.aged c.1 c.2).live_iff, Option.ne_none_iff_isSome]
  simp

theorem Tracked.spawned_eq {g : Globals} (h : Tracked g) :
    spawned g = hits g + (liveCells g).card := by
  rw [h.liveCells_eq]
  exact h.lawful.births_eq

theorem Recorded.toNat_points {g : Globals} (h : Recorded g) : g.points.toNat = hits g % 2 ^ 32 := by
  rw [h.points]
  exact UInt32.toNat_ofNat'

/-- In every game the aliens spawned are those hit and those alive, each is hit at most once and none
is overwritten, and `points` is the number of hits modulo the range of `unsigned int`. -/
theorem spawned_eq_hits_add_live {g : Globals} (reachable : Reachable g)
    (inGame : g.gameState = .playing ∨ g.gameState = .pause) :
    spawned g = hits g + (liveCells g).card ∧ Lawful (life g.calls) ∧
      g.points.toNat = hits g % 2 ^ 32 ∧
      (hits g < 2 ^ 32 → spawned g = g.points.toNat + (liveCells g).card) := by
  have tracked : Tracked g := reachable.recorded.tracked (Or.inr inGame)
  have points := reachable.recorded.toNat_points
  refine ⟨tracked.spawned_eq, tracked.lawful, points, fun small => ?_⟩
  rw [points, Nat.mod_eq_of_lt small, tracked.spawned_eq]

end LabComputers

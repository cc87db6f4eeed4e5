import LabComputers.Proj.ScheduleProof

/-!
# The matrix is determined by the history

An alien's state and countdown follow from its age while it lives, and from the steps since it was hit
while it vanishes (`alienOf`).  `matrix_of_history` says that the whole matrix is this function of the
history of the game, and that a cell rests for 15 steps after a hit; `must_hit` that the player loses
who hits nothing for too long.
-/

namespace LabComputers

open Lifetime

/-! ## An alien and its history -/

/-- The alien of a cell from its age, or else from the steps since the last hit in the cell. -/
def alienOf : Option ℕ → Option ℕ → Alien
  | some n, _ => if n ≤ 5 then ⟨AlienState.appearing, 5 - n⟩ else ⟨AlienState.alive, 306 - n⟩
  | none, some n =>
    if n < 15 then ⟨AlienState.dead1 + n / 3, 2 - n % 3⟩ else ⟨AlienState.empty, 0⟩
  | none, none => ⟨AlienState.empty, 0⟩

/-- The alien of a cell in the history of the game. -/
def Globals.alienFrom (g : Globals) (c : Cell) : Alien :=
  alienOf (age (life g.calls) c) (sinceDeath (life g.calls) c)

theorem ageAlien_alienOf_some {n : ℕ} {dead dead' : Option ℕ}
    (safe : ¬ expired (alienOf (some n) dead)) :
    ageAlien (alienOf (some n) dead) = alienOf (some (n + 1)) dead' := by
  simp only [alienOf, expired, AlienState.appearing, AlienState.alive] at safe ⊢
  by_cases young : n + 1 ≤ 5
  · rw [if_pos young, if_pos (show n ≤ 5 by omega), ageAlien_wait (by simp) (by simp only; omega)]
    simp only [Alien.mk.injEq, true_and]
    omega
  · rw [if_neg young]
    split_ifs at safe ⊢ with appearing
    · obtain rfl : n = 5 := by omega
      rfl
    · simp only [true_and] at safe
      rw [ageAlien_wait (by simp) (by simp only; omega)]
      simp only [Alien.mk.injEq, true_and]
      omega

/-- The five phases of a hit alien take three steps each. -/
theorem ageAlien_alienOf_none (dead : Option ℕ) :
    ageAlien (alienOf none dead) = alienOf none (dead.map (· + 1)) := by
  cases dead with
  | none => rfl
  | some n =>
    by_cases vanishing : n < 15
    · have table : ∀ n < 15, ageAlien (alienOf none (some n)) = alienOf none (some (n + 1)) := by
        decide
      exact table n vanishing
    · simp only [alienOf, Option.map_some, if_neg vanishing, if_neg (show ¬ n + 1 < 15 by omega)]
      rfl

theorem ageAlien_alienOf {alive dead : Option ℕ} (safe : ¬ expired (alienOf alive dead)) :
    ageAlien (alienOf alive dead) = alienOf (alive.map (· + 1)) (dead.map (· + 1)) := by
  cases alive with
  | none => exact ageAlien_alienOf_none dead
  | some n => exact ageAlien_alienOf_some safe

/-- A cell is empty when no alien lives there and the last one was hit 15 steps ago. -/
theorem alienOf_empty_iff {alive dead : Option ℕ} :
    (alienOf alive dead).state = AlienState.empty ↔ alive = none ∧ ∀ n, dead = some n → 15 ≤ n := by
  cases alive with
  | some n =>
    refine iff_of_false ?_ fun vacant => nomatch vacant.1
    simp only [alienOf]
    split_ifs <;> exact Nat.ne_of_lt (by simp)
  | none =>
    cases dead with
    | none => exact iff_of_true rfl ⟨rfl, nofun⟩
    | some n =>
      simp only [alienOf, true_and, Option.some.injEq, forall_eq']
      split_ifs with vanishing
      · simp only [AlienState.dead1, AlienState.empty]
        omega
      · exact iff_of_true rfl (by omega)

/-! ## The invariant -/

/-- The matrix follows the history, in which hit cells rest and an alien lives or the last hit is not
long ago. -/
structure Replayed (g : Globals) : Prop where
  matrix : ∀ i j, g.gameMatrix i j = g.alienFrom (i, j)
  rested : Rested 15 (life g.calls)
  busy : lull (life g.calls) ≤ 14 + g.randomAlienCounter.toNat ∨
    ∃ c a, age (life g.calls) c = some a ∧ lull (life g.calls) ≤ a + 85

namespace Replayed

variable {g : Globals}

theorem congr (h : Replayed g) {g' : Globals} (matrix : g'.gameMatrix = g.gameMatrix)
    (counter : g'.randomAlienCounter = g.randomAlienCounter)
    (history : life g'.calls = life g.calls) : Replayed g' where
  matrix i j := by
    rw [matrix, Globals.alienFrom, history]
    exact h.matrix i j
  rested := history ▸ h.rested
  busy := by
    rw [history, counter]
    exact h.busy

theorem gameInitialize (g : Globals) : Replayed (gameInitialize g) where
  matrix _ _ := rfl
  rested post k mid pre split := by
    exact absurd split.symm (List.append_ne_nil_of_right_ne_nil _ (List.cons_ne_nil _ _))
  busy := .inl (Nat.zero_le _)

theorem hitAt (h : Replayed g) (c : Cell) : Replayed (g.hitAt c) where
  matrix i j := by
    change (if i = c.1 ∧ j = c.2 then _ else _) =
      alienOf (if (i, j) = (c.1, c.2) then none else _) (if (i, j) = (c.1, c.2) then some 0 else _)
    simp only [Prod.mk.injEq]
    split_ifs
    · rfl
    · exact h.matrix i j
  rested := h.rested.cons nofun
  busy := .inl (Nat.zero_le _)

/-- A scan that does not end the game continues the aliens. -/
theorem scan (h : Replayed g) (safe : ∀ i j, ¬ expired (g.gameMatrix i j)) (i : Row) (j : Col) :
    (g.record .gameStep).aged.gameMatrix i j = (g.record .gameStep).alienFrom (i, j) := by
  have cell := h.matrix i j
  have aged := ageAlien_alienOf (cell ▸ safe i j)
  rw [← Globals.alienFrom, ← cell] at aged
  exact aged

end Replayed

theorem schedule_counter_le (k : ℕ) : (schedule k).1.toNat ≤ 70 := by
  obtain ⟨r, c, hc, rfl⟩ := Rounds.exists_round interval k
  have small := interval_le r
  rw [show schedule (Rounds.step interval r + c) = phase r c from schedule_eq hc, phase,
    UInt32.toNat_ofNat_of_lt' (show c < UInt32.size by simp [UInt32.size]; omega)]
  omega

namespace Replayed

variable {g : Globals}

/-- The steps without a hit before a spawn round in which no alien lives. -/
theorem lull_step (h : Replayed g) (scheduled : Scheduled g) :
    lull (life g.calls) + 1 ≤ 85 ∨
      ∃ c a, age (life g.calls) c = some a ∧ lull (life g.calls) + 1 ≤ a + 1 + 85 := by
  have counter : g.randomAlienCounter = (schedule (gameSteps g)).1 := congrArg Prod.fst scheduled.vars
  have small := schedule_counter_le (gameSteps g)
  rw [← counter] at small
  rcases h.busy with recent | ⟨c, a, ha, recent⟩
  · left
    omega
  · exact .inr ⟨c, a, ha, by omega⟩

theorem gameStep (h : Replayed g) (scheduled : Scheduled g) (safe : ∀ i j, ¬ expired (g.gameMatrix i j))
    (rand : ℕ → ℕ) : Replayed (gameGenerateNewAlien rand (g.record .gameStep).aged) := by
  have matrix := h.scan safe
  have rested : Rested 15 (life (g.record .gameStep).aged.calls) :=
    h.rested.cons fun _ born => by cases born
  have older : ∀ {c a}, age (life g.calls) c = some a →
      age (.tick :: life g.calls) c = some (a + 1) := fun ha => congrArg (Option.map (· + 1)) ha
  by_cases wait : (g.record .gameStep).aged.randomAlienCounter <
      (g.record .gameStep).aged.randomAlienNumber
  · rw [gameGenerateNewAlien_wait wait]
    refine ⟨matrix, rested, ?_⟩
    have more : (g.randomAlienCounter + 1).toNat = g.randomAlienCounter.toNat + 1 := by
      have below := UInt32.lt_iff_toNat_lt.1 wait
      have room := (g.record .gameStep).aged.randomAlienNumber.toNat_lt
      change g.randomAlienCounter.toNat < _ at below
      rw [UInt32.toNat_add, UInt32.toNat_one, Nat.mod_eq_of_lt (by omega)]
    change lull (life g.calls) + 1 ≤ 14 + (g.randomAlienCounter + 1).toNat ∨
      ∃ c a, age (.tick :: life g.calls) c = some a ∧ lull (life g.calls) + 1 ≤ a + 85
    rcases h.busy with recent | ⟨c, a, ha, recent⟩
    · left
      omega
    · exact .inr ⟨c, a + 1, older ha, by omega⟩
  · rw [gameGenerateNewAlien_due wait]
    cases free : freeCell rand (g.record .gameStep).aged.gameMatrix alienRandomSpawnAttempts 0 with
    | none =>
      refine ⟨matrix, rested, ?_⟩
      -- the cell of the first attempt holds an alien or was hit less than 15 steps ago
      obtain ⟨full, -⟩ := (freeCell_eq_none_iff _ _).1 free
      rw [matrix, Globals.alienFrom, ne_eq, alienOf_empty_iff, not_and] at full
      change lull (life g.calls) + 1 ≤ 14 + 0 ∨
        ∃ c a, age (.tick :: life g.calls) c = some a ∧ lull (life g.calls) + 1 ≤ a + 85
      rcases h.lull_step scheduled with recent | ⟨c, a, ha, recent⟩
      · cases lives : age (.tick :: life g.calls)
            (Fin.ofNat 7 (rand 1), Fin.ofNat 11 (rand 0)) with
        | some a => exact .inr ⟨_, a, lives, by omega⟩
        | none =>
          have hit := full lives
          simp only [not_forall, not_le] at hit
          obtain ⟨n, hn, young⟩ := hit
          have := lull_le hn
          change lull (life g.calls) + 1 ≤ n at this
          left
          omega
      · exact .inr ⟨c, a + 1, older ha, recent⟩
    | some c =>
      have vacant := freeCell_vacant free
      rw [matrix, Globals.alienFrom, alienOf_empty_iff] at vacant
      obtain ⟨nobody, long⟩ := vacant
      refine ⟨fun i j => ?_, rested.born nobody long, ?_⟩
      · change (if i = c.1 ∧ j = c.2 then _ else _) =
          alienOf (if (i, j) = (c.1, c.2) then some 0 else _) (if (i, j) = (c.1, c.2) then none else _)
        simp only [Prod.mk.injEq]
        split_ifs
        · rfl
        · exact matrix i j
      · right
        change ∃ k a, (if k = c then some 0 else age (.tick :: life g.calls) k) = some a ∧
          lull (life g.calls) + 1 ≤ a + 85
        rcases h.lull_step scheduled with recent | ⟨k, a, ha, recent⟩
        · exact ⟨c, 0, if_pos rfl, by omega⟩
        · have other : k ≠ c := by
            rintro rfl
            exact Option.some_ne_none _ ((older ha).symm.trans nobody)
          exact ⟨k, a + 1, (if_neg other).trans (older ha), recent⟩

theorem mouseEventHandler (h : InPlay g.gameState → Replayed g) (event : MouseEvent)
    (inPlay : InPlay (mouseEventHandler event g).gameState) :
    Replayed (mouseEventHandler event g) := by
  have moved : ∀ h : Replayed g, Replayed (moved event g) := fun h =>
    h.congr rfl rfl (life_mouseEventHandler event g.calls)
  have checked : ∀ h : Replayed g, Replayed ((LabComputers.moved event g).record .mouseCheckKill) :=
    fun h => (moved h).congr rfl rfl (life_mouseCheckKill _)
  rcases mouseEventHandler_cases event g with e | e | ⟨running, c, live, e⟩ | ⟨running, e⟩ |
    ⟨menu, st, -, e⟩ <;> rw [e] at inPlay ⊢
  · exact (h inPlay).congr rfl rfl (life_mouseEventHandler event g.calls)
  · exact moved (h inPlay)
  · exact ((checked (h (.inr (.inl running)))).hitAt c).congr rfl rfl rfl
  · exact (checked (h inPlay)).congr rfl rfl rfl
  · exact (moved (h (.inl menu))).congr rfl rfl (life_mouseCheckButtons _)

theorem keyboardEventHandler (h : InPlay g.gameState → Replayed g) (scanCode : UInt8)
    (inPlay : InPlay (keyboardEventHandler scanCode g).gameState) :
    Replayed (keyboardEventHandler scanCode g) := by
  rcases keyboardEventHandler_cases scanCode g with e | e | ⟨running, e⟩ | ⟨paused, e⟩ |
    ⟨input, ⟨c, -, -, e⟩ | e | ⟨-, e⟩⟩ | ⟨-, e⟩ <;> rw [e] at inPlay ⊢
  · exact h inPlay
  · exact absurd inPlay (show ¬ InPlay .exit by decide)
  · exact (h (.inr (.inl running))).congr rfl rfl rfl
  · exact (h (.inr (.inr paused))).congr rfl rfl rfl
  · exact (h inPlay).congr rfl rfl rfl
  · exact (h inPlay).congr rfl rfl rfl
  · exact absurd inPlay (show ¬ InPlay .leaderboard by decide)
  · exact gameInitialize g

theorem gameIh (h : InPlay g.gameState → Replayed g) (scheduled : Scheduled g) (rand : ℕ → ℕ)
    (inPlay : InPlay (gameIh rand g).gameState) : Replayed (gameIh rand g) := by
  rcases gameIh_cases rand g with ⟨running, e⟩ | ⟨ended, -, e⟩ | ⟨-, -, e⟩ | ⟨-, -, e⟩ <;>
    rw [e] at inPlay ⊢
  · rcases gameStep_cases running rand with ⟨safe, e'⟩ | ⟨c, -, e'⟩ <;> rw [e'] at inPlay ⊢
    · exact (h (.inr (.inl running))).gameStep scheduled safe rand
    · rw [gameGenerateNewAlien_state] at inPlay
      exact absurd inPlay (show ¬ InPlay .gameOver by decide)
  · change InPlay g.gameState at inPlay
    rw [ended] at inPlay
    exact absurd inPlay (by decide)
  · change InPlay (if _ then _ else _) at inPlay
    split_ifs at inPlay <;> exact absurd inPlay (by decide)
  · exact h inPlay

end Replayed

/-- In every state before the death of the player the matrix follows the history. -/
theorem Reachable.replayed {g : Globals} (reachable : Reachable g) (inPlay : InPlay g.gameState) :
    Replayed g := by
  refine (reachable.induction
    (P := fun g => Recorded g ∧ Scheduled g ∧ (InPlay g.gameState → Replayed g))
    (fun lb => ⟨recorded_loopStart lb, .loopStart lb, fun _ =>
      (Replayed.gameInitialize .atStart).congr rfl rfl rfl⟩) ?_ ?_ ?_ ?_).2.2 inPlay
  · refine fun g => and_congr (recorded_core g) (and_congr ?_ (forall_congr' fun _ => ?_))
    · exact ⟨fun h => h.congr rfl rfl fun _ _ => id, fun h => h.congr rfl rfl fun _ _ => id⟩
    · exact ⟨fun h => h.congr rfl rfl rfl, fun h => h.congr rfl rfl rfl⟩
  · exact fun arr g h =>
      ⟨h.1.mouseEventHandler _, h.2.1.mouseEventHandler h.1 _, Replayed.mouseEventHandler h.2.2 _⟩
  · exact fun scanCode g h =>
      ⟨h.1.keyboardEventHandler _, h.2.1.keyboardEventHandler _, Replayed.keyboardEventHandler h.2.2 _⟩
  · exact fun rand g h => ⟨h.1.gameIh _, h.2.1.gameIh _, Replayed.gameIh h.2.2 h.2.1 _⟩

/-- In every state before the death of the player the matrix is a function of the steps, spawns and
hits of the game, whatever else happened; and no alien is spawned in a cell less than 15 steps after a
hit there. -/
theorem matrix_of_history {g : Globals} (reachable : Reachable g) (inPlay : InPlay g.gameState) :
    (∀ i j, g.gameMatrix i j =
      alienOf (age (life g.calls) (i, j)) (sinceDeath (life g.calls) (i, j))) ∧
    Rested 15 (life g.calls) :=
  ⟨(reachable.replayed inPlay).matrix, (reachable.replayed inPlay).rested⟩

/-- A game after a hit. -/
theorem matrix_of_history_hit : ∃ g, Reachable g ∧ hits g = 1 ∧
    (∀ i j, g.gameMatrix i j =
      alienOf (age (life g.calls) (i, j)) (sinceDeath (life g.calls) (i, j))) ∧
    Rested 15 (life g.calls) := by
  obtain ⟨g, leads, h⟩ := exists_target 1
  exact ⟨g, leads.reachable, h.hits, matrix_of_history leads.reachable (.inr (.inl h.running))⟩

/-- An alien that is old enough kills the player. -/
theorem Replayed.lull_lt {g : Globals} (replayed : Replayed g) (reachable : Reachable g)
    (inPlay : InPlay g.gameState) : lull (life g.calls) < 392 := by
  have tracked := reachable.recorded.tracked inPlay
  rcases replayed.lull_step reachable.scheduled with recent | ⟨c, a, ha, recent⟩
  · omega
  · have cell := tracked.aged c.1 c.2
    rw [Prod.mk.eta, ha] at cell
    simp only [Aged] at cell
    omega

/-- A player who hits nothing in 392 steps is dead, however `rand()` places the aliens. -/
theorem must_hit {g : Globals} (reachable : Reachable g) (inPlay : InPlay g.gameState) :
    lull (life g.calls) < 392 :=
  (reachable.replayed inPlay).lull_lt reachable inPlay

/-- A game after a hit. -/
theorem must_hit_after : ∃ g, Reachable g ∧ hits g = 1 ∧ lull (life g.calls) < 392 := by
  obtain ⟨g, leads, h⟩ := exists_target 1
  exact ⟨g, leads.reachable, h.hits, must_hit leads.reachable (.inr (.inl h.running))⟩

end LabComputers

import LabComputers.Proj.Game

/-!
# The scan of the alien matrix and the spawn in closed form

`game_update_alien_times` visits the cells one by one, may return from the middle of the scan, and
is called again while the game is over.  `gameUpdateAlienTimes_eq` and `gameUpdateAlienTimes_over`
replace the scan by one equation for the whole matrix; every invariant is derived from these two.
`spawnAttempts_eq` does the same for the search of an empty cell.
-/

namespace LabComputers

/-! ## Small facts about the record -/

namespace Globals

theorem setAlien_gameMatrix (g : Globals) (i i' : Row) (j j' : Col) (a : Alien) :
    (g.setAlien i j a).gameMatrix i' j' =
      if i' = i ∧ j' = j then a else g.gameMatrix i' j' := rfl

theorem setAlien_self (g : Globals) (i : Row) (j : Col) :
    g.setAlien i j (g.gameMatrix i j) = g := by
  have same : (fun i' j' => if i' = i ∧ j' = j then g.gameMatrix i j else g.gameMatrix i' j') =
      g.gameMatrix := by
    funext i' j'
    split_ifs with h
    · rw [h.1, h.2]
    · rfl
  unfold setAlien
  rw [same]

end Globals

theorem mem_cells (c : Cell) : c ∈ cells := by
  revert c
  decide

theorem nodup_cells : cells.Nodup := by decide

/-! ## One cell -/

/-- What a scan during play does to a cell that does not end the game. -/
def ageAlien (a : Alien) : Alien :=
  if a.state = AlienState.empty then a
  else if a.time > 0 then ⟨a.state, a.time - 1⟩
  else ⟨a.state + 1, alienTime (a.state + 1)⟩

theorem ageAlien_empty {a : Alien} (vacant : a.state = AlienState.empty) : ageAlien a = a :=
  if_pos vacant

theorem ageAlien_wait {a : Alien} (occupied : a.state ≠ AlienState.empty) (left : a.time > 0) :
    ageAlien a = ⟨a.state, a.time - 1⟩ := by
  rw [ageAlien, if_neg occupied, if_pos left]

theorem ageAlien_next {a : Alien} (occupied : a.state ≠ AlienState.empty) (due : a.time = 0) :
    ageAlien a = ⟨a.state + 1, alienTime (a.state + 1)⟩ := by
  rw [ageAlien, if_neg occupied, if_neg (by omega)]

/-- What a scan after the end of the game does to a cell other than the killer's. -/
def decayAlien (a : Alien) : Alien :=
  if a.state = AlienState.empty then a
  else if a.time > 0 then ⟨a.state, a.time - 1⟩
  else ⟨a.state + 1, 2⟩

/-- An alien that kills the player in the next scan. -/
def expired (a : Alien) : Prop := a.state = AlienState.alive ∧ a.time = 0

instance (a : Alien) : Decidable (expired a) :=
  inferInstanceAs (Decidable (_ ∧ _))

/-! ## The scan during play -/

/-- The matrix with the cells of `done` aged. -/
def Globals.agedOn (g : Globals) (done : List Cell) : Globals :=
  { g with gameMatrix := fun i j =>
      if (i, j) ∈ done then ageAlien (g.gameMatrix i j) else g.gameMatrix i j }

theorem updateAlienTimes_cons {g : Globals} (running : g.gameState ≠ .gameOver) {i : Row} {j : Col}
    (safe : ¬ expired (g.gameMatrix i j)) (rest : List Cell) :
    updateAlienTimes g ((i, j) :: rest) =
      updateAlienTimes (g.setAlien i j (ageAlien (g.gameMatrix i j))) rest := by
  have safe' : ¬ ((g.gameMatrix i j).state = AlienState.alive ∧ (g.gameMatrix i j).time = 0) := safe
  rw [updateAlienTimes]
  simp only [ageAlien]
  by_cases vacant : (g.gameMatrix i j).state = AlienState.empty
  · rw [if_pos vacant, if_pos vacant, g.setAlien_self]
  · rw [if_neg vacant, if_neg vacant, if_neg running, if_neg safe']
    split_ifs <;> rfl

/-- A scan over cells that do not end the game ages them. -/
theorem updateAlienTimes_append (g : Globals) (running : g.gameState ≠ .gameOver)
    (done rest : List Cell) (nodup : done.Nodup)
    (safe : ∀ c ∈ done, ¬ expired (g.gameMatrix c.1 c.2)) :
    updateAlienTimes g (done ++ rest) = updateAlienTimes (g.agedOn done) rest := by
  induction done generalizing g with
  | nil => rfl
  | cons c done ih =>
    obtain ⟨i, j⟩ := c
    obtain ⟨fresh, nodup⟩ := List.nodup_cons.1 nodup
    have other : ∀ c ∈ done, ¬ (c.1 = i ∧ c.2 = j) := by
      rintro ⟨i', j'⟩ hc ⟨rfl, rfl⟩
      exact fresh hc
    rw [List.cons_append, updateAlienTimes_cons running (safe (i, j) (by simp)),
      ih (g.setAlien i j _) running nodup]
    · congr 1
      simp only [Globals.agedOn, Globals.setAlien, Globals.mk.injEq, true_and, and_true]
      funext i' j'
      by_cases here : i' = i ∧ j' = j
      · obtain ⟨rfl, rfl⟩ := here
        simp [fresh]
      · have hne : (i', j') ≠ (i, j) := by simpa using here
        simp [here, hne]
    · intro c hc
      rw [g.setAlien_gameMatrix, if_neg (other c hc)]
      exact safe c (by simp [hc])

/-- The first cell, in the order of the scan, whose alien kills the player. -/
def firstExpired (m : Row → Col → Alien) : Option Cell :=
  cells.find? fun c => expired (m c.1 c.2)

/-- The matrix left by a scan in which the alien in cell `c` kills the player: the cells before `c`
were aged first, then all aliens but the killer were killed. -/
def deathMatrix (m : Row → Col → Alien) (c : Cell) : Row → Col → Alien := fun i j =>
  let a := if (i, j) ∈ cells.takeWhile (· ≠ c) then ageAlien (m i j) else m i j
  if a.state = AlienState.empty ∨ (i, j) = c then a else ⟨AlienState.dead1, 2⟩

/-- The whole scan during play. -/
theorem gameUpdateAlienTimes_eq {g : Globals} (running : g.gameState ≠ .gameOver) :
    gameUpdateAlienTimes g =
      match firstExpired g.gameMatrix with
      | none => { g with gameMatrix := fun i j => ageAlien (g.gameMatrix i j) }
      | some (i, j) => { g with
          gameMatrix := deathMatrix g.gameMatrix (i, j)
          gameOverCounter := gameOverWait
          gameState := .gameOver
          killerAlien := ⟨0, j, i⟩ } := by
  unfold gameUpdateAlienTimes
  cases hf : firstExpired g.gameMatrix with
  | none =>
    have safe : ∀ c ∈ cells, ¬ expired (g.gameMatrix c.1 c.2) := by
      simpa [firstExpired, List.find?_eq_none] using hf
    have h := updateAlienTimes_append g running cells [] nodup_cells safe
    rw [List.append_nil] at h
    rw [h, updateAlienTimes]
    simp [Globals.agedOn, mem_cells]
  | some c =>
    obtain ⟨i, j⟩ := c
    obtain ⟨dead, done, rest, split, safe⟩ := List.find?_eq_some_iff_append.1 hf
    have dead : expired (g.gameMatrix i j) := by simpa using dead
    have nodup := nodup_cells
    rw [split] at nodup
    have fresh : (i, j) ∉ done := fun h =>
      (List.disjoint_of_nodup_append nodup) h (by simp)
    have before : cells.takeWhile (· ≠ (i, j)) = done := by
      rw [split, List.takeWhile_append_of_pos, List.takeWhile_cons_of_neg (by simp),
        List.append_nil]
      intro c hc
      have : c ≠ (i, j) := fun h => fresh (h ▸ hc)
      simpa using this
    have unchanged : (g.agedOn done).gameMatrix i j = g.gameMatrix i j := by
      simp [Globals.agedOn, fresh]
    rw [split, updateAlienTimes_append g running done _ nodup.of_append_left
      (fun c hc => by simpa using safe c hc), updateAlienTimes]
    have alive : (g.gameMatrix i j).state ≠ AlienState.empty := by
      rw [dead.1]
      decide
    have running' : (g.agedOn done).gameState ≠ .gameOver := running
    have dead' : (g.gameMatrix i j).state = AlienState.alive ∧ (g.gameMatrix i j).time = 0 := dead
    simp only
    rw [unchanged, if_neg alive, if_neg running', if_pos dead']
    simp only [killOtherAliens, Globals.agedOn, Globals.mk.injEq, true_and, and_true]
    funext i' j'
    have here : ((j : ℕ) = j' ∧ (i : ℕ) = i') ↔ (i', j') = (i, j) := by
      rw [Prod.mk.injEq, Fin.val_inj, Fin.val_inj, eq_comm (a := j), eq_comm (a := i), and_comm]
    simp only [deathMatrix, before, here]

/-! ## The scan after the end of the game -/

/-- The matrix with the cells of `done` decayed, except the killer's. -/
def Globals.decayedOn (g : Globals) (done : List Cell) : Globals :=
  { g with gameMatrix := fun i j =>
      if (i, j) ∈ done ∧ ¬ (g.killerAlien.x = j ∧ g.killerAlien.y = i) then
        decayAlien (g.gameMatrix i j)
      else g.gameMatrix i j }

theorem updateAlienTimes_cons_over {g : Globals} (ended : g.gameState = .gameOver) (i : Row)
    (j : Col) (rest : List Cell) :
    updateAlienTimes g ((i, j) :: rest) =
      updateAlienTimes (g.setAlien i j ((g.decayedOn [(i, j)]).gameMatrix i j)) rest := by
  rw [updateAlienTimes]
  simp only [Globals.decayedOn, List.mem_singleton, true_and, decayAlien, ended, if_true]
  split_ifs <;> first | rfl | rw [g.setAlien_self]

theorem updateAlienTimes_over (done : List Cell) (g : Globals) (ended : g.gameState = .gameOver)
    (nodup : done.Nodup) : updateAlienTimes g done = g.decayedOn done := by
  induction done generalizing g with
  | nil => simp [updateAlienTimes, Globals.decayedOn]
  | cons c done ih =>
    obtain ⟨i, j⟩ := c
    obtain ⟨fresh, nodup⟩ := List.nodup_cons.1 nodup
    rw [updateAlienTimes_cons_over ended, ih (g.setAlien i j _) ended nodup]
    simp only [Globals.decayedOn, Globals.setAlien, Globals.mk.injEq, true_and, and_true]
    funext i' j'
    by_cases here : i' = i ∧ j' = j
    · obtain ⟨rfl, rfl⟩ := here
      simp [fresh]
    · have hne : (i', j') ≠ (i, j) := by simpa using here
      simp [here, hne]

/-- The whole scan after the end of the game. -/
theorem gameUpdateAlienTimes_over {g : Globals} (ended : g.gameState = .gameOver) :
    gameUpdateAlienTimes g =
      { g with gameMatrix := fun i j =>
          if g.killerAlien.x = j ∧ g.killerAlien.y = i then g.gameMatrix i j
          else decayAlien (g.gameMatrix i j) } := by
  rw [gameUpdateAlienTimes, updateAlienTimes_over cells g ended nodup_cells]
  simp only [Globals.decayedOn, mem_cells, true_and, ite_not]

/-! ## The spawn -/

/-- The cell found by the remaining attempts to place a new alien. -/
def freeCell (rand : ℕ → ℕ) (m : Row → Col → Alien) : ℕ → ℕ → Option Cell
  | 0, _ => none
  | attempts + 1, k =>
    if (m (Fin.ofNat 7 (rand (k + 1))) (Fin.ofNat 11 (rand k))).state = AlienState.empty then
      some (Fin.ofNat 7 (rand (k + 1)), Fin.ofNat 11 (rand k))
    else freeCell rand m attempts (k + 2)

theorem freeCell_vacant {rand : ℕ → ℕ} {m : Row → Col → Alien} {attempts k : ℕ} {c : Cell}
    (h : freeCell rand m attempts k = some c) : (m c.1 c.2).state = AlienState.empty := by
  induction attempts generalizing k with
  | zero => simp [freeCell] at h
  | succ attempts ih =>
    rw [freeCell] at h
    split_ifs at h with vacant
    · obtain rfl := Option.some.inj h
      exact vacant
    · exact ih h

/-- A new alien in cell `c`. -/
def Globals.spawnAt (g : Globals) (c : Cell) : Globals :=
  (g.setAlien c.1 c.2 ⟨AlienState.appearing, 5⟩).record (.spawn c.1 c.2)

theorem spawnAttempts_eq (rand : ℕ → ℕ) (g : Globals) (attempts k : ℕ) :
    spawnAttempts rand g attempts k =
      match freeCell rand g.gameMatrix attempts k with
      | none => g
      | some c => g.spawnAt c := by
  induction attempts generalizing k with
  | zero => rfl
  | succ attempts ih =>
    unfold spawnAttempts freeCell
    by_cases vacant :
        (g.gameMatrix (Fin.ofNat 7 (rand (k + 1))) (Fin.ofNat 11 (rand k))).state = AlienState.empty
    · simp only [if_pos vacant]
      rfl
    · simp only [if_neg vacant]
      exact ih (k + 2)

end LabComputers

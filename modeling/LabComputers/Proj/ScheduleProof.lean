import LabComputers.Lib.Rounds
import LabComputers.Proj.GameOverProof
import LabComputers.Proj.SpawnRateProof

/-!
# The schedule of a game

No input changes when an alien is due: the spawn variables after `k` calls of `game_step` are the
same in every game (`Scheduled.vars`), and the spawn rounds are the steps `roundStep r`.  The length of
a game and its points are bounded by this schedule: a game can only end 307 steps after a round
(`gameOver_on_schedule`), and each point takes a round of its own (`points_on_schedule`).
-/

namespace LabComputers

open Lifetime

/-! ## The rounds -/

/-- The steps between round `r` and the next one. -/
def interval (r : ℕ) : ℕ := if r ≤ 14 then 70 - 5 * r else 20

/-- The call of `game_step` that makes spawn round `r`. -/
def roundStep (r : ℕ) : ℕ := Rounds.step interval r

/-- The spawn variables after one call of `game_step`. -/
def nextVars (vars : UInt32 × UInt32 × UInt32) : UInt32 × UInt32 × UInt32 :=
  if vars.1 < vars.2.1 then (vars.1 + 1, vars.2)
  else
    let rate := rateGuard vars.2.1 vars.2.2
    (0, rate.1 - rate.2, rate.2)

/-- The spawn variables `c` steps after round `r`. -/
def phase (r c : ℕ) : UInt32 × UInt32 × UInt32 :=
  (UInt32.ofNat c, UInt32.ofNat (interval r), if r ≤ 14 then alienSpawnRateIncrease else 0)

/-- The spawn variables after `k` calls of `game_step`. -/
def schedule (k : ℕ) : UInt32 × UInt32 × UInt32 := nextVars^[k] (phase 0 0)

theorem interval_le (r : ℕ) : interval r ≤ 70 := by
  unfold interval
  split_ifs <;> omega

/-- The counter is below the interval. -/
theorem waiting_iff {r c : ℕ} (hc : c ≤ interval r) :
    (phase r c).1 < (phase r c).2.1 ↔ c < interval r := by
  have small := interval_le r
  simp only [phase, UInt32.lt_iff_toNat_lt]
  rw [UInt32.toNat_ofNat_of_lt' (show c < UInt32.size by simp [UInt32.size]; omega),
    UInt32.toNat_ofNat_of_lt' (show interval r < UInt32.size by simp [UInt32.size]; omega)]

theorem nextVars_wait (r c : ℕ) (hc : c < interval r) : nextVars (phase r c) = phase r (c + 1) := by
  rw [nextVars, if_pos ((waiting_iff hc.le).2 hc)]
  simp [phase]

/-- The interval loses five steps in each round until it is zero, and is twenty from then on. -/
theorem nextVars_round (r : ℕ) : nextVars (phase r (interval r)) = phase (r + 1) 0 := by
  rw [nextVars, if_neg (fun wait => ((waiting_iff le_rfl).1 wait).false)]
  by_cases falling : r ≤ 14
  · have table : ∀ r ≤ 14,
        ((0, (rateGuard (phase r (interval r)).2.1 (phase r (interval r)).2.2).1 -
            (rateGuard (phase r (interval r)).2.1 (phase r (interval r)).2.2).2,
          (rateGuard (phase r (interval r)).2.1 (phase r (interval r)).2.2).2) :
            UInt32 × UInt32 × UInt32) = phase (r + 1) 0 := by
      decide
    exact table r falling
  · have falling' : ¬ r + 1 ≤ 14 := by omega
    simp only [phase, interval, if_neg falling, if_neg falling']
    decide

theorem schedule_eq {r c : ℕ} (hc : c ≤ interval r) : schedule (roundStep r + c) = phase r c :=
  Rounds.iterate_eq interval nextVars_wait nextVars_round hc

theorem schedule_succ (k : ℕ) : schedule (k + 1) = nextVars (schedule k) :=
  Function.iterate_succ_apply' _ _ _

/-- Step `k + 1` is a round exactly if the counter is at its end after step `k`. -/
theorem due_iff (k : ℕ) :
    ¬ (schedule k).1 < (schedule k).2.1 ↔ ∃ r, k + 1 = roundStep (r + 1) := by
  obtain ⟨r, c, hc, rfl⟩ := Rounds.exists_round interval k
  have here := Rounds.exists_step_eq_iff interval hc
  change _ ↔ ∃ r', Rounds.step interval r + c + 1 = Rounds.step interval (r' + 1)
  rw [here, show schedule (Rounds.step interval r + c) = phase r c from schedule_eq hc,
    waiting_iff hc]
  omega

/-- The rounds in closed form: they come closer up to round 15, in step 540, and then every 21
steps. -/
theorem roundStep_eq (r : ℕ) :
    roundStep r = if r ≤ 15 then 71 * r - 5 * (r * (r - 1) / 2) else 540 + 21 * (r - 15) := by
  induction r with
  | zero => rfl
  | succ r ih =>
    have next : roundStep (r + 1) = roundStep r + interval r + 1 := rfl
    rw [next, ih]
    by_cases falling : r ≤ 14
    · have table : ∀ r ≤ 14, (if r ≤ 15 then 71 * r - 5 * (r * (r - 1) / 2) else 540 + 21 * (r - 15)) +
          interval r + 1 = 71 * (r + 1) - 5 * ((r + 1) * (r + 1 - 1) / 2) := by
        decide
      rw [table r falling, if_pos (by omega)]
    · rw [interval, if_neg falling, if_neg (show ¬ r + 1 ≤ 15 by omega)]
      split_ifs with last
      · obtain rfl : r = 15 := by omega
        rfl
      · omega

theorem roundStep_strictMono : StrictMono roundStep := Rounds.strictMono_step interval

/-! ## One step of the game -/

/-- The cell in which `game_step` places a new alien. -/
def Globals.spawnCell (g : Globals) (rand : ℕ → ℕ) : Option Cell :=
  if g.randomAlienCounter < g.randomAlienNumber then none
  else freeCell rand (gameUpdateAlienTimes g).gameMatrix alienRandomSpawnAttempts 0

theorem gameUpdateAlienTimes_record (g : Globals) (running : g.gameState = .playing) (c : Call) :
    (gameUpdateAlienTimes (g.record c)).gameMatrix = (gameUpdateAlienTimes g).gameMatrix := by
  have going : g.gameState ≠ .gameOver := by simp [running]
  rw [gameUpdateAlienTimes_eq going, gameUpdateAlienTimes_eq (g := g.record c) going,
    show (g.record c).gameMatrix = g.gameMatrix from rfl]
  cases firstExpired g.gameMatrix <;> rfl

/-- The scan changes neither the history nor the spawn variables. -/
theorem gameUpdateAlienTimes_rest {g : Globals} (running : g.gameState = .playing) :
    (gameUpdateAlienTimes g).calls = g.calls ∧
      (gameUpdateAlienTimes g).spawnVars = g.spawnVars := by
  rw [gameUpdateAlienTimes_eq (by simp [running])]
  split <;> exact ⟨rfl, rfl⟩

/-- What a step adds to the history, and what it leaves in the matrix. -/
theorem gameStep_spawn {g : Globals} (running : g.gameState = .playing) (rand : ℕ → ℕ) :
    life (gameStep rand g).calls =
        ((g.spawnCell rand).map Event.born).toList ++ .tick :: life g.calls ∧
      ∀ i j, (gameStep rand g).gameMatrix i j =
        if g.spawnCell rand = some (i, j) then ⟨AlienState.appearing, 5⟩
        else (gameUpdateAlienTimes g).gameMatrix i j := by
  have matrix := gameUpdateAlienTimes_record g running .gameStep
  obtain ⟨calls, vars⟩ := gameUpdateAlienTimes_rest (g := g.record .gameStep) running
  have counter : (gameUpdateAlienTimes (g.record .gameStep)).randomAlienCounter =
      g.randomAlienCounter := congrArg Prod.fst vars
  have number : (gameUpdateAlienTimes (g.record .gameStep)).randomAlienNumber =
      g.randomAlienNumber := congrArg (·.2.1) vars
  rw [gameStep, Globals.spawnCell]
  by_cases wait : g.randomAlienCounter < g.randomAlienNumber
  · rw [gameGenerateNewAlien_wait (by rwa [counter, number]), if_pos wait]
    refine ⟨congrArg life calls, fun i j => ?_⟩
    rw [if_neg (Option.some_ne_none _).symm, ← matrix]
    rfl
  · rw [gameGenerateNewAlien_due (by rwa [counter, number]), if_neg wait, matrix]
    cases free : freeCell rand (gameUpdateAlienTimes g).gameMatrix alienRandomSpawnAttempts 0 with
    | none =>
      refine ⟨congrArg life calls, fun i j => ?_⟩
      rw [if_neg (Option.some_ne_none _).symm, ← matrix]
      rfl
    | some c =>
      have history : life (Call.spawn c.1 c.2 ::
          (gameUpdateAlienTimes (g.record .gameStep)).calls) = _ :=
        congrArg (fun calls => life (Call.spawn c.1 c.2 :: calls)) calls
      refine ⟨history, fun i j => ?_⟩
      rw [← matrix]
      refine if_congr ?_ rfl rfl
      rw [Option.some.injEq, Prod.ext_iff, eq_comm (a := i), eq_comm (a := j)]

/-- The scan of an empty matrix leaves it empty. -/
theorem gameUpdateAlienTimes_blank {g : Globals} (running : g.gameState = .playing)
    (blank : ∀ i j, (g.gameMatrix i j).state = AlienState.empty) (i : Row) (j : Col) :
    ((gameUpdateAlienTimes g).gameMatrix i j).state = AlienState.empty := by
  have safe : firstExpired g.gameMatrix = none := by
    cases first : firstExpired g.gameMatrix with
    | none => rfl
    | some c =>
      have dead := (firstExpired_some first).1
      rw [blank] at dead
      cases dead
  rw [gameUpdateAlienTimes_eq (by simp [running]), safe]
  simp only
  rw [ageAlien_empty (blank i j)]
  exact blank i j

/-! ## The invariant -/

/-- The spawn variables and the births of a game keep to the schedule. -/
structure Scheduled (g : Globals) : Prop where
  vars : g.spawnVars = schedule (gameSteps g)
  rounds : roundStep (spawned g) ≤ gameSteps g
  born : ∀ n c, BornAt (life g.calls) n c → ∃ r, n = roundStep (r + 1)
  blank : spawned g = 0 → ∀ i j, (g.gameMatrix i j).state = AlienState.empty
  first : roundStep 1 ≤ gameSteps g → ∃ c, BornAt (life g.calls) (roundStep 1) c
  fewer : hits g ≤ spawned g

namespace Scheduled

variable {g : Globals}

theorem congr (h : Scheduled g) {g' : Globals} (vars : g'.spawnVars = g.spawnVars)
    (history : life g'.calls = life g.calls)
    (matrix : ∀ i j, (g.gameMatrix i j).state = AlienState.empty →
      (g'.gameMatrix i j).state = AlienState.empty) : Scheduled g' where
  vars := by rw [vars, gameSteps, history, h.vars, gameSteps]
  rounds := by
    rw [spawned, gameSteps, history]
    exact h.rounds
  born := history ▸ h.born
  blank none i j := by
    rw [spawned, history] at none
    exact matrix i j (h.blank none i j)
  first := by
    rw [gameSteps, history]
    exact h.first
  fewer := by
    rw [hits, spawned, history]
    exact h.fewer

theorem gameInitialize (g : Globals) : Scheduled (gameInitialize g) where
  vars := rfl
  rounds := le_rfl
  born n c := by
    rintro ⟨post, pre, split, -⟩
    exact absurd split.symm (List.append_ne_nil_of_right_ne_nil _ (List.cons_ne_nil _ _))
  blank _ _ _ := rfl
  first := nofun
  fewer := le_rfl

theorem loopStart (lb : Leaderboard) : Scheduled (loopStart lb) :=
  (gameInitialize .atStart).congr rfl rfl fun _ _ => id

theorem hitAt (h : Scheduled g) {c : Cell} (live : (g.gameMatrix c.1 c.2).Live)
    (fewer : hits g + 1 ≤ spawned g) : Scheduled (g.hitAt c) where
  vars := h.vars
  rounds := h.rounds
  born n k born := by
    refine h.born n k ((bornAt_cons.1 born).resolve_left ?_)
    rintro ⟨same, -⟩
    cases same
  blank none := absurd live (Alien.not_live_of_empty (h.blank none c.1 c.2))
  first late := (h.first late).imp fun k born => bornAt_cons.2 (.inr born)
  fewer := fewer

theorem mouseEventHandler (h : Scheduled g) (recorded : Recorded g) (event : MouseEvent) :
    Scheduled (mouseEventHandler event g) := by
  have h' : Scheduled (moved event g) :=
    h.congr rfl (life_mouseEventHandler event g.calls) fun _ _ => id
  have h'' : Scheduled ((moved event g).record .mouseCheckKill) :=
    h'.congr rfl (life_mouseCheckKill _) fun _ _ => id
  rcases mouseEventHandler_cases event g with e | e | ⟨running, c, live, e⟩ | ⟨-, e⟩ |
    ⟨-, st, -, e⟩ <;> rw [e]
  · exact h.congr rfl (life_mouseEventHandler event g.calls) fun _ _ => id
  · exact h'
  · have tracked := recorded.tracked (.inr (.inl running))
    have balance := tracked.spawned_eq
    have occupied : 0 < (liveCells g).card := Finset.card_pos.2 ⟨c, by simpa [liveCells] using live⟩
    have history : life ((moved event g).record .mouseCheckKill).calls = life g.calls :=
      (life_mouseCheckKill _).trans (life_mouseEventHandler event g.calls)
    refine (h''.hitAt live ?_).congr rfl rfl fun _ _ => id
    rw [spawned, hits] at balance
    rw [hits, spawned, history]
    omega
  · exact h''.congr rfl rfl fun _ _ => id
  · exact h'.congr rfl (life_mouseCheckButtons _) fun _ _ => id

theorem keyboardEventHandler (h : Scheduled g) (scanCode : UInt8) :
    Scheduled (keyboardEventHandler scanCode g) := by
  rcases keyboardEventHandler_cases scanCode g with e | e | ⟨-, e⟩ | ⟨-, e⟩ |
    ⟨-, ⟨c, -, -, e⟩ | e | ⟨-, e⟩⟩ | ⟨-, e⟩ <;> rw [e]
  · exact h
  · exact h.congr rfl rfl fun _ _ => id
  · exact h.congr rfl rfl fun _ _ => id
  · exact h.congr rfl rfl fun _ _ => id
  · exact h.congr rfl rfl fun _ _ => id
  · exact h.congr rfl rfl fun _ _ => id
  · exact h.congr rfl (life_addScore _ _ _ _) fun _ _ => id
  · exact gameInitialize g

/-- The counter is at its end exactly in the step before a round. -/
theorem due_iff (h : Scheduled g) :
    ¬ g.randomAlienCounter < g.randomAlienNumber ↔ ∃ r, gameSteps g + 1 = roundStep (r + 1) := by
  rw [← LabComputers.due_iff, ← h.vars]
  rfl

theorem gameStep (h : Scheduled g) (running : g.gameState = .playing) (rand : ℕ → ℕ) :
    Scheduled (gameStep rand g) := by
  obtain ⟨history, matrix⟩ := gameStep_spawn running rand
  have steps := (gameStep_spec running rand).1
  have vars : (LabComputers.gameStep rand g).spawnVars =
      schedule (gameSteps (LabComputers.gameStep rand g)) := by
    rw [gameStep_spawnVars running, steps, schedule_succ, ← h.vars]
    rfl
  cases spawn : g.spawnCell rand with
  | none =>
    rw [spawn] at history matrix
    refine ⟨vars, ?_, ?_, ?_, ?_, ?_⟩
    · rw [steps, spawned, history]
      exact h.rounds.trans (Nat.le_succ _)
    · rw [history]
      intro n c born
      refine h.born n c ((bornAt_cons.1 born).resolve_left ?_)
      rintro ⟨same, -⟩
      cases same
    · intro none i j
      rw [spawned, history] at none
      rw [matrix, if_neg nofun]
      exact gameUpdateAlienTimes_blank running (h.blank none) i j
    · intro late
      rw [steps] at late
      rcases Nat.lt_or_ge (gameSteps g) (roundStep 1) with now | earlier
      · -- the first round finds an empty matrix
        have due := h.due_iff.2 ⟨0, Nat.le_antisymm now late⟩
        have nobody : spawned g = 0 := by
          have := roundStep_strictMono.lt_iff_lt.1 (h.rounds.trans_lt now)
          omega
        rw [Globals.spawnCell, if_neg due, freeCell_eq_none_iff] at spawn
        exact absurd (gameUpdateAlienTimes_blank running (h.blank nobody) _ _) spawn.1
      · obtain ⟨c, born⟩ := h.first earlier
        exact ⟨c, by rw [history]; exact bornAt_cons.2 (.inr born)⟩
    · rw [hits, spawned, history]
      exact h.fewer
  | some c =>
    rw [spawn] at history matrix
    have due : ¬ g.randomAlienCounter < g.randomAlienNumber := by
      intro wait
      rw [Globals.spawnCell, if_pos wait] at spawn
      cases spawn
    obtain ⟨r, round⟩ := h.due_iff.1 due
    refine ⟨vars, ?_, ?_, ?_, ?_, ?_⟩
    · have before := roundStep_strictMono.lt_iff_lt.1
        (h.rounds.trans_lt (show gameSteps g < roundStep (r + 1) by omega))
      rw [steps, round, spawned, history]
      exact roundStep_strictMono.monotone before
    · rw [history]
      intro n k born
      rcases bornAt_cons.1 born with ⟨-, hn⟩ | born
      · exact ⟨r, hn.symm.trans round⟩
      · refine h.born n k ((bornAt_cons.1 born).resolve_left ?_)
        rintro ⟨same, -⟩
        cases same
    · intro none
      rw [spawned, history] at none
      exact absurd none (Nat.succ_ne_zero _)
    · intro late
      rw [steps] at late
      rw [history]
      rcases Nat.lt_or_ge (gameSteps g) (roundStep 1) with now | earlier
      · exact ⟨c, bornAt_cons.2 (.inl ⟨rfl, by change gameSteps g + 1 = _; omega⟩)⟩
      · obtain ⟨k, born⟩ := h.first earlier
        exact ⟨k, bornAt_cons.2 (.inr (bornAt_cons.2 (.inr born)))⟩
    · rw [hits, spawned, history]
      exact h.fewer.trans (Nat.le_succ _)

theorem gameIh (h : Scheduled g) (rand : ℕ → ℕ) : Scheduled (gameIh rand g) := by
  have decayed : Scheduled g.countedDown := by
    refine h.congr rfl rfl fun i j vacant => ?_
    simp only [Globals.countedDown]
    split_ifs
    · exact vacant
    · rw [decayAlien, if_pos vacant]
      exact vacant
  rcases gameIh_cases rand g with ⟨running, e⟩ | ⟨-, -, e⟩ | ⟨-, -, e⟩ | ⟨-, -, e⟩ <;> rw [e]
  · exact h.gameStep running rand
  · exact decayed
  · exact decayed.congr rfl rfl fun _ _ => id
  · exact h

end Scheduled

/-- Every game keeps to the schedule. -/
theorem Reachable.scheduled {g : Globals} (reachable : Reachable g) : Scheduled g := by
  refine (reachable.induction (P := fun g => Recorded g ∧ Scheduled g)
    (fun lb => ⟨recorded_loopStart lb, .loopStart lb⟩) ?_ ?_ ?_ ?_).2
  · exact fun g => and_congr (recorded_core g)
      ⟨fun h => h.congr rfl rfl fun _ _ => id, fun h => h.congr rfl rfl fun _ _ => id⟩
  · exact fun arr g h => ⟨h.1.mouseEventHandler _, h.2.mouseEventHandler h.1 _⟩
  · exact fun scanCode g h => ⟨h.1.keyboardEventHandler _, h.2.keyboardEventHandler _⟩
  · exact fun rand g h => ⟨h.1.gameIh _, h.2.gameIh _⟩

/-! ## When aliens appear -/

/-- A timer interrupt that makes a step of the game calls `game_step`. -/
theorem MakesStep.gameStep {g : Globals} {rtcHours rtcMinutes : UInt8} {rand : ℕ → ℕ} {k : ℕ}
    (step : MakesStep g (.timer rtcHours rtcMinutes rand) k) :
    gameSteps g + 1 = k ∧ g.gameState = .playing ∧ ∃ g₁, core g₁ = core g ∧
      handle g (.timer rtcHours rtcMinutes rand) = gameStep rand g₁ := by
  obtain ⟨hk, running, -⟩ := makesStep_iff.1 step
  refine ⟨hk, running, ?_⟩
  by_cases tick : ticks g (.timer rtcHours rtcMinutes rand) = true
  · obtain ⟨g₁, h₁, h'⟩ := handle_timer tick
    rw [gameIh_playing ((gameState_of_core h₁).trans running)] at h'
    exact ⟨g₁, h₁, h'⟩
  · have idle : handle g (.timer rtcHours rtcMinutes rand) =
        { g with frameCounter := g.frameCounter + 1 } :=
      if_neg fun frame => tick (decide_eq_true frame)
    have same : gameSteps (handle g (.timer rtcHours rtcMinutes rand)) = gameSteps g := by
      rw [idle]
      rfl
    exact absurd (same.symm.trans step.2) (by omega)

/-- A step of the game spawns an alien if and only if it is the step of a spawn round and one of the
two cells that `rand()` selects is empty after the scan; whatever was hit before does not matter to
the rounds. -/
theorem spawns_iff {g : Globals} (reachable : Reachable g) {rtcHours rtcMinutes : UInt8}
    {rand : ℕ → ℕ} {k : ℕ} (step : MakesStep g (.timer rtcHours rtcMinutes rand) k) :
    spawned (handle g (.timer rtcHours rtcMinutes rand)) = spawned g + 1 ↔
      (∃ r, k = roundStep (r + 1)) ∧
      (((gameUpdateAlienTimes g).gameMatrix (Fin.ofNat 7 (rand 1)) (Fin.ofNat 11 (rand 0))).state =
          AlienState.empty ∨
        ((gameUpdateAlienTimes g).gameMatrix (Fin.ofNat 7 (rand 3)) (Fin.ofNat 11 (rand 2))).state =
          AlienState.empty) := by
  obtain ⟨rfl, running, g₁, h₁, h'⟩ := step.gameStep
  have same := sameGame_of_core h₁
  have history := (gameStep_spawn (same.gameState.trans running) rand).1
  have cell : g₁.spawnCell rand = g.spawnCell rand := by
    have matrix : (gameUpdateAlienTimes g₁).gameMatrix = (gameUpdateAlienTimes g).gameMatrix := by
      have going : g.gameState ≠ .gameOver := by simp [running]
      rw [gameUpdateAlienTimes_eq going, gameUpdateAlienTimes_eq (by rwa [same.gameState]),
        same.gameMatrix]
      cases firstExpired g.gameMatrix <;> rfl
    rw [Globals.spawnCell, Globals.spawnCell, matrix, same.randomAlienCounter, same.randomAlienNumber]
  rw [cell, same.calls] at history
  have due := reachable.scheduled.due_iff
  rw [h', spawned, spawned, history, ← due]
  by_cases wait : g.randomAlienCounter < g.randomAlienNumber
  · rw [Globals.spawnCell, if_pos wait]
    refine iff_of_false (fun more => ?_) fun spawns => spawns.1 wait
    exact absurd more (by simp [births])
  · rw [Globals.spawnCell, if_neg wait, and_iff_right wait]
    have found := freeCell_eq_none_iff rand (gameUpdateAlienTimes g).gameMatrix
    cases free : freeCell rand (gameUpdateAlienTimes g).gameMatrix alienRandomSpawnAttempts 0 with
    | none =>
      obtain ⟨full, full'⟩ := found.1 free
      refine iff_of_false (fun more => ?_) (not_or.2 ⟨full, full'⟩)
      exact absurd more (by simp [births])
    | some c =>
      refine iff_of_true rfl ?_
      by_contra full
      rw [found.2 (not_or.1 full)] at free
      cases free

/-- The first spawn round of a game. -/
theorem spawns_iff_first : ∃ g, Reachable g ∧ MakesStep g (.timer 0 0 aim) 71 ∧
    spawned (handle g (.timer 0 0 aim)) = spawned g + 1 := by
  obtain ⟨g₁, leads₁, h₁, -⟩ := aimed_loopStart
  obtain ⟨g₂, leads₂, h₂, -⟩ := h₁.release
  obtain ⟨g, leads₃, h, due⟩ := h₂.ripens
  have awake : g.gameState ≠ .exit := by simp [h.running]
  have reachable : Reachable g.between :=
    Leads.reachable (((leads₁.trans leads₂).trans leads₃).trans (leads_between awake h.even))
  have step : MakesStep g.between (.timer 0 0 aim) (gameSteps g.between + 1) := by
    refine makesStep_iff.2 ⟨rfl, h.running, g.later, aim, rfl, ?_⟩
    rw [handle_timer_second (by simp [h.running]) h.even, twoTimers,
      gameIh_playing (g := g.later) h.running]
  have vacant : ∀ i j, (g.gameMatrix i j).state = AlienState.empty := by
    intro i j
    by_cases here : (i, j) = (4, 5)
    · obtain ⟨rfl, rfl⟩ := Prod.mk.inj here
      rw [h.alien]
    · rw [h.others i j here]
  -- nothing was spawned, so that no round is over
  have nobody : spawned g.between = 0 := by
    have balance := (reachable.recorded.tracked (.inr (.inl h.running))).spawned_eq
    have dead : liveCells g.between = ∅ :=
      Finset.filter_eq_empty_iff.2 fun c _ => by
        have empty : (g.between.gameMatrix c.1 c.2).state = AlienState.empty := vacant c.1 c.2
        simp [Alien.Live, empty]
    rw [balance, show hits g.between = 0 from h.hits, dead, Finset.card_empty]
  have early : gameSteps g.between < roundStep 1 := by
    by_contra late
    obtain ⟨c, born⟩ := reachable.scheduled.first (Nat.le_of_not_lt late)
    exact absurd nobody (Nat.ne_of_gt born.births_pos)
  obtain ⟨r, round⟩ := reachable.scheduled.due_iff.1 due
  have first : gameSteps g.between + 1 = 71 := by
    have start : r = 0 := by
      have := roundStep_strictMono.le_iff_le.1 (show roundStep (r + 1) ≤ roundStep 1 by omega)
      omega
    rw [round, start]
    rfl
  rw [first] at step
  have empty := gameUpdateAlienTimes_blank (g := g.between) h.running vacant
    (Fin.ofNat 7 (aim 1)) (Fin.ofNat 11 (aim 0))
  exact ⟨g.between, reachable, step, (spawns_iff reachable step).2 ⟨⟨0, rfl⟩, .inl empty⟩⟩

/-! ## When a game ends -/

theorem EntersGameOver.expired {g : Globals} {e : Interrupt} (ends : EntersGameOver g e) :
    MakesStep g e (gameSteps g + 1) ∧ g.gameState = .playing ∧ ∃ i j, expired (g.gameMatrix i j) := by
  obtain ⟨before, ended⟩ := ends
  rcases handle_gameStep g e with ⟨running, g₁, rand, h₁, h'⟩ | ⟨-, still⟩
  · have same := sameGame_of_core h₁
    rw [h', (gameStep_spec (same.gameState.trans running) rand).2, same.gameMatrix] at ended
    exact ⟨makesStep_iff.2 ⟨rfl, running, g₁, rand, h₁, h'⟩, running, ended⟩
  · exact absurd (still ended) before

theorem MakesStep.entersGameOver {g : Globals} {e : Interrupt} {k : ℕ} (step : MakesStep g e k)
    (dead : ∃ i j, LabComputers.expired (g.gameMatrix i j)) : EntersGameOver g e := by
  obtain ⟨-, running, g₁, rand, h₁, h'⟩ := makesStep_iff.1 step
  have same := sameGame_of_core h₁
  refine ⟨by simp [running], ?_⟩
  rw [h', (gameStep_spec (same.gameState.trans running) rand).2, same.gameMatrix]
  exact dead

/-- The first alien of a game in which nothing was hit is alive. -/
theorem Tracked.first_age {g : Globals} (h : Tracked g) (scheduled : Scheduled g)
    (safe : hits g = 0) (late : 71 ≤ gameSteps g) :
    ∃ c : Cell, ∃ a, a + 71 = gameSteps g ∧ age (life g.calls) c = some a ∧ a ≤ 306 := by
  obtain ⟨c, born⟩ := scheduled.first late
  obtain ⟨a, ha, total⟩ := (survivor_iff h.lawful).1 (born.survivor safe)
  refine ⟨c, a, (Nat.add_comm a 71).trans total, ha, ?_⟩
  have cell := h.aged c.1 c.2
  rw [Prod.mk.eta, ha] at cell
  simp only [Aged] at cell
  omega

/-- A game ends 307 steps after a spawn round; a game in which nothing is hit lasts exactly 378
steps. -/
theorem gameOver_on_schedule {g : Globals} (reachable : Reachable g) (e : Interrupt) :
    (EntersGameOver g e → ∃ r, MakesStep g e (roundStep (r + 1) + 307)) ∧
    (InPlay g.gameState → hits g = 0 →
      gameSteps g < 378 ∧ (EntersGameOver g e ↔ MakesStep g e 378)) := by
  have scheduled := reachable.scheduled
  have expires : ∀ {n : ℕ} {c : Cell}, n + 307 = gameSteps g + 1 → Survivor (life g.calls) n c →
      ∃ r, gameSteps g + 1 = roundStep (r + 1) + 307 := by
    intro n c hn survivor
    obtain ⟨r, rfl⟩ := scheduled.born n c survivor.bornAt
    exact ⟨r, hn.symm⟩
  constructor
  · intro ends
    obtain ⟨step, running, i, j, dead⟩ := ends.expired
    have tracked := reachable.recorded.tracked (.inr (.inl running))
    obtain ⟨n, hn, survivor⟩ := (tracked.expired_iff (i, j)).1 dead
    obtain ⟨r, hr⟩ := expires hn survivor
    exact ⟨r, hr ▸ step⟩
  · intro inPlay safe
    have tracked := reachable.recorded.tracked inPlay
    have early : gameSteps g < 378 := by
      by_contra late
      obtain ⟨c, a, total, -, young⟩ := tracked.first_age scheduled safe (by omega)
      omega
    refine ⟨early, fun ends => ?_, fun step => ?_⟩
    · obtain ⟨step, running, i, j, dead⟩ := ends.expired
      obtain ⟨n, hn, survivor⟩ := (tracked.expired_iff (i, j)).1 dead
      obtain ⟨r, hr⟩ := expires hn survivor
      have first := roundStep_strictMono.monotone (show 1 ≤ r + 1 by omega)
      have : roundStep 1 = 71 := rfl
      have last : gameSteps g + 1 = 378 := by omega
      exact last ▸ step
    · obtain ⟨c, a, total, ha, -⟩ := tracked.first_age scheduled safe (by have := step.1; omega)
      obtain rfl : a = 306 := by
        have := step.1
        omega
      exact step.entersGameOver ⟨c.1, c.2, (tracked.aged c.1 c.2).expired_iff.2 ha⟩

/-- A game with any number of hits comes to its end. -/
theorem exists_death (n : ℕ) : ∃ g, Reachable g ∧ EntersGameOver g (.timer 0 0 aim) ∧
    InPlay g.gameState ∧ hits g = n ∧ g.lb = .zero := by
  obtain ⟨g, leads, h⟩ := exists_target n
  obtain ⟨g', leads', h'⟩ := h.expires (k := 0) (.inl ⟨rfl, rfl⟩)
  have awake : g'.gameState ≠ .exit := by simp [h'.running]
  have reachable : Reachable g'.between :=
    Leads.reachable ((leads.trans leads').trans (leads_between awake h'.even))
  refine ⟨g'.between, reachable, ⟨?_, ?_⟩, .inr (.inl h'.running), h'.hits, h'.lb⟩
  · change g'.gameState ≠ .gameOver
    simp [h'.running]
  · rw [handle_timer_second (by simp [h'.running]) h'.even]
    exact h'.twoTimers_over.ended

/-- A game in which nothing is hit, at its end. -/
theorem gameOver_on_schedule_first : ∃ g e, Reachable g ∧ EntersGameOver g e ∧ hits g = 0 ∧
    MakesStep g e 378 := by
  obtain ⟨g, reachable, ends, inPlay, safe, -⟩ := exists_death 0
  exact ⟨g, _, reachable, ends, safe,
    ((gameOver_on_schedule reachable _).2 inPlay safe).2.1 ends⟩

/-- No game has more points than it had spawn rounds; more than 255 points take at least 5601
steps. -/
theorem points_on_schedule {g : Globals} (reachable : Reachable g) :
    roundStep g.points.toNat ≤ gameSteps g ∧ (255 < g.points → 5601 ≤ gameSteps g) := by
  have scheduled := reachable.scheduled
  have few : g.points.toNat ≤ spawned g := by
    rw [reachable.recorded.toNat_points]
    exact (Nat.mod_le _ _).trans scheduled.fewer
  have bound : roundStep g.points.toNat ≤ gameSteps g :=
    (roundStep_strictMono.monotone few).trans scheduled.rounds
  refine ⟨bound, fun many => ?_⟩
  have many' : 256 ≤ g.points.toNat := UInt32.lt_iff_toNat_lt.1 many
  calc 5601 = roundStep 256 := by rw [roundStep_eq]; rfl
    _ ≤ roundStep g.points.toNat := roundStep_strictMono.monotone many'
    _ ≤ gameSteps g := bound

/-- A state with any number of hits. -/
theorem points_on_schedule_many : ∃ g, Reachable g ∧ hits g = 256 ∧
    roundStep g.points.toNat ≤ gameSteps g := by
  obtain ⟨g, leads, h⟩ := exists_target 256
  exact ⟨g, leads.reachable, h.hits, (points_on_schedule leads.reachable).1⟩

end LabComputers

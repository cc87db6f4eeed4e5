import LabComputers.Proj.LeaderboardProof
import LabComputers.Proj.LifeProof

/-!
# The submission of a score

A game submits its score at most once, with the points it was played for, to the leaderboard that
was found to have room for it; nothing else writes the leaderboard.
-/

namespace LabComputers

open CString

/-! ## Recorded submissions -/

/-- The call is one of `addScore`. -/
def Call.isSubmission : Call → Bool
  | .addScore _ _ _ => true
  | _ => false

/-- The number of calls of `addScore` in the current game. -/
def submissions (g : Globals) : ℕ := (sinceInit g.calls).countP Call.isSubmission

/-- The number of calls of `addScore` since the start of the program. -/
def totalSubmissions (g : Globals) : ℕ := g.calls.countP Call.isSubmission

/-- What the state tells about the submission of the current game. -/
structure Submitting (g : Globals) : Prop where
  once : submissions g ≤ 1
  pending : g.gameState ≠ .leaderboard → g.gameState ≠ .exit → submissions g = 0
  qualified : g.gameState = .lbInput → compareScore (toInt g.points) g.lb = true

/-- The calls `cs` were recorded, none of which submits a score or starts a game. -/
def Extends (g g' : Globals) : Prop :=
  ∃ cs, g'.calls = cs ++ g.calls ∧ ∀ c ∈ cs, c.isSubmission = false ∧ c ≠ .gameInitialize

theorem sinceInit_append (cs calls : List Call) (other : ∀ c ∈ cs, c ≠ .gameInitialize) :
    sinceInit (cs ++ calls) = cs ++ sinceInit calls := by
  induction cs with
  | nil => rfl
  | cons c cs ih =>
    have step : sinceInit (c :: (cs ++ calls)) = c :: sinceInit (cs ++ calls) := by
      cases c <;> first | rfl | exact absurd rfl (other _ (by simp))
    rw [List.cons_append, step, ih fun c' hc => other c' (by simp [hc]), List.cons_append]

theorem Extends.submissions_eq {g g' : Globals} (h : Extends g g') :
    submissions g' = submissions g ∧ totalSubmissions g' = totalSubmissions g := by
  obtain ⟨cs, calls, other⟩ := h
  have none : cs.countP Call.isSubmission = 0 :=
    List.countP_eq_zero.2 fun c hc => by simp [(other c hc).1]
  rw [submissions, submissions, totalSubmissions, totalSubmissions, calls,
    sinceInit_append cs _ fun c hc => (other c hc).2, List.countP_append, List.countP_append, none,
    Nat.zero_add, Nat.zero_add]
  exact ⟨rfl, rfl⟩

/-! ## Steps that do not submit -/

/-- The step from `g` to `g'` does not concern the submission. -/
structure Quiet (g g' : Globals) : Prop where
  calls : Extends g g'
  lb : g'.lb = g.lb
  entering : g'.gameState = .lbInput → g.gameState = .lbInput ∧ g'.points = g.points
  leaving : g.gameState = .leaderboard ∨ g.gameState = .exit →
    g'.gameState = .leaderboard ∨ g'.gameState = .exit

theorem Quiet.submitting {g g' : Globals} (quiet : Quiet g g') (h : Submitting g) :
    Submitting g' := by
  have same := quiet.calls.submissions_eq.1
  refine ⟨by rw [same]; exact h.once, fun open₁ open₂ => ?_, fun input => ?_⟩
  · rw [same]
    apply h.pending
    · intro closed
      exact (quiet.leaving (Or.inl closed)).elim open₁ open₂
    · intro closed
      exact (quiet.leaving (Or.inr closed)).elim open₁ open₂
  · obtain ⟨before, points⟩ := quiet.entering input
    rw [points, quiet.lb]
    exact h.qualified before

/-- A step that keeps the game state. -/
theorem Quiet.of_same {g g' : Globals} (calls : Extends g g') (lb : g'.lb = g.lb)
    (state : g'.gameState = g.gameState) (points : g'.points = g.points) : Quiet g g' :=
  ⟨calls, lb, fun input => ⟨state ▸ input, points⟩, fun closed => by rwa [state]⟩

/-- A step inside the states before the end of the game. -/
theorem Quiet.of_open {g g' : Globals} (calls : Extends g g') (lb : g'.lb = g.lb)
    (before : g.gameState ≠ .leaderboard ∧ g.gameState ≠ .exit) (after : g'.gameState ≠ .lbInput) :
    Quiet g g' :=
  ⟨calls, lb, fun input => absurd input after, fun closed => (closed.elim before.1 before.2).elim⟩

theorem Extends.refl (g : Globals) : Extends g g := ⟨[], rfl, by simp⟩

theorem mouseEventHandler_quiet (event : MouseEvent) (g : Globals) :
    Quiet g (mouseEventHandler event g) := by
  rcases mouseEventHandler_cases event g with e | e | ⟨running, c, -, e⟩ | ⟨running, e⟩ |
    ⟨menu, st, hst, e⟩ <;> rw [e]
  · exact .of_same ⟨[.mouseEventHandler event], rfl, by simp [Call.isSubmission]⟩ rfl rfl rfl
  · exact .of_same ⟨[.mouseEventHandler event], rfl, by simp [Call.isSubmission]⟩ rfl rfl rfl
  · refine .of_open ⟨[.hit c.1 c.2, .mouseCheckKill, .mouseEventHandler event], rfl,
      by simp [Call.isSubmission]⟩ rfl (by simp [running]) ?_
    change g.gameState ≠ .lbInput
    rw [running]
    decide
  · exact .of_same ⟨[.mouseCheckKill, .mouseEventHandler event], rfl,
      by simp [Call.isSubmission]⟩ rfl rfl rfl
  · refine .of_open ⟨[.mouseCheckExitButton, .mouseCheckPlayButton, .mouseEventHandler event], rfl,
      by simp [Call.isSubmission]⟩ rfl (by simp [menu]) ?_
    change st ≠ .lbInput
    rcases hst with rfl | rfl | rfl <;> decide

theorem keyboardEventHandler_quiet (scanCode : UInt8) (g : Globals) :
    Quiet g (keyboardEventHandler scanCode g) ∨
    (g.gameState = .lbInput ∧ g.name.getD 0 0 ≠ 0 ∧
      keyboardEventHandler scanCode g = gameSaveAndDisplayLb g) ∨
    keyboardEventHandler scanCode g = gameInitialize g := by
  rcases keyboardEventHandler_cases scanCode g with e | e | ⟨running, e⟩ | ⟨paused, e⟩ |
    ⟨input, ⟨c, -, -, e⟩ | e | ⟨typed, e⟩⟩ | ⟨-, e⟩ <;> rw [e]
  · exact Or.inl (.of_same (.refl g) rfl rfl rfl)
  · exact Or.inl ⟨.refl g, rfl, nofun, fun _ => Or.inr rfl⟩
  · exact Or.inl (.of_open (.refl g) rfl (by simp [running]) nofun)
  · exact Or.inl (.of_open (.refl g) rfl (by simp [paused]) nofun)
  · exact Or.inl (.of_same (.refl g) rfl rfl rfl)
  · exact Or.inl (.of_same (.refl g) rfl rfl rfl)
  · exact Or.inr (Or.inl ⟨input, typed, rfl⟩)
  · exact Or.inr (Or.inr rfl)

theorem gameStep_quiet {g : Globals} (running : g.gameState = .playing) (rand : ℕ → ℕ) :
    Quiet g (gameStep rand g) := by
  have spawns : ∀ g' : Globals, g'.calls = .gameStep :: g.calls → g'.lb = g.lb →
      g'.gameState ≠ .lbInput → Quiet g (gameGenerateNewAlien rand g') := by
    intro g' calls lb state
    obtain ⟨counter, number, increase, e | ⟨c, -, e⟩⟩ := gameGenerateNewAlien_cases rand g' <;> rw [e]
    · exact .of_open ⟨[.gameStep], calls, by simp [Call.isSubmission]⟩ lb (by simp [running]) state
    · refine .of_open ⟨[.spawn c.1 c.2, .gameStep], ?_, by simp [Call.isSubmission]⟩ lb
        (by simp [running]) state
      exact congrArg _ calls
  rcases gameStep_cases running rand with ⟨-, e⟩ | ⟨c, -, e⟩ <;> rw [e]
  · exact spawns _ rfl rfl (show g.gameState ≠ .lbInput from running.trans_ne (by decide))
  · exact spawns _ rfl rfl (show GameState.gameOver ≠ .lbInput by decide)

theorem gameIh_quiet (rand : ℕ → ℕ) (g : Globals) :
    Quiet g (gameIh rand g) ∨
      (g.gameState = .gameOver ∧ gameIh rand g = gameLeaderboard g.countedDown) := by
  rcases gameIh_cases rand g with ⟨running, e⟩ | ⟨ended, -, e⟩ | ⟨ended, -, e⟩ | ⟨-, -, e⟩ <;> rw [e]
  · exact Or.inl (gameStep_quiet running rand)
  · exact Or.inl (.of_same (.refl g) rfl rfl rfl)
  · exact Or.inr ⟨ended, rfl⟩
  · exact Or.inl (.of_same (.refl g) rfl rfl rfl)

/-! ## The invariant -/

theorem submitting_core (g : Globals) : Submitting (core g) ↔ Submitting g :=
  ⟨fun h => { h with }, fun h => { h with }⟩

theorem submitting_gameInitialize (g : Globals) : Submitting (gameInitialize g) where
  once := Nat.zero_le 1
  pending _ _ := rfl
  qualified := nofun

theorem submitting_loopStart (lb : Leaderboard) : Submitting (loopStart lb) where
  once := Nat.zero_le 1
  pending _ _ := rfl
  qualified := nofun

theorem Submitting.keyboardEventHandler {g : Globals} (h : Submitting g) (scanCode : UInt8) :
    Submitting (keyboardEventHandler scanCode g) := by
  rcases keyboardEventHandler_quiet scanCode g with quiet | ⟨input, -, e⟩ | e
  · exact quiet.submitting h
  · rw [e]
    have none : submissions g = 0 := h.pending (by simp [input]) (by simp [input])
    have one : submissions (gameSaveAndDisplayLb g) = submissions g + 1 :=
      List.countP_cons_of_pos rfl
    exact ⟨by omega, fun open₁ _ => absurd rfl open₁, nofun⟩
  · rw [e]
    exact submitting_gameInitialize g

theorem Submitting.gameIh {g : Globals} (h : Submitting g) (rand : ℕ → ℕ) :
    Submitting (gameIh rand g) := by
  rcases gameIh_quiet rand g with quiet | ⟨ended, e⟩
  · exact quiet.submitting h
  · rw [e]
    have none : submissions g = 0 := h.pending (by simp [ended]) (by simp [ended])
    refine ⟨h.once, fun _ _ => none, ?_⟩
    simp only [gameLeaderboard]
    split_ifs with submitted
    · exact fun _ => submitted
    · exact nofun

theorem Reachable.submitting {g : Globals} (reachable : Reachable g) : Submitting g :=
  reachable.induction submitting_loopStart submitting_core
    (fun _ _ h => (mouseEventHandler_quiet _ _).submitting h)
    (fun _ _ h => h.keyboardEventHandler _) fun _ _ h => h.gameIh _

/-! ## What is submitted -/

theorem str_ne_nil {b : List UInt8} (h : b.getD 0 0 ≠ 0) : str b ≠ [] := by
  cases b with
  | nil => exact absurd rfl h
  | cons c b =>
    have first : c ≠ 0 := h
    simp [str, first]

/-- A score that beats an entry of the leaderboard is not negative as an `int`. -/
theorem toInt_of_compareScore {n : UInt32} {lb : Leaderboard}
    (better : compareScore (toInt n) lb = true) : toInt n = n.toNat := by
  have positive : toInt n > (lb.scores 0).toNat := by simpa [compareScore] using better
  have range := n.toNat_lt
  rcases toInt_cases n with ⟨-, value⟩ | ⟨-, value⟩
  · exact value
  · omega

/-- The interrupt submits the score of the game: `addScore` is called once, with a nonempty name and
the number of hits modulo the range of `points`, on a leaderboard for which `compareScore` is true. -/
def Submits (g g' : Globals) : Prop :=
  ∃ (score : ℤ) (name : List UInt8),
    g'.calls = .addScore score name g.lb :: g.calls ∧ g'.lb = addScore 0 score name g.lb ∧
      score = (hits g % 2 ^ 32 : ℕ) ∧ str name ≠ [] ∧ compareScore score g.lb = true

theorem submits_gameSaveAndDisplayLb {g : Globals} (recorded : Recorded g)
    (submitting : Submitting g) (input : g.gameState = .lbInput) (typed : g.name.getD 0 0 ≠ 0) :
    Submits g (gameSaveAndDisplayLb g) := by
  have better := submitting.qualified input
  refine ⟨toInt g.points, g.name, rfl, rfl, ?_, str_ne_nil typed, better⟩
  rw [toInt_of_compareScore better, recorded.toNat_points]

/-- The leaderboard and the record of submissions are as before. -/
def KeepsLeaderboard (g g' : Globals) : Prop :=
  g'.lb = g.lb ∧ totalSubmissions g' = totalSubmissions g

/-- Both alternatives are about the leaderboard and the recorded calls only. -/
theorem submits_or_keeps_of_core {g g' h h' : Globals} (start : core g = core h)
    (end' : core g' = core h') (step : Submits h h' ∨ KeepsLeaderboard h h') :
    Submits g g' ∨ KeepsLeaderboard g g' := by
  have same := sameGame_of_core start
  have same' := sameGame_of_core end'
  unfold Submits KeepsLeaderboard hits totalSubmissions at *
  rwa [same.calls, same'.calls, same.lb, same'.lb]

/-- Every game submits at most once, and every interrupt either submits the score of the game or
leaves the leaderboard as it is. -/
theorem submitted_once {g : Globals} (reachable : Reachable g) (e : Interrupt) :
    submissions g ≤ 1 ∧ (Submits g (handle g e) ∨ KeepsLeaderboard g (handle g e)) := by
  refine ⟨reachable.submitting.once, ?_⟩
  have recorded : ∀ {g₁}, core g₁ = core g → Recorded g₁ ∧ Submitting g₁ := fun h₁ =>
    ⟨(recorded_core _).1 (h₁ ▸ (recorded_core g).2 reachable.recorded),
      (submitting_core _).1 (h₁ ▸ (submitting_core g).2 reachable.submitting)⟩
  rcases handle_cases g e with ⟨h', -⟩ | ⟨g₁, arr, h₁, h', -⟩ | ⟨g₁, scanCode, h₁, h', -⟩ |
    ⟨g₁, rand, h₁, h', -⟩
  · exact submits_or_keeps_of_core rfl h' (Or.inr ⟨rfl, rfl⟩)
  · have quiet := mouseEventHandler_quiet (mouseEvent arr) g₁
    exact submits_or_keeps_of_core h₁.symm h' (Or.inr ⟨quiet.lb, quiet.calls.submissions_eq.2⟩)
  · rw [h']
    refine submits_or_keeps_of_core h₁.symm rfl ?_
    rcases keyboardEventHandler_quiet scanCode g₁ with quiet | ⟨input, typed, e'⟩ | e'
    · exact Or.inr ⟨quiet.lb, quiet.calls.submissions_eq.2⟩
    · rw [e']
      exact Or.inl (submits_gameSaveAndDisplayLb (recorded h₁).1 (recorded h₁).2 input typed)
    · rw [e']
      exact Or.inr ⟨rfl, List.countP_cons_of_neg (by simp [Call.isSubmission])⟩
  · rw [h']
    refine submits_or_keeps_of_core h₁.symm rfl (Or.inr ?_)
    rcases gameIh_quiet rand g₁ with quiet | ⟨-, e'⟩
    · exact ⟨quiet.lb, quiet.calls.submissions_eq.2⟩
    · rw [e']
      exact ⟨rfl, rfl⟩

end LabComputers

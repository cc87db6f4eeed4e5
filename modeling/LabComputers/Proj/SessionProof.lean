import LabComputers.Proj.HistoryProof
import LabComputers.Proj.NameProof

/-!
# From screen to screen

How `game_state` moves in a run: the graph of its changes (`gameState_graph`), the length of the time
after the death of the player (`gameOver_lasts`), and that no state but `EXIT` is a dead end
(`back_to_menu`).
-/

namespace LabComputers

open CString Lifetime

/-! ## Timer interrupts -/

/-- The interrupt is one of the timer. -/
def Interrupt.isTimer : Interrupt → Bool
  | .timer _ _ _ => true
  | _ => false

/-- The number of timer interrupts. -/
def timers (es : List Interrupt) : ℕ := es.countP Interrupt.isTimer

theorem mouseEventHandler_frameCounter (event : MouseEvent) (g : Globals) :
    (mouseEventHandler event g).frameCounter = g.frameCounter := by
  rcases mouseEventHandler_cases event g with e | e | ⟨-, c, -, e⟩ | ⟨-, e⟩ | ⟨-, st, -, e⟩ <;>
    rw [e] <;> rfl

theorem keyboardEventHandler_frameCounter (scanCode : UInt8) (g : Globals) :
    (keyboardEventHandler scanCode g).frameCounter = g.frameCounter := by
  rcases keyboardEventHandler_cases scanCode g with e | e | ⟨-, e⟩ | ⟨-, e⟩ |
    ⟨-, ⟨c, -, -, e⟩ | e | ⟨-, e⟩⟩ | ⟨-, e⟩ <;> rw [e] <;> rfl

theorem gameIh_frameCounter (rand : ℕ → ℕ) (g : Globals) :
    (gameIh rand g).frameCounter = g.frameCounter := by
  have spawned : ∀ g' : Globals, (gameGenerateNewAlien rand g').frameCounter = g'.frameCounter := by
    intro g'
    obtain ⟨counter, number, increase, e | ⟨c, -, e⟩⟩ := gameGenerateNewAlien_cases rand g' <;>
      rw [e] <;> rfl
  rcases gameIh_cases rand g with ⟨running, e⟩ | ⟨-, -, e⟩ | ⟨-, -, e⟩ | ⟨-, -, e⟩ <;> rw [e]
  · rcases gameStep_cases running rand with ⟨-, e'⟩ | ⟨c, -, e'⟩ <;> rw [e', spawned] <;> rfl
  · rfl
  · rfl

theorem mouseByte_frameCounter (byte : UInt8) (g : Globals) :
    (mouseByte byte g).frameCounter = g.frameCounter := by
  unfold mouseByte
  split_ifs
  · rfl
  · simp only
    split_ifs
    · exact mouseEventHandler_frameCounter _ _
    · rfl

theorem kbcScancode_frameCounter (scanCode : UInt8) (g : Globals) :
    (kbcScancode scanCode g).frameCounter = g.frameCounter := by
  unfold kbcScancode
  by_cases two : scanCode = kbcScancode2B
  · rw [if_pos two]
  · rw [if_neg two]
    refine (keyboardEventHandler_frameCounter _ _).trans ?_
    split_ifs <;> rfl

/-- Only timer interrupts are counted. -/
theorem handle_frameCounter (g : Globals) (e : Interrupt) :
    (handle g e).frameCounter = if e.isTimer then g.frameCounter + 1 else g.frameCounter := by
  cases e with
  | mouse replies =>
    change ((mouseIh g).value replies).frameCounter = g.frameCounter
    have cleared : (clearPacket g).frameCounter = g.frameCounter := by
      unfold clearPacket
      split_ifs <;> rfl
    rw [mouseIh_value]
    split_ifs
    · exact (mouseByte_frameCounter _ _).trans cleared
    · exact cleared
  | kbc replies =>
    change ((kbcIh g).value replies).frameCounter = g.frameCounter
    rw [kbcIh_value]
    split_ifs
    · exact kbcScancode_frameCounter _ _
    · rfl
  | timer rtcHours rtcMinutes rand =>
    change (timerIh rtcHours rtcMinutes rand g).frameCounter = g.frameCounter + 1
    rw [timerIh]
    simp only
    split_ifs
    · exact gameIh_frameCounter rand _
    · exact gameIh_frameCounter rand _
    · rfl

/-! ## Going on from a reachable state -/

theorem Notification.interrupts_prefix {n : Notification} {es : List Interrupt}
    (h : es <+: n.interrupts) : ∃ n' : Notification, es = n'.interrupts := by
  obtain ⟨mouse, kbc, timer⟩ := n
  have part := List.prefix_iff_eq_take.1 h
  rw [part]
  match es.length with
  | 0 => exact ⟨⟨none, none, none⟩, rfl⟩
  | 1 =>
    cases mouse with
    | some replies => exact ⟨⟨some replies, none, none⟩, rfl⟩
    | none =>
      cases kbc with
      | some replies => exact ⟨⟨none, some replies, none⟩, rfl⟩
      | none => exact ⟨⟨none, none, timer⟩, by cases timer <;> rfl⟩
  | 2 =>
    cases mouse with
    | some replies =>
      cases kbc with
      | some replies' => exact ⟨⟨some replies, some replies', none⟩, rfl⟩
      | none => exact ⟨⟨some replies, none, timer⟩, by cases timer <;> rfl⟩
    | none => exact ⟨⟨none, kbc, timer⟩, by cases kbc <;> cases timer <;> rfl⟩
  | k + 3 =>
    refine ⟨⟨mouse, kbc, timer⟩, List.take_of_length_le ?_⟩
    cases mouse <;> cases kbc <;> cases timer <;> simp [Notification.interrupts]

theorem Reachable.leads {g g' : Globals} (reachable : Reachable g) (leads : Leads g g') :
    Reachable g' := by
  obtain ⟨lb, visits⟩ := reachable
  refine ⟨lb, visits.reaches ?_ ?_ leads⟩
  · rintro b es ⟨n, rfl⟩ part
    exact Notification.interrupts_prefix part
  · rintro (replies | replies | ⟨rtcHours, rtcMinutes, rand⟩)
    · exact ⟨⟨some replies, none, none⟩, rfl⟩
    · exact ⟨⟨none, some replies, none⟩, rfl⟩
    · exact ⟨⟨none, none, some (rtcHours, rtcMinutes, rand)⟩, rfl⟩

theorem Leads.single {g : Globals} (awake : g.gameState ≠ .exit) (e : Interrupt) :
    Leads g (handle g e) :=
  Transition.Reaches.single (by simpa [exited] using awake) e

/-! ## The graph of the game states -/

/-- The changes of `game_state`. -/
inductive Edge : GameState → GameState → Prop
  | play : Edge .menu .playing
  | pause : Edge .playing .pause
  | resume : Edge .pause .playing
  | die : Edge .playing .gameOver
  | qualify : Edge .gameOver .lbInput
  | rank : Edge .gameOver .leaderboard
  | submit : Edge .lbInput .leaderboard
  | restart : Edge .leaderboard .menu
  | quit {s : GameState} (awake : s ≠ .exit) : Edge s .exit

theorem mouseEventHandler_edge (event : MouseEvent) (g : Globals) :
    (mouseEventHandler event g).gameState = g.gameState ∨
      Edge g.gameState (mouseEventHandler event g).gameState := by
  rcases mouseEventHandler_cases event g with e | e | ⟨-, c, -, e⟩ | ⟨-, e⟩ | ⟨menu, st, hst, e⟩ <;>
    rw [e]
  · exact .inl rfl
  · exact .inl rfl
  · exact .inl rfl
  · exact .inl rfl
  · rw [menu]
    rcases hst with rfl | rfl | rfl
    · exact .inl rfl
    · exact .inr .play
    · exact .inr (.quit nofun)

theorem keyboardEventHandler_edge (scanCode : UInt8) (g : Globals) :
    (keyboardEventHandler scanCode g).gameState = g.gameState ∨
      Edge g.gameState (keyboardEventHandler scanCode g).gameState := by
  rcases keyboardEventHandler_cases scanCode g with e | e | ⟨running, e⟩ | ⟨paused, e⟩ |
    ⟨input, ⟨c, -, -, e⟩ | e | ⟨-, e⟩⟩ | ⟨shown, e⟩ <;> rw [e]
  · exact .inl rfl
  · by_cases awake : g.gameState = .exit
    · exact .inl awake.symm
    · exact .inr (.quit awake)
  · rw [running]
    exact .inr .pause
  · rw [paused]
    exact .inr .resume
  · exact .inl rfl
  · exact .inl rfl
  · rw [input]
    exact .inr .submit
  · rw [shown]
    exact .inr .restart

theorem gameIh_edge (rand : ℕ → ℕ) (g : Globals) :
    (gameIh rand g).gameState = g.gameState ∨ Edge g.gameState (gameIh rand g).gameState := by
  rcases gameIh_cases rand g with ⟨running, e⟩ | ⟨-, -, e⟩ | ⟨ended, -, e⟩ | ⟨-, -, e⟩ <;> rw [e]
  · rcases gameStep_cases running rand with ⟨-, e'⟩ | ⟨c, -, e'⟩ <;>
      rw [e', gameGenerateNewAlien_state]
    · exact .inl rfl
    · rw [running]
      exact .inr .die
  · exact .inl rfl
  · rw [ended]
    change _ ∨ Edge _ (if _ then _ else _)
    split_ifs
    · exact .inr .qualify
    · exact .inr .rank
  · exact .inl rfl

/-- Every interrupt keeps `game_state` or moves it along an edge. -/
theorem handle_edge (g : Globals) (e : Interrupt) :
    (handle g e).gameState = g.gameState ∨ Edge g.gameState (handle g e).gameState := by
  rcases handle_cases g e with ⟨h', -⟩ | ⟨g₁, arr, h₁, h', -⟩ | ⟨g₁, scanCode, h₁, h', -⟩ |
    ⟨g₁, rand, h₁, h', -⟩
  · exact .inl (gameState_of_core h')
  · rw [gameState_of_core h', ← gameState_of_core h₁]
    exact mouseEventHandler_edge _ _
  · rw [h', ← gameState_of_core h₁]
    exact keyboardEventHandler_edge _ _
  · rw [h', ← gameState_of_core h₁]
    exact gameIh_edge _ _

/-! ## Waiting -/

/-- Timer interrupts with arbitrary results of `rand()`. -/
def waits (es : List Interrupt) : Prop := ∀ e ∈ es, e.isTimer = true

/-- What a timer interrupt can do to `game_state`. -/
theorem handle_timer_edge (g : Globals) {e : Interrupt} (timer : e.isTimer = true) :
    (handle g e).gameState = g.gameState ∨
      (g.gameState = .playing ∧ (handle g e).gameState = .gameOver) ∨
      (g.gameState = .gameOver ∧ ((handle g e).gameState = .lbInput ∨
        (handle g e).gameState = .leaderboard)) := by
  cases e with
  | mouse => cases timer
  | kbc => cases timer
  | timer rtcHours rtcMinutes rand =>
    by_cases tick : ticks g (.timer rtcHours rtcMinutes rand) = true
    · obtain ⟨g₁, h₁, h'⟩ := handle_timer tick
      rw [h', ← gameState_of_core h₁]
      rcases gameIh_cases rand g₁ with ⟨running, e⟩ | ⟨-, -, e⟩ | ⟨ended, -, e⟩ | ⟨-, -, e⟩ <;> rw [e]
      · rcases gameStep_cases running rand with ⟨-, e'⟩ | ⟨c, -, e'⟩ <;>
          rw [e', gameGenerateNewAlien_state]
        · exact .inl rfl
        · exact .inr (.inl ⟨running, rfl⟩)
      · exact .inl rfl
      · refine .inr (.inr ⟨ended, ?_⟩)
        change (if _ then GameState.lbInput else .leaderboard) = _ ∨ (if _ then _ else _) = _
        split_ifs
        · exact .inl rfl
        · exact .inr rfl
      · exact .inl rfl
    · have between : handle g (.timer rtcHours rtcMinutes rand) = g.between :=
        if_neg fun frame => tick (decide_eq_true frame)
      rw [between]
      exact .inl rfl

theorem waits_replicate (n : ℕ) (rtcHours rtcMinutes : UInt8) (rand : ℕ → ℕ) :
    waits (List.replicate n (.timer rtcHours rtcMinutes rand)) := by
  intro e he
  rw [List.eq_of_mem_replicate he]
  rfl

theorem timers_replicate (n : ℕ) (rtcHours rtcMinutes : UInt8) (rand : ℕ → ℕ) :
    timers (List.replicate n (.timer rtcHours rtcMinutes rand)) = n := by
  rw [timers, List.countP_replicate]
  rfl

/-- Timer interrupts do not end the program. -/
theorem stays_of_waits {g : Globals} (awake : g.gameState ≠ .exit) {es : List Interrupt}
    (wait : waits es) :
    Transition.EveryStep handle (fun g e => (handle g e).gameState ≠ .exit) g es := by
  induction es generalizing g with
  | nil => exact Transition.everyStep_nil handle
  | cons e es ih =>
    obtain ⟨timer, rest⟩ := List.forall_mem_cons.1 wait
    have awake' : (handle g e).gameState ≠ .exit := by
      rcases handle_timer_edge g timer with e' | ⟨-, e'⟩ | ⟨-, e' | e'⟩ <;> rw [e']
      · exact awake
      all_goals exact nofun
    exact (Transition.everyStep_cons handle).2 ⟨awake', ih awake' rest⟩

/-! ## After the death of the player -/

/-- The game is over and `n` timer interrupts are left until it is noticed. -/
structure Ending (n : ℕ) (g : Globals) : Prop where
  ended : g.gameState = .gameOver
  left : n + (g.frameCounter % 2).toNat = 2 * g.gameOverCounter.toNat
  positive : 0 < n

/-- The variables that decide what follows the countdown. -/
structure SameResult (g g' : Globals) : Prop where
  points : g'.points = g.points
  lb : g'.lb = g.lb

theorem handle_result {g : Globals} (ended : g.gameState = .gameOver) (e : Interrupt) :
    SameResult g (handle g e) := by
  rcases handle_cases g e with ⟨h', -⟩ | ⟨g₁, arr, h₁, h', -⟩ | ⟨g₁, scanCode, h₁, h', -⟩ |
    ⟨g₁, rand, h₁, h', -⟩
  · have same := sameGame_of_core h'
    exact ⟨same.points, same.lb⟩
  · have same := sameGame_of_core h'
    have same₁ := sameGame_of_core h₁
    have ended₁ := same₁.gameState.trans ended
    refine ⟨same.points.trans (Eq.trans ?_ same₁.points), same.lb.trans (Eq.trans ?_ same₁.lb)⟩ <;>
    · rcases mouseEventHandler_cases (mouseEvent arr) g₁ with e' | e' | ⟨running, -⟩ | ⟨running, -⟩ |
        ⟨menu, -⟩
      · rw [e']
        rfl
      · rw [e']
        rfl
      · exact absurd (running.symm.trans ended₁) (by decide)
      · exact absurd (running.symm.trans ended₁) (by decide)
      · exact absurd (menu.symm.trans ended₁) (by decide)
  · have same₁ := sameGame_of_core h₁
    have ended₁ := same₁.gameState.trans ended
    rw [h']
    rcases keyboardEventHandler_cases scanCode g₁ with e' | e' | ⟨running, -⟩ | ⟨paused, -⟩ |
      ⟨input, -⟩ | ⟨shown, -⟩
    · rw [e']
      exact ⟨same₁.points, same₁.lb⟩
    · rw [e']
      exact ⟨same₁.points, same₁.lb⟩
    · exact absurd (running.symm.trans ended₁) (by decide)
    · exact absurd (paused.symm.trans ended₁) (by decide)
    · exact absurd (input.symm.trans ended₁) (by decide)
    · exact absurd (shown.symm.trans ended₁) (by decide)
  · have same₁ := sameGame_of_core h₁
    have ended₁ := same₁.gameState.trans ended
    rw [h']
    rcases gameIh_cases rand g₁ with ⟨running, -⟩ | ⟨-, -, e'⟩ | ⟨-, -, e'⟩ | ⟨-, other, -⟩
    · exact absurd (running.symm.trans ended₁) (by decide)
    · rw [e']
      exact ⟨same₁.points, same₁.lb⟩
    · rw [e']
      exact ⟨same₁.points, same₁.lb⟩
    · exact absurd ended₁ other

/-- What `game_leaderboard` makes of a result. -/
def resultState (points : UInt32) (lb : Leaderboard) : GameState :=
  if compareScore (toInt points) lb then .lbInput else .leaderboard

theorem parity_succ (f : UInt32) :
    (f % 2 = 0 ∧ (f + 1) % 2 = 1) ∨ (f % 2 = 1 ∧ (f + 1) % 2 = 0) := by
  simp only [← UInt32.toNat_inj, UInt32.toNat_mod, UInt32.toNat_add, UInt32.reduceToNat]
  omega

/-- An interrupt that does not tick leaves the countdown alone. -/
theorem handle_waits {g : Globals} (ended : g.gameState = .gameOver) {e : Interrupt}
    (idle : ticks g e = false) (stays : (handle g e).gameState ≠ .exit) :
    (handle g e).gameState = .gameOver ∧ (handle g e).gameOverCounter = g.gameOverCounter := by
  rcases handle_cases g e with ⟨h', -⟩ | ⟨g₁, arr, h₁, h', -⟩ | ⟨g₁, scanCode, h₁, h', -⟩ |
    ⟨g₁, rand, h₁, h', tick⟩
  · have same := sameGame_of_core h'
    exact ⟨same.gameState.trans ended, same.gameOverCounter⟩
  · have same := sameGame_of_core h'
    have same₁ := sameGame_of_core h₁
    have ended₁ := same₁.gameState.trans ended
    have over' : (mouseEventHandler (mouseEvent arr) g₁).gameState = .gameOver := by
      rcases mouseEventHandler_cases (mouseEvent arr) g₁ with e' | e' | ⟨running, -⟩ |
        ⟨running, -⟩ | ⟨menu, -⟩
      · rw [e']
        exact ended₁
      · rw [e']
        exact ended₁
      · exact absurd (running.symm.trans ended₁) (by decide)
      · exact absurd (running.symm.trans ended₁) (by decide)
      · exact absurd (menu.symm.trans ended₁) (by decide)
    obtain ⟨-, -, -, counter⟩ := mouseEventHandler_gameOver over'
    exact ⟨same.gameState.trans over', (same.gameOverCounter.trans counter).trans
      same₁.gameOverCounter⟩
  · have same₁ := sameGame_of_core h₁
    have ended₁ := same₁.gameState.trans ended
    rw [h'] at stays ⊢
    rcases keyboardEventHandler_cases scanCode g₁ with e' | e' | ⟨running, -⟩ | ⟨paused, -⟩ |
      ⟨input, -⟩ | ⟨shown, -⟩
    · rw [e']
      exact ⟨ended₁, same₁.gameOverCounter⟩
    · rw [e'] at stays
      exact absurd rfl stays
    · exact absurd (running.symm.trans ended₁) (by decide)
    · exact absurd (paused.symm.trans ended₁) (by decide)
    · exact absurd (input.symm.trans ended₁) (by decide)
    · exact absurd (shown.symm.trans ended₁) (by decide)
  · rw [idle] at tick
    cases tick

namespace Ending

variable {n : ℕ} {g : Globals}

theorem other (h : Ending n g) {e : Interrupt} (other : e.isTimer = false)
    (stays : (handle g e).gameState ≠ .exit) : Ending n (handle g e) := by
  have idle : ticks g e = false := by
    cases e with
    | timer => cases other
    | _ => rfl
  obtain ⟨ended, counter⟩ := handle_waits h.ended idle stays
  refine ⟨ended, ?_, h.positive⟩
  rw [handle_frameCounter, other, counter]
  exact h.left

/-- A timer interrupt before the last one. -/
theorem timer (h : Ending (n + 1) g) (more : 0 < n) (rtcHours rtcMinutes : UInt8) (rand : ℕ → ℕ)
    (stays : (handle g (.timer rtcHours rtcMinutes rand)).gameState ≠ .exit) :
    Ending n (handle g (.timer rtcHours rtcMinutes rand)) := by
  have left := h.left
  have counted := handle_frameCounter g (.timer rtcHours rtcMinutes rand)
  change _ = g.frameCounter + 1 at counted
  rcases parity_succ g.frameCounter with ⟨even, odd⟩ | ⟨odd, even⟩
  · have idle : ticks g (.timer rtcHours rtcMinutes rand) = false := by
      rw [ticks, frameNumber_eq, odd]
      rfl
    obtain ⟨ended, counter⟩ := handle_waits h.ended idle stays
    refine ⟨ended, ?_, more⟩
    rw [counted, odd, counter]
    rw [even] at left
    exact (Nat.add_assoc n 1 0).symm.trans left
  · have tick : ticks g (.timer rtcHours rtcMinutes rand) = true := by
      rw [ticks, frameNumber_eq, even]
      rfl
    obtain ⟨g₁, h₁, h'⟩ := handle_timer tick
    have same := sameGame_of_core h₁
    rw [odd, UInt32.toNat_one] at left
    have less : (g.gameOverCounter - 1).toNat = g.gameOverCounter.toNat - 1 := by
      rw [UInt32.toNat_sub_of_le _ _ (UInt32.le_iff_toNat_le.2 (by rw [UInt32.toNat_one]; omega)),
        UInt32.toNat_one]
    have later : ¬ g₁.gameOverCounter - 1 = 0 := by
      rw [same.gameOverCounter, ← UInt32.toNat_inj, less, UInt32.toNat_zero]
      omega
    have stepped : handle g (.timer rtcHours rtcMinutes rand) = g₁.countedDown := by
      rw [h', gameIh_over (same.gameState.trans h.ended), if_neg later]
    refine ⟨?_, ?_, more⟩
    · rw [stepped]
      exact same.gameState.trans h.ended
    · rw [counted, even, stepped]
      change n + 0 = 2 * (g₁.gameOverCounter - 1).toNat
      rw [same.gameOverCounter, less]
      omega

/-- The last timer interrupt calls `game_leaderboard`. -/
theorem last (h : Ending 1 g) (rtcHours rtcMinutes : UInt8) (rand : ℕ → ℕ) :
    (handle g (.timer rtcHours rtcMinutes rand)).gameState = resultState g.points g.lb := by
  have left := h.left
  rcases parity_succ g.frameCounter with ⟨even, -⟩ | ⟨odd, even⟩
  · rw [even, UInt32.toNat_zero] at left
    omega
  · have tick : ticks g (.timer rtcHours rtcMinutes rand) = true := by
      rw [ticks, frameNumber_eq, even]
      rfl
    obtain ⟨g₁, h₁, h'⟩ := handle_timer tick
    have same := sameGame_of_core h₁
    rw [odd, UInt32.toNat_one] at left
    have one : g₁.gameOverCounter = 1 := by
      rw [same.gameOverCounter, ← UInt32.toNat_inj, UInt32.toNat_one]
      omega
    rw [h', gameIh_over (same.gameState.trans h.ended), if_pos (by rw [one]; rfl)]
    change resultState g₁.points g₁.lb = _
    rw [same.points, same.lb]

theorem run (h : Ending n g) (es : List Interrupt)
    (stays : Transition.EveryStep handle (fun g e => (handle g e).gameState ≠ .exit) g es)
    (few : timers es < n) :
    Ending (n - timers es) (Transition.run handle g es) ∧
      SameResult g (Transition.run handle g es) := by
  induction es generalizing n g with
  | nil => exact ⟨h, rfl, rfl⟩
  | cons e es ih =>
    obtain ⟨now, later⟩ := (Transition.everyStep_cons _).1 stays
    have result := handle_result h.ended e
    have next : Ending (n - timers [e]) (handle g e) ∧ timers es < n - timers [e] := by
      cases e with
      | timer rtcHours rtcMinutes rand =>
        have counted : timers (.timer rtcHours rtcMinutes rand :: es) = timers es + 1 :=
          List.countP_cons_of_pos rfl
        obtain ⟨m, rfl⟩ : ∃ m, n = m + 1 := ⟨n - 1, by omega⟩
        exact ⟨h.timer (by omega) _ _ _ now, by change timers es < m; omega⟩
      | mouse replies => exact ⟨h.other rfl now, few⟩
      | kbc replies => exact ⟨h.other rfl now, few⟩
    obtain ⟨ending, result'⟩ := ih next.1 later next.2
    have total : n - timers [e] - timers es = n - timers (e :: es) := by
      rw [Nat.sub_sub, timers, timers, ← List.countP_append]
      rfl
    rw [total] at ending
    exact ⟨ending, result'.points.trans result.points, result'.lb.trans result.lb⟩

end Ending

/-- The step at which the player dies sets the countdown and keeps the result. -/
theorem EntersGameOver.sets {g : Globals} {e : Interrupt} (ends : EntersGameOver g e) :
    (handle g e).gameOverCounter = gameOverWait ∧ SameResult g (handle g e) := by
  obtain ⟨before, ended⟩ := ends
  rcases handle_gameOver ended with ⟨steps, rtcHours, rtcMinutes, rand, g₁, rfl, h₁, h'⟩ |
    ⟨ended', -⟩ | ⟨ended', -⟩
  · have same₁ := sameGame_of_core h₁
    have running := same₁.gameState.trans steps.1
    rw [h'] at ended ⊢
    rcases gameStep_cases running rand with ⟨-, e'⟩ | ⟨c, -, e'⟩ <;> rw [e'] at ended ⊢
    · rw [gameGenerateNewAlien_state] at ended
      exact absurd (running.symm.trans ended) (by decide)
    · obtain ⟨counter, number, increase, e'' | ⟨k, -, e''⟩⟩ :=
        gameGenerateNewAlien_cases rand ((g₁.record .gameStep).killedBy c) <;> rw [e'']
      · exact ⟨rfl, same₁.points, same₁.lb⟩
      · exact ⟨rfl, same₁.points, same₁.lb⟩
  · exact absurd ended' before
  · exact absurd ended' before

/-- The death of the player starts the countdown. -/
theorem EntersGameOver.ending {g : Globals} {e : Interrupt} (ends : EntersGameOver g e) :
    Ending 240 (handle g e) := by
  obtain ⟨counter, -⟩ := ends.sets
  obtain ⟨before, ended⟩ := ends
  rcases handle_gameOver ended with ⟨⟨-, tick⟩, rtcHours, rtcMinutes, rand, g₁, rfl, -⟩ |
    ⟨ended', -⟩ | ⟨ended', -⟩
  · refine ⟨ended, ?_, by decide⟩
    have counted := handle_frameCounter g (.timer rtcHours rtcMinutes rand)
    change _ = g.frameCounter + 1 at counted
    have even : (g.frameCounter + 1) % 2 = 0 := by
      rw [ticks, frameNumber_eq] at tick
      exact of_decide_eq_true tick
    rw [counted, even, counter]
    rfl
  · exact absurd ended' before
  · exact absurd ended' before

/-- The game is over for exactly 240 timer interrupts, whatever else happens meanwhile except a press
of Escape, and then the result that the player died with decides whether a name is asked for. -/
theorem gameOver_lasts {g : Globals} {e : Interrupt} (ends : EntersGameOver g e)
    (es : List Interrupt)
    (stays : Transition.EveryStep handle (fun g e => (handle g e).gameState ≠ .exit) (handle g e) es)
    (few : timers es < 240) :
    (Transition.run handle (handle g e) es).gameState = .gameOver ∧
    (timers es = 239 → ∀ rtcHours rtcMinutes rand,
      (handle (Transition.run handle (handle g e) es) (.timer rtcHours rtcMinutes rand)).gameState =
        resultState (handle g e).points (handle g e).lb) := by
  obtain ⟨ending, result⟩ := ends.ending.run es stays few
  refine ⟨ending.ended, fun last rtcHours rtcMinutes rand => ?_⟩
  rw [last] at ending
  rw [← result.points, ← result.lb]
  exact ending.last rtcHours rtcMinutes rand

theorem exit_absorbing {g : Globals} (ended : g.gameState = .exit) (es : List Interrupt) :
    (Transition.run handle g es).gameState = .exit := by
  refine Transition.run_induction (P := (·.gameState = .exit)) handle (fun g e h => ?_) ended es
  rcases handle_edge g e with stay | edge
  · exact stay.trans h
  · rw [h] at edge
    generalize (handle g e).gameState = t at edge
    cases edge with
    | quit awake => rfl

/-- A run that does not end in `EXIT` was never there. -/
theorem leads_of_run {g : Globals} {es : List Interrupt}
    (awake : (Transition.run handle g es).gameState ≠ .exit) : Leads g (Transition.run handle g es) := by
  refine Transition.Reaches.of_run ?_
  rintro pre ⟨post, rfl⟩
  rw [Transition.run_append] at awake
  have earlier : (Transition.run handle g pre).gameState ≠ .exit := fun ended =>
    awake (exit_absorbing ended post)
  simpa [exited] using earlier

/-- A player who dies in a game in which nothing is hit, and does nothing else. -/
theorem gameOver_lasts_idle : ∃ g, Reachable g ∧ EntersGameOver g (.timer 0 0 aim) ∧
    ∀ rtcHours rtcMinutes rand,
      (Transition.run handle (handle g (.timer 0 0 aim)) (List.replicate 239 (.timer 0 0 id)
        ++ [.timer rtcHours rtcMinutes rand])).gameState = .leaderboard := by
  obtain ⟨g, reachable, ends, -, safe, lb⟩ := exists_death 0
  refine ⟨g, reachable, ends, fun rtcHours rtcMinutes rand => ?_⟩
  have awake : (handle g (.timer 0 0 aim)).gameState ≠ .exit := by simp [ends.2]
  have result := ends.sets.2
  have points : g.points = 0 := by rw [reachable.recorded.points, safe]; rfl
  have counted := timers_replicate 239 0 0 id
  have last := (gameOver_lasts ends _ (stays_of_waits awake (waits_replicate 239 0 0 id))
    (by omega)).2 counted rtcHours rtcMinutes rand
  rw [Transition.run_concat, last, result.points, result.lb, points, lb]
  decide

/-! ## A player who does nothing -/

/-- The timer interrupts since the last hit, as far as they can be told from the steps. -/
def Globals.waited (g : Globals) : ℕ := 2 * lull (life g.calls) + (g.frameCounter % 2).toNat

/-- A timer interrupt that leaves the game in play counts as one. -/
theorem waited_timer {g : Globals} {e : Interrupt} (timer : e.isTimer = true)
    (playing : (handle g e).gameState = .playing) :
    g.gameState = .playing ∧ (handle g e).waited = g.waited + 1 := by
  have running : g.gameState = .playing := by
    rcases handle_timer_edge g timer with stay | ⟨-, ended⟩ | ⟨-, ended | ended⟩
    · exact stay.symm.trans playing
    · exact absurd (playing.symm.trans ended) (by decide)
    · exact absurd (playing.symm.trans ended) (by decide)
    · exact absurd (playing.symm.trans ended) (by decide)
  refine ⟨running, ?_⟩
  have counted := handle_frameCounter g e
  rw [if_pos timer] at counted
  cases e with
  | mouse => cases timer
  | kbc => cases timer
  | timer rtcHours rtcMinutes rand =>
    rw [Globals.waited, Globals.waited, counted]
    rcases parity_succ g.frameCounter with ⟨even, odd⟩ | ⟨odd, even⟩
    · have between : handle g (.timer rtcHours rtcMinutes rand) = g.between := by
        refine if_neg ?_
        rw [frameNumber_eq, odd]
        decide
      rw [between, even, odd]
      rfl
    · have tick : ticks g (.timer rtcHours rtcMinutes rand) = true := by
        rw [ticks, frameNumber_eq, even]
        rfl
      obtain ⟨g₁, h₁, h'⟩ := handle_timer tick
      have same := sameGame_of_core h₁
      have running₁ := same.gameState.trans running
      have history := (gameStep_spawn running₁ rand).1
      have more : lull (life (gameStep rand g₁).calls) = lull (life g.calls) + 1 := by
        rw [history, ← same.calls]
        cases g₁.spawnCell rand <;> rfl
      rw [h', gameIh_playing running₁, more, odd, even]
      rw [UInt32.toNat_one, UInt32.toNat_zero]
      omega

theorem waited_run {g : Globals} {es : List Interrupt} (wait : waits es)
    (playing : (Transition.run handle g es).gameState = .playing) :
    g.gameState = .playing ∧ (Transition.run handle g es).waited = g.waited + es.length := by
  induction es generalizing g with
  | nil => exact ⟨playing, rfl⟩
  | cons e es ih =>
    obtain ⟨timer, rest⟩ := List.forall_mem_cons.1 wait
    obtain ⟨running, waited⟩ := ih rest playing
    obtain ⟨running', waited'⟩ := waited_timer timer running
    refine ⟨running', ?_⟩
    rw [Transition.run_cons, waited, waited', List.length_cons]
    omega

/-- The states that a game in play can come to by waiting. -/
def AfterPlay (st : GameState) : Prop :=
  st = .playing ∨ st = .gameOver ∨ st = .lbInput ∨ st = .leaderboard

theorem afterPlay_run {g : Globals} (start : AfterPlay g.gameState) {es : List Interrupt}
    (wait : waits es) : AfterPlay (Transition.run handle g es).gameState := by
  induction es generalizing g with
  | nil => exact start
  | cons e es ih =>
    obtain ⟨timer, rest⟩ := List.forall_mem_cons.1 wait
    refine ih ?_ rest
    rcases handle_timer_edge g timer with stay | ⟨-, ended⟩ | ⟨-, ended | ended⟩
    · rwa [stay]
    · exact .inr (.inl ended)
    · exact .inr (.inr (.inl ended))
    · exact .inr (.inr (.inr ended))

/-- A player who does nothing for 784 timer interrupts has lost. -/
theorem Reachable.lost {g : Globals} (reachable : Reachable g) {es : List Interrupt} (wait : waits es)
    (long : 784 ≤ es.length) : (Transition.run handle g es).gameState ≠ .playing := by
  intro still
  have awake : (Transition.run handle g es).gameState ≠ .exit := by simp [still]
  have reachable' := reachable.leads (leads_of_run awake)
  have waited := (waited_run wait still).2
  have recent := (reachable'.replayed (.inr (.inl still))).lull_lt reachable' (.inr (.inl still))
  have parity : ((Transition.run handle g es).frameCounter % 2).toNat < 2 := by
    rw [UInt32.toNat_mod]
    exact Nat.mod_lt _ (by decide)
  rw [Globals.waited] at waited
  omega

theorem Reachable.exists_ending {g : Globals} (reachable : Reachable g)
    (ended : g.gameState = .gameOver) : ∃ n ≤ 240, Ending n g := by
  have range := (reachable.bounded.counter ended)
  have positive := UInt32.le_iff_toNat_le.1 range.1
  have small : g.gameOverCounter.toNat ≤ 120 := UInt32.le_iff_toNat_le.1 range.2
  have parity : (g.frameCounter % 2).toNat < 2 := by
    rw [UInt32.toNat_mod]
    exact Nat.mod_lt _ (by decide)
  rw [UInt32.toNat_one] at positive
  exact ⟨2 * g.gameOverCounter.toNat - (g.frameCounter % 2).toNat, by omega, ended, by omega,
    by omega⟩

/-- The result of the game is shown or its name is asked for. -/
def ShowsResult (st : GameState) : Prop := st = .lbInput ∨ st = .leaderboard

theorem showsResult_run {g : Globals} (shown : ShowsResult g.gameState) {es : List Interrupt}
    (wait : waits es) : ShowsResult (Transition.run handle g es).gameState := by
  induction es generalizing g with
  | nil => exact shown
  | cons e es ih =>
    obtain ⟨timer, rest⟩ := List.forall_mem_cons.1 wait
    refine ih ?_ rest
    rcases handle_timer_edge g timer with stay | ⟨running, -⟩ | ⟨ended, -⟩
    · rwa [stay]
    · rcases shown with e | e <;> exact absurd (running.symm.trans e) (by decide)
    · rcases shown with e | e <;> exact absurd (ended.symm.trans e) (by decide)

theorem Ending.showsResult {n : ℕ} {g : Globals} (h : Ending n g) {es : List Interrupt}
    (wait : waits es) (long : n ≤ es.length) :
    ShowsResult (Transition.run handle g es).gameState := by
  induction es generalizing n g with
  | nil => exact absurd h.positive (Nat.not_lt.2 long)
  | cons e es ih =>
    obtain ⟨timer, rest⟩ := List.forall_mem_cons.1 wait
    have edge := handle_timer_edge g timer
    cases e with
    | mouse => cases timer
    | kbc => cases timer
    | timer rtcHours rtcMinutes rand =>
      obtain ⟨m, rfl⟩ : ∃ m, n = m + 1 := ⟨n - 1, by have := h.positive; omega⟩
      rcases Nat.eq_zero_or_pos m with rfl | more
      · have shown := h.last rtcHours rtcMinutes rand
        rw [Transition.run_cons]
        refine showsResult_run ?_ rest
        rw [shown]
        unfold resultState
        split_ifs
        · exact .inl rfl
        · exact .inr rfl
      · refine ih (h.timer more _ _ _ ?_) rest (Nat.le_of_succ_le_succ long)
        rcases edge with e | ⟨-, e⟩ | ⟨-, e | e⟩ <;> rw [e]
        · simp [h.ended]
        all_goals exact nofun

/-- From any state of any game, a player who only waits has lost and sees the result after at most
1024 timer interrupts, whatever `rand()` returns. -/
theorem waiting_loses {g : Globals} (reachable : Reachable g) (playing : g.gameState = .playing)
    {es : List Interrupt} (wait : waits es) (long : 1024 ≤ es.length) :
    (Transition.run handle g es).gameState = .lbInput ∨
      (Transition.run handle g es).gameState = .leaderboard := by
  have first : waits (es.take 784) := fun e he => wait e (List.mem_of_mem_take he)
  have second : waits (es.drop 784) := fun e he => wait e (List.mem_of_mem_drop he)
  have state := afterPlay_run (.inl playing) first
  have lost := reachable.lost first (by rw [List.length_take]; omega)
  have awake : (Transition.run handle g (es.take 784)).gameState ≠ .exit := by
    rcases state with e | e | e | e <;> rw [e] <;> exact nofun
  have reachable' := reachable.leads (leads_of_run awake)
  rw [← List.take_append_drop 784 es, Transition.run_append]
  rcases state with still | ended | shown
  · exact absurd still lost
  · obtain ⟨n, small, ending⟩ := reachable'.exists_ending ended
    exact ending.showsResult second (by rw [List.length_drop]; omega)
  · exact showsResult_run shown second

/-- A player who starts a game and does nothing. -/
theorem waiting_loses_first : ∃ g, Reachable g ∧ g.gameState = .playing ∧
    ((Transition.run handle g (List.replicate 1024 (.timer 0 0 aim))).gameState = .lbInput ∨
      (Transition.run handle g (List.replicate 1024 (.timer 0 0 aim))).gameState = .leaderboard) := by
  obtain ⟨g, leads, target⟩ := exists_target 0
  exact ⟨g, leads.reachable, target.running, waiting_loses leads.reachable target.running
    (waits_replicate 1024 0 0 aim) List.length_replicate.ge⟩

/-! ## Back to the menu -/

/-- While a name is typed in, it is the buffer of the line editor. -/
theorem Reachable.editing {g : Globals} (reachable : Reachable g) (input : g.gameState = .lbInput) :
    ∃ s, Editing g s := by
  refine reachable.induction (P := fun g => g.gameState = .lbInput → ∃ s, Editing g s)
    (fun _ => nofun) ?_ ?_ ?_ ?_ input
  · exact fun g => forall_congr' fun _ => exists_congr fun s =>
      ⟨fun h => { h with }, fun h => { h with }⟩
  · intro arr g h input
    rcases mouseEventHandler_cases (mouseEvent arr) g with e | e | ⟨running, c, -, e⟩ |
      ⟨running, e⟩ | ⟨-, st, hst, e⟩ <;> rw [e] at input ⊢
    · exact (h input).imp fun s editing => { editing with }
    · exact (h input).imp fun s editing => { editing with }
    · exact absurd (running.symm.trans input) (by decide)
    · exact absurd (running.symm.trans input) (by decide)
    · change st = .lbInput at input
      rcases hst with rfl | rfl | rfl <;> cases input
  · intro scanCode g h input
    rcases keyboardEventHandler_edge scanCode g with stay | edge
    · obtain ⟨s, editing⟩ := h (stay.symm.trans input)
      rcases editing.keyboardEventHandler scanCode with ⟨-, e⟩ | ⟨-, -, e⟩ | ⟨-, name, e, next⟩ <;>
        rw [e] at input ⊢
      · cases input
      · cases input
      · exact ⟨_, next⟩
    · rw [input] at edge
      rcases keyboardEventHandler_cases scanCode g with e | e | ⟨-, e⟩ | ⟨-, e⟩ |
        ⟨typing, -⟩ | ⟨-, e⟩ <;> try rw [e] at input
      · rw [input] at edge
        cases edge
      · cases input
      · cases input
      · cases input
      · rw [typing] at edge
        cases edge
      · cases input
  · intro rand g h input
    rcases gameIh_cases rand g with ⟨running, e⟩ | ⟨ended, -, e⟩ | ⟨-, -, e⟩ | ⟨-, -, e⟩ <;>
      rw [e] at input ⊢
    · rcases gameStep_cases running rand with ⟨-, e'⟩ | ⟨c, -, e'⟩ <;>
        rw [e', gameGenerateNewAlien_state] at input
      · exact absurd (running.symm.trans input) (by decide)
      · cases input
    · exact absurd (ended.symm.trans input) (by decide)
    · exact ⟨[], input, rfl, Nat.zero_le _, List.forall_mem_nil _⟩
    · exact h input

/-- The program can get to the menu. -/
def Returns (g : Globals) : Prop := ∃ g', Leads g g' ∧ g'.gameState = .menu

theorem Leads.returns {g g' : Globals} (leads : Leads g g') (h : Returns g') : Returns g := by
  obtain ⟨menu, rest, state⟩ := h
  exact ⟨menu, leads.trans rest, state⟩

theorem returns_of_leaderboard {g : Globals} (shown : g.gameState = .leaderboard) : Returns g := by
  refine ⟨_, .single (by simp [shown]) (.kbc (key enterMake)), ?_⟩
  have shown' : g.singleByte.gameState = .leaderboard := shown
  rw [handle_key _ (by decide) (by decide), keyboardEventHandler, if_neg (by decide), shown']
  rfl

theorem returns_of_editing {g : Globals} {s : List UInt8} (editing : Editing g s) (typed : s ≠ []) :
    (handle g (.kbc (key enterMake))).gameState = .leaderboard := by
  have editing' : Editing g.singleByte s := { editing with }
  rw [handle_key _ (by decide) (by decide)]
  rcases editing'.keyboardEventHandler enterMake with ⟨esc, -⟩ | ⟨-, -, e⟩ | ⟨other, -⟩
  · exact absurd esc (by decide)
  · rw [e]
    rfl
  · exact absurd ⟨rfl, typed⟩ other

/-- A letter can be typed if there is none yet. -/
theorem exists_typed {g : Globals} {s : List UInt8} (editing : Editing g s) :
    ∃ g' s', Leads g g' ∧ Editing g' s' ∧ s' ≠ [] := by
  by_cases typed : s = []
  · subst typed
    have editing' : Editing g.singleByte [] := { editing with }
    refine ⟨_, edit [] 0x1e, .single (by simp [editing.input]) (.kbc (key 0x1e)), ?_, ?_⟩
    · rw [handle_key _ (by decide) (by decide)]
      rcases editing'.keyboardEventHandler 0x1e with ⟨esc, -⟩ | ⟨enter, -⟩ | ⟨-, name, e, next⟩
      · exact absurd esc (by decide)
      · exact absurd enter (by decide)
      · rw [e]
        exact next
    · decide
  · exact ⟨g, s, .refl, editing, typed⟩

theorem returns_of_lbInput {g : Globals} {s : List UInt8} (editing : Editing g s) : Returns g := by
  obtain ⟨g', s', leads, editing', typed⟩ := exists_typed editing
  refine leads.returns (Leads.returns (.single (by simp [editing'.input]) (.kbc (key enterMake))) ?_)
  exact returns_of_leaderboard (returns_of_editing editing' typed)

/-- Timer interrupts alone bring the countdown to its end. -/
theorem Ending.exists_last {n : ℕ} {g : Globals} (h : Ending n g) :
    ∃ g', Leads g g' ∧ Ending 1 g' ∧ SameResult g g' := by
  induction n generalizing g with
  | zero => exact absurd h.positive (by decide)
  | succ n ih =>
    rcases Nat.eq_zero_or_pos n with rfl | more
    · exact ⟨g, .refl, h, rfl, rfl⟩
    · have awake : g.gameState ≠ .exit := by simp [h.ended]
      have stays : (handle g (.timer 0 0 id)).gameState ≠ .exit := by
        rcases handle_timer_edge g (e := .timer 0 0 id) rfl with e | ⟨-, e⟩ | ⟨-, e | e⟩ <;> rw [e]
        · exact awake
        all_goals exact nofun
      obtain ⟨g', leads, last, result⟩ := ih (h.timer more 0 0 id stays)
      have result' := handle_result h.ended (.timer 0 0 id)
      exact ⟨g', (Leads.single awake _).trans leads, last, result.points.trans result'.points,
        result.lb.trans result'.lb⟩

theorem Reachable.returns_of_afterPlay {g : Globals} (reachable : Reachable g)
    (state : AfterPlay g.gameState) (lost : g.gameState ≠ .playing) : Returns g := by
  have lbInput : ∀ {g}, Reachable g → g.gameState = .lbInput → Returns g := by
    intro g reachable input
    obtain ⟨s, editing⟩ := reachable.editing input
    exact returns_of_lbInput editing
  rcases state with playing | ended | input | shown
  · exact absurd playing lost
  · obtain ⟨n, -, ending⟩ := reachable.exists_ending ended
    obtain ⟨g', leads, last, -⟩ := ending.exists_last
    have awake : g'.gameState ≠ .exit := by simp [last.ended]
    have leads' := leads.trans (Leads.single awake (.timer 0 0 id))
    have result := last.last 0 0 id
    refine Leads.returns leads' ?_
    unfold resultState at result
    split_ifs at result
    · exact lbInput (reachable.leads leads') result
    · exact returns_of_leaderboard result
  · exact lbInput reachable input
  · exact returns_of_leaderboard shown

theorem Reachable.returns_of_playing {g : Globals} (reachable : Reachable g)
    (playing : g.gameState = .playing) : Returns g := by
  have wait := waits_replicate 784 0 0 id
  have lost := reachable.lost wait List.length_replicate.ge
  generalize List.replicate 784 (Interrupt.timer 0 0 id) = es at wait lost
  have state := afterPlay_run (.inl playing) wait
  have awake : (Transition.run handle g es).gameState ≠ .exit := by
    rcases state with e | e | e | e <;> rw [e] <;> exact nofun
  have leads := leads_of_run awake
  exact leads.returns ((reachable.leads leads).returns_of_afterPlay state lost)

/-- From every reachable state but `EXIT` the program can get back to the menu. -/
theorem back_to_menu {g : Globals} (reachable : Reachable g) (awake : g.gameState ≠ .exit) :
    ∃ g', Leads g g' ∧ g'.gameState = .menu := by
  cases state : g.gameState with
  | playing => exact reachable.returns_of_playing state
  | pause =>
    have leads := Leads.single awake (.kbc (key pBreak))
    have resumed : (handle g (.kbc (key pBreak))).gameState = .playing := by
      have paused : g.singleByte.gameState = .pause := state
      rw [handle_key _ (by decide) (by decide), keyboardEventHandler, if_neg (by decide), paused]
      rfl
    exact leads.returns ((reachable.leads leads).returns_of_playing resumed)
  | menu => exact ⟨g, .refl, state⟩
  | gameOver => exact reachable.returns_of_afterPlay (.inr (.inl state)) (by simp [state])
  | exit => exact absurd state awake
  | leaderboard => exact returns_of_leaderboard state
  | lbInput => exact reachable.returns_of_afterPlay (.inr (.inr (.inl state))) (by simp [state])

/-- A player who has just died gets back to the menu. -/
theorem back_to_menu_dead : ∃ g g' : Globals, g.gameState = .gameOver ∧ Leads g g' ∧
    g'.gameState = .menu := by
  obtain ⟨g, reachable, ends, inPlay, -⟩ := exists_death 0
  have awake : g.gameState ≠ .exit := by
    rcases inPlay with e | e | e <;> rw [e] <;> exact nofun
  have dead := reachable.leads (Leads.single awake (.timer 0 0 aim))
  obtain ⟨g', leads, menu⟩ := back_to_menu dead (by simp [ends.2])
  exact ⟨_, g', ends.2, leads, menu⟩

/-! ## Every edge is taken -/

/-- Some reachable state is in `s` and moves to `t` at an interrupt. -/
def Moves (s t : GameState) : Prop :=
  ∃ g e, Reachable g ∧ g.gameState = s ∧ (handle g e).gameState = t

/-- Some reachable state is in `s`. -/
def Attained (s : GameState) : Prop := ∃ g, Reachable g ∧ g.gameState = s

theorem Moves.attained {s t : GameState} (moves : Moves s t) (awake : s ≠ .exit) : Attained t := by
  obtain ⟨g, e, reachable, rfl, state⟩ := moves
  exact ⟨_, reachable.leads (Leads.single awake e), state⟩

/-- An interrupt whose reads fail. -/
theorem Attained.idle {s : GameState} (attained : Attained s) : Moves s s := by
  obtain ⟨g, reachable, state⟩ := attained
  have failed : handle g (.kbc fun _ => ⟨1, 0⟩) = g := by
    rw [handle, kbcIh_value, if_neg fun read => read.2.2 (.inl (by decide))]
  exact ⟨g, _, reachable, state, by rw [failed, state]⟩

theorem Attained.key {s t : GameState} (attained : Attained s) (scanCode : UInt8)
    (single : scanCode ≠ kbcScancode2B) (stays : scanCode ≠ escBreak)
    (moves : ∀ g : Globals, g.gameState = s → (keyboardEventHandler scanCode g).gameState = t) :
    Moves s t := by
  obtain ⟨g, reachable, state⟩ := attained
  exact ⟨g, .kbc (LabComputers.key scanCode), reachable, state,
    by rw [handle_key _ single stays, moves g.singleByte state]⟩

theorem Attained.quit {s : GameState} (attained : Attained s) : Moves s .exit := by
  obtain ⟨g, reachable, state⟩ := attained
  refine ⟨g, .kbc (LabComputers.key escBreak), reachable, state, ?_⟩
  rw [(keyDelivers_key escBreak).handle_eq, kbcScancode, if_neg (by decide), keyboardEventHandler,
    if_pos rfl]

theorem attained_menu : Attained .menu := ⟨loopStart .zero, Leads.reachable .refl, rfl⟩

theorem moves_play : Moves .menu .playing := by
  have awake : (loopStart .zero).gameState ≠ .exit := nofun
  have leads : Leads (loopStart .zero)
      ((loopStart .zero).collecting [pressPlay.byte0, pressPlay.byte1]) := by
    have leads₁ := Leads.single awake (.mouse (deliver pressPlay.byte0))
    rw [pressPlay.handle_byte0 rfl] at leads₁
    have leads₂ := leads₁.trans (Leads.single (g := (loopStart .zero).collecting [pressPlay.byte0])
      awake (.mouse (deliver pressPlay.byte1)))
    rwa [pressPlay.handle_byte1] at leads₂
  refine ⟨_, .mouse (deliver pressPlay.byte2), leads.reachable, rfl, ?_⟩
  obtain ⟨x, y⟩ := moved_pointer ⟨0, -80, true, false⟩
    (g := pressPlay.received (loopStart .zero)) ⟨rfl, rfl⟩ ⟨rfl, rfl⟩
    (show Int16.ofNat (800 / 2) + 0 = 400 by decide)
    (show Int16.ofNat (600 / 2) - (-80) = 380 by decide)
  rw [pressPlay.handle_byte2, Packet.handled, mouseEvent_pressPlay, mouseEventHandler_menu
    (g := pressPlay.received (loopStart .zero)) rfl rfl rfl rfl, mouseCheckButtons_play x y]
  rfl

/-- The end of the countdown of a game with any number of hits. -/
theorem exists_result (n : ℕ) :
    ∃ g, Reachable g ∧ Ending 1 g ∧ g.points = UInt32.ofNat n ∧ g.lb = .zero := by
  obtain ⟨g, reachable, ends, inPlay, hit, lb⟩ := exists_death n
  have awake : g.gameState ≠ .exit := by
    rcases inPlay with e | e | e <;> rw [e] <;> exact nofun
  have result := ends.sets.2
  obtain ⟨g', leads, last, result'⟩ := ends.ending.exists_last
  refine ⟨g', (reachable.leads (Leads.single awake _)).leads leads, last, ?_, ?_⟩
  · rw [result'.points, result.points, reachable.recorded.points, hit]
  · rw [result'.lb, result.lb, lb]

theorem moves_result (n : ℕ) :
    Moves .gameOver (resultState (UInt32.ofNat n) .zero) := by
  obtain ⟨g, reachable, last, points, lb⟩ := exists_result n
  refine ⟨g, .timer 0 0 id, reachable, last.ended, ?_⟩
  rw [last.last, points, lb]

theorem moves_qualify : Moves .gameOver .lbInput := moves_result 1

theorem moves_rank : Moves .gameOver .leaderboard := moves_result 0

theorem moves_die : Moves .playing .gameOver := by
  obtain ⟨g, reachable, ends, inPlay, -⟩ := exists_death 0
  exact ⟨g, _, reachable, ends.expired.2.1, ends.2⟩

theorem moves_submit : Moves .lbInput .leaderboard := by
  obtain ⟨g, reachable, input⟩ := moves_qualify.attained (by decide)
  obtain ⟨s, editing⟩ := reachable.editing input
  obtain ⟨g', s', leads, editing', typed⟩ := exists_typed editing
  exact ⟨g', _, reachable.leads leads, editing'.input, returns_of_editing editing' typed⟩

theorem Edge.moves {s t : GameState} (edge : Edge s t) : Moves s t := by
  have playing : Attained .playing := moves_play.attained (by decide)
  have pause : Moves .playing .pause := playing.key pBreak (by decide) (by decide)
    fun g running => by rw [keyboardEventHandler, if_neg (by decide), running]; rfl
  have paused : Attained .pause := pause.attained (by decide)
  have shown : Attained .leaderboard := moves_rank.attained (by decide)
  cases edge with
  | play => exact moves_play
  | pause => exact pause
  | resume =>
    exact paused.key pBreak (by decide) (by decide)
      fun g paused => by rw [keyboardEventHandler, if_neg (by decide), paused]; rfl
  | die => exact moves_die
  | qualify => exact moves_qualify
  | rank => exact moves_rank
  | submit => exact moves_submit
  | restart =>
    exact shown.key enterMake (by decide) (by decide)
      fun g shown => by rw [keyboardEventHandler, if_neg (by decide), shown]; rfl
  | quit awake =>
    refine Attained.quit ?_
    cases s with
    | playing => exact playing
    | pause => exact paused
    | menu => exact attained_menu
    | gameOver => exact moves_die.attained (by decide)
    | exit => exact absurd rfl awake
    | leaderboard => exact shown
    | lbInput => exact moves_qualify.attained (by decide)

theorem attained (s : GameState) : Attained s := by
  cases s with
  | menu => exact attained_menu
  | playing => exact moves_play.attained (by decide)
  | pause => exact Edge.pause.moves.attained (by decide)
  | gameOver => exact moves_die.attained (by decide)
  | lbInput => exact moves_qualify.attained (by decide)
  | leaderboard => exact moves_rank.attained (by decide)
  | exit => exact attained_menu.quit.attained (by decide)

/-- In the reachable states an interrupt keeps `game_state` or moves it along an edge; every state is
attained and every edge is taken. -/
theorem gameState_graph (s t : GameState) :
    (∃ g e, Reachable g ∧ g.gameState = s ∧ (handle g e).gameState = t) ↔ s = t ∨ Edge s t := by
  constructor
  · rintro ⟨g, e, -, rfl, rfl⟩
    exact (handle_edge g e).imp Eq.symm id
  · rintro (rfl | edge)
    · exact (attained s).idle
    · exact edge.moves

end LabComputers

import LabComputers.Proj.ReplayProof

/-!
# Clicks

`mouse_check_kill` maps the pointer back to a cell by a division that truncates, so the first row and
the first column reach one cell further than `vg_draw_aliens` draws them; `hitsExactly_iff` says when
this matters.  `press_acts_once` is the debouncing of the left button over a whole press.
-/

namespace LabComputers

/-! ## The cell under the pointer -/

/-- Position `v` lies in span `k` of the spans of 70 pixels that follow `margin`. -/
def inSpan (margin k : ℕ) (v : ℤ) : Prop := margin + 70 * k ≤ v ∧ v < margin + 70 * (k + 1)

/-- Position `v` lies less than one span before `margin`. -/
def inStrip (margin : ℕ) (v : ℤ) : Prop := margin - 70 < v ∧ v < margin

/-- The division of `mouse_check_kill` finds span `k`. -/
theorem tdiv_eq_iff {margin k : ℕ} {v : ℤ} :
    (v - margin).tdiv 70 = k ↔ inSpan margin k v ∨ (k = 0 ∧ inStrip margin v) := by
  unfold inSpan inStrip
  by_cases sign : (margin : ℤ) ≤ v
  · rw [Int.tdiv_eq_ediv_of_nonneg (by omega)]
    omega
  · obtain ⟨b, hb⟩ : ∃ b, v - margin = -b := ⟨margin - v, by omega⟩
    rw [hb, Int.neg_tdiv, Int.tdiv_eq_ediv_of_nonneg (by omega)]
    omega

/-- The pointer lies in the rectangle that `vg_draw_aliens` reserves for cell `(i, j)`. -/
def Globals.pointsAt (g : Globals) (i : Row) (j : Col) : Prop :=
  inSpan gameHorizontalMargin j g.mouseX.toInt ∧ inSpan gameVerticalMargin i g.mouseY.toInt

/-- The pointer lies outside the rectangle of cell `(i, j)`, in the strip before the first column or
the first row that the division maps to this cell. -/
def Globals.grazes (g : Globals) (i : Row) (j : Col) : Prop :=
  (inSpan gameHorizontalMargin j g.mouseX.toInt ∨
    ((j : ℕ) = 0 ∧ inStrip gameHorizontalMargin g.mouseX.toInt)) ∧
  (inSpan gameVerticalMargin i g.mouseY.toInt ∨
    ((i : ℕ) = 0 ∧ inStrip gameVerticalMargin g.mouseY.toInt)) ∧
  ¬ g.pointsAt i j

theorem struckCell_eq_some_iff {mouseX mouseY : Int16} {m : Row → Col → Alien} {i : Row} {j : Col} :
    struckCell mouseX mouseY m = some (i, j) ↔
      (mouseX.toInt - gameHorizontalMargin).tdiv alienWidth = (j : ℕ) ∧
        (mouseY.toInt - gameVerticalMargin).tdiv alienHeight = (i : ℕ) ∧ (m i j).Live := by
  unfold struckCell
  simp only
  generalize (mouseX.toInt - gameHorizontalMargin).tdiv alienWidth = x
  generalize (mouseY.toInt - gameVerticalMargin).tdiv alienHeight = y
  constructor
  · intro h
    split_ifs at h with outside live
    obtain ⟨rfl, rfl⟩ := Prod.mk.inj (Option.some.inj h)
    rw [Fin.val_ofNat, Fin.val_ofNat, Nat.mod_eq_of_lt (by omega), Nat.mod_eq_of_lt (by omega)]
    exact ⟨by omega, by omega, live⟩
  · rintro ⟨rfl, rfl, live⟩
    have row : Fin.ofNat 7 (i : ℕ) = i := Fin.ext (Nat.mod_eq_of_lt i.isLt)
    have column : Fin.ofNat 11 (j : ℕ) = j := Fin.ext (Nat.mod_eq_of_lt j.isLt)
    have inside : ¬ ((((j : ℕ) : ℤ) ≥ 11 ∨ ((j : ℕ) : ℤ) < 0) ∨
        ((i : ℕ) : ℤ) ≥ 7 ∨ ((i : ℕ) : ℤ) < 0) := by
      omega
    rw [Int.toNat_natCast, Int.toNat_natCast, row, column, if_neg inside, if_pos live]

theorem struckCell_iff {g : Globals} {i : Row} {j : Col} :
    struckCell g.mouseX g.mouseY g.gameMatrix = some (i, j) ↔
      (g.pointsAt i j ∨ g.grazes i j) ∧ (g.gameMatrix i j).Live := by
  rw [struckCell_eq_some_iff, alienWidth, alienHeight, Nat.cast_ofNat, tdiv_eq_iff, tdiv_eq_iff,
    ← and_assoc]
  apply and_congr_left
  intro _
  constructor
  · intro reached
    by_cases pointed : g.pointsAt i j
    · exact Or.inl pointed
    · exact Or.inr ⟨reached.1, reached.2, pointed⟩
  · rintro (⟨column, row⟩ | ⟨column, row, -⟩)
    · exact ⟨Or.inl column, Or.inl row⟩
    · exact ⟨column, row⟩

/-! ## What a click hits -/

/-- `mouse_check_kill` turns the alien of cell `(i, j)` into `DEAD_1` and adds one point. -/
def Kills (g : Globals) (i : Row) (j : Col) : Prop :=
  (g.gameMatrix i j).state ≠ AlienState.dead1 ∧
    ((mouseCheckKill g).gameMatrix i j).state = AlienState.dead1 ∧
    (mouseCheckKill g).points = g.points + 1

/-- `mouse_check_kill` hits the live alien under the pointer and nothing else. -/
structure HitsExactly (g : Globals) : Prop where
  kills : ∀ i j, Kills g i j ↔ (g.gameMatrix i j).Live ∧ g.pointsAt i j
  keeps : ∀ i j, ¬ ((g.gameMatrix i j).Live ∧ g.pointsAt i j) →
    (mouseCheckKill g).gameMatrix i j = g.gameMatrix i j
  outside : (∀ i j, ¬ g.pointsAt i j) → mouseCheckKill g = g.record .mouseCheckKill

theorem Alien.Live.ne_dead1 {a : Alien} (live : a.Live) : a.state ≠ AlienState.dead1 := by
  rcases live with h | h <;> rw [h] <;> decide

theorem mouseCheckKill_none {g : Globals}
    (missed : struckCell g.mouseX g.mouseY g.gameMatrix = none) :
    mouseCheckKill g = g.record .mouseCheckKill := by
  rw [mouseCheckKill_eq, missed]

theorem mouseCheckKill_some {g : Globals} {c : Cell}
    (struck : struckCell g.mouseX g.mouseY g.gameMatrix = some c) :
    mouseCheckKill g = (g.record .mouseCheckKill).hitAt c := by
  rw [mouseCheckKill_eq, struck]

theorem hitAt_gameMatrix_self (g : Globals) (c : Cell) :
    ((g.record .mouseCheckKill).hitAt c).gameMatrix c.1 c.2 = ⟨AlienState.dead1, 2⟩ :=
  if_pos ⟨rfl, rfl⟩

theorem hitAt_gameMatrix_other (g : Globals) {c : Cell} {i : Row} {j : Col} (other : (i, j) ≠ c) :
    ((g.record .mouseCheckKill).hitAt c).gameMatrix i j = g.gameMatrix i j :=
  if_neg fun same => other (Prod.ext same.1 same.2)

/-- The cell that is struck is the one that is killed. -/
theorem kills_iff_struck {g : Globals} {i : Row} {j : Col} :
    Kills g i j ↔ struckCell g.mouseX g.mouseY g.gameMatrix = some (i, j) := by
  constructor
  · rintro ⟨before, after, -⟩
    cases struck : struckCell g.mouseX g.mouseY g.gameMatrix with
    | none =>
      rw [mouseCheckKill_none struck] at after
      exact absurd after before
    | some c =>
      by_contra other
      rw [mouseCheckKill_some struck,
        hitAt_gameMatrix_other g fun same => other (congrArg some same.symm)] at after
      exact absurd after before
  · intro struck
    refine ⟨(struckCell_live struck).ne_dead1, ?_, ?_⟩ <;> rw [mouseCheckKill_some struck]
    · rw [hitAt_gameMatrix_self g (i, j)]
    · rfl

/-- A live alien in a cell that is only grazed is hit all the same. -/
theorem HitsExactly.not_live {g : Globals} (h : HitsExactly g) {i : Row} {j : Col}
    (grazed : g.grazes i j) : ¬ (g.gameMatrix i j).Live := by
  intro live
  have killed := kills_iff_struck.2 (struckCell_iff.2 ⟨Or.inr grazed, live⟩)
  exact grazed.2.2 ((h.kills i j).1 killed).2

/-- A click hits the alien under the pointer and nothing else, if and only if no live alien stands in
a cell of the first row or column that the pointer is less than one cell before. -/
theorem hitsExactly_iff (g : Globals) :
    HitsExactly g ↔ ∀ i j, g.grazes i j → ¬ (g.gameMatrix i j).Live := by
  constructor
  · exact fun h i j grazed => h.not_live grazed
  · intro clear
    have struck : ∀ i j, struckCell g.mouseX g.mouseY g.gameMatrix = some (i, j) ↔
        (g.gameMatrix i j).Live ∧ g.pointsAt i j := by
      intro i j
      rw [struckCell_iff]
      constructor
      · rintro ⟨pointed | grazed, live⟩
        · exact ⟨live, pointed⟩
        · exact absurd live (clear i j grazed)
      · exact fun h => ⟨Or.inl h.2, h.1⟩
    refine ⟨fun i j => kills_iff_struck.trans (struck i j), fun i j missed => ?_, fun outside => ?_⟩
    · rw [← struck] at missed
      cases h : struckCell g.mouseX g.mouseY g.gameMatrix with
      | none =>
        rw [mouseCheckKill_none h]
        rfl
      | some c =>
        rw [mouseCheckKill_some h]
        apply hitAt_gameMatrix_other
        rintro rfl
        exact missed h
    · apply mouseCheckKill_none
      cases h : struckCell g.mouseX g.mouseY g.gameMatrix with
      | none => rfl
      | some c => exact absurd ((struck c.1 c.2).1 h).2 (outside c.1 c.2)

/-- Results of `rand()` that select the cell in row 0 and column 5. -/
def aimAtFirstRow : ℕ → ℕ := fun k => if k % 2 = 0 then 5 else 0

/-- The packet of a movement by 160 upwards. -/
def moveUp : Packet := ⟨0x08, 0x00, 0xA0, sync_idle⟩

theorem mouseEvent_moveUp : mouseEvent moveUp.bytes = ⟨0, 160, false, false⟩ := by decide

/-- A game in which the pointer is at `(400, y)` and an alien appears in row 0 and column 5. -/
structure AlienAbove (g : Globals) (y : Int16) : Prop where
  running : g.gameState = .playing
  alien : g.gameMatrix 0 5 = ⟨AlienState.appearing, 5⟩
  mouseX : g.mouseX = 400
  mouseY : g.mouseY = y
  half : g.crosshairHalfWidth = 32 ∧ g.crosshairHalfHeight = 32
  border : g.crosshairWidthBorder = 768 ∧ g.crosshairHeightBorder = 568
  nbytes : g.nbytes = 0

theorem AlienAbove.moveUp {g : Globals} {y z : Int16} (h : AlienAbove g y)
    (up : clamp 32 568 (y - 160) = z) : ∃ g', Leads g g' ∧ AlienAbove g' z := by
  refine ⟨_, leads_packet (by simp [h.running]) h.nbytes LabComputers.moveUp, ?_⟩
  have still : clamp 32 768 400 = 400 := by
    unfold clamp
    decide
  obtain ⟨mouseX, mouseY⟩ := moved_mouse ⟨0, 160, false, false⟩ h.half h.border
  rw [h.mouseX] at mouseX
  rw [h.mouseY] at mouseY
  rw [Packet.handled, mouseEvent_moveUp, mouseEventHandler_up rfl rfl]
  exact { h with mouseX := mouseX.trans still, mouseY := mouseY.trans up, nbytes := rfl }

theorem exists_alienAbove : ∃ g, Leads (loopStart .zero) g ∧ AlienAbove g 60 := by
  obtain ⟨g₀, leads₀, h₀⟩ := exists_plays_start
  obtain ⟨g₁, leads₁, h₁⟩ := h₀.frames
    (show Play.frames 70 .start = some ⟨⟨AlienState.empty, 0⟩, 70, 70, 5⟩ by decide +kernel)
  obtain ⟨target, vars⟩ := h₁
  have leads₂ := leads_twoTimers (by simp [target.running]) (by simp [target.running]) target.even
    aimAtFirstRow
  have due : ¬ (scanned g₁).randomAlienCounter < (scanned g₁).randomAlienNumber := by
    change ¬ g₁.spawnVars.1 < g₁.spawnVars.2.1
    rw [vars]
    decide
  have vacant : ((scanned g₁).gameMatrix 0 5).state = AlienState.empty := by
    rw [target.scanned.others 0 5 (by decide)]
  have free : freeCell aimAtFirstRow (scanned g₁).gameMatrix alienRandomSpawnAttempts 0 =
      some (0, 5) := if_pos vacant
  rw [target.twoTimers_eq (by decide), gameGenerateNewAlien_due due, free] at leads₂
  have scan := target.scanned
  have h₂ : AlienAbove ((scanned g₁).spawnRound.spawnAt (0, 5)) 380 :=
    ⟨scan.running, rfl, scan.pointer.1, scan.pointer.2, scan.half, scan.border, scan.nbytes⟩
  obtain ⟨g₃, leads₃, h₃⟩ := h₂.moveUp (z := 220) (by unfold clamp; decide)
  obtain ⟨g₄, leads₄, h₄⟩ := h₃.moveUp (z := 60) (by unfold clamp; decide)
  exact ⟨g₄, ((leads₀.trans leads₁).trans leads₂).trans (leads₃.trans leads₄), h₄⟩

/-- A click 35 pixels above the grid hits an alien of the first row. -/
theorem hit_above_grid : ∃ g, Reachable g ∧ g.gameState = .playing ∧ ¬ HitsExactly g := by
  obtain ⟨g, leads, h⟩ := exists_alienAbove
  refine ⟨g, leads.reachable, h.running, fun exactly => ?_⟩
  have grazed : g.grazes 0 5 := by
    unfold Globals.grazes Globals.pointsAt inSpan inStrip
    rw [h.mouseX, h.mouseY]
    decide
  apply exactly.not_live grazed
  rw [h.alien]
  decide

/-! ## One action for each press -/

/-- The number of click actions among some calls: calls of `mouse_check_kill`, and of the pair of
button checks. -/
def clicks (calls : List Call) : ℕ := calls.count .mouseCheckKill + calls.count .mouseCheckPlayButton

/-- The call hits an alien. -/
def Call.isHit : Call → Bool
  | .hit _ _ => true
  | _ => false

/-- The value of `points` after some calls, the latest first, if it was `p` before them. -/
def pointsAfter (p : UInt32) : List Call → UInt32
  | [] => p
  | .gameInitialize :: _ => 0
  | .hit _ _ :: cs => pointsAfter p cs + 1
  | _ :: cs => pointsAfter p cs

theorem pointsAfter_append (p : UInt32) (cs ds : List Call) :
    pointsAfter p (cs ++ ds) = pointsAfter (pointsAfter p ds) cs := by
  induction cs with
  | nil => rfl
  | cons c cs ih => cases c <;> simp only [List.cons_append, pointsAfter, ih]

theorem pointsAfter_of_no_hit (p : UInt32) {cs : List Call} (none : cs.countP Call.isHit = 0) :
    pointsAfter p cs = if .gameInitialize ∈ cs then 0 else p := by
  induction cs with
  | nil => rfl
  | cons c cs ih =>
    rw [List.countP_cons, Nat.add_eq_zero_iff] at none
    cases c
    case gameInitialize => simp only [pointsAfter, List.mem_cons_self, if_true]
    case hit i j => cases none.2
    all_goals
      simp only [pointsAfter, List.mem_cons, reduceCtorEq, false_or]
      exact ih none.1

/-- With at most one hit, `points` grows by at most one, from where it was or from a new game on. -/
theorem pointsAfter_cases (p : UInt32) {cs : List Call} (once : cs.countP Call.isHit ≤ 1) :
    (.gameInitialize ∉ cs → pointsAfter p cs = p ∨ pointsAfter p cs = p + 1) ∧
      (.gameInitialize ∈ cs → pointsAfter p cs = 0 ∨ pointsAfter p cs = 1) := by
  induction cs with
  | nil => exact ⟨fun _ => Or.inl rfl, fun h => absurd h List.not_mem_nil⟩
  | cons c cs ih =>
    rw [List.countP_cons] at once
    cases c
    case gameInitialize => exact ⟨fun h => absurd (List.mem_cons_self) h, fun _ => Or.inl rfl⟩
    case hit i j =>
      have none : cs.countP Call.isHit = 0 := by simpa [Call.isHit] using once
      have before := pointsAfter_of_no_hit p none
      simp only [pointsAfter, before, List.mem_cons, reduceCtorEq, false_or]
      exact ⟨fun h => Or.inr (by rw [if_neg h]), fun h => Or.inr (by rw [if_pos h]; rfl)⟩
    all_goals
      simp only [pointsAfter, List.mem_cons, reduceCtorEq, false_or]
      exact ih (by simpa [Call.isHit] using once)

/-- What the calls `new`, made between the states `g` and `g'`, say about the button and the points. -/
structure Acts (g g' : Globals) (new : List Call) : Prop where
  calls : g'.calls = new ++ g.calls
  raised : (∀ event, .mouseEventHandler event ∈ new → event.lbdown = true) →
    clicks new + g'.buttonWasRaised.toNat ≤ g.buttonWasRaised.toNat
  exits : new.count .mouseCheckExitButton = new.count .mouseCheckPlayButton
  hits : new.countP Call.isHit ≤ new.count .mouseCheckKill
  points : g'.points = pointsAfter g.points new

namespace Acts

variable {g g' g'' : Globals} {new new' : List Call}

/-- Nothing that takes part in a press happens. -/
theorem quiet (calls : g'.calls = g.calls) (raised : g'.buttonWasRaised = g.buttonWasRaised)
    (points : g'.points = g.points) : Acts g g' [] where
  calls := calls
  raised _ := by
    rw [raised]
    exact Nat.le_of_eq (Nat.zero_add _)
  exits := rfl
  hits := Nat.le_refl _
  points := points

theorem trans (h : Acts g g' new) (h' : Acts g' g'' new') : Acts g g'' (new' ++ new) where
  calls := by rw [h'.calls, h.calls, List.append_assoc]
  raised down := by
    have early := h.raised fun event he => down event (List.mem_append_right _ he)
    have late := h'.raised fun event he => down event (List.mem_append_left _ he)
    simp only [clicks, List.count_append] at *
    omega
  exits := by rw [List.count_append, List.count_append, h.exits, h'.exits]
  hits := by
    rw [List.countP_append, List.count_append]
    exact Nat.add_le_add h'.hits h.hits
  points := by rw [pointsAfter_append, ← h.points, h'.points]

/-- A state may be replaced by one with the same game. -/
theorem of_core {g₁ g₁' : Globals} (h : Acts g₁ g₁' new) (before : core g₁ = core g)
    (after : core g' = core g₁') : Acts g g' new := by
  have same := sameGame_of_core before
  have same' := sameGame_of_core after
  have start : Acts g g₁ [] := quiet same.calls same.buttonWasRaised same.points
  have stop : Acts g₁' g' [] := quiet same'.calls same'.buttonWasRaised same'.points
  have whole := (start.trans h).trans stop
  rwa [List.nil_append, List.append_nil] at whole

/-- Calls that do not take part in a press. -/
theorem idle {c : Call} (calls : g'.calls = c :: g.calls)
    (raised : g'.buttonWasRaised = g.buttonWasRaised)
    (points : g'.points = pointsAfter g.points [c]) (plain : clicks [c] = 0)
    (exits : [c].count .mouseCheckExitButton = 0) (hits : [c].countP Call.isHit = 0) :
    Acts g g' [c] where
  calls := calls
  raised _ := by
    rw [plain, Nat.zero_add, raised]
  exits := by
    have : [c].count .mouseCheckPlayButton = 0 := (Nat.add_eq_zero_iff.1 plain).2
    rw [exits, this]
  hits := by
    rw [hits]
    exact Nat.zero_le _
  points := points

end Acts

/-- Only a press of the raised button acts, and it lowers the flag. -/
theorem acts_mouseEventHandler (event : MouseEvent) (g : Globals) :
    ∃ new, Acts g (mouseEventHandler event g) new := by
  have still : Acts g (moved event g) [.mouseEventHandler event] :=
    { calls := rfl
      raised := fun down => by
        have held : (moved event g).buttonWasRaised = g.buttonWasRaised := by
          simp [moved, down event (List.mem_singleton.2 rfl)]
        rw [held]
        exact Nat.le_of_eq (Nat.zero_add _)
      exits := rfl
      hits := Nat.le_refl _
      points := rfl }
  rw [mouseEventHandler_eq]
  split_ifs with overflow press
  · exact ⟨_, Acts.idle rfl rfl rfl rfl rfl rfl⟩
  · have raised : g.buttonWasRaised.toNat = 1 := by rw [press.2, Bool.toNat_true]
    cases g.gameState
    case playing =>
      rcases mouseCheckKill_cases (moved event g) with e | ⟨c, -, e⟩ <;> simp only [e]
      · exact ⟨[.mouseCheckKill, .mouseEventHandler event], rfl, fun _ => raised ▸ Nat.le_refl 1, rfl,
          Nat.zero_le _, rfl⟩
      · exact ⟨[.hit c.1 c.2, .mouseCheckKill, .mouseEventHandler event], rfl,
          fun _ => raised ▸ Nat.le_refl 1, rfl, Nat.le_refl 1, rfl⟩
    case menu =>
      obtain ⟨st, -, e⟩ := mouseCheckButtons_cases (moved event g)
      simp only [e]
      exact ⟨[.mouseCheckExitButton, .mouseCheckPlayButton, .mouseEventHandler event], rfl,
        fun _ => raised ▸ Nat.le_refl 1, rfl, Nat.le_refl 0, rfl⟩
    all_goals exact ⟨_, still⟩
  · exact ⟨_, still⟩

theorem acts_keyboardEventHandler (scanCode : UInt8) (g : Globals) :
    ∃ new, Acts g (keyboardEventHandler scanCode g) new := by
  rcases keyboardEventHandler_cases scanCode g with e | e | ⟨-, e⟩ | ⟨-, e⟩ |
    ⟨-, ⟨c, -, -, e⟩ | e | ⟨-, e⟩⟩ | ⟨-, e⟩ <;> rw [e]
  on_goal 7 => exact ⟨_, Acts.idle rfl rfl rfl rfl rfl rfl⟩
  on_goal 7 => exact ⟨_, Acts.idle rfl rfl rfl rfl rfl rfl⟩
  all_goals exact ⟨_, Acts.quiet rfl rfl rfl⟩

theorem acts_gameIh (rand : ℕ → ℕ) (g : Globals) : ∃ new, Acts g (gameIh rand g) new := by
  have spawn : ∀ g' : Globals, Acts g g' [.gameStep] →
      ∃ new, Acts g (gameGenerateNewAlien rand g') new := by
    intro g' stepped
    obtain ⟨counter, number, increase, e | ⟨c, -, e⟩⟩ := gameGenerateNewAlien_cases rand g' <;> rw [e]
    · exact ⟨_, stepped.trans (Acts.quiet rfl rfl rfl)⟩
    · exact ⟨_, stepped.trans (Acts.idle rfl rfl rfl rfl rfl rfl)⟩
  rcases gameIh_cases rand g with ⟨running, e⟩ | ⟨-, -, e⟩ | ⟨-, -, e⟩ | ⟨-, -, e⟩ <;> rw [e]
  · rcases gameStep_cases running rand with ⟨-, e'⟩ | ⟨c, -, e'⟩ <;> rw [e']
    · exact spawn _ (Acts.idle rfl rfl rfl rfl rfl rfl)
    · exact spawn _ (Acts.idle rfl rfl rfl rfl rfl rfl)
  all_goals exact ⟨_, Acts.quiet rfl rfl rfl⟩

theorem acts_handle (g : Globals) (e : Interrupt) : ∃ new, Acts g (handle g e) new := by
  rcases handle_cases g e with ⟨h', -⟩ | ⟨g₁, arr, h₁, h', -⟩ | ⟨g₁, scanCode, h₁, h', -⟩ |
    ⟨g₁, rand, h₁, h', -⟩
  · exact ⟨[], (Acts.quiet rfl rfl rfl).of_core rfl h'⟩
  · obtain ⟨new, acts⟩ := acts_mouseEventHandler (mouseEvent arr) g₁
    exact ⟨new, acts.of_core h₁ h'⟩
  · obtain ⟨new, acts⟩ := acts_keyboardEventHandler scanCode g₁
    exact ⟨new, acts.of_core h₁ (congrArg core h')⟩
  · obtain ⟨new, acts⟩ := acts_gameIh rand g₁
    exact ⟨new, acts.of_core h₁ (congrArg core h')⟩

theorem acts_run (g : Globals) (es : List Interrupt) :
    ∃ new, Acts g (Transition.run handle g es) new := by
  induction es generalizing g with
  | nil => exact ⟨[], Acts.quiet rfl rfl rfl⟩
  | cons e es ih =>
    obtain ⟨new, acts⟩ := acts_handle g e
    obtain ⟨new', acts'⟩ := ih (handle g e)
    exact ⟨_, acts.trans acts'⟩

/-- The calls recorded while some interrupts are handled, the latest first. -/
def callsDuring (g : Globals) (es : List Interrupt) : List Call :=
  let calls := (Transition.run handle g es).calls
  calls.take (calls.length - g.calls.length)

theorem acts_callsDuring (g : Globals) (es : List Interrupt) :
    Acts g (Transition.run handle g es) (callsDuring g es) := by
  obtain ⟨new, acts⟩ := acts_run g es
  have during : callsDuring g es = new := by
    simp only [callsDuring, acts.calls, List.length_append, Nat.add_sub_cancel, List.take_left']
  rwa [during]

/-- While all packets that are handled have the left button down, whatever interrupts come between
them, `mouse_check_kill` or the pair of button checks is called at most once in total, at most one
alien is hit and `points` grows by at most one. -/
theorem press_acts_once {g : Globals} {es : List Interrupt}
    (held : ∀ event, .mouseEventHandler event ∈ callsDuring g es → event.lbdown = true) :
    clicks (callsDuring g es) ≤ 1 ∧
    (callsDuring g es).count .mouseCheckExitButton =
      (callsDuring g es).count .mouseCheckPlayButton ∧
    (callsDuring g es).countP Call.isHit ≤ 1 ∧
    (.gameInitialize ∉ callsDuring g es →
      (Transition.run handle g es).points = g.points ∨
        (Transition.run handle g es).points = g.points + 1) ∧
    (.gameInitialize ∈ callsDuring g es →
      (Transition.run handle g es).points = 0 ∨ (Transition.run handle g es).points = 1) := by
  have acts := acts_callsDuring g es
  have once : clicks (callsDuring g es) ≤ 1 :=
    calc clicks (callsDuring g es) ≤ g.buttonWasRaised.toNat :=
          Nat.le_of_add_right_le (acts.raised held)
      _ ≤ 1 := Bool.toNat_le _
  have hits : (callsDuring g es).countP Call.isHit ≤ 1 :=
    calc (callsDuring g es).countP Call.isHit ≤ (callsDuring g es).count .mouseCheckKill := acts.hits
      _ ≤ clicks (callsDuring g es) := Nat.le_add_right _ _
      _ ≤ 1 := once
  rw [acts.points]
  exact ⟨once, acts.exits, hits, pointsAfter_cases g.points hits⟩

/-- The button is pressed on Play and held for another packet. -/
theorem callsDuring_play :
    callsDuring (loopStart .zero) (pressPlay.interrupts ++ press.interrupts) =
      [.mouseEventHandler ⟨0, 0, true, false⟩, .mouseCheckExitButton, .mouseCheckPlayButton,
        .mouseEventHandler ⟨0, -80, true, false⟩] := by
  obtain ⟨st, -, buttons⟩ := mouseCheckButtons_cases
    (moved ⟨0, -80, true, false⟩ (pressPlay.received (loopStart .zero)))
  have first : ∃ g', pressPlay.handled (loopStart .zero) = g' ∧ g'.nbytes = 0 ∧
      g'.buttonWasRaised = false ∧ g'.calls = [.mouseCheckExitButton, .mouseCheckPlayButton,
        .mouseEventHandler ⟨0, -80, true, false⟩, .gameInitialize] := by
    refine ⟨_, rfl, rfl, ?_⟩
    rw [Packet.handled, mouseEvent_pressPlay, mouseEventHandler_menu
      (g := pressPlay.received (loopStart .zero)) rfl rfl rfl rfl, buttons]
    exact ⟨rfl, rfl⟩
  obtain ⟨g', first, start, lowered, calls⟩ := first
  have second : (press.handled g').calls = .mouseEventHandler ⟨0, 0, true, false⟩ :: g'.calls := by
    have held : ¬ ((⟨0, 0, true, false⟩ : MouseEvent).lbdown = true ∧
        (press.received g').buttonWasRaised = true) := fun h => by
      have : g'.buttonWasRaised = true := h.2
      rw [lowered] at this
      cases this
    rw [Packet.handled, mouseEvent_press, mouseEventHandler_eq, if_neg Bool.false_ne_true, if_neg held]
    rfl
  rw [callsDuring, Transition.run_append, pressPlay.run_interrupts rfl, first,
    press.run_interrupts start, second, calls]
  rfl

theorem press_acts_once_play :
    clicks (callsDuring (loopStart .zero) (pressPlay.interrupts ++ press.interrupts)) ≤ 1 := by
  refine (press_acts_once ?_).1
  rw [callsDuring_play]
  intro event h
  simp only [List.mem_cons, Call.mouseEventHandler.injEq, reduceCtorEq, false_or, List.not_mem_nil,
    or_false] at h
  rcases h with rfl | rfl <;> rfl

end LabComputers

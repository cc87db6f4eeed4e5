import Mathlib.Tactic.IntervalCases
import LabComputers.Proj.BoundsProof
import LabComputers.Proj.PacketProof
import LabComputers.Proj.SubmissionProof

/-!
# Games of any length

Nothing ends a game in which every alien is hit in time: for every number of hits there is a run of
`game_loop` that reaches it.  The run spawns all aliens in one cell, over which the pointer stays.
`points` is an `unsigned int`, so after `2 ^ 32` hits it has returned to zero.
-/

namespace LabComputers

open CString Lifetime

/-! ## Two timer interrupts -/

/-- Results of `rand()` that select the cell in row 4 and column 5. -/
def aim : ℕ → ℕ := fun k => if k % 2 = 0 then 5 else 4

/-- The state one timer interrupt later, if it is not the one that ticks. -/
def Globals.between (g : Globals) : Globals := { g with frameCounter := g.frameCounter + 1 }

/-- The state two timer interrupts later. -/
def Globals.later (g : Globals) : Globals := { g with frameCounter := g.frameCounter + 1 + 1 }

/-- Two timer interrupts from an even frame counter on. -/
def twoTimers (rand : ℕ → ℕ) (g : Globals) : Globals := gameIh rand g.later

theorem frameNumber_eq : frameNumber = 2 := by decide

theorem later_even {g : Globals} (even : g.frameCounter % 2 = 0) : g.later.frameCounter % 2 = 0 := by
  change (g.frameCounter + 1 + 1) % 2 = 0
  grind

theorem handle_timer_first {g : Globals} (even : g.frameCounter % 2 = 0) (rand : ℕ → ℕ) :
    handle g (.timer 0 0 rand) = g.between := by
  have odd : ¬ ((g.frameCounter + 1) % frameNumber = 0) := by
    rw [frameNumber_eq]
    grind
  exact if_neg odd

theorem handle_timer_second {g : Globals} (outside : g.gameState ≠ .menu)
    (even : g.frameCounter % 2 = 0) (rand : ℕ → ℕ) :
    handle g.between (.timer 0 0 rand) = twoTimers rand g := by
  have even' : (g.frameCounter + 1 + 1) % frameNumber = 0 := by
    rw [frameNumber_eq]
    grind
  have outside' : ¬ g.later.gameState = .menu := outside
  change (if (g.frameCounter + 1 + 1) % frameNumber = 0 then
    gameIh rand (if g.later.gameState = .menu then rtcIh 0 0 g.later else g.later) else _) = _
  rw [if_pos even', if_neg outside']
  rfl

theorem leads_between {g : Globals} (awake : g.gameState ≠ .exit) (even : g.frameCounter % 2 = 0) :
    Leads g g.between := by
  have awake' : exited g = false := by simpa [exited] using awake
  rw [← handle_timer_first even aim]
  exact .single awake' _

theorem leads_twoTimers {g : Globals} (awake : g.gameState ≠ .exit) (outside : g.gameState ≠ .menu)
    (even : g.frameCounter % 2 = 0) (rand : ℕ → ℕ) : Leads g (twoTimers rand g) := by
  have awake' : exited g.between = false := decide_eq_false awake
  rw [← handle_timer_second outside even]
  exact (leads_between awake even).tail _ awake'

/-! ## A game played in one cell -/

/-- A game in play in which `n` aliens were hit, all cells but the one under the pointer are empty and
that one holds `a`. -/
structure Aimed (g : Globals) (n : ℕ) (a : Alien) : Prop where
  running : g.gameState = .playing
  others : ∀ i j, (i, j) ≠ (4, 5) → g.gameMatrix i j = ⟨AlienState.empty, 0⟩
  alien : g.gameMatrix 4 5 = a
  pointer : g.mouseX = 400 ∧ g.mouseY = 380
  half : g.crosshairHalfWidth = 32 ∧ g.crosshairHalfHeight = 32
  border : g.crosshairWidthBorder = 768 ∧ g.crosshairHeightBorder = 568
  nbytes : g.nbytes = 0
  even : g.frameCounter % 2 = 0
  hits : hits g = n
  lb : g.lb = .zero

/-- Such a game in which the button is raised. -/
structure Target (g : Globals) (n : ℕ) (a : Alien) : Prop extends Aimed g n a where
  raised : g.buttonWasRaised = true

theorem freeCell_aim (m : Row → Col → Alien) :
    freeCell aim m alienRandomSpawnAttempts 0 =
      if (m 4 5).state = AlienState.empty then some (4, 5) else none := by
  change (if (m 4 5).state = AlienState.empty then some (4, 5)
    else if (m 4 5).state = AlienState.empty then some (4, 5) else none) = _
  split_ifs <;> rfl

theorem gameGenerateNewAlien_aim {g : Globals}
    (due : ¬ g.randomAlienCounter < g.randomAlienNumber) :
    gameGenerateNewAlien aim g =
      if (g.gameMatrix 4 5).state = AlienState.empty then g.spawnRound.spawnAt (4, 5)
      else g.spawnRound := by
  rw [gameGenerateNewAlien_due due, freeCell_aim]
  split_ifs <;> rfl

/-- The state at the end of a scan that ends no game, before the spawn. -/
def scanned (g : Globals) : Globals := (g.later.record .gameStep).aged

theorem Target.twoTimers_eq {g : Globals} {n : ℕ} {a : Alien} (h : Target g n a)
    (safe : ¬ expired a) (rand : ℕ → ℕ) :
    twoTimers rand g = gameGenerateNewAlien rand (scanned g) := by
  have running : g.later.gameState = .playing := h.running
  have safe' : ∀ i j, ¬ expired (g.gameMatrix i j) := by
    intro i j
    by_cases here : (i, j) = (4, 5)
    · obtain ⟨rfl, rfl⟩ := Prod.mk.inj here
      rwa [h.alien]
    · rw [h.others i j here]
      decide
  rw [twoTimers, gameIh_playing running]
  rcases gameStep_cases running rand with ⟨-, e⟩ | ⟨c, dead, -⟩
  · rw [e, LabComputers.scanned]
  · exact absurd dead (safe' c.1 c.2)

theorem Target.scanned {g : Globals} {n : ℕ} {a : Alien} (h : Target g n a) :
    Target (scanned g) n (ageAlien a) :=
  { h with
    others := fun i j other => by
      change ageAlien (g.gameMatrix i j) = _
      rw [h.others i j other]
      rfl
    alien := congrArg ageAlien h.alien
    even := later_even h.even }

/-- The spawn counter, the spawn interval and its step. -/
def Globals.spawnVars (g : Globals) : UInt32 × UInt32 × UInt32 :=
  (g.randomAlienCounter, g.randomAlienNumber, g.randomAlienSpawnRateIncrease)

/-- One frame while the spawn counter runs. -/
theorem Target.wait {g : Globals} {n : ℕ} {a : Alien} (h : Target g n a) (safe : ¬ expired a)
    (wait : g.randomAlienCounter < g.randomAlienNumber) :
    ∃ g', Leads g g' ∧ Target g' n (ageAlien a) ∧ g'.spawnVars =
      (g.randomAlienCounter + 1, g.randomAlienNumber, g.randomAlienSpawnRateIncrease) := by
  refine ⟨_, leads_twoTimers (by simp [h.running]) (by simp [h.running]) h.even aim, ?_⟩
  rw [h.twoTimers_eq safe, gameGenerateNewAlien_wait (g := LabComputers.scanned g) wait]
  exact ⟨{ h.scanned with }, rfl⟩

theorem Target.spawnRound {g : Globals} {n : ℕ} {a : Alien} (h : Target g n a) :
    Target g.spawnRound n a := { h with }

theorem Target.spawnAt {g : Globals} {n : ℕ} {a : Alien} (h : Target g n a) :
    Target (g.spawnRound.spawnAt (4, 5)) n ⟨AlienState.appearing, 5⟩ := by
  refine { h with others := fun i j other => ?_, alien := rfl }
  exact (if_neg (by simpa using other)).trans (h.others i j other)

/-- One frame at which the spawn is due. -/
theorem Target.due {g : Globals} {n : ℕ} {a : Alien} (h : Target g n a) (safe : ¬ expired a)
    (due : ¬ g.randomAlienCounter < g.randomAlienNumber) :
    ∃ g', Leads g g' ∧ Target g' n
      (if (ageAlien a).state = AlienState.empty then ⟨AlienState.appearing, 5⟩ else ageAlien a) ∧
      g'.spawnVars = g.spawnRound.spawnVars := by
  refine ⟨_, leads_twoTimers (by simp [h.running]) (by simp [h.running]) h.even aim, ?_⟩
  rw [h.twoTimers_eq safe, gameGenerateNewAlien_aim (g := LabComputers.scanned g) due,
    h.scanned.alien]
  split_ifs
  · exact ⟨h.scanned.spawnAt, rfl⟩
  · exact ⟨h.scanned.spawnRound, rfl⟩

/-- One frame: the alien ages, and a new one may appear as soon as the cell is empty. -/
theorem Target.frame {g : Globals} {n : ℕ} {a : Alien} (h : Target g n a) (safe : ¬ expired a) :
    ∃ g', Leads g g' ∧ (Target g' n (ageAlien a) ∨
      ((ageAlien a).state = AlienState.empty ∧ Target g' n ⟨AlienState.appearing, 5⟩)) := by
  by_cases wait : g.randomAlienCounter < g.randomAlienNumber
  · obtain ⟨g', leads, h', -⟩ := h.wait safe wait
    exact ⟨g', leads, Or.inl h'⟩
  · obtain ⟨g', leads, h', -⟩ := h.due safe wait
    refine ⟨g', leads, ?_⟩
    split_ifs at h' with vacant
    · exact Or.inr ⟨vacant, h'⟩
    · exact Or.inl h'

/-- The next spawn comes due. -/
theorem Target.ripens {g : Globals} {n : ℕ} (h : Target g n ⟨AlienState.empty, 0⟩) :
    ∃ g', Leads g g' ∧ Target g' n ⟨AlienState.empty, 0⟩ ∧
      ¬ g'.randomAlienCounter < g'.randomAlienNumber := by
  obtain ⟨k, hk⟩ : ∃ k, k = g.randomAlienNumber.toNat - g.randomAlienCounter.toNat := ⟨_, rfl⟩
  induction k using Nat.strongRecOn generalizing g with
  | _ k ih =>
    by_cases wait : g.randomAlienCounter < g.randomAlienNumber
    · obtain ⟨g', leads, h', vars⟩ := h.wait (by decide) wait
      have counter : g'.randomAlienCounter = g.randomAlienCounter + 1 := congrArg Prod.fst vars
      have number : g'.randomAlienNumber = g.randomAlienNumber := congrArg (·.2.1) vars
      have less : g'.randomAlienNumber.toNat - g'.randomAlienCounter.toNat < k := by
        have less := UInt32.lt_iff_toNat_lt.1 wait
        have range := g.randomAlienNumber.toNat_lt
        rw [number, counter, UInt32.toNat_add, UInt32.toNat_one, Nat.mod_eq_of_lt (by omega)]
        omega
      obtain ⟨g'', leads', h''⟩ := ih _ less h' rfl
      exact ⟨g'', leads.trans leads', h''⟩
    · exact ⟨g, .refl, h, wait⟩

/-- An empty cell is filled in the end. -/
theorem Target.appears {g : Globals} {n : ℕ} (h : Target g n ⟨AlienState.empty, 0⟩) :
    ∃ g', Leads g g' ∧ Target g' n ⟨AlienState.appearing, 5⟩ := by
  obtain ⟨g₁, leads₁, h₁, due⟩ := h.ripens
  obtain ⟨g₂, leads₂, h₂, -⟩ := h₁.due (by decide) due
  exact ⟨g₂, leads₁.trans leads₂, h₂⟩

/-- An alien that was hit and has not vanished. -/
structure Dying (a : Alien) : Prop where
  low : AlienState.dead1 ≤ a.state
  high : a.state ≤ AlienState.dead5
  time : a.time ≤ 2

/-- The frames until a dying alien has vanished. -/
def frames (a : Alien) : ℕ := 3 * (AlienState.empty - a.state) + a.time

theorem Dying.ageAlien {a : Alien} (h : Dying a) :
    (Dying (ageAlien a) ∧ frames (ageAlien a) < frames a) ∨
      ageAlien a = ⟨AlienState.empty, 0⟩ := by
  obtain ⟨state, time⟩ := a
  obtain ⟨low, high, short⟩ := h
  simp only [AlienState.dead1, AlienState.dead5] at low high short
  interval_cases state <;> interval_cases time <;>
    first | exact Or.inr rfl | exact Or.inl ⟨⟨by decide, by decide, by decide⟩, by decide⟩

/-- A dying alien is replaced in the end. -/
theorem Target.revives {g : Globals} {n : ℕ} {a : Alien} (h : Target g n a) (dying : Dying a) :
    ∃ g', Leads g g' ∧ Target g' n ⟨AlienState.appearing, 5⟩ := by
  obtain ⟨k, hk⟩ : ∃ k, k = frames a := ⟨_, rfl⟩
  induction k using Nat.strongRecOn generalizing g a with
  | _ k ih =>
    have safe : ¬ expired a := fun dead => by
      have := dying.low
      rw [dead.1] at this
      exact absurd this (by decide)
    obtain ⟨g', leads, h' | ⟨-, h'⟩⟩ := h.frame safe
    · rcases dying.ageAlien with ⟨dying', less⟩ | gone
      · obtain ⟨g'', leads', h''⟩ := ih _ (hk ▸ less) h' dying' rfl
        exact ⟨g'', leads.trans leads', h''⟩
      · rw [gone] at h'
        obtain ⟨g'', leads', h''⟩ := h'.appears
        exact ⟨g'', leads.trans leads', h''⟩
    · exact ⟨g', leads, h'⟩

/-! ## Clicks -/

/-- The packet of a press of the left button. -/
def press : Packet := ⟨0x09, 0x00, 0x00, by decide⟩

/-- The packet of a release of the left button. -/
def release : Packet := ⟨0x08, 0x00, 0x00, sync_idle⟩

/-- The packet of a press after a movement from the centre of the screen onto the Play button. -/
def pressPlay : Packet := ⟨0x29, 0x00, 0xB0, by decide⟩

theorem mouseEvent_press : mouseEvent press.bytes = ⟨0, 0, true, false⟩ := by decide

theorem mouseEvent_release : mouseEvent release.bytes = ⟨0, 0, false, false⟩ := by decide

theorem mouseEvent_pressPlay : mouseEvent pressPlay.bytes = ⟨0, -80, true, false⟩ := by decide

theorem moved_mouse (event : MouseEvent) {g : Globals} (half : g.crosshairHalfWidth = 32 ∧
    g.crosshairHalfHeight = 32) (border : g.crosshairWidthBorder = 768 ∧
    g.crosshairHeightBorder = 568) :
    (moved event g).mouseX = clamp 32 768 (g.mouseX + event.moveX) ∧
      (moved event g).mouseY = clamp 32 568 (g.mouseY - event.moveY) := by
  constructor
  · rw [← half.1, ← border.1]
    rfl
  · rw [← half.2, ← border.2]
    rfl

theorem moved_pointer (event : MouseEvent) {g : Globals} (half : g.crosshairHalfWidth = 32 ∧
    g.crosshairHalfHeight = 32) (border : g.crosshairWidthBorder = 768 ∧
    g.crosshairHeightBorder = 568) (x : g.mouseX + event.moveX = 400)
    (y : g.mouseY - event.moveY = 380) :
    (moved event g).mouseX = 400 ∧ (moved event g).mouseY = 380 := by
  have inside : clamp 32 768 400 = 400 ∧ clamp 32 568 380 = 380 := by
    unfold clamp
    decide
  obtain ⟨mouseX, mouseY⟩ := moved_mouse event half border
  rw [mouseX, mouseY, x, y]
  exact inside

theorem mouseCheckKill_target {g : Globals} (x : g.mouseX = 400) (y : g.mouseY = 380)
    (live : (g.gameMatrix 4 5).Live) :
    mouseCheckKill g = (g.record .mouseCheckKill).hitAt (4, 5) := by
  have column : (g.mouseX.toInt - gameHorizontalMargin).tdiv alienWidth = 5 := by
    rw [x]
    decide
  have row : (g.mouseY.toInt - gameVerticalMargin).tdiv alienHeight = 4 := by
    rw [y]
    decide
  have struck : struckCell g.mouseX g.mouseY g.gameMatrix = some (4, 5) := by
    unfold struckCell
    simp only [column, row]
    rw [if_neg (by decide)]
    exact if_pos live
  rw [mouseCheckKill_eq, struck]

theorem mouseCheckPlayButton_inside {g : Globals} (x : g.mouseX = 400) (y : g.mouseY = 380) :
    mouseCheckPlayButton g = (g.record .mouseCheckPlayButton).withState .playing := by
  have inside : ¬ outsideButton (g.record .mouseCheckPlayButton)
      playButtonXi playButtonYi playButtonXf playButtonYf := by
    unfold outsideButton Globals.record
    simp only [x, y]
    decide
  rw [mouseCheckPlayButton, if_neg inside]
  rfl

theorem mouseCheckExitButton_outside {g : Globals} (x : g.mouseX = 400) (y : g.mouseY = 380) :
    mouseCheckExitButton g = g.record .mouseCheckExitButton := by
  have outside : outsideButton (g.record .mouseCheckExitButton)
      exitButtonXi exitButtonYi exitButtonXf exitButtonYf := by
    unfold outsideButton Globals.record
    simp only [x, y]
    decide
  rw [mouseCheckExitButton, if_pos outside]

theorem mouseCheckButtons_play {g : Globals} (x : g.mouseX = 400) (y : g.mouseY = 380) :
    mouseCheckExitButton (mouseCheckPlayButton g) = g.pressedIn .playing := by
  rw [mouseCheckPlayButton_inside x y]
  exact mouseCheckExitButton_outside x y

/-- A packet without a movement, before it acts. -/
theorem Aimed.moved {g : Globals} {n : ℕ} {a : Alien} (h : Aimed g n a) (p : Packet) (lbdown : Bool) :
    Aimed { moved ⟨0, 0, lbdown, false⟩ (p.received g) with nbytes := 0 } n a := by
  have x : g.mouseX + 0 = 400 := by
    rw [h.pointer.1]
    decide
  have y : g.mouseY - 0 = 380 := by
    rw [h.pointer.2]
    decide
  have pointer := moved_pointer ⟨0, 0, lbdown, false⟩ (g := p.received g) h.half h.border x y
  refine { h with pointer := pointer, nbytes := rfl, hits := ?_ }
  exact (congrArg deaths (life_mouseEventHandler _ g.calls)).trans h.hits

/-- A packet that hits the alien under the pointer. -/
theorem Aimed.hit {g : Globals} {n : ℕ} {a : Alien} (h : Aimed { g with nbytes := 0 } n a) :
    Aimed { (g.record .mouseCheckKill).hitAt (4, 5) with buttonWasRaised := false, nbytes := 0 } (n + 1)
      ⟨AlienState.dead1, 2⟩ := by
  refine { h with others := fun i j other => ?_, alien := rfl, hits := ?_ }
  · exact (if_neg (by simpa using other)).trans (h.others i j other)
  · have history : life (g.record .mouseCheckKill).calls = life g.calls := life_mouseCheckKill _
    exact (congrArg (fun l => deaths (.died (4, 5) :: l)) history).trans (congrArg (· + 1) h.hits)

theorem spawnVars_hit (g : Globals) (c : Cell) :
    Globals.spawnVars
      { (g.record .mouseCheckKill).hitAt c with buttonWasRaised := false, nbytes := 0 } =
        g.spawnVars := rfl

theorem spawnVars_moved (event : MouseEvent) (p : Packet) (g : Globals) :
    (moved event (p.received g)).spawnVars = g.spawnVars := rfl

/-- Releasing the button. -/
theorem Aimed.release {g : Globals} {n : ℕ} {a : Alien} (h : Aimed g n a) :
    ∃ g', Leads g g' ∧ Target g' n a ∧ g'.spawnVars = g.spawnVars := by
  refine ⟨_, leads_packet (by simp [h.running]) h.nbytes LabComputers.release, ?_⟩
  rw [Packet.handled, mouseEvent_release, mouseEventHandler_up rfl rfl]
  exact ⟨{ h.moved _ false with raised := by simp [LabComputers.moved] }, rfl⟩

/-- Pressing the button hits the alien. -/
theorem Target.press {g : Globals} {n : ℕ} {a : Alien} (h : Target g n a) (live : a.Live) :
    ∃ g', Leads g g' ∧ Aimed g' (n + 1) ⟨AlienState.dead1, 2⟩ ∧ g'.spawnVars = g.spawnVars := by
  refine ⟨_, leads_packet (by simp [h.running]) h.nbytes LabComputers.press, ?_⟩
  have pressed := h.toAimed.moved LabComputers.press true
  have x : (LabComputers.moved ⟨0, 0, true, false⟩ (LabComputers.press.received g)).mouseX = 400 :=
    pressed.pointer.1
  have vars := spawnVars_hit
    (LabComputers.moved ⟨0, 0, true, false⟩ (LabComputers.press.received g)) (4, 5)
  have live' : (g.gameMatrix 4 5).Live := h.alien ▸ live
  rw [Packet.handled, mouseEvent_press, mouseEventHandler_playing
    (g := LabComputers.press.received g) rfl rfl h.raised h.running,
    mouseCheckKill_target x pressed.pointer.2 live']
  exact ⟨pressed.hit, vars.trans (spawnVars_moved _ _ g)⟩

/-- Pressing the Play button starts the game. -/
theorem aimed_loopStart :
    ∃ g, Leads (loopStart .zero) g ∧ Aimed g 0 ⟨AlienState.empty, 0⟩ ∧
      g.spawnVars = (0, alienInitSpawnTime, alienSpawnRateIncrease) := by
  refine ⟨_, leads_packet (g := loopStart .zero) nofun rfl pressPlay, ?_⟩
  obtain ⟨x, y⟩ := moved_pointer ⟨0, -80, true, false⟩
    (g := pressPlay.received (loopStart .zero)) ⟨rfl, rfl⟩ ⟨rfl, rfl⟩
    (show Int16.ofNat (800 / 2) + 0 = 400 by decide)
    (show Int16.ofNat (600 / 2) - (-80) = 380 by decide)
  rw [Packet.handled, mouseEvent_pressPlay, mouseEventHandler_menu
    (g := pressPlay.received (loopStart .zero)) rfl rfl rfl rfl, mouseCheckButtons_play x y]
  refine ⟨?_, rfl⟩
  exact {
    running := rfl
    others := fun _ _ _ => rfl
    alien := rfl
    pointer := ⟨x, y⟩
    half := ⟨rfl, rfl⟩
    border := ⟨rfl, rfl⟩
    nbytes := rfl
    even := rfl
    hits := rfl
    lb := rfl }

/-! ## Any number of hits -/

/-- Every number of hits is reached. -/
theorem exists_target (n : ℕ) :
    ∃ g, Leads (loopStart .zero) g ∧ Target g n ⟨AlienState.appearing, 5⟩ := by
  induction n with
  | zero =>
    obtain ⟨g₁, leads₁, h₁, -⟩ := aimed_loopStart
    obtain ⟨g₂, leads₂, h₂, -⟩ := h₁.release
    obtain ⟨g₃, leads₃, h₃⟩ := h₂.appears
    exact ⟨g₃, (leads₁.trans leads₂).trans leads₃, h₃⟩
  | succ n ih =>
    obtain ⟨g, leads, h⟩ := ih
    obtain ⟨g₁, leads₁, h₁, -⟩ := h.press (Or.inr rfl)
    obtain ⟨g₂, leads₂, h₂, -⟩ := h₁.release
    obtain ⟨g₃, leads₃, h₃⟩ := h₂.revives ⟨by decide, by decide, by decide⟩
    exact ⟨g₃, ((leads.trans leads₁).trans leads₂).trans leads₃, h₃⟩

/-- After `2 ^ 32` hits `points` has wrapped around. -/
theorem points_wrap :
    ∃ g, Reachable g ∧ g.gameState = .playing ∧ spawned g ≠ g.points.toNat + (liveCells g).card := by
  obtain ⟨g, leads, h⟩ := exists_target (2 ^ 32)
  have reachable := leads.reachable
  have balance := (reachable.recorded.tracked (Or.inr (Or.inl h.running))).spawned_eq
  have points := reachable.recorded.toNat_points
  rw [h.hits] at balance points
  refine ⟨g, reachable, h.running, ?_⟩
  omega

/-- A game with one hit satisfies the balance. -/
theorem spawned_eq_hits_add_live_one :
    ∃ g, Reachable g ∧ hits g = 1 ∧ spawned g = hits g + (liveCells g).card := by
  obtain ⟨g, leads, h⟩ := exists_target 1
  exact ⟨g, leads.reachable, h.hits,
    (spawned_eq_hits_add_live leads.reachable (Or.inl h.running)).1⟩

/-! ## The end of a game -/

/-- An alien that is not hit expires. -/
theorem Target.expires {g : Globals} {n k : ℕ} {a : Alien} (h : Target g n a)
    (age : Aged a (some k)) : ∃ g', Leads g g' ∧ Target g' n ⟨AlienState.alive, 0⟩ := by
  obtain ⟨d, hd⟩ : ∃ d, d = 306 - k := ⟨_, rfl⟩
  induction d using Nat.strongRecOn generalizing g a k with
  | _ d ih =>
    by_cases dead : expired a
    · obtain rfl : a = ⟨AlienState.alive, 0⟩ := Alien.ext dead.1 dead.2
      exact ⟨g, .refl, h⟩
    · have older := age.ageAlien dead
      have young : k + 1 ≤ 306 := by
        simp only [Aged, Option.map_some] at older
        omega
      obtain ⟨g', leads, h' | ⟨vacant, -⟩⟩ := h.frame dead
      · obtain ⟨g'', leads', h''⟩ := ih (306 - (k + 1)) (by omega) h' older rfl
        exact ⟨g'', leads.trans leads', h''⟩
      · simp [Aged, vacant] at older

/-- The game is over, with `k` frames to go until the leaderboard is shown. -/
structure Over (g : Globals) (n k : ℕ) : Prop where
  ended : g.gameState = .gameOver
  counter : g.gameOverCounter.toNat = k
  even : g.frameCounter % 2 = 0
  hits : hits g = n
  lb : g.lb = .zero

theorem Target.twoTimers_over {g : Globals} {n : ℕ} (h : Target g n ⟨AlienState.alive, 0⟩) :
    Over (twoTimers aim g) n 120 := by
  have running : g.later.gameState = .playing := h.running
  have even := later_even h.even
  rw [twoTimers, gameIh_playing running]
  rcases gameStep_cases running aim with ⟨safe, -⟩ | ⟨c, -, e⟩
  · have dead : expired (g.gameMatrix 4 5) := by
      rw [h.alien]
      decide
    exact absurd dead (safe 4 5)
  · rw [e]
    obtain ⟨counter, number, increase, e' | ⟨c', -, e'⟩⟩ :=
      gameGenerateNewAlien_cases aim ((g.later.record .gameStep).killedBy c) <;> rw [e']
    · exact ⟨rfl, rfl, even, h.hits, h.lb⟩
    · exact ⟨rfl, rfl, even, h.hits, h.lb⟩

theorem Over.later {g : Globals} {n k : ℕ} (h : Over g n k) : Over g.later n k :=
  { h with even := later_even h.even }

theorem toNat_sub_one {c : UInt32} {k : ℕ} (h : c.toNat = k + 1) : (c - 1).toNat = k := by
  have positive : 1 ≤ c := by
    rw [UInt32.le_iff_toNat_le, UInt32.toNat_one]
    omega
  rw [UInt32.toNat_sub_of_le _ _ positive, UInt32.toNat_one]
  omega

/-- One frame of the countdown before the last one. -/
theorem Over.frame {g : Globals} {n k : ℕ} (h : Over g n (k + 2)) :
    Leads g (twoTimers aim g) ∧ Over (twoTimers aim g) n (k + 1) := by
  refine ⟨leads_twoTimers (by simp [h.ended]) (by simp [h.ended]) h.even aim, ?_⟩
  have less := toNat_sub_one h.later.counter
  rw [twoTimers]
  rcases gameIh_cases aim g.later with ⟨running, -⟩ | ⟨-, -, e⟩ | ⟨-, last, -⟩ | ⟨-, other, -⟩
  · exact absurd (running.symm.trans h.ended) (by decide)
  · rw [e]
    exact { h.later with counter := less }
  · rw [last] at less
    exact absurd less (by simp)
  · exact absurd h.ended other

/-- The countdown passes through every number of frames to go. -/
theorem Over.frames {g : Globals} {n k m : ℕ} (h : Over g n (m + k + 1)) :
    ∃ g', Leads g g' ∧ Over g' n (k + 1) := by
  induction m generalizing g with
  | zero => exact ⟨g, .refl, by rwa [Nat.zero_add] at h⟩
  | succ m ih =>
    have h' : Over g n (m + k + 2) := by rwa [Nat.add_right_comm m 1 k] at h
    obtain ⟨leads, next⟩ := h'.frame
    obtain ⟨g', leads', last⟩ := ih next
    exact ⟨g', leads.trans leads', last⟩

/-- The countdown after the death of the player ends with the leaderboard. -/
theorem Over.counts {g : Globals} {n k : ℕ} (h : Over g n (k + 1)) :
    ∃ g₀, Over g₀ n 1 ∧ Leads g (gameLeaderboard g₀.countedDown) := by
  obtain ⟨g', leads', h'⟩ := h.frames (k := 0)
  have leads := leads_twoTimers (by simp [h'.ended]) (by simp [h'.ended]) h'.even aim
  refine ⟨g'.later, h'.later, leads'.trans ?_⟩
  rw [twoTimers] at leads
  rcases gameIh_cases aim g'.later with ⟨running, -⟩ | ⟨-, more, -⟩ | ⟨-, -, e⟩ | ⟨-, other, -⟩
  · exact absurd (running.symm.trans h'.ended) (by decide)
  · have last : (g'.later.gameOverCounter - 1).toNat = 0 := toNat_sub_one h'.later.counter
    exact absurd (UInt32.toNat_inj.1 (last.trans UInt32.toNat_zero.symm)) more
  · rwa [e] at leads
  · exact absurd h'.ended other

/-- A run in which the game ends is one of those that `entersGameOver_iff` is about. -/
theorem entersGameOver_iff_once :
    ∃ g e, Reachable g ∧ EntersGameOver g e ∧
      ∃ k, MakesStep g e k ∧ ∃ n c, n + 307 = k ∧ Survivor (life g.calls) n c := by
  obtain ⟨g, leads, h⟩ := exists_target 0
  obtain ⟨g', leads', h'⟩ := h.expires (k := 0) (Or.inl ⟨rfl, rfl⟩)
  have awake : g'.gameState ≠ .exit := by simp [h'.running]
  have reachable : Reachable g'.between :=
    Leads.reachable ((leads.trans leads').trans (leads_between awake h'.even))
  have ends : EntersGameOver g'.between (.timer 0 0 aim) := by
    refine ⟨?_, ?_⟩
    · change g'.gameState ≠ .gameOver
      rw [h'.running]
      decide
    · rw [handle_timer_second (by simp [h'.running]) h'.even]
      exact h'.twoTimers_over.ended
  exact ⟨g'.between, _, reachable, ends, (entersGameOver_iff reachable _).1.1 ends⟩

/-- The ranges while an alien is alive and after it has killed the player. -/
theorem reachable_in_range_killed :
    (∃ g, Reachable g ∧ (g.gameMatrix 4 5).Live ∧ IndicesInRange g) ∧
      ∃ g, Reachable g ∧ g.gameState = .gameOver ∧
        (1 ≤ g.gameOverCounter ∧ g.gameOverCounter ≤ gameOverWait) ∧ IndicesInRange g := by
  obtain ⟨g, leads, h⟩ := exists_target 0
  obtain ⟨g', leads', h'⟩ := h.expires (k := 0) (.inl ⟨rfl, rfl⟩)
  have lost : Reachable (twoTimers aim g') := Leads.reachable <| (leads.trans leads').trans
    (leads_twoTimers (by simp [h'.running]) (by simp [h'.running]) h'.even aim)
  have ended := h'.twoTimers_over.ended
  obtain ⟨-, -, -, -, -, -, alive⟩ := reachable_in_range leads.reachable
  obtain ⟨-, -, -, -, -, counts, killed⟩ := reachable_in_range lost
  refine ⟨⟨g, leads.reachable, ?_, alive⟩, _, lost, ended, (counts ended).1, killed⟩
  rw [h.alien]
  exact .inr rfl

/-! ## The submission of a long game -/

/-- Replies that deliver a scancode. -/
def key (scanCode : UInt8) : ℕ → Port.Reply :=
  fun k => ⟨0, if k = 2 then scanCode.toUInt32 else 0x01⟩

/-- The replies with which a call of `kbc_ih` receives a byte: OBF is set, AUX and the error flags are
clear, and the byte is in the output buffer. -/
structure KeyDelivers (rs : ℕ → Port.Reply) (byte : UInt8) : Prop where
  obf : (rs 0).res = 0 ∧ (rs 0).val.toUInt8 &&& kbcOutBufFull ≠ 0
  aux : (rs 1).res = 0 ∧ (rs 1).val.toUInt8 &&& mouseCheck = 0
  data : (rs 2).res = 0 ∧ (rs 2).val.toUInt8 = byte
  noError : (rs 3).res = 0 ∧ (rs 3).val.toUInt8 &&& kbcStatCheck = 0

theorem keyDelivers_key (scanCode : UInt8) : KeyDelivers (key scanCode) scanCode where
  obf := ⟨rfl, show (0x01 : UInt32).toUInt8 &&& kbcOutBufFull ≠ 0 by decide⟩
  aux := ⟨rfl, show (0x01 : UInt32).toUInt8 &&& mouseCheck = 0 by decide⟩
  data := ⟨rfl, by simp [key]⟩
  noError := ⟨rfl, show (0x01 : UInt32).toUInt8 &&& kbcStatCheck = 0 by decide⟩

theorem KeyDelivers.handle_eq {rs : ℕ → Port.Reply} {byte : UInt8} (delivers : KeyDelivers rs byte)
    (g : Globals) : handle g (.kbc rs) = kbcScancode byte g := by
  have read : outputFull (rs 0) ∧ auxClear (rs 1) ∧ ¬ inError (rs 3) :=
    ⟨Or.inr delivers.obf.2, Or.inr delivers.aux.2,
      fun error => error.elim (· delivers.noError.1) (· delivers.noError.2)⟩
  rw [handle, kbcIh_value, if_pos read, delivers.data.2]

/-- The state in which `keyboard_event_handler` is called. -/
def Globals.singleByte (g : Globals) : Globals := { g with flag2Bytes := false }

theorem handle_key (g : Globals) {scanCode : UInt8} (single : scanCode ≠ kbcScancode2B)
    (stays : scanCode ≠ escBreak) :
    handle g (.kbc (key scanCode)) = keyboardEventHandler scanCode g.singleByte := by
  rw [(keyDelivers_key scanCode).handle_eq g, kbcScancode, if_neg single]
  simp only [if_neg stays]
  cases flag : g.flag2Bytes
  · simp [Globals.singleByte, ← flag]
  · rfl

theorem keyboardEventHandler_A {g : Globals} (input : g.gameState = .lbInput)
    (blank : g.name = zeros 7) :
    keyboardEventHandler 0x1e g = g.withName (strcat (zeros 7) (ascii "A")) := by
  rw [keyboardEventHandler, if_neg (by decide), input]
  simp only [editName]
  rw [if_pos (by rw [blank]; decide), show nameByte 0x1e = some 65 by decide, blank]
  rfl

theorem keyboardEventHandler_enter {g : Globals} (input : g.gameState = .lbInput)
    (typed : g.name = strcat (zeros 7) (ascii "A")) :
    keyboardEventHandler enterMake g = gameSaveAndDisplayLb g := by
  rw [keyboardEventHandler, if_neg (by decide), input]
  simp only [editName]
  rw [if_pos (by rw [typed]; decide), show nameByte enterMake = none by decide]
  simp only
  rw [if_neg (by decide), if_pos trivial, if_pos (by rw [typed]; decide)]

/-- A game with any number of hits comes to its end and calls `game_leaderboard`. -/
theorem exists_gameLeaderboard (n : ℕ) :
    ∃ g, Leads (loopStart .zero) (gameLeaderboard g) ∧ g.points = UInt32.ofNat n ∧ g.lb = .zero ∧
      hits g = n := by
  obtain ⟨g, leads, h⟩ := exists_target n
  obtain ⟨g₁, leads₁, h₁⟩ := h.expires (k := 0) (Or.inl ⟨rfl, rfl⟩)
  have leads₂ := leads_twoTimers (by simp [h₁.running]) (by simp [h₁.running]) h₁.even aim
  obtain ⟨g₀, h₀, leads₃⟩ := h₁.twoTimers_over.counts
  have leads₄ : Leads (loopStart .zero) (gameLeaderboard g₀.countedDown) :=
    ((leads.trans leads₁).trans leads₂).trans leads₃
  have hit : hits (gameLeaderboard g₀.countedDown) = n := h₀.hits
  have points : g₀.points = UInt32.ofNat n := hit ▸ leads₄.reachable.recorded.points
  exact ⟨g₀.countedDown, leads₄, points, h₀.lb, hit⟩

/-- A game whose points qualify for the leaderboard comes to the input of the name. -/
theorem exists_lbInput {n : ℕ} (better : compareScore (toInt (UInt32.ofNat n)) .zero = true) :
    ∃ g, Leads (loopStart .zero) g ∧ g.gameState = .lbInput ∧ g.name = zeros 7 ∧ hits g = n := by
  obtain ⟨g, leads, points, lb, hit⟩ := exists_gameLeaderboard n
  refine ⟨_, leads, ?_, rfl, hit⟩
  change (if compareScore (toInt g.points) g.lb then _ else _) = _
  rw [points, lb, if_pos better]

/-- The name `A` is typed and the score submitted. -/
theorem exists_submission {n : ℕ} (better : compareScore (toInt (UInt32.ofNat n)) .zero = true) :
    ∃ g e name, Leads (loopStart .zero) g ∧ hits g = n ∧
      (handle g e).calls = .addScore (toInt (UInt32.ofNat n)) name g.lb :: g.calls := by
  obtain ⟨g, leads, input, blank, hit⟩ := exists_lbInput better
  have points : g.points = UInt32.ofNat n := hit ▸ leads.reachable.recorded.points
  have awake : exited g = false := by simp [exited, input]
  have typed : handle g (.kbc (key 0x1e)) =
      g.singleByte.withName (strcat (zeros 7) (ascii "A")) := by
    rw [handle_key _ (by decide) (by decide), keyboardEventHandler_A (g := g.singleByte) input blank]
  have leads' : Leads (loopStart .zero) (g.singleByte.withName (strcat (zeros 7) (ascii "A"))) := by
    rw [← typed]
    exact Transition.Reaches.tail _ leads awake
  refine ⟨_, .kbc (key enterMake), strcat (zeros 7) (ascii "A"), leads', hit, ?_⟩
  rw [handle_key _ (by decide) (by decide), keyboardEventHandler_enter (g :=
    (g.singleByte.withName (strcat (zeros 7) (ascii "A"))).singleByte) input rfl, ← points]
  rfl

/-- After `2 ^ 32 + 1` hits the score that is submitted is 1. -/
theorem submitted_score_wraps :
    ∃ g e score name, Reachable g ∧
      (handle g e).calls = .addScore score name g.lb :: g.calls ∧ score ≠ hits g := by
  have wrapped : UInt32.ofNat (2 ^ 32 + 1) = 1 := UInt32.toNat_inj.1 UInt32.toNat_ofNat'
  obtain ⟨g, e, name, leads, hit, calls⟩ := exists_submission (n := 2 ^ 32 + 1)
    (by rw [wrapped]; decide)
  refine ⟨g, e, _, name, leads.reachable, calls, ?_⟩
  rw [hit, wrapped]
  decide

/-- A game with one hit submits the score 1. -/
theorem submitted_once_one :
    ∃ g e, Reachable g ∧ hits g = 1 ∧ Submits g (handle g e) := by
  obtain ⟨g, e, name, leads, hit, calls⟩ := exists_submission (n := 1) (by decide)
  refine ⟨g, e, leads.reachable, hit, (submitted_once leads.reachable e).2.resolve_right fun keeps => ?_⟩
  have more : totalSubmissions (handle g e) = totalSubmissions g + 1 := by
    rw [totalSubmissions, calls, List.countP_cons_of_pos rfl, totalSubmissions]
  have same := keeps.2
  omega

end LabComputers

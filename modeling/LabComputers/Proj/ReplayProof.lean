import LabComputers.Proj.LongGameProof

/-!
# Games followed frame by frame

A game in which every alien is spawned in one cell is determined, frame by frame, by that cell and by
the three spawn variables.  `Play.frames` computes it, and `Plays.frames` turns a computation into a
run of `game_loop`.
-/

namespace LabComputers

/-- What determines a game played in one cell: the cell and the spawn variables. -/
structure Play where
  alien : Alien
  counter : UInt32
  number : UInt32
  increase : UInt32
  deriving DecidableEq

namespace Play

/-- The game when it is started from the menu. -/
def start : Play := ⟨⟨AlienState.empty, 0⟩, 0, alienInitSpawnTime, alienSpawnRateIncrease⟩

/-- One frame: the alien ages, and a spawn that is due succeeds in an empty cell. -/
def frame (p : Play) : Play :=
  let a := ageAlien p.alien
  if p.counter < p.number then ⟨a, p.counter + 1, p.number, p.increase⟩
  else
    let rate := rateGuard p.number p.increase
    ⟨if a.state = AlienState.empty then ⟨AlienState.appearing, 5⟩ else a, 0, rate.1 - rate.2, rate.2⟩

/-- Some frames of a game that does not end in them. -/
def frames : ℕ → Play → Option Play
  | 0, p => some p
  | k + 1, p => if expired p.alien then none else frames k p.frame

/-- The alien is hit. -/
def hit (p : Play) : Play := { p with alien := ⟨AlienState.dead1, 2⟩ }

end Play

/-- A state of the program in the game `p`, after `n` hits and with the button raised. -/
structure Plays (g : Globals) (n : ℕ) (p : Play) : Prop where
  target : Target g n p.alien
  vars : g.spawnVars = (p.counter, p.number, p.increase)

theorem exists_plays_start : ∃ g, Leads (loopStart .zero) g ∧ Plays g 0 .start := by
  obtain ⟨g, leads, h, vars⟩ := aimed_loopStart
  obtain ⟨g', leads', h', vars'⟩ := h.release
  exact ⟨g', leads.trans leads', h', vars'.trans vars⟩

namespace Plays

variable {g : Globals} {n : ℕ} {p : Play}

theorem counter (h : Plays g n p) : g.randomAlienCounter = p.counter := congrArg Prod.fst h.vars

theorem number (h : Plays g n p) : g.randomAlienNumber = p.number := congrArg (·.2.1) h.vars

theorem increase (h : Plays g n p) : g.randomAlienSpawnRateIncrease = p.increase :=
  congrArg (·.2.2) h.vars

theorem frame (h : Plays g n p) (safe : ¬ expired p.alien) :
    ∃ g', Leads g g' ∧ Plays g' n p.frame := by
  unfold Play.frame
  by_cases wait : p.counter < p.number
  · obtain ⟨g', leads, h', vars⟩ := h.target.wait safe (by rwa [h.counter, h.number])
    rw [h.counter, h.number, h.increase] at vars
    rw [if_pos wait]
    exact ⟨g', leads, h', vars⟩
  · obtain ⟨g', leads, h', vars⟩ := h.target.due safe (by rwa [h.counter, h.number])
    rw [if_neg wait]
    refine ⟨g', leads, h', vars.trans ?_⟩
    rw [Globals.spawnRound, h.number, h.increase]
    rfl

/-- A computed game is played by a run of the program. -/
theorem frames (h : Plays g n p) {k : ℕ} {p' : Play} (played : p.frames k = some p') :
    ∃ g', Leads g g' ∧ Plays g' n p' := by
  induction k generalizing g p with
  | zero =>
    obtain rfl := Option.some.inj played
    exact ⟨g, .refl, h⟩
  | succ k ih =>
    rw [Play.frames] at played
    split_ifs at played with safe
    obtain ⟨g₁, leads₁, h₁⟩ := h.frame safe
    obtain ⟨g₂, leads₂, h₂⟩ := ih h₁ played
    exact ⟨g₂, leads₁.trans leads₂, h₂⟩

/-- The alien is hit and the button released. -/
theorem hit (h : Plays g n p) (live : p.alien.Live) :
    ∃ g', Leads g g' ∧ Plays g' (n + 1) p.hit := by
  obtain ⟨g₁, leads₁, h₁, vars₁⟩ := h.target.press live
  obtain ⟨g₂, leads₂, h₂, vars₂⟩ := h₁.release
  exact ⟨g₂, leads₁.trans leads₂, h₂, (vars₂.trans vars₁).trans h.vars⟩

end Plays

/-- The fourth alien appears in frame 254, after three hits, with the next spawn due in 51 frames. -/
theorem exists_fourth_alien :
    ∃ g, Leads (loopStart .zero) g ∧ Plays g 3 ⟨⟨AlienState.appearing, 5⟩, 0, 50, 5⟩ := by
  obtain ⟨g₀, leads₀, h₀⟩ := exists_plays_start
  obtain ⟨g₁, leads₁, h₁⟩ := h₀.frames
    (show Play.frames 71 .start = some ⟨⟨AlienState.appearing, 5⟩, 0, 65, 5⟩ by decide +kernel)
  obtain ⟨g₂, leads₂, h₂⟩ := h₁.hit (Or.inr rfl)
  obtain ⟨g₃, leads₃, h₃⟩ := h₂.frames
    (show Play.frames 66 _ = some ⟨⟨AlienState.appearing, 5⟩, 0, 60, 5⟩ by decide +kernel)
  obtain ⟨g₄, leads₄, h₄⟩ := h₃.hit (Or.inr rfl)
  obtain ⟨g₅, leads₅, h₅⟩ := h₄.frames
    (show Play.frames 61 _ = some ⟨⟨AlienState.appearing, 5⟩, 0, 55, 5⟩ by decide +kernel)
  obtain ⟨g₆, leads₆, h₆⟩ := h₅.hit (Or.inr rfl)
  obtain ⟨g₇, leads₇, h₇⟩ := h₆.frames
    (show Play.frames 56 _ = some ⟨⟨AlienState.appearing, 5⟩, 0, 50, 5⟩ by decide +kernel)
  refine ⟨g₇, ?_, h₇⟩
  exact ((leads₀.trans leads₁).trans (leads₂.trans leads₃)).trans
    ((leads₄.trans leads₅).trans (leads₆.trans leads₇))

end LabComputers

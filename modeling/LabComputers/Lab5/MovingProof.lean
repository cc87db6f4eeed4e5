import LabComputers.Lab5.Moving

/-!
# Where the sprite is in each frame

The interrupts only decide when a frame is drawn: the `k`-th frame shows the position after `k` calls
of `advance`, whatever the messages are (`loop_frames`).  With a positive speed the arrival is tested
by equality, so that the sprite stops at the final point if the speed divides the distance, and
passes it or is held back before it otherwise.  With a negative speed the counter is compared before
it is incremented, and a pixel takes one frame too many.
-/

namespace LabComputers.Lab5

open Port

/-! ## The frames of the loop -/

section Frames

variable (m : VideoMode) (a : Move) (n : ℕ)

/-- A message either draws the present position and moves on, or does neither. -/
theorem receive_cases (s : MoveLoop) (msg : Received) :
    ((a.receive m n s msg).2 = none ∧ (a.receive m n s msg).1.motion = s.motion) ∨
      ((a.receive m n s msg).2 = some (s.motion.x, s.motion.y) ∧
        (a.receive m n s msg).1.motion = a.advance m s.motion) := by
  have handled (keyboard : Option (ℕ → Reply)) : (s.handle keyboard).motion = s.motion := by
    cases keyboard with
    | none => rfl
    | some replies => rfl
  cases msg with
  | failed => exact .inl ⟨rfl, rfl⟩
  | other => exact .inl ⟨rfl, rfl⟩
  | hardware keyboard timer =>
    cases timer with
    | false => exact .inl ⟨rfl, handled keyboard⟩
    | true =>
      rw [Move.receive, if_pos rfl, Move.timer]
      by_cases wait : (s.handle keyboard).counterInterrupts < n
      · rw [if_pos wait]
        exact .inl ⟨rfl, handled keyboard⟩
      · rw [if_neg wait, handled]
        exact .inr ⟨rfl, rfl⟩

theorem loop_cons {s : MoveLoop} (running : s.keyboard.flagESC = true) (msg : Received)
    (msgs : List Received) :
    (a.loop m n s (msg :: msgs)).2 =
      (a.receive m n s msg).2.toList ++ (a.loop m n (a.receive m n s msg).1 msgs).2 := by
  rw [Move.loop, if_pos running]

/-- The `k`-th frame shows the position after `k` movements. -/
theorem loop_frames (s : MoveLoop) (msgs : List Received) {k : ℕ} {p : UInt16 × UInt16}
    (drawn : (a.loop m n s msgs).2[k]? = some p) :
    p = (((a.advance m)^[k] s.motion).x, ((a.advance m)^[k] s.motion).y) := by
  induction msgs generalizing s k with
  | nil => simp [Move.loop] at drawn
  | cons msg msgs ih =>
    by_cases running : s.keyboard.flagESC = true
    · rw [loop_cons m a n running] at drawn
      rcases receive_cases m a n s msg with ⟨none, still⟩ | ⟨frame, moved⟩
      · rw [none] at drawn
        rw [← still]
        exact ih _ drawn
      · rw [frame] at drawn
        cases k with
        | zero => exact (Option.some.inj drawn).symm
        | succ k =>
          rw [Function.iterate_succ_apply, ← moved]
          exact ih _ drawn
    · rw [Move.loop, if_neg running] at drawn
      simp at drawn

/-- Timer interrupts and nothing else. -/
def ticks (count : ℕ) : List Received := List.replicate count (.hardware none true)

/-- Every `n + 1` timer interrupts there is a frame. -/
theorem length_loop_ticks (count : ℕ) {s : MoveLoop} (running : s.keyboard.flagESC = true)
    (counter : s.counterInterrupts ≤ n) :
    (a.loop m n s (ticks count)).2.length = (count + s.counterInterrupts) / (n + 1) := by
  induction count generalizing s with
  | zero =>
    rw [Nat.zero_add, Nat.div_eq_of_lt (by omega)]
    rfl
  | succ count ih =>
    have tick : a.receive m n s (.hardware none true) = a.timer m n s := rfl
    rw [ticks, List.replicate_succ, loop_cons m a n running, tick, Move.timer]
    by_cases wait : s.counterInterrupts < n
    · have rest := ih (s := { s with counterInterrupts := s.counterInterrupts + 1 }) running wait
      rw [if_pos wait]
      exact rest.trans (congrArg (· / (n + 1)) (by simp only; omega))
    · have rest := ih (s := { s with counterInterrupts := 0, motion := a.advance m s.motion }) running
        (Nat.zero_le n)
      have full : count + 1 + s.counterInterrupts = count + (n + 1) := by omega
      rw [if_neg wait, full, Nat.add_div_right _ (Nat.succ_pos n)]
      exact congrArg (· + 1) rest

end Frames

/-! ## The documented positions -/

/-- The pixels the sprite has moved at frame `k`, if it has not arrived. -/
def Move.progress (a : Move) (k : ℕ) : ℕ :=
  if a.speed > 0 then k * a.absSpeed else k / a.absSpeed

/-- The documented position at frame `k` of a vertical or horizontal movement. -/
def Move.documented (a : Move) (k : ℕ) : ℕ × ℕ :=
  if a.xf = a.xi then (a.xi.toNat, min a.yf.toNat (a.yi.toNat + a.progress k))
  else (min a.xf.toNat (a.xi.toNat + a.progress k), a.yi.toNat)

/-- The distance between the end points of a vertical or horizontal movement. -/
def Move.distance (a : Move) : ℕ := (a.xf.toNat - a.xi.toNat) + (a.yf.toNat - a.yi.toNat)

/-- A movement to the right or downwards between two points at which the sprite is on the screen. -/
structure Move.Forward (m : VideoMode) (a : Move) : Prop where
  straight : (a.yf = a.yi ∧ a.xi.toNat < a.xf.toNat) ∨ (a.xf = a.xi ∧ a.yi.toNat < a.yf.toNat)
  start_right : a.xi.toNat + a.width.toNat ≤ m.hRes
  start_bottom : a.yi.toNat + a.height.toNat ≤ m.vRes
  end_right : a.xf.toNat + a.width.toNat ≤ m.hRes
  end_bottom : a.yf.toNat + a.height.toNat ≤ m.vRes
  speed_ne : a.speed ≠ 0
  rate : 1 ≤ a.frRate.toNat ∧ a.frRate.toNat ≤ 60

/-- The position at each frame is the documented one, whatever messages are received. -/
def Move.Follows (m : VideoMode) (a : Move) : Prop :=
  ∀ g msgs r, vgDrawMovingSprite m a g msgs = some r →
    ∀ k p, r.2[k]? = some p → (p.1.toNat, p.2.toNat) = a.documented k

section Trajectory

variable {m : VideoMode} {a : Move}

/-- The frames are the documented ones if and only if the movements are. -/
theorem follows_iff (forward : a.Forward m) :
    a.Follows m ↔ ∀ k, (((a.advance m)^[k] a.start).x.toNat, ((a.advance m)^[k] a.start).y.toNat) =
      a.documented k := by
  have rate : a.frRate ≠ 0 := by
    intro zero
    have positive := forward.rate.1
    rw [zero] at positive
    exact absurd positive (by decide)
  have drawn (g : Lab3.Globals) (msgs : List Received) : vgDrawMovingSprite m a g msgs =
      some (a.loop m (60 / a.frRate.toNat) (a.init g) msgs) := if_neg rate
  constructor
  · intro follows k
    -- enough timer interrupts for `k + 1` frames
    have count := length_loop_ticks m a (60 / a.frRate.toNat)
      ((k + 1) * (60 / a.frRate.toNat + 1)) (s := a.init ⟨0, true, false, []⟩) rfl (Nat.zero_le _)
    have zero : (a.init ⟨0, true, false, []⟩).counterInterrupts = 0 := rfl
    rw [zero, Nat.add_zero] at count
    replace count := count.trans (Nat.mul_div_cancel (k + 1) (Nat.succ_pos _))
    have frame := List.getElem?_eq_getElem (by rw [count]; exact Nat.lt_succ_self k)
    have position := loop_frames m a _ _ _ frame
    have documented := follows _ _ _ (drawn ⟨0, true, false, []⟩ _) k _ frame
    rw [position] at documented
    exact documented
  · intro documented g msgs r equal k p frame
    rw [drawn] at equal
    obtain rfl := Option.some.inj equal
    rw [loop_frames m a _ _ _ frame]
    exact documented k

/-! ## One coordinate -/

theorem ofInt_coordinate (c : UInt16) : UInt16.ofInt c.toNat = c := by
  have small := c.toNat_lt
  rw [UInt16.ofInt, Int.emod_eq_of_lt (Int.natCast_nonneg _) (by omega), Int.toNat_natCast,
    UInt16.ofNat_toNat]

theorem plusSpeed_eq (c : UInt16) (speed : Int16) :
    plusSpeed c speed = c + UInt16.ofInt speed.toInt := by
  rw [plusSpeed, UInt16.ofInt_add, ofInt_coordinate]

/-- The rollback subtracts what was added. -/
theorem minusSpeed_plusSpeed (c : UInt16) (speed : Int16) :
    minusSpeed (plusSpeed c speed) speed = c := by
  rw [minusSpeed, Int.sub_eq_add_neg, UInt16.ofInt_add, UInt16.ofInt_neg, ofInt_coordinate,
    plusSpeed_eq, ← UInt16.sub_eq_add_neg, UInt16.add_sub_cancel]

/-- A speed is subtracted modulo `2 ^ 16`, also where `int16_t` cannot hold its absolute value. -/
theorem ofInt_toInt_ofNat (s : ℕ) : UInt16.ofInt (Int16.ofNat s).toInt = UInt16.ofNat s := by
  have wrapped : (s : ℤ).bmod Int16.size % 2 ^ 16 = ((s % 65536 : ℕ) : ℤ) := by
    rw [show (2 ^ 16 : ℤ) = (Int16.size : ℤ) from rfl, Int.bmod_emod]
    rfl
  rw [UInt16.ofInt, Int16.toInt_ofNat', wrapped, Int.toNat_natCast]
  exact UInt16.toNat_inj.1 (by simp)

theorem plusSpeed_ofNat (c : UInt16) (s : ℕ) :
    plusSpeed c (Int16.ofNat s) = c + UInt16.ofNat s := by
  rw [plusSpeed_eq, ofInt_toInt_ofNat]

theorem minusSpeed_ofNat (c : UInt16) (s : ℕ) :
    minusSpeed c (Int16.ofNat s) = c - UInt16.ofNat s := by
  rw [minusSpeed, Int.sub_eq_add_neg, UInt16.ofInt_add, UInt16.ofInt_neg, ofInt_coordinate,
    ofInt_toInt_ofNat, ← UInt16.sub_eq_add_neg]

/-! ## The line of movement -/

/-- The horizontal part of the direction. -/
def Move.dx (a : Move) : ℕ := if a.xf = a.xi then 0 else 1

/-- The vertical part of the direction. -/
def Move.dy (a : Move) : ℕ := if a.xf = a.xi then 1 else 0

/-- The motion `t` pixels from the initial point. -/
def Move.moved (a : Move) (t : ℕ) : Motion :=
  ⟨a.xi + UInt16.ofNat (a.dx * t), a.yi + UInt16.ofNat (a.dy * t), Int16.ofNat (a.dx * a.absSpeed),
    Int16.ofNat (a.dy * a.absSpeed), 0⟩

/-- The direction has one part, and leads from the initial to the final point. -/
structure Move.Line (a : Move) : Prop where
  one : a.dx + a.dy = 1
  final_x : a.xf.toNat = a.xi.toNat + a.dx * a.distance
  final_y : a.yf.toNat = a.yi.toNat + a.dy * a.distance
  pos : 0 < a.distance

theorem Move.Forward.line (forward : a.Forward m) : a.Line := by
  rcases forward.straight with ⟨row, less⟩ | ⟨column, less⟩
  · have other : a.xf ≠ a.xi := by
      intro same
      rw [same] at less
      exact absurd less (lt_irrefl _)
    have dx : a.dx = 1 := if_neg other
    have dy : a.dy = 0 := if_neg other
    have distance : a.distance = a.xf.toNat - a.xi.toNat := by
      rw [Move.distance, row, Nat.sub_self, Nat.add_zero]
    refine ⟨by rw [dx, dy], ?_, ?_, by omega⟩
    · rw [dx, distance]
      omega
    · rw [dy, row]
      omega
  · have dx : a.dx = 0 := if_pos column
    have dy : a.dy = 1 := if_pos column
    have distance : a.distance = a.yf.toNat - a.yi.toNat := by
      rw [Move.distance, column, Nat.sub_self, Nat.zero_add]
    refine ⟨by rw [dx, dy], ?_, ?_, by omega⟩
    · rw [dx, column]
      omega
    · rw [dy, distance]
      omega

theorem Move.start_eq : a.start = a.moved 0 := by
  have zero : UInt16.ofNat 0 = 0 := rfl
  rw [Move.start, Move.moved, Nat.mul_zero, Nat.mul_zero, zero, UInt16.add_zero, UInt16.add_zero,
    Move.dx, Move.dy]
  split_ifs
  · rw [Nat.zero_mul, Nat.one_mul]
    rfl
  · rw [Nat.zero_mul, Nat.one_mul]
    rfl

theorem Move.documented_eq (forward : a.Forward m) (k : ℕ) :
    a.documented k = (a.xi.toNat + a.dx * min a.distance (a.progress k),
      a.yi.toNat + a.dy * min a.distance (a.progress k)) := by
  have line := forward.line
  have x := line.final_x
  have y := line.final_y
  rw [Move.documented]
  by_cases column : a.xf = a.xi
  · have dx : a.dx = 0 := if_pos column
    have dy : a.dy = 1 := if_pos column
    rw [if_pos column, dx, dy, Prod.mk.injEq]
    rw [dy] at y
    omega
  · have dx : a.dx = 1 := if_neg column
    have dy : a.dy = 0 := if_neg column
    rw [if_neg column, dx, dy, Prod.mk.injEq]
    rw [dx] at x
    omega

section Moved

variable (forward : a.Forward m) {t : ℕ} (before : t ≤ a.distance)
include forward before

theorem moved_toNat : (a.moved t).x.toNat = a.xi.toNat + a.dx * t ∧
    (a.moved t).y.toNat = a.yi.toNat + a.dy * t := by
  have line := forward.line
  have x := line.final_x
  have y := line.final_y
  have limitX := a.xf.toNat_lt
  have limitY := a.yf.toNat_lt
  have shorterX : a.dx * t ≤ a.dx * a.distance := Nat.mul_le_mul_left _ before
  have shorterY : a.dy * t ≤ a.dy * a.distance := Nat.mul_le_mul_left _ before
  have add {c : UInt16} {d : ℕ} (bound : c.toNat + d < 2 ^ 16) :
      (c + UInt16.ofNat d).toNat = c.toNat + d := by
    rw [UInt16.toNat_add, UInt16.toNat_ofNat_of_lt' (show d < 65536 by omega),
      Nat.mod_eq_of_lt bound]
  exact ⟨add (by omega), add (by omega)⟩

/-- The sprite is on the screen along its way. -/
theorem moved_on_screen : (a.moved t).x.toNat + a.width.toNat ≤ m.hRes ∧
    (a.moved t).y.toNat + a.height.toNat ≤ m.vRes := by
  have line := forward.line
  have right := forward.end_right
  have bottom := forward.end_bottom
  have x := line.final_x
  have y := line.final_y
  have shorterX : a.dx * t ≤ a.dx * a.distance := Nat.mul_le_mul_left _ before
  have shorterY : a.dy * t ≤ a.dy * a.distance := Nat.mul_le_mul_left _ before
  obtain ⟨atX, atY⟩ := moved_toNat forward before
  omega

theorem moved_final_iff : ((a.moved t).x = a.xf ∧ (a.moved t).y = a.yf) ↔ t = a.distance := by
  have line := forward.line
  obtain ⟨atX, atY⟩ := moved_toNat forward before
  rw [← UInt16.toNat_inj, ← UInt16.toNat_inj, atX, atY, line.final_x, line.final_y]
  constructor
  · rintro ⟨x, y⟩
    have sum : (a.dx + a.dy) * t = (a.dx + a.dy) * a.distance := by
      rw [Nat.add_mul, Nat.add_mul]
      omega
    rwa [line.one, Nat.one_mul, Nat.one_mul] at sum
  · rintro rfl
    exact ⟨rfl, rfl⟩

end Moved

/-- At the final point the sprite stays. -/
theorem advance_final (forward : a.Forward m) :
    a.advance m (a.moved a.distance) = a.moved a.distance := by
  rw [Move.advance, if_pos ((moved_final_iff forward le_rfl).2 rfl)]

/-! ## Positive speeds -/

section Positive

variable (forward : a.Forward m) (positive : a.speed > 0)
include forward positive

omit forward in
theorem absSpeed_pos : 0 < a.absSpeed ∧ a.absSpeed < 2 ^ 15 := by
  have lower := Int16.lt_iff_toInt_lt.1 positive
  have upper := a.speed.toInt_lt
  rw [Int16.toInt_zero] at lower
  rw [Move.absSpeed]
  omega

omit forward in
theorem displace_moved (t : ℕ) :
    a.displace (a.moved t) = a.moved (t + a.absSpeed) := by
  have x := plusSpeed_ofNat (a.xi + UInt16.ofNat (a.dx * t)) (a.dx * a.absSpeed)
  have y := plusSpeed_ofNat (a.yi + UInt16.ofNat (a.dy * t)) (a.dy * a.absSpeed)
  rw [Move.displace, if_pos positive, Move.moved, x, y, Move.moved, UInt16.add_assoc,
    UInt16.add_assoc, ← UInt16.ofNat_add, ← UInt16.ofNat_add, Nat.mul_add, Nat.mul_add]

/-- The sprite moves by the speed as long as that does not take it past the final point. -/
theorem advance_moved {t : ℕ} (room : t + a.absSpeed ≤ a.distance) :
    a.advance m (a.moved t) = a.moved (t + a.absSpeed) := by
  have speed := absSpeed_pos positive
  obtain ⟨right, bottom⟩ := moved_on_screen forward room
  have away : ¬ ((a.moved t).x = a.xf ∧ (a.moved t).y = a.yf) := by
    rw [moved_final_iff forward (by omega)]
    omega
  rw [Move.advance, if_neg away, displace_moved positive, Move.rollback, if_neg (by omega)]

/-- A step past the final point does not end there, whether it is rolled back or not. -/
theorem advance_misses {t : ℕ} (before : t < a.distance) (past : a.distance < t + a.absSpeed) :
    ((a.advance m (a.moved t)).x.toNat, (a.advance m (a.moved t)).y.toNat) ≠
      (a.xf.toNat, a.yf.toNat) := by
  have line := forward.line
  have speed := absSpeed_pos positive
  have away : ¬ ((a.moved t).x = a.xf ∧ (a.moved t).y = a.yf) := by
    rw [moved_final_iff forward before.le]
    omega
  intro arrived
  rw [Prod.mk.injEq, UInt16.toNat_inj, UInt16.toNat_inj] at arrived
  rw [Move.advance, if_neg away, Move.rollback] at arrived
  by_cases edge : (a.displace (a.moved t)).x.toNat + a.width.toNat > m.hRes ∨
      (a.displace (a.moved t)).y.toNat + a.height.toNat > m.vRes
  · -- the step is taken back
    rw [if_pos edge, Move.displace, if_pos positive] at arrived
    simp only [minusSpeed_plusSpeed] at arrived
    exact away arrived
  · -- the coordinate that moves is not the final one, even if it wraps
    rw [if_neg edge, displace_moved positive, ← UInt16.toNat_inj, ← UInt16.toNat_inj,
      line.final_x, line.final_y, Move.moved, UInt16.toNat_add, UInt16.toNat_add,
      UInt16.toNat_ofNat', UInt16.toNat_ofNat'] at arrived
    have limitX := a.xf.toNat_lt
    have limitY := a.yf.toNat_lt
    rw [line.final_x] at limitX
    rw [line.final_y] at limitY
    have direction : a.dx = 1 ∧ a.dy = 0 ∨ a.dx = 0 ∧ a.dy = 1 := by
      have one := line.one
      omega
    rcases direction with ⟨dx, dy⟩ | ⟨dx, dy⟩
    · rw [dx] at arrived limitX
      omega
    · rw [dy] at arrived limitY
      omega

/-- Before the final point the sprite moves by the speed in each frame. -/
theorem iterate_before {k : ℕ} (before : k * a.absSpeed ≤ a.distance) :
    (a.advance m)^[k] (a.moved 0) = a.moved (k * a.absSpeed) := by
  induction k with
  | zero => rw [Nat.zero_mul, Function.iterate_zero_apply]
  | succ k ih =>
    rw [Nat.add_mul, Nat.one_mul] at before ⊢
    rw [Function.iterate_succ_apply', ih (by omega), advance_moved forward positive before]

/-- If the speed divides the distance, the sprite stops at the final point. -/
theorem iterate_moved (divides : a.absSpeed ∣ a.distance) (k : ℕ) :
    (a.advance m)^[k] (a.moved 0) = a.moved (min a.distance (k * a.absSpeed)) := by
  by_cases before : k * a.absSpeed ≤ a.distance
  · rw [Nat.min_eq_right before, iterate_before forward positive before]
  · obtain ⟨q, hq⟩ := divides
    rw [Nat.mul_comm] at hq
    have arrival : (a.advance m)^[q] (a.moved 0) = a.moved a.distance := by
      rw [iterate_before forward positive hq.ge, hq]
    have later : q ≤ k := by
      by_contra earlier
      exact before (hq ▸ Nat.mul_le_mul_right _ (by omega))
    rw [Nat.min_eq_left (by omega), ← Nat.sub_add_cancel later, Function.iterate_add_apply, arrival]
    exact Function.iterate_fixed (advance_final forward) _

end Positive

/-! ## Negative speeds -/

section Negative

variable (forward : a.Forward m) (negative : ¬ a.speed > 0)
include forward negative

/-- The counter is incremented in `abs(speed)` frames before the sprite moves in the next one. -/
theorem iterate_waits {k : ℕ} (waiting : k ≤ a.absSpeed) :
    (a.advance m)^[k] (a.moved 0) = { a.moved 0 with negSpeedFrameCounter := k } := by
  induction k with
  | zero => rfl
  | succ k ih =>
    have away : ¬ ((a.moved 0).x = a.xf ∧ (a.moved 0).y = a.yf) := by
      rw [moved_final_iff forward (Nat.zero_le _)]
      exact forward.line.pos.ne
    obtain ⟨right, bottom⟩ := moved_on_screen forward (Nat.zero_le a.distance)
    have still : ¬ (k = a.absSpeed) := by omega
    rw [Function.iterate_succ_apply', ih (by omega), Move.advance, if_neg away, Move.displace,
      if_neg negative, if_neg still, Move.rollback, if_neg (by simp only; omega)]

/-- After `abs(speed)` frames the sprite should have moved by a pixel. -/
theorem not_documented_of_negative :
    ∃ k, (((a.advance m)^[k] (a.moved 0)).x.toNat, ((a.advance m)^[k] (a.moved 0)).y.toNat) ≠
      a.documented k := by
  have line := forward.line
  have speed : 0 < a.absSpeed := by
    rw [Move.absSpeed, Int.natAbs_pos]
    intro zero
    exact forward.speed_ne (Int16.toInt.inj (zero.trans Int16.toInt_zero.symm))
  obtain ⟨atX, atY⟩ := moved_toNat forward (Nat.zero_le a.distance)
  refine ⟨a.absSpeed, ?_⟩
  have progress : a.progress a.absSpeed = 1 := by
    rw [Move.progress, if_neg negative, Nat.div_self speed]
  rw [Move.documented_eq forward, progress, iterate_waits forward negative le_rfl]
  intro same
  rw [Prod.mk.injEq] at same
  simp only [atX, atY, Nat.mul_zero, Nat.min_eq_right line.pos] at same
  have one := line.one
  omega

end Negative

/-- `vg_draw_moving_sprite` follows the documented movement if and only if the speed is positive and
divides the distance. -/
theorem move_follows_iff (forward : a.Forward m) :
    a.Follows m ↔ a.speed > 0 ∧ a.absSpeed ∣ a.distance := by
  have line := forward.line
  rw [follows_iff forward, Move.start_eq]
  by_cases positive : a.speed > 0
  · have progress (k : ℕ) : a.progress k = k * a.absSpeed := if_pos positive
    rw [and_iff_right positive]
    constructor
    · intro documented
      by_contra odd
      -- the first frame at which the sprite should have arrived
      have speed := absSpeed_pos positive
      have split := Nat.div_add_mod' a.distance a.absSpeed
      have rest : 0 < a.distance % a.absSpeed :=
        Nat.pos_of_ne_zero fun zero => odd (Nat.dvd_of_mod_eq_zero zero)
      have short := Nat.mod_lt a.distance speed.1
      have miss := advance_misses forward positive (t := a.distance / a.absSpeed * a.absSpeed)
        (by omega) (by omega)
      have frame := documented (a.distance / a.absSpeed + 1)
      rw [Function.iterate_succ_apply', iterate_before forward positive (by omega),
        Move.documented_eq forward, progress, Nat.add_mul, Nat.one_mul, Nat.min_eq_left (by omega),
        ← line.final_x, ← line.final_y] at frame
      exact miss frame
    · intro divides k
      obtain ⟨atX, atY⟩ := moved_toNat forward (Nat.min_le_left a.distance (k * a.absSpeed))
      rw [iterate_moved forward positive divides, Move.documented_eq forward, progress, atX, atY]
  · apply iff_of_false
    · intro documented
      obtain ⟨k, wrong⟩ := not_documented_of_negative forward positive
      exact wrong (documented k)
    · exact fun both => positive both.1

end Trajectory

/-- Mode 0x105, the mode of `video_test_move`. -/
def moveMode : VideoMode := ⟨1024, 768, 1, by decide, by decide⟩

/-- A sprite of 64 × 64 pixels that moves from the corner of the screen to the right. -/
def toRight (xf : UInt16) (speed : Int16) : Move := ⟨64, 64, 0, 0, xf, 0, speed, 30⟩

theorem toRight_hundred_follows : (toRight 100 5).Follows moveMode :=
  (move_follows_iff
    ⟨by decide, by decide, by decide, by decide, by decide, by decide, by decide⟩).2
    ⟨by decide, by decide⟩

/-- In steps of three pixels the sprite jumps from pixel 9 over pixel 10; with one frame for each
pixel it starts a frame too late. -/
theorem toRight_ten_not_follows :
    (toRight 10 3).Forward moveMode ∧ ¬ (toRight 10 3).Follows moveMode ∧
      (toRight 10 (-1)).Forward moveMode ∧ ¬ (toRight 10 (-1)).Follows moveMode := by
  have three : (toRight 10 3).Forward moveMode :=
    ⟨by decide, by decide, by decide, by decide, by decide, by decide, by decide⟩
  have slow : (toRight 10 (-1)).Forward moveMode :=
    ⟨by decide, by decide, by decide, by decide, by decide, by decide, by decide⟩
  refine ⟨three, ?_, slow, ?_⟩
  · rw [follows_iff three, Move.start_eq]
    intro documented
    have passed : (((toRight 10 3).advance moveMode)^[4] ((toRight 10 3).moved 0)).x.toNat = 12 := by
      decide
    exact absurd (passed.symm.trans (congrArg Prod.fst (documented 4))) (by decide)
  · rw [follows_iff slow, Move.start_eq]
    intro documented
    obtain ⟨k, wrong⟩ := not_documented_of_negative slow (by decide)
    exact wrong (documented k)

end LabComputers.Lab5

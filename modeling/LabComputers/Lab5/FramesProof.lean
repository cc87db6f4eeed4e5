import LabComputers.Lab3.TestsProof
import LabComputers.Lab5.MovingProof
import LabComputers.Lab5.ShownProof

/-!
# The frames of `vg_draw_moving_sprite`

A frame is drawn at every `60 / fr_rate + 1`-st timer interrupt up to the release of Escape
(`length_loop`).  A sprite that starts outside the screen may still come to be seen: the rollback of a
step that was not made takes it back by one, and the unsigned coordinates wrap around
(`appears_iff`).
-/

namespace LabComputers.Lab5

open Port

/-! ## The number of frames -/

/-- The replies with which `kbc_ih` receives the release of Escape. -/
def Releases (replies : ℕ → Reply) : Prop :=
  Lab3.OutputFull (replies 0) ∧ (replies 1).val.toUInt8 = Lab3.escBreak ∧ Lab3.Correct (replies 2)

instance : DecidablePred Releases := fun _ => inferInstanceAs (Decidable (_ ∧ _))

namespace Received

/-- The message of a keyboard interrupt in which Escape is released. -/
def releases : Received → Bool
  | .hardware (some replies) _ => decide (Releases replies)
  | _ => false

/-- The message of a timer interrupt. -/
def isTick : Received → Bool
  | .hardware _ timer => timer
  | _ => false

end Received

/-- The messages up to the release of Escape, that one included. -/
def untilEscape : List Received → List Received
  | [] => []
  | msg :: msgs => if msg.releases then [msg] else msg :: untilEscape msgs

theorem kbcIh_flagESC (g : Lab3.Globals) (replies : ℕ → Reply) :
    ((kbcIh g).value replies).flagESC = (g.flagESC && !decide (Releases replies)) := by
  simp only [kbcIh, Lab3.kbcOutputBufFull_eq, Lab3.kbcCommunicationError_eq,
    Lab3.kbcReadOutputBuffer_eq, Prog.io_bind, Prog.ret_bind, Prog.pure_eq_ret, Prog.value,
    Prog.exec_io]
  by_cases full : Lab3.OutputFull (replies 0)
  · by_cases correct : Lab3.Correct (replies 2)
    · by_cases esc : (replies 1).val.toUInt8 = Lab3.escBreak
      · have two : (Lab3.escBreak : UInt8) ≠ Lab3.kbcScancode2B := by decide
        simp [full, correct, esc, Releases, kbcScancode, two]
      · have keeps : ∀ g, (kbcScancode (replies 1).val.toUInt8 g).flagESC = g.flagESC := by
          intro g
          rw [kbcScancode, if_neg esc]
          split_ifs <;> rfl
        simp [full, correct, esc, Releases, keeps, Lab3.Globals.countSysIn]
    · simp [full, correct, Releases, Lab3.Globals.countSysIn]
  · simp [full, Releases, Lab3.Globals.countSysIn]

section Count

variable (m : VideoMode) (a : Move) (n : ℕ)

theorem receive_flagESC (s : MoveLoop) (msg : Received) :
    (a.receive m n s msg).1.keyboard.flagESC = (s.keyboard.flagESC && !msg.releases) := by
  have handled (keyboard : Option (ℕ → Reply)) (timer : Bool) :
      (s.handle keyboard).keyboard.flagESC =
        (s.keyboard.flagESC && !(Received.hardware keyboard timer).releases) := by
    cases keyboard with
    | none => exact (Bool.and_true _).symm
    | some replies => exact kbcIh_flagESC _ _
  cases msg with
  | failed => exact (Bool.and_true _).symm
  | other => exact (Bool.and_true _).symm
  | hardware keyboard timer =>
    rw [← handled keyboard timer, Move.receive]
    cases timer with
    | false => rfl
    | true =>
      rw [if_pos rfl, Move.timer]
      split_ifs <;> rfl

/-- Every timer interrupt is counted, and `n + 1` of them make a frame. -/
theorem receive_counter {s : MoveLoop} (counter : s.counterInterrupts ≤ n) (msg : Received) :
    (a.receive m n s msg).2.toList.length * (n + 1) + (a.receive m n s msg).1.counterInterrupts =
        s.counterInterrupts + msg.isTick.toNat ∧
      (a.receive m n s msg).1.counterInterrupts ≤ n := by
  have handled (keyboard : Option (ℕ → Reply)) :
      (s.handle keyboard).counterInterrupts = s.counterInterrupts := by
    cases keyboard with
    | none => rfl
    | some replies => rfl
  have unseen : ([] : List (UInt16 × UInt16)).length * (n + 1) + s.counterInterrupts =
      s.counterInterrupts := by
    rw [List.length_nil, Nat.zero_mul, Nat.zero_add]
  cases msg with
  | failed => exact ⟨unseen, counter⟩
  | other => exact ⟨unseen, counter⟩
  | hardware keyboard timer =>
    rw [Move.receive]
    cases timer with
    | false =>
      rw [if_neg Bool.false_ne_true, handled]
      exact ⟨unseen, counter⟩
    | true =>
      rw [if_pos rfl, Move.timer, handled]
      split_ifs with wait
      · exact ⟨by simp [Received.isTick], wait⟩
      · refine ⟨?_, Nat.zero_le n⟩
        simp only [Option.toList_some, List.length_singleton, Received.isTick, Bool.toNat_true]
        omega

theorem loop_released {s : MoveLoop} (released : s.keyboard.flagESC = false)
    (msgs : List Received) : (a.loop m n s msgs).2 = [] := by
  cases msgs with
  | nil => rfl
  | cons msg msgs => rw [Move.loop, released, if_neg Bool.false_ne_true]

/-- The number of frames that are drawn before Escape is released. -/
theorem length_loop {s : MoveLoop} (running : s.keyboard.flagESC = true)
    (counter : s.counterInterrupts ≤ n) (msgs : List Received) :
    (a.loop m n s msgs).2.length =
      (s.counterInterrupts + (untilEscape msgs).countP Received.isTick) / (n + 1) := by
  induction msgs generalizing s with
  | nil => exact (Nat.div_eq_of_lt (Nat.lt_succ_of_le counter)).symm
  | cons msg msgs ih =>
    obtain ⟨total, counter'⟩ := receive_counter m a n counter msg
    have flag := receive_flagESC m a n s msg
    rw [running, Bool.true_and] at flag
    have tick : (if msg.isTick then 1 else 0) = msg.isTick.toNat := by
      cases msg.isTick <;> rfl
    rw [loop_cons m a n running, List.length_append, untilEscape]
    by_cases released : msg.releases = true
    · rw [released] at flag
      rw [loop_released m a n flag, List.length_nil, if_pos released, List.countP_singleton, tick,
        ← total, Nat.add_comm (_ * _), Nat.add_mul_div_right _ _ (Nat.succ_pos n),
        Nat.div_eq_of_lt (Nat.lt_succ_of_le counter'), Nat.add_zero, Nat.zero_add]
    · rw [Bool.eq_false_of_not_eq_true released] at flag
      have whole : s.counterInterrupts +
          ((untilEscape msgs).countP Received.isTick + msg.isTick.toNat) =
            (a.receive m n s msg).1.counterInterrupts +
              (untilEscape msgs).countP Received.isTick +
                (a.receive m n s msg).2.toList.length * (n + 1) := by omega
      rw [ih flag counter', if_neg released, List.countP_cons, tick, whole,
        Nat.add_mul_div_right _ _ (Nat.succ_pos n), Nat.add_comm]

/-- The frames of `vg_draw_moving_sprite`. -/
def frameCount (frRate : UInt8) (msgs : List Received) : ℕ :=
  (untilEscape msgs).countP Received.isTick / (60 / frRate.toNat + 1)

theorem vgDrawMovingSprite_length {g : Lab3.Globals} {msgs : List Received}
    {r : MoveLoop × List (UInt16 × UInt16)} (drawn : vgDrawMovingSprite m a g msgs = some r) :
    r.2.length = frameCount a.frRate msgs := by
  rw [vgDrawMovingSprite] at drawn
  split_ifs at drawn
  obtain rfl := Option.some.inj drawn
  rw [length_loop m a _ rfl (Nat.zero_le _), Move.init, Nat.zero_add, frameCount]

/-- What the frames show. -/
theorem mem_vgDrawMovingSprite_iff {g : Lab3.Globals} {msgs : List Received}
    {r : MoveLoop × List (UInt16 × UInt16)} (drawn : vgDrawMovingSprite m a g msgs = some r)
    {p : UInt16 × UInt16} :
    p ∈ r.2 ↔ ∃ k < frameCount a.frRate msgs,
      p = (((a.advance m)^[k] a.start).x, ((a.advance m)^[k] a.start).y) := by
  rw [← vgDrawMovingSprite_length m a drawn, List.mem_iff_getElem?]
  have position : ∀ k q, r.2[k]? = some q →
      q = (((a.advance m)^[k] a.start).x, ((a.advance m)^[k] a.start).y) := by
    rw [vgDrawMovingSprite] at drawn
    split_ifs at drawn
    obtain rfl := Option.some.inj drawn
    exact fun k q shown => loop_frames m a _ _ _ shown
  constructor
  · rintro ⟨k, shown⟩
    exact ⟨k, (List.getElem?_eq_some_iff.1 shown).1, position k p shown⟩
  · rintro ⟨k, drawn, rfl⟩
    refine ⟨k, ?_⟩
    have shown := List.getElem?_eq_getElem drawn
    rw [shown, position k _ shown]

end Count

/-! ## Where the sprite is seen -/

/-- The whole of an image at this place is inside the frame. -/
def Fits (m : VideoMode) (x y width height : UInt16) : Prop :=
  x.toNat + width.toNat ≤ m.hRes ∧ y.toNat + height.toNat ≤ m.vRes

/-- There are pixels to be seen. -/
def Shows (m : VideoMode) (width height : UInt16) : Prop :=
  0 < width.toNat ∧ 0 < height.toNat ∧ 0 < m.bytesPerPixel

section Visible

variable {m : VideoMode} {x y width height : UInt16}

theorem Visible.shows (seen : Visible m x y width height) : Shows m width height :=
  ⟨seen.1.2, seen.2.1.2, seen.2.2⟩

theorem Fits.visible (fits : Fits m x y width height) (shows : Shows m width height) :
    Visible m x y width height := by
  obtain ⟨columns, rows, bytes⟩ := shows
  rw [Fits] at fits
  rw [Visible]
  omega

end Visible

/-- Where frame `k` shows a sprite that starts outside the screen, at a speed that is not positive: the
rollback has taken it one step back, and from there it moves down. -/
def Move.stray (a : Move) (k : ℕ) : UInt16 × UInt16 :=
  (a.xi - UInt16.ofNat (a.dx * a.absSpeed),
    a.yi - UInt16.ofNat (a.dy * a.absSpeed) + UInt16.ofNat (k / (a.absSpeed + 1)))

/-- One of the first frames shows a part of the image: the first one does; or the movement, which has
not arrived, comes onto the screen with its first step if the speed is positive, and strays onto it
otherwise. -/
def Move.Appears (m : VideoMode) (a : Move) (frames : ℕ) : Prop :=
  (0 < frames ∧ Visible m a.xi a.yi a.width a.height) ∨
    (a.xi, a.yi) ≠ (a.xf, a.yf) ∧
      if a.speed > 0 then
        1 < frames ∧ Visible m (a.moved a.absSpeed).x (a.moved a.absSpeed).y a.width a.height ∧
          Fits m (a.moved a.absSpeed).x (a.moved a.absSpeed).y a.width a.height
      else
        ∃ k, 0 < k ∧ k < frames ∧ Visible m (a.stray k).1 (a.stray k).2 a.width a.height ∧
          ∀ i, 0 < i → i < k → a.stray i ≠ (a.xf, a.yf)

section Appears

variable {m : VideoMode} {a : Move}

/-- A sprite that has lost its speeds is not rolled back. -/
theorem rollback_still {s : Motion} (x : s.speedX = 0) (y : s.speedY = 0) : a.rollback m s = s := by
  have minus (c : UInt16) : minusSpeed c 0 = c := by
    rw [minusSpeed, Int16.toInt_zero, Int.sub_zero, ofInt_coordinate]
  obtain ⟨sx, sy, speedX, speedY, counter⟩ := s
  obtain rfl : speedX = 0 := x
  obtain rfl : speedY = 0 := y
  rw [Move.rollback]
  split_ifs
  · simp only [minus]
  · rfl

theorem plusSpeed_zero (c : UInt16) : plusSpeed c 0 = c := by
  rw [plusSpeed, Int16.toInt_zero, Int.add_zero, ofInt_coordinate]

theorem Move.start_eq_mk : a.start =
    ⟨a.xi, a.yi, Int16.ofNat (a.dx * a.absSpeed), Int16.ofNat (a.dy * a.absSpeed), 0⟩ := by
  have zero : UInt16.ofNat 0 = 0 := rfl
  rw [Move.start_eq, Move.moved, Nat.mul_zero, Nat.mul_zero, zero, UInt16.add_zero, UInt16.add_zero]

theorem advance_away (away : (a.xi, a.yi) ≠ (a.xf, a.yf)) {s : Motion} (x : s.x = a.xi)
    (y : s.y = a.yi) : a.advance m s = a.rollback m (a.displace s) := by
  rw [Move.advance, x, y, if_neg fun both => away (Prod.ext both.1 both.2)]

theorem advance_arrived (final : (a.xi, a.yi) = (a.xf, a.yf)) : a.advance m a.start = a.start := by
  rw [Move.start_eq_mk, Move.advance, if_pos (Prod.ext_iff.1 final)]

/-! ### Positive speeds -/

theorem displace_fast (positive : a.speed > 0) : a.displace a.start = a.moved a.absSpeed := by
  rw [Move.start_eq, displace_moved positive, Nat.zero_add]

theorem advance_fast (positive : a.speed > 0) (away : (a.xi, a.yi) ≠ (a.xf, a.yf))
    (fits : Fits m (a.moved a.absSpeed).x (a.moved a.absSpeed).y a.width a.height) :
    a.advance m a.start = a.moved a.absSpeed := by
  rw [advance_away away (by rw [Move.start_eq_mk]) (by rw [Move.start_eq_mk]), displace_fast positive,
    Move.rollback, if_neg]
  rintro (right | bottom)
  · exact absurd fits.1 (Nat.not_le_of_gt right)
  · exact absurd fits.2 (Nat.not_le_of_gt bottom)

/-- A first step that leaves the screen, or does not come onto it, is the last. -/
theorem iterate_fast (positive : a.speed > 0) (away : (a.xi, a.yi) ≠ (a.xf, a.yf))
    (misses : ¬ Fits m (a.moved a.absSpeed).x (a.moved a.absSpeed).y a.width a.height) (k : ℕ) :
    ((a.advance m)^[k] a.start).x = a.xi ∧ ((a.advance m)^[k] a.start).y = a.yi := by
  have held : a.advance m a.start = ⟨a.xi, a.yi, 0, 0, 0⟩ := by
    have edge : (a.moved a.absSpeed).x.toNat + a.width.toNat > m.hRes ∨
        (a.moved a.absSpeed).y.toNat + a.height.toNat > m.vRes := by
      rw [Fits] at misses
      omega
    rw [advance_away away (by rw [Move.start_eq_mk]) (by rw [Move.start_eq_mk]),
      displace_fast positive, Move.rollback, if_pos edge]
    simp only [Move.moved, minusSpeed_ofNat, UInt16.add_sub_cancel]
  have still : a.advance m ⟨a.xi, a.yi, 0, 0, 0⟩ = ⟨a.xi, a.yi, 0, 0, 0⟩ := by
    rw [advance_away away rfl rfl, Move.displace, if_pos positive]
    simp only [plusSpeed_zero]
    exact rollback_still rfl rfl
  cases k with
  | zero =>
    rw [Function.iterate_zero_apply, Move.start_eq_mk]
    exact ⟨rfl, rfl⟩
  | succ k =>
    rw [Function.iterate_succ_apply, held, Function.iterate_fixed still]
    exact ⟨rfl, rfl⟩

/-! ### Other speeds -/

/-- The motion of a stray sprite. -/
def Move.strayed (a : Move) (k : ℕ) : Motion :=
  ⟨(a.stray k).1, (a.stray k).2, 0, 0, k % (a.absSpeed + 1)⟩

theorem advance_strayed (slow : ¬ a.speed > 0) (k : ℕ) :
    a.advance m (a.strayed k) =
      if a.stray k = (a.xf, a.yf) then a.strayed k else a.strayed (k + 1) := by
  rw [Move.advance]
  by_cases arrived : a.stray k = (a.xf, a.yf)
  · have both : (a.strayed k).x = a.xf ∧ (a.strayed k).y = a.yf := Prod.ext_iff.1 arrived
    rw [if_pos both, if_pos arrived]
  · have apart : ¬ ((a.strayed k).x = a.xf ∧ (a.strayed k).y = a.yf) :=
      fun both => arrived (Prod.ext both.1 both.2)
    have displaced : a.displace (a.strayed k) = a.strayed (k + 1) := by
      have split := Nat.div_add_mod k (a.absSpeed + 1)
      have waited := Nat.mod_lt k (show 0 < a.absSpeed + 1 by omega)
      have next (d r : ℕ) (sum : r + (a.absSpeed + 1) * d = k + 1) (less : r < a.absSpeed + 1) :=
        (Nat.div_mod_unique (Nat.succ_pos a.absSpeed)).2 ⟨sum, less⟩
      rw [Move.displace, if_neg slow]
      by_cases pixel : k % (a.absSpeed + 1) = a.absSpeed
      · obtain ⟨div, mod⟩ := next (k / (a.absSpeed + 1) + 1) 0
          (by rw [Nat.mul_succ]; omega) (Nat.succ_pos _)
        have one : UInt16.ofNat 1 = 1 := rfl
        simp only [Move.strayed, Move.stray, div, mod]
        rw [if_pos pixel, if_pos trivial, UInt16.ofNat_add, one, UInt16.add_assoc]
      · obtain ⟨div, mod⟩ := next (k / (a.absSpeed + 1)) (k % (a.absSpeed + 1) + 1)
          (by omega) (by omega)
        simp only [Move.strayed, Move.stray, div, mod]
        rw [if_neg pixel]
    rw [if_neg apart, if_neg arrived, displaced]
    exact rollback_still rfl rfl

theorem advance_slow (slow : ¬ a.speed > 0) (away : (a.xi, a.yi) ≠ (a.xf, a.yf))
    (outside : ¬ Fits m a.xi a.yi a.width a.height) : a.advance m a.start = a.strayed 1 := by
  have edge : a.xi.toNat + a.width.toNat > m.hRes ∨ a.yi.toNat + a.height.toNat > m.vRes := by
    rw [Fits] at outside
    omega
  rw [advance_away away (by rw [Move.start_eq_mk]) (by rw [Move.start_eq_mk]), Move.start_eq_mk,
    Move.displace, if_neg slow]
  simp only
  by_cases rest : a.absSpeed = 0
  · have zero : Int16.ofNat 0 = 0 := rfl
    rw [if_pos rest.symm, rest, Nat.mul_zero, Nat.mul_zero, zero, if_pos rfl,
      rollback_still rfl rfl, Move.strayed, Move.stray, rest]
    simp
  · have early : 1 < a.absSpeed + 1 := by omega
    have zero : UInt16.ofNat 0 = 0 := rfl
    rw [if_neg (Ne.symm rest), Move.rollback, if_pos edge, Move.strayed, Move.stray,
      Nat.div_eq_of_lt early, Nat.mod_eq_of_lt early, zero, UInt16.add_zero]
    simp only [minusSpeed_ofNat]

/-- The sprite strays until it comes to the final point. -/
theorem iterate_slow (slow : ¬ a.speed > 0) (away : (a.xi, a.yi) ≠ (a.xf, a.yf))
    (outside : ¬ Fits m a.xi a.yi a.width a.height) (k : ℕ) :
    ∃ n, 0 < n ∧ n ≤ k + 1 ∧ (a.advance m)^[k + 1] a.start = a.strayed n ∧
      (∀ i, 0 < i → i < n → a.stray i ≠ (a.xf, a.yf)) ∧ (n = k + 1 ∨ a.stray n = (a.xf, a.yf)) := by
  induction k with
  | zero =>
    exact ⟨1, Nat.one_pos, le_rfl, advance_slow slow away outside, fun i low high => by omega, .inl rfl⟩
  | succ k ih =>
    obtain ⟨n, positive, below, now, before, last⟩ := ih
    rw [Function.iterate_succ_apply', now, advance_strayed slow]
    by_cases arrived : a.stray n = (a.xf, a.yf)
    · exact ⟨n, positive, by omega, if_pos arrived, before, .inr arrived⟩
    · obtain rfl : n = k + 1 := last.resolve_right arrived
      refine ⟨k + 2, by omega, le_rfl, if_neg arrived, fun i low high => ?_, .inl rfl⟩
      rcases Nat.lt_succ_iff_lt_or_eq.1 high with earlier | rfl
      · exact before i low earlier
      · exact arrived

/-! ### The frames that show the sprite -/

/-- A frame with these coordinates shows a part of the image. -/
def Move.Sees (m : VideoMode) (a : Move) (s : Motion) : Prop := Visible m s.x s.y a.width a.height

theorem sees_start : a.Sees m a.start ↔ Visible m a.xi a.yi a.width a.height := by
  rw [Move.Sees, Move.start_eq_mk]

/-- If the first frame shows nothing, a later one has to. -/
theorem pos_of_sees {k : ℕ} (hidden : ¬ Visible m a.xi a.yi a.width a.height)
    (seen : a.Sees m ((a.advance m)^[k] a.start)) : 0 < k := by
  apply Nat.pos_of_ne_zero
  rintro rfl
  exact hidden (sees_start.1 seen)

theorem sees_fast_iff (positive : a.speed > 0) (away : (a.xi, a.yi) ≠ (a.xf, a.yf))
    (hidden : ¬ Visible m a.xi a.yi a.width a.height) (frames : ℕ) :
    (∃ k < frames, a.Sees m ((a.advance m)^[k] a.start)) ↔
      1 < frames ∧ Visible m (a.moved a.absSpeed).x (a.moved a.absSpeed).y a.width a.height ∧
        Fits m (a.moved a.absSpeed).x (a.moved a.absSpeed).y a.width a.height := by
  constructor
  · rintro ⟨k, below, seen⟩
    have fits : Fits m (a.moved a.absSpeed).x (a.moved a.absSpeed).y a.width a.height := by
      by_contra misses
      obtain ⟨x, y⟩ := iterate_fast positive away misses k
      rw [Move.Sees, x, y] at seen
      exact hidden seen
    have later := pos_of_sees hidden seen
    exact ⟨Nat.lt_of_le_of_lt later below, fits.visible seen.shows, fits⟩
  · rintro ⟨below, seen, fits⟩
    refine ⟨1, below, ?_⟩
    rwa [Function.iterate_one, advance_fast positive away fits]

theorem sees_slow_iff (slow : ¬ a.speed > 0) (away : (a.xi, a.yi) ≠ (a.xf, a.yf))
    (hidden : ¬ Visible m a.xi a.yi a.width a.height) (frames : ℕ) :
    (∃ k < frames, a.Sees m ((a.advance m)^[k] a.start)) ↔
      ∃ k, 0 < k ∧ k < frames ∧ Visible m (a.stray k).1 (a.stray k).2 a.width a.height ∧
        ∀ i, 0 < i → i < k → a.stray i ≠ (a.xf, a.yf) := by
  have outside {x y : UInt16} (seen : Visible m x y a.width a.height) :
      ¬ Fits m a.xi a.yi a.width a.height := fun fits => hidden (fits.visible seen.shows)
  constructor
  · rintro ⟨k, below, seen⟩
    obtain ⟨j, rfl⟩ := Nat.exists_eq_succ_of_ne_zero (Nat.ne_of_gt (pos_of_sees hidden seen))
    obtain ⟨n, low, high, now, before, -⟩ := iterate_slow slow away (outside seen) j
    rw [Nat.succ_eq_add_one, now] at seen
    exact ⟨n, low, Nat.lt_of_le_of_lt high below, seen, before⟩
  · rintro ⟨k, low, below, seen, before⟩
    obtain ⟨j, rfl⟩ := Nat.exists_eq_succ_of_ne_zero (Nat.ne_of_gt low)
    obtain ⟨n, low', high, now, -, last⟩ := iterate_slow slow away (outside seen) j
    refine ⟨j + 1, below, ?_⟩
    rw [now]
    rcases last with rfl | arrived
    · exact seen
    · rcases Nat.lt_or_eq_of_le high with earlier | rfl
      · exact absurd arrived (before n low' earlier)
      · exact seen

/-- The frames that show a part of the image, in closed form. -/
theorem appears_iff (m : VideoMode) (a : Move) (frames : ℕ) :
    (∃ k < frames, a.Sees m ((a.advance m)^[k] a.start)) ↔ a.Appears m frames := by
  by_cases start : Visible m a.xi a.yi a.width a.height
  · have some (appears : a.Appears m frames) : 0 < frames := by
      rcases appears with ⟨positive, -⟩ | ⟨-, later⟩
      · exact positive
      · split_ifs at later
        · exact Nat.zero_lt_of_lt later.1
        · obtain ⟨k, -, below, -⟩ := later
          exact Nat.zero_lt_of_lt below
    constructor
    · rintro ⟨k, below, -⟩
      exact .inl ⟨Nat.zero_lt_of_lt below, start⟩
    · exact fun appears => ⟨0, some appears, sees_start.2 start⟩
  · rw [Move.Appears, or_iff_right fun shown => start shown.2]
    by_cases final : (a.xi, a.yi) = (a.xf, a.yf)
    · refine iff_of_false ?_ fun later => later.1 final
      rintro ⟨k, -, seen⟩
      rw [Function.iterate_fixed (advance_arrived final)] at seen
      exact start (sees_start.1 seen)
    · rw [and_iff_right final]
      split_ifs with positive
      · exact sees_fast_iff positive final start frames
      · exact sees_slow_iff positive final start frames

end Appears

section Drawn

variable {m : VideoMode} {a : Move} {g : Lab3.Globals} {msgs : List Received}
variable {r : MoveLoop × List (UInt16 × UInt16)}

/-- A part of the image is seen in one of the frames. -/
theorem exists_visible_iff (drawn : vgDrawMovingSprite m a g msgs = some r) :
    (∃ p ∈ r.2, Visible m p.1 p.2 a.width a.height) ↔ a.Appears m (frameCount a.frRate msgs) := by
  rw [← appears_iff]
  constructor
  · rintro ⟨p, mem, seen⟩
    obtain ⟨k, below, rfl⟩ := (mem_vgDrawMovingSprite_iff m a drawn).1 mem
    exact ⟨k, below, seen⟩
  · rintro ⟨k, below, seen⟩
    exact ⟨_, (mem_vgDrawMovingSprite_iff m a drawn).2 ⟨k, below, rfl⟩, seen⟩

/-- What does not depend on the frame is required if there is one. -/
theorem forall_frames_iff (drawn : vgDrawMovingSprite m a g msgs = some r) (P : Prop) :
    (∀ p ∈ r.2, P) ↔ frameCount a.frRate msgs = 0 ∨ P := by
  rw [← vgDrawMovingSprite_length m a drawn, List.length_eq_zero_iff]
  constructor
  · intro each
    by_cases none : r.2 = []
    · exact .inl none
    · exact .inr (each _ (List.head_mem none))
  · rintro (none | holds) p mem
    · rw [none] at mem
      cases mem
    · exact holds

end Drawn

end LabComputers.Lab5

import LabComputers.Proj.GameLoop
import LabComputers.Proj.GameProof

/-!
# What the interrupt handlers do

The port programs evaluated on a stream of replies (`mouseIh_value`, `kbcIh_value`), and the rule
that reduces an invariant of all runs to the three event handlers (`Reachable.induction`): the
packet buffer, the scancode flags, the frame counter and the clock do not take part in the game.
-/

namespace LabComputers

open CString Port

/-! ## The port programs -/

/-- The reply makes `keyboard_check` return true. -/
def auxClear (r : Reply) : Prop := r.res ≠ 0 ∨ r.val.toUInt8 &&& mouseCheck = 0

/-- The reply makes `kbc_output_buf_full` return true. -/
def outputFull (r : Reply) : Prop := r.res ≠ 0 ∨ r.val.toUInt8 &&& kbcOutBufFull ≠ 0

/-- The reply makes `kbc_communication_error` return true. -/
def inError (r : Reply) : Prop := r.res ≠ 0 ∨ r.val.toUInt8 &&& kbcStatCheck ≠ 0

instance (r : Reply) : Decidable (auxClear r) := inferInstanceAs (Decidable (_ ∨ _))
instance (r : Reply) : Decidable (outputFull r) := inferInstanceAs (Decidable (_ ∨ _))
instance (r : Reply) : Decidable (inError r) := inferInstanceAs (Decidable (_ ∨ _))

theorem keyboardCheck_eq :
    keyboardCheck = .io (.inb kbcStatReg) fun r => .ret (decide (auxClear r)) := by
  simp only [keyboardCheck, utilSysInb, Prog.io_bind, Prog.ret_bind, Prog.pure_eq_ret, auxClear]
  congr
  funext r
  grind

theorem kbcOutputBufFull_eq :
    kbcOutputBufFull = .io (.inb kbcStatReg) fun r => .ret (decide (outputFull r)) := by
  simp only [kbcOutputBufFull, utilSysInb, Prog.io_bind, Prog.ret_bind, Prog.pure_eq_ret,
    outputFull]
  congr
  funext r
  grind

theorem kbcCommunicationError_eq :
    kbcCommunicationError = .io (.inb kbcStatReg) fun r => .ret (decide (inError r)) := by
  simp only [kbcCommunicationError, utilSysInb, Prog.io_bind, Prog.ret_bind, Prog.pure_eq_ret,
    inError]
  congr
  funext r
  grind

theorem kbcReadOutputBuffer_eq :
    kbcReadOutputBuffer = .io (.inb kbcOutBuf) fun r => .ret r.val.toUInt8 := rfl

/-- The `memset` at the start of `mouse_ih`. -/
def clearPacket (g : Globals) : Globals := if g.nbytes = 0 then { g with arr := zeros 3 } else g

/-- `mouse_ih` as one chain of port reads. -/
theorem mouseIh_eq (g : Globals) :
    mouseIh g =
      .io (.inb kbcStatReg) fun r₀ =>
        if auxClear r₀ then .ret (clearPacket g)
        else .io (.inb kbcStatReg) fun r₁ =>
          if ¬ outputFull r₁ then .ret (clearPacket g)
          else .io (.inb kbcOutBuf) fun r₂ =>
            .io (.inb kbcStatReg) fun r₃ =>
              .ret (if inError r₃ then clearPacket g
                else mouseByte r₂.val.toUInt8 (clearPacket g)) := by
  simp only [mouseIh, keyboardCheck_eq, kbcOutputBufFull_eq, kbcReadOutputBuffer_eq,
    kbcCommunicationError_eq, Prog.io_bind, Prog.ret_bind, Prog.pure_eq_ret, decide_eq_true_eq]
  congr
  funext r₀
  by_cases h₀ : auxClear r₀
  · rw [if_pos h₀, if_pos h₀]
    rfl
  · rw [if_neg h₀, if_neg h₀]
    congr
    funext r₁
    by_cases h₁ : outputFull r₁
    · simp only [h₁, decide_true, Bool.not_true, Bool.false_eq_true, if_false, not_true_eq_false]
      congr
      funext r₂
      congr
      funext r₃
      by_cases h₃ : inError r₃ <;> simp only [h₃, if_true, if_false] <;> rfl
    · simp only [h₁, decide_false, Bool.not_false, if_true, not_false_eq_true]
      rfl

/-- `kbc_ih` as one chain of port reads. -/
theorem kbcIh_eq (g : Globals) :
    kbcIh g =
      .io (.inb kbcStatReg) fun r₀ =>
        if ¬ outputFull r₀ then .ret g
        else .io (.inb kbcStatReg) fun r₁ =>
          if ¬ auxClear r₁ then .ret g
          else .io (.inb kbcOutBuf) fun r₂ =>
            .io (.inb kbcStatReg) fun r₃ =>
              .ret (if inError r₃ then g else kbcScancode r₂.val.toUInt8 g) := by
  simp only [kbcIh, keyboardCheck_eq, kbcOutputBufFull_eq, kbcReadOutputBuffer_eq,
    kbcCommunicationError_eq, Prog.io_bind, Prog.ret_bind, Prog.pure_eq_ret]
  congr
  funext r₀
  by_cases h₀ : outputFull r₀
  · simp only [h₀, decide_true, Bool.not_true, Bool.false_eq_true, if_false, not_true_eq_false]
    congr
    funext r₁
    by_cases h₁ : auxClear r₁
    · simp only [h₁, decide_true, Bool.not_true, Bool.false_eq_true, if_false, not_true_eq_false]
      congr
      funext r₂
      congr
      funext r₃
      by_cases h₃ : inError r₃ <;> simp only [h₃, decide_true, decide_false, if_true, if_false,
        Bool.false_eq_true]
    · simp only [h₁, decide_false, Bool.not_false, if_true, not_false_eq_true]
  · simp only [h₀, decide_false, Bool.not_false, if_true, not_false_eq_true]

theorem mouseIh_value (g : Globals) (rs : ℕ → Reply) :
    (mouseIh g).value rs =
      if ¬ auxClear (rs 0) ∧ outputFull (rs 1) ∧ ¬ inError (rs 3) then
        mouseByte (rs 2).val.toUInt8 (clearPacket g)
      else clearPacket g := by
  rw [mouseIh_eq, Prog.value, Prog.exec_io]
  by_cases h₀ : auxClear (rs 0)
  · simp [h₀]
  · by_cases h₁ : outputFull (rs 1)
    · by_cases h₃ : inError (rs 3) <;> simp [h₀, h₁, h₃]
    · simp [h₀, h₁]

theorem kbcIh_value (g : Globals) (rs : ℕ → Reply) :
    (kbcIh g).value rs =
      if outputFull (rs 0) ∧ auxClear (rs 1) ∧ ¬ inError (rs 3) then
        kbcScancode (rs 2).val.toUInt8 g
      else g := by
  rw [kbcIh_eq, Prog.value, Prog.exec_io]
  by_cases h₀ : outputFull (rs 0)
  · by_cases h₁ : auxClear (rs 1)
    · by_cases h₃ : inError (rs 3) <;> simp [h₀, h₁, h₃]
    · simp [h₀, h₁]
  · simp [h₀]

/-! ## The four things an interrupt can do -/

/-- The part of the state that takes part in the game. -/
def core (g : Globals) : Globals :=
  { g with
    frameCounter := 0, minutes := 0, hours := 0, nbytes := 0, arr := [], flagESC := false,
    flag2Bytes := false }

/-- The variables of the game agree in the two states. -/
structure SameGame (g g' : Globals) : Prop where
  gameState : g.gameState = g'.gameState
  gameMatrix : g.gameMatrix = g'.gameMatrix
  killerAlien : g.killerAlien = g'.killerAlien
  gameOverCounter : g.gameOverCounter = g'.gameOverCounter
  randomAlienCounter : g.randomAlienCounter = g'.randomAlienCounter
  randomAlienNumber : g.randomAlienNumber = g'.randomAlienNumber
  points : g.points = g'.points
  name : g.name = g'.name
  lb : g.lb = g'.lb
  calls : g.calls = g'.calls
  buttonWasRaised : g.buttonWasRaised = g'.buttonWasRaised

theorem sameGame_of_core {g g' : Globals} (h : core g = core g') : SameGame g g' where
  gameState := (congrArg Globals.gameState h :)
  gameMatrix := (congrArg Globals.gameMatrix h :)
  killerAlien := (congrArg Globals.killerAlien h :)
  gameOverCounter := (congrArg Globals.gameOverCounter h :)
  randomAlienCounter := (congrArg Globals.randomAlienCounter h :)
  randomAlienNumber := (congrArg Globals.randomAlienNumber h :)
  points := (congrArg Globals.points h :)
  name := (congrArg Globals.name h :)
  lb := (congrArg Globals.lb h :)
  calls := (congrArg Globals.calls h :)
  buttonWasRaised := (congrArg Globals.buttonWasRaised h :)

/-- The interrupt makes `game_loop` call `game_ih`. -/
def ticks (g : Globals) : Interrupt → Bool
  | .timer _ _ _ => (g.frameCounter + 1) % frameNumber = 0
  | _ => false

/-- The interrupt makes a call of `game_step`. -/
def Steps (g : Globals) (e : Interrupt) : Prop := g.gameState = .playing ∧ ticks g e = true

theorem core_clearPacket (g : Globals) : core (clearPacket g) = core g := by
  unfold clearPacket
  split_ifs <;> rfl

theorem mouseByte_cases (byte : UInt8) (g : Globals) :
    core (mouseByte byte g) = core g ∨
      ∃ g₁ arr, core g₁ = core g ∧
        core (mouseByte byte g) = core (mouseEventHandler (mouseEvent arr) g₁) := by
  unfold mouseByte
  split_ifs
  · exact Or.inl rfl
  · simp only
    split_ifs
    · exact Or.inr ⟨{ g with arr := g.arr.set g.nbytes byte, nbytes := g.nbytes + 1 }, _, rfl, rfl⟩
    · exact Or.inl rfl

/-- A byte other than the prefix is passed to `keyboard_event_handler`. -/
theorem kbcScancode_single {scanCode : UInt8} (single : scanCode ≠ kbcScancode2B) (g : Globals) :
    ∃ g₁, core g₁ = core g ∧ kbcScancode scanCode g = keyboardEventHandler scanCode g₁ := by
  rw [kbcScancode, if_neg single]
  refine ⟨_, ?_, rfl⟩
  split_ifs <;> rfl

theorem kbcScancode_cases (scanCode : UInt8) (g : Globals) :
    core (kbcScancode scanCode g) = core g ∨
      ∃ g₁, core g₁ = core g ∧ kbcScancode scanCode g = keyboardEventHandler scanCode g₁ := by
  by_cases two : scanCode = kbcScancode2B
  · rw [kbcScancode, if_pos two]
    exact Or.inl rfl
  · exact Or.inr (kbcScancode_single two g)

/-- A timer interrupt that ticks calls `game_ih`. -/
theorem handle_timer {g : Globals} {rtcHours rtcMinutes : UInt8} {rand : ℕ → ℕ}
    (tick : ticks g (.timer rtcHours rtcMinutes rand) = true) :
    ∃ g₁, core g₁ = core g ∧ handle g (.timer rtcHours rtcMinutes rand) = gameIh rand g₁ := by
  have frame : (g.frameCounter + 1) % frameNumber = 0 := of_decide_eq_true tick
  refine ⟨_, ?_, if_pos frame⟩
  split_ifs <;> rfl

/-- An interrupt leaves the game alone, or its effect on the game is that of one call of
`mouse_event_handler`, of `keyboard_event_handler` or of `game_ih`. -/
theorem handle_cases (g : Globals) (e : Interrupt) :
    (core (handle g e) = core g ∧ ticks g e = false) ∨
    (∃ g₁ arr, core g₁ = core g ∧
      core (handle g e) = core (mouseEventHandler (mouseEvent arr) g₁) ∧ ticks g e = false) ∨
    (∃ g₁ scanCode, core g₁ = core g ∧ handle g e = keyboardEventHandler scanCode g₁ ∧
      ticks g e = false) ∨
    (∃ g₁ rand, core g₁ = core g ∧ handle g e = gameIh rand g₁ ∧ ticks g e = true) := by
  cases e with
  | mouse replies =>
    rw [handle, mouseIh_value]
    split_ifs
    · rcases mouseByte_cases (replies 2).val.toUInt8 (clearPacket g) with h | ⟨g₁, arr, h₁, h⟩
      · exact Or.inl ⟨h.trans (core_clearPacket g), rfl⟩
      · exact Or.inr (Or.inl ⟨g₁, arr, h₁.trans (core_clearPacket g), h, rfl⟩)
    · exact Or.inl ⟨core_clearPacket g, rfl⟩
  | kbc replies =>
    rw [handle, kbcIh_value]
    split_ifs
    · rcases kbcScancode_cases (replies 2).val.toUInt8 g with h | ⟨g₁, h₁, h⟩
      · exact Or.inl ⟨h, rfl⟩
      · exact Or.inr (Or.inr (Or.inl ⟨g₁, _, h₁, h, rfl⟩))
    · exact Or.inl ⟨rfl, rfl⟩
  | timer rtcHours rtcMinutes rand =>
    by_cases frame : (g.frameCounter + 1) % frameNumber = 0
    · have tick : ticks g (.timer rtcHours rtcMinutes rand) = true := decide_eq_true frame
      obtain ⟨g₁, h₁, h'⟩ := handle_timer tick
      exact Or.inr (Or.inr (Or.inr ⟨g₁, rand, h₁, h', tick⟩))
    · refine Or.inl ⟨?_, decide_eq_false frame⟩
      rw [handle, timerIh]
      simp only
      rw [if_neg frame]
      rfl

/-- A property of the game is kept by every interrupt if the three event handlers keep it. -/
theorem handle_induction {P : Globals → Prop} (game : ∀ g, P (core g) ↔ P g)
    (mouse : ∀ arr g, P g → P (mouseEventHandler (mouseEvent arr) g))
    (key : ∀ scanCode g, P g → P (keyboardEventHandler scanCode g))
    (tick : ∀ rand g, P g → P (gameIh rand g)) (g : Globals) (e : Interrupt) (h : P g) :
    P (handle g e) := by
  have transfer : ∀ {g g'}, core g = core g' → P g' → P g := fun same h' =>
    (game _).1 (same ▸ (game _).2 h')
  rcases handle_cases g e with ⟨h', -⟩ | ⟨g₁, arr, h₁, h', -⟩ | ⟨g₁, scanCode, h₁, h', -⟩ |
    ⟨g₁, rand, h₁, h', -⟩
  · exact transfer h' h
  · exact transfer h' (mouse arr g₁ (transfer h₁ h))
  · rw [h']
    exact key scanCode g₁ (transfer h₁ h)
  · rw [h']
    exact tick rand g₁ (transfer h₁ h)

/-- Every reachable state is the result of handling some interrupts. -/
theorem Reachable.exists_run {g : Globals} (h : Reachable g) :
    ∃ lb es, g = Transition.run handle (loopStart lb) es := by
  obtain ⟨lb, visits⟩ := h
  obtain ⟨es, rfl⟩ := visits.exists_run
  exact ⟨lb, es, rfl⟩

/-- The rule for invariants of `game_loop`. -/
theorem Reachable.induction {P : Globals → Prop} (start : ∀ lb, P (loopStart lb))
    (game : ∀ g, P (core g) ↔ P g)
    (mouse : ∀ arr g, P g → P (mouseEventHandler (mouseEvent arr) g))
    (key : ∀ scanCode g, P g → P (keyboardEventHandler scanCode g))
    (tick : ∀ rand g, P g → P (gameIh rand g)) {g : Globals} (h : Reachable g) : P g := by
  obtain ⟨lb, es, rfl⟩ := h.exists_run
  exact Transition.run_induction handle (handle_induction game mouse key tick) (start lb) es

theorem reachable_loopStart (lb : Leaderboard) : Reachable (loopStart lb) :=
  ⟨lb, Transition.Visits.refl handle rfl ⟨⟨none, none, none⟩, rfl⟩⟩

/-- The loop gets from one state to another by notifications of single interrupts. -/
def Leads (g g' : Globals) : Prop := Transition.Reaches handle exited g g'

theorem Leads.reachable {lb : Leaderboard} {g : Globals} (h : Leads (loopStart lb) g) :
    Reachable g := by
  refine ⟨lb, Transition.Reaches.visits ⟨⟨none, none, none⟩, rfl⟩ ?_ rfl h⟩
  rintro (replies | replies | ⟨rtcHours, rtcMinutes, rand⟩)
  · exact ⟨⟨some replies, none, none⟩, rfl⟩
  · exact ⟨⟨none, some replies, none⟩, rfl⟩
  · exact ⟨⟨none, none, some (rtcHours, rtcMinutes, rand)⟩, rfl⟩

end LabComputers

import LabComputers.Proj.IsolationProof
import LabComputers.Proj.SessionProof

/-!
# Pausing

While the game is paused, only the mouse is still followed.  `pause_invisible` compares a run with a
pause to the one without it: nothing but `frame_counter` tells that there was a pause.
-/

namespace LabComputers

/-- The interrupt is one of the mouse. -/
def Interrupt.isMouse : Interrupt → Bool
  | .mouse _ => true
  | _ => false

/-- The interrupt completes a packet in which the left button is pressed after it was raised. -/
def FreshPress (g : Globals) (e : Interrupt) : Prop :=
  ∃ event : MouseEvent, (handle g e).calls = .mouseEventHandler event :: g.calls ∧
    event.overflow = false ∧ event.lbdown = true ∧ g.buttonWasRaised = true

/-- What may happen during a pause: neither P nor Escape is released and no button is pressed. -/
def Rests (g : Globals) (e : Interrupt) : Prop :=
  scancode? e ≠ some pBreak ∧ scancode? e ≠ some escBreak ∧ ¬ FreshPress g e

/-- The state in which the game goes on when `frame_counter` is `frames`. -/
def Globals.resumed (g : Globals) (frames : UInt32) : Globals :=
  { g with gameState := .playing, frameCounter := frames }

/-- The first game is paused where the second one is in play. -/
structure Paused (s t : Globals) : Prop where
  paused : s.gameState = .pause
  running : t.gameState = .playing
  alike : Alike (s.resumed t.frameCounter) t

/-! ## One interrupt -/

theorem mouseEventHandler_resumed {event : MouseEvent} {g : Globals} (paused : g.gameState = .pause)
    (frames : UInt32)
    (press : ¬ (event.overflow = false ∧ event.lbdown = true ∧ g.buttonWasRaised = true)) :
    (mouseEventHandler event g).gameState = .pause ∧
      (mouseEventHandler event g).resumed frames = mouseEventHandler event (g.resumed frames) := by
  rw [mouseEventHandler_eq, mouseEventHandler_eq]
  by_cases overflow : event.overflow = true
  · rw [if_pos overflow, if_pos overflow]
    exact ⟨paused, rfl⟩
  · have clear : event.overflow = false := by simpa using overflow
    have held : ¬ (event.lbdown = true ∧ g.buttonWasRaised = true) := fun h => press ⟨clear, h⟩
    rw [if_neg overflow, if_neg overflow, if_neg held]
    refine ⟨paused, ?_⟩
    exact (if_neg held).symm

theorem mouseEventHandler_paused {g : Globals} (paused : g.gameState = .pause) (event : MouseEvent) :
    (mouseEventHandler event g).calls = .mouseEventHandler event :: g.calls := by
  rw [mouseEventHandler_eq]
  split_ifs
  · rfl
  · rw [paused]
    rfl
  · rfl

/-- The state in which a byte has been stored in the packet buffer. -/
def Globals.stored (g : Globals) (byte : UInt8) : Globals :=
  { g with arr := g.arr.set g.nbytes byte, nbytes := g.nbytes + 1 }

theorem mouseByte_resumed {byte : UInt8} {g : Globals} (paused : g.gameState = .pause)
    (frames : UInt32)
    (press : ∀ event : MouseEvent, (mouseByte byte g).calls = .mouseEventHandler event :: g.calls →
      ¬ (event.overflow = false ∧ event.lbdown = true ∧ g.buttonWasRaised = true)) :
    (mouseByte byte g).gameState = .pause ∧
      (mouseByte byte g).resumed frames = mouseByte byte (g.resumed frames) := by
  have equation : ∀ g : Globals, mouseByte byte g =
      if byte &&& 0x08 = 0 ∧ g.nbytes = 0 then g
      else if g.nbytes + 1 = 3 then
        { mouseEventHandler (mouseEvent (g.arr.set g.nbytes byte)) (g.stored byte) with nbytes := 0 }
      else g.stored byte := fun _ => rfl
  rw [equation] at press ⊢
  rw [equation (g.resumed frames)]
  by_cases stray : byte &&& 0x08 = 0 ∧ g.nbytes = 0
  · rw [if_pos stray]
    exact ⟨paused, (if_pos stray).symm⟩
  · rw [if_neg stray] at press ⊢
    have stray' : ¬ (byte &&& 0x08 = 0 ∧ (g.resumed frames).nbytes = 0) := stray
    rw [if_neg stray']
    by_cases full : g.nbytes + 1 = 3
    · rw [if_pos full] at press ⊢
      have full' : (g.resumed frames).nbytes + 1 = 3 := full
      rw [if_pos full']
      have paused' : (g.stored byte).gameState = .pause := paused
      obtain ⟨state, same⟩ := mouseEventHandler_resumed paused' frames
        (press _ (mouseEventHandler_paused paused' _))
      exact ⟨state, congrArg (fun g : Globals => { g with nbytes := 0 }) same⟩
    · rw [if_neg full]
      exact ⟨paused, (if_neg full).symm⟩

/-- The mouse moves the pointer of a paused game like that of the game in play. -/
theorem handle_mouse_resumed {g : Globals} (paused : g.gameState = .pause) (frames : UInt32)
    {replies : ℕ → Port.Reply} (press : ¬ FreshPress g (.mouse replies)) :
    (handle g (.mouse replies)).gameState = .pause ∧
      (handle g (.mouse replies)).resumed frames = handle (g.resumed frames) (.mouse replies) := by
  have cleared : (clearPacket g).gameState = .pause ∧ (clearPacket g).calls = g.calls ∧
      (clearPacket g).buttonWasRaised = g.buttonWasRaised ∧
      (clearPacket g).resumed frames = clearPacket (g.resumed frames) := by
    unfold clearPacket
    by_cases start : g.nbytes = 0
    · rw [if_pos start]
      exact ⟨paused, rfl, rfl, (if_pos start).symm⟩
    · rw [if_neg start]
      exact ⟨paused, rfl, rfl, (if_neg start).symm⟩
  obtain ⟨state, calls, raised, same⟩ := cleared
  change ¬ ∃ event : MouseEvent, ((mouseIh g).value replies).calls = _ ∧ _ at press
  change ((mouseIh g).value replies).gameState = .pause ∧
    ((mouseIh g).value replies).resumed frames = (mouseIh (g.resumed frames)).value replies
  rw [mouseIh_value] at press ⊢
  rw [mouseIh_value]
  split_ifs at press ⊢
  · rw [← same]
    refine mouseByte_resumed state frames fun event called fresh => press ⟨event, ?_, ?_⟩
    · rw [called, calls]
    · rwa [raised] at fresh
  · exact ⟨state, same⟩

/-- Before `keyboard_event_handler` is called, only the scancode flags change. -/
theorem handle_typed {e : Interrupt} {scanCode : UInt8} (h : scancode? e = some scanCode)
    (g : Globals) : ∃ flag2Bytes flagESC, handle g e =
      keyboardEventHandler scanCode { g with flag2Bytes := flag2Bytes, flagESC := flagESC } := by
  rcases e with _ | replies | _
  · cases h
  · simp only [scancode?] at h
    split_ifs at h with read
    obtain rfl := Option.some.inj h
    have single : (if g.flag2Bytes then { g with flag2Bytes := false } else g) = g.singleByte := by
      cases flag : g.flag2Bytes
      · simp [Globals.singleByte, ← flag]
      · rfl
    rw [handle, kbcIh_value, if_pos read.1, kbcScancode, if_neg read.2]
    simp only
    rw [single]
    split_ifs
    · exact ⟨false, false, rfl⟩
    · exact ⟨false, g.flagESC, rfl⟩
  · cases h

/-- The timer only counts the frames of a paused game. -/
theorem handle_timer_paused {g : Globals} (paused : g.gameState = .pause) (rtcHours rtcMinutes : UInt8)
    (rand : ℕ → ℕ) : handle g (.timer rtcHours rtcMinutes rand) = g.between := by
  have paused' : g.between.gameState = .pause := paused
  have outside : ¬ g.between.gameState = .menu := by simp [paused']
  change (if g.between.frameCounter % frameNumber = 0 then
    gameIh rand (if g.between.gameState = .menu then rtcIh rtcHours rtcMinutes g.between
      else g.between) else g.between) = g.between
  rw [if_neg outside]
  split_ifs
  · rw [gameIh, paused']
  · rfl

namespace Paused

variable {s t : Globals}

/-- The mouse is followed by both games. -/
theorem mouse (h : Paused s t) {e : Interrupt} (mouse : e.isMouse = true) (rests : Rests s e) :
    Paused (handle s e) (handle t e) := by
  cases e with
  | kbc => cases mouse
  | timer => cases mouse
  | mouse replies =>
    obtain ⟨state, same⟩ := handle_mouse_resumed h.paused t.frameCounter rests.2.2
    have alike := h.alike.handle (.mouse replies)
    rw [← same] at alike
    have frames : (handle t (.mouse replies)).frameCounter = t.frameCounter :=
      handle_frameCounter t (.mouse replies)
    refine ⟨state, alike.gameState.symm, ?_⟩
    rwa [frames]

/-- The paused game ignores the keyboard and the timer. -/
theorem other (h : Paused s t) {e : Interrupt} (other : e.isMouse = false) (rests : Rests s e) :
    Paused (handle s e) t := by
  cases e with
  | mouse => cases other
  | kbc replies =>
    cases code : scancode? (.kbc replies) with
    | none =>
      have same : handle s (.kbc replies) = s ∨
          handle s (.kbc replies) = { s with flag2Bytes := true } := by
        rw [handle, kbcIh_value]
        split_ifs with read
        · refine .inr (if_pos ?_)
          by_contra single
          rw [scancode?, if_pos ⟨read, single⟩] at code
          cases code
        · exact .inl rfl
      rcases same with e | e <;> rw [e]
      · exact h
      · exact ⟨h.paused, h.running, { h.alike with }⟩
    | some scanCode =>
      obtain ⟨flag2Bytes, flagESC, e⟩ := handle_typed code s
      have p : scanCode ≠ pBreak := fun p => rests.1 (code.trans (congrArg some p))
      have esc : scanCode ≠ escBreak := fun esc => rests.2.1 (code.trans (congrArg some esc))
      have ignored : keyboardEventHandler scanCode
          { s with flag2Bytes := flag2Bytes, flagESC := flagESC } =
            { s with flag2Bytes := flag2Bytes, flagESC := flagESC } := by
        rw [keyboardEventHandler, if_neg esc]
        simp only [h.paused]
        rw [if_neg p, ← h.paused]
      rw [e, ignored]
      exact ⟨h.paused, h.running, { h.alike with }⟩
  | timer rtcHours rtcMinutes rand =>
    rw [handle_timer_paused h.paused]
    exact ⟨h.paused, h.running, { h.alike with }⟩

end Paused

/-! ## Runs -/

theorem run_frameCounter (g : Globals) (es : List Interrupt) :
    (Transition.run handle g es).frameCounter = g.frameCounter + UInt32.ofNat (timers es) := by
  induction es generalizing g with
  | nil => exact (UInt32.add_zero _).symm
  | cons e es ih =>
    rw [Transition.run_cons, ih, handle_frameCounter]
    cases timer : e.isTimer with
    | true =>
      have counted : timers (e :: es) = 1 + timers es := by
        rw [timers, List.countP_cons_of_pos timer, Nat.add_comm, timers]
      rw [if_pos rfl, counted, UInt32.ofNat_add, UInt32.add_assoc]
      rfl
    | false =>
      have counted : timers (e :: es) = timers es := List.countP_cons_of_neg (by simp [timer])
      rw [if_neg (by decide), counted]

/-- The state a pause of `n` timer interrupts later. -/
def Globals.delayed (g : Globals) (n : ℕ) : Globals :=
  { g with frameCounter := g.frameCounter + UInt32.ofNat n }

theorem Alike.trans {s t u : Globals} (h : Alike s t) (h' : Alike t u) : Alike s u where
  gameState := h.gameState.trans h'.gameState
  gameMatrix := h.gameMatrix.trans h'.gameMatrix
  points := h.points.trans h'.points
  counter := h.counter.trans h'.counter
  number := h.number.trans h'.number
  increase := h.increase.trans h'.increase
  mouseX := h.mouseX.trans h'.mouseX
  mouseY := h.mouseY.trans h'.mouseY
  halfWidth := h.halfWidth.trans h'.halfWidth
  halfHeight := h.halfHeight.trans h'.halfHeight
  widthBorder := h.widthBorder.trans h'.widthBorder
  heightBorder := h.heightBorder.trans h'.heightBorder
  lb := h.lb.trans h'.lb
  buttonWasRaised := h.buttonWasRaised.trans h'.buttonWasRaised
  nbytes := h.nbytes.trans h'.nbytes
  arr := h.arr.trans h'.arr
  parity := h.parity.trans h'.parity
  dying := fun ended =>
    have ended' := h.gameState.symm.trans ended
    ⟨(h.dying ended).1.trans (h'.dying ended').1, (h.dying ended).2.trans (h'.dying ended').2⟩
  typing := fun input =>
    have input' := h.gameState.symm.trans input
    ⟨(h.typing input).1.trans (h'.typing input').1, (h.typing input).2.trans (h'.typing input').2⟩

/-- P resumes the game. -/
theorem Paused.resume {s t : Globals} (h : Paused s t) (frames : s.frameCounter = t.frameCounter)
    {e : Interrupt} (pressed : scancode? e = some pBreak) : Alike (handle s e) t := by
  obtain ⟨flag2Bytes, flagESC, e'⟩ := handle_typed pressed s
  rw [e', keyboardEventHandler, if_neg (by decide)]
  simp only [h.paused]
  exact { h.alike with parity := by rw [if_pos trivial, frames] }

/-- P pauses the game. -/
theorem paused_of_playing {g : Globals} (running : g.gameState = .playing) {e : Interrupt}
    (pressed : scancode? e = some pBreak) (n : ℕ) : Paused (handle g e) (g.delayed n) := by
  obtain ⟨flag2Bytes, flagESC, e'⟩ := handle_typed pressed g
  rw [e', keyboardEventHandler, if_neg (by decide)]
  simp only [running]
  refine ⟨rfl, running, running.symm, rfl, rfl, rfl, rfl, rfl, rfl, rfl, rfl, rfl, rfl, rfl, rfl, rfl,
    rfl, rfl, rfl, ?_, ?_⟩
  · intro ended
    cases ended
  · intro input
    cases input

/-- An even number of timer interrupts does not show. -/
theorem alike_delayed {g : Globals} (running : g.gameState = .playing) {n : ℕ} (even : Even n) :
    Alike (g.delayed n) g := by
  have parity : (g.frameCounter + UInt32.ofNat n) % frameNumber = g.frameCounter % frameNumber := by
    obtain ⟨k, rfl⟩ := even
    rw [frameNumber_eq, UInt32.ofNat_add]
    grind
  refine ⟨rfl, rfl, rfl, rfl, rfl, rfl, rfl, rfl, rfl, rfl, rfl, rfl, rfl, rfl, rfl, rfl, parity, ?_, ?_⟩
  · intro ended
    exact absurd (running.symm.trans ended) (by decide)
  · intro input
    exact absurd (running.symm.trans input) (by decide)

/-- A pause is invisible: nothing that comes after it differs from the run that handles only the mouse
interrupts of the pause, except that `frame_counter` has gone on; it does not differ at all if the
number of timer interrupts during the pause is even. -/
theorem pause_invisible {g : Globals} (running : g.gameState = .playing) {pause resume : Interrupt}
    (pressed : scancode? pause = some pBreak) (pressed' : scancode? resume = some pBreak)
    {ps : List Interrupt} (rests : Transition.EveryStep handle Rests (handle g pause) ps)
    (es : List Interrupt) :
    Indistinguishable (Transition.run handle g (pause :: ps ++ resume :: es))
      (Transition.run handle (g.delayed (timers ps)) (ps.filter Interrupt.isMouse ++ es)) ∧
    (Even (timers ps) →
      Indistinguishable (Transition.run handle g (pause :: ps ++ resume :: es))
        (Transition.run handle g (ps.filter Interrupt.isMouse ++ es))) := by
  have paused := paused_of_playing running pressed (timers ps)
  have rested := Transition.run_related_filter handle Interrupt.isMouse
    (fun _ _ _ mouse rests h => h.mouse mouse rests)
    (fun _ _ _ other rests h => h.other other rests) paused rests
  have untimed : timers (ps.filter Interrupt.isMouse) = 0 := by
    refine List.countP_eq_zero.2 fun e he => ?_
    have mouse := (List.mem_filter.1 he).2
    cases e with
    | mouse => exact Bool.false_ne_true
    | kbc => cases mouse
    | timer => cases mouse
  have frames : (Transition.run handle (handle g pause) ps).frameCounter =
      (Transition.run handle (g.delayed (timers ps)) (ps.filter Interrupt.isMouse)).frameCounter := by
    have untouched : (handle g pause).frameCounter = g.frameCounter := by
      rw [handle_frameCounter, if_neg]
      cases pause with
      | timer => cases pressed
      | _ => exact Bool.false_ne_true
    rw [run_frameCounter, run_frameCounter, untimed, untouched]
    exact (UInt32.add_zero _).symm
  have alike := Transition.run_related handle (fun _ _ e h => h.handle e)
    (rested.resume frames pressed') es
  have split : Transition.run handle g (pause :: ps ++ resume :: es) =
      Transition.run handle (handle (Transition.run handle (handle g pause) ps) resume) es := by
    rw [Transition.run_append]
    rfl
  rw [split, Transition.run_append, Transition.run_append]
  refine ⟨alike.indistinguishable, fun even => ?_⟩
  have same := Transition.run_related handle (fun _ _ e h => h.handle e)
    (alike_delayed running even) (ps.filter Interrupt.isMouse ++ es)
  rw [Transition.run_append, Transition.run_append] at same
  exact (alike.trans same).indistinguishable

theorem rests_timer {g : Globals} (paused : g.gameState = .pause) {rtcHours rtcMinutes : UInt8}
    {rand : ℕ → ℕ} : Rests g (.timer rtcHours rtcMinutes rand) := by
  refine ⟨nofun, nofun, ?_⟩
  rintro ⟨event, calls, -⟩
  rw [handle_timer_paused paused] at calls
  exact List.cons_ne_self _ _ calls.symm

/-- A pause of two timer interrupts at the start of a game. -/
theorem pause_invisible_first : ∃ g, Reachable g ∧ g.gameState = .playing ∧ ∀ es,
    Indistinguishable
      (Transition.run handle g (.kbc (key pBreak) :: List.replicate 2 (.timer 0 0 aim) ++
        .kbc (key pBreak) :: es))
      (Transition.run handle g es) := by
  obtain ⟨g, leads, target⟩ := exists_target 0
  have pressed : scancode? (.kbc (key pBreak)) = some pBreak := by
    have delivers := keyDelivers_key pBreak
    have read : outputFull (key pBreak 0) ∧ auxClear (key pBreak 1) ∧ ¬ inError (key pBreak 3) :=
      ⟨.inr delivers.obf.2, .inr delivers.aux.2,
        fun error => error.elim (· delivers.noError.1) (· delivers.noError.2)⟩
    rw [scancode?, if_pos ⟨read, by decide⟩]
    rfl
  have paused := (paused_of_playing target.running pressed 0).paused
  have rests : Transition.EveryStep handle Rests (handle g (.kbc (key pBreak)))
      (List.replicate 2 (.timer 0 0 aim)) := by
    refine (Transition.everyStep_cons handle).2 ⟨rests_timer paused, ?_⟩
    refine (Transition.everyStep_cons handle).2 ⟨rests_timer ?_, Transition.everyStep_nil handle⟩
    rw [handle_timer_paused paused]
    exact paused
  have even : Even (timers (List.replicate 2 (.timer 0 0 aim))) := ⟨1, timers_replicate 2 0 0 aim⟩
  exact ⟨g, leads.reachable, target.running, fun es =>
    (pause_invisible target.running pressed pressed rests es).2 even⟩

end LabComputers

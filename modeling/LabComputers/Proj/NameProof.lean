import LabComputers.Proj.LongGameProof
import LabComputers.Proj.TextProof

/-!
# Typing the name

While the name is typed, the array `name` is the buffer of a line editor: it holds the string of the
reference editor `edit`, followed only by zero bytes.  `name_edited` proves this for all interrupts from
the moment `game_leaderboard` asks for the name until the input is left.
-/

namespace LabComputers

open CString

/-! ## The reference editor -/

/-- The string after a scancode: the character of a make code is appended to fewer than six, the last
one is removed by Delete, and every other code is ignored. -/
def edit (s : List UInt8) (scanCode : UInt8) : List UInt8 :=
  match nameByte scanCode with
  | some c => if s.length < 6 then s ++ [c] else s
  | none => if scanCode = delMake then s.dropLast else s

/-- The scancode with which an interrupt calls `keyboard_event_handler`. -/
def scancode? : Interrupt → Option UInt8
  | .kbc replies =>
    let scanCode := (replies 2).val.toUInt8
    if (outputFull (replies 0) ∧ auxClear (replies 1) ∧ ¬ inError (replies 3)) ∧
      scanCode ≠ kbcScancode2B then some scanCode else none
  | _ => none

/-- The offsets of `name` that `keyboard_event_handler` touches: the two it tests, those that `strcat`
or `strlen` pass, and those it stores to. -/
def touched (scanCode : UInt8) (name : List UInt8) : List ℤ :=
  5 :: 0 ::
    match if name.getD 5 0 = 0 then nameByte scanCode else none with
    | some _ => (List.range (strlen name + 2)).map Int.ofNat
    | none =>
      if name.getD 0 0 ≠ 0 ∧ scanCode = delMake then
        (strlen name - 1 : ℤ) :: (List.range (strlen name + 1)).map Int.ofNat
      else []

/-! ## One scancode -/

/-- The name is being typed and `s` has been typed so far. -/
structure Editing (g : Globals) (s : List UInt8) : Prop where
  input : g.gameState = .lbInput
  name : g.name = pad 7 s
  short : s.length ≤ 6
  letters : ∀ c ∈ s, isNameByte c

theorem ne_zero_of_isNameByte {c : UInt8} (h : isNameByte c) : c ≠ 0 := by
  rintro rfl
  exact absurd h (by decide)

namespace Editing

variable {g : Globals} {s : List UInt8}

theorem clean (h : Editing g s) : ∀ c ∈ s, c ≠ 0 := fun c hc => ne_zero_of_isNameByte (h.letters c hc)

theorem strlen_name (h : Editing g s) : strlen g.name = s.length := by
  rw [h.name, strlen, str_pad h.clean]

/-- `name[5]` tells whether there is room. -/
theorem room_iff (h : Editing g s) : g.name.getD 5 0 = 0 ↔ s.length < 6 := by
  rw [h.name, getD_pad h.clean]
  omega

/-- `name[0]` tells whether the string is empty. -/
theorem empty_iff (h : Editing g s) : g.name.getD 0 0 = 0 ↔ s = [] := by
  rw [h.name, getD_pad h.clean, Nat.le_zero, List.length_eq_zero_iff]

theorem append (h : Editing g s) (room : s.length < 6) {c : UInt8} (letter : isNameByte c) :
    Editing (g.withName (strcat g.name [c])) (s ++ [c]) where
  input := h.input
  name := by
    change strcat g.name [c] = _
    rw [h.name, strcat_pad h.clean (by omega) (ne_zero_of_isNameByte letter)]
  short := by
    rw [List.length_append, List.length_singleton]
    omega
  letters := List.forall_mem_append.2 ⟨h.letters, List.forall_mem_singleton.2 letter⟩

theorem delete (h : Editing g s) (typed : s ≠ []) :
    Editing (g.withName (deleteLast g.name)) s.dropLast where
  input := h.input
  name := by
    have short := h.short
    change deleteLast g.name = _
    rw [deleteLast, h.strlen_name, h.name, set_pad typed (by omega)]
  short := by
    rw [List.length_dropLast]
    exact (Nat.sub_le _ _).trans h.short
  letters c hc := h.letters c (List.dropLast_subset s hc)

/-- One scancode leaves the game, submits the name, or is handled as by the reference editor. -/
theorem keyboardEventHandler (h : Editing g s) (scanCode : UInt8) :
    (scanCode = escBreak ∧ keyboardEventHandler scanCode g = g.withState .exit) ∨
    (scanCode = enterMake ∧ s ≠ [] ∧ keyboardEventHandler scanCode g = gameSaveAndDisplayLb g) ∨
    (¬ (scanCode = enterMake ∧ s ≠ []) ∧ ∃ name, keyboardEventHandler scanCode g = g.withName name ∧
      Editing (g.withName name) (edit s scanCode)) := by
  unfold LabComputers.keyboardEventHandler
  by_cases esc : scanCode = escBreak
  · rw [if_pos esc]
    exact Or.inl ⟨esc, rfl⟩
  rw [if_neg esc, h.input]
  simp only [editName_eq]
  have keep : g = g.withName g.name := rfl
  cases letter : nameByte scanCode with
  | some c =>
    have notEnter : scanCode ≠ enterMake := by
      rintro rfl
      cases (show nameByte enterMake = none by decide).symm.trans letter
    have notDel : scanCode ≠ delMake := by
      rintro rfl
      cases (show nameByte delMake = none by decide).symm.trans letter
    refine Or.inr (Or.inr ⟨fun enter => notEnter enter.1, ?_⟩)
    unfold edit
    simp only [letter]
    by_cases room : s.length < 6
    · rw [if_pos (h.room_iff.2 room), if_pos room]
      exact ⟨_, rfl, h.append room (isNameByte_of_nameByte letter)⟩
    · rw [if_neg fun full => room (h.room_iff.1 full), if_neg room]
      simp only [if_neg notDel, if_neg notEnter, ite_self]
      exact ⟨_, keep, h⟩
  | none =>
    unfold edit
    simp only [letter, ite_self]
    by_cases typed : s = []
    · have unchanged : (if scanCode = delMake then s.dropLast else s) = s := by
        rw [typed, List.dropLast_nil, ite_self]
      rw [if_pos (h.empty_iff.2 typed), unchanged]
      exact Or.inr (Or.inr ⟨fun enter => enter.2 typed, _, keep, h⟩)
    · rw [if_neg fun empty => typed (h.empty_iff.1 empty)]
      by_cases del : scanCode = delMake
      · have notEnter : scanCode ≠ enterMake := by
          rw [del]
          decide
        rw [if_pos del, if_pos del]
        exact Or.inr (Or.inr ⟨fun enter => notEnter enter.1, _, rfl, h.delete typed⟩)
      · rw [if_neg del, if_neg del]
        by_cases enter : scanCode = enterMake
        · rw [if_pos enter]
          exact Or.inr (Or.inl ⟨enter, typed, rfl⟩)
        · rw [if_neg enter]
          exact Or.inr (Or.inr ⟨fun enter' => enter enter'.1, _, keep, h⟩)

/-- No scancode touches a byte outside of `name`. -/
theorem touched_in_bounds (h : Editing g s) {scanCode : UInt8} {k : ℤ}
    (hk : k ∈ touched scanCode g.name) : 0 ≤ k ∧ k < 7 := by
  have short := h.short
  have len := h.strlen_name
  rw [touched, List.mem_cons, List.mem_cons] at hk
  rcases hk with rfl | rfl | hk
  · decide
  · decide
  · split at hk
    · next letter =>
      split_ifs at letter with room
      have less := h.room_iff.1 room
      obtain ⟨n, hn, rfl⟩ := List.mem_map.1 hk
      have := List.mem_range.1 hn
      simp only [Int.ofNat_eq_natCast]
      omega
    · split_ifs at hk with del
      · have positive : 0 < s.length := List.length_pos_iff.2 fun empty => del.1 (h.empty_iff.2 empty)
        rcases List.mem_cons.1 hk with rfl | hk
        · omega
        · obtain ⟨n, hn, rfl⟩ := List.mem_map.1 hk
          have := List.mem_range.1 hn
          simp only [Int.ofNat_eq_natCast]
          omega
      · exact absurd hk List.not_mem_nil

end Editing

/-! ## Runs -/

theorem handle_scancode {e : Interrupt} {scanCode : UInt8} (h : scancode? e = some scanCode)
    (g : Globals) : ∃ g₁, core g₁ = core g ∧ handle g e = keyboardEventHandler scanCode g₁ := by
  rcases e with _ | replies | _
  · cases h
  · simp only [scancode?] at h
    split_ifs at h with read
    obtain rfl := Option.some.inj h
    rw [handle, kbcIh_value, if_pos read.1]
    exact kbcScancode_single read.2 g
  · cases h

/-- The name is still being typed in, it is as before, and nothing was submitted. -/
structure KeepsInput (g g' : Globals) : Prop where
  gameState : g'.gameState = .lbInput
  name : g'.name = g.name
  calls : Extends g g'

theorem KeepsInput.trans {g g₁ g₂ : Globals} (first : KeepsInput g g₁) (second : KeepsInput g₁ g₂) :
    KeepsInput g g₂ := by
  refine ⟨second.gameState, second.name.trans first.name, ?_⟩
  obtain ⟨cs, calls, other⟩ := first.calls
  obtain ⟨cs', calls', other'⟩ := second.calls
  refine ⟨cs' ++ cs, by rw [calls', calls, List.append_assoc], ?_⟩
  exact List.forall_mem_append.2 ⟨other', other⟩

section KeepsInput

variable {g : Globals} (input : g.gameState = .lbInput)
include input

theorem keepsInput_of_core {g' : Globals} (h : core g' = core g) : KeepsInput g g' := by
  have same := sameGame_of_core h
  exact ⟨same.gameState.trans input, same.name, [], same.calls, List.forall_mem_nil _⟩

/-- While the name is typed in, there is nothing to click on. -/
theorem mouseEventHandler_keepsInput (event : MouseEvent) :
    KeepsInput g (mouseEventHandler event g) := by
  have extended : ∀ g', g'.calls = .mouseEventHandler event :: g.calls → Extends g g' :=
    fun g' calls => ⟨[.mouseEventHandler event], calls, by simp [Call.isSubmission]⟩
  rcases mouseEventHandler_cases event g with e | e | ⟨running, -⟩ | ⟨running, -⟩ | ⟨menu, -⟩
  · rw [e]
    exact ⟨input, rfl, extended _ rfl⟩
  · rw [e]
    exact ⟨input, rfl, extended _ rfl⟩
  · exact absurd (running.symm.trans input) (by decide)
  · exact absurd (running.symm.trans input) (by decide)
  · exact absurd (menu.symm.trans input) (by decide)

theorem handle_mouse_keepsInput (replies : ℕ → Port.Reply) :
    KeepsInput g (handle g (.mouse replies)) := by
  rw [handle, mouseIh_value]
  split_ifs
  · rcases mouseByte_cases (replies 2).val.toUInt8 (clearPacket g) with h | ⟨g₁, arr, h₁, h⟩
    · exact keepsInput_of_core input (h.trans (core_clearPacket g))
    · have before := keepsInput_of_core input (h₁.trans (core_clearPacket g))
      have handled := mouseEventHandler_keepsInput before.gameState (mouseEvent arr)
      exact (before.trans handled).trans (keepsInput_of_core handled.gameState h)
  · exact keepsInput_of_core input (core_clearPacket g)

theorem handle_timer_keepsInput (rtcHours rtcMinutes : UInt8) (rand : ℕ → ℕ) :
    KeepsInput g (handle g (.timer rtcHours rtcMinutes rand)) := by
  by_cases tick : ticks g (.timer rtcHours rtcMinutes rand) = true
  · obtain ⟨g₁, h₁, h'⟩ := handle_timer tick
    have input₁ := (gameState_of_core h₁).trans input
    rw [h']
    rcases gameIh_cases rand g₁ with ⟨running, -⟩ | ⟨ended, -⟩ | ⟨ended, -⟩ | ⟨-, -, e'⟩
    · exact absurd (running.symm.trans input₁) (by decide)
    · exact absurd (ended.symm.trans input₁) (by decide)
    · exact absurd (ended.symm.trans input₁) (by decide)
    · rw [e']
      exact keepsInput_of_core input h₁
  · have between : handle g (.timer rtcHours rtcMinutes rand) = g.between :=
      if_neg fun frame => tick (decide_eq_true frame)
    rw [between]
    exact keepsInput_of_core input rfl

/-- An interrupt without a scancode for `keyboard_event_handler` leaves the input alone. -/
theorem handle_no_scancode {e : Interrupt} (none : scancode? e = none) :
    KeepsInput g (handle g e) := by
  rcases e with replies | replies | ⟨rtcHours, rtcMinutes, rand⟩
  · exact handle_mouse_keepsInput input replies
  · rw [handle, kbcIh_value]
    split_ifs with read
    · have two : (replies 2).val.toUInt8 = kbcScancode2B := by
        by_contra single
        simp only [scancode?] at none
        rw [if_pos ⟨read, single⟩] at none
        cases none
      rw [kbcScancode, if_pos two]
      exact keepsInput_of_core input rfl
    · exact keepsInput_of_core input rfl
  · exact handle_timer_keepsInput input rtcHours rtcMinutes rand

end KeepsInput

/-- The interrupt submits the name that is shown. -/
def SubmitsName (g : Globals) (e : Interrupt) : Prop :=
  (handle g e).calls = .addScore (toInt g.points) g.name g.lb :: g.calls

theorem Extends.not_submits {g : Globals} {e : Interrupt} (h : Extends g (handle g e)) :
    ¬ SubmitsName g e := by
  obtain ⟨cs, calls, other⟩ := h
  intro submits
  have only : cs = [.addScore (toInt g.points) g.name g.lb] :=
    List.append_cancel_right (calls.symm.trans submits)
  have := (other _ (only ▸ List.mem_singleton_self _)).1
  cases this

namespace Editing

variable {g : Globals} {s : List UInt8}

theorem of_core (h : Editing g s) {g₁ : Globals} (h₁ : core g₁ = core g) : Editing g₁ s := by
  have same := sameGame_of_core h₁
  exact { h with input := same.gameState.trans h.input, name := same.name.trans h.name }

/-- An interrupt that does not leave the input is handled as by the reference editor. -/
theorem handle (h : Editing g s) {e : Interrupt} (stays : (handle g e).gameState = .lbInput) :
    Editing (handle g e) ((scancode? e).toList.foldl edit s) := by
  cases code : scancode? e with
  | none =>
    have kept := handle_no_scancode h.input code
    exact { h with input := stays, name := kept.name.trans h.name }
  | some scanCode =>
    obtain ⟨g₁, h₁, h'⟩ := handle_scancode code g
    rw [h'] at stays ⊢
    rcases (h.of_core h₁).keyboardEventHandler scanCode with ⟨-, e'⟩ | ⟨-, -, e'⟩ |
      ⟨-, name, e', next⟩ <;> rw [e'] at stays ⊢
    · cases stays
    · cases stays
    · exact next

theorem run (h : Editing g s) {es : List Interrupt}
    (stays : Transition.EveryState LabComputers.handle (·.gameState = .lbInput) g es) :
    Editing (Transition.run LabComputers.handle g es)
      ((es.filterMap scancode?).foldl edit s) := by
  induction es generalizing g s with
  | nil => exact h
  | cons e es ih =>
    obtain ⟨-, later⟩ := (Transition.everyState_cons _).1 stays
    have next := h.handle (later [] List.nil_prefix)
    have rest := ih next later
    rw [← List.foldl_append] at rest
    have codes : (scancode? e).toList ++ es.filterMap scancode? = (e :: es).filterMap scancode? := by
      cases code : scancode? e with
      | none => rw [List.filterMap_cons_none code]; rfl
      | some scanCode => rw [List.filterMap_cons_some code]; rfl
    rwa [codes] at rest

/-- The name is submitted by Enter, if it is not empty, and by nothing else. -/
theorem submits_iff (h : Editing g s) (e : Interrupt) :
    SubmitsName g e ↔ scancode? e = some enterMake ∧ s ≠ [] := by
  cases code : scancode? e with
  | none =>
    apply iff_of_false (handle_no_scancode h.input code).calls.not_submits
    rintro ⟨enter, -⟩
    cases enter
  | some scanCode =>
    obtain ⟨g₁, h₁, h'⟩ := handle_scancode code g
    have calls := (sameGame_of_core h₁).calls
    rw [Option.some.injEq]
    rcases (h.of_core h₁).keyboardEventHandler scanCode with ⟨esc, e'⟩ | ⟨enter, typed, e'⟩ |
      ⟨other, name, e', -⟩
    · refine iff_of_false ?_ fun enter => absurd (esc.symm.trans enter.1) (by decide)
      apply Extends.not_submits
      rw [h', e']
      exact ⟨[], calls, List.forall_mem_nil _⟩
    · apply iff_of_true _ ⟨enter, typed⟩
      rw [SubmitsName, h', e']
      exact (congrArg (fun g => (gameSaveAndDisplayLb g).calls) h₁ :)
    · apply iff_of_false _ other
      apply Extends.not_submits
      rw [h', e']
      exact ⟨[], calls, List.forall_mem_nil _⟩

end Editing

/-- From the moment `game_leaderboard` asks for the name, and as long as the input is not left, `name`
holds the string of the reference editor and zero bytes after it; Enter submits it if and only if it is
not empty, and no scancode touches a byte outside of `name`. -/
theorem name_edited {g : Globals} (enters : (gameLeaderboard g).gameState = .lbInput)
    {es : List Interrupt}
    (stays : Transition.EveryState handle (·.gameState = .lbInput) (gameLeaderboard g) es) :
    let g' := Transition.run handle (gameLeaderboard g) es
    let s := (es.filterMap scancode?).foldl edit []
    g'.name = s ++ zeros (7 - s.length) ∧ s.length ≤ 6 ∧
      (∀ e, SubmitsName g' e ↔ scancode? e = some enterMake ∧ s ≠ []) ∧
      ∀ scanCode, ∀ k ∈ touched scanCode g'.name, 0 ≤ k ∧ k < 7 := by
  have start : Editing (gameLeaderboard g) [] :=
    ⟨enters, rfl, Nat.zero_le _, List.forall_mem_nil _⟩
  have editing := start.run stays
  exact ⟨editing.name, editing.short, editing.submits_iff, fun _ _ => editing.touched_in_bounds⟩

/-- A state at the end of a game with one hit. -/
def oneHit : Globals := { loopStart .zero with points := 1 }

/-- The key A is typed. -/
theorem name_edited_A :
    (Transition.run handle (gameLeaderboard oneHit) [.kbc (key 0x1e)]).name = ascii "A" ++ zeros 6 := by
  have enters : (gameLeaderboard oneHit).gameState = .lbInput := by
    change (if compareScore (toInt 1) .zero then GameState.lbInput else .leaderboard) = _
    rw [if_pos (by decide)]
  have typed : (handle (gameLeaderboard oneHit) (.kbc (key 0x1e))).gameState = .lbInput := by
    rw [handle_key _ (by decide) (by decide),
      keyboardEventHandler_A (g := (gameLeaderboard oneHit).singleByte) enters rfl]
    exact enters
  have stays : Transition.EveryState handle (·.gameState = .lbInput) (gameLeaderboard oneHit)
      [.kbc (key 0x1e)] := by
    refine (Transition.everyState_cons handle).2 ⟨enters, fun pre hpre => ?_⟩
    rw [List.prefix_nil.1 hpre]
    exact typed
  have codes : [Interrupt.kbc (key 0x1e)].filterMap scancode? = [0x1e] :=
    List.filterMap_cons_some (show scancode? (.kbc (key 0x1e)) = some 0x1e by decide)
  have edited := (name_edited enters stays).1
  rw [codes] at edited
  exact edited

end LabComputers

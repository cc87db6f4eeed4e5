import LabComputers.Proj.LongGameProof
import LabComputers.Proj.TextProof

/-!
# Two-byte scancodes

`kbc_ih` remembers the prefix `0xE0` in `flag2Bytes`, but nothing reads the flag: the second byte is
handled like a scancode of one byte.  `pair_ignored_iff` says for which second bytes and in which states
this goes unnoticed.
-/

namespace LabComputers

open CString Port

/-! ## Streams of keyboard bytes -/

/-- A scancode of one or of two bytes. -/
inductive Scancode where
  | single (byte : UInt8) (plain : byte ≠ kbcScancode2B)
  | extended (byte : UInt8) (plain : byte ≠ kbcScancode2B)

/-- The bytes of a scancode in the order of their arrival. -/
def Scancode.bytes : Scancode → List UInt8
  | single byte _ => [byte]
  | extended byte _ => [kbcScancode2B, byte]

/-- Calls of `kbc_ih`, by their replies, that deliver the bytes of some scancodes. -/
def Types (rss : List (ℕ → Reply)) (codes : List Scancode) : Prop :=
  List.Forall₂ KeyDelivers rss (codes.flatMap Scancode.bytes)

/-! ## The effect on the game -/

theorem core_editName (scanCode : UInt8) (g : Globals) :
    core (editName scanCode g) = editName scanCode (core g) := by
  have name : (core g).name = g.name := rfl
  rw [editName_eq, editName_eq, name]
  cases if g.name.getD 5 0 = 0 then nameByte scanCode else none with
  | some c => rfl
  | none =>
    simp only
    split_ifs <;> rfl

/-- What a scancode does to the game does not depend on the scancode flags. -/
theorem core_keyboardEventHandler (scanCode : UInt8) (g : Globals) :
    core (keyboardEventHandler scanCode g) = keyboardEventHandler scanCode (core g) := by
  have state : (core g).gameState = g.gameState := rfl
  unfold keyboardEventHandler
  by_cases esc : scanCode = escBreak
  · rw [if_pos esc, if_pos esc]
    rfl
  · rw [if_neg esc, if_neg esc, state]
    cases g.gameState <;> simp only
    case lbInput => exact core_editName scanCode g
    all_goals split_ifs <;> rfl

/-- One byte, as far as the game is concerned: the prefix is dropped. -/
def gameKey (g : Globals) (byte : UInt8) : Globals :=
  if byte = kbcScancode2B then g else keyboardEventHandler byte g

theorem core_kbcScancode (byte : UInt8) (g : Globals) :
    core (kbcScancode byte g) = gameKey (core g) byte := by
  unfold gameKey
  split_ifs with two
  · rw [kbcScancode, if_pos two]
    rfl
  · obtain ⟨g₁, h₁, e⟩ := kbcScancode_single two g
    rw [e, core_keyboardEventHandler, h₁]

theorem core_run_keys {rss : List (ℕ → Reply)} {bytes : List UInt8}
    (delivered : List.Forall₂ KeyDelivers rss bytes) (g : Globals) :
    core (Transition.run handle g (rss.map .kbc)) = bytes.foldl gameKey (core g) := by
  induction delivered generalizing g with
  | nil => rfl
  | cons delivers _ ih =>
    rw [List.map_cons, Transition.run_cons, ih, List.foldl_cons, delivers.handle_eq,
      core_kbcScancode]

/-! ## Scancodes that are ignored -/

/-- The scancode has no effect in this state. -/
structure Ignored (scanCode : UInt8) (g : Globals) : Prop where
  escape : scanCode = escBreak → g.gameState = .exit
  pause : scanCode = pBreak → g.gameState ≠ .playing ∧ g.gameState ≠ .pause
  letter : g.gameState = .lbInput → (nameByte scanCode).isSome → g.name.getD 5 0 ≠ 0
  delete : g.gameState = .lbInput → scanCode = delMake → g.name.getD 0 0 = 0
  submit : g.gameState = .lbInput → scanCode = enterMake → g.name.getD 0 0 = 0
  restart : g.gameState = .leaderboard → scanCode ≠ enterMake

/-- What the program shows of a key: the game state, the name and the leaderboard. -/
def SameInput (g g' : Globals) : Prop :=
  g'.gameState = g.gameState ∧ g'.name = g.name ∧ g'.lb = g.lb

theorem strcat_ne {name : List UInt8} {c : UInt8} (nonzero : c ≠ 0) : strcat name [c] ≠ name := by
  intro same
  have longer := str_strcat name [c]
  rw [same, str_eq_self (s := [c]) (by simpa using nonzero)] at longer
  have := congrArg List.length longer
  rw [List.length_append, List.length_singleton] at this
  omega

theorem deleteLast_ne {name : List UInt8} (typed : name.getD 0 0 ≠ 0) : deleteLast name ≠ name := by
  intro same
  have shorter : str (deleteLast name) = (str name).take (strlen name - 1) := str_set_zero _ _
  rw [same] at shorter
  have positive : 0 < strlen name := by
    by_contra empty
    cases name with
    | nil => exact typed rfl
    | cons c name =>
      rw [List.getD_cons_zero] at typed
      rw [strlen, str, List.takeWhile_cons_of_pos (by simpa using typed)] at empty
      exact empty (Nat.zero_lt_succ _)
  have := congrArg List.length shorter
  rw [List.length_take, ← strlen] at this
  omega

theorem keyboardEventHandler_of_ignored {scanCode : UInt8} {g : Globals} (h : Ignored scanCode g) :
    keyboardEventHandler scanCode g = g := by
  unfold keyboardEventHandler
  by_cases esc : scanCode = escBreak
  · rw [if_pos esc, ← h.escape esc]
  · rw [if_neg esc]
    cases state : g.gameState <;> simp only
    case playing => exact if_neg fun p => (h.pause p).1 state
    case pause => exact if_neg fun p => (h.pause p).2 state
    case leaderboard => exact if_neg (h.restart state)
    case lbInput =>
      rw [editName_eq]
      split
      · next c hc =>
        split_ifs at hc with room
        exact absurd room (h.letter state (by rw [hc]; rfl))
      · split_ifs with empty del enter
        · rfl
        · exact absurd (h.delete state del) empty
        · exact absurd (h.submit state enter) empty
        · rfl

theorem keyboardEventHandler_input {scanCode : UInt8} (stays : scanCode ≠ escBreak) {g : Globals}
    (input : g.gameState = .lbInput) : keyboardEventHandler scanCode g = editName scanCode g := by
  rw [keyboardEventHandler, if_neg stays, input]

/-- A scancode that is not ignored shows. -/
theorem ignored_of_sameInput {scanCode : UInt8} {g : Globals}
    (same : SameInput g (keyboardEventHandler scanCode g)) : Ignored scanCode g := by
  obtain ⟨state, name, -⟩ := same
  refine ⟨?_, ?_, ?_, ?_, ?_, ?_⟩
  · rintro rfl
    exact state.symm
  · rintro rfl
    rw [keyboardEventHandler, if_neg (by decide)] at state
    constructor
    · intro running
      rw [running] at state
      cases state
    · intro paused
      rw [paused] at state
      cases state
  · intro input letter room
    obtain ⟨c, hc⟩ := Option.isSome_iff_exists.1 letter
    have stays : scanCode ≠ escBreak := by
      rintro rfl
      cases (show nameByte escBreak = none by decide).symm.trans hc
    rw [keyboardEventHandler_input stays input, editName_eq, if_pos room, hc] at name
    have nonzero : c ≠ 0 := by
      rintro rfl
      exact absurd (isNameByte_of_nameByte hc) (by decide)
    exact strcat_ne nonzero name
  · rintro input rfl
    by_contra typed
    rw [keyboardEventHandler_input (by decide) input, editName_eq,
      show nameByte delMake = none by decide, ite_self] at name
    simp only at name
    rw [if_neg typed, if_pos trivial] at name
    exact deleteLast_ne typed name
  · rintro input rfl
    by_contra typed
    rw [keyboardEventHandler_input (by decide) input, editName_eq,
      show nameByte enterMake = none by decide, ite_self] at state
    simp only at state
    rw [if_neg typed, if_neg (by decide), if_pos trivial, input] at state
    cases state
  · rintro shown rfl
    rw [keyboardEventHandler, if_neg (by decide), shown] at state
    cases state

/-- A two-byte scancode received in any state changes neither the game state nor the name nor the
leaderboard, and the scancodes after it are handled as if it had not been received, if and only if its
second byte alone would have been ignored. -/
theorem pair_ignored_iff (g : Globals) {pair after : List (ℕ → Reply)} {post : List Scancode}
    {byte : UInt8} {plain : byte ≠ kbcScancode2B} (typedPair : Types pair [.extended byte plain])
    (typedAfter : Types after post) :
    let g₂ := Transition.run handle g (pair.map .kbc)
    (SameInput g g₂ ∧ core (Transition.run handle g₂ (after.map .kbc)) =
      core (Transition.run handle g (after.map .kbc))) ↔ Ignored byte g := by
  intro g₂
  have pressed : core g₂ = keyboardEventHandler byte (core g) := by
    rw [core_run_keys typedPair]
    change gameKey (gameKey (core g) kbcScancode2B) byte = _
    rw [gameKey, gameKey, if_pos rfl, if_neg plain]
  have game : Ignored byte (core g) ↔ Ignored byte g := ⟨fun h => { h with }, fun h => { h with }⟩
  rw [← game]
  constructor
  · rintro ⟨same, -⟩
    apply ignored_of_sameInput
    rw [← pressed]
    exact same
  · intro ignored
    rw [keyboardEventHandler_of_ignored ignored] at pressed
    refine ⟨⟨gameState_of_core pressed, ?_, ?_⟩, ?_⟩
    · exact (sameGame_of_core pressed).name
    · exact (sameGame_of_core pressed).lb
    · rw [core_run_keys typedAfter, core_run_keys typedAfter, pressed]

/-- The release of a media key whose second byte is none of the codes that the program knows. -/
theorem pair_ignored_volume :
    let g₂ := Transition.run handle (loopStart .zero) ([key kbcScancode2B, key 0xB0].map .kbc)
    SameInput (loopStart .zero) g₂ ∧ core g₂ = core (loopStart .zero) := by
  have typed : Types [key kbcScancode2B, key 0xB0] [.extended 0xB0 (by decide)] :=
    .cons (keyDelivers_key _) (.cons (keyDelivers_key _) .nil)
  have ignored : Ignored 0xB0 (loopStart .zero) :=
    ⟨fun h => absurd h (by decide), fun h => absurd h (by decide),
      fun h => absurd h (show ¬ GameState.menu = .lbInput by decide), fun _ h => absurd h (by decide),
      fun _ h => absurd h (by decide), fun _ => by decide⟩
  have nothing : Types [] [] := .nil
  exact (pair_ignored_iff (loopStart .zero) typed nothing).2 ignored

/-- The slash of the keypad, `0xE0` and `0x35`, types a dash. -/
theorem keypad_slash_types :
    ∃ g, Reachable g ∧ g.gameState = .lbInput ∧
      (Transition.run handle g ([key kbcScancode2B, key 0x35].map .kbc)).name ≠ g.name := by
  obtain ⟨g, leads, input, blank, -⟩ := exists_lbInput (n := 1) (by decide)
  refine ⟨g, leads.reachable, input, fun same => ?_⟩
  have typed : List.Forall₂ KeyDelivers [key kbcScancode2B, key 0x35] [kbcScancode2B, 0x35] :=
    .cons (keyDelivers_key _) (.cons (keyDelivers_key _) .nil)
  have pressed : core (Transition.run handle g ([key kbcScancode2B, key 0x35].map .kbc)) =
      editName 0x35 (core g) := by
    have stays : (0x35 : UInt8) ≠ escBreak := by decide
    rw [core_run_keys typed]
    exact keyboardEventHandler_input stays input
  have dash : (editName 0x35 (core g)).name = strcat g.name [45] := by
    have blank' : (core g).name = zeros 7 := blank
    rw [editName_eq, blank', if_pos (by decide), show nameByte 0x35 = some 45 by decide, blank]
    rfl
  have name := (congrArg Globals.name pressed).trans dash
  exact strcat_ne (by decide) (name.symm.trans same)

end LabComputers

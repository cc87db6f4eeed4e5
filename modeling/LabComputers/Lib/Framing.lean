import Mathlib.Data.List.TakeWhile

/-!
# Fixed-length framing of a symbol stream

A receiver collects the symbols of a stream into frames of `n` symbols.  The first symbol of a frame
has to satisfy `sync`; a symbol that does not is dropped when no frame is open, and taken as it is
inside a frame.  `feed_frames` says what a receiver makes of stray symbols followed by frames.
-/

namespace Framing

variable {α : Type*} (sync : α → Bool) (n : ℕ)

/-- Receive one symbol: the open frame after it, and the frame it completes. -/
def push (held : List α) (a : α) : List α × Option (List α) :=
  if held = [] ∧ sync a = false then ([], none)
  else if held.length + 1 = n then ([], some (held ++ [a]))
  else (held ++ [a], none)

/-- Receive a list of symbols: the open frame after them, and the completed frames in order. -/
def feed (held : List α) : List α → List α × List (List α)
  | [] => (held, [])
  | a :: as =>
    let r := push sync n held a
    let t := feed r.1 as
    (t.1, r.2.toList ++ t.2)

/-- A frame is well formed: it has the right length and starts with a `sync` symbol. -/
def Synced (frame : List α) : Prop := frame.length = n ∧ ∃ a rest, frame = a :: rest ∧ sync a = true

variable {sync n}

theorem feed_append (held as bs : List α) :
    feed sync n held (as ++ bs) =
      ((feed sync n (feed sync n held as).1 bs).1,
        (feed sync n held as).2 ++ (feed sync n (feed sync n held as).1 bs).2) := by
  induction as generalizing held with
  | nil => rfl
  | cons a as ih =>
    rw [List.cons_append, feed, feed, ih]
    simp only [List.append_assoc]

theorem feed_strays {strays : List α} (h : ∀ a ∈ strays, sync a = false) :
    feed sync n [] strays = ([], []) := by
  induction strays with
  | nil => rfl
  | cons a as ih =>
    have stray : push sync n [] a = ([], none) := if_pos ⟨rfl, h a (by simp)⟩
    rw [feed, stray, ih fun b hb => h b (by simp [hb])]
    rfl

/-- The symbols that are left of an open frame complete it. -/
theorem feed_rest {held : List α} (started : held ≠ []) {rest : List α} (more : rest ≠ [])
    (len : held.length + rest.length = n) : feed sync n held rest = ([], [held ++ rest]) := by
  induction rest generalizing held with
  | nil => exact absurd rfl more
  | cons a rest ih =>
    rw [List.length_cons] at len
    cases rest with
    | nil =>
      have last : push sync n held a = ([], some (held ++ [a])) := by
        rw [push, if_neg fun h => started h.1, if_pos (by simpa using len)]
      rw [feed, last]
      rfl
    | cons b rest =>
      have inside : push sync n held a = (held ++ [a], none) := by
        rw [List.length_cons] at len
        rw [push, if_neg fun h => started h.1, if_neg (by omega)]
      have len' : (held ++ [a]).length + (b :: rest).length = n := by
        simp only [List.length_append, List.length_cons, List.length_nil] at *
        omega
      rw [feed, inside]
      simp only [Option.toList_none, List.nil_append]
      rw [ih (by simp) (by simp) len']
      simp

theorem feed_frame (size : 1 < n) {frame : List α} (h : Synced sync n frame) :
    feed sync n [] frame = ([], [frame]) := by
  obtain ⟨len, a, rest, rfl, hs⟩ := h
  rw [List.length_cons] at len
  have first : push sync n [] a = ([a], none) := by
    rw [push, if_neg (by simp [hs]), if_neg (by simpa using by omega)]
    rfl
  rw [feed, first]
  simp only [Option.toList_none, List.nil_append]
  rw [feed_rest (by simp) (fun h => by simp [h] at len; omega) (by simpa using by omega)]
  rfl

/-- Stray symbols are dropped and the frames after them are received one by one. -/
theorem feed_frames (size : 1 < n) {strays : List α} (dropped : ∀ a ∈ strays, sync a = false)
    {frames : List (List α)} (synced : ∀ f ∈ frames, Synced sync n f) :
    feed sync n [] (strays ++ frames.flatten) = ([], frames) := by
  have received : feed sync n [] frames.flatten = ([], frames) := by
    induction frames with
    | nil => rfl
    | cons f frames ih =>
      rw [List.flatten_cons, feed_append, feed_frame size (synced f (by simp)),
        ih fun f' hf => synced f' (by simp [hf])]
      rfl
  rw [feed_append, feed_strays dropped, received]
  rfl

/-! ## Symbols with an origin -/

/-- Receiving does not look at more of a symbol than whether it may start a frame. -/
theorem feed_map {β : Type*} (f : β → α) (held as : List β) :
    feed sync n (held.map f) (as.map f) =
      ((feed (sync ∘ f) n held as).1.map f, (feed (sync ∘ f) n held as).2.map (List.map f)) := by
  have pushed : ∀ (held : List β) (a : β),
      push sync n (held.map f) (f a) =
        ((push (sync ∘ f) n held a).1.map f, (push (sync ∘ f) n held a).2.map (List.map f)) := by
    intro held a
    unfold push
    simp only [List.map_eq_nil_iff, List.length_map, Function.comp_apply]
    split_ifs <;> simp
  induction as generalizing held with
  | nil => rfl
  | cons a as ih =>
    rw [List.map_cons, feed, feed, pushed]
    simp only [ih, List.map_append]
    cases (push (sync ∘ f) n held a).2 <;> rfl

/-- Symbols that do not complete the open frame are added to it. -/
theorem feed_short {held : List α} (started : held ≠ []) {rest : List α}
    (len : held.length + rest.length < n) : feed sync n held rest = (held ++ rest, []) := by
  induction rest generalizing held with
  | nil => rw [feed, List.append_nil]
  | cons a rest ih =>
    rw [List.length_cons] at len
    have inside : push sync n held a = (held ++ [a], none) := by
      rw [push, if_neg fun h => started h.1, if_neg (by omega)]
    have len' : (held ++ [a]).length + rest.length < n := by
      rw [List.length_append, List.length_singleton]
      omega
    rw [feed, inside]
    simp only [Option.toList_none, List.nil_append]
    rw [ih (by simp) len', List.append_assoc, List.singleton_append]

/-- Symbols that complete the open frame. -/
theorem mem_feed_long {held : List α} (started : held ≠ []) {rest : List α} (more : held.length < n)
    (len : n ≤ held.length + rest.length) :
    held ++ rest.take (n - held.length) ∈ (feed sync n held rest).2 := by
  have taken : (rest.take (n - held.length)).length = n - held.length :=
    List.length_take_of_le (by omega)
  have completed : feed sync n held (rest.take (n - held.length)) =
      ([], [held ++ rest.take (n - held.length)]) := by
    apply feed_rest started
    · intro none
      rw [none, List.length_nil] at taken
      omega
    · omega
  have split := @feed_append _ sync n held (rest.take (n - held.length))
    (rest.drop (n - held.length))
  rw [List.take_append_drop, completed] at split
  rw [split]
  exact List.mem_append_left _ (List.mem_singleton_self _)

/-- What is left of a block when the symbols that cannot start a frame are dropped. -/
def residue (sync : α → Bool) (block : List α) : List α := block.dropWhile fun a => !sync a

theorem sync_of_residue {block : List α} {a : α} {rest : List α}
    (left : residue sync block = a :: rest) : sync a = true := by
  induction block with
  | nil => cases left
  | cons b block ih =>
    rw [residue, List.dropWhile_cons] at left
    split_ifs at left with stray
    · exact ih left
    · obtain ⟨rfl, -⟩ := List.cons.inj left
      simpa using stray

theorem feed_block {block : List α} (short : block.length < n) :
    feed sync n [] block = (residue sync block, []) := by
  have strays : ∀ a ∈ block.takeWhile fun a => !sync a, sync a = false := fun a ha => by
    simpa using List.mem_takeWhile_imp ha
  have split : feed sync n [] block = feed sync n [] (residue sync block) :=
    calc feed sync n [] block
        = feed sync n [] ((block.takeWhile fun a => !sync a) ++ residue sync block) := by
          rw [residue, List.takeWhile_append_dropWhile]
      _ = feed sync n [] (residue sync block) := by
          rw [feed_append, feed_strays strays]
          rfl
  have less : (residue sync block).length < n :=
    Nat.lt_of_le_of_lt (List.length_dropWhile_le _ _) short
  rw [split]
  cases left : residue sync block with
  | nil => rfl
  | cons a rest =>
    have starts := sync_of_residue left
    rw [left, List.length_cons] at less
    have first : push sync n [] a = ([a], none) := by
      rw [push, if_neg fun h => absurd h.2 (by simp [starts]), if_neg (by simpa using by omega)]
      rfl
    have next : feed sync n [a] rest = ([a] ++ rest, []) :=
      feed_short (by simp) (by rw [List.length_singleton]; omega)
    rw [feed, first, next]
    rfl

/-- All symbols of a frame have the same origin. -/
def Pure {ι : Type*} (origin : α → ι) (frame : List α) : Prop :=
  ∀ a ∈ frame, ∀ b ∈ frame, origin a = origin b

/-- The first block that is damaged and leaves an open frame is not followed by the symbols that
complete it. -/
def Harmless (sync : α → Bool) (n : ℕ) : List (List α) → Prop
  | [] => True
  | block :: blocks =>
    if block.length = n ∨ residue sync block = [] then Harmless sync n blocks
    else (residue sync block).length + blocks.flatten.length < n

instance decidableHarmless (sync : α → Bool) (n : ℕ) :
    (blocks : List (List α)) → Decidable (Harmless sync n blocks)
  | [] => inferInstanceAs (Decidable True)
  | block :: blocks =>
    have := decidableHarmless sync n blocks
    inferInstanceAs (Decidable (if block.length = n ∨ residue sync block = [] then _ else _))

theorem harmless_map {β : Type*} (f : β → α) (blocks : List (List β)) :
    Harmless sync n (blocks.map (List.map f)) ↔ Harmless (sync ∘ f) n blocks := by
  have left : ∀ block : List β, residue sync (block.map f) = (residue (sync ∘ f) block).map f := by
    intro block
    unfold residue
    rw [List.dropWhile_map]
    rfl
  induction blocks with
  | nil => exact Iff.rfl
  | cons block blocks ih =>
    simp only [List.map_cons, Harmless, left, List.length_map, List.map_eq_nil_iff, ih,
      ← List.map_flatten]

/-- The blocks are frames or parts of frames, and each has its own origin: then all frames that are
received have one origin if and only if the damage is harmless. -/
theorem pure_frames_iff {ι : Type*} {origin : α → ι} (size : 1 < n) {blocks : List (List α)}
    (frames : ∀ block ∈ blocks, Synced sync n block ∨ block.length < n)
    (own : ∀ block ∈ blocks, Pure origin block)
    (distinct : blocks.Pairwise fun b c => ∀ x ∈ b, ∀ y ∈ c, origin x ≠ origin y) :
    (∀ frame ∈ (feed sync n [] blocks.flatten).2, Pure origin frame) ↔ Harmless sync n blocks := by
  induction blocks with
  | nil => exact iff_of_true (List.forall_mem_nil _) trivial
  | cons block blocks ih =>
    obtain ⟨frame, frames⟩ := List.forall_mem_cons.1 frames
    obtain ⟨pure, own⟩ := List.forall_mem_cons.1 own
    obtain ⟨other, distinct⟩ := List.pairwise_cons.1 distinct
    have ih := ih frames own distinct
    rw [List.flatten_cons, Harmless, feed_append]
    rcases frame with synced | short
    · rw [if_pos (Or.inl synced.1), feed_frame size synced, ← ih]
      simp only [List.singleton_append, List.forall_mem_cons]
      exact and_iff_right pure
    · rw [feed_block short]
      simp only [List.nil_append]
      by_cases gone : residue sync block = []
      · rw [if_pos (Or.inr gone), gone, ih]
      · rw [if_neg (by rintro (full | none); exacts [by omega, gone none])]
        have less : (residue sync block).length < n :=
          Nat.lt_of_le_of_lt (List.length_dropWhile_le _ _) short
        by_cases few : (residue sync block).length + blocks.flatten.length < n
        · rw [feed_short gone few]
          exact iff_of_true (List.forall_mem_nil _) few
        · refine iff_of_false (fun all => ?_) few
          have mixed := all _ (mem_feed_long gone less (by omega))
          obtain ⟨a, ha⟩ := List.exists_mem_of_ne_nil _ gone
          have more : blocks.flatten.take (n - (residue sync block).length) ≠ [] := by
            intro none
            have := congrArg List.length none
            rw [List.length_take_of_le (by omega), List.length_nil] at this
            omega
          obtain ⟨b, hb⟩ := List.exists_mem_of_ne_nil _ more
          obtain ⟨later, hlater, hb'⟩ := List.mem_flatten.1 (List.mem_of_mem_take hb)
          have inBlock : a ∈ block := (List.dropWhile_sublist _).subset ha
          exact other later hlater a inBlock b hb'
            (mixed a (List.mem_append_left _ ha) b (List.mem_append_right _ hb))

end Framing

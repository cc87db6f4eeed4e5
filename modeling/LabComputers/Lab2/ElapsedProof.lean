import LabComputers.Lab2.Timer

/-!
# Waiting for seconds

`timer_test_int` and `delay_seconds` count 60 timer interrupts as a second.  Both end with the interrupt
that completes the last second, and `counter_seconds` does not wrap around although it is a `uint8_t`
in one of them (`seconds_waited`).
-/

namespace LabComputers.Lab2

open MessageLoop Transition

/-- The message is an interrupt of the timer. -/
def isInterrupt : Message Unit → Bool
  | .notified _ => true
  | _ => false

/-- The timer interrupts among the messages. -/
def interrupts (msgs : List (Message Unit)) : ℕ := msgs.countP isInterrupt

theorem interrupts_concat (msgs : List (Message Unit)) (m : Message Unit) :
    interrupts (msgs ++ [m]) = interrupts msgs + (isInterrupt m).toNat := by
  rw [interrupts, List.countP_append, interrupts, List.countP_singleton]
  cases isInterrupt m <;> rfl

/-- The seconds after `n + 1` interrupts. -/
theorem seconds_succ (n : ℕ) :
    (n + 1) / 60 = n / 60 + if (n + 1) % 60 = 0 then 1 else 0 := by
  split_ifs <;> omega

section Run

variable {κ : Type} [Add κ] [OfNat κ 1]

/-- The state after `n` interrupts, where `cast` counts the seconds in `κ`. -/
def elapsed (cast : ℕ → κ) (n : ℕ) : Elapsed κ := ⟨n, cast (n / 60), n / 60⟩

theorem run_secondsStep {cast : ℕ → κ} (succ : ∀ n, cast (n + 1) = cast n + 1)
    (msgs : List (Message Unit)) :
    run secondsStep (elapsed cast 0) msgs = elapsed cast (interrupts msgs) := by
  induction msgs using List.reverseRecOn with
  | nil => rfl
  | append_singleton msgs m ih =>
    rw [run_concat, ih, interrupts_concat]
    cases m with
    | failed => rfl
    | other => rfl
    | notified _ =>
      change (if (interrupts msgs + 1) % 60 = 0 then _ else _) = elapsed cast (interrupts msgs + 1)
      rw [elapsed, elapsed, seconds_succ]
      split_ifs
      · rw [succ]
        rfl
      · rfl

end Run

/-- A loop that waits for `seconds` ends exactly with interrupt `60 * seconds`. -/
theorem loop_seconds {κ : Type} [Add κ] [OfNat κ 1] {cast : ℕ → κ}
    (succ : ∀ n, cast (n + 1) = cast n + 1) {seconds : ℕ} {halted : Elapsed κ → Bool}
    (due : ∀ n ≤ seconds, ∀ s : Elapsed κ, s.counterSeconds = cast n →
      (halted s = true ↔ n = seconds)) (msgs : List (Message Unit)) :
    loop secondsStep halted (elapsed cast 0) msgs =
      elapsed cast (min (interrupts msgs) (60 * seconds)) := by
  obtain ⟨pre, handles, e⟩ := exists_handles secondsStep halted (elapsed cast 0) msgs
  have precise : ∀ q, interrupts q ≤ 60 * seconds →
      (halted (run secondsStep (elapsed cast 0) q) = true ↔
        False ∨ interrupts q = 60 * seconds) := by
    intro q below
    rw [run_secondsStep succ, due (interrupts q / 60) (by omega) _ rfl, false_or]
    omega
  have slow : ∀ q m, interrupts (q ++ [m]) ≤ interrupts q + 1 := by
    intro q m
    rw [interrupts_concat]
    exact Nat.add_le_add_left (isInterrupt m).toNat_le _
  obtain ⟨-, bound, last⟩ := handles.reaches rfl slow precise
  have handled : interrupts pre = min (interrupts msgs) (60 * seconds) := by
    rcases last with rfl | impossible | reached
    · exact (min_eq_left bound).symm
    · exact impossible.elim
    · have fewer : interrupts pre ≤ interrupts msgs := handles.begins.sublist.countP_le
      rw [min_eq_right (reached ▸ fewer), reached]
  rw [e, run_secondsStep succ, handled]

/-- `timer_test_int` and `delay_seconds` wait for exactly `60 * seconds` timer interrupts, print the
elapsed time once for each second, and take no notice of other messages. -/
theorem seconds_waited (seconds : UInt8) (msgs : List (Message Unit)) :
    let n := min (interrupts msgs) (60 * seconds.toNat)
    timerTestInt seconds msgs = ⟨n, n / 60, n / 60⟩ ∧
      delaySeconds seconds msgs = ⟨n, UInt8.ofNat (n / 60), n / 60⟩ ∧
      (UInt8.ofNat (n / 60)).toNat = n / 60 := by
  intro n
  have byte : ∀ k ≤ seconds.toNat, (UInt8.ofNat k).toNat = k := fun k small =>
    (UInt8.toNat_ofNat').trans (Nat.mod_eq_of_lt (by have := seconds.toNat_lt; omega))
  have int : timerTestInt seconds msgs = elapsed id n := by
    have succ : ∀ k : ℕ, id (k + 1) = id k + 1 := fun _ => rfl
    refine loop_seconds succ (fun k small s count => ?_) msgs
    rw [count, Bool.not_eq_true', decide_eq_false_iff_not, id]
    omega
  have uint8 : delaySeconds seconds msgs = elapsed UInt8.ofNat n := by
    refine loop_seconds (fun k => UInt8.ofNat_add k 1) (fun k small s count => ?_) msgs
    rw [count, Bool.not_eq_true', decide_eq_false_iff_not, UInt8.lt_iff_toNat_lt, byte k small]
    omega
  have few : n ≤ 60 * seconds.toNat := min_le_right _ _
  exact ⟨int, uint8, byte _ (by omega)⟩

end LabComputers.Lab2

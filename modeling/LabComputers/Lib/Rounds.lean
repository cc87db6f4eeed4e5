import Mathlib.Logic.Function.Iterate
import Mathlib.Order.Monotone.Basic

/-!
# Rounds at varying distances

A counter runs up to `interval r` and is then reset in round `r + 1`.  `step interval r` is the step
of round `r` when the steps are counted from zero; every step is that of a round or lies behind the
last one (`exists_round`).  A machine that waits and then changes its phase is in the phase that the
rounds so far give it (`iterate_eq`).
-/

namespace Rounds

variable (interval : ℕ → ℕ)

/-- The step of round `r`; the start counts as round zero. -/
def step : ℕ → ℕ
  | 0 => 0
  | r + 1 => step r + interval r + 1

theorem step_succ (r : ℕ) : step interval (r + 1) = step interval r + interval r + 1 := rfl

theorem strictMono_step : StrictMono (step interval) :=
  strictMono_nat_of_lt_succ fun r => by
    rw [step_succ]
    omega

theorem exists_round (k : ℕ) : ∃ r c, c ≤ interval r ∧ k = step interval r + c := by
  induction k with
  | zero => exact ⟨0, 0, Nat.zero_le _, rfl⟩
  | succ k ih =>
    obtain ⟨r, c, hc, rfl⟩ := ih
    rcases hc.lt_or_eq with more | rfl
    · exact ⟨r, c + 1, more, rfl⟩
    · exact ⟨r + 1, 0, Nat.zero_le _, rfl⟩

/-- A step is the one of a round exactly if the counter is at its end before it. -/
theorem exists_step_eq_iff {r c : ℕ} (hc : c ≤ interval r) :
    (∃ r', step interval r + c + 1 = step interval (r' + 1)) ↔ c = interval r := by
  constructor
  · rintro ⟨r', equal⟩
    have mono := (strictMono_step interval).lt_iff_lt (a := r) (b := r' + 1)
    have mono' := (strictMono_step interval).lt_iff_lt (a := r' + 1) (b := r + 1 + 1)
    have next := step_succ interval r
    have after := step_succ interval (r + 1)
    obtain rfl : r' = r := by omega
    rw [step_succ] at equal
    omega
  · rintro rfl
    exact ⟨r, rfl⟩

/-- A machine whose phase changes in each round. -/
theorem iterate_eq {σ : Type*} {f : σ → σ} {phase : ℕ → ℕ → σ}
    (wait : ∀ r c, c < interval r → f (phase r c) = phase r (c + 1))
    (round : ∀ r, f (phase r (interval r)) = phase (r + 1) 0) {r c : ℕ} (hc : c ≤ interval r) :
    f^[step interval r + c] (phase 0 0) = phase r c := by
  induction r generalizing c with
  | zero =>
    induction c with
    | zero => rfl
    | succ c ih =>
      have before := ih (by omega)
      rw [← Nat.add_assoc, Function.iterate_succ_apply', before, wait 0 c hc]
  | succ r ihr =>
    induction c with
    | zero =>
      rw [Nat.add_zero, step_succ, Function.iterate_succ_apply', ihr le_rfl, round]
    | succ c ih =>
      have before := ih (by omega)
      rw [← Nat.add_assoc, Function.iterate_succ_apply', before, wait (r + 1) c hc]

end Rounds

import Mathlib.Data.List.Induction
import Mathlib.Tactic.Common
import LabComputers.Lib.Transition

/-!
# Loops over messages

The main loop of a driver tests its condition before it receives the next message.  `Handles` says
which messages such a loop handles: it is a beginning of all messages, and `exists_handles` shows that
the loop is a plain run on it.  `Handles.reaches` is the rule for a condition on a quantity that grows by
at most one with each message: the loop stops as soon as the quantity has the value it waits for, and
never later.  A watchdog is such a loop; its quantity is the number of ticks since the last event.
-/

namespace MessageLoop

open Transition

/-- What a driver receives: an error, a message of another kind, or a notification. -/
inductive Message (ν : Type*) where
  | failed
  | other
  | notified (notification : ν)

section Loop

variable {σ ι : Type*} (step : σ → ι → σ) (halted : σ → Bool)

/-- Handle the messages one by one until the state has halted. -/
def loop : σ → List ι → σ
  | s, [] => s
  | s, m :: ms => if halted s then s else loop (step s m) ms

/-- The messages `pre` are those of `ms` that the loop started in `s` handles. -/
structure Handles (s : σ) (ms pre : List ι) : Prop where
  begins : pre <+: ms
  awake : ∀ q m, q ++ [m] <+: pre → halted (run step s q) = false
  stops : pre = ms ∨ halted (run step s pre) = true

theorem exists_handles (s : σ) (ms : List ι) :
    ∃ pre, Handles step halted s ms pre ∧ loop step halted s ms = run step s pre := by
  induction ms generalizing s with
  | nil =>
    refine ⟨[], ⟨List.prefix_rfl, fun q m part => ?_, .inl rfl⟩, rfl⟩
    simp at part
  | cons m ms ih =>
    cases state : halted s with
    | true =>
      refine ⟨[], ⟨List.nil_prefix, fun q m part => ?_, .inr state⟩, ?_⟩
      · simp at part
      · rw [loop, if_pos state, run_nil]
    | false =>
      obtain ⟨pre, ⟨begins, awake, stops⟩, e⟩ := ih (step s m)
      refine ⟨m :: pre, ⟨(List.prefix_cons_inj m).2 begins, fun q m' part => ?_, ?_⟩, ?_⟩
      · cases q with
        | nil => exact state
        | cons a q =>
          rw [List.cons_append] at part
          obtain ⟨rfl, rest⟩ := List.cons_prefix_cons.1 part
          exact awake q m' rest
      · exact stops.imp (congrArg (m :: ·)) id
      · rw [loop, if_neg (by simp [state]), e, run_cons]

variable {step halted}

/-- The condition of the loop is `other` or that a quantity has reached `N`, which starts at zero and
grows by at most one with each message: then the quantity never exceeds `N`, and it is `N` at the end
unless the loop stopped for the other reason or the messages have run out. -/
theorem Handles.reaches {s : σ} {ms pre : List ι} (h : Handles step halted s ms pre)
    {other : List ι → Prop} {quantity : List ι → ℕ} {N : ℕ} (zero : quantity [] = 0)
    (slow : ∀ q m, quantity (q ++ [m]) ≤ quantity q + 1)
    (precise : ∀ q, quantity q ≤ N →
      (halted (run step s q) = true ↔ other q ∨ quantity q = N)) :
    (∀ q m, q ++ [m] <+: pre → ¬ other q ∧ quantity q < N) ∧
      quantity pre ≤ N ∧ (pre = ms ∨ other pre ∨ quantity pre = N) := by
  have bound : ∀ q, q <+: pre → quantity q ≤ N := by
    intro q
    induction q using List.reverseRecOn with
    | nil =>
      intro _
      exact zero.le.trans (Nat.zero_le N)
    | append_singleton q m ih =>
      intro part
      have before := ih ((List.prefix_append q [m]).trans part)
      have awake := h.awake q m part
      have below : quantity q ≠ N := fun there => by
        rw [(precise q before).2 (.inr there)] at awake
        cases awake
      exact (slow q m).trans (by omega)
  refine ⟨fun q m part => ?_, bound pre List.prefix_rfl, ?_⟩
  · have before := bound q ((List.prefix_append q [m]).trans part)
    have awake := h.awake q m part
    rw [Bool.eq_false_iff, ne_eq, precise q before, not_or] at awake
    exact ⟨awake.1, by omega⟩
  · exact h.stops.imp id (precise pre (bound pre List.prefix_rfl)).1

end Loop

/-! ## Watchdogs -/

section Watchdog

variable {σ ι : Type*}

/-- What a notification of a watchdog carries: an event, and a tick of the timer. -/
structure Signal (ι : Type*) where
  event : Option ι
  tick : Bool

/-- The event of a message. -/
def event : Message (Signal ι) → Option ι
  | .notified signal => signal.event
  | _ => none

/-- The message carries a tick. -/
def tick : Message (Signal ι) → Bool
  | .notified signal => signal.tick
  | _ => false

/-- An event is handled and resets the counter; a tick advances it. -/
def watch (on : σ → ι → σ) (s : σ × ℕ) (m : Message (Signal ι)) : σ × ℕ :=
  let s := match event m with
    | some e => (on s.1 e, 0)
    | none => s
  if tick m then (s.1, s.2 + 1) else s

/-- The ticks since the last event, the messages being given latest first. -/
def idleBack : List (Message (Signal ι)) → ℕ
  | [] => 0
  | m :: ms => (tick m).toNat + if (event m).isSome then 0 else idleBack ms

/-- The ticks since the last event. -/
def idle (ms : List (Message (Signal ι))) : ℕ := idleBack ms.reverse

theorem idle_concat (ms : List (Message (Signal ι))) (m : Message (Signal ι)) :
    idle (ms ++ [m]) = (tick m).toNat + if (event m).isSome then 0 else idle ms := by
  rw [idle, List.reverse_append, List.reverse_singleton, List.singleton_append, idleBack, idle]

theorem idle_concat_le (ms : List (Message (Signal ι))) (m : Message (Signal ι)) :
    idle (ms ++ [m]) ≤ idle ms + 1 := by
  have one := (tick m).toNat_le
  rw [idle_concat]
  split_ifs <;> omega

/-- The counter of a watchdog is the number of ticks since the last event, and the events are handled
as if there were no watchdog. -/
theorem run_watch (on : σ → ι → σ) (s : σ) (ms : List (Message (Signal ι))) :
    run (watch on) (s, 0) ms = (run on s (ms.filterMap event), idle ms) := by
  induction ms using List.reverseRecOn with
  | nil => rfl
  | append_singleton ms m ih =>
    rw [run_concat, ih, idle_concat, List.filterMap_append, run_append, watch]
    cases carried : event m <;> cases ticked : tick m <;> simp [carried, Nat.add_comm]

/-- A watchdog stops at the first message after which it is no longer `alive` or `rate * limit` ticks
have passed since the last event. -/
theorem watchdog {on : σ → ι → σ} (alive : σ → Bool) {rate limit : ℕ} (positive : 0 < rate) {s : σ}
    {ms pre : List (Message (Signal ι))}
    (h : Handles (watch on) (fun s => !(alive s.1 && decide (s.2 / rate < limit))) (s, 0) ms pre) :
    (∀ q m, q ++ [m] <+: pre →
      alive (run on s (q.filterMap event)) = true ∧ idle q < rate * limit) ∧
    (pre = ms ∨ alive (run on s (pre.filterMap event)) = false ∨ idle pre = rate * limit) := by
  have precise : ∀ q : List (Message (Signal ι)), idle q ≤ rate * limit →
      ((!(alive (run (watch on) (s, 0) q).1 &&
        decide ((run (watch on) (s, 0) q).2 / rate < limit))) = true ↔
          alive (run on s (q.filterMap event)) = false ∨ idle q = rate * limit) := by
    intro q below
    have early : idle q / rate < limit ↔ idle q < rate * limit := by
      rw [Nat.div_lt_iff_lt_mul positive, Nat.mul_comm]
    rw [run_watch]
    cases alive (run on s (q.filterMap event)) with
    | false => simp
    | true =>
      simp only [early, Bool.true_and, Bool.not_eq_true', decide_eq_false_iff_not, reduceCtorEq,
        false_or]
      omega
  obtain ⟨before, -, last⟩ := h.reaches rfl idle_concat_le precise
  refine ⟨fun q m part => ?_, last⟩
  obtain ⟨living, early⟩ := before q m part
  exact ⟨by simpa using living, early⟩

end Watchdog

end MessageLoop

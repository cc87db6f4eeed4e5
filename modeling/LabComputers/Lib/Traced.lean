import Mathlib.Data.Int.Notation

/-!
# Runs that report events and may stop

A function that calls the outside world reports the calls as events, in order, and either returns a
value or stops, after which nothing more is reported.  Runs compose as a monad; the lemmas about
`bind` say what a composed run reports and how it ends.
-/

namespace Traced

/-- The events of a run, and the value it returns or the reason why it stops. -/
structure Run (ε σ α : Type) where
  events : List ε
  result : Except σ α

namespace Run

variable {ε σ α β : Type}

/-- Run `t`, then continue with its value if it returns one. -/
def bind (t : Run ε σ α) (f : α → Run ε σ β) : Run ε σ β :=
  match t.result with
  | .ok a => ⟨t.events ++ (f a).events, (f a).result⟩
  | .error s => ⟨t.events, .error s⟩

instance : Monad (Run ε σ) where
  pure a := ⟨[], .ok a⟩
  bind := bind

/-- Report an event. -/
def report (e : ε) : Run ε σ Unit := ⟨[e], .ok ()⟩

/-- Stop. -/
def stop (s : σ) : Run ε σ α := ⟨[], .error s⟩

theorem ok_bind (events : List ε) (a : α) (f : α → Run ε σ β) :
    (⟨events, .ok a⟩ : Run ε σ α) >>= f = ⟨events ++ (f a).events, (f a).result⟩ := rfl

theorem error_bind (events : List ε) (s : σ) (f : α → Run ε σ β) :
    (⟨events, .error s⟩ : Run ε σ α) >>= f = ⟨events, .error s⟩ := rfl

/-- A composed run reports what its parts report. -/
theorem mem_events_bind {t : Run ε σ α} {f : α → Run ε σ β} {e : ε} :
    e ∈ (t >>= f).events ↔ e ∈ t.events ∨ ∃ a, t.result = .ok a ∧ e ∈ (f a).events := by
  obtain ⟨events, result⟩ := t
  cases result with
  | ok a =>
    rw [ok_bind, List.mem_append]
    simp
  | error s =>
    rw [error_bind]
    simp

/-- A composed run stops where its first or its second part stops. -/
theorem result_bind_eq_error {t : Run ε σ α} {f : α → Run ε σ β} {s : σ} :
    (t >>= f).result = .error s ↔
      t.result = .error s ∨ ∃ a, t.result = .ok a ∧ (f a).result = .error s := by
  obtain ⟨events, result⟩ := t
  cases result with
  | ok a =>
    rw [ok_bind]
    simp
  | error s' =>
    rw [error_bind]
    simp

/-! ## One run after another -/

section Then

variable {t : Run ε σ Unit} {u : Run ε σ β}

/-- The second run decides the result if the first one ends normally. -/
theorem result_then_eq_ok {b : β} :
    (t >>= fun _ => u).result = .ok b ↔ t.result = .ok () ∧ u.result = .ok b := by
  obtain ⟨events, result⟩ := t
  cases result with
  | ok a => exact (and_iff_right rfl).symm
  | error s =>
    refine iff_of_false (fun ends => ?_) fun both => ?_
    · cases ends
    · cases both.1

theorem events_then (ends : t.result = .ok ()) :
    (t >>= fun _ => u).events = t.events ++ u.events := by
  obtain ⟨events, result⟩ := t
  obtain rfl : result = .ok () := ends
  rfl

/-- A run that reports nothing adds nothing. -/
theorem events_then_silent (silent : u.events = []) : (t >>= fun _ => u).events = t.events := by
  obtain ⟨events, result⟩ := t
  cases result with
  | ok a => rw [ok_bind, silent, List.append_nil]
  | error s => rfl

end Then

/-! ## Loops -/

section Loop

variable {f : α → Run ε σ Unit} {l : List α}

theorem forM_cons (f : α → Run ε σ Unit) (a : α) (l : List α) :
    (a :: l).forM f = f a >>= fun _ => l.forM f := rfl

/-- A loop ends normally if and only if each of its steps does. -/
theorem result_forM_eq_ok : (l.forM f).result = .ok () ↔ ∀ a ∈ l, (f a).result = .ok () := by
  induction l with
  | nil => exact iff_of_true rfl fun a mem => absurd mem List.not_mem_nil
  | cons a l ih => rw [forM_cons, result_then_eq_ok, List.forall_mem_cons, ih]

/-- What stops a loop is one of its steps. -/
theorem result_forM_eq_error {s : σ} (stops : (l.forM f).result = .error s) :
    ∃ a ∈ l, (f a).result = .error s := by
  induction l with
  | nil => cases stops
  | cons a l ih =>
    rw [forM_cons] at stops
    rcases result_bind_eq_error.1 stops with first | ⟨-, -, later⟩
    · exact ⟨a, List.mem_cons_self .., first⟩
    · obtain ⟨a', mem, stopped⟩ := ih later
      exact ⟨a', List.mem_cons_of_mem _ mem, stopped⟩

/-- A loop reports what its steps report. -/
theorem mem_events_forM {e : ε} (reported : e ∈ (l.forM f).events) : ∃ a ∈ l, e ∈ (f a).events := by
  induction l with
  | nil => cases reported
  | cons a l ih =>
    rw [forM_cons] at reported
    rcases mem_events_bind.1 reported with first | ⟨-, -, later⟩
    · exact ⟨a, List.mem_cons_self .., first⟩
    · obtain ⟨a', mem, reported⟩ := ih later
      exact ⟨a', List.mem_cons_of_mem _ mem, reported⟩

/-- A loop that ends normally reports nothing if and only if none of its steps does. -/
theorem events_forM_eq_nil (ends : (l.forM f).result = .ok ()) :
    (l.forM f).events = [] ↔ ∀ a ∈ l, (f a).events = [] := by
  induction l with
  | nil => exact iff_of_true rfl fun a mem => absurd mem List.not_mem_nil
  | cons a l ih =>
    obtain ⟨first, rest⟩ := List.forall_mem_cons.1 (result_forM_eq_ok.1 ends)
    rw [forM_cons, events_then first, List.append_eq_nil_iff, List.forall_mem_cons,
      ih (result_forM_eq_ok.2 rest)]

end Loop

end Run

end Traced

import Mathlib.Data.List.Infix

/-!
# Runs of a deterministic step function

An event-driven program is a step function on its state: `run step s es` handles the inputs `es`
one after another.  An event loop receives its inputs in batches and tests for termination only
between two batches (`batches`); `Visits` collects every state such a loop goes through, the
intermediate states of a batch included.  The file has the rules that the invariants are proved
with: an invariant of one step holds along every run (`run_induction`), two states that one step
keeps related stay related along every run (`run_related`), also if the second run leaves out some
inputs (`run_related_filter`), and a property of the states or the steps of one run is decided step by
step (`EveryState`, `EveryStep`).
-/

namespace Transition

variable {σ ι : Type*} (step : σ → ι → σ)

/-- Handle the inputs `es` in order, starting from `s`. -/
def run (s : σ) (es : List ι) : σ := es.foldl step s

@[simp] theorem run_nil (s : σ) : run step s [] = s := rfl

@[simp] theorem run_cons (s : σ) (e : ι) (es : List ι) :
    run step s (e :: es) = run step (step s e) es := rfl

theorem run_append (s : σ) (es fs : List ι) :
    run step s (es ++ fs) = run step (run step s es) fs := List.foldl_append

theorem run_concat (s : σ) (es : List ι) (e : ι) :
    run step s (es ++ [e]) = step (run step s es) e := by
  rw [run_append]
  rfl

/-- An invariant of every step holds along every run. -/
theorem run_induction {P : σ → Prop} (preserved : ∀ s e, P s → P (step s e)) {s : σ} (start : P s)
    (es : List ι) : P (run step s es) := by
  induction es generalizing s with
  | nil => exact start
  | cons e es ih => exact ih (preserved s e start)

/-- An invariant of every admitted step holds along every run whose steps are all admitted. -/
theorem run_induction_of_admitted {P : σ → Prop} {admitted : σ → ι → Prop}
    (preserved : ∀ s e, admitted s e → P s → P (step s e)) {s : σ} (start : P s) (es : List ι)
    (h : ∀ pre e post, es = pre ++ e :: post → admitted (run step s pre) e) :
    P (run step s es) := by
  induction es generalizing s with
  | nil => exact start
  | cons e es ih =>
    refine ih (preserved s e (h [] e es rfl) start) fun pre e' post split => ?_
    exact h (e :: pre) e' post (by rw [split, List.cons_append])

/-- If one step keeps two states related, so does a run on the same inputs. -/
theorem run_related {R : σ → σ → Prop} (preserved : ∀ s t e, R s t → R (step s e) (step t e))
    {s t : σ} (start : R s t) (es : List ι) : R (run step s es) (run step t es) := by
  induction es generalizing s t with
  | nil => exact start
  | cons e es ih => exact ih (preserved s t e start)

/-! ## Properties of all states and of all steps of a run -/

/-- Every state of the run satisfies `P`. -/
def EveryState (P : σ → Prop) (s : σ) (es : List ι) : Prop :=
  ∀ pre, pre <+: es → P (run step s pre)

/-- Every step of the run satisfies `Q`. -/
def EveryStep (Q : σ → ι → Prop) (s : σ) (es : List ι) : Prop :=
  ∀ pre e post, es = pre ++ e :: post → Q (run step s pre) e

theorem everyState_cons {P : σ → Prop} {s : σ} {e : ι} {es : List ι} :
    EveryState step P s (e :: es) ↔ P s ∧ EveryState step P (step s e) es := by
  constructor
  · intro h
    refine ⟨h [] List.nil_prefix, fun pre hpre => ?_⟩
    exact h (e :: pre) ((List.prefix_cons_inj e).2 hpre)
  · rintro ⟨now, later⟩ pre hpre
    cases pre with
    | nil => exact now
    | cons e' pre =>
      obtain ⟨rfl, rest⟩ := List.cons_prefix_cons.1 hpre
      exact later pre rest

theorem everyStep_cons {Q : σ → ι → Prop} {s : σ} {e : ι} {es : List ι} :
    EveryStep step Q s (e :: es) ↔ Q s e ∧ EveryStep step Q (step s e) es := by
  constructor
  · intro h
    refine ⟨h [] e es rfl, fun pre e' post split => ?_⟩
    exact h (e :: pre) e' post (by rw [split, List.cons_append])
  · rintro ⟨now, later⟩ pre e' post split
    cases pre with
    | nil =>
      obtain ⟨rfl, rfl⟩ := List.cons.inj split
      exact now
    | cons e'' pre =>
      obtain ⟨rfl, rest⟩ := List.cons.inj split
      exact later pre e' post rest

theorem everyStep_nil {Q : σ → ι → Prop} {s : σ} : EveryStep step Q s [] :=
  fun pre _ _ split => absurd split.symm (by cases pre <;> exact List.cons_ne_nil _ _)

/-- If an invariant is kept by the admitted steps, and a step from an invariant state is good exactly
when it is admitted, then all steps of a run are good exactly when all are admitted. -/
theorem everyStep_congr {I : σ → Prop} {good admitted : σ → ι → Prop}
    (keeps : ∀ s e, I s → admitted s e → I (step s e))
    (precise : ∀ s e, I s → (good s e ↔ admitted s e)) {s : σ} (start : I s) (es : List ι) :
    EveryStep step good s es ↔ EveryStep step admitted s es := by
  induction es generalizing s with
  | nil => exact iff_of_true (everyStep_nil step) (everyStep_nil step)
  | cons e es ih =>
    rw [everyStep_cons, everyStep_cons, precise s e start]
    exact and_congr_right fun h => ih (keeps s e start h)

/-- An invariant that exactly the admitted steps keep holds in all states of a run exactly when all
its steps are admitted. -/
theorem everyState_iff {P : σ → Prop} {admitted : σ → ι → Prop}
    (precise : ∀ s e, P s → (P (step s e) ↔ admitted s e)) {s : σ} (start : P s) (es : List ι) :
    EveryState step P s es ↔ EveryStep step admitted s es := by
  induction es generalizing s with
  | nil =>
    refine iff_of_true (fun pre hpre => ?_) (everyStep_nil step)
    rwa [List.prefix_nil.1 hpre]
  | cons e es ih =>
    rw [everyState_cons, everyStep_cons, and_iff_right start]
    constructor
    · intro h
      have next : P (step s e) := h [] List.nil_prefix
      exact ⟨(precise s e start).1 next, (ih next).1 h⟩
    · rintro ⟨now, later⟩
      exact (ih ((precise s e start).2 now)).2 later

/-- A simulation that stutters: the second run handles only the inputs selected by `p`, and the steps
of the first run at all others keep the two states related. -/
theorem run_related_filter {R : σ → σ → Prop} {admitted : σ → ι → Prop} (p : ι → Bool)
    (visible : ∀ s t e, p e = true → admitted s e → R s t → R (step s e) (step t e))
    (hidden : ∀ s t e, p e = false → admitted s e → R s t → R (step s e) t) {s t : σ}
    (start : R s t) {es : List ι} (h : EveryStep step admitted s es) :
    R (run step s es) (run step t (es.filter p)) := by
  induction es generalizing s t with
  | nil => exact start
  | cons e es ih =>
    obtain ⟨now, later⟩ := (everyStep_cons step).1 h
    cases selected : p e with
    | true =>
      rw [List.filter_cons_of_pos selected]
      exact ih (visible s t e selected now start) later
    | false =>
      rw [List.filter_cons_of_neg (by simp [selected])]
      exact ih (hidden s t e selected now start) later

/-! ## Event loops -/

/-- An event loop: each batch is handled completely, and the loop stops before the next batch as
soon as the state has halted. -/
def batches (halted : σ → Bool) : σ → List (List ι) → σ
  | s, [] => s
  | s, b :: bs => if halted s then s else batches halted (run step s b) bs

/-- The states of the event loop started in `s₀` on batches admitted by `batch`, between any two
inputs. -/
def Visits (halted : σ → Bool) (batch : List ι → Prop) (s₀ s : σ) : Prop :=
  ∃ bs b es, (∀ b' ∈ bs, batch b') ∧ batch b ∧ halted (batches step halted s₀ bs) = false ∧
    es <+: b ∧ s = run step (batches step halted s₀ bs) es

theorem exists_run_batches (halted : σ → Bool) (s : σ) (bs : List (List ι)) :
    ∃ es, batches step halted s bs = run step s es := by
  induction bs generalizing s with
  | nil => exact ⟨[], rfl⟩
  | cons b bs ih =>
    rw [batches]
    split_ifs with h
    · exact ⟨[], rfl⟩
    · obtain ⟨es, he⟩ := ih (run step s b)
      exact ⟨b ++ es, by rw [he, run_append]⟩

/-- Every state visited by an event loop is the result of a plain run. -/
theorem Visits.exists_run {halted : σ → Bool} {batch : List ι → Prop} {s₀ s : σ}
    (h : Visits step halted batch s₀ s) : ∃ es, s = run step s₀ es := by
  obtain ⟨bs, b, es, -, -, -, -, rfl⟩ := h
  obtain ⟨fs, hf⟩ := exists_run_batches step halted s₀ bs
  exact ⟨fs ++ es, by rw [hf, run_append]⟩

theorem batches_append (halted : σ → Bool) (s : σ) (bs cs : List (List ι)) :
    batches step halted s (bs ++ cs) =
      batches step halted (batches step halted s bs) cs := by
  induction bs generalizing s with
  | nil => rfl
  | cons b bs ih =>
    rw [List.cons_append, batches, batches]
    split_ifs with h
    · cases cs with
      | nil => rfl
      | cons c cs => rw [batches, if_pos h]
    · exact ih _

/-- The start of the loop is visited. -/
theorem Visits.refl {halted : σ → Bool} {batch : List ι → Prop} {s₀ : σ}
    (awake : halted s₀ = false) (empty : batch []) : Visits step halted batch s₀ s₀ :=
  ⟨[], [], [], by simp, empty, awake, List.prefix_rfl, rfl⟩

/-- The loop gets from `s` to a state by handling single inputs, none of them after it halted. -/
inductive Reaches (halted : σ → Bool) (s : σ) : σ → Prop
  | refl : Reaches halted s s
  | tail {t : σ} (e : ι) : Reaches halted s t → halted t = false → Reaches halted s (step t e)

variable {step}

theorem Reaches.trans {halted : σ → Bool} {s t u : σ} (h : Reaches step halted s t)
    (h' : Reaches step halted t u) : Reaches step halted s u := by
  induction h' with
  | refl => exact h
  | tail e _ awake ih => exact ih.tail e awake

theorem Reaches.single {halted : σ → Bool} {s : σ} (awake : halted s = false) (e : ι) :
    Reaches step halted s (step s e) := Reaches.refl.tail e awake

/-- A run in which no state but the last one has halted. -/
theorem Reaches.of_run {halted : σ → Bool} {s : σ} {es : List ι}
    (awake : EveryState step (fun s => halted s = false) s es) :
    Reaches step halted s (run step s es) := by
  induction es generalizing s with
  | nil => exact .refl
  | cons e es ih =>
    obtain ⟨now, later⟩ := (everyState_cons step).1 awake
    exact (Reaches.single now e).trans (ih later)

theorem Reaches.exists_batches {halted : σ → Bool} {batch : List ι → Prop}
    (single : ∀ e, batch [e]) {s t : σ} (h : Reaches step halted s t) :
    ∃ bs, (∀ b ∈ bs, batch b) ∧ batches step halted s bs = t := by
  induction h with
  | refl => exact ⟨[], by simp, rfl⟩
  | tail e _ awake ih =>
    obtain ⟨bs, admitted, rfl⟩ := ih
    refine ⟨bs ++ [[e]], ?_, ?_⟩
    · intro b hb
      rcases List.mem_append.1 hb with hb | hb
      · exact admitted b hb
      · rw [List.mem_singleton.1 hb]
        exact single e
    · rw [batches_append, batches, if_neg (by simp [awake])]
      rfl

/-- A visited state is the one between two batches, if every part of a batch is a batch. -/
theorem Visits.exists_batches {halted : σ → Bool} {batch : List ι → Prop} {s₀ s : σ}
    (part : ∀ {b es}, batch b → es <+: b → batch es) (h : Visits step halted batch s₀ s) :
    ∃ bs, (∀ b ∈ bs, batch b) ∧ batches step halted s₀ bs = s := by
  obtain ⟨bs, b, es, admitted, last, awake, pre, rfl⟩ := h
  refine ⟨bs ++ [es], ?_, ?_⟩
  · intro b' hb
    rcases List.mem_append.1 hb with hb | hb
    · exact admitted b' hb
    · rw [List.mem_singleton.1 hb]
      exact part last pre
  · rw [batches_append, batches, if_neg (by simp [awake])]
    rfl

/-- From a visited state the loop goes on with any single input. -/
theorem Visits.tail {halted : σ → Bool} {batch : List ι → Prop} {s₀ s : σ}
    (part : ∀ {b es}, batch b → es <+: b → batch es) (single : ∀ e, batch [e])
    (h : Visits step halted batch s₀ s) (awake : halted s = false) (e : ι) :
    Visits step halted batch s₀ (step s e) := by
  obtain ⟨bs, admitted, rfl⟩ := h.exists_batches part
  exact ⟨bs, [e], [e], admitted, single e, awake, List.prefix_rfl, rfl⟩

theorem Visits.reaches {halted : σ → Bool} {batch : List ι → Prop} {s₀ s t : σ}
    (part : ∀ {b es}, batch b → es <+: b → batch es) (single : ∀ e, batch [e])
    (h : Visits step halted batch s₀ s) (reaches : Reaches step halted s t) :
    Visits step halted batch s₀ t := by
  induction reaches with
  | refl => exact h
  | tail e _ awake ih => exact ih.tail part single awake e

/-- What is reached by single inputs is visited, if a batch may be empty or a single input. -/
theorem Reaches.visits {halted : σ → Bool} {batch : List ι → Prop} (empty : batch [])
    (single : ∀ e, batch [e]) {s t : σ} (start : halted s = false) (h : Reaches step halted s t) :
    Visits step halted batch s t := by
  cases h with
  | refl => exact Visits.refl step start empty
  | tail e h awake =>
    obtain ⟨bs, admitted, rfl⟩ := h.exists_batches single
    exact ⟨bs, [e], [e], admitted, single e, awake, List.prefix_rfl, rfl⟩

end Transition

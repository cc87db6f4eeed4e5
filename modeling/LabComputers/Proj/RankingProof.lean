import LabComputers.Proj.ClickProof
import LabComputers.Proj.SubmissionProof
import LabComputers.Proj.TextProof

/-!
# The leaderboard in the course of a run

Only the submission of a score writes the leaderboard.  In every run its names stay names that can be
typed in, and it holds the ten best of the scores it started with and those submitted since, until a
score above 255 is submitted (`leaderboard_ranks`).
-/

namespace LabComputers

open CString Largest

/-! ## Names -/

/-- A name that can be typed in, in its seven bytes. -/
def ValidName (name : List UInt8) : Prop :=
  name.length = 7 ∧ strlen name ≤ 6 ∧ (str name).all isNameByte

theorem validName_strcpy {name : List UInt8} (short : strlen name ≤ 6)
    (letters : (str name).all isNameByte) : ValidName (strcpy (zeros 7) name) := by
  have same : str (strcpy (zeros 7) name) = str name := str_strcpy _ _
  refine ⟨?_, by rwa [strlen, same], by rwa [same]⟩
  rw [strcpy_zeros (by omega)]
  exact length_pad (by rw [← strlen]; omega)

theorem Leaderboard.ValidNames.addScore {lb : Leaderboard} (valid : lb.ValidNames) (past : UInt8)
    (score : ℤ) {name : List UInt8} (short : strlen name ≤ 6) (letters : (str name).all isNameByte) :
    (addScore past score name lb).ValidNames := by
  obtain ⟨m, equal, -⟩ := addScore_eq past score name lb
  intro k
  change ValidName ((LabComputers.addScore past score name lb).names k)
  rw [equal]
  by_cases here : k = m
  · have stored : ((lb.shifted 0 m).store m score name).names k = strcpy (zeros 7) name := by
      rw [here]
      exact Function.update_self _ _ _
    rw [stored]
    exact validName_strcpy short letters
  · have kept : ((lb.shifted 0 m).store m score name).names k = (lb.shifted 0 m).names k :=
      Function.update_of_ne here _ _
    rw [kept, Leaderboard.shifted]
    simp only
    split_ifs
    · exact validName_strcpy (valid (k + 1)).2.1 (valid (k + 1)).2.2
    · exact valid k

/-! ## Scores -/

/-- The score that a recorded call submits. -/
def Call.score? : Call → Option ℕ
  | .addScore score _ _ => some score.toNat
  | _ => none

/-- The scores submitted since the start of the program. -/
def submittedScores (g : Globals) : List ℕ := g.calls.filterMap Call.score?

theorem Extends.submittedScores_eq {g g' : Globals} (h : Extends g g') :
    submittedScores g' = submittedScores g := by
  obtain ⟨cs, calls, other⟩ := h
  have none : cs.filterMap Call.score? = [] := by
    rw [List.filterMap_eq_nil_iff]
    intro c hc
    have plain := (other c hc).1
    cases c <;> first | rfl | cases plain
  rw [submittedScores, calls, List.filterMap_append, none, List.nil_append, submittedScores]

/-- The table holds the ten best scores of `M` and dominates the others. -/
def Keeps (M : Multiset ℕ) (lb : Leaderboard) : Prop :=
  lb.Sorted ∧ ∃ R, M = (lb.values : Multiset ℕ) + R ∧ Dominates (lb.values : Multiset ℕ) R

/-- The scores ascend and are the ten largest of `M`. -/
def BestTen (M : Multiset ℕ) (lb : Leaderboard) : Prop :=
  lb.Sorted ∧ (lb.values : Multiset ℕ) = largest 10 M

theorem Keeps.bestTen {M : Multiset ℕ} {lb : Leaderboard} (h : Keeps M lb) : BestTen M lb := by
  obtain ⟨sorted, R, rfl, dominates⟩ := h
  have best := coe_largest dominates
  rw [Multiset.coe_card, lb.length_values] at best
  exact ⟨sorted, best.symm⟩

theorem keeps_self {lb : Leaderboard} (sorted : lb.Sorted) : Keeps (lb.values : Multiset ℕ) lb := by
  refine ⟨sorted, 0, (add_zero _).symm, ?_⟩
  intro x _ y hy
  exact absurd hy (Multiset.notMem_zero y)

/-- A score of at most 255 that beats the worst entry takes its place. -/
theorem Keeps.addScore {M : Multiset ℕ} {lb : Leaderboard} (h : Keeps M lb) (past : UInt8)
    {points : UInt32} (small : points.toNat ≤ 255) (better : compareScore (toInt points) lb)
    (name : List UInt8) :
    Keeps (points.toNat ::ₘ M) (addScore past (toInt points) name lb) := by
  obtain ⟨sorted, R, rfl, dominates⟩ := h
  have above : (lb.scores 0).toNat < points.toNat := by
    simpa [compareScore, toInt_of_le small] using better
  obtain ⟨sorted', perm⟩ := addScore_sorted sorted past small name
  refine ⟨sorted', (lb.scores 0).toNat ::ₘ R, ?_, ?_⟩
  · rw [perm]
    conv_lhs => rw [lb.values_eq_cons]
    rw [← Multiset.cons_coe, Multiset.cons_add, Multiset.cons_add, Multiset.add_cons]
  · rw [perm]
    rw [lb.values_eq_cons, ← Multiset.cons_coe] at dominates
    refine dominates.replace (fun x hx => ?_) above.le
    obtain ⟨k, rfl⟩ := Leaderboard.mem_values.1 (List.mem_of_mem_tail (Multiset.mem_coe.1 hx))
    exact sorted (Fin.zero_le k)

/-- A table of bytes does not hold the best of scores one of which is above 255. -/
theorem not_bestTen_of_large {M : Multiset ℕ} {lb : Leaderboard} {v : ℕ} (hv : v ∈ M)
    (large : 255 < v) : ¬ BestTen M lb := by
  rintro ⟨-, equal⟩
  obtain ⟨x, hx, le⟩ := exists_ge_mem_largest (k := 10) (by omega) hv
  rw [← Multiset.mem_coe, ← equal, Multiset.mem_coe] at hx
  obtain ⟨k, rfl⟩ := Leaderboard.mem_values.1 hx
  have := (lb.scores k).toNat_lt
  omega

/-! ## The invariant of a run -/

/-- The leaderboard of a run that started with `lb`. -/
structure Ranked (lb : Leaderboard) (g : Globals) : Prop where
  typed : Typed g
  submitting : Submitting g
  names : g.lb.ValidNames
  scores : lb.Sorted → (∀ s ∈ submittedScores g, s ≤ 255) →
    Keeps ((submittedScores g : Multiset ℕ) + (lb.values : Multiset ℕ)) g.lb

namespace Ranked

variable {lb : Leaderboard} {g : Globals}

theorem quiet (h : Ranked lb g) {g' : Globals} (quiet : Quiet g g') (typed : Typed g') :
    Ranked lb g' where
  typed := typed
  submitting := quiet.submitting h.submitting
  names := by
    rw [quiet.lb]
    exact h.names
  scores := by
    rw [quiet.calls.submittedScores_eq, quiet.lb]
    exact h.scores

theorem gameSaveAndDisplayLb (h : Ranked lb g) (input : g.gameState = .lbInput)
    (submitting : Submitting (gameSaveAndDisplayLb g)) : Ranked lb (gameSaveAndDisplayLb g) := by
  obtain ⟨short, letters⟩ := h.typed input
  have better := h.submitting.qualified input
  have submitted : submittedScores (LabComputers.gameSaveAndDisplayLb g) =
      g.points.toNat :: submittedScores g := by
    have score : (toInt g.points).toNat = g.points.toNat := by
      rw [toInt_of_compareScore better, Int.toNat_natCast]
    rw [← score]
    rfl
  refine ⟨Typed.of_ne nofun, submitting, h.names.addScore _ _ short letters,
    fun sorted small => ?_⟩
  rw [submitted] at small ⊢
  obtain ⟨last, earlier⟩ := List.forall_mem_cons.1 small
  rw [← Multiset.cons_coe, Multiset.cons_add]
  exact (h.scores sorted earlier).addScore 0 last better g.name

theorem keyboardEventHandler (h : Ranked lb g) (scanCode : UInt8) :
    Ranked lb (keyboardEventHandler scanCode g) := by
  have typed := h.typed.keyboardEventHandler scanCode
  have submitting := h.submitting.keyboardEventHandler scanCode
  rcases keyboardEventHandler_quiet scanCode g with quiet | ⟨input, -, e⟩ | e
  · exact h.quiet quiet typed
  · rw [e] at submitting ⊢
    exact h.gameSaveAndDisplayLb input submitting
  · rw [e] at typed submitting ⊢
    exact ⟨typed, submitting, h.names, h.scores⟩

theorem gameIh (h : Ranked lb g) (rand : ℕ → ℕ) : Ranked lb (gameIh rand g) := by
  have typed := h.typed.gameIh rand
  have submitting := h.submitting.gameIh rand
  rcases gameIh_quiet rand g with quiet | ⟨-, e⟩
  · exact h.quiet quiet typed
  · rw [e] at typed submitting ⊢
    exact ⟨typed, submitting, h.names, h.scores⟩

theorem run (valid : lb.ValidNames) (es : List Interrupt) :
    Ranked lb (Transition.run handle (loopStart lb) es) := by
  apply Transition.run_induction handle (handle_induction (P := Ranked lb) ?_ ?_ ?_ ?_)
  · refine ⟨Typed.of_ne nofun, submitting_loopStart lb, valid, fun sorted _ => ?_⟩
    change Keeps (0 + _) lb
    rw [zero_add]
    exact keeps_self sorted
  · intro g
    exact ⟨fun h => ⟨h.typed, (submitting_core g).1 h.submitting, h.names, h.scores⟩,
      fun h => ⟨h.typed, (submitting_core g).2 h.submitting, h.names, h.scores⟩⟩
  · intro arr g h
    exact h.quiet (mouseEventHandler_quiet _ g) (h.typed.mouseEventHandler _)
  · exact fun scanCode g h => h.keyboardEventHandler scanCode
  · exact fun rand g h => h.gameIh rand

end Ranked

/-- The states of a run of `game_loop` for which `readSaveFile` found the leaderboard `lb`. -/
def ReachableFrom (lb : Leaderboard) (g : Globals) : Prop :=
  Transition.Visits handle exited (fun b => ∃ n : Notification, b = n.interrupts) (loopStart lb) g

namespace ReachableFrom

variable {lb : Leaderboard} {g : Globals}

theorem reachable (h : ReachableFrom lb g) : Reachable g := ⟨lb, h⟩

theorem names (h : ReachableFrom lb g) (valid : lb.ValidNames) : g.lb.ValidNames := by
  obtain ⟨es, rfl⟩ := h.exists_run
  exact (Ranked.run valid es).names

theorem start (lb : Leaderboard) : ReachableFrom lb (loopStart lb) :=
  Transition.Visits.refl handle rfl ⟨⟨none, none, none⟩, rfl⟩

end ReachableFrom

theorem Leads.reachableFrom {lb : Leaderboard} {g : Globals} (h : Leads (loopStart lb) g) :
    ReachableFrom lb g := by
  refine Transition.Reaches.visits ⟨⟨none, none, none⟩, rfl⟩ ?_ rfl h
  rintro (replies | replies | ⟨rtcHours, rtcMinutes, rand⟩)
  · exact ⟨⟨some replies, none, none⟩, rfl⟩
  · exact ⟨⟨none, some replies, none⟩, rfl⟩
  · exact ⟨⟨none, none, some (rtcHours, rtcMinutes, rand)⟩, rfl⟩

theorem Leaderboard.zero_validNames : Leaderboard.zero.ValidNames := by
  unfold Leaderboard.ValidNames
  decide

theorem submittedScores_grow (g : Globals) (es : List Interrupt) :
    submittedScores g <:+ submittedScores (Transition.run handle g es) := by
  obtain ⟨new, acts⟩ := acts_run g es
  rw [submittedScores, submittedScores, acts.calls, List.filterMap_append]
  exact List.suffix_append _ _

/-- In every run the names on the leaderboard stay names that can be typed in; and the leaderboard is
sorted and holds the ten best of its first scores and the submitted ones throughout the run, if and
only if no score above 255 is submitted. -/
theorem leaderboard_ranks {lb : Leaderboard} (valid : lb.ValidNames) (sorted : lb.Sorted)
    (es : List Interrupt) :
    Transition.EveryState handle (fun g => g.lb.ValidNames) (loopStart lb) es ∧
    (Transition.EveryState handle
        (fun g => BestTen ((submittedScores g : Multiset ℕ) + (lb.values : Multiset ℕ)) g.lb)
        (loopStart lb) es ↔
      ∀ s ∈ submittedScores (Transition.run handle (loopStart lb) es), s ≤ 255) := by
  refine ⟨fun pre _ => (Ranked.run valid pre).names, ?_, ?_⟩
  · intro best s hs
    by_contra large
    have whole := best es List.prefix_rfl
    exact not_bestTen_of_large (Multiset.mem_add.2 (.inl (Multiset.mem_coe.2 hs))) (by omega) whole
  · rintro small pre ⟨rest, rfl⟩
    refine ((Ranked.run valid pre).scores sorted fun s hs => small s ?_).bestTen
    rw [Transition.run_append]
    exact (submittedScores_grow _ rest).subset hs

/-- A run that submits a score of 256, which is stored as 0. -/
theorem leaderboard_ranks_submission :
    ∃ es, 256 ∈ submittedScores (Transition.run handle (loopStart .zero) es) ∧
      Transition.EveryState handle (fun g => g.lb.ValidNames) (loopStart .zero) es ∧
      ¬ Transition.EveryState handle
        (fun g => BestTen ((submittedScores g : Multiset ℕ) + (Leaderboard.zero.values : Multiset ℕ)) g.lb)
        (loopStart .zero) es := by
  obtain ⟨g, e, name, leads, -, calls⟩ := exists_submission (n := 256) (by decide)
  obtain ⟨es, rfl⟩ := leads.reachableFrom.exists_run
  have submitted : 256 ∈ submittedScores
      (Transition.run handle (loopStart .zero) (es ++ [e])) := by
    rw [Transition.run_append, submittedScores, Transition.run_cons, Transition.run_nil, calls]
    exact List.mem_cons_self ..
  obtain ⟨names, ranks⟩ := leaderboard_ranks Leaderboard.zero_validNames
    (fun _ _ _ => le_rfl) (es ++ [e])
  exact ⟨es ++ [e], submitted, names, fun best => absurd (ranks.1 best 256 submitted) (by decide)⟩

end LabComputers

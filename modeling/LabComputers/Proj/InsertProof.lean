import Mathlib.Order.Interval.Finset.Fin
import LabComputers.Proj.LeaderboardProof

/-!
# Where `addScore` inserts

On a sorted table `addScore` is an insertion: with `m` the number of scores below the new one, the
entries below `m` move down by one, scores and names together, and the new entry is stored at `m - 1`
(`addScore_inserts`).  On any table, `addScoreIndices` lists the indices it uses; the test
`LB->scores[i]<score && i<10` reads `scores[10]` when no entry stops the loop.
-/

namespace LabComputers

open CString

/-! ## Entries -/

/-- The score and the name of an entry. -/
def Leaderboard.entry (lb : Leaderboard) (k : Fin 10) : UInt8 × List UInt8 :=
  (lb.scores k, lb.names k)

/-- The ten entries from the worst to the best. -/
def Leaderboard.entries (lb : Leaderboard) : List (UInt8 × List UInt8) := List.ofFn lb.entry

/-- Each name is a string of at most six characters followed only by zero bytes. -/
def Leaderboard.Padded (lb : Leaderboard) : Prop :=
  ∀ k, strlen (lb.names k) ≤ 6 ∧ lb.names k = pad 7 (str (lb.names k))

/-- The number of entries with a score below `score`. -/
def Leaderboard.below (lb : Leaderboard) (score : UInt8) : ℕ :=
  (Finset.univ.filter fun k => lb.scores k < score).card

theorem Leaderboard.Padded.strcpy_name {lb : Leaderboard} (padded : lb.Padded) (k : Fin 10) :
    strcpy (zeros 7) (lb.names k) = lb.names k := by
  obtain ⟨short, equal⟩ := padded k
  rw [strcpy_zeros (by omega), ← equal]

/-! ## Insertion -/

section Insertion

variable {lb : Leaderboard} (m : Fin 10) (score : ℤ) (name : List UInt8)

theorem entry_store_shifted_of_lt (padded : lb.Padded) {k : Fin 10} (h : k < m) :
    ((lb.shifted 0 m).store m score name).entry k = lb.entry (k + 1) := by
  have inside : 0 ≤ k.val ∧ k.val < m.val := ⟨Nat.zero_le _, h⟩
  simp only [Leaderboard.entry, Leaderboard.store, Leaderboard.shifted, Function.update_of_ne h.ne,
    if_pos inside, padded.strcpy_name]

theorem entry_store_shifted_self (lb : Leaderboard) (short : strlen name ≤ 6) :
    ((lb.shifted 0 m).store m score name).entry m = (UInt8.ofInt score, pad 7 (str name)) := by
  simp only [Leaderboard.entry, Leaderboard.store, Function.update_self,
    strcpy_zeros (show strlen name < 7 by omega)]

theorem entry_store_shifted_of_gt (lb : Leaderboard) {k : Fin 10} (h : m < k) :
    ((lb.shifted 0 m).store m score name).entry k = lb.entry k := by
  have outside : ¬ (0 ≤ k.val ∧ k.val < m.val) := fun inside => absurd inside.2 (by omega)
  simp only [Leaderboard.entry, Leaderboard.store, Leaderboard.shifted, Function.update_of_ne h.ne',
    if_neg outside]

/-- The entries that remain are the old ones but entry 0, in their old order. -/
theorem entries_store_shifted (padded : lb.Padded) (short : strlen name ≤ 6) :
    ((lb.shifted 0 m).store m score name).entries =
      lb.entries.tail.take m ++
        (UInt8.ofInt score, pad 7 (str name)) :: lb.entries.tail.drop m := by
  have hm := m.isLt
  apply List.ext_getElem
  · simp [Leaderboard.entries]
    omega
  · intro n h₁ h₂
    have hn : n < 10 := by simpa [Leaderboard.entries] using h₁
    rw [List.getElem_append]
    simp only [List.length_take, List.length_tail, Leaderboard.entries, List.length_ofFn,
      List.getElem_ofFn, List.getElem_take, List.getElem_tail, List.getElem_cons,
      List.getElem_drop]
    rcases Nat.lt_trichotomy n m.val with h | h | h
    · have next : (⟨n, hn⟩ : Fin 10) + 1 = ⟨n + 1, by omega⟩ :=
        Fin.ext (val_add_one (by simp only; omega))
      rw [entry_store_shifted_of_lt m score name padded (Fin.lt_def.2 h), dif_pos (by omega), next]
    · obtain rfl : m = ⟨n, hn⟩ := Fin.ext h.symm
      rw [entry_store_shifted_self _ score name lb short, dif_neg (by simp), dif_pos]
      simp only
      omega
    · rw [entry_store_shifted_of_gt m score name lb (Fin.lt_def.2 h), dif_neg (by omega),
        dif_neg (by omega)]
      congr 2
      omega

theorem entries_perm (padded : lb.Padded) (short : strlen name ≤ 6) :
    (lb.entry 0 :: ((lb.shifted 0 m).store m score name).entries).Perm
      ((UInt8.ofInt score, pad 7 (str name)) :: lb.entries) := by
  have split : lb.entries = lb.entry 0 :: lb.entries.tail := by
    simp [Leaderboard.entries, List.ofFn_succ]
  rw [entries_store_shifted m score name padded short]
  conv_rhs => rw [split, ← lb.entries.tail.take_append_drop m]
  exact (List.perm_middle.cons _).trans (List.Perm.swap _ _ _)

theorem padded_store_shifted (padded : lb.Padded) (short : strlen name ≤ 6) :
    ((lb.shifted 0 m).store m score name).Padded := by
  intro k
  have stored : str (pad 7 (str name)) = str name := str_pad (fun _ h => ne_zero_of_mem_str h) 7
  rcases lt_trichotomy k m with h | rfl | h
  · have same := congrArg Prod.snd (entry_store_shifted_of_lt m score name padded h)
    simp only [Leaderboard.entry] at same
    rw [same]
    exact padded (k + 1)
  · have same := congrArg Prod.snd (entry_store_shifted_self k score name lb short)
    simp only [Leaderboard.entry] at same
    rw [same, strlen, stored]
    exact ⟨short, rfl⟩
  · have same := congrArg Prod.snd (entry_store_shifted_of_gt m score name lb h)
    simp only [Leaderboard.entry] at same
    rw [same]
    exact padded k

end Insertion

/-- A sorted table is cut at the number of scores below `score`. -/
theorem below_eq {lb : Leaderboard} (sorted : lb.Sorted) {m : Fin 10} {score : UInt8}
    (smaller : ∀ k ≤ m, lb.scores k < score)
    (stop : ∀ k : Fin 10, k.val = m.val + 1 → score ≤ lb.scores k) :
    lb.below score = m.val + 1 := by
  have cut : ∀ k, lb.scores k < score ↔ k ≤ m := by
    intro k
    refine ⟨fun below => ?_, smaller k⟩
    by_contra above
    have hk := Fin.lt_def.1 (not_le.1 above)
    have next := stop ⟨m.val + 1, by omega⟩ rfl
    have mono : (lb.scores ⟨m.val + 1, by omega⟩).toNat ≤ (lb.scores k).toNat :=
      sorted (Fin.le_def.2 hk)
    rw [UInt8.lt_iff_toNat_lt] at below
    rw [UInt8.le_iff_toNat_le] at next
    omega
  have interval : (Finset.univ.filter fun k => lb.scores k < score) = Finset.Iic m := by
    ext k
    simp [cut]
  rw [Leaderboard.below, interval, Fin.card_Iic]

/-- On a sorted table of padded names, a score that beats entry 0 is inserted above the scores below
it and under those equal to it; the entries under it move down and entry 0 is dropped. -/
theorem addScore_inserts {lb : Leaderboard} (sorted : lb.Sorted) (padded : lb.Padded)
    {score : UInt8} (better : compareScore score.toNat lb) {name : List UInt8}
    (short : strlen name ≤ 6) (past : UInt8) :
    1 ≤ lb.below score ∧ lb.below score ≤ 10 ∧
      (∀ k : Fin 10, k.val + 1 < lb.below score →
        (addScore past score.toNat name lb).entry k = lb.entry (k + 1)) ∧
      (∀ k : Fin 10, k.val + 1 = lb.below score →
        (addScore past score.toNat name lb).entry k = (score, pad 7 (str name))) ∧
      (∀ k : Fin 10, lb.below score ≤ k.val →
        (addScore past score.toNat name lb).entry k = lb.entry k) ∧
      (addScore past score.toNat name lb).Sorted ∧
      (addScore past score.toNat name lb).Padded ∧
      (lb.entry 0 :: (addScore past score.toNat name lb).entries).Perm
        ((score, pad 7 (str name)) :: lb.entries) ∧
      ∀ k, lb.scores k = score → lb.below score ≤ k.val := by
  have range := score.toNat_lt
  have stored : UInt8.ofInt score.toNat = score := UInt8.toNat_inj.1 (ofInt_of_le (by omega))
  obtain ⟨m, equal, smaller, stop⟩ := addScore_eq past score.toNat name lb
  have least : lb.scores 0 < score := by
    rw [UInt8.lt_iff_toNat_lt]
    simpa [compareScore] using better
  have smaller : ∀ k ≤ m, lb.scores k < score := by
    intro k hk
    rcases Nat.eq_zero_or_pos k.val with zero | pos
    · obtain rfl : k = 0 := Fin.ext zero
      exact least
    · rw [UInt8.lt_iff_toNat_lt]
      exact_mod_cast smaller k pos hk
  have stop : ∀ k : Fin 10, k.val = m.val + 1 → score ≤ lb.scores k := by
    intro k hk
    rw [UInt8.le_iff_toNat_le]
    exact_mod_cast stop k (Fin.lt_def.2 (by omega)) hk
  have count := below_eq sorted smaller stop
  rw [equal, count]
  refine ⟨by omega, by omega, ?_, ?_, ?_, ?_, ?_, ?_, ?_⟩
  · intro k hk
    exact entry_store_shifted_of_lt m _ name padded (Fin.lt_def.2 (by omega))
  · intro k hk
    obtain rfl : k = m := Fin.ext (by omega)
    rw [entry_store_shifted_self k _ name lb short, stored]
  · intro k hk
    exact entry_store_shifted_of_gt m _ name lb (Fin.lt_def.2 hk)
  · apply sorted_store_shifted sorted name
    · intro k _ hk
      rw [stored]
      exact (UInt8.lt_iff_toNat_lt.1 (smaller k hk)).le
    · intro k hk
      have hkv := Fin.lt_def.1 hk
      have next := UInt8.le_iff_toNat_le.1 (stop ⟨m.val + 1, by omega⟩ rfl)
      rw [stored]
      exact next.trans (sorted (Fin.le_def.2 hkv))
  · exact padded_store_shifted m _ name padded short
  · have perm := entries_perm m score.toNat name padded short
    rwa [stored] at perm
  · rintro k rfl
    by_contra above
    exact absurd (smaller k (Fin.le_def.2 (by omega))) (UInt8.lt_irrefl _)

theorem oneEntry_sorted : oneEntry.Sorted := by
  have values : ∀ k l : Fin 10, k ≤ l → (oneEntry.scores k).toNat ≤ (oneEntry.scores l).toNat := by
    decide
  exact fun k l h => values k l h

theorem oneEntry_padded : oneEntry.Padded := by
  unfold Leaderboard.Padded
  decide

/-- A second game of one point ranks below the first. -/
theorem addScore_inserts_tie :
    oneEntry.below 1 = 9 ∧
      (addScore 0 1 (ascii "B") oneEntry).entry 9 = (1, pad 7 (ascii "A")) ∧
      (addScore 0 1 (ascii "B") oneEntry).entry 8 = (1, pad 7 (ascii "B")) := by
  have below : oneEntry.below 1 = 9 := by decide
  have better : compareScore (1 : UInt8).toNat oneEntry := by decide
  have short : strlen (ascii "B") ≤ 6 := by decide
  obtain ⟨-, -, -, new, kept, -⟩ :=
    addScore_inserts oneEntry_sorted oneEntry_padded better short 0
  exact ⟨below, kept 9 (by rw [below]; decide), new 8 below.symm⟩

/-! ## The indices of `addScore` -/

/-- The indices into `scores` and `names` that the loop of `addScore` uses from index `i` on: that of
its test, and those of the entry it moves and of the one it moves it to. -/
def addScoreLoopIndices (past : UInt8) (score : ℤ) (i : ℕ) (lb : Leaderboard) : List ℕ :=
  i ::
    if (lb.scoreAt past i).toNat < score then
      if h : i < 10 then
        [i - 1, i - 1, i, i - 1, i] ++ addScoreLoopIndices past score (i + 1) (lb.shift ⟨i, h⟩)
      else []
    else []
termination_by 10 - i

/-- The indices into `scores` and `names` that `addScore` uses. -/
def addScoreIndices (past : UInt8) (score : ℤ) (lb : Leaderboard) : List ℕ :=
  addScoreLoopIndices past score 1 lb ++ List.replicate 3 ((addScoreLoop past score 1 lb).1 - 1)

/-- The largest index that the loop uses is the one at which it stops. -/
theorem mem_addScoreLoopIndices (past : UInt8) (score : ℤ) (i : ℕ) (lb : Leaderboard) :
    (addScoreLoop past score i lb).1 ∈ addScoreLoopIndices past score i lb ∧
      ∀ k ∈ addScoreLoopIndices past score i lb, k ≤ (addScoreLoop past score i lb).1 := by
  induction i, lb using addScoreLoop.induct past score with
  | case1 i lb below inside ih =>
    obtain ⟨mem, bound⟩ := ih
    have start : i + 1 ≤ (addScoreLoop past score (i + 1) (lb.shift ⟨i, inside⟩)).1 := by
      apply bound
      rw [addScoreLoopIndices]
      exact List.mem_cons_self
    rw [addScoreLoop, addScoreLoopIndices, if_pos below, dif_pos inside, if_pos below,
      dif_pos inside]
    constructor
    · exact List.mem_cons_of_mem _ (List.mem_append_right _ mem)
    · intro k hk
      rcases List.mem_cons.1 hk with rfl | hk
      · omega
      · rcases List.mem_append.1 hk with moved | hk
        · simp only [List.mem_cons, List.not_mem_nil, or_false] at moved
          omega
        · exact bound k hk
  | case2 i lb below outside =>
    rw [addScoreLoop, addScoreLoopIndices, if_pos below, dif_neg outside, if_pos below,
      dif_neg outside]
    simp
  | case3 i lb reached =>
    rw [addScoreLoop, addScoreLoopIndices, if_neg reached, if_neg reached]
    simp

/-- If all scores from entry 1 on are below the new one, the last test reads `scores[10]`. -/
theorem ten_mem_addScoreIndices (past : UInt8) {score : ℤ} {lb : Leaderboard}
    (smaller : ∀ k : Fin 10, 1 ≤ k.val → ((lb.scores k).toNat : ℤ) < score) :
    10 ∈ addScoreIndices past score lb := by
  obtain ⟨m, start, last, equal, -, stop⟩ := addScoreLoop_eq past score 1 lb le_rfl (by omega)
  have mem := (mem_addScoreLoopIndices past score 1 lb).1
  rw [equal] at mem
  have passed : m = 10 := by
    by_contra stopped
    have reached := stop ⟨m, by omega⟩ rfl
    have below := smaller ⟨m, by omega⟩ start
    omega
  subst passed
  exact List.mem_append_left _ mem

/-- `addScore` keeps to the arrays if and only if an entry from 1 on stops its loop. -/
theorem addScoreIndices_lt_iff (past : UInt8) (score : ℤ) (lb : Leaderboard) :
    (∀ k ∈ addScoreIndices past score lb, k < 10) ↔
      ∃ k : Fin 10, 1 ≤ k.val ∧ score ≤ (lb.scores k).toNat := by
  constructor
  · intro inside
    by_contra unstopped
    have mem : 10 ∈ addScoreIndices past score lb := by
      apply ten_mem_addScoreIndices
      intro k pos
      by_contra reached
      exact unstopped ⟨k, pos, not_lt.1 reached⟩
    exact absurd (inside 10 mem) (by decide)
  · rintro ⟨k, pos, reached⟩
    obtain ⟨m, -, -, equal, smaller, -⟩ := addScoreLoop_eq past score 1 lb le_rfl (by omega)
    have bound := (mem_addScoreLoopIndices past score 1 lb).2
    rw [equal] at bound
    have stopped : m ≤ k.val := by
      by_contra above
      exact absurd (smaller k pos (by omega)) (by omega)
    intro j hj
    rcases List.mem_append.1 hj with hj | hj
    · exact (bound j hj).trans_lt (stopped.trans_lt k.isLt)
    · have last := List.eq_of_mem_replicate hj
      rw [equal] at last
      rw [last]
      exact (Nat.sub_le m 1).trans_lt (stopped.trans_lt k.isLt)

/-- The first score submitted to an empty table is compared with `scores[10]`. -/
theorem addScoreIndices_zero : ¬ ∀ k ∈ addScoreIndices 0 1 .zero, k < 10 := by
  intro inside
  have mem : 10 ∈ addScoreIndices 0 1 .zero := by
    apply ten_mem_addScoreIndices
    intro k _
    exact Int.zero_lt_one
  exact absurd (inside 10 mem) (by decide)

end LabComputers

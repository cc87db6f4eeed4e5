import Mathlib.Data.List.OfFn
import LabComputers.Lib.Largest
import LabComputers.Lib.Transition
import LabComputers.Proj.Leaderboard

/-!
# The leaderboard over many games and across a restart

`addScore` in closed form: with `m` the first index from 1 on whose score is not below the new one,
the entries below `m` move down by one and the new entry is stored at `m - 1` (`addScore_eq`).  From
it, what a sequence of submitted games leaves in the table, and what the save file keeps.
-/

namespace LabComputers

open CString Largest

/-! ## The loop of `addScore` -/

/-- The entries from `lo` up to `hi`, exclusive, replaced by the ones above them. -/
def Leaderboard.shifted (lb : Leaderboard) (lo hi : ℕ) : Leaderboard where
  names := fun k => if lo ≤ k.val ∧ k.val < hi then strcpy (zeros 7) (lb.names (k + 1))
    else lb.names k
  scores := fun k => if lo ≤ k.val ∧ k.val < hi then lb.scores (k + 1) else lb.scores k

theorem Leaderboard.shifted_self (lb : Leaderboard) (n : ℕ) : lb.shifted n n = lb := by
  have none : ∀ k : Fin 10, ¬ (n ≤ k.val ∧ k.val < n) := by omega
  simp [shifted, none]

theorem val_sub_one {i : Fin 10} (h : 1 ≤ i.val) : (i - 1).val = i.val - 1 := by
  have := i.isLt
  rw [Fin.val_sub]
  simp
  omega

theorem val_add_one {k : Fin 10} (h : k.val < 9) : (k + 1).val = k.val + 1 := by
  rw [Fin.val_add]
  simp
  omega

/-- One iteration of the loop followed by the rest of it. -/
theorem Leaderboard.shift_shifted (lb : Leaderboard) {i : Fin 10} {m : ℕ} (pos : 1 ≤ i.val)
    (hm : i.val + 1 ≤ m) (hm' : m ≤ 10) :
    (lb.shift i).shifted i.val (m - 1) = lb.shifted (i.val - 1) (m - 1) := by
  have prev := val_sub_one pos
  have key : ∀ k : Fin 10, (k = i - 1 ↔ k.val = i.val - 1) := by
    intro k
    rw [Fin.ext_iff, prev]
  have next : ∀ k : Fin 10, k.val < 9 → (k + 1 = i - 1 ↔ k.val + 1 = i.val - 1) := by
    intro k hk
    rw [key, val_add_one hk]
  have back : i - 1 + 1 = i := Fin.ext (by rw [val_add_one (by omega), prev]; omega)
  ext k : 2 <;> simp only [shifted, shift, Function.update_apply]
  all_goals
    by_cases inside : i.val ≤ k.val ∧ k.val < m - 1
    · have hne : ¬ (k + 1 = i - 1) := by
        rw [next k (by omega)]
        omega
      rw [if_pos inside, if_neg hne, if_pos (by omega)]
    · rw [if_neg inside]
      by_cases hk : k = i - 1
      · subst hk
        rw [if_pos rfl, if_pos (by omega), back]
      · rw [if_neg hk, if_neg (by rw [key] at hk; omega)]

/-- The loop stops at the first index whose score is not below the new one. -/
theorem addScoreLoop_eq (past : UInt8) (score : ℤ) (i : ℕ) (lb : Leaderboard) (pos : 1 ≤ i)
    (hi : i ≤ 10) :
    ∃ m, i ≤ m ∧ m ≤ 10 ∧ addScoreLoop past score i lb = (m, lb.shifted (i - 1) (m - 1)) ∧
      (∀ k : Fin 10, i ≤ k.val → k.val < m → ((lb.scores k).toNat : ℤ) < score) ∧
      ∀ k : Fin 10, k.val = m → score ≤ (lb.scores k).toNat := by
  induction i, lb using addScoreLoop.induct past score with
  | case1 i lb below inside ih =>
    obtain ⟨m, hm, hm', heq, smaller, stop⟩ := ih (by omega) (by omega)
    have same : ∀ k : Fin 10, i + 1 ≤ k.val → (lb.shift ⟨i, inside⟩).scores k = lb.scores k := by
      intro k hk
      have hne : k ≠ (⟨i, inside⟩ : Fin 10) - 1 := by
        rw [Ne, Fin.ext_iff, val_sub_one pos]
        simp only
        omega
      simp [Leaderboard.shift, hne]
    refine ⟨m, by omega, hm', ?_, ?_, ?_⟩
    · rw [addScoreLoop, if_pos below, dif_pos inside, heq, Nat.add_sub_cancel]
      rw [← lb.shift_shifted (i := ⟨i, inside⟩) pos hm hm']
    · intro k hk hkm
      rcases Nat.lt_or_ge i k.val with h | h
      · rw [← same k h]
        exact smaller k h hkm
      · obtain rfl : k = ⟨i, inside⟩ := Fin.ext (by simp only; omega)
        simpa [Leaderboard.scoreAt, inside] using below
    · intro k hk
      rw [← same k (by omega)]
      exact stop k hk
  | case2 i lb below outside =>
    refine ⟨i, le_rfl, hi, ?_, by omega, ?_⟩
    · rw [addScoreLoop, if_pos below, dif_neg outside, lb.shifted_self]
    · intro k hk
      omega
  | case3 i lb reached =>
    refine ⟨i, le_rfl, hi, ?_, by omega, ?_⟩
    · rw [addScoreLoop, if_neg reached, lb.shifted_self]
    · rintro k rfl
      simpa [Leaderboard.scoreAt] using reached

/-- `addScore` in closed form. -/
theorem addScore_eq (past : UInt8) (score : ℤ) (name : List UInt8) (lb : Leaderboard) :
    ∃ m : Fin 10, addScore past score name lb = (lb.shifted 0 m).store m score name ∧
      (∀ k : Fin 10, 1 ≤ k.val → k ≤ m → ((lb.scores k).toNat : ℤ) < score) ∧
      ∀ k : Fin 10, m < k → k.val = m.val + 1 → score ≤ (lb.scores k).toNat := by
  obtain ⟨m, hm, hm', heq, smaller, stop⟩ := addScoreLoop_eq past score 1 lb le_rfl (by omega)
  refine ⟨⟨m - 1, by omega⟩, ?_, ?_, ?_⟩
  · have hval : Fin.ofNat 10 (m - 1) = ⟨m - 1, by omega⟩ := Fin.ext (Nat.mod_eq_of_lt (by omega))
    simp only [addScore, heq, hval, Nat.sub_self]
  · intro k hk hkm
    exact smaller k hk (by have := Fin.le_def.1 hkm; simp only at this; omega)
  · intro k _ hk
    exact stop k (by simp only at hk; omega)

/-- The byte read past the array never decides the loop. -/
theorem addScoreLoop_past (past past' : UInt8) (score : ℤ) (i : ℕ) (lb : Leaderboard) :
    addScoreLoop past score i lb = addScoreLoop past' score i lb := by
  induction i, lb using addScoreLoop.induct past score with
  | case1 i lb below inside ih =>
    have below' : ((lb.scoreAt past' i).toNat : ℤ) < score := by
      simpa [Leaderboard.scoreAt, inside] using below
    rw [addScoreLoop, if_pos below, dif_pos inside, ih]
    rw [addScoreLoop.eq_def past' score i lb, if_pos below', dif_pos inside]
  | case2 i lb below outside =>
    rw [addScoreLoop, if_pos below, dif_neg outside, addScoreLoop.eq_def past', dif_neg outside,
      ite_self]
  | case3 i lb reached =>
    rw [addScoreLoop, if_neg reached, addScoreLoop.eq_def past']
    by_cases inside : i < 10
    · rw [if_neg (by simpa [Leaderboard.scoreAt, inside] using reached)]
    · rw [dif_neg inside, ite_self]

theorem addScore_past (past past' : UInt8) (score : ℤ) (name : List UInt8) (lb : Leaderboard) :
    addScore past score name lb = addScore past' score name lb := by
  unfold addScore
  rw [addScoreLoop_past past past']

/-! ## A sequence of games -/

/-- The scores from the worst to the best. -/
def Leaderboard.values (lb : Leaderboard) : List ℕ := List.ofFn fun k => (lb.scores k).toNat

/-- The scores ascend from entry 0 to entry 9. -/
def Leaderboard.Sorted (lb : Leaderboard) : Prop := Monotone fun k => (lb.scores k).toNat

theorem Leaderboard.mem_values {lb : Leaderboard} {v : ℕ} :
    v ∈ lb.values ↔ ∃ k, (lb.scores k).toNat = v := by
  unfold values
  exact List.mem_ofFn

theorem Leaderboard.length_values (lb : Leaderboard) : lb.values.length = 10 := List.length_ofFn

theorem Leaderboard.values_eq_cons (lb : Leaderboard) :
    lb.values = (lb.scores 0).toNat :: lb.values.tail := by
  simp [values, List.ofFn_succ]

/-- Storing a new entry keeps all values but the worst one. -/
theorem Leaderboard.values_store_shifted (lb : Leaderboard) (m : Fin 10) (score : ℤ)
    (name : List UInt8) :
    ((lb.shifted 0 m).store m score name).values =
      lb.values.tail.take m ++ (UInt8.ofInt score).toNat :: lb.values.tail.drop m := by
  have hm := m.isLt
  apply List.ext_getElem
  · simp [values]
    omega
  · intro n h₁ h₂
    have hn : n < 10 := by simpa [values] using h₁
    rw [List.getElem_append]
    simp only [List.length_take, List.length_tail, values, List.length_ofFn, List.getElem_ofFn,
      store, shifted, Function.update_apply, Fin.ext_iff, Nat.zero_le, true_and,
      List.getElem_take, List.getElem_tail, List.getElem_cons, List.getElem_drop]
    rcases Nat.lt_trichotomy n m.val with h | h | h
    · have next : (⟨n, hn⟩ : Fin 10) + 1 = ⟨n + 1, by omega⟩ :=
        Fin.ext (val_add_one (by simp only; omega))
      rw [if_neg (by omega), if_pos h, dif_pos (by omega), next]
    · rw [if_pos h, dif_neg (by omega), dif_pos (by omega)]
    · rw [if_neg (by omega), if_neg (by omega), dif_neg (by omega), dif_neg (by omega)]
      congr 3
      omega

/-- Play `game` and submit its points under its name. -/
def submit (past : UInt8) (lb : Leaderboard) (game : UInt32 × List UInt8) : Leaderboard :=
  if compareScore (toInt game.1) lb then addScore past (toInt game.1) game.2 lb else lb

/-- The leaderboard after a sequence of games that starts from an empty one. -/
def submitAll (past : UInt8) (games : List (UInt32 × List UInt8)) : Leaderboard :=
  Transition.run (submit past) .zero games

/-- The scores are sorted, the best last, and are the ten largest of ten zeros and `points`. -/
def TopTen (lb : Leaderboard) (points : List ℕ) : Prop :=
  lb.Sorted ∧
    (lb.values : Multiset ℕ) = largest 10 (Multiset.replicate 10 0 + (points : Multiset ℕ))

/-- The stored scores dominate every score that is not stored. -/
def Kept (lb : Leaderboard) (points : List ℕ) : Prop :=
  lb.Sorted ∧ ∃ R : Multiset ℕ,
    Multiset.replicate 10 0 + (points : Multiset ℕ) = (lb.values : Multiset ℕ) + R ∧
      Dominates (lb.values : Multiset ℕ) R

theorem Kept.topTen {lb : Leaderboard} {points : List ℕ} (h : Kept lb points) :
    TopTen lb points := by
  obtain ⟨sorted, R, split, dominates⟩ := h
  refine ⟨sorted, ?_⟩
  have h := coe_largest dominates
  rw [Multiset.coe_card, lb.length_values] at h
  rw [split, h]

theorem kept_zero : Kept .zero [] := by
  refine ⟨fun _ _ _ => le_rfl, 0, ?_, ?_⟩
  · decide
  · intro x _ y hy
    simp at hy

/-- The two halves of the range of an `unsigned int`. -/
theorem toInt_cases (n : UInt32) :
    n.toNat < 2 ^ 31 ∧ toInt n = n.toNat ∨ 2 ^ 31 ≤ n.toNat ∧ toInt n = n.toNat - 2 ^ 32 := by
  have value : toInt n = (n.toNat : ℤ).bmod (2 ^ 32) := BitVec.toInt_eq_toNat_bmod n.toBitVec
  have range := n.toNat_lt
  rw [Int.bmod_def] at value
  split_ifs at value <;> omega

theorem toInt_of_le {n : UInt32} (h : n.toNat ≤ 255) : toInt n = n.toNat := by
  rcases toInt_cases n with ⟨-, value⟩ | ⟨large, -⟩
  · exact value
  · omega

/-- Inserting a score between its neighbours keeps the table sorted. -/
theorem sorted_store_shifted {lb : Leaderboard} (sorted : lb.Sorted) {m : Fin 10} {score : ℤ}
    (name : List UInt8)
    (smaller : ∀ k : Fin 10, 1 ≤ k.val → k ≤ m → (lb.scores k).toNat ≤ (UInt8.ofInt score).toNat)
    (stop : ∀ k : Fin 10, m < k → (UInt8.ofInt score).toNat ≤ (lb.scores k).toNat) :
    ((lb.shifted 0 m).store m score name).Sorted := by
  have hm := m.isLt
  intro k l hkl
  have hkl' := Fin.le_def.1 hkl
  simp only [Leaderboard.store, Leaderboard.shifted, Function.update_apply, Nat.zero_le, true_and]
  rcases lt_trichotomy l m with hl | rfl | hl
  · have hlv := Fin.lt_def.1 hl
    have hk : k < m := lt_of_le_of_lt hkl hl
    rw [if_neg hk.ne, if_neg hl.ne, if_pos (Fin.lt_def.1 hk), if_pos hlv]
    refine sorted (Fin.le_def.2 ?_)
    rw [val_add_one (by omega), val_add_one (by omega)]
    omega
  · rcases hkl.lt_or_eq with hk | rfl
    · have hkv := Fin.lt_def.1 hk
      have next := val_add_one (k := k) (by omega)
      rw [if_neg hk.ne, if_pos hkv, if_pos rfl]
      exact smaller (k + 1) (by omega) (Fin.le_def.2 (by omega))
    · exact le_rfl
  · have hlv := Fin.lt_def.1 hl
    rw [if_neg hl.ne', if_neg (by omega : ¬ l.val < m.val)]
    rcases lt_trichotomy k m with hk | rfl | hk
    · have hkv := Fin.lt_def.1 hk
      rw [if_neg hk.ne, if_pos hkv]
      exact sorted (Fin.le_def.2 (by rw [val_add_one (by omega)]; omega))
    · rw [if_pos rfl]
      exact stop l hl
    · rw [if_neg hk.ne', if_neg (by have := Fin.lt_def.1 hk; omega : ¬ k.val < m.val)]
      exact sorted hkl

theorem ofInt_of_le {n : ℕ} (h : n ≤ 255) : (UInt8.ofInt n).toNat = n := by
  have key : ∀ k ≤ 255, (UInt8.ofInt (k : ℕ)).toNat = k := by decide +kernel
  exact key n h

/-- `addScore` of a score that fits replaces the lowest score and keeps the order. -/
theorem addScore_sorted {lb : Leaderboard} (sorted : lb.Sorted) (past : UInt8) {points : UInt32}
    (small : points.toNat ≤ 255) (name : List UInt8) :
    (addScore past (toInt points) name lb).Sorted ∧
      ((addScore past (toInt points) name lb).values : Multiset ℕ) =
        points.toNat ::ₘ (lb.values.tail : Multiset ℕ) := by
  have score := toInt_of_le small
  have stored : (UInt8.ofInt (toInt points)).toNat = points.toNat := by
    rw [score, ofInt_of_le small]
  obtain ⟨m, heq, smaller, stop⟩ := addScore_eq past (toInt points) name lb
  rw [heq]
  refine ⟨?_, ?_⟩
  · apply sorted_store_shifted sorted name
    · intro k hk hkm
      have := smaller k hk hkm
      rw [score] at this
      omega
    · intro k hk
      have hkv := Fin.lt_def.1 hk
      have next := stop ⟨m.val + 1, by omega⟩ (Fin.lt_def.2 (by simp)) rfl
      have mono : (lb.scores ⟨m.val + 1, by omega⟩).toNat ≤ (lb.scores k).toNat :=
        sorted (Fin.le_def.2 hkv)
      rw [score] at next
      omega
  · rw [lb.values_store_shifted, stored, Multiset.cons_coe, Multiset.coe_eq_coe]
    exact List.perm_middle.trans (by rw [List.take_append_drop])

/-- A score of at most 255 leaves the ten largest scores in the table. -/
theorem Kept.submit {lb : Leaderboard} {points : List ℕ} (h : Kept lb points) (past : UInt8)
    {game : UInt32 × List UInt8} (small : game.1.toNat ≤ 255) :
    Kept (submit past lb game) (points ++ [game.1.toNat]) := by
  obtain ⟨sorted, R, split, dominates⟩ := h
  have offered : Multiset.replicate 10 0 + ((points ++ [game.1.toNat] : List ℕ) : Multiset ℕ) =
      (lb.values : Multiset ℕ) + (game.1.toNat ::ₘ R) := by
    rw [← Multiset.coe_add, ← add_assoc, split, Multiset.coe_singleton, add_assoc, add_comm R]
    rfl
  have least : ∀ x ∈ (lb.values : Multiset ℕ), (lb.scores 0).toNat ≤ x := by
    intro x hx
    obtain ⟨k, rfl⟩ := Leaderboard.mem_values.1 (Multiset.mem_coe.1 hx)
    exact sorted (Fin.zero_le k)
  have score := toInt_of_le small
  unfold LabComputers.submit
  by_cases better : compareScore (toInt game.1) lb
  · rw [if_pos better]
    have above : (lb.scores 0).toNat < game.1.toNat := by
      simpa [compareScore, score] using better
    obtain ⟨sorted', perm⟩ := addScore_sorted sorted past small game.2
    refine ⟨sorted', (lb.scores 0).toNat ::ₘ R, ?_, ?_⟩
    · rw [offered, perm]
      conv_lhs => rw [lb.values_eq_cons]
      rw [← Multiset.cons_coe, Multiset.cons_add, Multiset.add_cons, Multiset.cons_add,
        Multiset.add_cons, Multiset.cons_swap]
    · rw [perm]
      rw [lb.values_eq_cons, ← Multiset.cons_coe] at dominates
      refine dominates.replace (fun x hx => ?_) above.le
      exact least x (Multiset.mem_coe.2 (List.mem_of_mem_tail (Multiset.mem_coe.1 hx)))
  · rw [if_neg better]
    have below : game.1.toNat ≤ (lb.scores 0).toNat := by
      simpa [compareScore, score] using better
    exact ⟨sorted, game.1.toNat ::ₘ R, offered, dominates.reject fun x hx => below.trans (least x hx)⟩

theorem kept_submitAll (past : UInt8) (games : List (UInt32 × List UInt8))
    (small : ∀ game ∈ games, game.1.toNat ≤ 255) :
    Kept (submitAll past games) (games.map fun game => game.1.toNat) := by
  induction games using List.reverseRecOn with
  | nil => exact kept_zero
  | append_singleton games game ih =>
    rw [submitAll, Transition.run_concat, List.map_append, List.map_singleton]
    exact (ih fun g hg => small g (by simp [hg])).submit past (small game (by simp))

/-- No table of bytes holds the largest of scores above 255. -/
theorem not_topTen_of_large {lb : Leaderboard} {points : List ℕ} {v : ℕ} (hv : v ∈ points)
    (large : 255 < v) : ¬ TopTen lb points := by
  rintro ⟨-, equal⟩
  obtain ⟨x, hx, le⟩ := exists_ge_mem_largest (k := 10) (by omega)
    (M := Multiset.replicate 10 0 + (points : Multiset ℕ)) (v := v) (by simp [hv])
  rw [← Multiset.mem_coe, ← equal, Multiset.mem_coe] at hx
  obtain ⟨k, rfl⟩ := Leaderboard.mem_values.1 hx
  have := (lb.scores k).toNat_lt
  omega

/-- Throughout a sequence of games the table is sorted and holds the ten largest scores if and only
if no game ends with more than 255 points. -/
theorem submitAll_topTen_iff (past : UInt8) (games : List (UInt32 × List UInt8)) :
    (∀ played, played <+: games →
        TopTen (submitAll past played) (played.map fun game => game.1.toNat)) ↔
      ∀ game ∈ games, game.1.toNat ≤ 255 := by
  constructor
  · intro h game hgame
    by_contra large
    exact not_topTen_of_large (List.mem_map_of_mem hgame) (by omega) (h games List.prefix_rfl)
  · intro small played hp
    exact (kept_submitAll past played fun game hg => small game (hp.subset hg)).topTen

/-- One game of 256 points leaves a zero in the table. -/
theorem submitAll_256 :
    (256 : UInt32).toNat = 256 ∧ ¬ TopTen (submitAll 0 [(256, ascii "A")]) [256] :=
  ⟨rfl, not_topTen_of_large (v := 256) (by simp) (by omega)⟩

/-! ## The save file -/

/-- The bytes of a name typed by the player. -/
def isNameByte (c : UInt8) : Bool := c = 45 ∨ (65 ≤ c ∧ c ≤ 90)

/-- The ten names are strings of at most six letters or dashes. -/
def Leaderboard.ValidNames (lb : Leaderboard) : Prop :=
  ∀ i, (lb.names i).length = 7 ∧ strlen (lb.names i) ≤ 6 ∧ (str (lb.names i)).all isNameByte

/-- Writing the file and reading it into a zeroed leaderboard gives back every score and name,
whatever the uninitialised line buffer holds. -/
def RoundTrips (lb : Leaderboard) : Prop :=
  ∀ line : List UInt8, ∃ lb', readSaveFile (some (writeSaveFile lb)) line .zero = some lb' ∧
    lb'.scores = lb.scores ∧ ∀ i, str (lb'.names i) = str (lb.names i)

/-- The loop of `writeSaveFile` is never entered. -/
theorem writeSaveFile_eq_nil (lb : Leaderboard) : writeSaveFile lb = [] := rfl

theorem readSaveFile_empty (line : List UInt8) :
    readSaveFile (some []) line .zero = some .zero := rfl

/-- The save file keeps a leaderboard if and only if there is nothing to keep. -/
theorem roundTrips_iff (lb : Leaderboard) :
    RoundTrips lb ↔ ∀ i, lb.scores i = 0 ∧ str (lb.names i) = [] := by
  unfold RoundTrips
  simp only [writeSaveFile_eq_nil, readSaveFile_empty, Option.some.injEq, exists_eq_left']
  constructor
  · intro h i
    obtain ⟨scores, names⟩ := h []
    exact ⟨(congrFun scores i).symm, (names i).symm.trans (str_zeros 7)⟩
  · intro h _
    exact ⟨funext fun i => (h i).1.symm, fun i => (str_zeros 7).trans (h i).2.symm⟩

/-- The leaderboard after a first game of one point by `A`. -/
def oneEntry : Leaderboard where
  names := fun i => if i = 9 then strcpy (zeros 7) (ascii "A") else zeros 7
  scores := fun i => if i = 9 then 1 else 0

theorem oneEntry_lost : oneEntry.ValidNames ∧ ¬ RoundTrips oneEntry := by
  refine ⟨?_, ?_⟩
  · unfold Leaderboard.ValidNames
    decide
  · intro h
    obtain ⟨lb', read, scores, -⟩ := h []
    rw [writeSaveFile_eq_nil, readSaveFile_empty, Option.some.injEq] at read
    subst read
    exact absurd (congrFun scores 9) (by decide)

end LabComputers

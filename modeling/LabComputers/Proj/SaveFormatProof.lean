import LabComputers.Proj.LeaderboardProof
import LabComputers.Proj.SaveFileProof

/-!
# The format of the save file

The rows that the body of the loop of `writeSaveFile` prints are rows for `readSaveFile`
(`readRow_saveRow`): a file of them gives the entries back, from the best one down, as many as there are in the
file.  What keeps the leaderboard from being saved is the condition of the loop and nothing else.
-/

namespace LabComputers

open CString

/-- `k` rows, from that of entry `n - 1` down. -/
def saveRows (lb : Leaderboard) : ℕ → ℕ → List UInt8
  | _, 0 => []
  | n, k + 1 => saveRow lb (Fin.ofNat 10 (n - 1)) ++ saveRows lb (n - 1) k

/-! ## One row -/

theorem saveRow_eq (lb : Leaderboard) (i : Fin 10) :
    saveRow lb i = decimal (lb.scores i).toNat ++ 32 :: (str (lb.names i) ++ [46]) ++ [10] := by
  have blank : ascii " " = [32] := rfl
  have dot : ascii ".\n" = [46, 10] := rfl
  rw [saveRow, blank, dot]
  change decimal (lb.scores i).toNat ++ [32] ++ str (lb.names i) ++ [46, 10] = _
  simp

theorem not_mem_decimal {n : ℕ} {c : UInt8} (other : isDigit c = false) : c ∉ decimal n := fun mem => by
  rw [isDigit_of_mem_decimal mem] at other
  exact Bool.noConfusion other

theorem Leaderboard.ValidNames.not_mem {lb : Leaderboard} (valid : lb.ValidNames) (i : Fin 10) {c : UInt8}
    (other : isNameByte c = false) : c ∉ str (lb.names i) := fun mem => by
  rw [List.all_eq_true.1 (valid i).2.2 c mem] at other
  exact Bool.noConfusion other

/-- A row that is read gives the entry back. -/
theorem readRow_saveRow {lb : Leaderboard} (valid : lb.ValidNames) (i : Fin 10) (lb₀ : Leaderboard)
    (line file : List UInt8) :
    ∃ line', fgets line 48 (saveRow lb i ++ file) = some (line', file) ∧
      readRow line' i lb₀ = some {
        names := Function.update lb₀.names i (strcpy (lb₀.names i) (str (lb.names i)))
        scores := Function.update lb₀.scores i (lb.scores i) } := by
  have score : (decimal (lb.scores i).toNat).length ≤ 3 :=
    length_decimal_le (by decide) ((lb.scores i).toNat_lt.trans (by decide))
  have name : (str (lb.names i)).length ≤ 6 := (valid i).2.1
  have clean : ∀ c ∈ decimal (lb.scores i).toNat, c ≠ 0 := by
    rintro c mem rfl
    exact not_mem_decimal (by decide) mem
  have kept : str (str (lb.names i)) = str (lb.names i) := str_eq_self fun _ => ne_zero_of_mem_str
  have single : 10 ∉ decimal (lb.scores i).toNat ++ 32 :: (str (lb.names i) ++ [46]) := by
    simp only [List.mem_append, List.mem_cons, List.not_mem_nil, or_false, not_or]
    exact ⟨not_mem_decimal (by decide), by decide, valid.not_mem i (by decide), by decide⟩
  have short : (decimal (lb.scores i).toNat ++ 32 :: (str (lb.names i) ++ [46])).length + 1 < 48 := by
    simp only [List.length_append, List.length_cons, List.length_nil]
    omega
  obtain ⟨rest, read⟩ := fgets_line single short line file
  rw [saveRow_eq, List.append_assoc _ [10], List.singleton_append]
  refine ⟨_, read, readRow_eq_some_iff.2 ⟨decimal (lb.scores i).toNat, str (lb.names i), 10 :: 0 :: rest,
    ?_, not_mem_decimal (by decide), valid.not_mem i (by decide), .inl (by omega), .inl (by omega), ?_, ?_⟩⟩
  · simp
  · rw [strlen, kept]
    exact name
  · have small := (lb.scores i).toNat_lt
    have stored : UInt8.ofInt ((lb.scores i).toNat : ℤ) = lb.scores i :=
      UInt8.toNat_inj.1 (ofInt_of_le (by omega))
    rw [str_eq_self clean, atoi_decimal, kept, stored]

/-! ## The file -/

/-- `lb'` has the entries from `m` up to `n` from `lb`, and the others from `lb₀`. -/
def Restored (lb₀ lb : Leaderboard) (m n : ℕ) (lb' : Leaderboard) : Prop :=
  ∀ i : Fin 10,
    (m ≤ i ∧ i < n → lb'.scores i = lb.scores i ∧ str (lb'.names i) = str (lb.names i)) ∧
    (¬ (m ≤ i ∧ i < n) → lb'.scores i = lb₀.scores i ∧ str (lb'.names i) = str (lb₀.names i))

theorem readSaveFileLoop_rows {lb : Leaderboard} (valid : lb.ValidNames) {k n : ℕ} (some_rows : k ≤ n)
    (below : n ≤ 10) (line : List UInt8) (lb₀ : Leaderboard) :
    ∃ lb', readSaveFileLoop n line (saveRows lb n k) lb₀ = some lb' ∧ Restored lb₀ lb (n - k) n lb' := by
  induction k generalizing n line lb₀ with
  | zero =>
    have ended : readSaveFileLoop n line (saveRows lb n 0) lb₀ = some lb₀ := by
      cases n <;> simp [readSaveFileLoop, saveRows, fgets]
    exact ⟨lb₀, ended, fun i => ⟨fun inside => by omega, fun _ => ⟨rfl, rfl⟩⟩⟩
  | succ k ih =>
    obtain ⟨n, rfl⟩ := Nat.exists_eq_succ_of_ne_zero (Nat.ne_of_gt (Nat.zero_lt_of_lt some_rows))
    have row : (Fin.ofNat 10 n).val = n := Nat.mod_eq_of_lt (Nat.lt_of_succ_le below)
    obtain ⟨line', read, stored⟩ :=
      readRow_saveRow valid (Fin.ofNat 10 n) lb₀ line (saveRows lb n k)
    obtain ⟨lb', rest, restored⟩ := ih (Nat.le_of_succ_le_succ some_rows) (Nat.le_of_succ_le below) line' {
      names := Function.update lb₀.names (Fin.ofNat 10 n)
        (strcpy (lb₀.names (Fin.ofNat 10 n)) (str (lb.names (Fin.ofNat 10 n))))
      scores := Function.update lb₀.scores (Fin.ofNat 10 n) (lb.scores (Fin.ofNat 10 n)) }
    refine ⟨lb', ?_, fun i => ?_⟩
    · rw [saveRows, Nat.succ_sub_one, readSaveFileLoop, read]
      simp only [stored, Option.bind_eq_bind, Option.bind_some]
      exact rest
    · obtain ⟨inside, outside⟩ := restored i
      rw [Nat.succ_sub_succ]
      by_cases here : i = Fin.ofNat 10 n
      · obtain ⟨scores, names⟩ := outside (by rw [here, row]; omega)
        simp only [here, Function.update_self] at scores names
        rw [str_strcpy, str_eq_self fun _ => ne_zero_of_mem_str] at names
        rw [here, row]
        exact ⟨fun _ => ⟨scores, names⟩, fun other => absurd ⟨by omega, by omega⟩ other⟩
      · have other : i.val ≠ n := fun e => here (Fin.ext (e.trans row.symm))
        simp only [Function.update_of_ne here] at outside
        exact ⟨fun range => inside (by omega), fun range => outside (by omega)⟩

/-- A file of the `k` best rows of a leaderboard gives those entries back and no other, whatever the line
buffer and the leaderboard held before. -/
theorem readSaveFile_rows {lb : Leaderboard} (valid : lb.ValidNames) {k : ℕ} (rows : k ≤ 10)
    (line : List UInt8) (lb₀ : Leaderboard) :
    ∃ lb', readSaveFile (some (saveRows lb 10 k)) line lb₀ = some lb' ∧
      ∀ i : Fin 10,
        (10 - k ≤ i → lb'.scores i = lb.scores i ∧ str (lb'.names i) = str (lb.names i)) ∧
        (i < 10 - k → lb'.scores i = lb₀.scores i ∧ str (lb'.names i) = []) := by
  obtain ⟨lb', read, restored⟩ :=
    readSaveFileLoop_rows valid rows le_rfl line { lb₀ with names := fun _ => zeros 7 }
  refine ⟨lb', read, fun i => ⟨fun inside => (restored i).1 ⟨inside, i.isLt⟩, fun outside => ?_⟩⟩
  obtain ⟨scores, names⟩ := (restored i).2 fun range => by omega
  exact ⟨scores, names.trans (str_zeros 7)⟩

/-- The two best entries, one of them without a name. -/
def twoEntries : Leaderboard where
  names := fun i => if i = 9 then pad 7 (ascii "A-B") else zeros 7
  scores := fun i => if i = 9 then 255 else if i = 8 then 10 else 0

theorem readSaveFile_rows_two : ∃ lb', readSaveFile (some (ascii "255 A-B.\n10 .\n")) [] .zero = some lb' ∧
    lb'.scores 9 = 255 ∧ str (lb'.names 9) = ascii "A-B" ∧ lb'.scores 8 = 10 := by
  have valid : twoEntries.ValidNames := by
    unfold Leaderboard.ValidNames
    decide
  obtain ⟨lb', read, entries⟩ := readSaveFile_rows valid (k := 2) (by decide) [] .zero
  obtain ⟨best, name⟩ := (entries 9).1 (by decide)
  exact ⟨lb', read, best, name, ((entries 8).1 (by decide)).1⟩

end LabComputers

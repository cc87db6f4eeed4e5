import LabComputers.Proj.Leaderboard

/-!
# Reading any save file

`readSaveFile` looks for a blank and for a dot in its line without a bound and copies what stands
before them into `temp_str[10]`.  It keeps to its arrays if and only if each line buffer it reads
has the form of a row (`RowFits`); no file is excluded, not even one without blanks.
-/

namespace LabComputers

open CString

/-- The bytes copied to `temp_str[10]` fit and leave a zero byte after or among them. -/
def Copied (text : List UInt8) : Prop := text.length ≤ 9 ∨ text.length = 10 ∧ 0 ∈ text

/-- A score, a blank, a name of at most six characters and a dot, whatever follows. -/
def RowFits (line : List UInt8) : Prop :=
  ∃ score name rest, line = score ++ 32 :: (name ++ 46 :: rest) ∧ 32 ∉ score ∧ 46 ∉ name ∧
    Copied score ∧ Copied name ∧ strlen name ≤ 6

/-- The contents of `line` after each of the first `n` calls of `fgets`. -/
def lineBuffers : ℕ → List UInt8 → List UInt8 → List (List UInt8)
  | 0, _, _ => []
  | n + 1, line, file =>
    match fgets line 48 file with
    | none => []
    | some (line, file) => line :: lineBuffers n line file

/-- Each name is terminated inside its seven bytes. -/
def Leaderboard.Terminated (lb : Leaderboard) : Prop :=
  ∀ i, (lb.names i).length = 7 ∧ 0 ∈ lb.names i

/-! ## The scan of a line -/

/-- A list that does not start with `stop` is cut at `stop` where its tail is. -/
theorem cut_cons_iff {c stop : UInt8} (other : c ≠ stop) {tail : List UInt8}
    {p : List UInt8 → Prop} :
    (∃ text rest, c :: tail = text ++ stop :: rest ∧ stop ∉ text ∧ p text) ↔
      ∃ text rest, tail = text ++ stop :: rest ∧ stop ∉ text ∧ p (c :: text) := by
  constructor
  · rintro ⟨text, rest, equal, absent, h⟩
    cases text with
    | nil => exact absurd (List.cons.inj equal).1 other
    | cons d text =>
      obtain ⟨rfl, behind⟩ := List.cons.inj equal
      exact ⟨text, rest, behind, fun mem => absent (List.mem_cons_of_mem _ mem), h⟩
  · rintro ⟨text, rest, rfl, absent, h⟩
    refine ⟨c :: text, rest, rfl, ?_, h⟩
    rw [List.mem_cons, not_or]
    exact ⟨Ne.symm other, absent⟩

/-- The scan succeeds when the bytes before `stop` fit in the temporary string after those already
copied to it. -/
theorem scanUntil_eq_some_iff {line tail : List UInt8} (stop : UInt8) {j : ℕ}
    (at_ : line.drop j = tail) {n : ℕ} {copied : List UInt8} (fits : copied.length ≤ n)
    {r : ℕ × List UInt8} :
    scanUntil line stop j copied.length (pad n copied) = some r ↔
      ∃ text rest, tail = text ++ stop :: rest ∧ stop ∉ text ∧
        (copied ++ text).length ≤ n ∧ r = (j + text.length, pad n (copied ++ text)) := by
  induction tail generalizing j copied with
  | nil =>
    have outside : ¬ j < line.length := not_lt.2 (List.drop_eq_nil_iff.1 at_)
    rw [scanUntil, dif_neg outside]
    simp
  | cons c tail ih =>
    have inside : j < line.length := by
      by_contra outside
      simp [List.drop_eq_nil_of_le (not_lt.1 outside)] at at_
    obtain ⟨byte, next⟩ : line.get ⟨j, inside⟩ = c ∧ line.drop (j + 1) = tail := by
      rw [List.drop_eq_getElem_cons inside, List.cons.injEq] at at_
      exact at_
    rw [scanUntil, dif_pos inside, byte]
    by_cases found : c = stop
    · subst found
      rw [if_pos rfl]
      constructor
      · intro h
        refine ⟨[], tail, rfl, List.not_mem_nil, by simpa using fits, ?_⟩
        simpa using (Option.some.inj h).symm
      · rintro ⟨text, rest, equal, absent, -, rfl⟩
        cases text with
        | nil => simp
        | cons d text =>
          rw [List.cons_append, List.cons.injEq] at equal
          exact absurd (by simp [equal.1]) absent
    · rw [if_neg found, length_pad fits, cut_cons_iff found]
      by_cases room : copied.length < n
      · have longer : (copied ++ [c]).length = copied.length + 1 := List.length_append
        have fits' : (copied ++ [c]).length ≤ n := by omega
        have step := ih next fits'
        rw [longer] at step
        rw [if_pos room, set_pad_length room, step]
        simp only [List.append_assoc, List.singleton_append, List.length_cons, Nat.add_assoc,
          Nat.add_comm 1]
      · rw [if_neg room]
        simp only [List.length_append, List.length_cons]
        refine ⟨nofun, ?_⟩
        rintro ⟨text, rest, -, -, fits', -⟩
        omega

theorem zero_mem_pad_iff {text : List UInt8} (fits : text.length ≤ 10) :
    0 ∈ pad 10 text ↔ Copied text := by
  rw [pad, zeros, List.mem_append, List.mem_replicate, Copied]
  constructor
  · rintro (mem | ⟨room, -⟩)
    · rcases fits.lt_or_eq with shorter | equal
      · exact .inl (by omega)
      · exact .inr ⟨equal, mem⟩
    · exact .inl (by omega)
  · rintro (shorter | ⟨-, mem⟩)
    · exact .inr ⟨by omega, rfl⟩
    · exact .inl mem

/-- A field of a row: the bytes from `j` up to `stop`, copied and read back as a string. -/
theorem field_iff {line : List UInt8} {stop : UInt8} {j j' : ℕ} {s : List UInt8} :
    (∃ temp, scanUntil line stop j 0 (zeros 10) = some (j', temp) ∧ terminated temp = some s) ↔
      ∃ text rest, line.drop j = text ++ stop :: rest ∧ stop ∉ text ∧ Copied text ∧
        j' = j + text.length ∧ s = str text := by
  have empty : ([] : List UInt8).length ≤ 10 := Nat.zero_le 10
  have scan {r} := scanUntil_eq_some_iff stop (rfl : line.drop j = line.drop j) empty (r := r)
  change ∀ {r}, scanUntil line stop j 0 (zeros 10) = some r ↔ _ at scan
  constructor
  · rintro ⟨temp, scanned, ended⟩
    obtain ⟨text, rest, cut, absent, fits, equal⟩ := scan.1 scanned
    obtain ⟨rfl, rfl⟩ := Prod.mk.inj equal
    simp only [terminated, List.nil_append, Option.ite_none_right_eq_some, Option.some.injEq] at ended
    obtain ⟨mem, rfl⟩ := ended
    exact ⟨text, rest, cut, absent, (zero_mem_pad_iff fits).1 mem, rfl, str_append_zeros _ _⟩
  · rintro ⟨text, rest, cut, absent, copied, rfl, rfl⟩
    have fits : text.length ≤ 10 := by
      rcases copied with shorter | ⟨equal, -⟩ <;> omega
    refine ⟨pad 10 text, scan.2 ⟨text, rest, cut, absent, fits, rfl⟩, ?_⟩
    rw [terminated, if_pos ((zero_mem_pad_iff fits).2 copied), pad, str_append_zeros]

/-! ## The rows -/

theorem readRow_eq_some_iff {line : List UInt8} {i : Fin 10} {lb lb' : Leaderboard} :
    readRow line i lb = some lb' ↔
      ∃ score name rest, line = score ++ 32 :: (name ++ 46 :: rest) ∧ 32 ∉ score ∧ 46 ∉ name ∧
        Copied score ∧ Copied name ∧ strlen name ≤ 6 ∧
        lb' = {
          names := Function.update lb.names i (strcpy (lb.names i) (str name))
          scores := Function.update lb.scores i (UInt8.ofInt (atoi (str score))) } := by
  have behind (score rest : List UInt8) :
      (score ++ 32 :: rest).drop (0 + score.length + 1) = rest := by
    rw [Nat.zero_add, ← List.drop_drop, List.drop_left]
    rfl
  simp only [readRow, Option.bind_eq_bind, Option.bind_eq_some_iff]
  constructor
  · rintro ⟨⟨j, temp⟩, scanned, _, ended, ⟨j', temp'⟩, scanned', _, ended', stored⟩
    obtain ⟨score, rest, cut, absent, copied, rfl, rfl⟩ := field_iff.1 ⟨temp, scanned, ended⟩
    obtain ⟨name, rest', cut', absent', copied', -, rfl⟩ := field_iff.1 ⟨temp', scanned', ended'⟩
    rw [List.drop_zero] at cut
    subst cut
    rw [behind] at cut'
    subst cut'
    rw [Option.ite_none_right_eq_some, Option.some.injEq] at stored
    obtain ⟨short, rfl⟩ := stored
    exact ⟨score, name, rest', rfl, absent, absent', copied, copied', Nat.le_of_lt_succ short, rfl⟩
  · rintro ⟨score, name, rest, rfl, absent, absent', copied, copied', short, rfl⟩
    obtain ⟨temp, scanned, ended⟩ := field_iff.2
      ⟨score, name ++ 46 :: rest, List.drop_zero, absent, copied, rfl, rfl⟩
    obtain ⟨temp', scanned', ended'⟩ := field_iff.2
      ⟨name, rest, behind score (name ++ 46 :: rest), absent', copied', rfl, rfl⟩
    refine ⟨_, scanned, _, ended, _, scanned', _, ended', ?_⟩
    rw [if_pos (show (str name).length < 7 from Nat.lt_succ_of_le short)]

theorem exists_readRow_iff {line : List UInt8} {i : Fin 10} {lb : Leaderboard} :
    (∃ lb', readRow line i lb = some lb') ↔ RowFits line := by
  simp only [readRow_eq_some_iff, RowFits]
  constructor
  · rintro ⟨lb', score, name, rest, equal, absent, absent', copied, copied', short, -⟩
    exact ⟨score, name, rest, equal, absent, absent', copied, copied', short⟩
  · rintro ⟨score, name, rest, equal, absent, absent', copied, copied', short⟩
    exact ⟨_, score, name, rest, equal, absent, absent', copied, copied', short, rfl⟩

/-- A row that is read leaves every name terminated. -/
theorem Leaderboard.Terminated.readRow {lb lb' : Leaderboard} (h : lb.Terminated)
    {line : List UInt8} {i : Fin 10} (read : readRow line i lb = some lb') : lb'.Terminated := by
  obtain ⟨score, name, rest, -, -, -, -, -, short, rfl⟩ := readRow_eq_some_iff.1 read
  intro k
  by_cases row : k = i
  · subst row
    have size := (h k).1
    have name : strlen (str name) ≤ 6 := by
      rwa [strlen, str_eq_self fun _ => ne_zero_of_mem_str]
    simp only [Function.update_self, strcpy]
    refine ⟨?_, ?_⟩
    · rw [strlen] at name
      rw [List.length_append, List.length_cons, List.length_drop, size, strlen]
      omega
    · simp
  · simp only [Function.update_of_ne row]
    exact h k

/-- The loop of `readSaveFile` succeeds if and only if all its line buffers are rows. -/
theorem readSaveFileLoop_iff (n : ℕ) (line file : List UInt8) {lb : Leaderboard}
    (terminated : lb.Terminated) :
    (∃ lb', readSaveFileLoop n line file lb = some lb' ∧ lb'.Terminated) ↔
      ∀ b ∈ lineBuffers n line file, RowFits b := by
  induction n generalizing line file lb with
  | zero => simp [readSaveFileLoop, lineBuffers, terminated]
  | succ n ih =>
    rw [readSaveFileLoop, lineBuffers]
    cases read : fgets line 48 file with
    | none => simp [terminated]
    | some next =>
      obtain ⟨line, file⟩ := next
      simp only [List.forall_mem_cons, Option.bind_eq_bind, Option.bind_eq_some_iff]
      rw [← @exists_readRow_iff _ (Fin.ofNat 10 n) lb]
      constructor
      · rintro ⟨lb'', ⟨lb', row, rows⟩, ended⟩
        exact ⟨⟨lb', row⟩, (ih line file (terminated.readRow row)).1 ⟨lb'', rows, ended⟩⟩
      · rintro ⟨⟨lb', row⟩, fits⟩
        obtain ⟨lb'', rows, ended⟩ := (ih line file (terminated.readRow row)).2 fits
        exact ⟨lb'', ⟨lb', row, rows⟩, ended⟩

theorem terminated_zeros (scores : Fin 10 → UInt8) :
    (Leaderboard.mk (fun _ => zeros 7) scores).Terminated := by
  intro i
  change (zeros 7).length = 7 ∧ 0 ∈ zeros 7
  decide

/-- `readSaveFile` keeps to its arrays and terminates every name if and only if each line it
reads, together with what the line buffer still holds behind it, is a row. -/
theorem readSaveFile_safe_iff (file : Option (List UInt8)) (line : Vector UInt8 48)
    (lb : Leaderboard) :
    (∃ lb', readSaveFile file line.toList lb = some lb' ∧ lb'.Terminated) ↔
      ∀ b ∈ lineBuffers 10 line.toList (file.getD []), RowFits b := by
  cases file with
  | none =>
    refine iff_of_true ⟨_, rfl, terminated_zeros _⟩ ?_
    intro b mem
    simp [lineBuffers, fgets] at mem
  | some file => exact readSaveFileLoop_iff 10 line.toList file (terminated_zeros _)

/-- A file of one letter makes the scan for a blank run past `temp_str[10]`. -/
theorem readSaveFile_letter :
    ¬ ∃ lb', readSaveFile (some (ascii "A")) (Vector.replicate 48 0).toList .zero = some lb' ∧
      lb'.Terminated := by
  intro read
  have rows := (readSaveFileLoop_iff 10 (Vector.replicate 48 0).toList (ascii "A")
    (terminated_zeros fun _ => 0)).1 read
  obtain ⟨score, name, rest, equal, -⟩ := rows (ascii "A" ++ zeros 47) (by decide)
  have blank : 32 ∈ ascii "A" ++ zeros 47 := by
    rw [equal]
    simp
  exact absurd blank (by decide)

end LabComputers

import LabComputers.Proj.HandlerProof
import LabComputers.Proj.LeaderboardProof

/-!
# The texts shown on the screen

The strings that `vg_draw_str` is given: the leaderboard (`str_getLeaderBoard`), the message above
the name (`str_scoreMessage`), and the name being typed, which is a string of at most six letters
or dashes in every reachable state (`Reachable.typed`).  `fitsLines` bounds the lines of a text.
-/

namespace LabComputers

open CString

/-! ## Lines -/

/-- A text continued in column `col` of line `row` keeps to `lines` lines of `width`
characters. -/
def fitsLines (width lines : ℕ) : ℕ → ℕ → List UInt8 → Bool
  | _, _, [] => true
  | col, row, c :: cs =>
    if c = 10 then row + 1 < lines && fitsLines width lines 0 (row + 1) cs
    else col < width && fitsLines width lines (col + 1) row cs

theorem fitsLines_append {width lines : ℕ} {line : List UInt8} (plain : 10 ∉ line)
    (rest : List UInt8) {col : ℕ} (room : col + line.length ≤ width) (row : ℕ) :
    fitsLines width lines col row (line ++ rest) =
      fitsLines width lines (col + line.length) row rest := by
  induction line generalizing col with
  | nil => simp
  | cons c line ih =>
    rw [List.length_cons] at room
    rw [List.mem_cons, not_or] at plain
    obtain ⟨hc, plain⟩ := plain
    rw [List.cons_append, fitsLines, if_neg (Ne.symm hc), ih plain (by omega),
      decide_eq_true (show col < width by omega), Bool.true_and, List.length_cons,
      Nat.add_right_comm, Nat.add_assoc]

theorem fitsLines_line {width : ℕ} {line : List UInt8} (plain : 10 ∉ line)
    (room : line.length ≤ width) : fitsLines width 1 0 0 line := by
  rw [← line.append_nil, fitsLines_append plain [] (by rwa [Nat.zero_add]), fitsLines]

/-! ## Numerals -/

theorem newline_notMem_decimal (n : ℕ) : 10 ∉ decimal n := fun h =>
  absurd (isDigit_of_mem_decimal h) (by decide)

theorem newline_notMem_printD (n : ℤ) : 10 ∉ printD n := by
  cases n with
  | ofNat n => exact newline_notMem_decimal n
  | negSucc n =>
    rw [printD, List.mem_cons, not_or]
    exact ⟨by decide, newline_notMem_decimal (n + 1)⟩

theorem str_decimal (n : ℕ) : str (decimal n) = decimal n := by
  refine str_eq_self fun c hc => ?_
  rintro rfl
  exact absurd (isDigit_of_mem_decimal hc) (by decide)

theorem str_printD (n : ℤ) : str (printD n) = printD n := by
  cases n with
  | ofNat n => exact str_decimal n
  | negSucc n =>
    have tail := str_decimal (n + 1)
    rw [printD, str, List.takeWhile_cons_of_pos (by decide)]
    exact congrArg _ tail

/-- The text of an `int` has at most eleven characters. -/
theorem length_printD_toInt (points : UInt32) : (printD (toInt points)).length ≤ 11 := by
  have low : -2 ^ 31 ≤ toInt points := points.toInt32.le_toInt
  have high : toInt points < 2 ^ 31 := points.toInt32.toInt_lt
  cases h : toInt points with
  | ofNat n =>
    rw [h, Int.ofNat_eq_natCast] at high
    have : (decimal n).length ≤ 10 := length_decimal_le (by decide) (by omega)
    exact this.trans (by decide)
  | negSucc n =>
    rw [h] at low
    have : (decimal (n + 1)).length ≤ 10 := length_decimal_le (by decide) (by omega)
    rw [printD, List.length_cons]
    omega

/-- `getLeaderBoard` counts the digits of a positive number. -/
theorem countDigits_eq {n : ℕ} (positive : n ≠ 0) (c : ℕ) :
    countDigits n c = c + (decimal n).length := by
  induction n, c using countDigits.induct with
  | case1 c => exact absurd rfl positive
  | case2 n c _ ih =>
    rw [countDigits, if_neg positive]
    by_cases small : n < 10
    · rw [Nat.div_eq_of_lt small, countDigits, if_pos rfl, decimal,
        Nat.toDigits_of_lt_base small, List.map_singleton, List.length_singleton]
    · have split : (decimal n).length = (decimal (n / 10)).length + 1 := by
        rw [decimal, Nat.toDigits_of_base_le (by decide) (by omega), List.map_append,
          List.length_append]
        rfl
      rw [ih (by omega), split]
      omega

/-! ## The leaderboard -/

/-- The score of an entry with leading zeros. -/
def fourDigits (score : UInt8) : List UInt8 :=
  List.replicate (4 - (decimal score.toNat).length) '0'.toUInt8 ++ decimal score.toNat

/-- The line of an entry, without the newline. -/
def Leaderboard.line (lb : Leaderboard) (i : Fin 10) : List UInt8 :=
  fourDigits (lb.scores i) ++ ascii "-" ++ str (lb.names i)

theorem str_appendZeros (text : List UInt8) (k : ℕ) :
    str ((fun text => strcat text (ascii "0"))^[k] text) =
      str text ++ List.replicate k '0'.toUInt8 := by
  induction k with
  | zero => simp
  | succ k ih =>
    rw [Function.iterate_succ_apply', str_strcat, ih, List.append_assoc, List.replicate_succ']
    rfl

theorem countDigits_score (score : UInt8) :
    countDigits score.toNat (if score = 0 then 1 else 0) = (decimal score.toNat).length := by
  by_cases zero : score = 0
  · subst zero
    rw [if_pos rfl, UInt8.toNat_zero, countDigits, if_pos rfl]
    rfl
  · have positive : score.toNat ≠ 0 := fun h => zero (UInt8.toNat_inj.1 h)
    rw [if_neg zero, countDigits_eq positive, Nat.zero_add]

theorem str_appendRow (lb : Leaderboard) (text : List UInt8) (i : Fin 10) :
    str (lb.appendRow text i) = str text ++ (lb.line i ++ [10]) := by
  have numeral : str (printD (lb.scores i).toNat) = decimal (lb.scores i).toNat := str_printD _
  have dash : str (ascii "-") = ascii "-" := by decide
  have newline : str (ascii "\n") = [10] := by decide
  simp only [Leaderboard.appendRow, Leaderboard.line, fourDigits, str_strcat, str_strcpy,
    str_appendZeros, countDigits_score, numeral, dash, newline, List.append_assoc]

/-- The text of the leaderboard: a title and one line for each entry, the best first. -/
theorem str_getLeaderBoard (lb : Leaderboard) :
    str (getLeaderBoard lb) = ascii "LEADERBOARD\n\n\n" ++
      (List.finRange 10).reverse.flatMap fun i => lb.line i ++ [10] := by
  have rows : ∀ (is : List (Fin 10)) (text : List UInt8),
      str (is.foldl lb.appendRow text) = str text ++ is.flatMap fun i => lb.line i ++ [10] := by
    intro is
    induction is with
    | nil => simp
    | cons i is ih =>
      intro text
      rw [List.foldl_cons, ih, str_appendRow, List.flatMap_cons, List.append_assoc]
  rw [getLeaderBoard, rows, str_strcat, str_zeros, List.nil_append]
  congr 1

theorem length_fourDigits (score : UInt8) : (fourDigits score).length = 4 := by
  have range := score.toNat_lt
  have short : (decimal score.toNat).length ≤ 4 := length_decimal_le (by decide) (by omega)
  rw [fourDigits, List.length_append, List.length_replicate]
  omega

theorem newline_notMem_name {name : List UInt8} (letters : (str name).all isNameByte) :
    10 ∉ str name := fun h => absurd (List.all_eq_true.1 letters 10 h) (by decide)

theorem newline_notMem_line {lb : Leaderboard} {i : Fin 10} (plain : 10 ∉ str (lb.names i)) :
    10 ∉ lb.line i := by
  intro h
  simp only [Leaderboard.line, fourDigits, List.mem_append] at h
  rcases h with ((h | h) | h) | h
  · exact absurd (List.eq_of_mem_replicate h) (by decide)
  · exact newline_notMem_decimal _ h
  · exact absurd h (by decide)
  · exact plain h

section Names

variable {lb : Leaderboard} (valid : lb.ValidNames) (i : Fin 10)
include valid

theorem length_line : (lb.line i).length ≤ 11 := by
  have name : (str (lb.names i)).length ≤ 6 := (valid i).2.1
  have dash : (ascii "-").length = 1 := by decide
  rw [Leaderboard.line, List.length_append, List.length_append, length_fourDigits, dash]
  omega

omit i

theorem fitsLines_rows (is : List (Fin 10)) {row lines : ℕ} (room : row + is.length < lines) :
    fitsLines 11 lines 0 row (is.flatMap fun i => lb.line i ++ [10]) := by
  induction is generalizing row with
  | nil => rfl
  | cons i is ih =>
    rw [List.length_cons] at room
    rw [List.flatMap_cons, List.append_assoc,
      fitsLines_append (newline_notMem_line (newline_notMem_name (valid i).2.2)) _
        (by have := length_line valid i; omega),
      List.singleton_append, fitsLines, if_pos rfl, ih (by omega), Bool.and_true]
    exact decide_eq_true (by omega)

/-- The leaderboard has fourteen lines of at most eleven characters. -/
theorem fitsLines_getLeaderBoard : fitsLines 11 14 0 0 (str (getLeaderBoard lb)) := by
  have title : ascii "LEADERBOARD\n\n\n" = ascii "LEADERBOARD" ++ [10, 10, 10] := by decide
  rw [str_getLeaderBoard, title, List.append_assoc,
    fitsLines_append (by decide) _ (by decide)]
  have rows : fitsLines 11 14 0 3 ((List.finRange 10).reverse.flatMap fun i => lb.line i ++ [10]) :=
    fitsLines_rows valid _ (by decide)
  simpa [fitsLines] using rows

end Names

/-! ## The message above the name -/

theorem str_scoreMessage (points : UInt32) (submitted : Bool) :
    str (scoreMessage points submitted) = ascii "SCORE:   " ++ (printD (toInt points) ++
      if submitted then ascii "\nNAME:   \n\nTYPE AND PRESS ENTER" else []) := by
  have score : str (ascii "SCORE:   ") = ascii "SCORE:   " := by decide
  have prompt : str (ascii "\nNAME:   \n\nTYPE AND PRESS ENTER") =
      ascii "\nNAME:   \n\nTYPE AND PRESS ENTER" := by decide
  cases submitted <;>
    simp only [scoreMessage, if_true, if_false, Bool.false_eq_true, str_strcat, str_strcpy,
      str_printD, score, prompt, List.append_assoc, List.append_nil]

/-- The message has four lines of at most twenty characters. -/
theorem fitsLines_scoreMessage (points : UInt32) (submitted : Bool) :
    fitsLines 20 4 0 0 (str (scoreMessage points submitted)) := by
  have short := length_printD_toInt points
  have label : (ascii "SCORE:   ").length = 9 := by decide
  rw [str_scoreMessage, fitsLines_append (by decide) _ (by decide),
    fitsLines_append (newline_notMem_printD _) _ (by rw [label]; omega)]
  cases submitted with
  | false => rfl
  | true =>
    have prompt : ascii "\nNAME:   \n\nTYPE AND PRESS ENTER" =
        10 :: ascii "NAME:   \n\nTYPE AND PRESS ENTER" := by decide
    rw [if_pos rfl, prompt, fitsLines, if_pos rfl]
    decide

/-! ## The name being typed -/

/-- While a name is typed, it is a string of at most six letters or dashes. -/
def Typed (g : Globals) : Prop :=
  g.gameState = .lbInput → strlen g.name ≤ 6 ∧ (str g.name).all isNameByte

theorem isNameByte_of_nameByte {scanCode c : UInt8} (h : nameByte scanCode = some c) :
    isNameByte c := by
  have keys : ∀ key ∈ nameKeys, isNameByte (UInt8.ofNat key.2.toNat) := by decide
  obtain ⟨key, found, rfl⟩ := Option.map_eq_some_iff.1 h
  exact keys key (List.mem_of_find?_eq_some found)

namespace Typed

variable {g : Globals}

theorem of_ne {g' : Globals} (h : g'.gameState ≠ .lbInput) : Typed g' := fun state =>
  absurd state h

theorem append (h : Typed g) (state : g.gameState = .lbInput) {c : UInt8} (hc : isNameByte c)
    (room : g.name.getD 5 0 = 0) : Typed (g.withName (strcat g.name [c])) := by
  intro _
  have nonzero : str [c] = [c] := str_eq_self fun d hd => by
    rw [List.mem_singleton.1 hd]
    rintro rfl
    exact absurd hc (by decide)
  have short := strlen_le room
  change strlen (strcat g.name [c]) ≤ 6 ∧ (str (strcat g.name [c])).all isNameByte
  rw [strlen, str_strcat, nonzero, List.length_append, List.length_singleton, List.all_append,
    (h state).2]
  exact ⟨by rw [strlen] at short; omega, by simpa using hc⟩

theorem delete (h : Typed g) (state : g.gameState = .lbInput) :
    Typed (g.withName (deleteLast g.name)) := by
  intro _
  obtain ⟨short, letters⟩ := h state
  change strlen (deleteLast g.name) ≤ 6 ∧ (str (deleteLast g.name)).all isNameByte
  rw [strlen, deleteLast, str_set_zero]
  refine ⟨(List.length_take_le' _ _).trans short, List.all_eq_true.2 fun c hc => ?_⟩
  exact List.all_eq_true.1 letters c (List.mem_of_mem_take hc)

theorem mouseEventHandler (h : Typed g) (event : MouseEvent) :
    Typed (mouseEventHandler event g) := by
  rcases mouseEventHandler_cases event g with e | e | ⟨state, c, -, e⟩ | ⟨state, e⟩ |
    ⟨-, st, hst, e⟩ <;> rw [e]
  · exact h
  · exact h
  · exact of_ne (state.trans_ne nofun)
  · exact of_ne (state.trans_ne nofun)
  · apply of_ne
    change st ≠ .lbInput
    rcases hst with rfl | rfl | rfl <;> exact nofun

theorem keyboardEventHandler (h : Typed g) (scanCode : UInt8) :
    Typed (keyboardEventHandler scanCode g) := by
  rcases keyboardEventHandler_cases scanCode g with e | e | ⟨-, e⟩ | ⟨-, e⟩ |
    ⟨state, ⟨c, hc, room, e⟩ | e | ⟨-, e⟩⟩ | ⟨-, e⟩ <;> rw [e]
  · exact h
  · exact of_ne nofun
  · exact of_ne nofun
  · exact of_ne nofun
  · exact h.append state (isNameByte_of_nameByte hc) room
  · exact h.delete state
  · exact of_ne nofun
  · exact of_ne nofun

theorem gameIh (h : Typed g) (rand : ℕ → ℕ) : Typed (gameIh rand g) := by
  rcases gameIh_cases rand g with ⟨running, e⟩ | ⟨ended, -, e⟩ | ⟨-, -, e⟩ | ⟨-, -, e⟩ <;> rw [e]
  · rcases gameStep_cases running rand with ⟨-, e⟩ | ⟨c, -, e⟩ <;> rw [e] <;>
      refine of_ne ((gameGenerateNewAlien_state _ _).trans_ne ?_)
    · exact (show g.gameState ≠ .lbInput from running.trans_ne nofun)
    · exact nofun
  · exact of_ne (show g.gameState ≠ .lbInput from ended.trans_ne nofun)
  · intro _
    change strlen (zeros 7) ≤ 6 ∧ (str (zeros 7)).all isNameByte
    decide
  · exact h

end Typed

theorem Reachable.typed {g : Globals} (reachable : Reachable g) : Typed g :=
  reachable.induction (fun _ => Typed.of_ne nofun) (fun _ => Iff.rfl)
    (fun _ _ h => h.mouseEventHandler _) (fun _ _ h => h.keyboardEventHandler _)
    fun _ _ h => h.gameIh _

end LabComputers

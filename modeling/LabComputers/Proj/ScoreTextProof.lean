import Mathlib.Algebra.Order.BigOperators.Group.List
import LabComputers.Proj.LongGameProof
import LabComputers.Proj.TextProof

/-!
# The buffers of the score texts

`game_leaderboard` prints the points through `sc[4]`, which holds three digits
(`gameLeaderboard_shows_iff`); `getLeaderBoard` prints only bytes through its own `sc[4]`, so its
text is complete, fits in `str[256]` and determines the table (`getLeaderBoard_text`).
-/

namespace LabComputers

open CString

/-! ## The points -/

/-- The prompt for the name. -/
def prompt : List UInt8 := ascii "\nNAME:   \n\nTYPE AND PRESS ENTER"

/-- `input_message` built from the contents of `sc`. -/
def messageFrom (sc : List UInt8) (submitted : Bool) : List UInt8 :=
  let message := strcat (strcpy (zeros 100) (ascii "SCORE:   ")) sc
  if submitted then strcat message prompt else message

/-- `game_leaderboard` keeps to its buffers and shows the exact points: `sc` is what its four bytes
hold before the conversion. -/
structure ShowsPoints (sc : Vector UInt8 4) (g g' : Globals) : Prop where
  numeral : (strcpy sc.toList (printD (toInt g.points))).length = 4
  message : g'.inputMessage = messageFrom (strcpy sc.toList (printD (toInt g.points)))
    (compareScore (toInt g.points) g.lb)
  size : g'.inputMessage.length = 100
  text : str g'.inputMessage = ascii "SCORE:   " ++ decimal g.points.toNat ++
    if compareScore (toInt g.points) g.lb then prompt else []
  state : g'.gameState = if compareScore (toInt g.points) g.lb then .lbInput else .leaderboard

theorem scoreMessage_eq (sc : List UInt8) (points : UInt32) (submitted : Bool) :
    scoreMessage points submitted =
      messageFrom (strcpy sc (printD (toInt points))) submitted := by
  have same : str (printD (toInt points)) = str (strcpy sc (printD (toInt points))) :=
    (str_strcpy _ _).symm
  unfold scoreMessage messageFrom prompt
  simp only [strcat_congr same]

theorem length_scoreMessage (points : UInt32) (submitted : Bool) :
    (scoreMessage points submitted).length = 100 := by
  have sized : Sized 100 (scoreMessage points submitted) := by
    have start : Sized 100 (strcpy (zeros 100) (ascii "SCORE:   ")) := sized_strcpy _ _
    cases submitted with
    | false => exact start.strcat _
    | true => exact (start.strcat _).strcat _
  have numeral := length_printD_toInt points
  have label : (ascii "SCORE:   ").length = 9 := by decide
  have more : (if submitted then ascii "\nNAME:   \n\nTYPE AND PRESS ENTER" else []).length ≤ 31 := by
    cases submitted <;> decide
  rw [sized.length_eq_iff, strlen, str_scoreMessage, List.length_append, List.length_append, label]
  omega

/-- The numeral of a number has more than three characters from 1000 on. -/
theorem length_decimal_le_three {n : ℕ} : (decimal n).length ≤ 3 ↔ n ≤ 999 := by
  rw [decimal, List.length_map, Nat.length_toDigits_le_iff (by decide) (by decide)]
  omega

/-- `sc` has room for three characters. -/
theorem numeral_fits_iff (sc : Vector UInt8 4) (n : ℤ) :
    (strcpy sc.toList (printD n)).length = 4 ↔ (printD n).length ≤ 3 := by
  have sized := sized_strcpy sc.toList (printD n)
  rw [sc.length_toList] at sized
  rw [sized.length_eq_iff, strlen, str_strcpy, str_printD, Nat.lt_succ_iff]

/-- Three digits show the points exactly up to 999; the numeral of a negative `int` may be as short,
but it is not the numeral of the points. -/
theorem printD_points_iff (points : UInt32) :
    (printD (toInt points)).length ≤ 3 ∧ printD (toInt points) = decimal points.toNat ↔
      points.toNat ≤ 999 := by
  have range := points.toNat_lt
  rcases toInt_cases points with ⟨small, value⟩ | ⟨large, value⟩
  · rw [value]
    change (decimal points.toNat).length ≤ 3 ∧ decimal points.toNat = decimal points.toNat ↔ _
    rw [length_decimal_le_three]
    simp
  · apply iff_of_false _ (by omega)
    rintro ⟨-, equal⟩
    obtain ⟨n, negative⟩ : ∃ n, toInt points = Int.negSucc n := by
      apply Int.eq_negSucc_of_lt_zero
      omega
    rw [negative, printD] at equal
    have sign : UInt8.ofNat '-'.toNat ∈ decimal points.toNat := by
      rw [← equal]
      exact List.mem_cons_self
    exact absurd (isDigit_of_mem_decimal sign) (by decide)

/-- `game_leaderboard` shows the points and keeps to its buffers if and only if the points have at
most three digits. -/
theorem gameLeaderboard_shows_iff (sc : Vector UInt8 4) (g : Globals) :
    ShowsPoints sc g (gameLeaderboard g) ↔ g.points.toNat ≤ 999 := by
  have shown : str (gameLeaderboard g).inputMessage = ascii "SCORE:   " ++
      (printD (toInt g.points) ++ if compareScore (toInt g.points) g.lb then prompt else []) :=
    str_scoreMessage g.points _
  rw [← printD_points_iff]
  constructor
  · intro h
    have text := h.text
    rw [shown, List.append_assoc, List.append_cancel_left_eq, List.append_cancel_right_eq] at text
    exact ⟨(numeral_fits_iff sc _).1 h.numeral, text⟩
  · rintro ⟨short, exact_⟩
    exact {
      numeral := (numeral_fits_iff sc _).2 short
      message := scoreMessage_eq sc.toList g.points _
      size := length_scoreMessage g.points _
      text := by rw [shown, exact_, List.append_assoc]
      state := rfl }

/-- A game of 1000 hits overflows `sc`. -/
theorem gameLeaderboard_overflows :
    ∃ g, Reachable (gameLeaderboard g) ∧ g.points = 1000 ∧
      ∀ sc : Vector UInt8 4, ¬ ShowsPoints sc g (gameLeaderboard g) := by
  obtain ⟨g, leads, points, -⟩ := exists_gameLeaderboard 1000
  refine ⟨g, leads.reachable, points, fun sc h => ?_⟩
  have short := (numeral_fits_iff sc _).1 h.numeral
  rw [points] at short
  exact absurd short (by decide)

/-! ## The leaderboard -/

/-- The four decimal digits of a byte. -/
def digits4 (n : UInt8) : List UInt8 := [48, 48 + n / 100, 48 + n / 10 % 10, 48 + n % 10]

theorem fourDigits_eq (score : UInt8) : fourDigits score = digits4 score := by
  have key : ∀ n < 256, fourDigits (UInt8.ofNat n) = digits4 (UInt8.ofNat n) := by decide +kernel
  simpa using key score.toNat score.toNat_lt

theorem digits4_injective {a b : UInt8} (h : digits4 a = digits4 b) : a = b := by
  simp only [digits4, List.cons.injEq, UInt8.add_right_inj, true_and, and_true] at h
  obtain ⟨hundreds, tens, units⟩ := h
  have hundreds := congrArg UInt8.toNat hundreds
  have tens := congrArg UInt8.toNat tens
  have units := congrArg UInt8.toNat units
  simp only [UInt8.toNat_div, UInt8.toNat_mod, UInt8.reduceToNat] at hundreds tens units
  apply UInt8.toNat_inj.1
  omega

/-- The text of a table: a title and, from the best entry to the worst, a line of four digits, a dash
and the name. -/
def boardText (lb : Leaderboard) : List UInt8 :=
  ascii "LEADERBOARD\n\n\n" ++ (List.finRange 10).reverse.flatMap fun i =>
    digits4 (lb.scores i) ++ ascii "-" ++ str (lb.names i) ++ ascii "\n"

theorem str_getLeaderBoard_eq (lb : Leaderboard) : str (getLeaderBoard lb) = boardText lb := by
  rw [str_getLeaderBoard, boardText]
  simp only [Leaderboard.line, fourDigits_eq]
  rfl

theorem cut_unique {a b r r' : List UInt8} {stop : UInt8} (absent : stop ∉ a) (absent' : stop ∉ b)
    (same : a ++ stop :: r = b ++ stop :: r') : a = b ∧ r = r' := by
  have cut : ∀ {s : List UInt8} (rest : List UInt8), stop ∉ s →
      (s ++ stop :: rest).takeWhile (· ≠ stop) = s := by
    intro s rest absent
    rw [List.takeWhile_append_of_pos]
    · simp
    · intro c mem
      simpa using ne_of_mem_of_not_mem mem absent
  obtain rfl : a = b := by
    rw [← cut r absent, ← cut r' absent', same]
  rw [List.append_cancel_left_eq, List.cons.injEq] at same
  exact ⟨rfl, same.2⟩

/-- Lines without newlines are determined by the text they make up. -/
theorem lines_unique {is : List (Fin 10)} {f g : Fin 10 → List UInt8} (plain : ∀ i, 10 ∉ f i)
    (plain' : ∀ i, 10 ∉ g i)
    (same : is.flatMap (fun i => f i ++ [10]) = is.flatMap fun i => g i ++ [10]) :
    ∀ i ∈ is, f i = g i := by
  induction is with
  | nil => simp
  | cons i is ih =>
    simp only [List.flatMap_cons, List.append_assoc, List.singleton_append] at same
    obtain ⟨line, rest⟩ := cut_unique (plain i) (plain' i) same
    rw [List.forall_mem_cons]
    exact ⟨line, ih rest⟩

theorem sized_appendRow (lb : Leaderboard) {text : List UInt8} (h : Sized 256 text) (i : Fin 10) :
    Sized 256 (lb.appendRow text i) := by
  have zeros : ∀ k, Sized 256 ((fun text => strcat text (ascii "0"))^[k] text) := by
    intro k
    induction k with
    | zero => exact h
    | succ k ih =>
      rw [Function.iterate_succ_apply']
      exact ih.strcat _
  exact ((((zeros _).strcat _).strcat _).strcat _).strcat _

theorem sized_getLeaderBoard (lb : Leaderboard) : Sized 256 (getLeaderBoard lb) := by
  have rows : ∀ (is : List (Fin 10)) (text : List UInt8), Sized 256 text →
      Sized 256 (is.foldl lb.appendRow text) := by
    intro is
    induction is with
    | nil => exact fun text h => h
    | cons i is ih => exact fun text h => ih _ (sized_appendRow lb h i)
  apply rows
  exact (sized_zeros (by decide)).strcat _

theorem length_boardText {lb : Leaderboard} (short : ∀ i, strlen (lb.names i) ≤ 6) :
    (boardText lb).length ≤ 134 := by
  have row : ∀ i, (digits4 (lb.scores i) ++ ascii "-" ++ str (lb.names i) ++ ascii "\n").length ≤
      12 := by
    intro i
    have name : (str (lb.names i)).length ≤ 6 := short i
    have dash : (ascii "-").length = 1 := by decide
    have newline : (ascii "\n").length = 1 := by decide
    simp only [List.length_append, digits4, List.length_cons, List.length_nil, dash, newline]
    omega
  have title : (ascii "LEADERBOARD\n\n\n").length = 14 := by decide
  have rows := List.sum_le_card_nsmul ((List.finRange 10).reverse.map _) 12
    (List.forall_mem_map.2 fun i _ => row i)
  rw [List.length_map, List.length_reverse, List.length_finRange] at rows
  have total : 10 • 12 = 120 := rfl
  rw [boardText, List.length_append, List.length_flatMap, title]
  omega

/-- Equal texts have equal lines, and so equal scores and names. -/
theorem getLeaderBoard_injective {lb lb' : Leaderboard} (plain : ∀ i, 10 ∉ str (lb.names i))
    (plain' : ∀ i, 10 ∉ str (lb'.names i)) (same : str (getLeaderBoard lb) = str (getLeaderBoard lb')) :
    lb.scores = lb'.scores ∧ ∀ i, str (lb.names i) = str (lb'.names i) := by
  rw [str_getLeaderBoard, str_getLeaderBoard] at same
  have lines := lines_unique (fun i => newline_notMem_line (plain i))
    (fun i => newline_notMem_line (plain' i)) (List.append_cancel_left same)
  have split : ∀ i, fourDigits (lb.scores i) = fourDigits (lb'.scores i) ∧
      str (lb.names i) = str (lb'.names i) := by
    intro i
    have line := lines i (by simp)
    rw [Leaderboard.line, Leaderboard.line, List.append_assoc, List.append_assoc] at line
    obtain ⟨score, rest⟩ := List.append_inj line (by rw [length_fourDigits, length_fourDigits])
    exact ⟨score, List.append_cancel_left rest⟩
  refine ⟨funext fun i => digits4_injective ?_, fun i => (split i).2⟩
  rw [← fourDigits_eq, ← fourDigits_eq, (split i).1]

/-- The text is exact, fits with its terminator in `str[256]`, passes through `sc[4]` and determines
the scores and the names. -/
theorem getLeaderBoard_text {lb : Leaderboard} (short : ∀ i, strlen (lb.names i) ≤ 6) :
    str (getLeaderBoard lb) = boardText lb ∧ (boardText lb).length < 256 ∧
      (getLeaderBoard lb).length = 256 ∧
      (∀ (sc : Vector UInt8 4) (i : Fin 10),
        (strcpy sc.toList (printD (lb.scores i).toNat)).length = 4) ∧
      ∀ lb' : Leaderboard, (∀ i, strlen (lb'.names i) ≤ 6) → (∀ i, 10 ∉ str (lb.names i)) →
        (∀ i, 10 ∉ str (lb'.names i)) → str (getLeaderBoard lb) = str (getLeaderBoard lb') →
        lb.scores = lb'.scores ∧ ∀ i, str (lb.names i) = str (lb'.names i) := by
  have text := length_boardText short
  refine ⟨str_getLeaderBoard_eq lb, by omega, ?_, ?_, ?_⟩
  · rw [(sized_getLeaderBoard lb).length_eq_iff, strlen, str_getLeaderBoard_eq]
    omega
  · intro sc i
    have range := (lb.scores i).toNat_lt
    rw [numeral_fits_iff]
    exact length_decimal_le_three.2 (by omega)
  · intro lb' _ plain plain' same
    exact getLeaderBoard_injective plain plain' same

/-- The text of the table with one entry. -/
theorem getLeaderBoard_text_oneEntry :
    (getLeaderBoard oneEntry).length = 256 ∧
      str (getLeaderBoard oneEntry) = ascii "LEADERBOARD\n\n\n0001-A\n" ++
        (List.replicate 9 (ascii "0000-\n")).flatten := by
  have short : ∀ i, strlen (oneEntry.names i) ≤ 6 := by decide
  obtain ⟨text, -, size, -⟩ := getLeaderBoard_text short
  exact ⟨size, text.trans (by decide)⟩

end LabComputers

import LabComputers.Proj.Globals

/-!
# `leaderboard.c`

The ranking kept in memory (`compareScore`, `addScore`), its file (`writeSaveFile`,
`readSaveFile`) and its text (`getLeaderBoard`).  Entry 9 is the best and entry 0 the worst.

`addScore` tests `scores[i]` before it tests `i < 10`, so its last test may read one byte past the
array; `past` is that byte.  `readSaveFile` scans its line and its temporary string without a bound;
the model returns `none` as soon as an index leaves its array.
-/

namespace LabComputers

open CString

/-- The reading of an `unsigned int` argument as an `int` parameter. -/
def toInt (n : UInt32) : ℤ := n.toInt32.toInt

/-- `compareScore` -/
def compareScore (score : ℤ) (lb : Leaderboard) : Bool := score > (lb.scores 0).toNat

/-- `LB->scores[i]`, where the byte after the array is `past`. -/
def Leaderboard.scoreAt (lb : Leaderboard) (past : UInt8) (i : ℕ) : UInt8 :=
  if h : i < 10 then lb.scores ⟨i, h⟩ else past

/-- Move entry `i` down to entry `i - 1`. -/
def Leaderboard.shift (lb : Leaderboard) (i : Fin 10) : Leaderboard where
  names := Function.update lb.names (i - 1)
    (strcpy (zeros 7) (lb.names i))
  scores := Function.update lb.scores (i - 1) (lb.scores i)

/-- Store `score` and `name` in entry `i`. -/
def Leaderboard.store (lb : Leaderboard) (i : Fin 10) (score : ℤ) (name : List UInt8) :
    Leaderboard where
  names := Function.update lb.names i (strcpy (zeros 7) name)
  scores := Function.update lb.scores i (UInt8.ofInt score)

/-- The loop of `addScore` from index `i` on; returns the final index and leaderboard. -/
def addScoreLoop (past : UInt8) (score : ℤ) (i : ℕ) (lb : Leaderboard) : ℕ × Leaderboard :=
  if (lb.scoreAt past i).toNat < score then
    if h : i < 10 then addScoreLoop past score (i + 1) (lb.shift ⟨i, h⟩) else (i, lb)
  else (i, lb)
termination_by 10 - i

/-- `addScore` -/
def addScore (past : UInt8) (score : ℤ) (name : List UInt8) (lb : Leaderboard) : Leaderboard :=
  let r := addScoreLoop past score 1 lb
  r.2.store (Fin.ofNat 10 (r.1 - 1)) score name

/-! ## The save file -/

/-- The row of entry `i`, which the body of the loop of `writeSaveFile` prints. -/
def saveRow (lb : Leaderboard) (i : Fin 10) : List UInt8 :=
  printD (lb.scores i).toNat ++ ascii " " ++ str (lb.names i) ++ ascii ".\n"

/-- The loop `for (int i = 9; i <= 0; i--)` of `writeSaveFile` from index `i` on, for at most `n`
iterations. -/
def writeSaveFileLoop (lb : Leaderboard) : ℕ → ℤ → List UInt8 → List UInt8
  | 0, _, file => file
  | n + 1, i, file =>
    if i ≤ 0 then writeSaveFileLoop lb n (i - 1) (file ++ saveRow lb (Fin.ofNat 10 i.toNat)) else file

/-- `writeSaveFile`: the contents of the file, which is truncated when it is opened. -/
def writeSaveFile (lb : Leaderboard) : List UInt8 := writeSaveFileLoop lb 10 9 []

/-- The scan `while (line[j] != stop) { temp_str[k] = line[j]; j++; k++; }`; returns the index of
`stop` and the temporary string, or `none` when an index leaves its array. -/
def scanUntil (line : List UInt8) (stop : UInt8) (j k : ℕ) (temp : List UInt8) :
    Option (ℕ × List UInt8) :=
  if hj : j < line.length then
    let c := line.get ⟨j, hj⟩
    if c = stop then some (j, temp)
    else if k < temp.length then scanUntil line stop (j + 1) (k + 1) (temp.set k c)
    else none
  else none
termination_by line.length - j

/-- The string in a buffer, or `none` when no byte of the buffer terminates it. -/
def terminated (b : List UInt8) : Option (List UInt8) :=
  if 0 ∈ b then some (str b) else none

/-- The body of the loop of `readSaveFile` for row `i`. -/
def readRow (line : List UInt8) (i : Fin 10) (lb : Leaderboard) : Option Leaderboard := do
  let (j, temp) ← scanUntil line 32 0 0 (zeros 10)
  let text ← terminated temp
  let sc := atoi text
  let (_, temp) ← scanUntil line 46 (j + 1) 0 (zeros 10)
  let name ← terminated temp
  if name.length < 7 then
    some {
      names := Function.update lb.names i (strcpy (lb.names i) name)
      scores := Function.update lb.scores i (UInt8.ofInt sc) }
  else none

/-- The loop of `readSaveFile` with `i + 1 = n` rows left to fill. -/
def readSaveFileLoop : ℕ → List UInt8 → List UInt8 → Leaderboard → Option Leaderboard
  | 0, _, _, lb => some lb
  | n + 1, line, file, lb =>
    match fgets line 48 file with
    | none => some lb
    | some (line, file) => do
      let lb ← readRow line (Fin.ofNat 10 n) lb
      readSaveFileLoop n line file lb

/-- `readSaveFile`, given the contents of the file (`none` if it cannot be opened) and those of the
uninitialised buffer `line[48]`. -/
def readSaveFile (file : Option (List UInt8)) (line : List UInt8) (lb : Leaderboard) :
    Option Leaderboard :=
  let lb := { lb with names := fun _ => zeros 7 }
  match file with
  | none => some { lb with scores := fun _ => 0 }
  | some file => readSaveFileLoop 10 line file lb

/-! ## The text of the leaderboard -/

/-- The loop `while (n != 0) { n /= 10; c++; }` of `getLeaderBoard`. -/
def countDigits (n c : ℕ) : ℕ := if n = 0 then c else countDigits (n / 10) (c + 1)

/-- The body of the loop of `getLeaderBoard` for row `i`. -/
def Leaderboard.appendRow (lb : Leaderboard) (text : List UInt8) (i : Fin 10) : List UInt8 :=
  let sc := strcpy (zeros 4) (printD (lb.scores i).toNat)
  let c := countDigits (lb.scores i).toNat (if lb.scores i = 0 then 1 else 0)
  let text := (fun text => strcat text (ascii "0"))^[4 - c] text
  let text := strcat text sc
  let text := strcat text (ascii "-")
  let text := strcat text (lb.names i)
  strcat text (ascii "\n")

/-- `getLeaderBoard`: the contents of `str`, all of whose 256 bytes are cleared first. -/
def getLeaderBoard (lb : Leaderboard) : List UInt8 :=
  (List.finRange 10).reverse.foldl lb.appendRow
    (strcat (zeros 256) (ascii "LEADERBOARD\n\n\n"))

end LabComputers

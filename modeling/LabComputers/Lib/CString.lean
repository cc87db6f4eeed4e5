import Mathlib.Algebra.Group.Nat.Defs
import Mathlib.Data.List.GetD
import Mathlib.Data.List.TakeWhile
import Mathlib.Data.Int.Notation

/-!
# Zero-terminated strings in byte buffers

A C buffer is the list of its bytes and holds the string before its first zero byte (`str`).  The
writing operations overwrite the start of their destination: a copy that fits keeps the length of
the buffer, and one that runs past its end returns a longer list, so that an overflow shows in the
length and nowhere else.  `printD` is the text of the `%d` conversion, `atoi` and `fgets` follow
their standard library descriptions.
-/

namespace CString

/-- The bytes of an ASCII text. -/
def ascii (s : String) : List UInt8 := s.toList.map fun c => UInt8.ofNat c.toNat

/-- The string held by a buffer. -/
def str (b : List UInt8) : List UInt8 := b.takeWhile (· ≠ 0)

/-- `strlen` -/
def strlen (b : List UInt8) : ℕ := (str b).length

/-- `n` zero bytes, as `memset` writes them over a whole buffer. -/
def zeros (n : ℕ) : List UInt8 := List.replicate n 0

/-- `strcpy` -/
def strcpy (dst src : List UInt8) : List UInt8 := str src ++ 0 :: dst.drop (strlen src + 1)

/-- `strcat` -/
def strcat (dst src : List UInt8) : List UInt8 :=
  str dst ++ (str src ++ 0 :: dst.drop (strlen dst + strlen src + 1))

/-- The decimal numeral of a natural number. -/
def decimal (n : ℕ) : List UInt8 := (Nat.toDigits 10 n).map fun c => UInt8.ofNat c.toNat

/-- The text of an `int` under `%d`. -/
def printD : ℤ → List UInt8
  | Int.ofNat n => decimal n
  | Int.negSucc n => UInt8.ofNat '-'.toNat :: decimal (n + 1)

/-- The bytes that `isspace` accepts. -/
def isSpace (c : UInt8) : Bool := c = 32 ∨ (9 ≤ c ∧ c ≤ 13)

/-- The bytes that `isdigit` accepts. -/
def isDigit (c : UInt8) : Bool := 48 ≤ c ∧ c ≤ 57

/-- The value of a string of digits, after `acc`. -/
def digitsValue (acc : ℕ) : List UInt8 → ℕ
  | [] => acc
  | c :: cs => if isDigit c then digitsValue (10 * acc + (c.toNat - 48)) cs else acc

/-- `atoi` on the string held by a buffer: blanks, an optional sign and the digits that follow. -/
def atoi (b : List UInt8) : ℤ :=
  match (str b).dropWhile isSpace with
  | [] => 0
  | c :: cs =>
    if c = UInt8.ofNat '-'.toNat then -digitsValue 0 cs
    else if c = UInt8.ofNat '+'.toNat then digitsValue 0 cs
    else digitsValue 0 (c :: cs)

/-- The line read by `fgets` with room for `n` bytes and the rest of the file: at most `n` bytes,
up to and including the first newline. -/
def fgetsLine : ℕ → List UInt8 → List UInt8 × List UInt8
  | 0, file => ([], file)
  | _ + 1, [] => ([], [])
  | n + 1, c :: file =>
    if c = 10 then ([c], file) else (c :: (fgetsLine n file).1, (fgetsLine n file).2)

/-- `fgets(line, size, file)`: the new contents of `line` and the rest of the file, or `none` at
the end of the file. -/
def fgets (line : List UInt8) (size : ℕ) (file : List UInt8) : Option (List UInt8 × List UInt8) :=
  if file = [] then none
  else
    let read := fgetsLine (size - 1) file
    some (read.1 ++ 0 :: line.drop (read.1.length + 1), read.2)

/-! ## The string of a buffer -/

theorem str_append_zero {s : List UInt8} (clean : ∀ c ∈ s, c ≠ 0) (rest : List UInt8) :
    str (s ++ 0 :: rest) = s := by
  induction s with
  | nil => simp [str]
  | cons c s ih =>
    have hc : c ≠ 0 := clean c (by simp)
    have hs := ih fun d hd => clean d (by simp [hd])
    simp only [str, List.cons_append] at hs ⊢
    rw [List.takeWhile_cons_of_pos (by simpa using hc), hs]

theorem ne_zero_of_mem_str {b : List UInt8} {c : UInt8} (h : c ∈ str b) : c ≠ 0 := by
  simpa using List.mem_takeWhile_imp h

@[simp] theorem str_zeros (n : ℕ) : str (zeros n) = [] := by
  cases n <;> simp [str, zeros, List.replicate_succ]

theorem str_strcpy (dst src : List UInt8) : str (strcpy dst src) = str src :=
  str_append_zero (fun _ h => ne_zero_of_mem_str h) _

theorem str_strcat (dst src : List UInt8) : str (strcat dst src) = str dst ++ str src := by
  rw [strcat, ← List.append_assoc]
  apply str_append_zero
  intro c hc
  rcases List.mem_append.1 hc with h | h <;> exact ne_zero_of_mem_str h

theorem strlen_strcat (dst src : List UInt8) :
    strlen (strcat dst src) = strlen dst + strlen src := by
  rw [strlen, str_strcat, List.length_append, strlen, strlen]

/-- `strcat` reads its source only up to the terminator. -/
theorem strcat_congr {src src' : List UInt8} (same : str src = str src') (dst : List UInt8) :
    strcat dst src = strcat dst src' := by
  rw [strcat, strcat, strlen, strlen, strlen, same]

theorem str_eq_self {s : List UInt8} (clean : ∀ c ∈ s, c ≠ 0) : str s = s :=
  List.takeWhile_eq_self_iff.2 fun c hc => by simpa using clean c hc

theorem str_append_zeros (s : List UInt8) (n : ℕ) : str (s ++ zeros n) = str s := by
  induction s with
  | nil => rw [List.nil_append, str_zeros]; rfl
  | cons c s ih =>
    by_cases zero : c = 0
    · simp [str, zero]
    · simpa [str, zero] using ih

/-- Overwriting a byte by zero cuts the string there. -/
theorem str_set_zero (b : List UInt8) (k : ℕ) : str (b.set k 0) = (str b).take k := by
  induction b generalizing k with
  | nil => simp [str]
  | cons c b ih =>
    cases k with
    | zero => simp [str]
    | succ k =>
      by_cases hc : c = 0
      · simp [str, hc]
      · simpa [str, hc] using ih k

/-- A zero byte bounds the string. -/
theorem strlen_le {b : List UInt8} {k : ℕ} (h : b.getD k 0 = 0) : strlen b ≤ k := by
  by_contra longer
  have inside : k < (str b).length := by
    rw [strlen] at longer
    omega
  have prefixed : str b <+: b := List.takeWhile_prefix _
  have byte : b.getD k 0 = (str b)[k] := by
    rw [List.getD_eq_getElem?_getD, List.getElem?_eq_getElem (inside.trans_le prefixed.length_le),
      Option.getD_some, prefixed.getElem inside]
  exact ne_zero_of_mem_str (List.getElem_mem inside) (byte ▸ h)

/-! ## Overflow -/

/-- A buffer of `n` bytes to which strings were written: it is longer than `n` only by what ran past
its end. -/
def Sized (n : ℕ) (b : List UInt8) : Prop := b.length = max n (strlen b + 1)

theorem sized_zeros {n : ℕ} (pos : 0 < n) : Sized n (zeros n) := by
  rw [Sized, strlen, str_zeros, zeros, List.length_replicate, List.length_nil]
  omega

theorem sized_strcpy (dst src : List UInt8) : Sized dst.length (strcpy dst src) := by
  rw [Sized, strlen, str_strcpy, strcpy, List.length_append, List.length_cons, List.length_drop,
    ← strlen]
  omega

theorem Sized.strcat {n : ℕ} {dst : List UInt8} (h : Sized n dst) (src : List UInt8) :
    Sized n (strcat dst src) := by
  rw [Sized] at h
  rw [Sized, strlen_strcat, CString.strcat, List.length_append, List.length_append, List.length_cons,
    List.length_drop, ← strlen, ← strlen]
  omega

theorem Sized.length_eq_iff {n : ℕ} {b : List UInt8} (h : Sized n b) :
    b.length = n ↔ strlen b < n := by
  rw [Sized] at h
  omega

/-! ## Strings padded with zero bytes -/

/-- The string `s` in a buffer of `n` bytes, followed only by zero bytes. -/
def pad (n : ℕ) (s : List UInt8) : List UInt8 := s ++ zeros (n - s.length)

theorem length_pad {n : ℕ} {s : List UInt8} (fits : s.length ≤ n) : (pad n s).length = n := by
  rw [pad, zeros, List.length_append, List.length_replicate]
  omega

theorem set_pad_length {n : ℕ} {s : List UInt8} (room : s.length < n) (c : UInt8) :
    (pad n s).set s.length c = pad n (s ++ [c]) := by
  have more : n - s.length = n - (s ++ [c]).length + 1 := by
    rw [List.length_append, List.length_singleton]
    omega
  rw [pad, pad, more, List.set_append_right _ _ le_rfl, Nat.sub_self, zeros, List.replicate_succ,
    List.set_cons_zero, List.append_assoc, List.singleton_append, zeros]

theorem strcpy_zeros {name : List UInt8} {n : ℕ} (short : strlen name < n) :
    strcpy (zeros n) name = pad n (str name) := by
  have more : n - strlen name = n - (strlen name + 1) + 1 := by omega
  rw [strcpy, pad, ← strlen, more, zeros, zeros, List.drop_replicate, List.replicate_succ]

section Pad

variable {s : List UInt8} (clean : ∀ c ∈ s, c ≠ 0)
include clean

theorem str_pad (n : ℕ) : str (pad n s) = s := by
  unfold pad
  cases n - s.length with
  | zero => rw [zeros, List.replicate_zero, List.append_nil, str_eq_self clean]
  | succ k => rw [zeros, List.replicate_succ, str_append_zero clean]

/-- The byte at an offset is zero exactly from the end of the string on. -/
theorem getD_pad (n k : ℕ) : (pad n s).getD k 0 = 0 ↔ s.length ≤ k := by
  unfold pad
  by_cases inside : k < s.length
  · apply iff_of_false
    · rw [List.getD_append _ _ _ _ inside, List.getD_eq_getElem _ _ inside]
      exact clean _ (List.getElem_mem inside)
    · omega
  · apply iff_of_true
    · rw [List.getD_append_right _ _ _ _ (by omega), zeros, List.getD_eq_getElem?_getD,
        List.getElem?_getD_replicate_default_eq]
    · omega

theorem strcat_pad {n : ℕ} (room : s.length + 1 < n) {c : UInt8} (nonzero : c ≠ 0) :
    strcat (pad n s) [c] = pad n (s ++ [c]) := by
  have one : str [c] = [c] := str_eq_self (by simpa using nonzero)
  have rest : (pad n s).drop (s.length + 1 + 1) = zeros (n - (s ++ [c]).length - 1) := by
    rw [pad, Nat.add_assoc, List.drop_append, zeros, zeros, List.drop_replicate,
      List.length_append, List.length_singleton]
    simp only [List.drop_eq_nil_of_le (Nat.le_add_right _ _), List.nil_append]
    congr 1
    omega
  have more : n - (s ++ [c]).length = n - (s ++ [c]).length - 1 + 1 := by
    rw [List.length_append, List.length_singleton]
    omega
  rw [strcat, strlen, strlen, str_pad clean, one, List.length_singleton, rest, pad, more, zeros,
    zeros, List.replicate_succ, List.append_assoc, Nat.add_sub_cancel]

end Pad

theorem set_pad {n : ℕ} {s : List UInt8} (typed : s ≠ []) (fits : s.length ≤ n) :
    (pad n s).set (s.length - 1) 0 = pad n s.dropLast := by
  obtain ⟨t, c, rfl⟩ : ∃ t c, s = t ++ [c] := ⟨_, _, (List.dropLast_concat_getLast typed).symm⟩
  rw [List.length_append, List.length_singleton] at fits
  have more : n - t.length = n - (t ++ [c]).length + 1 := by
    rw [List.length_append, List.length_singleton]
    omega
  rw [pad, pad, List.dropLast_concat, more, List.length_append, List.length_singleton,
    Nat.add_sub_cancel, List.append_assoc, List.set_append_right _ _ (Nat.le_refl _), Nat.sub_self]
  simp [zeros, List.replicate_succ]

/-! ## Numerals -/

theorem isDigit_of_mem_decimal {n : ℕ} {c : UInt8} (h : c ∈ decimal n) : isDigit c := by
  obtain ⟨d, hd, rfl⟩ := List.mem_map.1 h
  have digit := Nat.isDigit_of_mem_toDigits (by decide) (by decide) hd
  obtain ⟨low, high⟩ : 48 ≤ d.toNat ∧ d.toNat ≤ 57 := Char.isDigit_iff_toNat.1 digit
  have value : (UInt8.ofNat d.toNat).toNat = d.toNat :=
    UInt8.toNat_ofNat_of_lt (show d.toNat < 256 by omega)
  rw [isDigit, decide_eq_true_eq, UInt8.le_iff_toNat_le, UInt8.le_iff_toNat_le, value]
  exact ⟨low, high⟩

theorem length_decimal_le {n k : ℕ} (pos : 0 < k) (h : n < 10 ^ k) : (decimal n).length ≤ k := by
  rw [decimal, List.length_map]
  exact (Nat.length_toDigits_le_iff (by decide) pos).2 h

theorem digitsValue_append {acc : ℕ} {s t : List UInt8} (digits : ∀ c ∈ s, isDigit c) :
    digitsValue acc (s ++ t) = digitsValue (digitsValue acc s) t := by
  induction s generalizing acc with
  | nil => rfl
  | cons c s ih =>
    obtain ⟨digit, digits⟩ := List.forall_mem_cons.1 digits
    simp only [List.cons_append, digitsValue, digit, if_true]
    exact ih digits

theorem digitsValue_digit {acc d : ℕ} (small : d < 10) :
    digitsValue acc [UInt8.ofNat d.digitChar.toNat] = 10 * acc + d := by
  have table : ∀ d : Fin 10, isDigit (UInt8.ofNat (d : ℕ).digitChar.toNat) ∧
      (UInt8.ofNat (d : ℕ).digitChar.toNat).toNat - 48 = d := by
    decide
  obtain ⟨digit, value⟩ := table ⟨d, small⟩
  simp only [digitsValue, digit, if_true, value]

theorem digitsValue_decimal (n : ℕ) : digitsValue 0 (decimal n) = n := by
  induction n using Nat.strong_induction_on with
  | h n ih =>
    by_cases small : n < 10
    · rw [decimal, Nat.toDigits_of_lt_base small]
      exact (digitsValue_digit small).trans (by omega)
    · have split : decimal n =
          decimal (n / 10) ++ [UInt8.ofNat (n % 10).digitChar.toNat] := by
        rw [decimal, Nat.toDigits_of_base_le (by decide) (by omega), List.map_append]
        rfl
      rw [split, digitsValue_append fun _ => isDigit_of_mem_decimal, ih (n / 10) (by omega),
        digitsValue_digit (by omega)]
      omega

/-- `atoi` reads back what `%d` prints of a natural number. -/
theorem atoi_decimal (n : ℕ) : atoi (decimal n) = n := by
  have plain : ∀ c, isDigit c → c ≠ 0 ∧ isSpace c = false ∧ c ≠ UInt8.ofNat '-'.toNat ∧
      c ≠ UInt8.ofNat '+'.toNat := by
    intro c digit
    rw [isDigit, decide_eq_true_eq] at digit
    refine ⟨?_, ?_, ?_, ?_⟩
    · rintro rfl
      exact absurd digit (by decide)
    · rw [isSpace, decide_eq_false_iff_not]
      rintro (rfl | ⟨-, high⟩)
      · exact absurd digit (by decide)
      · exact absurd (UInt8.le_trans digit.1 high) (by decide)
    · rintro rfl
      exact absurd digit (by decide)
    · rintro rfl
      exact absurd digit (by decide)
  have value := digitsValue_decimal n
  rw [atoi, str_eq_self fun c mem => (plain c (isDigit_of_mem_decimal mem)).1]
  cases first : decimal n with
  | nil => rw [first] at value; exact congrArg Nat.cast value
  | cons c s =>
    obtain ⟨-, space, minus, plus⟩ := plain c (isDigit_of_mem_decimal (first ▸ List.mem_cons_self))
    rw [first] at value
    rw [List.dropWhile_cons_of_neg (by rw [space]; exact Bool.false_ne_true)]
    simp only [if_neg minus, if_neg plus, value]

/-! ## Lines of a file -/

theorem fgetsLine_line {n : ℕ} {s : List UInt8} (single : 10 ∉ s) (fits : s.length < n)
    (file : List UInt8) : fgetsLine n (s ++ 10 :: file) = (s ++ [10], file) := by
  induction s generalizing n with
  | nil =>
    obtain ⟨n, rfl⟩ := Nat.exists_eq_succ_of_ne_zero (Nat.ne_of_gt fits)
    rfl
  | cons c s ih =>
    obtain ⟨n, rfl⟩ := Nat.exists_eq_succ_of_ne_zero (Nat.ne_of_gt (Nat.zero_lt_of_lt fits))
    rw [List.mem_cons, not_or] at single
    rw [List.cons_append, fgetsLine, if_neg (Ne.symm single.1), ih single.2 (Nat.lt_of_succ_lt_succ fits)]
    rfl

/-- `fgets` reads a line that fits, with its newline. -/
theorem fgets_line {size : ℕ} {s : List UInt8} (single : 10 ∉ s) (fits : s.length + 1 < size)
    (line file : List UInt8) :
    ∃ rest, fgets line size (s ++ 10 :: file) = some (s ++ 10 :: 0 :: rest, file) := by
  have more : s ++ 10 :: file ≠ [] := by simp
  rw [fgets, if_neg more, fgetsLine_line single (by omega)]
  simp only [List.append_assoc, List.singleton_append]
  exact ⟨_, rfl⟩

end CString

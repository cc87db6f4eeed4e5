import LabComputers.Proj.VideoCardProof

/-!
# The glyphs of the points and of the texts

`pixmapOf` gives the pixmap of a character, and `pen` the position at which the character after a
text is drawn.  `vg_draw_str` draws the pixmap of each character of its text at the pen
(`vgDrawStr_glyphs`): the advance at the end of the loop body undoes what the cases of the `switch`
compensate for, so that one step of the loop moves the pen by one character (`pen_concat`).

`vg_draw_points` draws the digits from the last one leftwards.  A number below `10 ^ k` needs no
more than `k` places of 37 pixels, which bounds the coordinate from below along the loop.
-/

namespace LabComputers

open CString

/-! ## The pixmaps of the characters -/

theorem index_le {first last c : UInt8} (h : first ≤ c ∧ c ≤ last) :
    (c - first).toNat ≤ last.toNat - first.toNat := by
  have upper := UInt8.le_iff_toNat_le.1 h.2
  rw [UInt8.toNat_sub_of_le _ _ h.1]
  omega

theorem letterIndex_lt {c : UInt8} (h : 'A'.toUInt8 ≤ c ∧ c ≤ 'Z'.toUInt8) :
    (c - 'A'.toUInt8).toNat < 26 := Nat.lt_succ_of_le (index_le h)

theorem digitIndex_lt {c : UInt8} (h : '0'.toUInt8 ≤ c ∧ c ≤ '9'.toUInt8) :
    (c - '0'.toUInt8).toNat < 10 := Nat.lt_succ_of_le (index_le h)

/-- The pixmap of a character: there is one for each of `A`-`Z`, `0`-`9`, `-`, `/` and `:`. -/
def pixmapOf (c : UInt8) : Option Xpm :=
  if h : 'A'.toUInt8 ≤ c ∧ c ≤ 'Z'.toUInt8 then
    some (.letter ⟨(c - 'A'.toUInt8).toNat, letterIndex_lt h⟩)
  else if h : '0'.toUInt8 ≤ c ∧ c ≤ '9'.toUInt8 then
    some (.number ⟨(c - '0'.toUInt8).toNat, digitIndex_lt h⟩)
  else if c = '-'.toUInt8 then some .dash
  else if c = '/'.toUInt8 then some .slash
  else if c = ':'.toUInt8 then some .twoPoints
  else none

/-- The sprite of a character. -/
def glyph (xpm : XpmLoader) (c : UInt8) : Option Sprite := (pixmapOf c).map xpm.load

section Glyphs

variable (xpm : XpmLoader) (past : Sprite)

theorem letterSprite_eq (l : Fin 26) :
    (vgLoadSprites xpm).lettersSprites.getD l past = xpm.load (.letter l) := by
  have table : (vgLoadSprites xpm).lettersSprites = List.ofFn fun l => xpm.load (.letter l) := rfl
  rw [table, List.getD_eq_getElem _ _ (by rw [List.length_ofFn]; exact l.isLt), List.getElem_ofFn]

theorem numberSprite_eq (d : Fin 10) :
    numberSprite (vgLoadSprites xpm) past d = xpm.load (.number d) := by
  have table : (vgLoadSprites xpm).numbersSprites = List.ofFn fun d => xpm.load (.number d) := rfl
  rw [numberSprite, table, List.getD_eq_getElem _ _ (by rw [List.length_ofFn]; exact d.isLt),
    List.getElem_ofFn]

/-! ## Texts -/

/-- The characters of a text after its last newline. -/
def lastLine (text : List UInt8) : List UInt8 := (text.reverse.takeWhile (· ≠ 10)).reverse

/-- Where the character after the text `before` is drawn: a newline moves down by 32 pixels and back
to `x0`, a space moves right by 20 pixels and any other character by 32. -/
def pen (x0 y0 : ℤ) (before : List UInt8) : ℤ × ℤ :=
  (x0 + 32 * (lastLine before).countP (· ≠ ' '.toUInt8) + 20 * (lastLine before).count ' '.toUInt8,
    y0 + 32 * before.count 10)

/-- The draw of a character at the pen; the dots of `:` are set off by 8 pixels. -/
def glyphDraw (c : UInt8) (place : ℤ × ℤ) : Option Draw :=
  let shift : ℤ := if c = ':'.toUInt8 then 8 else 0
  (glyph xpm c).map fun sprite => drawAt sprite (place.1 + shift) (place.2 + shift)

theorem drawChar_eq (c : UInt8) (x y : ℤ) :
    drawChar (vgLoadSprites xpm) past c x y = (glyphDraw xpm c (x, y)).toList := by
  unfold drawChar glyphDraw glyph pixmapOf
  by_cases letter : 'A'.toUInt8 ≤ c ∧ c ≤ 'Z'.toUInt8
  · have other : c ≠ ':'.toUInt8 := by
      rintro rfl
      exact absurd letter (by decide)
    have sprite := letterSprite_eq xpm past ⟨_, letterIndex_lt letter⟩
    simp only [if_pos letter, dif_pos letter, if_neg other, add_zero, Option.map_some,
      Option.toList_some]
    rw [sprite]
  rw [if_neg letter, dif_neg letter]
  by_cases digit : '0'.toUInt8 ≤ c ∧ c ≤ '9'.toUInt8
  · have other : c ≠ ':'.toUInt8 := by
      rintro rfl
      exact absurd digit (by decide)
    have sprite := numberSprite_eq xpm past ⟨_, digitIndex_lt digit⟩
    simp only [if_pos digit, dif_pos digit, if_neg other, add_zero, Option.map_some,
      Option.toList_some]
    rw [← numberSprite, sprite]
  rw [if_neg digit, dif_neg digit]
  by_cases dash : c = '-'.toUInt8
  · have other : c ≠ ':'.toUInt8 := by rw [dash]; decide
    simp only [if_pos dash, if_neg other, add_zero]
    rfl
  rw [if_neg dash, if_neg dash]
  by_cases slash : c = '/'.toUInt8
  · have other : c ≠ ':'.toUInt8 := by rw [slash]; decide
    simp only [if_pos slash, if_neg other, add_zero]
    rfl
  rw [if_neg slash, if_neg slash]
  split_ifs
  · rfl
  · rfl

theorem lastLine_concat (text : List UInt8) (c : UInt8) :
    lastLine (text ++ [c]) = if c = 10 then [] else lastLine text ++ [c] := by
  unfold lastLine
  by_cases newline : c = 10
  · simp [newline]
  · simp [newline]

/-- One character moves the pen as the loop of `vg_draw_str` does. -/
theorem pen_concat (x0 y0 : ℤ) (before : List UInt8) (c : UInt8) :
    pen x0 y0 (before ++ [c]) =
      if c = ' '.toUInt8 then ((pen x0 y0 before).1 + 20, (pen x0 y0 before).2)
      else if c = 10 then (x0, (pen x0 y0 before).2 + 32)
      else ((pen x0 y0 before).1 + 32, (pen x0 y0 before).2) := by
  unfold pen
  rw [lastLine_concat]
  by_cases space : c = ' '.toUInt8
  · subst space
    have other : ' '.toUInt8 ≠ 10 := by decide
    simp only [if_pos, if_neg other, List.countP_append, List.count_append]
    simp [other]
    ring
  by_cases newline : c = 10
  · rw [if_neg space, if_pos newline, if_pos newline, newline, List.count_append]
    simp [mul_add, add_assoc]
  · rw [if_neg space, if_neg newline, if_neg newline, List.countP_append, List.count_append,
      List.count_append]
    simp [space, newline]
    ring

/-- The loop draws the characters that are left, each at the pen of the text before it. -/
theorem drawChars_eq (x0 y0 : ℤ) (before cs : List UInt8) :
    drawChars (vgLoadSprites xpm) past x0 cs (pen x0 y0 before).1 (pen x0 y0 before).2 =
      (cs.zipIdx before.length).filterMap fun p =>
        glyphDraw xpm p.1 (pen x0 y0 ((before ++ cs).take p.2)) := by
  induction cs generalizing before with
  | nil => rfl
  | cons c cs ih =>
    obtain ⟨w, h⟩ := letterA_size xpm past
    have rest := ih (before ++ [c])
    rw [List.append_assoc, List.singleton_append, List.length_append, List.length_singleton] at rest
    have first : ((c :: cs).zipIdx before.length).filterMap
        (fun p => glyphDraw xpm p.1 (pen x0 y0 ((before ++ c :: cs).take p.2))) =
        (glyphDraw xpm c (pen x0 y0 before)).toList ++
          (cs.zipIdx (before.length + 1)).filterMap fun p =>
            glyphDraw xpm p.1 (pen x0 y0 ((before ++ c :: cs).take p.2)) := by
      rw [List.zipIdx_cons, List.filterMap_cons, List.take_left]
      cases glyphDraw xpm c (pen x0 y0 before) <;> rfl
    rw [first, ← rest, pen_concat, drawChars, drawChar_eq, w, h]
    congr 1
    split_ifs with space newline
    · rw [show (pen x0 y0 before).1 - (32 - 20) + 32 = (pen x0 y0 before).1 + 20 by ring]
    · rw [show x0 - 32 + 32 = x0 by ring]
    · rfl

/-- `vg_draw_str` draws exactly one sprite for each character that has a pixmap, in order, at the
pen of the text before it. -/
theorem vgDrawStr_glyphs (text : List UInt8) (x0 y0 : ℤ) :
    vgDrawStr (vgLoadSprites xpm) past text x0 y0 =
      (str text).zipIdx.filterMap fun p =>
        glyphDraw xpm p.1 (pen x0 y0 ((str text).take p.2)) := by
  have all := drawChars_eq xpm past x0 y0 [] (str text)
  simpa [vgDrawStr, pen, lastLine] using all

/-! ## The points -/

/-- What the draws of a number `n` show, read from left to right: its decimal numeral, in glyphs of
32 pixels with 5 pixels between them, the last digit at `right`.  To the left of each glyph there is
room for one more, so that the coordinate after it does not wrap. -/
structure ShowsNumeral (n right : ℕ) (draws : List Draw) : Prop where
  digits : draws.reverse.map (fun d => some d.sprite) = (decimal n).map (glyph xpm)
  last : draws.head?.map Draw.x = some right
  width : ∀ d ∈ draws, d.sprite.width = 32
  spaced : draws.reverse.IsChain fun d e => d.x + 32 + 5 = e.x
  room : ∀ d ∈ draws, 32 + 5 ≤ d.x

variable {xpm}

/-- A digit drawn to the right of a numeral. -/
theorem ShowsNumeral.cons {n left : ℕ} {draws : List Draw} (rest : ShowsNumeral xpm n left draws)
    {sprite : Sprite} {x y : UInt16} (place : left + 32 + 5 = x.toNat) (width : sprite.width = 32)
    {m : ℕ} (numeral : (decimal m).map (glyph xpm) = (decimal n).map (glyph xpm) ++ [some sprite]) :
    ShowsNumeral xpm m x.toNat (vgDrawSprite sprite x y 1 :: draws) where
  digits := by
    rw [List.reverse_cons, List.map_append, rest.digits, numeral]
    rfl
  last := rfl
  width := List.forall_mem_cons.2 ⟨width, rest.width⟩
  spaced := by
    rw [List.reverse_cons, List.isChain_append]
    refine ⟨rest.spaced, .singleton _, ?_⟩
    intro e he f hf
    rw [List.getLast?_reverse] at he
    have last := rest.last
    rw [Option.mem_def.1 he, Option.map_some, Option.some.injEq] at last
    obtain rfl : vgDrawSprite sprite x y 1 = f := by simpa using hf
    rw [last]
    exact place
  room := List.forall_mem_cons.2 ⟨(Nat.le_add_left _ left).trans place.le, rest.room⟩

/-- One digit. -/
theorem ShowsNumeral.singleton {sprite : Sprite} {x y : UInt16} (room : 37 ≤ x.toNat)
    (width : sprite.width = 32) {m : ℕ} (numeral : (decimal m).map (glyph xpm) = [some sprite]) :
    ShowsNumeral xpm m x.toNat [vgDrawSprite sprite x y 1] where
  digits := numeral.symm
  last := rfl
  width := List.forall_mem_singleton.2 width
  spaced := .singleton _
  room := List.forall_mem_singleton.2 room

variable (xpm)

theorem glyph_digit {d : ℕ} (digit : d < 10) :
    glyph xpm (UInt8.ofNat d.digitChar.toNat) = some (numberSprite (vgLoadSprites xpm) past d) := by
  have pixmap : ∀ k : Fin 10, pixmapOf (UInt8.ofNat (k : ℕ).digitChar.toNat) = some (.number k) := by
    decide
  rw [glyph, pixmap ⟨d, digit⟩, numberSprite_eq xpm past ⟨d, digit⟩]
  rfl

/-- The numeral of a single digit. -/
theorem decimal_digit {n : ℕ} (small : n < 10) :
    (decimal n).map (glyph xpm) = [some (numberSprite (vgLoadSprites xpm) past n)] := by
  rw [decimal, Nat.toDigits_of_lt_base small, ← glyph_digit xpm past small]
  rfl

/-- The last digit of a longer numeral. -/
theorem decimal_concat {n : ℕ} (large : 10 ≤ n) :
    (decimal n).map (glyph xpm) = (decimal (n / 10)).map (glyph xpm) ++
      [some (numberSprite (vgLoadSprites xpm) past (n % 10))] := by
  rw [decimal, Nat.toDigits_of_base_le (by decide) large,
    ← glyph_digit xpm past (Nat.mod_lt n (by decide)), decimal]
  simp

theorem drawDigits_numeral {y : UInt16} {k n : ℕ} {x : UInt16} (pos : n ≠ 0) (small : n < 10 ^ k)
    (left : 37 * k ≤ x.toNat) :
    ShowsNumeral xpm n x.toNat (drawDigits (vgLoadSprites xpm) past y n x).1 := by
  induction k generalizing n x with
  | zero => omega
  | succ k ih =>
    have digit : n % 10 < 10 := Nat.mod_lt _ (by decide)
    have width := (numberSprite_pixmap xpm past digit).size.1
    rw [drawDigits, if_neg pos]
    by_cases last : n / 10 = 0
    · have small : n < 10 := by omega
      rw [last, drawDigits, if_pos rfl]
      rw [Nat.mod_eq_of_lt small] at width ⊢
      exact .singleton (by omega) width (decimal_digit xpm past small)
    · have step := leftOf_toNat xpm past digit (x := x) (by omega)
      have fewer : n / 10 < 10 ^ k := by
        rw [pow_succ] at small
        omega
      have rest := ih last fewer (x := leftOf (vgLoadSprites xpm) past (n % 10) x) (by omega)
      exact rest.cons (by omega) width (decimal_concat xpm past (by omega))

/-- The points are shown as their decimal numeral, whatever they are. -/
theorem vgDrawPoints_numeral (g : Globals) :
    ShowsNumeral xpm g.points.toNat pointsWidthMargin
      (vgDrawPoints (vgLoadSprites xpm) past g) := by
  have start : (UInt16.ofNat pointsWidthMargin).toNat = pointsWidthMargin := by decide
  have small := g.points.toNat_lt
  unfold vgDrawPoints
  simp only
  split_ifs with none
  · have width := (numberSprite_pixmap xpm past (d := 0) (by decide)).size.1
    have room : 37 ≤ (UInt16.ofNat pointsWidthMargin).toNat := by decide
    rw [none]
    exact .singleton room width (decimal_digit xpm past (n := 0) (by decide))
  · have pos : g.points.toNat ≠ 0 := fun zero => none (UInt32.toNat_inj.1 zero)
    have shown := drawDigits_numeral xpm past (y := UInt16.ofNat pointsHeightMargin) pos (k := 10)
      (x := UInt16.ofNat pointsWidthMargin) (by omega) (by decide)
    rwa [start] at shown

end Glyphs

end LabComputers

import LabComputers.Lab5.RectangleProof
import LabComputers.Lib.BitField

/-!
# Patterns

The rectangles of a pattern are disjoint and lie inside the frame, so that each of them is filled
with the colour the code computes for it (`store_vgDrawPattern`).  That colour is the documented one
except in three cases: the blue bits are not shifted to their field, and a shift by 32, for a pixel
of four bytes in the indexed mode or for a field of 32 bits, shifts by nothing.
-/

namespace LabComputers.Lab5

open BitField Raster

/-! ## The rectangles -/

section Tiles

/-- The `i`-th of `n` equal parts of a side of the frame. -/
theorem part_of_side {side n i : ℕ} (small : side < 2 ^ 16) (hi : i < n) :
    (i + 1) * (side / n) ≤ side ∧ (UInt16.ofNat (i * (side / n))).toNat = i * (side / n) ∧
      (UInt16.ofNat (side / n)).toNat = side / n := by
  have last : (i + 1) * (side / n) ≤ side :=
    (Nat.mul_le_mul_right _ hi).trans (Nat.mul_div_le _ _)
  have first : i * (side / n) ≤ side := (Nat.mul_le_mul_right _ (Nat.le_succ i)).trans last
  exact ⟨last, UInt16.toNat_ofNat_of_lt' (first.trans_lt small),
    UInt16.toNat_ofNat_of_lt' ((Nat.div_le_self _ _).trans_lt small)⟩

variable {m : ColorBuffer} {n : ℕ} (color : ℕ → ℕ → UInt32)

theorem drawTile_writes_iff {x y : ℕ} (hx : x < n) (hy : y < n) (o : ℕ) (v : UInt8) :
    Writes (2 ^ 32) (drawTile m.toVideoMode (m.hRes / n) (m.vRes / n) color x y) o v ↔
      ∃ i < m.vRes / n, ∃ j < m.hRes / n, ∃ k < m.bytesPerPixel,
        address m.hRes m.bytesPerPixel (y * (m.vRes / n) + i) (x * (m.hRes / n) + j) k = o ∧
          colorByte (color x y) k = v := by
  obtain ⟨right, left, width⟩ := part_of_side m.hRes_lt hx
  obtain ⟨bottom, top, height⟩ := part_of_side m.vRes_lt hy
  rw [drawTile, if_neg (by omega), vgDrawRectangle_writes_iff]
  rw [Nat.add_mul, Nat.one_mul] at right bottom
  rw [left, top, width, height, Nat.min_eq_right bottom, Nat.min_eq_right right,
    Nat.add_sub_cancel_left, Nat.add_sub_cancel_left]

/-- The bytes written by the loops over the rectangles. -/
def tiles (m : VideoMode) (n : ℕ) (color : ℕ → ℕ → UInt32) : List (Access UInt8) :=
  (List.range n).flatMap fun y => (List.range n).flatMap fun x =>
    drawTile m (m.hRes / n) (m.vRes / n) color x y

theorem tiles_writes_iff (o : ℕ) (v : UInt8) :
    Writes (2 ^ 32) (tiles m.toVideoMode n color) o v ↔
      ∃ r < n, ∃ c < n, ∃ i < m.vRes / n, ∃ j < m.hRes / n, ∃ k < m.bytesPerPixel,
        address m.hRes m.bytesPerPixel (r * (m.vRes / n) + i) (c * (m.hRes / n) + j) k = o ∧
          (fun r c => colorByte (color c r)) r c k = v := by
  simp only [tiles, writes_flatMap_iff, List.mem_range]
  constructor
  · rintro ⟨r, hr, c, hc, written⟩
    exact ⟨r, hr, c, hc, (drawTile_writes_iff color hc hr o v).1 written⟩
  · rintro ⟨r, hr, c, hc, written⟩
    exact ⟨r, hr, c, hc, (drawTile_writes_iff color hc hr o v).2 written⟩

/-- The frame after the loops over the rectangles. -/
theorem store_tiles (before : ℕ → UInt8) {i j k : ℕ} (hj : j < m.hRes) (hk : k < m.bytesPerPixel) :
    store (2 ^ 32) before (tiles m.toVideoMode n color) (m.offset i j k) =
      if i < n * (m.vRes / n) ∧ j < n * (m.hRes / n) then
        littleEndian (color (j / (m.hRes / n)) (i / (m.vRes / n))).toNat k
      else before (m.offset i j k) := by
  rw [← colorByte_eq _ (by have := m.bytes_le; omega)]
  exact store_tiled (tiles_writes_iff color) (Nat.mul_div_le _ _) before hj hk

/-- A number is determined by its bytes. -/
theorem littleEndian_eq_iff (a b n : ℕ) :
    (∀ k < n, littleEndian a k = littleEndian b k) ↔ a % 2 ^ (8 * n) = b % 2 ^ (8 * n) := by
  have byte (k : ℕ) : littleEndian a k = littleEndian b k ↔
      a / 256 ^ k % 256 = b / 256 ^ k % 256 := by
    rw [← UInt8.toNat_inj, littleEndian, littleEndian, UInt8.toNat_ofNat', UInt8.toNat_ofNat']
  rw [pow_mul]
  induction n with
  | zero => simp [Nat.mod_one]
  | succ n ih =>
    apply Nat.forall_lt_succ_right.trans
    apply (and_congr ih (byte n)).trans
    rw [show 2 ^ 8 = 256 from rfl, Nat.mod_pow_succ, Nat.mod_pow_succ]
    constructor
    · rintro ⟨low, high⟩
      rw [low, high]
    · intro same
      have small (c : ℕ) : c % 256 ^ n < 256 ^ n := Nat.mod_lt _ (Nat.pow_pos (by decide))
      have low := congrArg (· % 256 ^ n) same
      simp only [Nat.add_mul_mod_self_left, Nat.mod_mod] at low
      rw [low, Nat.add_left_cancel_iff] at same
      exact ⟨low, Nat.eq_of_mul_eq_mul_left (Nat.pow_pos (by decide)) same⟩

end Tiles

/-! ## The colours -/

/-- The bits of a pixel that a colour field occupies. -/
def ColorField.field (f : ColorField) : Field := ⟨f.fieldPosition.toNat, f.maskSize.toNat⟩

/-- The documented value of a component, `t` steps after `first`. -/
def ColorField.value (f : ColorField) (first step t : ℕ) : ℕ :=
  (f.field.get first + t * step) % 2 ^ f.maskSize.toNat

/-- The documented colour of the rectangle in row `row` and column `col`. -/
def documentedColor (m : ColorBuffer) (fields : ColorFields) (mode : UInt16)
    (n first step row col : ℕ) : ℕ :=
  if mode = 0x105 then (first + (row * n + col) * step) % 2 ^ (8 * m.bytesPerPixel)
  else
    fields.red.field.place (fields.red.value first step col) |||
      fields.green.field.place (fields.green.value first step row) |||
      fields.blue.field.place (fields.blue.value first step (row + col))

/-- The three fields are disjoint and fit in a pixel. -/
structure ColorFields.Separate (fields : ColorFields) (bits : ℕ) : Prop where
  red_fits : fields.red.field.Fits bits
  green_fits : fields.green.field.Fits bits
  blue_fits : fields.blue.field.Fits bits
  red_green : fields.red.field.Apart fields.green.field
  red_blue : fields.red.field.Apart fields.blue.field
  green_blue : fields.green.field.Apart fields.blue.field

/-- The value of a component as the code computes it: a field of 32 bits is lost. -/
def ColorField.computed (f : ColorField) (first step t : ℕ) : ℕ :=
  if f.maskSize.toNat < 32 then f.value first step t else 0

theorem ColorField.value_lt (f : ColorField) (first step t : ℕ) :
    f.value first step t < 2 ^ f.field.size := Nat.mod_lt _ (Nat.two_pow_pos _)

theorem ColorField.computed_lt (f : ColorField) (first step t : ℕ) :
    f.computed first step t < 2 ^ f.field.size := by
  rw [computed]
  split_ifs
  · exact f.value_lt first step t
  · exact Nat.two_pow_pos _

section Computed

variable {f : ColorField} {bits : ℕ} (word : bits ≤ 32) (fits : f.field.Fits bits)
include word fits

/-- A field that is not empty and fits in a word starts in it. -/
theorem position_add_size_le (some : f.maskSize.toNat ≠ 0) :
    f.fieldPosition.toNat + f.maskSize.toNat ≤ 32 := by
  have last := fits (f.fieldPosition.toNat + (f.maskSize.toNat - 1))
    ⟨Nat.le_add_right _ _, Nat.add_lt_add_left (by omega : _ < f.maskSize.toNat) _⟩
  omega

omit word fits in
theorem modulus_toNat : f.modulus.toNat = 2 ^ (f.maskSize.toNat % 32) := by
  rw [ColorField.modulus, UInt32.toNat_shiftLeft, UInt8.toNat_toUInt32]
  have count : f.maskSize.toNat % 32 < 32 := Nat.mod_lt _ (by decide)
  have small : 2 ^ (f.maskSize.toNat % 32) < 2 ^ 32 := Nat.pow_lt_pow_right (by decide) count
  rw [show (1 : UInt32).toNat = 1 from rfl, Nat.one_shiftLeft, Nat.mod_eq_of_lt small]

omit word fits in
theorem bitsFirst_toNat (first : UInt32) :
    (f.bitsFirst first).toNat =
      first.toNat / 2 ^ (f.fieldPosition.toNat % 32) % 2 ^ (f.maskSize.toNat % 32) := by
  have one : (1 : UInt32) ≤ f.modulus := by
    rw [UInt32.le_iff_toNat_le, modulus_toNat]
    exact Nat.two_pow_pos _
  rw [ColorField.bitsFirst, UInt32.toNat_and, UInt32.toNat_sub_of_le _ _ one, modulus_toNat,
    UInt32.toNat_shiftRight, UInt8.toNat_toUInt32, Nat.shiftRight_eq_div_pow, Nat.and_comm]
  exact Nat.and_two_pow_sub_one_eq_mod _ _

theorem computed_eq (first T : UInt32) (step : UInt8) :
    ((f.bitsFirst first + T * step.toUInt32) % f.modulus).toNat =
      f.computed first.toNat step.toNat T.toNat := by
  have divides : 2 ^ (f.maskSize.toNat % 32) ∣ 2 ^ 32 :=
    Nat.pow_dvd_pow 2 (Nat.mod_lt _ (by decide)).le
  rw [UInt32.toNat_mod, UInt32.toNat_add, UInt32.toNat_mul, bitsFirst_toNat, modulus_toNat,
    UInt8.toNat_toUInt32, Nat.add_mod_mod, Nat.mod_mod_of_dvd _ divides, ColorField.computed]
  by_cases none : f.maskSize.toNat = 0
  · simp [none, ColorField.value, Nat.mod_one]
  have place := position_add_size_le word fits none
  split_ifs with small
  · rw [Nat.mod_eq_of_lt small, Nat.mod_eq_of_lt (show f.fieldPosition.toNat < 32 by omega)]
    rfl
  · have whole : f.maskSize.toNat = 32 := by omega
    rw [whole, Nat.mod_self, pow_zero, Nat.mod_one]

theorem shifted_eq {v : UInt32} (hv : v.toNat < 2 ^ f.field.size) :
    (v <<< f.fieldPosition.toUInt32).toNat = f.field.place v.toNat := by
  have small : f.field.place v.toNat < 2 ^ 32 :=
    (Field.place_lt fits hv).trans_le (Nat.pow_le_pow_right (by decide) word)
  rw [UInt32.toNat_shiftLeft, UInt8.toNat_toUInt32, Nat.shiftLeft_eq]
  by_cases none : f.maskSize.toNat = 0
  · have zero : v.toNat = 0 := by
      rw [show f.field.size = 0 from none, pow_zero] at hv
      omega
    simp [zero, Field.place]
  have place := position_add_size_le word fits none
  rw [Nat.mod_eq_of_lt (show f.fieldPosition.toNat < 32 by omega)]
  exact Nat.mod_eq_of_lt small

end Computed

/-! ## The computed colour -/

/-- Every rectangle has the value 0 in the field. -/
def ColorField.Vanishes (f : ColorField) (n first step : ℕ) : Prop :=
  f.field.get first = 0 ∧ (n = 1 ∨ step % 2 ^ f.maskSize.toNat = 0)

theorem ColorField.Vanishes.value {f : ColorField} {n first step : ℕ} (h : f.Vanishes n first step)
    {t : ℕ} (ht : n = 1 → t = 0) : f.value first step t = 0 := by
  rw [ColorField.value, h.1, Nat.zero_add]
  rcases h.2 with one | none
  · rw [ht one, Nat.zero_mul, Nat.zero_mod]
  · rw [Nat.mul_mod, none, Nat.mul_zero, Nat.zero_mod]

theorem ColorField.computed_eq_value_iff {f : ColorField} {first step t : ℕ} :
    f.computed first step t = f.value first step t ↔
      f.maskSize.toNat < 32 ∨ f.value first step t = 0 := by
  rw [computed]
  split_ifs with small
  · exact iff_of_true rfl (.inl small)
  · exact ⟨fun zero => .inr zero.symm, fun zero => (zero.resolve_left small).symm⟩

theorem ColorField.vanishes_of_value {f : ColorField} {n first step : ℕ} (pos : 0 < n)
    (zero : ∀ t < n, f.value first step t = 0) : f.Vanishes n first step := by
  have start : f.field.get first = 0 := by
    have h := zero 0 pos
    rw [ColorField.value, Nat.zero_mul, Nat.add_zero] at h
    exact (Nat.mod_eq_of_lt (f.field.get_lt first)).symm.trans h
  refine ⟨start, ?_⟩
  by_cases one : n = 1
  · exact .inl one
  · have h := zero 1 (by omega)
    rw [ColorField.value, start, Nat.zero_add, Nat.one_mul] at h
    exact .inr h

/-- The computed colour is the documented one exactly if each component is, and the blue one needs no
shift. -/
theorem placed_eq_iff {fields : ColorFields} {bits : ℕ} (separate : fields.Separate bits)
    {r g b r' g' b' : ℕ} (hr : r < 2 ^ fields.red.field.size)
    (hr' : r' < 2 ^ fields.red.field.size) (hg : g < 2 ^ fields.green.field.size)
    (hg' : g' < 2 ^ fields.green.field.size) (hb : b < 2 ^ fields.blue.field.size)
    (hb' : b' = b ∨ b' = 0) :
    fields.red.field.place r' ||| fields.green.field.place g' ||| b' =
        fields.red.field.place r ||| fields.green.field.place g ||| fields.blue.field.place b ↔
      r' = r ∧ g' = g ∧ (b = 0 ∨ b' = b ∧ fields.blue.field.position = 0) := by
  -- the blue value, where it is written as a whole, lies in its own field
  have own : b = 0 ∨ b' = b ∧ fields.blue.field.position = 0 → b' = fields.blue.field.place b := by
    rintro (zero | ⟨same, start⟩)
    · rw [zero, Field.place, Nat.zero_mul]
      rwa [zero, or_self] at hb'
    · rw [same, Field.place, start, pow_zero, Nat.mul_one]
  constructor
  · intro same
    have blue := congrArg fields.blue.field.get same
    simp only [Field.get_or, Field.get_place_apart separate.red_blue.symm hr',
      Field.get_place_apart separate.green_blue.symm hg', Field.get_place hb,
      Field.get_place_apart separate.red_blue.symm hr,
      Field.get_place_apart separate.green_blue.symm hg, Nat.zero_or] at blue
    have shifted : b = 0 ∨ b' = b ∧ fields.blue.field.position = 0 := by
      by_contra moved
      rw [not_or, not_and] at moved
      have value : b' = b := by
        rcases hb' with value | zero
        · exact value
        · rw [zero, Field.get, Nat.zero_div, Nat.zero_mod] at blue
          exact absurd blue.symm moved.1
      have smaller : b / 2 ^ fields.blue.field.position < b :=
        Nat.div_lt_self (Nat.pos_of_ne_zero moved.1) (Nat.one_lt_two_pow (moved.2 value))
      rw [value, Field.get, Nat.mod_eq_of_lt (smaller.trans hb)] at blue
      exact absurd blue smaller.ne
    refine ⟨?_, ?_, shifted⟩
    · have red := congrArg fields.red.field.get same
      simpa only [own shifted, Field.get_or, Field.get_place hr', Field.get_place hr,
        Field.get_place_apart separate.red_green hg', Field.get_place_apart separate.red_green hg,
        Field.get_place_apart separate.red_blue hb, Nat.or_zero] using red
    · have green := congrArg fields.green.field.get same
      simpa only [own shifted, Field.get_or, Field.get_place hg', Field.get_place hg,
        Field.get_place_apart separate.red_green.symm hr',
        Field.get_place_apart separate.red_green.symm hr,
        Field.get_place_apart separate.green_blue hb, Nat.or_zero, Nat.zero_or] using green
  · rintro ⟨rfl, rfl, shifted⟩
    rw [own shifted]

section Colors

variable {m : ColorBuffer} {fields : ColorFields} (separate : fields.Separate (8 * m.bytesPerPixel))
  {n row col : ℕ} (hn : n < 256) (hrow : row < n) (hcol : col < n) (first : UInt32) (step : UInt8)
include separate hn hrow hcol

theorem calculateColorPatternDirect_toNat :
    (calculateColorPatternDirect fields (UInt32.ofNat col) (UInt32.ofNat row) first step).toNat =
      fields.red.field.place (fields.red.computed first.toNat step.toNat col) |||
        fields.green.field.place (fields.green.computed first.toNat step.toNat row) |||
        fields.blue.computed first.toNat step.toNat (row + col) := by
  have word : 8 * m.bytesPerPixel ≤ 32 := Nat.mul_le_mul_left 8 m.bytes_le
  have small {a : ℕ} (h : a < 2 * 256) : (UInt32.ofNat a).toNat = a :=
    UInt32.toNat_ofNat_of_lt' (show a < 4294967296 by omega)
  have sum : (UInt32.ofNat col + UInt32.ofNat row).toNat = row + col := by
    rw [← UInt32.ofNat_add, small (by omega), Nat.add_comm]
  have red := computed_eq word separate.red_fits first (UInt32.ofNat col) step
  have green := computed_eq word separate.green_fits first (UInt32.ofNat row) step
  have blue := computed_eq word separate.blue_fits first (UInt32.ofNat col + UInt32.ofNat row) step
  rw [small (by omega)] at red green
  rw [sum] at blue
  rw [calculateColorPatternDirect]
  simp only [UInt32.toNat_or]
  rw [blue, shifted_eq word separate.red_fits (by rw [red]; exact fields.red.computed_lt _ _ _), red,
    shifted_eq word separate.green_fits (by rw [green]; exact fields.green.computed_lt _ _ _), green]

/-- In a direct mode the pixel gets the documented colour if each component is computed right. -/
theorem direct_eq_iff {mode : UInt16} (direct : mode ≠ 0x105) (noRectangles : UInt8) :
    (patternColor m.toVideoMode fields mode noRectangles first step col row).toNat %
        2 ^ (8 * m.bytesPerPixel) =
        documentedColor m fields mode n first.toNat step.toNat row col %
          2 ^ (8 * m.bytesPerPixel) ↔
      fields.red.computed first.toNat step.toNat col = fields.red.value first.toNat step.toNat col ∧
        fields.green.computed first.toNat step.toNat row =
          fields.green.value first.toNat step.toNat row ∧
        (fields.blue.value first.toNat step.toNat (row + col) = 0 ∨
          fields.blue.computed first.toNat step.toNat (row + col) =
            fields.blue.value first.toNat step.toNat (row + col) ∧
          fields.blue.field.position = 0) := by
  have computed (f : ColorField) (t : ℕ) : f.computed first.toNat step.toNat t =
      f.value first.toNat step.toNat t ∨ f.computed first.toNat step.toNat t = 0 := by
    rw [ColorField.computed]
    split_ifs
    · exact .inl rfl
    · exact .inr rfl
  have blue_lt : fields.blue.computed first.toNat step.toNat (row + col) <
      2 ^ (8 * m.bytesPerPixel) :=
    (fields.blue.computed_lt _ _ _).trans_le
      (Nat.pow_le_pow_right (by decide) (Field.size_le separate.blue_fits))
  rw [patternColor, if_neg direct, documentedColor, if_neg direct,
    calculateColorPatternDirect_toNat separate hn hrow hcol]
  have code := Nat.or_lt_two_pow (Nat.or_lt_two_pow
    (Field.place_lt separate.red_fits (fields.red.computed_lt first.toNat step.toNat col))
    (Field.place_lt separate.green_fits (fields.green.computed_lt first.toNat step.toNat row)))
    blue_lt
  have doc := Nat.or_lt_two_pow (Nat.or_lt_two_pow
    (Field.place_lt separate.red_fits (fields.red.value_lt first.toNat step.toNat col))
    (Field.place_lt separate.green_fits (fields.green.value_lt first.toNat step.toNat row)))
    (Field.place_lt separate.blue_fits (fields.blue.value_lt first.toNat step.toNat (row + col)))
  rw [Nat.mod_eq_of_lt code, Nat.mod_eq_of_lt doc]
  exact placed_eq_iff separate (fields.red.value_lt _ _ _) (fields.red.computed_lt _ _ _)
    (fields.green.value_lt _ _ _) (fields.green.computed_lt _ _ _) (fields.blue.value_lt _ _ _)
    (computed fields.blue _)

omit separate in
/-- In the indexed mode the modulus of four bytes is lost. -/
theorem indexed_toNat {noRectangles : UInt8} (same : noRectangles.toNat = n) :
    (patternColor m.toVideoMode fields 0x105 noRectangles first step col row).toNat =
      if m.bytesPerPixel < 4 then documentedColor m fields 0x105 n first.toNat step.toNat row col
      else 0 := by
  have bytes := m.bytes_le
  have small {a : ℕ} (h : a < 256) : (UInt32.ofNat a).toNat = a :=
    UInt32.toNat_ofNat_of_lt' (show a < 4294967296 by omega)
  have count : (UInt32.ofNat (m.bytesPerPixel * 8)).toNat % 32 = 8 * m.bytesPerPixel % 32 := by
    rw [small (by omega), Nat.mul_comm]
  have modulus : (1 <<< UInt32.ofNat (m.bytesPerPixel * 8) : UInt32).toNat =
      2 ^ (8 * m.bytesPerPixel % 32) := by
    have lt : 2 ^ (8 * m.bytesPerPixel % 32) < 2 ^ 32 :=
      Nat.pow_lt_pow_right (by decide) (Nat.mod_lt _ (by decide))
    rw [UInt32.toNat_shiftLeft, count, show (1 : UInt32).toNat = 1 from rfl, Nat.one_shiftLeft,
      Nat.mod_eq_of_lt lt]
  have divides : 2 ^ (8 * m.bytesPerPixel % 32) ∣ 2 ^ 32 :=
    Nat.pow_dvd_pow 2 (Nat.mod_lt _ (by decide)).le
  rw [patternColor, if_pos rfl, calculateColorPatternIndexed, UInt32.toNat_mod, modulus,
    UInt32.toNat_add, UInt32.toNat_mul, UInt32.toNat_add, UInt32.toNat_mul, UInt8.toNat_toUInt32,
    UInt8.toNat_toUInt32, same, small (by omega), small (by omega), Nat.mod_mod_of_dvd _ divides]
  have area : row * n ≤ 255 * 255 := Nat.mul_le_mul (by omega) (by omega)
  have last : (row * n + col) * step.toNat ≤ 65280 * 255 :=
    Nat.mul_le_mul (by omega) (Nat.le_of_lt_succ step.toNat_lt)
  rw [Nat.mod_eq_of_lt (show row * n < 2 ^ 32 by omega),
    Nat.mod_eq_of_lt (show row * n + col < 2 ^ 32 by omega),
    Nat.mod_eq_of_lt (show (row * n + col) * step.toNat < 2 ^ 32 by omega)]
  split_ifs with narrow
  · rw [Nat.mod_eq_of_lt (show 8 * m.bytesPerPixel < 32 by omega)]
    rfl
  · rw [show m.bytesPerPixel = 4 by omega, Nat.mod_self, pow_zero, Nat.mod_one]

end Colors

/-! ## The pattern -/

/-- The rectangles of a pattern have their documented colours, and the pixels to the right of them
and below are as before. -/
structure DrawsPattern (m : ColorBuffer) (fields : ColorFields) (mode : UInt16)
    (n first step : ℕ) (accesses : List (Access UInt8)) : Prop where
  rectangles : ∀ before : ℕ → UInt8, ∀ i < n * (m.vRes / n), ∀ j < n * (m.hRes / n),
    ∀ k < m.bytesPerPixel, store (2 ^ 32) before accesses (m.offset i j k) =
      littleEndian (documentedColor m fields mode n first step (i / (m.vRes / n))
        (j / (m.hRes / n))) k
  outside : ∀ before : ℕ → UInt8, ∀ i < m.vRes, ∀ j < m.hRes,
    ¬ (i < n * (m.vRes / n) ∧ j < n * (m.hRes / n)) → ∀ k < m.bytesPerPixel,
      store (2 ^ 32) before accesses (m.offset i j k) = before (m.offset i j k)

/-- The code computes the documented colours of a pattern: a mode without colour fields has fewer
than four bytes per pixel; in the other modes no field has 32 bits, and the blue field is the
lowest.  A component that is 0 in every rectangle is always right. -/
def Representable (m : ColorBuffer) (fields : ColorFields) (mode : UInt16) (n first step : ℕ) :
    Prop :=
  if mode = 0x105 then m.bytesPerPixel < 4 ∨ first = 0 ∧ (n = 1 ∨ step = 0)
  else
    (fields.red.maskSize.toNat < 32 ∨ fields.red.Vanishes n first step) ∧
      (fields.green.maskSize.toNat < 32 ∨ fields.green.Vanishes n first step) ∧
      (fields.blue.maskSize.toNat < 32 ∧ fields.blue.fieldPosition.toNat = 0 ∨
        fields.blue.Vanishes n first step)

section Pattern

variable {m : ColorBuffer} {fields : ColorFields} (separate : fields.Separate (8 * m.bytesPerPixel))
  {noRectangles : UInt8} (pos : 1 ≤ noRectangles.toNat)
  (le : noRectangles.toNat ≤ min m.hRes m.vRes) (mode : UInt16) (first : UInt32) (step : UInt8)
include pos le

/-- A pattern is drawn right if and only if each rectangle's colour is. -/
theorem drawsPattern_iff_colors :
    (∃ r, vgDrawPattern m.toVideoMode fields mode noRectangles first step = some r ∧
        DrawsPattern m fields mode noRectangles.toNat first.toNat step.toNat r.2) ↔
      ∀ row < noRectangles.toNat, ∀ col < noRectangles.toNat,
        (patternColor m.toVideoMode fields mode noRectangles first step col row).toNat %
            2 ^ (8 * m.bytesPerPixel) =
          documentedColor m fields mode noRectangles.toNat first.toNat step.toNat row col %
            2 ^ (8 * m.bytesPerPixel) := by
  have some : noRectangles ≠ 0 := by
    rintro rfl
    exact absurd pos (by decide)
  have drawn : vgDrawPattern m.toVideoMode fields mode noRectangles first step =
      .some (0, tiles m.toVideoMode noRectangles.toNat
        (patternColor m.toVideoMode fields mode noRectangles first step)) := if_neg some
  have wide : 0 < m.hRes / noRectangles.toNat := Nat.div_pos (by omega) pos
  have high : 0 < m.vRes / noRectangles.toNat := Nat.div_pos (by omega) pos
  have right := Nat.mul_div_le m.hRes noRectangles.toNat
  rw [drawn]
  constructor
  · rintro ⟨r, equal, draws⟩ row hrow col hcol
    rw [← Option.some.inj equal] at draws
    apply (littleEndian_eq_iff _ _ _).1
    intro k hk
    -- the first pixel of the rectangle
    have inside : row * (m.vRes / noRectangles.toNat) + 0 < _ := mul_add_lt hrow high
    have beside : col * (m.hRes / noRectangles.toNat) + 0 < _ := mul_add_lt hcol wide
    have pixel := draws.rectangles (fun _ => 0) _ inside _ beside k hk
    rw [store_tiles _ _ (beside.trans_le right) hk, if_pos ⟨inside, beside⟩, mul_add_div_self high,
      mul_add_div_self wide] at pixel
    exact pixel
  · intro colors
    refine ⟨_, rfl, ?_, ?_⟩
    · intro before i hi j hj k hk
      rw [store_tiles _ before (hj.trans_le right) hk, if_pos ⟨hi, hj⟩]
      refine (littleEndian_eq_iff _ _ _).2 (colors _ ?_ _ ?_) k hk
      · exact Nat.div_lt_of_lt_mul (by rwa [Nat.mul_comm])
      · exact Nat.div_lt_of_lt_mul (by rwa [Nat.mul_comm])
    · intro before i hi j hj outside k hk
      rw [store_tiles _ before hj hk, if_neg outside]

omit le in
/-- The colours of the indexed mode. -/
theorem indexed_colors_iff :
    (∀ row < noRectangles.toNat, ∀ col < noRectangles.toNat,
        (patternColor m.toVideoMode fields 0x105 noRectangles first step col row).toNat %
            2 ^ (8 * m.bytesPerPixel) =
          documentedColor m fields 0x105 noRectangles.toNat first.toNat step.toNat row col %
            2 ^ (8 * m.bytesPerPixel)) ↔
      m.bytesPerPixel < 4 ∨ first.toNat = 0 ∧ (noRectangles.toNat = 1 ∨ step.toNat = 0) := by
  have hn := noRectangles.toNat_lt
  have hfirst := first.toNat_lt
  have hstep := step.toNat_lt
  constructor
  · intro colors
    by_contra wrong
    rw [not_or] at wrong
    have four : m.bytesPerPixel = 4 := by
      have bytes := m.bytes_le
      omega
    have zero : ∀ row < noRectangles.toNat, ∀ col < noRectangles.toNat,
        (first.toNat + (row * noRectangles.toNat + col) * step.toNat) % 2 ^ 32 = 0 := by
      intro row hrow col hcol
      have same := colors row hrow col hcol
      rw [indexed_toNat hn hrow hcol first step rfl, if_neg wrong.1, documentedColor, if_pos rfl,
        four, Nat.zero_mod, Nat.mod_mod] at same
      exact same.symm
    have start := zero 0 pos 0 pos
    refine wrong.2 ⟨by omega, ?_⟩
    by_contra more
    have next := zero 0 pos 1 (by omega)
    omega
  · rintro right row hrow col hcol
    rw [indexed_toNat hn hrow hcol first step rfl]
    split_ifs with narrow
    · rfl
    · obtain ⟨start, rest⟩ := right.resolve_left narrow
      rw [documentedColor, if_pos rfl, start, Nat.zero_add]
      rcases rest with one | none
      · rw [show row = 0 by omega, show col = 0 by omega]
        simp
      · rw [none, Nat.mul_zero, Nat.zero_mod, Nat.zero_mod]

include separate

omit le in
/-- The colours of a direct mode. -/
theorem direct_colors_iff {mode : UInt16} (direct : mode ≠ 0x105) :
    (∀ row < noRectangles.toNat, ∀ col < noRectangles.toNat,
        (patternColor m.toVideoMode fields mode noRectangles first step col row).toNat %
            2 ^ (8 * m.bytesPerPixel) =
          documentedColor m fields mode noRectangles.toNat first.toNat step.toNat row col %
            2 ^ (8 * m.bytesPerPixel)) ↔
      Representable m fields mode noRectangles.toNat first.toNat step.toNat := by
  have hn := noRectangles.toNat_lt
  rw [Representable, if_neg direct]
  constructor
  · intro colors
    have component := fun row hrow col hcol =>
      (direct_eq_iff separate hn hrow hcol first step direct noRectangles).1 (colors row hrow col hcol)
    refine ⟨?_, ?_, ?_⟩
    · by_cases small : fields.red.maskSize.toNat < 32
      · exact .inl small
      · apply Or.inr (ColorField.vanishes_of_value pos fun t ht => ?_)
        exact (ColorField.computed_eq_value_iff.1 (component 0 pos t ht).1).resolve_left small
    · by_cases small : fields.green.maskSize.toNat < 32
      · exact .inl small
      · apply Or.inr (ColorField.vanishes_of_value pos fun t ht => ?_)
        exact (ColorField.computed_eq_value_iff.1 (component t ht 0 pos).2.1).resolve_left small
    · by_cases low : fields.blue.maskSize.toNat < 32 ∧ fields.blue.fieldPosition.toNat = 0
      · exact .inl low
      · apply Or.inr (ColorField.vanishes_of_value pos fun t ht => ?_)
        rcases (component t ht 0 pos).2.2 with zero | ⟨same, start⟩
        · exact zero
        · exact (ColorField.computed_eq_value_iff.1 same).resolve_left fun small => low ⟨small, start⟩
  · rintro ⟨red, green, blue⟩ row hrow col hcol
    apply (direct_eq_iff separate hn hrow hcol first step direct noRectangles).2
    refine ⟨?_, ?_, ?_⟩
    · apply ColorField.computed_eq_value_iff.2
      exact red.imp_right fun vanishes => vanishes.value fun one => by omega
    · apply ColorField.computed_eq_value_iff.2
      exact green.imp_right fun vanishes => vanishes.value fun one => by omega
    · rcases blue with ⟨small, start⟩ | vanishes
      · exact .inr ⟨ColorField.computed_eq_value_iff.2 (.inl small), start⟩
      · exact .inl (vanishes.value fun one => by omega)

/-- `vg_draw_pattern` draws the documented pattern if and only if the code computes its colours. -/
theorem drawsPattern_iff :
    (∃ r, vgDrawPattern m.toVideoMode fields mode noRectangles first step = some r ∧
        DrawsPattern m fields mode noRectangles.toNat first.toNat step.toNat r.2) ↔
      Representable m fields mode noRectangles.toNat first.toNat step.toNat := by
  rw [drawsPattern_iff_colors pos le]
  by_cases indexed : mode = 0x105
  · rw [indexed, Representable, if_pos rfl]
    exact indexed_colors_iff pos first step
  · exact direct_colors_iff separate pos first step indexed

end Pattern

/-- The frame of `GAME_GRAPHICS_MODE`, for colours. -/
def gameColors : ColorBuffer where
  toPixelBuffer := gameBuffer
  bytes_le := by decide

/-- Fields of eight bits each at different bytes are separate. -/
theorem separate_bytes {r g b : UInt8} (hr : r.toNat + 8 ≤ 24) (hg : g.toNat + 8 ≤ 24)
    (hb : b.toNat + 8 ≤ 24) (rg : r.toNat + 8 ≤ g.toNat ∨ g.toNat + 8 ≤ r.toNat)
    (rb : r.toNat + 8 ≤ b.toNat ∨ b.toNat + 8 ≤ r.toNat)
    (gb : g.toNat + 8 ≤ b.toNat ∨ b.toNat + 8 ≤ g.toNat) :
    ColorFields.Separate ⟨⟨8, r⟩, ⟨8, g⟩, ⟨8, b⟩⟩ 24 := by
  have eight : (8 : UInt8).toNat = 8 := rfl
  constructor <;> intro c covers <;>
    simp only [Field.Covers, ColorField.field, eight] at covers ⊢ <;> omega

/-- Sixteen rectangles in a mode whose lowest byte is blue. -/
theorem drawsPattern_blue_low :
    ∃ r, vgDrawPattern gameGraphicsMode ⟨⟨8, 16⟩, ⟨8, 8⟩, ⟨8, 0⟩⟩ 0x115 4 0xFF8000 5 = some r ∧
      DrawsPattern gameColors ⟨⟨8, 16⟩, ⟨8, 8⟩, ⟨8, 0⟩⟩ 0x115 4 0xFF8000 5 r.2 := by
  have separate : ColorFields.Separate ⟨⟨8, 16⟩, ⟨8, 8⟩, ⟨8, 0⟩⟩ (8 * gameColors.bytesPerPixel) :=
    separate_bytes (by decide) (by decide) (by decide) (by decide) (by decide) (by decide)
  have some : 1 ≤ (4 : UInt8).toNat := by decide
  apply (drawsPattern_iff separate some (by decide) 0x115 0xFF8000 5).2
  rw [Representable, if_neg (by decide)]
  exact ⟨.inl (by decide), .inl (by decide), .inl ⟨by decide, by decide⟩⟩

/-- In a mode whose lowest byte is red, blue shows as red. -/
theorem not_drawsPattern_blue_high :
    ColorFields.Separate ⟨⟨8, 0⟩, ⟨8, 8⟩, ⟨8, 16⟩⟩ 24 ∧
      ¬ ∃ r, vgDrawPattern gameGraphicsMode ⟨⟨8, 0⟩, ⟨8, 8⟩, ⟨8, 16⟩⟩ 0x115 1 0xFF0000 0 = some r ∧
        DrawsPattern gameColors ⟨⟨8, 0⟩, ⟨8, 8⟩, ⟨8, 16⟩⟩ 0x115 1 0xFF0000 0 r.2 := by
  refine ⟨separate_bytes (by decide) (by decide) (by decide) (by decide) (by decide) (by decide), ?_⟩
  intro draws
  have some : 1 ≤ (1 : UInt8).toNat := by decide
  have colors := (drawsPattern_iff_colors (m := gameColors) some (by decide) 0x115 0xFF0000 0).1
    draws 0 (by decide) 0 (by decide)
  exact absurd colors (by decide)

end LabComputers.Lab5

import LabComputers.Lab5.VideoCard
import LabComputers.Proj.DrawProof

/-!
# Lines and rectangles

The guard of `vg_draw_hline` lets the first column and the first row behind the frame pass.  In that
column the loop makes no step; in that row it writes behind the frame.  `vg_draw_rectangle` calls it
for the rows of the frame only, so that the rectangle is clipped exactly.
-/

namespace LabComputers

open Raster

namespace Lab5

/-! ## Lines -/

section Line

variable {m : PixelBuffer} {x y len : UInt16} {color : UInt32}

/-- The line starts outside the frame. -/
def OffScreen (m : VideoMode) (x y : UInt16) : Prop := m.hRes ≤ x.toNat ∨ m.vRes ≤ y.toNat

/-- A line of pixels that is written inside the frame only, and not at all if it starts outside. -/
structure HlineSafe (m : PixelBuffer) (x y len : UInt16) (color : UInt32) : Prop where
  changes : ∀ (before : ℕ → UInt8) (o : ℕ),
    store (2 ^ 32) before (vgDrawHline m.toVideoMode x y len color).2 o ≠ before o →
      y.toNat < m.vRes ∧ ∃ j, x.toNat ≤ j ∧ j < min (x.toNat + len.toNat) m.hRes ∧
        ∃ k < m.bytesPerPixel, o = m.offset y.toNat j k
  offScreen : OffScreen m.toVideoMode x y →
    (vgDrawHline m.toVideoMode x y len color).1 ≠ 0 ∧
      (vgDrawHline m.toVideoMode x y len color).2 = []

theorem vgDrawHline_writes_iff (row : y.toNat < m.vRes) {o : ℕ} {v : UInt8} :
    Writes (2 ^ 32) (vgDrawHline m.toVideoMode x y len color).2 o v ↔
      ∃ j < min m.hRes (x.toNat + len.toNat) - x.toNat, ∃ k < m.bytesPerPixel,
        m.offset y.toNat (x.toNat + j) k = o ∧ colorByte color k = v := by
  unfold vgDrawHline
  by_cases right : x.toNat > m.hRes
  · have none : min m.hRes (x.toNat + len.toNat) - x.toNat = 0 := by omega
    rw [if_pos (.inl right), none]
    simp [Writes]
  rw [if_neg (by omega)]
  simp only
  rw [writes_scanRow_iff (fillBytes_advances _ _) (fillBytes_paints _ _)]
  simp only [Option.some.injEq]
  have place : ∀ j < min m.hRes (x.toNat + len.toNat) - x.toNat, ∀ k < m.bytesPerPixel,
      ((y.toNat * m.hRes + x.toNat) * m.bytesPerPixel % 2 ^ 32 + j * m.bytesPerPixel + k) % 2 ^ 32 =
        m.offset y.toNat (x.toNat + j) k := by
    intro j hj k hk
    have last := pixel_le m.bytesPerPixel row (show x.toNat + j < m.hRes by omega)
    have room := m.addressable
    have first : (y.toNat * m.hRes + (x.toNat + j)) * m.bytesPerPixel =
        (y.toNat * m.hRes + x.toNat) * m.bytesPerPixel + j * m.bytesPerPixel := by ring
    have small : (y.toNat * m.hRes + x.toNat) * m.bytesPerPixel < 2 ^ 32 := by omega
    rw [Nat.mod_eq_of_lt small, PixelBuffer.offset, address, first]
    exact Nat.mod_eq_of_lt (by omega)
  constructor
  · rintro ⟨j, hj, k, hk, at_, value⟩
    exact ⟨j, hj, k, hk, (place j hj k hk).symm.trans at_, value⟩
  · rintro ⟨j, hj, k, hk, at_, value⟩
    exact ⟨j, hj, k, hk, (place j hj k hk).trans at_, value⟩

/-- A byte that is not written keeps its value. -/
theorem writes_of_store_ne {accesses : List (Access UInt8)} {before : ℕ → UInt8} {o : ℕ}
    (changed : store (2 ^ 32) before accesses o ≠ before o) : ∃ v, Writes (2 ^ 32) accesses o v := by
  by_contra none
  apply changed
  apply store_eq (.inr rfl)
  intro v written
  exact absurd ⟨v, written⟩ none

/-- `vg_draw_hline` is safe if and only if the line starts on the screen, or so far outside that the
guard refuses it. -/
theorem hlineSafe_iff (m : PixelBuffer) (x y len : UInt16) (color : UInt32) :
    HlineSafe m x y len color ↔
      (x.toNat < m.hRes ∧ y.toNat < m.vRes) ∨ m.hRes < x.toNat ∨ m.vRes < y.toNat := by
  by_cases refused : m.hRes < x.toNat ∨ m.vRes < y.toNat
  · have guard : vgDrawHline m.toVideoMode x y len color = (1, []) := if_pos refused
    apply iff_of_true _ (.inr refused)
    refine ⟨?_, ?_⟩
    · intro before o changed
      rw [guard] at changed
      exact absurd rfl changed
    · intro _
      rw [guard]
      exact ⟨one_ne_zero, rfl⟩
  constructor
  · intro safe
    apply Or.inl
    by_contra outside
    have off : OffScreen m.toVideoMode x y := by
      rw [OffScreen]
      omega
    have passed : (vgDrawHline m.toVideoMode x y len color).1 = 0 := by
      rw [vgDrawHline, if_neg refused]
    exact (safe.offScreen off).1 passed
  · rintro (inside | refused')
    · refine ⟨?_, ?_⟩
      · intro before o changed
        obtain ⟨v, written⟩ := writes_of_store_ne changed
        obtain ⟨j, hj, k, hk, rfl, -⟩ := (vgDrawHline_writes_iff inside.2).1 written
        exact ⟨inside.2, x.toNat + j, by omega, by omega, k, hk, rfl⟩
      · intro off
        rw [OffScreen] at off
        omega
    · exact absurd refused' refused

/-- A line in the row behind the frame: it is written there, and reported as drawn. -/
theorem vgDrawHline_behind :
    (vgDrawHline gameGraphicsMode 0 600 1 0xFF).1 = 0 ∧
      Access.write (800 * 600 * 3) 0xFF ∈ (vgDrawHline gameGraphicsMode 0 600 1 0xFF).2 ∧
      ¬ HlineSafe gameBuffer 0 600 1 0xFF := by
  have drawn : vgDrawHline gameGraphicsMode 0 600 1 0xFF =
      (0, [.write 1440000 0xFF, .write 1440001 0, .write 1440002 0]) := by decide +kernel
  refine ⟨congrArg Prod.fst drawn, ?_, ?_⟩
  · rw [drawn]
    decide
  · intro safe
    exact (safe.offScreen (.inr (by decide))).1 (congrArg Prod.fst drawn)

end Line

/-! ## Rectangles -/

/-- The counter of the rows of the frame does not wrap. -/
theorem row_toNat {m : VideoMode} {row : ℕ} (inside : row < m.vRes) :
    (UInt16.ofNat row).toNat = row :=
  UInt16.toNat_ofNat_of_lt' (inside.trans m.vRes_lt)

/-- The frame of a mode whose pixels are at most one `uint32_t` colour. -/
structure ColorBuffer extends PixelBuffer where
  bytes_le : bytesPerPixel ≤ 4

/-- Byte `k` of a colour, the least significant one first. -/
def littleEndian (color k : ℕ) : UInt8 := UInt8.ofNat (color / 256 ^ k)

theorem colorByte_eq (color : UInt32) {k : ℕ} (hk : k < 4) :
    colorByte color k = littleEndian color.toNat k := by
  have count : (UInt32.ofNat (k * 8)).toNat % 32 = 8 * k := by
    have small : (UInt32.ofNat (k * 8)).toNat = k * 8 :=
      UInt32.toNat_ofNat_of_lt' (show k * 8 < 4294967296 by omega)
    omega
  apply UInt8.toNat_inj.1
  rw [colorByte, littleEndian, UInt32.toNat_toUInt8, UInt32.toNat_and, UInt32.toNat_shiftRight, count,
    Nat.shiftRight_eq_div_pow, pow_mul, show (0xFF : UInt32).toNat = 2 ^ 8 - 1 from rfl,
    Nat.and_two_pow_sub_one_eq_mod, Nat.mod_mod]
  exact (UInt8.toNat_ofNat' ..).symm

/-- The part of a rectangle inside the frame has its colour, every other byte is as before, and
nothing is written behind the frame. -/
structure FillsRectangle (m : ColorBuffer) (x y width height : ℕ) (color : ℕ)
    (accesses : List (Access UInt8)) : Prop where
  pixels : ∀ before : ℕ → UInt8, ∀ i < m.vRes, ∀ j < m.hRes, ∀ k < m.bytesPerPixel,
    store (2 ^ 32) before accesses (m.offset i j k) =
      if y ≤ i ∧ i < min (y + height) m.vRes ∧ x ≤ j ∧ j < min (x + width) m.hRes then
        littleEndian color k
      else before (m.offset i j k)
  behind : ∀ (before : ℕ → UInt8) (o : ℕ), m.hRes * m.vRes * m.bytesPerPixel ≤ o →
    store (2 ^ 32) before accesses o = before o
  writes_lt : ∀ o v, Writes (2 ^ 32) accesses o v → o < m.hRes * m.vRes * m.bytesPerPixel

section Rectangle

variable (m : ColorBuffer) (x y width height : UInt16) (color : UInt32)

/-- The rows of a rectangle inside the frame. -/
theorem vgDrawRectangle_snd (m : VideoMode) :
    (vgDrawRectangle m x y width height color).2 =
      (List.range (min m.vRes (y.toNat + height.toNat) - y.toNat)).flatMap fun i =>
        (vgDrawHline m x (UInt16.ofNat (y.toNat + i)) width color).2 := by
  unfold vgDrawRectangle
  simp only
  generalize min m.vRes (y.toNat + height.toNat) - y.toNat = rows
  induction rows with
  | zero => rfl
  | succ rows ih =>
    rw [List.range_succ, List.foldl_append, List.foldl_cons, List.foldl_nil, List.flatMap_append,
      List.flatMap_singleton, ih]

theorem vgDrawRectangle_writes_iff (o : ℕ) (v : UInt8) :
    Writes (2 ^ 32) (vgDrawRectangle m.toVideoMode x y width height color).2 o v ↔
      ∃ i < min m.vRes (y.toNat + height.toNat) - y.toNat,
        ∃ j < min m.hRes (x.toNat + width.toNat) - x.toNat, ∃ k < m.bytesPerPixel,
          address m.hRes m.bytesPerPixel (y.toNat + i) (x.toNat + j) k = o ∧
            colorByte color k = v := by
  rw [vgDrawRectangle_snd, writes_flatMap_iff]
  have row : ∀ i < min m.vRes (y.toNat + height.toNat) - y.toNat,
      (UInt16.ofNat (y.toNat + i)).toNat = y.toNat + i :=
    fun i hi => row_toNat (m := m.toVideoMode) (by omega)
  constructor
  · rintro ⟨i, mem, written⟩
    have hi := List.mem_range.1 mem
    rw [vgDrawHline_writes_iff (by rw [row i hi]; omega), row i hi] at written
    exact ⟨i, hi, written⟩
  · rintro ⟨i, hi, written⟩
    refine ⟨i, List.mem_range.2 hi, ?_⟩
    rw [vgDrawHline_writes_iff (by rw [row i hi]; omega), row i hi]
    exact written

/-- `vg_draw_rectangle` clips every rectangle to the frame. -/
theorem vgDrawRectangle_fills :
    FillsRectangle m x.toNat y.toNat width.toNat height.toNat color.toNat
      (vgDrawRectangle m.toVideoMode x y width height color).2 := by
  have column : ∀ j < min m.hRes (x.toNat + width.toNat) - x.toNat, x.toNat + j < m.hRes := by
    omega
  have row : ∀ i < min m.vRes (y.toNat + height.toNat) - y.toNat, y.toNat + i < m.vRes := by
    omega
  refine ⟨?_, ?_, ?_⟩
  · intro before i hi j hj k hk
    have filled := store_filled (vgDrawRectangle_writes_iff m x y width height color) column before
      (i := i) hj hk
    rw [← colorByte_eq color (by have := m.bytes_le; omega)]
    apply filled.trans
    refine if_congr ?_ rfl rfl
    omega
  · intro before o behind
    exact store_behind_filled (vgDrawRectangle_writes_iff m x y width height color) column row before
      behind
  · intro o v written
    obtain ⟨i, hi, j, hj, k, hk, rfl, -⟩ :=
      (vgDrawRectangle_writes_iff m x y width height color o v).1 written
    have last := pixel_le m.bytesPerPixel (row i hi) (column j hj)
    rw [address]
    omega

end Rectangle

end Lab5

end LabComputers

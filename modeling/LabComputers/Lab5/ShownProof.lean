import LabComputers.Lab5.PatternProof
import LabComputers.Lab5.VideoTest

/-!
# What the drawing functions show

A drawing function writes a byte if and only if a pixel of what it draws is inside the frame, and
otherwise accesses nothing at all.  `vg_draw_rectangle` reports an error if and only if it has a row
inside the frame and starts to the right of the guard's column (`vgDrawRectangle_fst_eq_zero_iff`).
-/

namespace LabComputers.Lab5

open Raster

/-! ## Accesses that are seen -/

/-- The accesses of a drawing function: a byte is written if something is seen, and there are none
otherwise. -/
structure Shown (seen : Prop) (accesses : List (Access UInt8)) : Prop where
  writes : seen → ∃ offset value, .write offset value ∈ accesses
  blank : ¬ seen → accesses = []

section Shown

variable {seen seen' : Prop} {accesses : List (Access UInt8)}

theorem Shown.congr (shown : Shown seen accesses) (same : seen ↔ seen') : Shown seen' accesses :=
  ⟨fun some => shown.writes (same.2 some), fun none => shown.blank fun some => none (same.1 some)⟩

theorem Shown.flatMap {n : ℕ} {f : ℕ → List (Access UInt8)} (each : ∀ i < n, Shown seen (f i)) :
    Shown (0 < n ∧ seen) ((List.range n).flatMap f) := by
  refine ⟨?_, ?_⟩
  · rintro ⟨positive, some⟩
    obtain ⟨offset, value, mem⟩ := (each 0 positive).writes some
    exact ⟨offset, value, List.mem_flatMap.2 ⟨0, List.mem_range.2 positive, mem⟩⟩
  · intro none
    apply List.flatMap_eq_nil_iff.2
    intro i mem
    have below := List.mem_range.1 mem
    exact (each i below).blank fun some => none ⟨Nat.zero_lt_of_lt below, some⟩

theorem Shown.eq_nil_iff (shown : Shown seen accesses) : accesses = [] ↔ ¬ seen := by
  refine ⟨?_, shown.blank⟩
  rintro rfl some
  obtain ⟨offset, value, mem⟩ := shown.writes some
  cases mem

/-- A byte that is filled in, or copied. -/
theorem shown_write {offset : ℕ} {value : UInt8} (before : List (Access UInt8)) :
    Shown True (before ++ [.write offset value]) :=
  ⟨fun _ => ⟨offset, value, List.mem_append_right _ (List.mem_singleton_self _)⟩,
    fun none => absurd trivial none⟩

end Shown

/-! ## The drawing functions -/

/-- A part of a rectangle is inside the frame. -/
def Visible (m : VideoMode) (x y width height : UInt16) : Prop :=
  (x.toNat < m.hRes ∧ 0 < width.toNat) ∧ (y.toNat < m.vRes ∧ 0 < height.toNat) ∧
    0 < m.bytesPerPixel

section Drawing

variable (m : VideoMode) (x y width height : UInt16) (color : UInt32)

theorem vgDrawSprite_shown (image : Image) {bufferNo : UInt8} (buffer : bufferNo = 0 ∨ bufferNo = 1) :
    Shown (Visible m x y image.width image.height) (vgDrawSprite m image.sprite x y bufferNo) := by
  have right := image.width.toNat_lt
  have bottom := image.height.toNat_lt
  have left := x.toNat_lt
  have top := y.toNat_lt
  have columns : image.sprite.width = image.width.toNat := rfl
  have rows : image.sprite.height = image.height.toNat := rfl
  rw [vgDrawSprite, if_pos buffer]
  simp only
  rw [plot_advances, List.nil_append, columns, rows]
  refine Shown.congr (Shown.flatMap fun i _ => Shown.flatMap fun j _ => Shown.flatMap fun k _ =>
    shown_write [Access.read _]) ?_
  rw [and_true, Visible]
  omega

/-- A row of the frame is refused if and only if it starts to the right of the guard's column. -/
theorem vgDrawHline_fst {row : ℕ} (inside : row < m.vRes) :
    (vgDrawHline m x (UInt16.ofNat row) width color).1 = if m.hRes < x.toNat then 1 else 0 := by
  rw [vgDrawHline, row_toNat inside]
  by_cases right : m.hRes < x.toNat
  · rw [if_pos (.inl right), if_pos right]
  · rw [if_neg (by omega), if_neg right]

theorem vgDrawHline_shown {row : ℕ} (inside : row < m.vRes) :
    Shown ((x.toNat < m.hRes ∧ 0 < width.toNat) ∧ 0 < m.bytesPerPixel)
      (vgDrawHline m x (UInt16.ofNat row) width color).2 := by
  rw [vgDrawHline, row_toNat inside]
  by_cases right : m.hRes < x.toNat
  · rw [if_pos (.inl right)]
    exact ⟨fun some => absurd right (Nat.not_lt_of_gt some.1.1), fun _ => rfl⟩
  · rw [if_neg (by omega)]
    simp only
    rw [scanRow_advances (fillBytes_advances _ _), List.nil_append]
    refine Shown.congr (Shown.flatMap fun j _ => Shown.flatMap fun k _ => shown_write []) ?_
    rw [and_true]
    omega

theorem vgDrawRectangle_shown :
    Shown (Visible m x y width height) (vgDrawRectangle m x y width height color).2 := by
  rw [vgDrawRectangle_snd]
  refine Shown.congr (Shown.flatMap fun i below => vgDrawHline_shown m x width color ?_) ?_
  · omega
  rw [Visible]
  omega

/-- The `n * n` rectangles of a pattern have pixels. -/
def Tiled (m : VideoMode) (n : ℕ) : Prop :=
  (0 < n ∧ n ≤ m.hRes) ∧ (0 < n ∧ n ≤ m.vRes) ∧ 0 < m.bytesPerPixel

theorem drawTile_shown (colors : ℕ → ℕ → UInt32) {n col row : ℕ} (hcol : col < n) (hrow : row < n) :
    Shown (Tiled m n) (drawTile m (m.hRes / n) (m.vRes / n) colors col row) := by
  obtain ⟨right, left, width⟩ := part_of_side m.hRes_lt hcol
  obtain ⟨bottom, top, height⟩ := part_of_side m.vRes_lt hrow
  rw [drawTile, if_neg (by omega)]
  rw [Nat.add_mul, Nat.one_mul] at right bottom
  refine (vgDrawRectangle_shown m _ _ _ _ _).congr ?_
  rw [Visible, left, top, width, height, Tiled, ← Nat.div_pos_iff, ← Nat.div_pos_iff]
  omega

theorem tiles_shown (n : ℕ) (colors : ℕ → ℕ → UInt32) : Shown (Tiled m n) (tiles m n colors) := by
  refine Shown.congr (Shown.flatMap fun row hrow => Shown.flatMap fun col hcol =>
    drawTile_shown m colors hcol hrow) ?_
  rw [Tiled]
  tauto

/-- A rectangle is reported as an error if and only if it has a row inside the frame and starts to the
right of the guard's column. -/
theorem vgDrawRectangle_fst_eq_zero_iff :
    (vgDrawRectangle m x y width height color).1 = 0 ↔
      ¬ (m.hRes < x.toNat ∧ y.toNat < m.vRes ∧ 0 < height.toNat) := by
  -- the result after `n` rows
  have rows (n : ℕ) (inside : y.toNat + n ≤ m.vRes) :
      ((List.range n).foldl (fun (r : UInt8 × List (Access UInt8)) i =>
        (r.1 ||| UInt8.ofInt (vgDrawHline m x (UInt16.ofNat (y.toNat + i)) width color).1,
          r.2 ++ (vgDrawHline m x (UInt16.ofNat (y.toNat + i)) width color).2)) (0, [])).1 =
        if m.hRes < x.toNat ∧ 0 < n then 1 else 0 := by
    induction n with
    | zero => simp
    | succ n ih =>
      rw [List.range_succ, List.foldl_append, List.foldl_cons, List.foldl_nil, ih (by omega),
        vgDrawHline_fst m x width color (by omega)]
      by_cases right : m.hRes < x.toNat
      · have error : m.hRes < x.toNat ∧ 0 < n + 1 := ⟨right, Nat.succ_pos n⟩
        rw [if_pos right, if_pos error]
        split_ifs
        · rfl
        · rfl
      · have none (n : ℕ) : ¬ (m.hRes < x.toNat ∧ 0 < n) := fun both => right both.1
        rw [if_neg right, if_neg (none n), if_neg (none (n + 1))]
        rfl
  have result := rows (min m.vRes (y.toNat + height.toNat) - y.toNat)
  by_cases inside : y.toNat < m.vRes
  · unfold vgDrawRectangle
    simp only
    rw [result (by omega)]
    split_ifs with error
    · exact iff_of_false (by decide) (by omega)
    · exact iff_of_true rfl (by omega)
  · have none : min m.vRes (y.toNat + height.toNat) - y.toNat = 0 := by omega
    unfold vgDrawRectangle
    simp only
    rw [none]
    exact iff_of_true rfl (by omega)

end Drawing

end LabComputers.Lab5

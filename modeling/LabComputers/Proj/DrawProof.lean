import LabComputers.Proj.VideoCardProof

/-!
# What a draw leaves in the buffer

The loops of a draw are clipped to the frame, but their pointers advance as if the rows were whole.
The picture is right as long as no second row is drawn with a clipped first one (`Straight`): then
each pixel of the frame under the sprite shows the sprite's pixel, or keeps its own where the
sprite is black and black is skipped, and every other byte of the buffer is unchanged.
-/

namespace LabComputers

open Raster

/-- The frame of a video mode, as a buffer in the 32-bit address space. -/
structure PixelBuffer extends VideoMode where
  bytes_pos : 0 < bytesPerPixel
  addressable : hRes * vRes * bytesPerPixel ≤ 2 ^ 32

namespace PixelBuffer

/-- The address of byte `k` of pixel `(i, j)`. -/
def offset (m : PixelBuffer) (i j k : ℕ) : ℕ := address m.hRes m.bytesPerPixel i j k

end PixelBuffer

/-! ## The writes of a draw -/

/-- The number of rows that lie inside the frame. -/
def Draw.rows (m : VideoMode) (d : Draw) : ℕ := min m.vRes (d.y + d.sprite.height) - d.y

/-- The number of columns that lie inside the frame. -/
def Draw.cols (m : VideoMode) (d : Draw) : ℕ := min m.hRes (d.x + d.sprite.width) - d.x

/-- The code of a pixel. -/
def Draw.pixel (m : VideoMode) (d : Draw) : Cursor UInt8 → Cursor UInt8 :=
  if d.skipBlack then copyVisible d.sprite.byte m.bytesPerPixel
  else copyBytes d.sprite.byte m.bytesPerPixel

/-- A draw to a buffer, with 16-bit coordinates and sprite sizes, of a sprite no wider than the
frame. -/
structure Draw.Drawn (m : VideoMode) (d : Draw) : Prop where
  buffer : d.bufferNo = 0 ∨ d.bufferNo = 1
  x : d.x < 2 ^ 16
  y : d.y < 2 ^ 16
  width : d.sprite.width ≤ m.hRes
  height : d.sprite.height < 2 ^ 16

/-- Rows after the first are drawn only if the rows are whole. -/
def Draw.Straight (m : VideoMode) (d : Draw) : Prop :=
  ∀ i < d.rows m, 0 < d.cols m → i = 0 ∨ d.cols m = d.sprite.width

section Writes

variable {m : PixelBuffer} {d : Draw}

theorem Draw.Drawn.accesses_eq (h : d.Drawn m.toVideoMode) :
    d.accesses m.toVideoMode =
      (scan (d.pixel m.toVideoMode) (d.rows m.toVideoMode) (d.cols m.toVideoMode) m.bytesPerPixel
        ((m.hRes + 2 ^ 32 - d.sprite.width) * m.bytesPerPixel % 2 ^ 32)
        ⟨(m.hRes * d.y + d.x) * m.bytesPerPixel % 2 ^ 32, 0, []⟩).accesses := by
  have hx := h.x
  have hy := h.y
  have hw := h.width
  have hh := h.height
  have hRes := m.hRes_lt
  have rows : min m.vRes ((d.y + d.sprite.height) % 2 ^ 32) - d.y % 2 ^ 16 =
      d.rows m.toVideoMode := by
    rw [Draw.rows]
    omega
  have cols : min m.hRes ((d.x + d.sprite.width) % 2 ^ 32) - d.x % 2 ^ 16 =
      d.cols m.toVideoMode := by
    rw [Draw.cols]
    omega
  simp only [Draw.accesses, if_pos h.buffer, rows, cols, Draw.pixel]

/-- The pointer of the loops, modulo the address space: a row of `cols` pixels is followed by a step
over `hRes - w` pixels. -/
theorem pointer_modEq {w : ℕ} (narrow : w ≤ m.hRes) (x y i j k cols : ℕ) :
    (m.hRes * y + x) * m.bytesPerPixel % 2 ^ 32 +
        i * (cols * m.bytesPerPixel + (m.hRes + 2 ^ 32 - w) * m.bytesPerPixel % 2 ^ 32) +
        j * m.bytesPerPixel + k ≡
      (m.hRes * y + x + i * (cols + (m.hRes - w)) + j) * m.bytesPerPixel + k [MOD 2 ^ 32] := by
  have unwrapped := (((Nat.mod_modEq ((m.hRes * y + x) * m.bytesPerPixel) (2 ^ 32)).add
    (((Nat.mod_modEq ((m.hRes + 2 ^ 32 - w) * m.bytesPerPixel) (2 ^ 32)).add_left
      (cols * m.bytesPerPixel)).mul_left i)).add_right (j * m.bytesPerPixel)).add_right k
  have line : m.hRes + 2 ^ 32 - w = m.hRes - w + 2 ^ 32 := by omega
  apply unwrapped.trans
  apply (Nat.modEq_add_mul_modulus_iff (c := i * m.bytesPerPixel)).1
  apply congrArg (· % 2 ^ 32)
  rw [line]
  ring

/-- The pointer at a pixel of the frame. -/
theorem wrapped_address {w x y i j k cols i' j' : ℕ} (narrow : w ≤ m.hRes) (hi : i' < m.vRes)
    (hj : j' < m.hRes) (hk : k < m.bytesPerPixel)
    (pixel : m.hRes * y + x + i * (cols + (m.hRes - w)) + j = i' * m.hRes + j') :
    ((m.hRes * y + x) * m.bytesPerPixel % 2 ^ 32 +
        i * (cols * m.bytesPerPixel + (m.hRes + 2 ^ 32 - w) * m.bytesPerPixel % 2 ^ 32) +
        j * m.bytesPerPixel + k) % 2 ^ 32 = m.offset i' j' k := by
  have last := pixel_le m.bytesPerPixel hi hj
  have room := m.addressable
  have small : m.offset i' j' k < 2 ^ 32 := by
    rw [PixelBuffer.offset, address]
    omega
  have pointer := pointer_modEq narrow x y i j k cols
  rw [pixel] at pointer
  exact Eq.trans pointer (Nat.mod_eq_of_lt small)

theorem Draw.row_inside {i : ℕ} (h : i < d.rows m.toVideoMode) : d.y + i < m.vRes := by
  rw [Draw.rows] at h
  omega

theorem Draw.column_inside {j : ℕ} (h : j < d.cols m.toVideoMode) : d.x + j < m.hRes := by
  rw [Draw.cols] at h
  omega

/-- A straight draw paints the sprite at its position. -/
theorem Draw.Drawn.writes_iff (h : d.Drawn m.toVideoMode) (straight : d.Straight m.toVideoMode)
    {acc : ℕ → ℕ → List (Access UInt8)} {value : ℕ → ℕ → Option UInt8}
    (step : Advances (d.pixel m.toVideoMode) 0 m.bytesPerPixel acc)
    (paints : Paints acc m.bytesPerPixel value) (o : ℕ) (v : UInt8) :
    Writes (2 ^ 32) (d.accesses m.toVideoMode) o v ↔
      ∃ i < d.rows m.toVideoMode, ∃ j < d.cols m.toVideoMode, ∃ k < m.bytesPerPixel,
        address m.hRes m.bytesPerPixel (d.y + i) (d.x + j) k = o ∧
          value ((i * d.sprite.width + j) * m.bytesPerPixel) k = some v := by
  have source : ∀ {i j}, i < d.rows m.toVideoMode → j < d.cols m.toVideoMode →
      i * (d.cols m.toVideoMode * m.bytesPerPixel) + j * m.bytesPerPixel =
        (i * d.sprite.width + j) * m.bytesPerPixel := by
    intro i j hi hj
    rcases straight i hi (by omega) with rfl | whole
    · ring
    · rw [whole]
      ring
  have pixel : ∀ {i j}, i < d.rows m.toVideoMode → j < d.cols m.toVideoMode →
      m.hRes * d.y + d.x + i * (d.cols m.toVideoMode + (m.hRes - d.sprite.width)) + j =
        (d.y + i) * m.hRes + (d.x + j) := by
    intro i j hi hj
    rcases straight i hi (by omega) with rfl | whole
    · ring
    · rw [whole, Nat.add_sub_cancel' h.width]
      ring
  have target : ∀ {i j k}, i < d.rows m.toVideoMode → j < d.cols m.toVideoMode →
      k < m.bytesPerPixel → _ := fun {_ _ _} hi hj hk =>
    wrapped_address h.width (Draw.row_inside hi) (Draw.column_inside hj) hk (pixel hi hj)
  rw [h.accesses_eq, writes_scan_iff step paints]
  constructor
  · rintro ⟨i, hi, j, hj, k, hk, at_, painted⟩
    rw [target hi hj hk] at at_
    rw [source hi hj] at painted
    exact ⟨i, hi, j, hj, k, hk, at_, painted⟩
  · rintro ⟨i, hi, j, hj, k, hk, at_, painted⟩
    refine ⟨i, hi, j, hj, k, hk, ?_, ?_⟩
    · rw [target hi hj hk]
      exact at_
    · rwa [source hi hj]

section Painted

variable {acc : ℕ → ℕ → List (Access UInt8)} {value : ℕ → ℕ → Option UInt8}

/-- The pixels of the frame after a straight draw. -/
theorem Draw.Drawn.store_pixel (h : d.Drawn m.toVideoMode) (straight : d.Straight m.toVideoMode)
    (step : Advances (d.pixel m.toVideoMode) 0 m.bytesPerPixel acc)
    (paints : Paints acc m.bytesPerPixel value) (before : ℕ → UInt8) {i j k : ℕ} (hi : i < m.vRes)
    (hj : j < m.hRes) (hk : k < m.bytesPerPixel) :
    store (2 ^ 32) before (d.accesses m.toVideoMode) (m.offset i j k) =
      if d.y ≤ i ∧ i < min (d.y + d.sprite.height) m.vRes ∧ d.x ≤ j ∧
          j < min (d.x + d.sprite.width) m.hRes then
        (value (((i - d.y) * d.sprite.width + (j - d.x)) * m.bytesPerPixel) k).getD
          (before (m.offset i j k))
      else before (m.offset i j k) := by
  have painted := store_painted (h.writes_iff straight step paints)
    (fun _ => Draw.column_inside (d := d)) before (i := i) hj hk
  apply painted.trans
  refine if_congr ?_ rfl rfl
  rw [Draw.rows, Draw.cols]
  omega

/-- The bytes behind the frame are left alone. -/
theorem Draw.Drawn.store_behind (h : d.Drawn m.toVideoMode) (straight : d.Straight m.toVideoMode)
    (step : Advances (d.pixel m.toVideoMode) 0 m.bytesPerPixel acc)
    (paints : Paints acc m.bytesPerPixel value) (before : ℕ → UInt8) {o : ℕ}
    (behind : m.hRes * m.vRes * m.bytesPerPixel ≤ o) :
    store (2 ^ 32) before (d.accesses m.toVideoMode) o = before o :=
  Raster.store_behind (h.writes_iff straight step paints) (fun _ => Draw.column_inside (d := d))
    (fun _ => Draw.row_inside (d := d)) before behind

end Painted

end Writes

/-! ## Whole sprites -/

/-- The sprite shows at column `x` and row `y`, clipped to the frame, and every other byte is as
before. -/
structure ShowsClipped (m : PixelBuffer) (sprite : Sprite) (x y : ℕ) (before after : ℕ → UInt8) :
    Prop where
  pixels : ∀ i < m.vRes, ∀ j < m.hRes, ∀ k < m.bytesPerPixel, after (m.offset i j k) =
    if y ≤ i ∧ i < min (y + sprite.height) m.vRes ∧ x ≤ j ∧ j < min (x + sprite.width) m.hRes then
      sprite.byte (((i - y) * sprite.width + (j - x)) * m.bytesPerPixel + k)
    else before (m.offset i j k)
  behind : ∀ o, m.hRes * m.vRes * m.bytesPerPixel ≤ o → after o = before o

/-- `vg_draw_sprite` clips every `w` by `h` sprite drawn at `(x, y)` over every picture. -/
def Clips (m : PixelBuffer) (w : ℕ) (h x y : UInt16) (bufferNo : UInt8) : Prop :=
  ∀ (bytes : List UInt8) (before : ℕ → UInt8), bytes.length = w * h.toNat * m.bytesPerPixel →
    ShowsClipped m ⟨bytes, w, h.toNat⟩ x.toNat y.toNat before (store (2 ^ 32) before
      ((vgDrawSprite ⟨bytes, w, h.toNat⟩ x y bufferNo).accesses m.toVideoMode))

section Sprites

variable {m : PixelBuffer} {w : ℕ} {h x y : UInt16} {bufferNo : UInt8}

theorem vgDrawSprite_drawn (narrow : w ≤ m.hRes) (buffer : bufferNo = 0 ∨ bufferNo = 1)
    (bytes : List UInt8) :
    (vgDrawSprite ⟨bytes, w, h.toNat⟩ x y bufferNo).Drawn m.toVideoMode where
  buffer := buffer
  x := x.toNat_lt
  y := y.toNat_lt
  width := narrow
  height := h.toNat_lt

/-- A sprite whose rows are whole, or that shows at most one row, is clipped. -/
theorem clips (narrow : w ≤ m.hRes) (buffer : bufferNo = 0 ∨ bufferNo = 1)
    (straight : x.toNat + w ≤ m.hRes ∨ m.hRes ≤ x.toNat ∨ h.toNat ≤ 1 ∨ m.vRes ≤ y.toNat + 1) :
    Clips m w h x y bufferNo := by
  intro bytes before _
  have drawn := vgDrawSprite_drawn (h := h) (x := x) (y := y) narrow buffer bytes
  have rows : (vgDrawSprite ⟨bytes, w, h.toNat⟩ x y bufferNo).rows m.toVideoMode =
      min m.vRes (y.toNat + h.toNat) - y.toNat := rfl
  have cols : (vgDrawSprite ⟨bytes, w, h.toNat⟩ x y bufferNo).cols m.toVideoMode =
      min m.hRes (x.toNat + w) - x.toNat := rfl
  have whole : (vgDrawSprite ⟨bytes, w, h.toNat⟩ x y bufferNo).Straight m.toVideoMode := by
    intro i hi shown
    rw [rows] at hi
    rw [cols] at shown ⊢
    change i = 0 ∨ _ = w
    omega
  refine ⟨?_, ?_⟩
  · intro i hi j hj k hk
    exact drawn.store_pixel whole (copyBytes_advances _ _) (copyBytes_paints _ _) before hi hj hk
  · intro o behind
    exact drawn.store_behind whole (copyBytes_advances _ _) (copyBytes_paints _ _) before behind

theorem vgDrawSprite_writes_iff (narrow : w ≤ m.hRes) (buffer : bufferNo = 0 ∨ bufferNo = 1)
    {bytes : List UInt8} {o : ℕ} {v : UInt8} :
    Writes (2 ^ 32) ((vgDrawSprite ⟨bytes, w, h.toNat⟩ x y bufferNo).accesses m.toVideoMode) o v ↔
      ∃ i < min m.vRes (y.toNat + h.toNat) - y.toNat, ∃ j < min m.hRes (x.toNat + w) - x.toNat,
        ∃ k < m.bytesPerPixel,
          ((m.hRes * y.toNat + x.toNat) * m.bytesPerPixel % 2 ^ 32 +
            i * ((min m.hRes (x.toNat + w) - x.toNat) * m.bytesPerPixel +
              (m.hRes + 2 ^ 32 - w) * m.bytesPerPixel % 2 ^ 32) +
            j * m.bytesPerPixel + k) % 2 ^ 32 = o ∧
          some (bytes.getD (i * ((min m.hRes (x.toNat + w) - x.toNat) * m.bytesPerPixel) +
            j * m.bytesPerPixel + k) 0) = some v := by
  rw [(vgDrawSprite_drawn (h := h) (x := x) (y := y) narrow buffer bytes).accesses_eq]
  exact writes_scan_iff (copyBytes_advances _ _) (copyBytes_paints _ _)

/-- When the right edge cuts a sprite of which two rows show, the second row starts `w` pixels before
the edge instead of at `x`. -/
theorem writes_sheared (bytes : List UInt8) (buffer : bufferNo = 0 ∨ bufferNo = 1)
    (narrow : w ≤ m.hRes) (cut : m.hRes < x.toNat + w) (visible : x.toNat < m.hRes)
    (tall : 1 < h.toNat) (second : y.toNat + 1 < m.vRes) :
    ∃ v, Writes (2 ^ 32) ((vgDrawSprite ⟨bytes, w, h.toNat⟩ x y bufferNo).accesses m.toVideoMode)
      (m.offset (y.toNat + 1) (m.hRes - w) 0) v := by
  have cols : min m.hRes (x.toNat + w) - x.toNat = m.hRes - x.toNat := by omega
  have pixel : m.hRes * y.toNat + x.toNat + 1 * (m.hRes - x.toNat + (m.hRes - w)) + 0 =
      (y.toNat + 1) * m.hRes + (m.hRes - w) := by
    have line : (y.toNat + 1) * m.hRes = m.hRes * y.toNat + m.hRes := by ring
    omega
  refine ⟨_, (vgDrawSprite_writes_iff narrow buffer).2 ⟨1, by omega, 0, by omega, 0, m.bytes_pos,
    ?_, rfl⟩⟩
  rw [cols]
  exact wrapped_address narrow second (by omega) m.bytes_pos pixel

/-- The writes of a draw come from the data of its sprite. -/
theorem writes_data {bytes : List UInt8} (data : bytes.length = w * h.toNat * m.bytesPerPixel)
    (buffer : bufferNo = 0 ∨ bufferNo = 1) (narrow : w ≤ m.hRes) {o : ℕ} {v : UInt8}
    (written : Writes (2 ^ 32)
      ((vgDrawSprite ⟨bytes, w, h.toNat⟩ x y bufferNo).accesses m.toVideoMode) o v) : v ∈ bytes := by
  obtain ⟨i, hi, j, hj, k, hk, -, value⟩ := (vgDrawSprite_writes_iff narrow buffer).1 written
  generalize width : min m.hRes (x.toNat + w) - x.toNat = cols at hj value
  have area : cols * h.toNat * m.bytesPerPixel ≤ bytes.length := by
    rw [data]
    exact Nat.mul_le_mul_right _ (Nat.mul_le_mul_right _ (by omega))
  have last := pixel_le m.bytesPerPixel (show i < h.toNat by omega) hj
  have offset : i * (cols * m.bytesPerPixel) + j * m.bytesPerPixel = (i * cols + j) * m.bytesPerPixel := by
    ring
  have inside : i * (cols * m.bytesPerPixel) + j * m.bytesPerPixel + k < bytes.length := by omega
  rw [List.getD_eq_getElem _ _ inside, Option.some.injEq] at value
  exact value ▸ List.getElem_mem inside

theorem not_clips (buffer : bufferNo = 0 ∨ bufferNo = 1) (narrow : w ≤ m.hRes)
    (cut : m.hRes < x.toNat + w) (visible : x.toNat < m.hRes) (tall : 1 < h.toNat)
    (second : y.toNat + 1 < m.vRes) : ¬ Clips m w h x y bufferNo := by
  intro clips
  -- a white sprite over a black picture
  have size : (List.replicate (w * h.toNat * m.bytesPerPixel) (1 : UInt8)).length =
      w * h.toNat * m.bytesPerPixel := List.length_replicate
  have black := (clips _ (fun _ => 0) size).pixels (y.toNat + 1) second (m.hRes - w) (by omega) 0
    m.bytes_pos
  rw [if_neg (by omega)] at black
  have white : store (2 ^ 32) (fun _ => 0) _ _ = (1 : UInt8) := store_eq
    (.inl (writes_sheared _ buffer narrow cut visible tall second))
    fun v written => List.eq_of_mem_replicate (writes_data size buffer narrow written)
  exact absurd (white.symm.trans black) (by decide)

/-- `vg_draw_sprite` clips a sprite no wider than the frame if and only if the right edge does not
cut it, or it is not visible at all, or only one of its rows is. -/
theorem vgDrawSprite_clips_iff (m : PixelBuffer) {w : ℕ} (narrow : w ≤ m.hRes) (h x y : UInt16)
    {bufferNo : UInt8} (buffer : bufferNo = 0 ∨ bufferNo = 1) :
    Clips m w h x y bufferNo ↔
      x.toNat + w ≤ m.hRes ∨ m.hRes ≤ x.toNat ∨ h.toNat ≤ 1 ∨ m.vRes ≤ y.toNat + 1 := by
  refine ⟨fun clips => ?_, clips narrow buffer⟩
  by_contra sheared
  simp only [not_or, not_le] at sheared
  obtain ⟨cut, visible, tall, second⟩ := sheared
  exact not_clips buffer narrow cut visible tall second clips

end Sprites

/-- The frame of `GAME_GRAPHICS_MODE`. -/
def gameBuffer : PixelBuffer where
  toVideoMode := gameGraphicsMode
  bytes_pos := by decide
  addressable := by decide

/-- A sprite that crosses the bottom edge only is clipped. -/
theorem vgDrawSprite_clips_bottom : Clips gameBuffer 64 64 100 590 1 :=
  (vgDrawSprite_clips_iff gameBuffer (by decide) 64 100 590 (.inr rfl)).2 (by decide)

/-- A sprite that crosses the right edge is sheared. -/
theorem vgDrawSprite_sheared : ¬ Clips gameBuffer 64 64 768 0 1 :=
  not_clips (.inr rfl) (by decide) (by decide) (by decide) (by decide) (by decide)

/-! ## Sprites without their black pixels -/

/-- The sprite's pixel in row `i` and column `j` has a nonzero byte. -/
def Sprite.Visible (sprite : Sprite) (i j : ℕ) : Prop :=
  ∃ k < 3, sprite.byte ((i * sprite.width + j) * 3 + k) ≠ 0

/-- The visible pixels of the sprite show at column `x` and row `y`, and every other byte is as
before. -/
structure ShowsVisible (m : PixelBuffer) (sprite : Sprite) (x y : ℕ) (before after : ℕ → UInt8) :
    Prop where
  shown : ∀ i < sprite.height, ∀ j < sprite.width, sprite.Visible i j → ∀ k < 3,
    after (m.offset (y + i) (x + j) k) = sprite.byte ((i * sprite.width + j) * 3 + k)
  transparent : ∀ i < sprite.height, ∀ j < sprite.width, ¬ sprite.Visible i j → ∀ k < 3,
    after (m.offset (y + i) (x + j) k) = before (m.offset (y + i) (x + j) k)
  around : ∀ i < m.vRes, ∀ j < m.hRes,
    ¬ (y ≤ i ∧ i < y + sprite.height ∧ x ≤ j ∧ j < x + sprite.width) → ∀ k < 3,
      after (m.offset i j k) = before (m.offset i j k)
  behind : ∀ o, m.hRes * m.vRes * m.bytesPerPixel ≤ o → after o = before o

/-- The byte that `copyVisible` writes. -/
def visibleByte (data : ℕ → UInt8) (src k : ℕ) : Option UInt8 :=
  if data src ||| data (src + 1) ||| data (src + 2) = 0 then none else some (data (src + k))

theorem visibleAccesses_paints (data : ℕ → UInt8) :
    Paints (visibleAccesses data) 3 (visibleByte data) := by
  intro dst src o v
  have copied := copyBytes_paints data 3 dst src o v
  rw [visibleAccesses, List.mem_append]
  by_cases black : data src ||| data (src + 1) ||| data (src + 2) = 0
  · simp [visibleByte, black]
  · simpa [visibleByte, black] using copied

theorem Sprite.visible_iff {sprite : Sprite} {i j : ℕ} :
    sprite.Visible i j ↔ ¬ sprite.byte ((i * sprite.width + j) * 3) |||
      sprite.byte ((i * sprite.width + j) * 3 + 1) |||
      sprite.byte ((i * sprite.width + j) * 3 + 2) = 0 := by
  rw [UInt8.or_eq_zero_iff, UInt8.or_eq_zero_iff, Sprite.Visible]
  constructor
  · rintro ⟨k, hk, nonzero⟩ ⟨⟨zero, one⟩, two⟩
    obtain rfl | rfl | rfl : k = 0 ∨ k = 1 ∨ k = 2 := by omega
    · exact nonzero zero
    · exact nonzero one
    · exact nonzero two
  · intro nonzero
    by_contra black
    have zero : ∀ k < 3, sprite.byte ((i * sprite.width + j) * 3 + k) = 0 := by
      intro k hk
      by_contra h
      exact black ⟨k, hk, h⟩
    exact nonzero ⟨⟨zero 0 (by decide), zero 1 (by decide)⟩, zero 2 (by decide)⟩

/-- A whole sprite drawn without its black pixels. -/
theorem Draw.showsVisible {m : PixelBuffer} (bytes : m.bytesPerPixel = 3) {d : Draw}
    (skip : d.skipBlack = true) (buffer : d.bufferNo = 1) (shown : 0 < d.sprite.height)
    (right : d.x + d.sprite.width ≤ m.hRes) (bottom : d.y + d.sprite.height ≤ m.vRes)
    (before : ℕ → UInt8) :
    ShowsVisible m d.sprite d.x d.y before
      (store (2 ^ 32) before (d.accesses m.toVideoMode)) := by
  have hRes := m.hRes_lt
  have vRes := m.vRes_lt
  have drawn : d.Drawn m.toVideoMode :=
    ⟨.inr buffer, by omega, by omega, by omega, by omega⟩
  have straight : d.Straight m.toVideoMode := by
    intro i _ _
    right
    rw [Draw.cols]
    omega
  have step : Advances (d.pixel m.toVideoMode) 0 m.bytesPerPixel (visibleAccesses d.sprite.byte) := by
    rw [Draw.pixel, if_pos skip, bytes]
    exact copyVisible_advances _
  have paints : Paints (visibleAccesses d.sprite.byte) m.bytesPerPixel (visibleByte d.sprite.byte) := by
    rw [bytes]
    exact visibleAccesses_paints _
  have under : ∀ i < d.sprite.height, ∀ j < d.sprite.width, ∀ k < 3,
      store (2 ^ 32) before (d.accesses m.toVideoMode) (m.offset (d.y + i) (d.x + j) k) =
        (visibleByte d.sprite.byte ((i * d.sprite.width + j) * 3) k).getD
          (before (m.offset (d.y + i) (d.x + j) k)) := by
    intro i hi j hj k hk
    rw [drawn.store_pixel straight step paints before (by omega) (by omega) (by omega),
      if_pos (by omega), Nat.add_sub_cancel_left, Nat.add_sub_cancel_left, bytes]
  refine ⟨?_, ?_, ?_, ?_⟩
  · intro i hi j hj visible k hk
    rw [under i hi j hj k hk, visibleByte, if_neg (Sprite.visible_iff.1 visible), Option.getD_some]
  · intro i hi j hj black k hk
    rw [Sprite.visible_iff, not_not] at black
    rw [under i hi j hj k hk, visibleByte, if_pos black, Option.getD_none]
  · intro i hi j hj outside k hk
    rw [drawn.store_pixel straight step paints before hi hj (by omega), if_neg (by omega)]
  · intro o behind
    exact drawn.store_behind straight step paints before behind

/-- The ranges of the pointer, as `mouse_event_handler` leaves it, and of the killer's cell. -/
structure Placed (g : Globals) : Prop where
  half : g.crosshairHalfWidth = 32 ∧ g.crosshairHalfHeight = 32
  mouse_x : 32 ≤ g.mouseX.toInt ∧ g.mouseX.toInt ≤ 767
  mouse_y : 32 ≤ g.mouseY.toInt ∧ g.mouseY.toInt ≤ 567
  killer_x : g.killerAlien.x < 11
  killer_y : g.killerAlien.y < 7

theorem Bounded.placed {g : Globals} (h : Bounded g) : Placed g := { h with }

/-- A sprite of the size of an alien or of the crosshair, with all its bytes. -/
structure Sprite.Is64 (sprite : Sprite) : Prop where
  width : sprite.width = 64
  height : sprite.height = 64
  data : sprite.bytes.length = 64 * 64 * 3

section Overlays

variable {m : PixelBuffer} (bytes : m.bytesPerPixel = 3) (wide : 800 ≤ m.hRes)
  (high : 600 ≤ m.vRes) {g : Globals} (placed : Placed g) {s : Sprites}
include bytes wide high placed

omit placed in
/-- A sprite of 64 by 64 pixels drawn inside the game without its black pixels. -/
theorem Draw.is64_visible {d : Draw} (is64 : d.sprite.Is64) (skip : d.skipBlack = true)
    (buffer : d.bufferNo = 1) {x y : ℕ} (atX : d.x = x) (atY : d.y = y) (right : x + 64 ≤ 800)
    (bottom : y + 64 ≤ 600) (before : ℕ → UInt8) :
    ShowsVisible m d.sprite x y before (store (2 ^ 32) before (d.accesses m.toVideoMode)) := by
  rw [← atX, ← atY]
  apply Draw.showsVisible bytes skip buffer
  · rw [is64.height]
    decide
  · rw [atX, is64.width]
    omega
  · rw [atY, is64.height]
    omega

theorem vgDrawCrosshair_visible (crosshair : s.crosshair.Is64) (before : ℕ → UInt8) :
    ShowsVisible m s.crosshair (g.mouseX.toInt - 32).toNat (g.mouseY.toInt - 32).toNat before
      (store (2 ^ 32) before ((vgDrawCrosshair s g 1).accesses m.toVideoMode)) := by
  have mouseX := placed.mouse_x
  have mouseY := placed.mouse_y
  have half : (32 : Int16).toInt = 32 := by decide
  have atX : (vgDrawCrosshair s g 1).x = (g.mouseX.toInt - 32).toNat := by
    simp only [vgDrawCrosshair, placed.half.1, half]
    exact toNat_ofInt (by omega) (by omega)
  have atY : (vgDrawCrosshair s g 1).y = (g.mouseY.toInt - 32).toNat := by
    simp only [vgDrawCrosshair, placed.half.2, half]
    exact toNat_ofInt (by omega) (by omega)
  apply Draw.is64_visible bytes wide high (d := vgDrawCrosshair s g 1) crosshair rfl rfl atX atY
  · omega
  · omega

theorem vgDrawKillerAlien_visible (past : Sprite)
    (killer : (s.killerAlienSprites.getD g.killerAlien.state past).Is64) (before : ℕ → UInt8) :
    ShowsVisible m (s.killerAlienSprites.getD g.killerAlien.state past)
      (g.killerAlien.x * alienWidth + alienHorizontalMargin + gameHorizontalMargin)
      (g.killerAlien.y * alienHeight + alienVerticalMargin + gameVerticalMargin) before
      (store (2 ^ 32) before ((vgDrawKillerAlien s past g).accesses m.toVideoMode)) := by
  have killerX := placed.killer_x
  have killerY := placed.killer_y
  have right : g.killerAlien.x * alienWidth + alienHorizontalMargin + gameHorizontalMargin + 64 ≤
      800 := by
    simp only [alienWidth, alienHorizontalMargin, gameHorizontalMargin]
    omega
  have bottom : g.killerAlien.y * alienHeight + alienVerticalMargin + gameVerticalMargin + 64 ≤
      600 := by
    simp only [alienHeight, alienVerticalMargin, gameVerticalMargin]
    omega
  exact Draw.is64_visible bytes wide high (d := vgDrawKillerAlien s past g) killer rfl rfl
    (Nat.mod_eq_of_lt (by omega)) (Nat.mod_eq_of_lt (by omega)) right bottom before

/-- The crosshair around the pointer and the killer in its cell show their visible pixels and leave
everything else, over any picture in a frame of three bytes per pixel that holds the game. -/
theorem overlays_visible (past : Sprite) (crosshair : s.crosshair.Is64)
    (killer : (s.killerAlienSprites.getD g.killerAlien.state past).Is64) (before : ℕ → UInt8) :
    ShowsVisible m s.crosshair (g.mouseX.toInt - 32).toNat (g.mouseY.toInt - 32).toNat before
        (store (2 ^ 32) before ((vgDrawCrosshair s g 1).accesses m.toVideoMode)) ∧
      ShowsVisible m (s.killerAlienSprites.getD g.killerAlien.state past)
        (g.killerAlien.x * alienWidth + alienHorizontalMargin + gameHorizontalMargin)
        (g.killerAlien.y * alienHeight + alienVerticalMargin + gameVerticalMargin) before
        (store (2 ^ 32) before ((vgDrawKillerAlien s past g).accesses m.toVideoMode)) :=
  ⟨vgDrawCrosshair_visible bytes wide high placed crosshair before,
    vgDrawKillerAlien_visible bytes wide high placed past killer before⟩

end Overlays

theorem is64_load (xpm : XpmLoader) {p : Xpm} (width : p.width = 64) (height : p.height = 64) :
    (xpm.load p).Is64 where
  width := by rw [xpm.width_load, width]
  height := by rw [xpm.height_load, height]
  data := by rw [xpm.length_bytes, width, height]

/-- The state after a movement of the mouse to the corner of the game. -/
def cornered : Globals := mouseEventHandler ⟨-400, 300, false, false⟩ (loopStart .zero)

/-- The overlays with the pointer in the corner and the killer in the first cell. -/
theorem overlays_visible_corner :
    ShowsVisible gameBuffer (stripedPixmaps.load .crosshair) 0 0 (fun _ => 1)
        (store (2 ^ 32) (fun _ => 1)
          ((vgDrawCrosshair (vgLoadSprites stripedPixmaps) cornered 1).accesses gameGraphicsMode)) ∧
      ShowsVisible gameBuffer (stripedPixmaps.load (.alienKill 0)) 18 98 (fun _ => 1)
        (store (2 ^ 32) (fun _ => 1)
          ((vgDrawKillerAlien (vgLoadSprites stripedPixmaps) ⟨[], 0, 0⟩ cornered).accesses
            gameGraphicsMode)) := by
  have x : (cornered.mouseX.toInt - 32).toNat = 0 := by decide +kernel
  have y : (cornered.mouseY.toInt - 32).toNat = 0 := by decide +kernel
  have killer : cornered.killerAlien = ⟨0, 0, 0⟩ := by decide +kernel
  have placed : Placed cornered := ((bounded_loopStart .zero).mouseEventHandler _).placed
  have sprite : (vgLoadSprites stripedPixmaps).killerAlienSprites.getD cornered.killerAlien.state
      ⟨[], 0, 0⟩ = stripedPixmaps.load (.alienKill 0) := by
    rw [killer]
    rfl
  have shown := overlays_visible (m := gameBuffer) (s := vgLoadSprites stripedPixmaps) rfl (by decide)
    (by decide) placed ⟨[], 0, 0⟩ (is64_load stripedPixmaps rfl rfl)
    (by rw [sprite]; exact is64_load stripedPixmaps rfl rfl) fun _ => 1
  rw [x, y, sprite, killer] at shown
  exact shown

end LabComputers

import LabComputers.Lab5.VideoCard

/-!
# The two versions of `vg_draw_sprite` agree

The pointer of the project's version moves by a whole line of the frame in each row when the sprite
is not cut at the right edge, so that it is always at the offset lab 5 computes.  Offsets are
compared in the 32-bit address space, where both versions wrap.
-/

namespace LabComputers

open Raster

/-- The contents of `video_mem` and `buffer`. -/
structure VideoMemory where
  videoMem : ℕ → UInt8
  buffer : ℕ → UInt8

/-- The memory after the accesses of a draw to a buffer. -/
def VideoMemory.draw (memory : VideoMemory) (bufferNo : UInt8) (accesses : List (Access UInt8)) :
    VideoMemory :=
  if bufferNo = 0 then { memory with videoMem := store (2 ^ 32) memory.videoMem accesses }
  else if bufferNo = 1 then { memory with buffer := store (2 ^ 32) memory.buffer accesses }
  else memory

theorem VideoMemory.draw_congr {bufferNo : UInt8} {accesses accesses' : List (Access UInt8)}
    (same : ∀ bytes, store (2 ^ 32) bytes accesses = store (2 ^ 32) bytes accesses')
    (memory : VideoMemory) : memory.draw bufferNo accesses = memory.draw bufferNo accesses' := by
  unfold VideoMemory.draw
  rw [same, same]

section Copy

variable {m : VideoMode} {w x : ℕ}

/-- A row of the sprite and the row increment make up a line of the frame. -/
theorem line_modEq (fits : w ≤ m.hRes) :
    w * m.bytesPerPixel + (m.hRes + 2 ^ 32 - w) * m.bytesPerPixel % 2 ^ 32 ≡
      m.hRes * m.bytesPerPixel [MOD 2 ^ 32] :=
  calc w * m.bytesPerPixel + (m.hRes + 2 ^ 32 - w) * m.bytesPerPixel % 2 ^ 32
    _ ≡ w * m.bytesPerPixel + (m.hRes + 2 ^ 32 - w) * m.bytesPerPixel [MOD 2 ^ 32] :=
      (Nat.mod_modEq _ _).add_left _
    _ = m.hRes * m.bytesPerPixel + 2 ^ 32 * m.bytesPerPixel := by
      rw [← Nat.add_mul, ← Nat.add_mul]
      congr 1
      omega
    _ ≡ m.hRes * m.bytesPerPixel [MOD 2 ^ 32] := Nat.add_mul_mod_self_left _ _ _

/-- The running pointer of the project is at the offset that lab 5 computes. -/
theorem pointer_modEq_offset (fits : w ≤ m.hRes) (y i j k : ℕ) :
    (m.hRes * y + x) * m.bytesPerPixel % 2 ^ 32 +
        i * (w * m.bytesPerPixel + (m.hRes + 2 ^ 32 - w) * m.bytesPerPixel % 2 ^ 32) +
        j * m.bytesPerPixel + k ≡
      Lab5.offset m (y + i) (x + j) k [MOD 2 ^ 32] := by
  have start := Nat.mod_modEq ((m.hRes * y + x) * m.bytesPerPixel) (2 ^ 32)
  have rows := (line_modEq fits).mul_left i
  refine (((start.add rows).add_right _).add_right _).trans ?_
  rw [show (m.hRes * y + x) * m.bytesPerPixel + i * (m.hRes * m.bytesPerPixel) +
      j * m.bytesPerPixel + k = ((y + i) * m.hRes + (x + j)) * m.bytesPerPixel + k by ring]
  exact (Nat.mod_modEq _ _).symm

end Copy

/-- For every frame, sprite, buffer and position at which the sprite is not cut at the right edge,
the two versions of `vg_draw_sprite` leave the same contents. -/
theorem vgDrawSprite_eq_lab5 (m : VideoMode) (sprite : Sprite) (x y : UInt16) (bufferNo : UInt8)
    (right : x.toNat + sprite.width ≤ m.hRes) (memory : VideoMemory) :
    memory.draw bufferNo ((vgDrawSprite sprite x y bufferNo).accesses m) =
      memory.draw bufferNo (Lab5.vgDrawSprite m sprite x y bufferNo) := by
  apply VideoMemory.draw_congr
  intro bytes
  have hRes := m.hRes_lt
  have column : x.toNat % 2 ^ 16 = x.toNat := Nat.mod_eq_of_lt x.toNat_lt
  have row : y.toNat % 2 ^ 16 = y.toNat := Nat.mod_eq_of_lt y.toNat_lt
  have cols : min m.hRes ((x.toNat + sprite.width) % 2 ^ 32) - x.toNat = sprite.width := by
    omega
  simp only [Draw.accesses, vgDrawSprite, Lab5.vgDrawSprite, column, row, cols, Bool.false_eq_true,
    if_false]
  split_ifs
  · apply store_scan_eq_store_plot
    intro i j k
    exact pointer_modEq_offset (by omega) _ _ _ _
  · rfl

/-- A sprite of two rows at the last row of a frame of four by three pixels: the first row of the
sprite is copied. -/
theorem vgDrawSprite_eq_lab5_cut :
    let m : VideoMode := ⟨4, 3, 1, by decide, by decide⟩
    let sprite : Sprite := ⟨[1, 2, 3, 4], 2, 2⟩
    let memory : VideoMemory := ⟨fun _ => 0, fun _ => 0⟩
    memory.draw 1 ((vgDrawSprite sprite 1 2 1).accesses m) =
        memory.draw 1 (Lab5.vgDrawSprite m sprite 1 2 1) ∧
      (List.range 13).map (memory.draw 1 (Lab5.vgDrawSprite m sprite 1 2 1)).buffer =
        [0, 0, 0, 0, 0, 0, 0, 0, 0, 1, 2, 0, 0] := by
  refine ⟨vgDrawSprite_eq_lab5 _ _ _ _ _ ?_ _, ?_⟩
  · decide
  · decide

end LabComputers

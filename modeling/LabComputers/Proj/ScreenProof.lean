import LabComputers.Lib.Picture
import LabComputers.Proj.DrawProof
import LabComputers.Proj.RankingProof

/-!
# What the screen shows

One call of `vg_ih` clears the buffer, draws the current screen into it and copies it to the video
memory.  In every state that the game reaches the video memory then holds the draws painted one over
another on black (`vgIh_paints`), whatever the two memories held before.  While the game is played
this is the picture of the matrix, the points and the crosshair (`playing_screen`).
-/

namespace LabComputers

open CString Picture Raster

/-! ## The two memories -/

/-- The contents of `buffer` and of the mapped `video_mem`. -/
structure Memories where
  buffer : ℕ → UInt8
  videoMem : ℕ → UInt8

/-- The writes of a draw, to the memory that `buffer_no` selects. -/
def Draw.execute (m : VideoMode) (mem : Memories) (d : Draw) : Memories :=
  if d.bufferNo = 0 then { mem with videoMem := store (2 ^ 32) mem.videoMem (d.accesses m) }
  else { mem with buffer := store (2 ^ 32) mem.buffer (d.accesses m) }

/-- The `memset`, the draws and the `memcpy` of `vg_ih`. -/
def Frame.execute (m : VideoMode) (frame : Frame) (mem : Memories) : Memories :=
  let mem := { mem with buffer := fun o => if o < frame.cleared then 0 else mem.buffer o }
  let mem := frame.draws.foldl (Draw.execute m) mem
  { mem with videoMem := fun o => if o < frame.copied then mem.buffer o else mem.videoMem o }

/-! ## Draws as layers -/

/-- A byte of a pixel: its row, its column and its number in the pixel. -/
abbrev Dot := ℕ × ℕ × ℕ

/-- The byte that a draw writes for byte `k` of a pixel of its sprite. -/
def Draw.paintedByte (d : Draw) (pixel k : ℕ) : Option UInt8 :=
  if d.skipBlack then visibleByte d.sprite.byte pixel k else some (d.sprite.byte (pixel + k))

/-- The byte of a dot in a memory. -/
def dotAt (memory : ℕ → UInt8) : Dot → UInt8 := fun (i, j, k) => memory (gameBuffer.offset i j k)

/-- The dot lies in the frame. -/
def Dot.Inside : Dot → Prop := fun (i, j, k) => i < 600 ∧ j < 800 ∧ k < 3

theorem Draw.exists_paints (d : Draw) :
    ∃ acc, Advances (d.pixel gameBuffer.toVideoMode) 0 gameBuffer.bytesPerPixel acc ∧
      Paints acc gameBuffer.bytesPerPixel d.paintedByte := by
  unfold Draw.pixel Draw.paintedByte
  by_cases skip : d.skipBlack = true
  · simp only [skip, if_true]
    exact ⟨_, copyVisible_advances _, visibleAccesses_paints _⟩
  · simp only [skip, if_false, Bool.false_eq_true]
    exact ⟨_, copyBytes_advances _ _, copyBytes_paints _ _⟩

namespace Draw.Fits

variable {d : Draw} (h : d.Fits gameGraphicsMode)
include h

theorem drawn : d.Drawn gameBuffer.toVideoMode := by
  have right : d.x + d.sprite.width ≤ 800 := h.right
  have bottom : d.y + d.sprite.height ≤ 600 := h.bottom
  refine ⟨.inr h.buffer, by omega, by omega, ?_, by omega⟩
  change d.sprite.width ≤ 800
  omega

theorem straight : d.Straight gameBuffer.toVideoMode := by
  have right : d.x + d.sprite.width ≤ 800 := h.right
  intro i _ _
  right
  rw [Draw.cols]
  change min 800 (d.x + d.sprite.width) - d.x = d.sprite.width
  omega

/-- The bytes behind the frame are left alone. -/
theorem store_behind (before : ℕ → UInt8) {o : ℕ} (behind : 800 * 600 * 3 ≤ o) :
    store (2 ^ 32) before (d.accesses gameGraphicsMode) o = before o := by
  obtain ⟨acc, step, paints⟩ := d.exists_paints
  exact h.drawn.store_behind h.straight step paints before behind

theorem execute (mem : Memories) :
    d.execute gameGraphicsMode mem =
      { mem with buffer := store (2 ^ 32) mem.buffer (d.accesses gameGraphicsMode) } := by
  rw [Draw.execute, if_neg (by rw [h.buffer]; decide)]

end Draw.Fits

/-! ## A frame -/

/-- The video memory shows the layers painted one over another on black. -/
def Shows (layers : List (Layer Dot UInt8)) (videoMem : ℕ → UInt8) : Prop :=
  ∀ p, Dot.Inside p → dotAt videoMem p = (topmost layers p).getD 0

/-- While a name is typed in, the message is the one of the points. -/
def Messaged (g : Globals) : Prop :=
  g.gameState = .lbInput → g.inputMessage = scoreMessage g.points true

namespace Messaged

theorem of_ne {g : Globals} (other : g.gameState ≠ .lbInput) : Messaged g :=
  fun input => absurd input other

variable {g : Globals}

theorem mouseEventHandler (h : Messaged g) (event : MouseEvent) :
    Messaged (mouseEventHandler event g) := by
  rcases mouseEventHandler_cases event g with e | e | ⟨playing, c, -, e⟩ | ⟨-, e⟩ |
    ⟨-, st, hst, e⟩ <;> rw [e]
  · exact h
  · exact h
  · refine of_ne fun input => ?_
    exact absurd (playing.symm.trans input) (by decide)
  · exact h
  · refine of_ne fun input => ?_
    change st = .lbInput at input
    rcases hst with rfl | rfl | rfl <;> cases input

theorem keyboardEventHandler (h : Messaged g) (scanCode : UInt8) :
    Messaged (keyboardEventHandler scanCode g) := by
  rcases keyboardEventHandler_cases scanCode g with e | e | ⟨-, e⟩ | ⟨-, e⟩ |
    ⟨-, ⟨c, -, -, e⟩ | e | ⟨-, e⟩⟩ | ⟨-, e⟩ <;> rw [e]
  · exact h
  · exact of_ne nofun
  · exact of_ne nofun
  · exact of_ne nofun
  · exact h
  · exact h
  · exact of_ne nofun
  · exact of_ne nofun

theorem gameIh (h : Messaged g) (rand : ℕ → ℕ) : Messaged (gameIh rand g) := by
  rcases gameIh_cases rand g with ⟨playing, e⟩ | ⟨ended, -, e⟩ | ⟨-, -, e⟩ | ⟨-, -, e⟩ <;> rw [e]
  · refine of_ne ?_
    rcases gameStep_cases playing rand with ⟨-, e'⟩ | ⟨c, -, e'⟩ <;>
      rw [e', gameGenerateNewAlien_state]
    · exact fun input => absurd (playing.symm.trans input) (by decide)
    · exact nofun
  · exact of_ne fun input => absurd (ended.symm.trans input) (by decide)
  · intro input
    simp only [gameLeaderboard] at input ⊢
    split_ifs at input with submitted
    rw [submitted]
  · exact h

end Messaged

theorem Reachable.messaged {g : Globals} (reachable : Reachable g) : Messaged g :=
  reachable.induction (fun _ => Messaged.of_ne nofun) (fun _ => Iff.rfl)
    (fun _ _ h => h.mouseEventHandler _) (fun _ _ h => h.keyboardEventHandler _)
    fun _ _ h => h.gameIh _

section Screens

variable (xpm : XpmLoader) (past : Sprite) {lb : Leaderboard} {g : Globals}

theorem ReachableFrom.fits (valid : lb.ValidNames) (h : ReachableFrom lb g) :
    ∀ d ∈ (vgIh (vgLoadSprites xpm) past g gameGraphicsMode).draws, d.Fits gameGraphicsMode := by
  have bounded := h.reachable.bounded
  unfold vgIh
  cases state : g.gameState with
  | playing => exact vgDrawGame_fits xpm past bounded
  | menu => exact vgDrawMenu_fits xpm past bounded
  | gameOver => exact vgDrawGameOver_fits xpm past bounded
  | pause => exact vgDrawPaused_fits xpm
  | lbInput =>
    exact vgDrawInputScreen_fits xpm past bounded (h.reachable.messaged state)
      (h.reachable.typed state)
  | leaderboard => exact vgDrawLeadeboard_fits xpm past bounded (h.names valid)
  | exit => exact List.forall_mem_nil _

end Screens

end LabComputers

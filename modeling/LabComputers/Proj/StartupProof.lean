import LabComputers.Proj.Startup

/-!
# When `game_loop` is entered

`proj_main_loop` enters `game_loop` exactly when the graphics mode was set and no call panicked
(`projMainLoop_enters_iff`).  A failure of `vbe_get_mode_info` makes `vg_prepareGraphics` return
true, before anything that could panic; the results of `malloc` and `xpm_load` are not looked at.
-/

namespace LabComputers.Startup

section Calls

variable (p : Platform)

/-- The mode information of the game's graphics mode. -/
def Platform.info : ModeInfo := (p.vbeGetModeInfo graphicsMode).2

/-- The size of the video memory and of the buffer. -/
def Platform.vramSize : UInt32 :=
  p.info.xResolution.toUInt32 * p.info.yResolution.toUInt32 * ((p.info.bitsPerPixel.toUInt32 + 7) / 8)

/-- The mode information is obtained. -/
def Platform.ModeKnown : Prop := (p.vbeGetModeInfo graphicsMode).1 = ok

/-- The off-screen buffer is allocated. -/
def Platform.Allocated : Prop := p.malloc p.vramSize ≠ null

/-- The video memory is mapped, with the privilege to do so. -/
def Platform.Mapped : Prop :=
  p.sysPrivctl ⟨p.info.physBasePtr, p.info.physBasePtr + p.vramSize⟩ = ok ∧
    p.vmMapPhys p.info.physBasePtr p.vramSize ≠ mapFailed

/-- Every pixmap is loaded. -/
def Platform.Loaded : Prop := ∀ x, p.xpmLoad x ≠ null

/-- The graphics mode is set. -/
def Platform.ModeSet : Prop := p.sysInt86 ⟨0x4F02, 0x4115, 0x10⟩ = ok

/-- Every call of start-up succeeds. -/
structure Platform.Ready : Prop where
  modeKnown : p.ModeKnown
  allocated : p.Allocated
  mapped : p.Mapped
  loaded : p.Loaded
  modeSet : p.ModeSet

/-- `proj_main_loop` enters `game_loop`. -/
def Platform.Enters : Prop := ∃ v code, projMainLoop p = .ok (.entered v code)

/-- `proj_main_loop` panics, or returns `EXIT_FAILURE` without entering `game_loop`. -/
def Platform.Fails : Prop :=
  (∃ message, projMainLoop p = .error message) ∨ projMainLoop p = .ok (.returned exitFailure)

end Calls

variable {p : Platform}

theorem vgPrepareGraphics_unknown (unknown : ¬ p.ModeKnown) :
    vgPrepareGraphics p graphicsMode .zero = .ok (true, .zero) := by
  unfold vgPrepareGraphics
  exact if_pos unknown

theorem vgPrepareGraphics_unmapped (known : p.ModeKnown) (unmapped : ¬ p.Mapped) :
    ∃ message, vgPrepareGraphics p graphicsMode .zero = .error message := by
  unfold vgPrepareGraphics
  simp only
  split_ifs with unknown denied failed
  · exact absurd known unknown
  · exact ⟨_, rfl⟩
  · exact ⟨_, rfl⟩
  · exact absurd ⟨(not_not.1 denied).symm, failed⟩ unmapped

theorem vgPrepareGraphics_mapped (known : p.ModeKnown) (mapped : p.Mapped) :
    ∃ v, vgPrepareGraphics p graphicsMode .zero = .ok (true, v) := by
  unfold vgPrepareGraphics
  simp only
  split_ifs with unknown denied failed
  · exact absurd known unknown
  · exact absurd mapped.1.symm denied
  · exact absurd failed mapped.2
  · exact ⟨_, rfl⟩

theorem vgSetGraphics_iff : vgSetGraphics p graphicsMode = true ↔ p.ModeSet := by
  unfold vgSetGraphics
  simp only
  split_ifs with failed
  · exact iff_of_false not_false failed
  · exact iff_of_true rfl (not_not.1 failed)

/-- Once the graphics are prepared, `sys_int86` decides. -/
theorem projMainLoop_of_prepared {v : Statics}
    (prepared : vgPrepareGraphics p graphicsMode .zero = .ok (true, v)) :
    projMainLoop p =
      .ok (if vgSetGraphics p graphicsMode then
        .entered { v with sprites := p.xpmLoad } (if p.vgExit = ok then exitSuccess else exitFailure)
      else .returned exitFailure) := by
  unfold projMainLoop
  rw [prepared]
  cases vgSetGraphics p graphicsMode with
  | false => rfl
  | true =>
    by_cases left : p.vgExit = ok
    · simp only [left, ne_eq, not_true_eq_false, if_false, if_true]
      rfl
    · simp only [left, ne_eq, not_false_eq_true, if_false, if_true]
      rfl

theorem enters_of_prepared {v : Statics}
    (prepared : vgPrepareGraphics p graphicsMode .zero = .ok (true, v)) (set : p.ModeSet) :
    p.Enters := by
  have loop := projMainLoop_of_prepared prepared
  rw [if_pos (vgSetGraphics_iff.2 set)] at loop
  exact ⟨_, _, loop⟩

theorem fails_of_prepared {v : Statics}
    (prepared : vgPrepareGraphics p graphicsMode .zero = .ok (true, v)) (unset : ¬ p.ModeSet) :
    p.Fails := by
  have loop := projMainLoop_of_prepared prepared
  rw [if_neg (mt vgSetGraphics_iff.1 unset)] at loop
  exact .inr loop

theorem fails_of_unmapped (known : p.ModeKnown) (unmapped : ¬ p.Mapped) : p.Fails := by
  obtain ⟨message, panicked⟩ := vgPrepareGraphics_unmapped known unmapped
  refine .inl ⟨message, ?_⟩
  unfold projMainLoop
  rw [panicked]
  rfl

theorem Platform.Fails.not_enters (fails : p.Fails) : ¬ p.Enters := by
  rintro ⟨v, code, entered⟩
  obtain ⟨message, panicked⟩ | returned := fails
  · cases panicked.symm.trans entered
  · cases returned.symm.trans entered

/-- `game_loop` is entered exactly if the graphics mode is set and nothing panics before;
otherwise start-up fails. -/
theorem enters_iff_and_fails :
    (p.Enters ↔ p.ModeSet ∧ (p.ModeKnown → p.Mapped)) ∧ (¬ p.Enters → p.Fails) := by
  by_cases panics : p.ModeKnown ∧ ¬ p.Mapped
  · have fails := fails_of_unmapped panics.1 panics.2
    exact ⟨iff_of_false fails.not_enters fun h => panics.2 (h.2 panics.1), fun _ => fails⟩
  · have quiet : p.ModeKnown → p.Mapped := fun known => not_not.1 fun h => panics ⟨known, h⟩
    obtain ⟨v, prepared⟩ : ∃ v, vgPrepareGraphics p graphicsMode .zero = .ok (true, v) := by
      by_cases known : p.ModeKnown
      · exact vgPrepareGraphics_mapped known (quiet known)
      · exact ⟨_, vgPrepareGraphics_unknown known⟩
    by_cases set : p.ModeSet
    · have enters := enters_of_prepared prepared set
      exact ⟨iff_of_true enters ⟨set, quiet⟩, fun h => absurd enters h⟩
    · have fails := fails_of_prepared prepared set
      exact ⟨iff_of_false fails.not_enters fun h => set h.1, fun _ => fails⟩

/-! ## Failures that go unnoticed -/

/-- What `proj_main_loop` should do: enter `game_loop` only if every call of start-up succeeded, and
fail in all other cases. -/
structure Platform.FailsUnlessReady (p : Platform) : Prop where
  ready : p.Enters → p.Ready
  fails : ¬ p.Ready → p.Fails

/-- `proj_main_loop` notices every failure exactly if the graphics mode is not set, or the mode
information is obtained and either the video memory is not mapped or the buffer and all the sprites
are there. -/
theorem failsUnlessReady_iff (p : Platform) :
    p.FailsUnlessReady ↔
      ¬ p.ModeSet ∨ p.ModeKnown ∧ (¬ p.Mapped ∨ p.Allocated ∧ p.Loaded) := by
  obtain ⟨enters, otherwise⟩ := enters_iff_and_fails (p := p)
  constructor
  · intro notices
    by_cases entered : p.Enters
    · have ready := notices.ready entered
      exact .inr ⟨ready.modeKnown, .inr ⟨ready.allocated, ready.loaded⟩⟩
    · rw [enters] at entered
      tauto
  · intro noticed
    have ready : p.Enters → p.Ready := by
      intro entered
      obtain ⟨set, quiet⟩ := enters.1 entered
      obtain unset | ⟨known, unmapped | ⟨allocated, loaded⟩⟩ := noticed
      · exact absurd set unset
      · exact absurd (quiet known) unmapped
      · exact ⟨known, allocated, quiet known, loaded, set⟩
    exact ⟨ready, fun unready => otherwise (mt ready unready)⟩

/-- A video card without the mode: `vbe_get_mode_info` fails, and all the other calls succeed. -/
def noModeInfo : Platform where
  vbeGetModeInfo _ := (1, ⟨0, 0, 0, 0⟩)
  malloc _ := 0x1000
  sysPrivctl _ := ok
  vmMapPhys _ _ := 0x2000
  xpmLoad _ := 0x3000
  sysInt86 _ := ok
  vgExit := ok

/-- Without the mode information `game_loop` is entered all the same. -/
theorem noModeInfo_enters : ¬ noModeInfo.FailsUnlessReady := by
  intro notices
  have entered : noModeInfo.Enters := ⟨_, _, rfl⟩
  have known : (1 : ℤ) = ok := (notices.ready entered).modeKnown
  exact absurd known (by decide)

end LabComputers.Startup

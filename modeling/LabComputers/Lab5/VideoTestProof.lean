import LabComputers.Lab5.FramesProof

/-!
# Leaving the graphics mode

A test that has set the graphics mode leaves it if and only if its drawing function returns 0, or
still waits (`videoTest_leaves_iff`): an error of the drawing function makes the test return before
`vg_exit`, and a division by zero or an access through `NULL` kills it.  A failure of
`vbe_get_mode_info` makes `prepareGraphics` return true, and the test draws what the static variables
of an earlier test let it draw (`videoTests_leave_iff`).
-/

namespace LabComputers.Lab5

open Startup (ok null mapFailed)
open Raster Traced

/-! ## The calls before the drawing -/

section Calls

variable (p : Platform) (mode : UInt16)

/-- The mode information. -/
def Platform.info : ModeInfo := (p.vbeGetModeInfo mode).2

/-- The size of the video memory. -/
def Platform.vramSize : UInt32 := UInt32.ofNat (p.info mode).mode.frameSize

/-- The mode information is obtained. -/
def Platform.ModeKnown : Prop := (p.vbeGetModeInfo mode).1 = ok

/-- The video memory is mapped, with the privilege to do so. -/
def Platform.Mapped : Prop :=
  p.sysPrivctl ⟨(p.info mode).physBasePtr, (p.info mode).physBasePtr + p.vramSize mode⟩ = ok ∧
    p.vmMapPhys (p.info mode).physBasePtr (p.vramSize mode) ≠ mapFailed

/-- The graphics mode is set. -/
def Platform.ModeSet : Prop := p.sysInt86 ⟨0x4F02, 0x4000 ||| mode, 0x10⟩ = ok

/-- The static variables once the video memory is mapped. -/
def Platform.statics (v : Statics) : Statics :=
  { v with
    videoMem := p.vmMapPhys (p.info mode).physBasePtr (p.vramSize mode)
    mode := (p.info mode).mode
    fields := (p.info mode).fields }

variable {p mode} {v : Statics}

theorem prepareGraphics_unknown (unknown : ¬ p.ModeKnown mode) :
    prepareGraphics p mode v = ⟨[.vbeGetModeInfo (p.vbeGetModeInfo mode).1], .ok (true, v)⟩ := by
  have failed : (p.vbeGetModeInfo mode).1 ≠ ok := unknown
  unfold prepareGraphics
  simp only
  rw [if_pos failed]
  rfl

theorem prepareGraphics_unmapped (known : p.ModeKnown mode) (unmapped : ¬ p.Mapped mode) :
    ∃ message, prepareGraphics p mode v =
      ⟨[.vbeGetModeInfo (p.vbeGetModeInfo mode).1], .error (.panic message)⟩ := by
  unfold prepareGraphics
  simp only
  split_ifs with unknown denied failed
  · exact absurd known unknown
  · exact ⟨_, rfl⟩
  · exact ⟨_, rfl⟩
  · exact absurd ⟨(not_not.1 denied).symm, failed⟩ unmapped

theorem prepareGraphics_mapped (known : p.ModeKnown mode) (mapped : p.Mapped mode) :
    prepareGraphics p mode v =
      ⟨[.vbeGetModeInfo (p.vbeGetModeInfo mode).1], .ok (true, p.statics mode v)⟩ := by
  unfold prepareGraphics
  simp only
  split_ifs with unknown denied failed
  · exact absurd known unknown
  · exact absurd mapped.1.symm denied
  · exact absurd failed mapped.2
  · rfl

theorem setGraphics_set (set : p.ModeSet mode) :
    setGraphics p mode = ⟨[.setGraphics true], .ok true⟩ := by
  unfold setGraphics
  simp only
  split_ifs with failed
  · exact absurd set failed
  · rfl

theorem setGraphics_unset (unset : ¬ p.ModeSet mode) :
    setGraphics p mode = ⟨[.setGraphics false], .ok false⟩ := by
  unfold setGraphics
  simp only
  split_ifs with failed
  · rfl
  · exact absurd (not_not.1 failed) unset

end Calls

/-! ## A test -/

/-- Once the graphics mode is set, a test calls `vg_exit` before it ends, and it writes nothing to the
video memory without mode information. -/
structure LeavesGraphics (t : Run Event Stop ℤ) : Prop where
  exits : .setGraphics true ∈ t.events → t.result ≠ .error .running →
    List.Sublist [.setGraphics true, .vgExit] t.events
  draws : ∀ r, .vbeGetModeInfo r ∈ t.events → r ≠ ok → ∀ offset value, .write offset value ∉ t.events

/-- A drawing function returns 0 or still waits for messages. -/
def Completes (t : Run Event Stop ℤ) : Prop := t.result = .ok ok ∨ t.result = .error .running

/-- A function does nothing with the video card but write to its memory. -/
def OnlyWrites {α : Type} (t : Run Event Stop α) : Prop :=
  ∀ e ∈ t.events, ∃ offset value, e = .write offset value

/-- A function does nothing with the video card, and returns or still waits for messages. -/
structure Waits (t : Run Event Stop Unit) : Prop where
  silent : t.events = []
  ends : t.result = .ok () ∨ t.result = .error .running

section Test

variable {p : Platform} {mode : UInt16} {v w : Statics} {e : Event} {r : ℤ}
variable {draw : Statics → Run Event Stop ℤ} {wait : Statics → Run Event Stop Unit}

/-- What a test does once the graphics mode is set. -/
def drawAndExit (p : Platform) (draw : Run Event Stop ℤ) (wait : Run Event Stop Unit) :
    Run Event Stop ℤ := do
  if (← draw) ≠ ok then return 1
  wait
  if (← vgExit p) ≠ ok then return 1
  return 0

theorem videoTest_unset (prepared : prepareGraphics p mode v = ⟨[e], .ok (true, w)⟩)
    (unset : ¬ p.ModeSet mode) :
    videoTest p mode draw wait v = ⟨[e, .setGraphics false], .ok 1⟩ := by
  unfold videoTest
  rw [prepared, setGraphics_unset unset]
  rfl

theorem videoTest_set (prepared : prepareGraphics p mode v = ⟨[e], .ok (true, w)⟩)
    (set : p.ModeSet mode) :
    videoTest p mode draw wait v =
      ⟨e :: .setGraphics true :: (drawAndExit p (draw w) (wait w)).events,
        (drawAndExit p (draw w) (wait w)).result⟩ := by
  unfold videoTest
  rw [prepared, setGraphics_set set]
  rfl

theorem videoTest_panic {s : Stop} (panics : prepareGraphics p mode v = ⟨[e], .error s⟩) :
    videoTest p mode draw wait v = ⟨[e], .error s⟩ := by
  unfold videoTest
  rw [panics]
  rfl

theorem mem_drawAndExit {draw : Run Event Stop ℤ} {wait : Run Event Stop Unit} (waiting : Waits wait)
    (reported : e ∈ (drawAndExit p draw wait).events) : e ∈ draw.events ∨ e = .vgExit := by
  unfold drawAndExit at reported
  rcases Run.mem_events_bind.1 reported with drawn | ⟨r, -, reported⟩
  · exact .inl drawn
  split_ifs at reported with failed
  · cases reported
  rcases Run.mem_events_bind.1 reported with waited | ⟨_, -, reported⟩
  · rw [waiting.silent] at waited
    cases waited
  rcases Run.mem_events_bind.1 reported with left | ⟨_, -, reported⟩
  · exact .inr (List.mem_singleton.1 left)
  · split_ifs at reported
    · cases reported
    · cases reported

/-- The mode is left if and only if the drawing function succeeds, or still waits. -/
theorem drawAndExit_exits_iff {draw : Run Event Stop ℤ} {wait : Run Event Stop Unit}
    (drawing : OnlyWrites draw) (waiting : Waits wait) :
    ((drawAndExit p draw wait).result ≠ .error .running →
      .vgExit ∈ (drawAndExit p draw wait).events) ↔ Completes draw := by
  have stays : .vgExit ∉ draw.events := by
    intro left
    obtain ⟨offset, value, other⟩ := drawing _ left
    cases other
  obtain ⟨events, result⟩ := draw
  cases result with
  | error s =>
    have ends : drawAndExit p ⟨events, .error s⟩ wait = ⟨events, .error s⟩ := rfl
    rw [ends, Completes]
    constructor
    · intro exits
      by_contra waits
      exact stays (exits fun running => waits (.inr running))
    · rintro (success | waits) ended
      · cases success
      · exact absurd waits ended
  | ok r =>
    by_cases success : r = ok
    · apply iff_of_true _ (.inl (congrArg Except.ok success))
      intro ended
      unfold drawAndExit at ended ⊢
      rw [Run.ok_bind, if_neg (not_not.2 success)] at ended ⊢
      obtain waited | still := waiting.ends
      · apply List.mem_append_right
        exact Run.mem_events_bind.2
          (.inr ⟨(), waited, Run.mem_events_bind.2 (.inl (List.mem_cons_self ..))⟩)
      · exact absurd (Run.result_bind_eq_error.2 (.inl still)) ended
    · have ends : drawAndExit p ⟨events, .ok r⟩ wait = ⟨events ++ [], .ok 1⟩ := by
        unfold drawAndExit
        rw [Run.ok_bind, if_pos success]
        rfl
      rw [ends, List.append_nil, Completes]
      refine iff_of_false (fun exits => stays (exits ?_)) ?_
      · simp
      · simp [success]

/-- A test that has not set the graphics mode has nothing to leave, and has not drawn. -/
theorem leaves_of_unset (prepared : prepareGraphics p mode v = ⟨[.vbeGetModeInfo r], .ok (true, w)⟩)
    (unset : ¬ p.ModeSet mode) : LeavesGraphics (videoTest p mode draw wait v) := by
  rw [videoTest_unset prepared unset]
  exact ⟨by simp, by simp⟩

theorem leaves_of_panic {s : Stop}
    (panics : prepareGraphics p mode v = ⟨[.vbeGetModeInfo r], .error s⟩) :
    LeavesGraphics (videoTest p mode draw wait v) := by
  rw [videoTest_panic panics]
  exact ⟨by simp, by simp⟩

theorem mem_drawAndExit_of_draw {draw : Run Event Stop ℤ} {wait : Run Event Stop Unit}
    (drawn : e ∈ draw.events) : e ∈ (drawAndExit p draw wait).events :=
  Run.mem_events_bind.2 (.inl drawn)

/-- A test that has set the graphics mode leaves it if and only if its drawing function completes,
without a write if there is no mode information. -/
theorem leaves_iff_of_set
    (prepared : prepareGraphics p mode v = ⟨[.vbeGetModeInfo r], .ok (true, w)⟩)
    (set : p.ModeSet mode) (drawing : OnlyWrites (draw w)) (waiting : Waits (wait w)) :
    LeavesGraphics (videoTest p mode draw wait v) ↔
      Completes (draw w) ∧ (r ≠ ok → (draw w).events = []) := by
  rw [videoTest_set prepared set, ← drawAndExit_exits_iff (p := p) drawing waiting]
  constructor
  · intro leaves
    refine ⟨?_, ?_⟩
    · intro ended
      have order := leaves.exits (List.mem_cons_of_mem _ (List.mem_cons_self ..)) ended
      have after := List.cons_sublist_cons.1 (List.Sublist.of_cons_of_ne (by simp) order)
      exact List.singleton_sublist.1 after
    · intro failed
      apply List.eq_nil_iff_forall_not_mem.2
      intro e drawn
      obtain ⟨offset, value, rfl⟩ := drawing e drawn
      have reported : .write offset value ∈ (drawAndExit p (draw w) (wait w)).events :=
        mem_drawAndExit_of_draw drawn
      exact leaves.draws r (List.mem_cons_self ..) failed offset value
        (List.mem_cons_of_mem _ (List.mem_cons_of_mem _ reported))
  · rintro ⟨exits, silent⟩
    refine ⟨?_, ?_⟩
    · intro _ ended
      exact ((List.singleton_sublist.2 (exits ended)).cons_cons _).cons _
    · intro r' asked failed offset value reported
      -- only `prepareGraphics` asks for the mode information, and only the drawing function writes
      have same : r' = r := by
        rcases List.mem_cons.1 asked with same | asked
        · exact Event.vbeGetModeInfo.inj same
        · rcases List.mem_cons.1 asked with other | asked
          · cases other
          · rcases mem_drawAndExit waiting asked with drawn | other
            · obtain ⟨_, _, other⟩ := drawing _ drawn
              cases other
            · cases other
      rcases List.mem_cons.1 reported with other | reported
      · cases other
      rcases List.mem_cons.1 reported with other | reported
      · cases other
      rcases mem_drawAndExit waiting reported with drawn | other
      · rw [silent (same ▸ failed)] at drawn
        cases drawn
      · cases other

/-- A test leaves the graphics mode if and only if that is not set, or the video memory is not mapped,
or the drawing function completes; without the mode information that has to write nothing. -/
theorem videoTest_leaves_iff (drawing : ∀ v, OnlyWrites (draw v)) (waiting : ∀ v, Waits (wait v)) :
    LeavesGraphics (videoTest p mode draw wait v) ↔
      ¬ p.ModeSet mode ∨
        (p.ModeKnown mode ∧ (¬ p.Mapped mode ∨ Completes (draw (p.statics mode v)))) ∨
        (¬ p.ModeKnown mode ∧ Completes (draw v) ∧ (draw v).events = []) := by
  by_cases known : p.ModeKnown mode
  · have result : (p.vbeGetModeInfo mode).1 = ok := known
    rw [and_iff_right known, not_iff_false_intro known, false_and, or_false]
    by_cases mapped : p.Mapped mode
    · have prepared := prepareGraphics_mapped (v := v) known mapped
      by_cases set : p.ModeSet mode
      · rw [leaves_iff_of_set prepared set (drawing _) (waiting _),
          and_iff_left fun failed => absurd result failed, not_iff_false_intro set,
          not_iff_false_intro mapped, false_or, false_or]
      · exact iff_of_true (leaves_of_unset prepared set) (.inl set)
    · obtain ⟨message, panics⟩ := prepareGraphics_unmapped (v := v) known mapped
      exact iff_of_true (leaves_of_panic panics) (.inr (.inl mapped))
  · have failed : (p.vbeGetModeInfo mode).1 ≠ ok := known
    have prepared := prepareGraphics_unknown (v := v) known
    rw [iff_false_intro known, false_and, false_or, not_false_iff, true_and]
    by_cases set : p.ModeSet mode
    · rw [leaves_iff_of_set prepared set (drawing _) (waiting _), not_iff_false_intro set, false_or,
        forall_prop_of_true failed]
    · exact iff_of_true (leaves_of_unset prepared set) (.inl set)

end Test

/-! ## The drawing functions -/

/-- A function that writes to the video memory and is stopped by an access through `NULL` only. -/
structure Paints (t : Run Event Stop Unit) : Prop where
  writes : OnlyWrites t
  stops : ∀ s, t.result = .error s → s = .nullPointer

/-- When a drawing function completes, and when it has then written nothing. -/
structure Draws (t : Run Event Stop ℤ) (harmless blank : Prop) : Prop where
  writes : OnlyWrites t
  completes : Completes t ↔ harmless
  silent : Completes t → (t.events = [] ↔ blank)

section Painting

variable {pointers : List UInt32} {accesses : List (Access UInt8)} {seen : Prop}
variable {t : Run Event Stop Unit} {u : Run Event Stop ℤ}

theorem result_access : (access pointers accesses).result = .ok () ↔
    (null ∈ pointers → accesses = []) := by
  unfold access
  split_ifs with fault
  · refine iff_of_false (fun ends => ?_) fun silent => fault.2 (silent fault.1)
    cases ends
  · refine iff_of_true rfl fun through => ?_
    by_contra some
    exact fault ⟨through, some⟩

theorem events_access : (access pointers accesses).events = [] := by
  unfold access
  split_ifs
  · rfl
  · rfl

theorem access_paints : Paints (access pointers accesses) := by
  refine ⟨fun e reported => ?_, fun s stops => ?_⟩
  · rw [events_access] at reported
    cases reported
  · unfold access at stops
    split_ifs at stops
    exact (Except.error.inj stops).symm

theorem Paints.bind {u : Run Event Stop Unit} (first : Paints t) (second : Paints u) :
    Paints (t >>= fun _ => u) := by
  refine ⟨fun e reported => ?_, fun s stops => ?_⟩
  · rcases Run.mem_events_bind.1 reported with reported | ⟨-, -, reported⟩
    · exact first.writes e reported
    · exact second.writes e reported
  · rcases Run.result_bind_eq_error.1 stops with stops | ⟨-, -, stops⟩
    · exact first.stops s stops
    · exact second.stops s stops

theorem Paints.forM {α : Type} {f : α → Run Event Stop Unit} (each : ∀ a, Paints (f a))
    (l : List α) : Paints (l.forM f) := by
  refine ⟨fun e reported => ?_, fun s stops => ?_⟩
  · obtain ⟨a, -, reported⟩ := Run.mem_events_forM reported
    exact (each a).writes e reported
  · obtain ⟨a, -, stops⟩ := Run.result_forM_eq_error stops
    exact (each a).stops s stops

theorem paint_paints : Paints (paint pointers accesses) := by
  refine access_paints.bind ⟨fun e reported => ?_, fun s stops => ?_⟩
  · obtain ⟨a, -, same⟩ := List.mem_filterMap.1 reported
    cases a with
    | read offset => cases same
    | write offset value => exact ⟨offset, value, (Option.some.inj same).symm⟩
  · cases stops

theorem result_paint (shown : Shown seen accesses) : (paint pointers accesses).result = .ok () ↔
    (null ∈ pointers → ¬ seen) := by
  unfold paint
  rw [Run.result_then_eq_ok, and_iff_left rfl, result_access, shown.eq_nil_iff]

theorem events_paint (shown : Shown seen accesses)
    (ends : (paint pointers accesses).result = .ok ()) :
    (paint pointers accesses).events = [] ↔ ¬ seen := by
  unfold paint at ends ⊢
  rw [Run.events_then (Run.result_then_eq_ok.1 ends).1, events_access, List.nil_append,
    List.filterMap_eq_nil_iff]
  constructor
  · intro silent some
    obtain ⟨offset, value, mem⟩ := shown.writes some
    cases silent _ mem
  · intro none a mem
    rw [shown.blank none] at mem
    cases mem

/-- A function that is killed does not complete. -/
theorem not_completes {t : Run Event Stop ℤ} {s : Stop} (stops : t.result = .error s)
    (killed : s ≠ .running) : ¬ Completes t := by
  rw [Completes, stops]
  rintro (success | waits)
  · cases success
  · exact killed (Except.error.inj waits)

/-- What follows the painting. -/
theorem Paints.draws (paints : Paints t) (silent : u.events = []) :
    Draws (t >>= fun _ => u) (t.result = .ok () ∧ Completes u) (t.events = []) := by
  have events := Run.events_then_silent (t := t) silent
  refine ⟨fun e reported => ?_, ?_, fun _ => by rw [events]⟩
  · rw [events] at reported
    exact paints.writes e reported
  · rw [Completes, Run.result_then_eq_ok, Run.result_bind_eq_error, Completes]
    constructor
    · rintro (success | killed | ⟨_, ended, waits⟩)
      · exact ⟨success.1, .inl success.2⟩
      · cases paints.stops _ killed
      · exact ⟨ended, .inr waits⟩
    · rintro ⟨ended, success | waits⟩
      · exact .inl ⟨ended, success⟩
      · exact .inr (.inr ⟨(), ended, waits⟩)

theorem Draws.congr {t : Run Event Stop ℤ} {harmless harmless' blank blank' : Prop}
    (draws : Draws t harmless blank) (same : harmless ↔ harmless')
    (same' : harmless → (blank ↔ blank')) : Draws t harmless' blank' :=
  ⟨draws.writes, draws.completes.trans same,
    fun completes => (draws.silent completes).trans (same' (draws.completes.1 completes))⟩

/-- The drawing functions that do nothing but paint. -/
theorem paint_draws (shown : Shown seen accesses) (r : ℤ) :
    Draws (paint pointers accesses >>= fun _ => pure r) (r = ok ∧ (null ∈ pointers → ¬ seen))
      (¬ seen) := by
  refine (paint_paints.draws rfl).congr ?_ fun both => events_paint shown both.1
  rw [result_paint shown, and_comm]
  refine and_congr_left fun _ => ⟨?_, fun success => .inl (congrArg Except.ok success)⟩
  rintro (success | waits)
  · exact Except.ok.inj success
  · cases waits

/-- A function that is killed draws nothing before that. -/
theorem stop_draws {s : Stop} {harmless blank : Prop} (killed : s ≠ .running) (harmful : ¬ harmless) :
    Draws (Run.stop s) harmless blank := by
  have stopped : ¬ Completes (Run.stop s) := not_completes rfl killed
  refine ⟨fun e reported => ?_, iff_of_false stopped harmful,
    fun completes => absurd completes stopped⟩
  cases reported

end Painting

section Single

variable {v : Statics}

theorem drawRectangle_draws {x y width height : UInt16} {color : UInt32} :
    Draws (drawRectangle x y width height color v)
      (¬ (v.mode.hRes < x.toNat ∧ y.toNat < v.mode.vRes ∧ 0 < height.toNat) ∧
        (v.videoMem = null → ¬ Visible v.mode x y width height))
      (¬ Visible v.mode x y width height) := by
  refine (paint_draws (vgDrawRectangle_shown v.mode x y width height color) _).congr ?_
    fun _ => Iff.rfl
  rw [← vgDrawRectangle_fst_eq_zero_iff v.mode x y width height color, List.mem_singleton,
    eq_comm (a := null)]
  refine and_congr_left fun _ => Int.natCast_eq_zero.trans ?_
  exact ⟨fun zero => UInt8.toNat_inj.1 zero, fun zero => congrArg UInt8.toNat zero⟩

theorem drawPattern_draws {mode : UInt16} {noRectangles : UInt8} {first : UInt32} {step : UInt8} :
    Draws (drawPattern mode noRectangles first step v)
      (noRectangles ≠ 0 ∧ (v.videoMem = null → ¬ Tiled v.mode noRectangles.toNat))
      (¬ Tiled v.mode noRectangles.toNat) := by
  unfold drawPattern vgDrawPattern
  by_cases zero : noRectangles = 0
  · rw [if_pos zero]
    exact stop_draws (by decide) fun harmless => harmless.1 zero
  · rw [if_neg zero]
    refine (paint_draws (tiles_shown v.mode _ _) 0).congr ?_ fun _ => Iff.rfl
    have success : 0 = ok := rfl
    rw [and_iff_right success, and_iff_right zero, List.mem_singleton, eq_comm (a := null)]

theorem drawSprite_draws {image : Image} {x y : UInt16} :
    Draws (drawSprite image x y v)
      (image.address = null ∨ v.videoMem = null → ¬ Visible v.mode x y image.width image.height)
      (¬ Visible v.mode x y image.width image.height) := by
  refine (paint_draws (vgDrawSprite_shown v.mode x y image (.inl rfl)) 0).congr ?_ fun _ => Iff.rfl
  have success : 0 = ok := rfl
  rw [and_iff_right success, List.mem_pair, eq_comm (a := null), eq_comm (a := null)]

end Single

section Frames

variable {p : Platform} {v : Statics} {image : Image} {buffer : UInt32}

theorem buffer_shown (n : ℕ) (f : ℕ → UInt8) :
    Shown (n ≠ 0) ((List.range n).map fun k => .write k (f k)) := by
  refine ⟨fun some => ⟨0, f 0, ?_⟩, fun none => ?_⟩
  · exact List.mem_map.2 ⟨0, List.mem_range.2 (Nat.pos_of_ne_zero some), rfl⟩
  · rw [not_not.1 none]
    rfl

theorem drawFrame_paints (frame : UInt16 × UInt16) : Paints (drawFrame image buffer v frame) := by
  unfold drawFrame
  exact access_paints.bind (access_paints.bind paint_paints)

/-- A frame is drawn if the buffers that are used are there. -/
theorem result_drawFrame (frame : UInt16 × UInt16) :
    (drawFrame image buffer v frame).result = .ok () ↔
      (buffer = null ∨ v.videoMem = null → v.mode.frameSize = 0) ∧
        (image.address = null ∨ buffer = null →
          ¬ Visible v.mode frame.1 frame.2 image.width image.height) := by
  unfold drawFrame
  simp only
  rw [Run.result_then_eq_ok, Run.result_then_eq_ok, result_access, result_access, clearBuffer,
    copyBuffer, result_paint (buffer_shown _ _), (buffer_shown _ _).eq_nil_iff,
    (vgDrawSprite_shown v.mode frame.1 frame.2 image (.inr rfl)).eq_nil_iff]
  simp only [List.mem_cons, List.not_mem_nil, or_false, ne_eq, not_not, eq_comm (a := null)]
  tauto

/-- A frame is the whole screen. -/
theorem events_drawFrame {frame : UInt16 × UInt16}
    (ends : (drawFrame image buffer v frame).result = .ok ()) :
    (drawFrame image buffer v frame).events = [] ↔ v.mode.frameSize = 0 := by
  unfold drawFrame at ends ⊢
  simp only at ends ⊢
  obtain ⟨cleared, rest⟩ := Run.result_then_eq_ok.1 ends
  obtain ⟨copied, painted⟩ := Run.result_then_eq_ok.1 rest
  rw [Run.events_then cleared, Run.events_then copied, events_access, events_access,
    List.nil_append, List.nil_append]
  unfold copyBuffer at painted ⊢
  rw [events_paint (buffer_shown _ _) painted, not_not]

/-- `vg_draw_moving_sprite` is killed if it divides by zero, or if it draws a frame without the buffer
or the video memory, or a part of the image without the buffer or the image. -/
theorem drawMovingSprite_draws (a : Move) (width : a.width = image.width)
    (height : a.height = image.height) :
    Draws (drawMovingSprite p image a v)
      (a.frRate ≠ 0 ∧
        (p.malloc (UInt32.ofNat v.mode.frameSize) = null ∨ v.videoMem = null →
          frameCount a.frRate p.driverReceive = 0 ∨ v.mode.frameSize = 0) ∧
        (image.address = null ∨ p.malloc (UInt32.ofNat v.mode.frameSize) = null →
          ¬ a.Appears v.mode (frameCount a.frRate p.driverReceive)))
      (frameCount a.frRate p.driverReceive = 0 ∨ v.mode.frameSize = 0) := by
  unfold drawMovingSprite
  by_cases zero : a.frRate = 0
  · have none : vgDrawMovingSprite v.mode a v.keyboard p.driverReceive = none := if_pos zero
    rw [none]
    exact stop_draws (by decide) fun harmless => harmless.1 zero
  obtain ⟨s, frames, drawn⟩ : ∃ s frames,
      vgDrawMovingSprite v.mode a v.keyboard p.driverReceive = some (s, frames) :=
    ⟨_, _, if_neg zero⟩
  have completes : Completes
      (if s.keyboard.flagESC then Run.stop .running else pure 0 : Run Event Stop ℤ) := by
    split_ifs
    · exact .inr rfl
    · exact .inl rfl
  have silent : (if s.keyboard.flagESC then Run.stop .running else pure 0 :
      Run Event Stop ℤ).events = [] := by
    split_ifs
    · rfl
    · rfl
  rw [drawn]
  simp only
  refine ((Paints.forM drawFrame_paints frames).draws silent).congr ?_ fun both => ?_
  · rw [and_iff_left completes, and_iff_right zero, Run.result_forM_eq_ok,
      ← forall_frames_iff drawn (v.mode.frameSize = 0), ← exists_visible_iff drawn, width, height]
    constructor
    · intro each
      refine ⟨fun missing frame mem => ((result_drawFrame frame).1 (each frame mem)).1 missing, ?_⟩
      rintro missing ⟨frame, mem, seen⟩
      exact ((result_drawFrame frame).1 (each frame mem)).2 missing seen
    · rintro ⟨buffers, hidden⟩ frame mem
      exact (result_drawFrame frame).2 ⟨fun missing => buffers missing frame mem,
        fun missing seen => hidden missing ⟨frame, mem, seen⟩⟩
  · rw [Run.events_forM_eq_nil both.1, ← forall_frames_iff drawn]
    exact forall₂_congr fun frame mem =>
      events_drawFrame (Run.result_forM_eq_ok.1 both.1 frame mem)

end Frames

/-! ## The tests -/

/-- The drawing function of a test, if it is not killed, writes nothing to the video memory: no pixel
is inside the frame, or no frame is drawn. -/
def VideoTest.Blank (p : Platform) (v : Statics) : VideoTest → Prop
  | .rectangle _ x y width height _ => ¬ Visible v.mode x y width height
  | .pattern _ noRectangles _ _ => ¬ Tiled v.mode noRectangles.toNat
  | .xpm map x y => ¬ Visible v.mode x y (p.xpmLoad map).width (p.xpmLoad map).height
  | .move _ _ _ _ _ _ frRate => frameCount frRate p.driverReceive = 0 ∨ v.mode.frameSize = 0

/-- The drawing function of a test succeeds or still waits: no row of a rectangle in the frame starts to
the right of the guard's column, no divisor is zero, and nothing is accessed through `NULL`. -/
def VideoTest.Harmless (p : Platform) (v : Statics) : VideoTest → Prop
  | .rectangle mode x y width height color =>
    ¬ (v.mode.hRes < x.toNat ∧ y.toNat < v.mode.vRes ∧ 0 < height.toNat) ∧
      (v.videoMem = null → (VideoTest.rectangle mode x y width height color).Blank p v)
  | .pattern mode noRectangles first step =>
    noRectangles ≠ 0 ∧
      (v.videoMem = null → (VideoTest.pattern mode noRectangles first step).Blank p v)
  | .xpm map x y =>
    (p.xpmLoad map).address = null ∨ v.videoMem = null → (VideoTest.xpm map x y).Blank p v
  | .move map xi yi xf yf speed frRate =>
    frRate ≠ 0 ∧
      (p.malloc (UInt32.ofNat v.mode.frameSize) = null ∨ v.videoMem = null →
        (VideoTest.move map xi yi xf yf speed frRate).Blank p v) ∧
      ((p.xpmLoad map).address = null ∨ p.malloc (UInt32.ofNat v.mode.frameSize) = null →
        ¬ ((p.xpmLoad map).move xi yi xf yf speed frRate).Appears v.mode
          (frameCount frRate p.driverReceive))

theorem kbdScan_waits (p : Platform) (v : Statics) : Waits (kbdScan p v) := by
  unfold kbdScan
  simp only
  split_ifs
  · exact ⟨rfl, .inr rfl⟩
  · exact ⟨rfl, .inl rfl⟩

theorem leaves_iff_of_draws {p : Platform} {v : Statics} {test : VideoTest}
    (draw : Statics → Run Event Stop ℤ) (wait : Statics → Run Event Stop Unit)
    (run : test.run p v = videoTest p test.mode draw wait v)
    (draws : ∀ v, Draws (draw v) (test.Harmless p v) (test.Blank p v))
    (waiting : ∀ v, Waits (wait v)) :
    LeavesGraphics (test.run p v) ↔
      ¬ p.ModeSet test.mode ∨
        (p.ModeKnown test.mode ∧
          (¬ p.Mapped test.mode ∨ test.Harmless p (p.statics test.mode v))) ∨
        (¬ p.ModeKnown test.mode ∧ test.Harmless p v ∧ test.Blank p v) := by
  rw [run, videoTest_leaves_iff (fun v => (draws v).writes) waiting, (draws _).completes,
    ← (draws v).completes, and_congr_right (draws v).silent]

/-- A test leaves the graphics mode if and only if that is not set; or the mode information is
obtained, and either the video memory is not mapped or the drawing function does no harm; or it is not
obtained, and the drawing function does no harm and writes nothing. -/
theorem videoTests_leave_iff (p : Platform) (v : Statics) (test : VideoTest) :
    LeavesGraphics (test.run p v) ↔
      ¬ p.ModeSet test.mode ∨
        (p.ModeKnown test.mode ∧
          (¬ p.Mapped test.mode ∨ test.Harmless p (p.statics test.mode v))) ∨
        (¬ p.ModeKnown test.mode ∧ test.Harmless p v ∧ test.Blank p v) := by
  cases test with
  | rectangle mode x y width height color =>
    exact leaves_iff_of_draws _ _ rfl (fun v => drawRectangle_draws) (kbdScan_waits p)
  | pattern mode noRectangles first step =>
    exact leaves_iff_of_draws _ _ rfl (fun v => drawPattern_draws) (kbdScan_waits p)
  | xpm map x y =>
    exact leaves_iff_of_draws _ _ rfl (fun v => drawSprite_draws) (kbdScan_waits p)
  | move map xi yi xf yf speed frRate =>
    refine leaves_iff_of_draws (drawMovingSprite p (p.xpmLoad map)
      ((p.xpmLoad map).move xi yi xf yf speed frRate)) (fun _ => pure ()) rfl (fun v => ?_)
      fun _ => ⟨rfl, .inl rfl⟩
    exact drawMovingSprite_draws _ rfl rfl

/-- The static variables before the first test. -/
def Statics.zero : Statics where
  videoMem := null
  mode := ⟨0, 0, 0, by decide, by decide⟩
  fields := ⟨⟨0, 0⟩, ⟨0, 0⟩, ⟨0, 0⟩⟩
  keyboard := ⟨0, false, false, []⟩

/-- Every call succeeds, and the mode has 800 × 600 pixels of 3 bytes. -/
def responsive : Platform where
  vbeGetModeInfo _ := (ok, ⟨⟨800, 600, 24, 0xE0000000⟩, ⟨⟨8, 16⟩, ⟨8, 8⟩, ⟨8, 0⟩⟩⟩)
  sysPrivctl _ := ok
  vmMapPhys _ _ := 0x2000
  sysInt86 _ := ok
  xpmLoad _ := ⟨0x3000, 1, 1, [0]⟩
  malloc _ := 0x1000
  driverReceive := []
  vgExit := ok

/-- A rectangle to the right of the screen is an error, after which the test returns at once; and
after another test, a test draws without the mode information. -/
theorem rectangle_keeps_graphics :
    ¬ LeavesGraphics (videoTestRectangle responsive 0x115 801 0 1 1 0xFF .zero) ∧
      ¬ LeavesGraphics (videoTestRectangle
        { responsive with vbeGetModeInfo := fun mode => (1, (responsive.vbeGetModeInfo mode).2) }
        0x115 0 0 1 1 0xFF (responsive.statics 0x115 .zero)) := by
  refine ⟨?_, ?_⟩
  · intro leaves
    have ends : videoTestRectangle responsive 0x115 801 0 1 1 0xFF .zero =
        ⟨[.vbeGetModeInfo ok, .setGraphics true], .ok 1⟩ := rfl
    rw [ends] at leaves
    have exits := leaves.exits (by decide) (by simp)
    exact absurd exits (by decide)
  · intro leaves
    have drawn : (videoTestRectangle
        { responsive with vbeGetModeInfo := fun mode => (1, (responsive.vbeGetModeInfo mode).2) }
        0x115 0 0 1 1 0xFF (responsive.statics 0x115 .zero)).events =
          [.vbeGetModeInfo 1, .setGraphics true, .write 0 0xFF, .write 1 0, .write 2 0] := by
      decide +kernel
    have draws := leaves.draws 1
    rw [drawn] at draws
    exact draws (by decide) (by decide) 0 0xFF (by decide)

end LabComputers.Lab5

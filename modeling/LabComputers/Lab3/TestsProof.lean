import LabComputers.Lab3.CommandByteProof
import LabComputers.Lab3.KeyboardProof

/-!
# The tests of lab 3

`kbd_test_timed_scan` is a watchdog over the keyboard interrupts: it stops with the release of Escape
or after `60 * n` timer interrupts without a keyboard interrupt (`timedScan_stops`).  The number that the
tests print is the number of `sys_inb` calls they made, modulo `2 ^ 32` (`counterSysIn_exact`).
-/

namespace LabComputers.Lab3

open Port MessageLoop

/-! ## One call of the handler -/

/-- The reply makes `kbc_output_buf_full` return true. -/
def OutputFull (r : Reply) : Prop := r.res ≠ 0 ∨ r.val.toUInt8 &&& kbcOutBufFull ≠ 0

/-- The reply makes `kbc_communication_error` return false. -/
def Correct (r : Reply) : Prop := r.res = 0 ∧ r.val.toUInt8 &&& kbcStatCheck = 0

instance (r : Reply) : Decidable (OutputFull r) := inferInstanceAs (Decidable (_ ∨ _))
instance (r : Reply) : Decidable (Correct r) := inferInstanceAs (Decidable (_ ∧ _))

/-- Reads that are counted. -/
def Globals.counted (g : Globals) (n : ℕ) : Globals :=
  { g with counterSysIn := g.counterSysIn + Int32.ofNat n }

theorem Globals.counted_counted (g : Globals) (n n' : ℕ) :
    (g.counted n).counted n' = g.counted (n + n') := by
  rw [counted, counted, counted, Int32.ofNat_add, ← Int32.add_assoc]

theorem Globals.countSysIn_eq (g : Globals) : g.countSysIn = g.counted 1 := rfl

theorem kbcOutputBufFull_eq (g : Globals) :
    kbcOutputBufFull g =
      .io (.inb kbcStatReg) fun r => .ret (decide (OutputFull r), g.countSysIn) := by
  simp only [kbcOutputBufFull, utilSysInb, Prog.io_bind, Prog.ret_bind, Prog.pure_eq_ret, OutputFull]
  congr
  funext r
  grind

theorem kbcCommunicationError_eq (g : Globals) :
    kbcCommunicationError g =
      .io (.inb kbcStatReg) fun r => .ret (!decide (Correct r), g.countSysIn) := by
  simp only [kbcCommunicationError, utilSysInb, Prog.io_bind, Prog.ret_bind, Prog.pure_eq_ret,
    Correct]
  congr
  funext r
  grind

theorem kbcReadOutputBuffer_eq (g : Globals) :
    kbcReadOutputBuffer g = .io (.inb kbcOutBuf) fun r => .ret (r.val.toUInt8, g.countSysIn) := rfl

/-- `kbc_ih` as one chain of port reads. -/
theorem kbcIh_eq (arr : UInt8 × UInt8) (g : Globals) :
    kbcIh arr g =
      .io (.inb kbcStatReg) fun r₀ =>
        if OutputFull r₀ then
          .io (.inb kbcOutBuf) fun r₁ =>
            .io (.inb kbcStatReg) fun r₂ =>
              .ret (if Correct r₂ then kbcScancode arr r₁.val.toUInt8 (g.counted 3)
                else g.counted 3)
        else .ret (g.counted 1) := by
  rw [kbcIh]
  simp only [kbcOutputBufFull_eq, kbcCommunicationError_eq, kbcReadOutputBuffer_eq, Prog.io_bind,
    Prog.ret_bind, Prog.pure_eq_ret, Globals.countSysIn_eq, Globals.counted_counted, Nat.reduceAdd]
  congr
  funext r₀
  by_cases h₀ : OutputFull r₀
  · simp only [h₀, decide_true, Bool.not_true, Bool.false_eq_true, if_false, if_true]
    congr
    funext r₁
    congr
    funext r₂
    by_cases h₂ : Correct r₂
    · simp only [h₂, decide_true, Bool.not_true, Bool.false_eq_true, if_false, if_true]
    · simp only [h₂, decide_false, Bool.not_false, if_false, if_true]
  · simp only [h₀, decide_false, Bool.not_false, if_false, if_true]

/-- The byte that a call of `kbc_ih` handles. -/
def Call.byte? (call : Call) : Option UInt8 :=
  if OutputFull (call.replies 0) ∧ Correct (call.replies 2) then
    some (call.replies 1).val.toUInt8
  else none

/-- A call of `kbc_ih` counts its reads and handles a byte, if it took one. -/
theorem handle_eq (g : Globals) (call : Call) :
    handle g call =
      match call.byte? with
      | some byte => kbcScancode call.arr byte (g.counted ((kbcIh call.arr g).reads call.replies))
      | none => g.counted ((kbcIh call.arr g).reads call.replies) := by
  obtain ⟨arr, replies⟩ := call
  rw [handle, Prog.value, kbcIh_eq, Call.byte?, Prog.reads, Prog.exec_io]
  by_cases full : OutputFull (replies 0)
  · by_cases correct : Correct (replies 2)
    · simp [full, correct, Prog.reads]
    · simp [full, correct, Prog.reads]
  · simp [full, Prog.reads]

/-! ## `kbd_test_timed_scan` -/

theorem handle_flagESC (g : Globals) (call : Call) :
    (handle g call).flagESC = (g.flagESC && decide (call.byte? ≠ some escBreak)) := by
  rw [handle_eq]
  cases call.byte? with
  | none => simp [Globals.counted]
  | some byte =>
    by_cases two : byte = kbcScancode2B
    · subst two
      simp [kbcScancode, Globals.counted, kbcScancode2B, escBreak]
    · simp only
      rw [kbcScancode_plain two]
      by_cases esc : byte = escBreak <;> simp [kbdPrintScancode, Globals.counted, esc]

/-- `flagESC` is cleared by the first release of Escape, and never set again. -/
theorem run_flagESC (g : Globals) (calls : List Call) :
    (Transition.run handle g calls).flagESC =
      (g.flagESC && decide (∀ call ∈ calls, call.byte? ≠ some escBreak)) := by
  induction calls generalizing g with
  | nil => simp
  | cons call calls ih =>
    rw [Transition.run_cons, ih, handle_flagESC, Bool.and_assoc]
    simp only [List.forall_mem_cons, Bool.decide_and]

theorem timedScanStep_eq : timedScanStep = watch handle := by
  funext s msg
  rcases msg with _ | _ | ⟨call, ticked⟩
  · rfl
  · rfl
  · cases call <;> cases ticked <;> rfl

/-- The state in which the tests enter their loops. -/
def Globals.testStart (g : Globals) : Globals :=
  { g with flagESC := true, flag2Bytes := false, counterSysIn := 0 }

/-- The messages that `kbd_test_timed_scan` handles. -/
theorem exists_timedScan (n : UInt8) (g : Globals) (msgs : List (Message Interrupts)) :
    ∃ pre, Handles (watch handle) (fun s => !(s.1.flagESC && decide (s.2 / 60 < n.toNat)))
        (g.testStart, 0) msgs pre ∧
      kbdTestTimedScan n g msgs =
        (Transition.run handle g.testStart (pre.filterMap event), idle pre) := by
  obtain ⟨pre, handles, e⟩ := exists_handles timedScanStep
    (fun s => !(s.1.flagESC && decide (s.2 / 60 < n.toNat))) (g.testStart, 0) msgs
  rw [timedScanStep_eq] at handles e
  refine ⟨pre, handles, ?_⟩
  rw [kbdTestTimedScan, timedScanStep_eq, ← run_watch]
  exact e

/-- `kbd_test_timed_scan` stops as soon as Escape is released or `60 * n` timer interrupts have come
without a keyboard interrupt; until then it has called `kbc_ih` for every keyboard interrupt, and
`counter` never exceeds `60 * n`. -/
theorem timedScan_stops (n : UInt8) (g : Globals) (msgs : List (Message Interrupts)) :
    ∃ pre, pre <+: msgs ∧
      kbdTestTimedScan n g msgs =
        (Transition.run handle g.testStart (pre.filterMap event), idle pre) ∧
      (∀ q m, q ++ [m] <+: pre →
        (∀ call ∈ q.filterMap event, call.byte? ≠ some escBreak) ∧ idle q < 60 * n.toNat) ∧
      (pre = msgs ∨ (∃ call ∈ pre.filterMap event, call.byte? = some escBreak) ∨
        idle pre = 60 * n.toNat) := by
  obtain ⟨pre, handles, e⟩ := exists_timedScan n g msgs
  have alive : ∀ q : List (Message Interrupts),
      (Transition.run handle g.testStart (q.filterMap event)).flagESC =
        decide (∀ call ∈ q.filterMap event, call.byte? ≠ some escBreak) := by
    intro q
    rw [run_flagESC]
    exact Bool.true_and _
  obtain ⟨before, last⟩ := watchdog Globals.flagESC (by decide) handles
  refine ⟨pre, handles.begins, e, fun q m part => ?_, last.imp id (Or.imp ?_ id)⟩
  · obtain ⟨living, early⟩ := before q m part
    rw [alive] at living
    exact ⟨of_decide_eq_true living, early⟩
  · intro released
    rw [alive, decide_eq_false_iff_not] at released
    simpa only [not_forall, not_not, exists_prop] using released

/-! ## The number of `sys_inb` calls -/

/-- The `int` holds the number modulo `2 ^ 32`, and the number itself if it fits. -/
structure Counts (counter : Int32) (n : ℕ) : Prop where
  wrapped : counter = Int32.ofNat n
  value : n < 2 ^ 31 → counter.toInt = n

theorem counts_iff {counter : Int32} {n : ℕ} : Counts counter n ↔ counter = Int32.ofNat n := by
  refine ⟨Counts.wrapped, ?_⟩
  rintro rfl
  exact ⟨rfl, Int32.toInt_ofNat_of_lt⟩

/-- The reads of the calls of `kbc_ih` in a run. -/
def totalReads (g : Globals) : List Call → ℕ
  | [] => 0
  | call :: calls => (kbcIh call.arr g).reads call.replies + totalReads (handle g call) calls

theorem handle_counterSysIn (g : Globals) (call : Call) :
    (handle g call).counterSysIn =
      g.counterSysIn + Int32.ofNat ((kbcIh call.arr g).reads call.replies) := by
  rw [handle_eq]
  cases call.byte? with
  | none => rfl
  | some byte =>
    simp only
    by_cases two : byte = kbcScancode2B
    · rw [kbcScancode, if_pos two]
      rfl
    · rw [kbcScancode_plain two]
      rfl

theorem run_counterSysIn (g : Globals) (calls : List Call) :
    (Transition.run handle g calls).counterSysIn =
      g.counterSysIn + Int32.ofNat (totalReads g calls) := by
  induction calls generalizing g with
  | nil => exact (Int32.add_zero _).symm
  | cons call calls ih =>
    rw [Transition.run_cons, ih, handle_counterSysIn, totalReads, Int32.ofNat_add, Int32.add_assoc]

/-- The counter of the globals agrees with the number of reads. -/
def Agrees (g : Globals) (n : ℕ) : Prop := g.counterSysIn = Int32.ofNat n

theorem Agrees.counted {g : Globals} {n : ℕ} (agrees : Agrees g n) (k : ℕ) :
    Agrees (g.counted k) (n + k) := by
  rw [Agrees, Int32.ofNat_add, ← agrees]
  rfl

theorem Agrees.countSysIn {g : Globals} {n : ℕ} (agrees : Agrees g n) : Agrees g.countSysIn (n + 1) :=
  agrees.counted 1

theorem kbcIh_metered {g : Globals} {n : ℕ} (agrees : Agrees g n) (arr : UInt8 × UInt8) :
    (kbcIh arr g).Metered Agrees n := by
  have scancode : ∀ byte g, (kbcScancode arr byte g).counterSysIn = g.counterSysIn := by
    intro byte g
    by_cases two : byte = kbcScancode2B
    · rw [kbcScancode, if_pos two]
    · rw [kbcScancode_plain two]
      rfl
  rw [kbcIh_eq]
  intro r₀
  beta_reduce
  split_ifs
  · intro r₁ r₂
    change Agrees _ (n + 3)
    split_ifs
    · exact (scancode _ _).trans (agrees.counted 3)
    · exact agrees.counted 3
  · exact agrees.counted 1

theorem pollLoop_metered (rounds : ℕ) {g : Globals} {n : ℕ} (agrees : Agrees g n)
    (arrs : ℕ → UInt8 × UInt8) : (pollLoop rounds arrs g).Metered Agrees n := by
  induction rounds generalizing g n arrs with
  | zero => exact agrees
  | succ rounds ih =>
    rw [pollLoop]
    split_ifs
    · exact ((kbcIh_metered agrees _).mono fun g' n' agrees' => ih agrees' _).bind
    · exact agrees

/-- A program that ran out of fuel has no result to compare. -/
def AgreesIfSome (result : Option Globals) (n : ℕ) : Prop := ∀ g ∈ result, Agrees g n

theorem readLoop_metered (fuel : ℕ) {g : Globals} {n : ℕ} (agrees : Agrees g n) :
    (CommandByte.readLoop kbcIntputBufFull fuel 0 g).Metered AgreesIfSome n := by
  induction fuel generalizing g n with
  | zero => exact fun _ none => absurd none nofun
  | succ fuel ih =>
    have counted := agrees.countSysIn
    rw [CommandByte.readLoop_succ kbcIntputBufFull_polls]
    intro r
    beta_reduce
    split_ifs
    · rintro _ g' ⟨⟩
      exact counted
    · exact ih counted

theorem writeLoop_metered (fuel counterCycles : ℕ) {g : Globals} {n : ℕ} (agrees : Agrees g n) :
    (CommandByte.writeLoop kbcIntputBufFull fuel counterCycles g).Metered AgreesIfSome n := by
  induction fuel generalizing counterCycles g n with
  | zero => exact fun _ none => absurd none nofun
  | succ fuel ih =>
    have counted := agrees.countSysIn
    rw [CommandByte.writeLoop_succ kbcIntputBufFull_polls]
    split_ifs
    · intro r
      beta_reduce
      split_ifs
      · rintro _ g' ⟨⟩
        exact counted
      · exact ih _ counted
    · rintro g' ⟨⟩
      exact agrees

theorem enableInterrupts_metered (fuel : ℕ) {g : Globals} {n : ℕ} (agrees : Agrees g n) :
    (enableInterrupts fuel g).Metered AgreesIfSome n := by
  have read : (CommandByte.readCommandByte kbcIntputBufFull Globals.countSysIn fuel g).Metered
      (fun result n => ∀ comm g', result = some (comm, g') → Agrees g' n) n := by
    refine Prog.Metered.bind ((readLoop_metered fuel agrees).mono fun result n agrees => ?_)
    cases result with
    | none => exact fun _ _ => nofun
    | some g' =>
      rintro r _ _ ⟨⟩
      exact (agrees g' rfl).countSysIn
  refine Prog.Metered.bind (read.mono fun result n agrees => ?_)
  cases result with
  | none => exact fun _ none => absurd none nofun
  | some result =>
    obtain ⟨comm, g'⟩ := result
    have write := writeLoop_metered fuel 0 (agrees comm g' rfl)
    refine Prog.Metered.bind (write.mono fun result n agrees => ?_)
    cases result with
    | none => exact fun _ none => absurd none nofun
    | some g'' =>
      rintro r _ ⟨⟩
      exact agrees g'' rfl

/-- The number that the tests print is the number of `sys_inb` calls they made, modulo `2 ^ 32` and
therefore exactly if they are less than `2 ^ 31`: those of all calls of `kbc_ih` in `kbd_test_scan` and
`kbd_test_timed_scan`, and in `kbd_test_poll` those of the polling loop and of `enable_interrupts`
after it. -/
theorem counterSysIn_exact (g : Globals) :
    (∀ msgs, ∃ calls, calls <+: msgs.filterMap Received.call ∧
      kbdTestScan g msgs = Transition.run handle g.testStart calls ∧
      Counts (kbdTestScan g msgs).counterSysIn (totalReads g.testStart calls)) ∧
    (∀ n msgs, ∃ calls, calls <+: msgs.filterMap event ∧
      (kbdTestTimedScan n g msgs).1 = Transition.run handle g.testStart calls ∧
      Counts (kbdTestTimedScan n g msgs).1.counterSysIn (totalReads g.testStart calls)) ∧
    (∀ rounds arrs fuel rs g',
      (kbdTestPoll rounds arrs g >>= enableInterrupts fuel).value rs = some g' →
        Counts g'.counterSysIn ((kbdTestPoll rounds arrs g >>= enableInterrupts fuel).reads rs)) := by
  have counted : ∀ calls, Counts (Transition.run handle g.testStart calls).counterSysIn
      (totalReads g.testStart calls) := by
    intro calls
    rw [counts_iff, run_counterSysIn]
    exact Int32.zero_add _
  refine ⟨fun msgs => ?_, fun n msgs => ?_, fun rounds arrs fuel rs g' returned => ?_⟩
  · obtain ⟨calls, begins, run⟩ := kbdTestScan_eq_run g msgs
    exact ⟨calls, begins, run, run ▸ counted calls⟩
  · obtain ⟨pre, handles, run⟩ := exists_timedScan n g msgs
    refine ⟨pre.filterMap event, handles.begins.filterMap _, ?_⟩
    rw [run]
    exact ⟨rfl, counted _⟩
  · have start : Agrees { g with counterSysIn := 0, flagESC := true } 0 := rfl
    have metered : (kbdTestPoll rounds arrs g >>= enableInterrupts fuel).Metered AgreesIfSome 0 :=
      ((pollLoop_metered rounds start arrs).mono fun g n agrees =>
        enableInterrupts_metered fuel agrees).bind
    have agrees := metered.value rs g' returned
    rw [Nat.zero_add] at agrees
    exact counts_iff.2 agrees

end LabComputers.Lab3

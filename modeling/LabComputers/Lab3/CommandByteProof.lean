import LabComputers.Lab3.CommandByte
import LabComputers.Proj.MouseCommandProof

/-!
# Whether `enable_interrupts` returns

The loop of `write_command_byte` counts every cycle.  The loop of `read_command_byte` counts only the
cycle in which it stops, so that its bound is never reached: it polls until the input buffer is empty
(`readLoop_succ`), however long that takes.
-/

namespace LabComputers

open Port

namespace CommandByte

/-- The status reads among the accesses of a run. -/
def statusReads (trace : List (Op × Reply)) : ℕ := trace.countP fun a => a.1 = .inb kbcStatReg

section Loops

variable {σ : Type} {inputFull : σ → Prog (Bool × σ)} {tick count : σ → σ}

/-- `inputFull` is one read of the status register, counted by `count`. -/
def Polls (inputFull : σ → Prog (Bool × σ)) (count : σ → σ) : Prop :=
  ∀ g, inputFull g = .io (.inb kbcStatReg) fun r => .ret (!decide (InputEmpty r), count g)

/-- `enable_interrupts` returns, and neither loop reads the status more than 100000 times. -/
structure Terminates (inputFull : σ → Prog (Bool × σ)) (tick : σ → σ) (g : σ) (rs : ℕ → Reply) :
    Prop where
  returns : ∃ fuel, (enableInterrupts inputFull tick fuel g).value rs ≠ none
  read_le : ∀ fuel, statusReads ((readLoop inputFull fuel 0 g).trace rs) ≤ 100000
  write_le : ∀ fuel commandByte g' rs',
    (readCommandByte inputFull tick fuel g).exec rs = (some (commandByte, g'), rs') →
      ∀ n, statusReads ((writeLoop inputFull n 0 g').trace rs') ≤ 100000

variable (polls : Polls inputFull count)
include polls

/-! ## The loop of `read_command_byte` -/

/-- A busy cycle leaves the counter as it is. -/
theorem readLoop_succ (fuel : ℕ) (g : σ) :
    readLoop inputFull (fuel + 1) 0 g = .io (.inb kbcStatReg) fun r =>
      if InputEmpty r then .io (.outb kbcStatReg kbcReadCmdByte) fun _ => .ret (some (count g))
      else readLoop inputFull fuel 0 (count g) := by
  rw [readLoop, if_pos (by decide), polls g]
  refine congrArg (Prog.io _) (funext fun r => ?_)
  by_cases empty : InputEmpty r
  · simp [empty, sysOutb, Prog.bind]
  · simp [empty, Prog.bind]

theorem statusReads_readLoop_le {n : ℕ} (fuel : ℕ) (g : σ) {rs : ℕ → Reply}
    (empty : ∃ k < n, InputEmpty (rs k)) :
    statusReads ((readLoop inputFull fuel 0 g).trace rs) ≤ n := by
  induction fuel generalizing n g rs with
  | zero => exact Nat.zero_le _
  | succ fuel ih =>
    obtain ⟨k, below, hk⟩ := empty
    obtain ⟨n, rfl⟩ : ∃ m, n = m + 1 := ⟨n - 1, by omega⟩
    rw [readLoop_succ polls, Prog.trace_io]
    by_cases now : InputEmpty (rs 0)
    · rw [if_pos now]
      simp [statusReads]
    · rw [if_neg now]
      have later : ∃ j < n, InputEmpty (rs (j + 1)) := by
        obtain ⟨j, rfl⟩ : ∃ j, k = j + 1 := by
          cases k with
          | zero => exact absurd hk now
          | succ j => exact ⟨j, rfl⟩
        exact ⟨j, by omega, hk⟩
      have rest := ih (count g) later
      simp only [statusReads, List.countP_cons, decide_true, if_true] at rest ⊢
      omega

/-- As long as the input buffer is full, every unit of fuel is a status read; so is the one
after. -/
theorem statusReads_readLoop_busy {n : ℕ} (g : σ) {rs : ℕ → Reply}
    (busy : ∀ k < n, ¬ InputEmpty (rs k)) :
    statusReads ((readLoop inputFull (n + 1) 0 g).trace rs) = n + 1 := by
  induction n generalizing g rs with
  | zero =>
    rw [readLoop_succ polls, Prog.trace_io]
    split_ifs
    · rfl
    · rfl
  | succ n ih =>
    rw [readLoop_succ polls, Prog.trace_io, if_neg (busy 0 (Nat.succ_pos _))]
    have later : ∀ k < n, ¬ InputEmpty (rs (k + 1)) := fun k hk => busy (k + 1) (by omega)
    have rest := ih (count g) later
    simp only [statusReads, List.countP_cons, decide_true, if_true] at rest ⊢
    omega

theorem readLoop_returns {fuel : ℕ} (g : σ) {rs : ℕ → Reply} (empty : ∃ k < fuel, InputEmpty (rs k)) :
    ∃ g' rs', (readLoop inputFull fuel 0 g).exec rs = (some g', rs') := by
  induction fuel generalizing g rs with
  | zero =>
    obtain ⟨k, below, -⟩ := empty
    exact absurd below (Nat.not_lt_zero k)
  | succ fuel ih =>
    rw [readLoop_succ polls, Prog.exec_io]
    by_cases now : InputEmpty (rs 0)
    · rw [if_pos now]
      exact ⟨_, _, rfl⟩
    · rw [if_neg now]
      obtain ⟨k, below, hk⟩ := empty
      cases k with
      | zero => exact absurd hk now
      | succ j => exact ih (count g) ⟨j, by omega, hk⟩

theorem readLoop_hangs {fuel : ℕ} (g : σ) {rs : ℕ → Reply}
    (busy : ∀ k < fuel, ¬ InputEmpty (rs k)) : ((readLoop inputFull fuel 0 g).exec rs).1 = none := by
  induction fuel generalizing g rs with
  | zero => rfl
  | succ fuel ih =>
    rw [readLoop_succ polls, Prog.exec_io, if_neg (busy 0 (Nat.succ_pos _))]
    exact ih (count g) fun k hk => busy (k + 1) (by omega)

/-! ## The loop of `write_command_byte` -/

theorem writeLoop_succ (fuel counterCycles : ℕ) (g : σ) :
    writeLoop inputFull (fuel + 1) counterCycles g =
      if counterCycles < 100000 then .io (.inb kbcStatReg) fun r =>
        if InputEmpty r then .io (.outb kbcStatReg kbcWriteCmdByte) fun _ => .ret (some (count g))
        else writeLoop inputFull fuel (counterCycles + 1) (count g)
      else .ret (some g) := by
  rw [writeLoop, polls g]
  by_cases more : counterCycles < 100000
  · rw [if_pos more, if_pos more]
    refine congrArg (Prog.io _) (funext fun r => ?_)
    by_cases empty : InputEmpty r
    · simp [empty, sysOutb, Prog.bind]
    · simp [empty, Prog.bind]
  · rw [if_neg more, if_neg more]
    rfl

theorem statusReads_writeLoop_le (fuel counterCycles : ℕ) (g : σ) (rs : ℕ → Reply) :
    statusReads ((writeLoop inputFull fuel counterCycles g).trace rs) ≤ 100000 - counterCycles := by
  induction fuel generalizing counterCycles g rs with
  | zero => exact Nat.zero_le _
  | succ fuel ih =>
    rw [writeLoop_succ polls]
    by_cases more : counterCycles < 100000
    · rw [if_pos more, Prog.trace_io]
      by_cases now : InputEmpty (rs 0)
      · rw [if_pos now]
        simp [statusReads]
        omega
      · rw [if_neg now]
        have rest := ih (counterCycles + 1) (count g) fun n => rs (n + 1)
        simp only [statusReads, List.countP_cons, decide_true, if_true] at rest ⊢
        omega
    · rw [if_neg more]
      exact Nat.zero_le _

theorem writeLoop_returns {fuel counterCycles : ℕ} (bound : counterCycles ≤ 100000)
    (enough : 100000 < fuel + counterCycles) (g : σ) (rs : ℕ → Reply) :
    ∃ g' rs', (writeLoop inputFull fuel counterCycles g).exec rs = (some g', rs') := by
  induction fuel generalizing counterCycles g rs with
  | zero => omega
  | succ fuel ih =>
    rw [writeLoop_succ polls]
    by_cases more : counterCycles < 100000
    · rw [if_pos more, Prog.exec_io]
      by_cases now : InputEmpty (rs 0)
      · rw [if_pos now]
        exact ⟨_, _, rfl⟩
      · rw [if_neg now]
        exact ih (by omega) (by omega) (count g) _
    · rw [if_neg more]
      exact ⟨_, _, rfl⟩

/-! ## Termination -/

theorem enableInterrupts_returns {fuel : ℕ} (enough : 100000 < fuel) (g : σ) {rs : ℕ → Reply}
    (empty : ∃ k < fuel, InputEmpty (rs k)) :
    (enableInterrupts inputFull tick fuel g).value rs ≠ none := by
  obtain ⟨g₁, rs₁, read⟩ := readLoop_returns polls g empty
  obtain ⟨g₂, rs₂, written⟩ := writeLoop_returns polls (Nat.zero_le _) enough (tick g₁)
    fun n => rs₁ (n + 1)
  have command : (readCommandByte inputFull tick fuel g).exec rs =
      (some ((rs₁ 0).val.toUInt8, tick g₁), fun n => rs₁ (n + 1)) := by
    rw [readCommandByte, Prog.exec_bind, read]
    rfl
  rw [enableInterrupts, Prog.value, Prog.exec_bind, command]
  simp only
  rw [writeCommandByte, Prog.exec_bind, written]
  exact Option.some_ne_none _

/-- While the input buffer is full, no amount of fuel is enough. -/
theorem enableInterrupts_hangs {fuel : ℕ} (g : σ) {rs : ℕ → Reply}
    (busy : ∀ k < fuel, ¬ InputEmpty (rs k)) :
    (enableInterrupts inputFull tick fuel g).value rs = none := by
  have read := readLoop_hangs polls g busy
  have command : ((readCommandByte inputFull tick fuel g).exec rs).1 = none := by
    rw [readCommandByte, Prog.exec_bind, read]
    rfl
  rw [enableInterrupts, Prog.value, Prog.exec_bind, command]
  rfl

/-- `enable_interrupts` terminates if and only if one of the first 100000 status reads finds the
input buffer empty. -/
theorem terminates_iff (g : σ) (rs : ℕ → Reply) :
    Terminates inputFull tick g rs ↔ ∃ k < 100000, InputEmpty (rs k) := by
  constructor
  · intro terminates
    by_contra full
    have busy : ∀ k < 100000, ¬ InputEmpty (rs k) := fun k below empty => full ⟨k, below, empty⟩
    have reads := terminates.read_le 100001
    rw [statusReads_readLoop_busy polls g busy] at reads
    exact absurd reads (by decide)
  · rintro ⟨k, below, empty⟩
    refine ⟨?_, ?_, ?_⟩
    · exact ⟨100001, enableInterrupts_returns polls (by decide) g ⟨k, by omega, empty⟩⟩
    · intro fuel
      exact statusReads_readLoop_le polls fuel g ⟨k, below, empty⟩
    · intro _ _ g' rs' _ n
      exact statusReads_writeLoop_le polls n 0 g' rs'

end Loops

end CommandByte

theorem full_eq (r : Reply) :
    (if r.val.toUInt8 &&& kbcInBufFull ≠ 0 then true else false) = !decide (InputEmpty r) := by
  by_cases clear : r.val.toUInt8 &&& kbcInBufFull = 0
  · simp [InputEmpty, clear]
  · simp [InputEmpty, clear]

theorem Lab3.kbcIntputBufFull_polls :
    CommandByte.Polls Lab3.kbcIntputBufFull Lab3.Globals.countSysIn := fun g =>
  congrArg (Prog.io _) (funext fun r => congrArg (fun b => Prog.ret (b, g.countSysIn)) (full_eq r))

theorem pollInput_polls : CommandByte.Polls pollInput id := fun u =>
  congrArg (Prog.io _) (funext fun r => congrArg (fun b => Prog.ret (b, u)) (full_eq r))

/-- Both copies of `enable_interrupts` terminate, with at most 100000 status reads in each loop, if
and only if one of the first 100000 status reads finds the input buffer empty. -/
theorem enableInterrupts_terminates_iff (g : Lab3.Globals) (rs : ℕ → Reply) :
    (CommandByte.Terminates Lab3.kbcIntputBufFull Lab3.Globals.countSysIn g rs ↔
        ∃ k < 100000, InputEmpty (rs k)) ∧
      (CommandByte.Terminates pollInput id () rs ↔ ∃ k < 100000, InputEmpty (rs k)) :=
  ⟨CommandByte.terminates_iff Lab3.kbcIntputBufFull_polls g rs,
    CommandByte.terminates_iff pollInput_polls () rs⟩

/-- The input buffer stays full: no amount of fuel is enough. -/
theorem enableInterrupts_not_terminates :
    let rs : ℕ → Reply := fun _ => ⟨0, 0x02⟩
    let g : Lab3.Globals := ⟨0, false, false, []⟩
    (∀ fuel, (Lab3.enableInterrupts fuel g).value rs = none) ∧
      (∀ fuel, (enableInterrupts fuel ()).value rs = none) ∧
      ¬ CommandByte.Terminates Lab3.kbcIntputBufFull Lab3.Globals.countSysIn g rs ∧
      ¬ CommandByte.Terminates pollInput id () rs := by
  have busy : ¬ InputEmpty ⟨0, 0x02⟩ := by decide
  have lab (fuel : ℕ) : (Lab3.enableInterrupts fuel ⟨0, false, false, []⟩).value _ = none :=
    CommandByte.enableInterrupts_hangs Lab3.kbcIntputBufFull_polls _ fun _ _ => busy
  have project (fuel : ℕ) : (enableInterrupts fuel ()).value _ = none :=
    CommandByte.enableInterrupts_hangs pollInput_polls _ fun _ _ => busy
  refine ⟨lab, project, fun terminates => ?_, fun terminates => ?_⟩
  · obtain ⟨fuel, returns⟩ := terminates.returns
    exact returns (lab fuel)
  · obtain ⟨fuel, returns⟩ := terminates.returns
    exact returns (project fuel)

end LabComputers

import LabComputers.Proj.Rtc

/-!
# Register B around a read of the time

Every poll of `wait_valid_rtc` writes `enabled` of register B to it.  That function is idempotent, so
that the number of polls does not show in register B (`polled_iterate`): the three interrupts are
enabled at the end, whether they were before or not.  With the time read after that, `rtc_ih` does
what the game loop takes it to do (`serve_rtcIh`).
-/

namespace LabComputers.Rtc

open Port

/-! ## Register B -/

/-- What a poll makes of register B: 24 hours, BCD and the three interrupts enabled. -/
def enabled (regB : UInt8) : UInt8 := ((regB ||| set24) &&& setBCD &&& disINT) ||| enINT

theorem enabled_spec (regB : UInt8) :
    enabled regB &&& enINT = enINT ∧ enabled (enabled regB) = enabled regB := by
  have table : ∀ b : Fin 256, enabled (UInt8.ofFin b) &&& enINT = enINT ∧
      enabled (enabled (UInt8.ofFin b)) = enabled (UInt8.ofFin b) := by decide +kernel
  exact table regB.toFin

/-! ## The accesses -/

/-- The clock with a register selected. -/
def Clock.select (c : Clock) (register : UInt8) : Clock := { c with address := register }

/-- The clock with a value written to the selected register. -/
def Clock.write (c : Clock) (value : UInt8) : Clock :=
  { c with registers := Function.update c.registers c.address value }

theorem answer_select (c : Clock) (register : UInt8) :
    c.answer (.outb rtcAddrReg register.toUInt32) = (⟨0, 0⟩, c.select register) := by
  rw [Clock.answer, if_pos rfl, UInt8.toUInt8_toUInt32, Clock.select]

theorem answer_write (c : Clock) (value : UInt8) :
    c.answer (.outb rtcDataReg value.toUInt32) = (⟨0, 0⟩, c.write value) := by
  rw [Clock.answer, if_neg (by decide), if_pos rfl, UInt8.toUInt8_toUInt32, Clock.write]

theorem answer_read (c : Clock) :
    c.answer (.inb rtcDataReg) = (⟨0, c.read.1.toUInt32⟩, c.read.2) := by
  rw [Clock.answer, if_pos rfl]

theorem serve_readRegister (register : UInt8) (c : Clock) :
    (readRegister register).serve Clock.answer c = (c.select register).read := by
  have accesses : readRegister register = .io (.outb rtcAddrReg register.toUInt32) fun _ =>
      .io (.inb rtcDataReg) fun r => .ret r.val.toUInt8 := rfl
  rw [accesses, Prog.serve_io, answer_select, Prog.serve_io, answer_read, Prog.serve_ret,
    UInt8.toUInt8_toUInt32]

theorem serve_writeRegB (v : Variables) (c : Clock) :
    (writeRegB v).serve Clock.answer c = ((), (c.select registerB).write v.regB) := by
  have accesses : writeRegB v = .io (.outb rtcAddrReg registerB.toUInt32) fun _ =>
      .io (.outb rtcDataReg v.regB.toUInt32) fun _ => .ret () := rfl
  rw [accesses, Prog.serve_io, answer_select, Prog.serve_io, answer_write, Prog.serve_ret]

/-- Any register but A is read without a change of the clock, except for the selection. -/
theorem serve_readOther {register : UInt8} (other : register ≠ registerA) (c : Clock) :
    (readRegister register).serve Clock.answer c = (c.registers register, c.select register) := by
  rw [serve_readRegister, Clock.read]
  exact if_neg other

theorem serve_readA (c : Clock) :
    (readRegister registerA).serve Clock.answer c =
      (c.nextA 0, { c.select registerA with
        nextA := fun k => c.nextA (k + 1), readsA := c.nextA 0 :: c.readsA }) := by
  rw [serve_readRegister, Clock.read]
  exact if_pos rfl

/-! ## A read-modify-write of register B -/

/-- The clock with a value in register B. -/
def Clock.setB (c : Clock) (value : UInt8) : Clock :=
  { c with address := registerB, registers := Function.update c.registers registerB value }

theorem serve_modify (f : UInt8 → UInt8) (v : Variables) (c : Clock) :
    (do
      let v ← readRegB v
      let v := { v with regB := f v.regB }
      writeRegB v
      return v).serve Clock.answer c = ({ v with regB := f c.regB }, c.setB (f c.regB)) := by
  unfold readRegB
  simp only [Prog.serve_bind, serve_readOther (show registerB ≠ registerA by decide),
    serve_writeRegB, Prog.pure_eq_ret, Prog.serve_ret]
  rfl

theorem serve_disableInterruptsRtc (v : Variables) (c : Clock) :
    (disableInterruptsRtc v).serve Clock.answer c =
      ({ v with regB := (c.regB ||| set24) &&& setBCD &&& disINT },
        c.setB ((c.regB ||| set24) &&& setBCD &&& disINT)) :=
  serve_modify (fun b => (b ||| set24) &&& setBCD &&& disINT) v c

theorem serve_enableInterruptsRtc (v : Variables) (c : Clock) :
    (enableInterruptsRtc v).serve Clock.answer c =
      ({ v with regB := c.regB ||| enINT }, c.setB (c.regB ||| enINT)) :=
  serve_modify (fun b => b ||| enINT) v c

/-- The clock after a poll. -/
def Clock.polled (c : Clock) : Clock :=
  { c.setB (enabled c.regB) with
    nextA := fun k => c.nextA (k + 1)
    readsA := c.nextA 0 :: c.readsA }

theorem serve_poll (v : Variables) (c : Clock) :
    (poll v).serve Clock.answer c = ((c.nextA 0, { v with regB := enabled c.regB }), c.polled) := by
  unfold poll
  simp only [Prog.serve_bind, serve_disableInterruptsRtc, serve_readA, serve_enableInterruptsRtc,
    Prog.pure_eq_ret, Prog.serve_ret]
  simp [Clock.regB, Clock.setB, Clock.select, Clock.polled, enabled]

/-! ## The loop -/

/-- Register A says that the clock is updating the time. -/
def Updating (a : UInt8) : Prop := a &&& rtcUIP ≠ 0

instance : DecidablePred Updating := fun a => inferInstanceAs (Decidable (a &&& rtcUIP ≠ 0))

/-- One round of the loop. -/
theorem serve_waitLoop_succ (fuel : ℕ) (v : Variables) (c : Clock) :
    (waitLoop (fuel + 1) v).serve Clock.answer c =
      if Updating (c.nextA 0) then
        (waitLoop fuel { v with regB := enabled c.regB }).serve Clock.answer c.polled
      else (some (c.nextA 0, { v with regB := enabled c.regB }), c.polled) := by
  rw [waitLoop, Prog.serve_bind, serve_poll]
  by_cases updating : Updating (c.nextA 0)
  · have busy : c.nextA 0 &&& rtcUIP ≠ 0 := updating
    simp only
    rw [if_pos busy, if_pos updating]
  · have valid : ¬ (c.nextA 0 &&& rtcUIP ≠ 0) := updating
    simp only
    rw [if_neg valid, if_neg updating]
    rfl

theorem regB_setB (c : Clock) (value : UInt8) : (c.setB value).regB = value := by
  unfold Clock.regB Clock.setB
  simp only
  rw [Function.update_self]

theorem regB_polled (c : Clock) : c.polled.regB = enabled c.regB := regB_setB c (enabled c.regB)

/-- The loop returns after the first poll that finds register A valid. -/
theorem serve_waitLoop {n : ℕ} {c : Clock} {fuel : ℕ} (v : Variables)
    (busy : ∀ k < n, Updating (c.nextA k)) (valid : ¬ Updating (c.nextA n)) (enough : n < fuel) :
    (waitLoop fuel v).serve Clock.answer c =
      (some (c.nextA n, { v with regB := enabled c.regB }), Clock.polled^[n + 1] c) := by
  induction n generalizing c fuel v with
  | zero =>
    obtain ⟨fuel, rfl⟩ : ∃ f, fuel = f + 1 := ⟨fuel - 1, by omega⟩
    rw [serve_waitLoop_succ, if_neg valid]
    rfl
  | succ n ih =>
    obtain ⟨fuel, rfl⟩ : ∃ f, fuel = f + 1 := ⟨fuel - 1, by omega⟩
    have later : ∀ k < n, Updating (c.polled.nextA k) := fun k below => busy (k + 1) (by omega)
    rw [serve_waitLoop_succ, if_pos (busy 0 (Nat.succ_pos n)), ih _ later valid (by omega),
      regB_polled, (enabled_spec _).2]
    rfl

/-- The clock after some polls: register B is as after one. -/
theorem polled_iterate (c : Clock) (n : ℕ) :
    Clock.polled^[n + 1] c =
      { c.setB (enabled c.regB) with
        nextA := fun k => c.nextA (k + (n + 1))
        readsA := ((List.range (n + 1)).map c.nextA).reverse ++ c.readsA } := by
  induction n with
  | zero => rfl
  | succ n ih =>
    have same : (Clock.polled^[n + 1] c).regB = enabled c.regB := by
      rw [ih]
      exact regB_setB c (enabled c.regB)
    rw [Function.iterate_succ_apply', Clock.polled, same, (enabled_spec _).2, ih,
      List.range_succ (n := n + 1), List.map_append, List.reverse_append]
    simp only [Clock.setB, Function.update_idem, Nat.zero_add, List.map_singleton,
      List.reverse_singleton, List.cons_append]
    congr 1
    funext k
    congr 1
    omega

/-! ## `wait_valid_rtc` -/

/-- The clock after `n` polls that find it updating the time, and one that does not. -/
def Clock.waited (c : Clock) (n : ℕ) : Clock := Clock.polled^[n + 1] c

theorem serve_waitValidRtc {n : ℕ} {c : Clock} {fuel : ℕ} (v : Variables)
    (busy : ∀ k < n, Updating (c.nextA k)) (valid : ¬ Updating (c.nextA n)) (enough : n < fuel) :
    (waitValidRtc fuel v).serve Clock.answer c =
      (some { v with regA := c.nextA n, regB := enabled c.regB }, c.waited n) := by
  rw [waitValidRtc, Prog.serve_bind, serve_waitLoop v busy valid enough]
  rfl

/-- `wait_valid_rtc` has returned: the three interrupts are enabled, so that they are as before if
and only if they were enabled then, and the last value of register A that was read is valid. -/
structure Waited (before : Clock) (v : Variables) (after : Clock) : Prop where
  enabled : after.regB &&& enINT = enINT
  kept_iff : after.regB &&& enINT = before.regB &&& enINT ↔ before.regB &&& enINT = enINT
  last_read : after.readsA.head? = some v.regA
  valid : ¬ Updating v.regA

/-- `wait_valid_rtc` returns after the first poll that finds register A valid, with the three
interrupts enabled. -/
theorem waitValidRtc_enables (c : Clock) (v : Variables) {n : ℕ}
    (busy : ∀ k < n, Updating (c.nextA k)) (valid : ¬ Updating (c.nextA n)) :
    ∀ fuel > n, ∃ v' c', (waitValidRtc fuel v).serve Clock.answer c = (some v', c') ∧
      Waited c v' c' := by
  intro fuel enough
  have regB : (c.waited n).regB = enabled c.regB := by
    rw [Clock.waited, polled_iterate]
    exact regB_setB c (enabled c.regB)
  have reads : (c.waited n).readsA.head? = some (c.nextA n) := by
    rw [Clock.waited, polled_iterate, List.range_succ, List.map_append, List.reverse_append]
    rfl
  refine ⟨_, _, serve_waitValidRtc v busy valid enough, ?_, ?_, reads, valid⟩
  · rw [regB, (enabled_spec _).1]
  · rw [regB, (enabled_spec _).1]
    exact eq_comm

/-- A clock that counts 24 hours in BCD without interrupts, and is updating the time at first. -/
def quietClock : Clock := ⟨0, fun _ => 0x02, fun k => if k < 2 then 0x80 else 0x26, []⟩

theorem waitValidRtc_enables_quietClock : ∃ v' c',
    (waitValidRtc 3 ⟨0, 0, 0, 0, 0, 0, 0, 0⟩).serve Clock.answer quietClock = (some v', c') ∧
      Waited quietClock v' c' :=
  waitValidRtc_enables quietClock ⟨0, 0, 0, 0, 0, 0, 0, 0⟩ (n := 2) (by decide) (by decide) 3
    (by decide)

/-- The interrupts of the clock were disabled, and are enabled after the call. -/
theorem quietClock_interrupts :
    ((waitValidRtc 3 ⟨0, 0, 0, 0, 0, 0, 0, 0⟩).serve Clock.answer quietClock).1.isSome = true ∧
      ((waitValidRtc 3 ⟨0, 0, 0, 0, 0, 0, 0, 0⟩).serve Clock.answer quietClock).2.regB &&& enINT ≠
        quietClock.regB &&& enINT := by
  decide

/-! ## The time -/

/-- Waiting changes register B only. -/
theorem registers_waited {c : Clock} {n : ℕ} {register : UInt8} (other : register ≠ registerB) :
    (c.waited n).registers register = c.registers register := by
  rw [Clock.waited, polled_iterate]
  exact Function.update_of_ne other (enabled c.regB) c.registers

theorem serve_readTime {n : ℕ} {c : Clock} {fuel : ℕ} (v : Variables)
    (busy : ∀ k < n, Updating (c.nextA k)) (valid : ¬ Updating (c.nextA n)) (enough : n < fuel) :
    (readTime fuel v).serve Clock.answer c =
      (some ⟨c.nextA n, enabled c.regB, toBCD (c.registers seconds), toBCD (c.registers minutes),
        toBCD (c.registers hours), toBCD (c.registers dateOfTheMonth), toBCD (c.registers month),
        toBCD (c.registers year)⟩, (c.waited n).select year) := by
  have selected (c : Clock) (register : UInt8) : (c.select register).registers = c.registers := rfl
  rw [readTime, Prog.serve_bind, serve_waitValidRtc v busy valid enough]
  simp only [Prog.serve_bind, serve_readOther (show seconds ≠ registerA by decide),
    serve_readOther (show minutes ≠ registerA by decide),
    serve_readOther (show hours ≠ registerA by decide),
    serve_readOther (show dateOfTheMonth ≠ registerA by decide),
    serve_readOther (show month ≠ registerA by decide),
    serve_readOther (show year ≠ registerA by decide), selected,
    registers_waited (show seconds ≠ registerB by decide),
    registers_waited (show minutes ≠ registerB by decide),
    registers_waited (show hours ≠ registerB by decide),
    registers_waited (show dateOfTheMonth ≠ registerB by decide),
    registers_waited (show month ≠ registerB by decide),
    registers_waited (show year ≠ registerB by decide), Prog.pure_eq_ret, Prog.serve_ret]
  rfl

/-- `rtc_ih` stores the hours and minutes of the clock, as the game loop takes it to do. -/
theorem serve_rtcIh {n : ℕ} {c : Clock} {fuel : ℕ} (v : Variables) (g : Globals)
    (busy : ∀ k < n, Updating (c.nextA k)) (valid : ¬ Updating (c.nextA n)) (enough : n < fuel) :
    ∃ v' c', (rtcIh fuel v g).serve Clock.answer c =
      (some (v', LabComputers.rtcIh (c.registers hours) (c.registers minutes) g), c') := by
  rw [rtcIh, Prog.serve_bind, serve_readTime v busy valid enough]
  exact ⟨_, _, rfl⟩

end LabComputers.Rtc

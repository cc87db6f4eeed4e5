import LabComputers.Lab2.I8254
import LabComputers.Lab2.TimerProof

/-!
# Setting and reading back the timers

`timer_set_frequency` run against the chip: whatever calls came before, it reprograms its timer only
and keeps the mode (`serve_timerSetFrequency`).  So after any sequence of calls each timer has the count of
the last call for it (`setFrequencies_isolated`), and `timer_test_read_config` shows it in the access mode
that the driver gave it and in the mode and base that it had from the start (`readConfig_after`).
-/

namespace LabComputers.Lab2

open Port

/-- The number by which the driver calls timer `i`. -/
def number (i : Fin 3) : UInt8 := UInt8.ofNat i

theorem number_le : ∀ i, number i ≤ 2 := by decide

theorem counterPort_number : ∀ i, I8254.timer? (counterPort (number i)) = some i := by decide

theorem counterPort_ne : ∀ i, counterPort (number i) ≠ timerCtrl := by decide

namespace I8254

/-! ## The accesses -/

/-- The chip after `n` accesses that changed only timer `i`. -/
def set (chip : I8254) (i : Fin 3) (t : Timer) (n : ℕ) : I8254 :=
  ⟨Function.update chip.timers i t, fun k => chip.pins (k + n)⟩

/-- The read-back command of the driver latches the status of its timer only. -/
theorem answer_readBack (chip : I8254) (i : Fin 3) :
    chip.answer (.outb timerCtrl (readBackCommand (number i)).toUInt32) =
      (⟨0, 0⟩, chip.set i { chip.timers i with latched := true } 1) := by
  have word : ∀ i j : Fin 3, readBackCommand (number i) >>> 6 = 3 ∧
      readBackCommand (number i) &&& 0x10 = 0 ∧
      ((readBackCommand (number i)).toNat.testBit (j + 1) = true ↔ j = i) := by
    decide
  have timers : command (readBackCommand (number i)) chip.timers =
      Function.update chip.timers i { chip.timers i with latched := true } := by
    funext j
    obtain ⟨readBack, status, selected⟩ := word i j
    rw [command, if_pos readBack, Function.update_apply]
    by_cases same : j = i
    · rw [if_pos ⟨status, selected.2 same⟩, if_pos same, same]
    · rw [if_neg fun h => same (selected.1 h.2), if_neg same]
  simp only [answer, if_true, UInt8.toUInt8_toUInt32, timers]
  rfl

/-- The status that was latched is read. -/
theorem answer_status (chip : I8254) (i : Fin 3) (latched : (chip.timers i).latched = true) :
    chip.answer (.inb (counterPort (number i))) =
      (⟨0, ((chip.timers i).status (chip.pins 0)).toUInt32⟩,
        chip.set i { chip.timers i with latched := false } 1) := by
  simp only [answer, counterPort_number, latched, if_true]
  rfl

/-- The control word of the driver sets the access mode of its timer and keeps the lower four bits. -/
theorem answer_control (chip : I8254) (i : Fin 3) (st : UInt8) :
    chip.answer (.outb timerCtrl (controlWord (number i) st).toUInt32) =
      (⟨0, 0⟩, chip.set i
        { chip.timers i with control := (st &&& 0x0F) ||| 0x30, low := none } 1) := by
  have table : ∀ (i : Fin 3) (b : Fin 256), let word := controlWord (number i) (UInt8.ofFin b)
      word >>> 6 = number i ∧ (word >>> 4) &&& 3 = 3 ∧
        word &&& 0x3F = (UInt8.ofFin b &&& 0x0F) ||| 0x30 := by
    decide +kernel
  obtain ⟨selects, access, control⟩ := table i st.toFin
  change controlWord (number i) st >>> 6 = _ at selects
  change (controlWord (number i) st >>> 4) &&& 3 = _ at access
  change controlWord (number i) st &&& 0x3F = (st &&& 0x0F) ||| 0x30 at control
  have other : ∀ i j : Fin 3, number i ≠ 3 ∧ ((number i).toNat = j ↔ j = i) := by decide
  have timers : command (controlWord (number i) st) chip.timers =
      Function.update chip.timers i
        { chip.timers i with control := (st &&& 0x0F) ||| 0x30, low := none } := by
    funext j
    obtain ⟨word, same⟩ := other i j
    rw [command, selects, if_neg word, access, control, Function.update_apply]
    by_cases here : j = i
    · rw [if_pos ⟨same.2 here, by decide⟩, if_pos here, here]
    · rw [if_neg fun h => here (same.1 h.1), if_neg here]
  simp only [answer, if_true, UInt8.toUInt8_toUInt32, timers]
  rfl

/-- A byte of the count. -/
theorem answer_count (chip : I8254) (i : Fin 3) (byte : UInt8) :
    chip.answer (.outb (counterPort (number i)) byte.toUInt32) =
      (⟨0, 0⟩, chip.set i ((chip.timers i).write byte) 1) := by
  simp only [answer, if_neg (counterPort_ne i), counterPort_number, UInt8.toUInt8_toUInt32]
  rfl

@[simp] theorem set_timers_self (chip : I8254) (i : Fin 3) (t : Timer) (n : ℕ) :
    (chip.set i t n).timers i = t := Function.update_self _ _ _

theorem set_set (chip : I8254) (i : Fin 3) (t t' : Timer) (n m : ℕ) :
    (chip.set i t n).set i t' m = chip.set i t' (m + n) := by
  simp only [set, Function.update_idem, Nat.add_assoc]

end I8254

/-! ## `timer_set_frequency` on the chip -/

/-- The status byte shows the control word below the two bits of the pins. -/
theorem Timer.status_and (t : Timer) (pins : UInt8) {mask : UInt8} (below : 0xC0 &&& mask = 0)
    (inside : 0x3F &&& mask = mask) : t.status pins &&& mask = t.control &&& mask := by
  have split : ∀ a b c : UInt8, (a ||| b) &&& c = (a &&& c) ||| (b &&& c) := fun a b c =>
    UInt8.toBitVec_inj.1 BitVec.and_or_distrib_right
  rw [Timer.status, split, UInt8.and_assoc, UInt8.and_assoc, below, inside, UInt8.and_zero,
    UInt8.zero_or]

theorem divisor_bytes (freq : UInt32) :
    (utilGetMSB (divisor freq)).toUInt16 <<< 8 ||| (utilGetLSB (divisor freq)).toUInt16 =
      divisor freq := by
  have small := (divisor freq).toNat_lt
  have eight : UInt16.toNat 8 % 16 = 8 := rfl
  have high : ((divisor freq).toNat / 2 ^ 8 % 2 ^ 8) * 2 ^ 8 % 2 ^ 16 =
      2 ^ 8 * ((divisor freq).toNat / 2 ^ 8) := by
    omega
  rw [← UInt16.toNat_inj, UInt16.toNat_or, UInt16.toNat_shiftLeft, utilGetMSB, utilGetLSB]
  simp only [UInt8.toNat_toUInt16, UInt16.toNat_toUInt8, UInt16.toNat_shiftRight]
  rw [eight, Nat.shiftRight_eq_div_pow, Nat.shiftLeft_eq, high,
    ← Nat.two_pow_add_eq_or_of_lt (Nat.mod_lt _ (by decide)), Nat.div_add_mod]

/-- A timer that `timer_set_frequency` has programmed. -/
def Timer.programmed (t : Timer) (freq : UInt32) : Timer where
  control := (t.control &&& 0x0F) ||| 0x30
  latched := false
  low := none
  count := divisor freq

/-- `timer_set_frequency` programs its timer, keeps the mode and the base, and leaves the other timers
alone. -/
theorem serve_timerSetFrequency (chip : I8254) (i : Fin 3) {freq : UInt32} (nonzero : freq ≠ 0) :
    (timerSetFrequency (number i) freq).serve I8254.answer chip =
      (some 0, chip.set i ((chip.timers i).programmed freq) 5) := by
  have access : ∀ b : UInt8, (((b &&& 0x0F) ||| 0x30) >>> 4) &&& 3 = 3 := by
    have table : ∀ b : Fin 256, (((UInt8.ofFin b &&& 0x0F) ||| 0x30) >>> 4) &&& 3 = 3 := by
      decide +kernel
    exact fun b => table b.toFin
  rw [timerSetFrequency_eq (number_le i), Prog.serve_io, I8254.answer_readBack]
  simp only [ne_eq, not_true_eq_false, if_false]
  rw [Prog.serve_io, I8254.answer_status _ _ (by simp)]
  simp only [not_true_eq_false, if_false, if_neg nonzero, UInt8.toUInt8_toUInt32]
  rw [Prog.serve_io, I8254.answer_control, Timer.status_and _ _ (by decide) (by decide)]
  simp only [not_true_eq_false, if_false]
  rw [Prog.serve_io, I8254.answer_count, Prog.serve_io, I8254.answer_count]
  simp only [I8254.set_timers_self, I8254.set_set, Prog.serve_ret, Timer.write, access, if_true,
    divisor_bytes]
  rfl

/-! ## Sequences of calls -/

/-- The chip after some calls of `timer_set_frequency`. -/
def setFrequencies (chip : I8254) (calls : List (Fin 3 × UInt32)) : I8254 :=
  calls.foldl
    (fun chip call => ((timerSetFrequency (number call.1) call.2).serve I8254.answer chip).2) chip

/-- The frequency of the last call for a timer. -/
def lastFrequency (i : Fin 3) : List (Fin 3 × UInt32) → Option UInt32
  | [] => none
  | call :: calls => (lastFrequency i calls).or (if call.1 = i then some call.2 else none)

theorem Timer.programmed_programmed (t : Timer) (freq freq' : UInt32) :
    (t.programmed freq).programmed freq' = t.programmed freq' := by
  have table : ∀ b : Fin 256, ((UInt8.ofFin b &&& 0x0F) ||| 0x30) &&& 0x0F =
      UInt8.ofFin b &&& 0x0F := by
    decide +kernel
  have mode : ((t.control &&& 0x0F) ||| 0x30) &&& 0x0F = t.control &&& 0x0F := table t.control.toFin
  rw [Timer.programmed, Timer.programmed, Timer.programmed]
  simp only [mode]

/-- After any calls a timer is as it was, if none of them was for it, and else programmed with the
frequency of the last one. -/
theorem setFrequencies_timer (chip : I8254) {calls : List (Fin 3 × UInt32)}
    (nonzero : ∀ call ∈ calls, call.2 ≠ 0) (i : Fin 3) :
    (setFrequencies chip calls).timers i =
      ((lastFrequency i calls).map (chip.timers i).programmed).getD (chip.timers i) := by
  induction calls generalizing chip with
  | nil => rfl
  | cons call calls ih =>
    obtain ⟨now, later⟩ := List.forall_mem_cons.1 nonzero
    have step := ih ((timerSetFrequency (number call.1) call.2).serve I8254.answer chip).2 later
    rw [serve_timerSetFrequency chip call.1 now] at step
    rw [setFrequencies, List.foldl_cons, serve_timerSetFrequency chip call.1 now]
    refine step.trans ?_
    rw [lastFrequency]
    by_cases here : call.1 = i
    · obtain rfl := here
      cases lastFrequency call.1 calls with
      | none => simp
      | some freq => simp [Timer.programmed_programmed]
    · have other : (chip.set call.1 ((chip.timers call.1).programmed call.2) 5).timers i =
          chip.timers i := Function.update_of_ne (Ne.symm here) _ _
      rw [other, if_neg here, Option.or_none]

theorem lastFrequency_eq_none {i : Fin 3} {calls : List (Fin 3 × UInt32)} :
    lastFrequency i calls = none ↔ ∀ call ∈ calls, call.1 ≠ i := by
  induction calls with
  | nil => simp [lastFrequency]
  | cons call calls ih =>
    rw [lastFrequency, Option.or_eq_none_iff, ih, List.forall_mem_cons, and_comm]
    by_cases here : call.1 = i <;> simp [here]

theorem lastFrequency_append (i : Fin 3) (pre : List (Fin 3 × UInt32)) {freq : UInt32}
    {post : List (Fin 3 × UInt32)} (other : ∀ call ∈ post, call.1 ≠ i) :
    lastFrequency i (pre ++ (i, freq) :: post) = some freq := by
  induction pre with
  | nil => rw [List.nil_append, lastFrequency, lastFrequency_eq_none.2 other, if_pos rfl, Option.none_or]
  | cons call pre ih => rw [List.cons_append, lastFrequency, ih, Option.some_or]

/-- The timer runs at the frequency, with its count complete, in the mode and base of `t₀`. -/
structure Timer.RunsAt (t t₀ : Timer) (freq : UInt32) : Prop where
  count : t.count = divisor freq
  complete : t.low = none
  access : (t.control >>> 4) &&& 3 = 3
  mode : t.control &&& 0x0F = t₀.control &&& 0x0F

theorem Timer.runsAt_programmed (t : Timer) (freq : UInt32) : (t.programmed freq).RunsAt t freq := by
  have table : ∀ b : Fin 256, let control := (UInt8.ofFin b &&& 0x0F) ||| 0x30
      (control >>> 4) &&& 3 = 3 ∧ control &&& 0x0F = UInt8.ofFin b &&& 0x0F := by
    decide +kernel
  obtain ⟨access, mode⟩ := table t.control.toFin
  exact ⟨rfl, rfl, access, mode⟩

/-- Calls of `timer_set_frequency` do not disturb each other: all of them succeed, each timer runs at
the frequency of the last call for it, and a timer that no call was for is as it was. -/
theorem setFrequencies_isolated (chip : I8254) (calls : List (Fin 3 × UInt32))
    (nonzero : ∀ call ∈ calls, call.2 ≠ 0) :
    (∀ pre call post, calls = pre ++ call :: post →
      ((timerSetFrequency (number call.1) call.2).serve I8254.answer
        (setFrequencies chip pre)).1 = some 0) ∧
    (∀ i pre freq post, calls = pre ++ (i, freq) :: post → (∀ call ∈ post, call.1 ≠ i) →
      ((setFrequencies chip calls).timers i).RunsAt (chip.timers i) freq) ∧
    (∀ i, (∀ call ∈ calls, call.1 ≠ i) → (setFrequencies chip calls).timers i = chip.timers i) := by
  refine ⟨?_, ?_, ?_⟩
  · rintro pre call post rfl
    rw [serve_timerSetFrequency _ _ (nonzero call (by simp))]
  · rintro i pre freq post rfl other
    rw [setFrequencies_timer chip nonzero, lastFrequency_append i pre other]
    exact (chip.timers i).runsAt_programmed freq
  · intro i other
    rw [setFrequencies_timer chip nonzero, lastFrequency_eq_none.2 other]
    rfl

/-- A chip with its timers in mode 3, each with another count. -/
def squareWaves : I8254 := ⟨fun i => ⟨0x36, false, none, UInt16.ofNat i⟩, fun _ => 0⟩

theorem setFrequencies_isolated_sixty :
    ((setFrequencies squareWaves [(0, 100), (2, 440), (0, 60)]).timers 0).RunsAt
      (squareWaves.timers 0) 60 :=
  (setFrequencies_isolated squareWaves [(0, 100), (2, 440), (0, 60)] (by simp)).2.1
    0 [(0, 100), (2, 440)] 60 [] rfl (List.forall_mem_nil _)

/-! ## Reading the configuration back -/

theorem serve_timerTestReadConfig (chip : I8254) (i : Fin 3) (field : StatusField) :
    (timerTestReadConfig (number i) field 0).serve I8254.answer chip =
      ((0, [(number i, field, timerDisplayConf ((chip.timers i).status (chip.pins 1)) field)]),
        chip.set i { chip.timers i with latched := false } 2) := by
  rw [timerTestReadConfig, timerGetConf_eq, Prog.serve_bind, Prog.serve_io, I8254.answer_readBack]
  simp only [not_true_eq_false, if_false, ne_eq, if_pos (number_le i), utilSysInb]
  rw [Prog.serve_io, I8254.answer_status _ _ (by simp)]
  simp [Timer.status, I8254.set]

/-- The mode and the base are shown from the lower four bits of the status. -/
theorem timerDisplayConf_low (st : UInt8) :
    timerDisplayConf st .mode = timerDisplayConf (st &&& 0x0F) .mode ∧
      timerDisplayConf st .base = timerDisplayConf (st &&& 0x0F) .base := by
  have table : ∀ b : Fin 256, let st := UInt8.ofFin b
      timerDisplayConf st .mode = timerDisplayConf (st &&& 0x0F) .mode ∧
        timerDisplayConf st .base = timerDisplayConf (st &&& 0x0F) .base := by
    decide +kernel
  exact table st.toFin

theorem Timer.RunsAt.display_initial {t t₀ : Timer} {freq : UInt32} (h : t.RunsAt t₀ freq)
    (pins : UInt8) : timerDisplayConf (t.status pins) .initial = .inMode .msbAfterLsb := by
  have table : ∀ b : Fin 256, (UInt8.ofFin b >>> 4) &&& 3 = 3 →
      UInt8.ofFin b &&& 0x20 ≠ 0 ∧ UInt8.ofFin b &&& 0x10 ≠ 0 := by
    decide +kernel
  have bits : t.control &&& 0x20 ≠ 0 ∧ t.control &&& 0x10 ≠ 0 := table t.control.toFin h.access
  rw [timerDisplayConf, t.status_and pins (by decide) (by decide),
    t.status_and pins (by decide) (by decide), if_pos bits]

/-- After any calls of `timer_set_frequency`, `timer_test_read_config` shows LSB-then-MSB access for
every timer that one of them was for, and for all timers the mode and the base that it would have shown
before. -/
theorem readConfig_after (chip : I8254) (calls : List (Fin 3 × UInt32))
    (nonzero : ∀ call ∈ calls, call.2 ≠ 0) (i : Fin 3) :
    let shown := fun (chip : I8254) field =>
      ((timerTestReadConfig (number i) field 0).serve I8254.answer chip).1
    ((∃ call ∈ calls, call.1 = i) → shown (setFrequencies chip calls) .initial =
      (0, [(number i, .initial, .inMode .msbAfterLsb)])) ∧
    shown (setFrequencies chip calls) .mode = shown chip .mode ∧
    shown (setFrequencies chip calls) .base = shown chip .base := by
  intro shown
  have timer := setFrequencies_timer chip nonzero i
  have low : ∀ pins pins', ((setFrequencies chip calls).timers i).status pins &&& 0x0F =
      (chip.timers i).status pins' &&& 0x0F := by
    intro pins pins'
    rw [Timer.status_and _ _ (by decide) (by decide), Timer.status_and _ _ (by decide) (by decide),
      timer]
    cases lastFrequency i calls with
    | none => rfl
    | some freq => exact ((chip.timers i).runsAt_programmed freq).mode
  simp only [shown, serve_timerTestReadConfig]
  refine ⟨?_, ?_, ?_⟩
  · rintro ⟨call, member, rfl⟩
    cases last : lastFrequency call.1 calls with
    | none => exact absurd rfl (lastFrequency_eq_none.1 last call member)
    | some freq =>
      rw [last] at timer
      change _ = (chip.timers call.1).programmed freq at timer
      rw [timer, ((chip.timers call.1).runsAt_programmed freq).display_initial]
  · rw [(timerDisplayConf_low _).1, low _ (chip.pins 1), ← (timerDisplayConf_low _).1]
  · rw [(timerDisplayConf_low _).2, low _ (chip.pins 1), ← (timerDisplayConf_low _).2]

theorem readConfig_after_sixty :
    ((timerTestReadConfig (number 0) .initial 0).serve I8254.answer
      (setFrequencies squareWaves [(0, 60)])).1 = (0, [(number 0, .initial, .inMode .msbAfterLsb)]) :=
  (readConfig_after squareWaves [(0, 60)] (by simp) 0).1 ⟨(0, 60), by simp, rfl⟩

end LabComputers.Lab2

import LabComputers.Lab2.Timer

/-!
# What `timer_set_frequency` writes and returns

For a timer that exists the accesses are always the same, up to the first one that fails
(`timerSetFrequency_eq`).  The divisor is the quotient modulo `2 ^ 16`, whatever the frequency is, so
that it is right for the frequencies from 19 to `TIMER_FREQ` and for no others.  The results of the
last two writes are combined by `&`, so that a failure is lost unless both fail, with a common bit.
-/

namespace LabComputers.Lab2

open Port

/-! ## The accesses -/

/-- The port of a timer's counter. -/
def counterPort (timer : UInt8) : ℕ := 0x40 + timer.toNat

/-- A `switch` over the timers. -/
theorem switch_timer {α : Type} (timer : UInt8) (f : ℕ → α) (other : α) :
    (if timer = 0 then f timer0 else if timer = 1 then f timer1 else if timer = 2 then f timer2
      else other) = if timer ≤ 2 then f (counterPort timer) else other := by
  by_cases valid : timer ≤ 2
  · have cases : timer = 0 ∨ timer = 1 ∨ timer = 2 := by
      have small : timer.toNat ≤ 2 := UInt8.le_iff_toNat_le.1 valid
      simp only [← UInt8.toNat_inj]
      exact (by omega : timer.toNat = 0 ∨ timer.toNat = 1 ∨ timer.toNat = 2)
    rw [if_pos valid]
    rcases cases with rfl | rfl | rfl
    · rfl
    · rfl
    · rfl
  · have other : timer ≠ 0 ∧ timer ≠ 1 ∧ timer ≠ 2 := by
      refine ⟨?_, ?_, ?_⟩
      · rintro rfl
        exact valid (by decide)
      · rintro rfl
        exact valid (by decide)
      · rintro rfl
        exact valid (by decide)
    rw [if_neg valid, if_neg other.1, if_neg other.2.1, if_neg other.2.2]

theorem timerGetConf_eq (timer st : UInt8) :
    timerGetConf timer st = .io (.outb timerCtrl (readBackCommand timer).toUInt32) fun r =>
      if r.res ≠ 0 then .ret (1, st)
      else if timer ≤ 2 then utilSysInb (counterPort timer)
      else .ret (1, st) := by
  unfold timerGetConf
  simp only [switch_timer timer utilSysInb]
  rfl

/-- The divisor written by `timer_set_frequency`. -/
def divisor (freq : UInt32) : UInt16 := (timerFreq / freq).toUInt16

/-- `timer_set_frequency` on a timer that exists. -/
theorem timerSetFrequency_eq {timer : UInt8} (valid : timer ≤ 2) (freq : UInt32) :
    timerSetFrequency timer freq =
      .io (.outb timerCtrl (readBackCommand timer).toUInt32) fun r0 =>
      if r0.res ≠ 0 then .ret (some 1)
      else .io (.inb (counterPort timer)) fun r1 =>
        if r1.res ≠ 0 then .ret (some 1)
        else if freq = 0 then .ret none
        else .io (.outb timerCtrl (controlWord timer r1.val.toUInt8).toUInt32) fun r2 =>
          if r2.res ≠ 0 then .ret (some 1)
          else .io (.outb (counterPort timer) (utilGetLSB (divisor freq)).toUInt32) fun r3 =>
            .io (.outb (counterPort timer) (utilGetMSB (divisor freq)).toUInt32) fun r4 =>
              .ret (some (Int.land r3.res r4.res)) := by
  have switch := switch_timer timer (fun port => writeCounter port
    (utilGetLSB (timerFreq / freq).toUInt16) (utilGetMSB (timerFreq / freq).toUInt16) >>=
      fun res => pure (some res)) (pure (some 1))
  rw [if_pos valid] at switch
  unfold timerSetFrequency
  rw [timerGetConf_eq, Prog.io_bind]
  congr 1
  funext r0
  by_cases failed : r0.res ≠ 0
  · rw [if_pos failed, if_pos failed]
    rfl
  rw [if_neg failed, if_neg failed, if_pos valid]
  refine congrArg (Prog.io _) (funext fun r1 => ?_)
  change (if r1.res ≠ 0 then Prog.ret (some 1) else if freq = 0 then Prog.ret none
    else Prog.io _ fun r2 => if r2.res ≠ 0 then Prog.ret (some 1) else _) = _
  rw [switch]
  rfl

/-! ## Its result -/

section Result

variable {timer : UInt8} (valid : timer ≤ 2) (freq : UInt32) (rs : ℕ → Reply)
include valid

theorem value_timerSetFrequency :
    (timerSetFrequency timer freq).value rs =
      if (rs 0).res ≠ 0 ∨ (rs 1).res ≠ 0 then some 1
      else if freq = 0 then none
      else if (rs 2).res ≠ 0 then some 1
      else some (Int.land (rs 3).res (rs 4).res) := by
  rw [timerSetFrequency_eq valid, Prog.value]
  simp only [Prog.exec_io, Prog.exec_ite, Prog.exec_ret, Nat.zero_add, Nat.reduceAdd]
  split_ifs <;> grind

/-- The accesses all succeed if the ones up to the division do, and those after it, if it is
reached. -/
theorem succeed_iff :
    (∀ a ∈ (timerSetFrequency timer freq).trace rs, a.2.res = 0) ↔
      (rs 0).res = 0 ∧ (rs 1).res = 0 ∧
        (freq = 0 ∨ (rs 2).res = 0 ∧ (rs 3).res = 0 ∧ (rs 4).res = 0) := by
  rw [timerSetFrequency_eq valid]
  simp only [Prog.trace_io, Prog.trace_ite, Prog.trace_ret, Nat.zero_add, Nat.reduceAdd,
    List.forall_mem_cons]
  split_ifs <;> simp_all

/-- The accesses when all succeed and there is no division by zero. -/
theorem trace_timerSetFrequency (freq_ne : freq ≠ 0)
    (succeed : ∀ a ∈ (timerSetFrequency timer freq).trace rs, a.2.res = 0) :
    ((timerSetFrequency timer freq).trace rs).map Prod.fst =
      [.outb timerCtrl (readBackCommand timer).toUInt32, .inb (counterPort timer),
        .outb timerCtrl (controlWord timer (rs 1).val.toUInt8).toUInt32,
        .outb (counterPort timer) (utilGetLSB (divisor freq)).toUInt32,
        .outb (counterPort timer) (utilGetMSB (divisor freq)).toUInt32] := by
  obtain ⟨r0, r1, zero | ⟨r2, -, -⟩⟩ := (succeed_iff valid freq rs).1 succeed
  · exact absurd zero freq_ne
  rw [timerSetFrequency_eq valid]
  simp [r0, r1, r2, freq_ne]

end Result

/-! ## The frequency -/

/-- The divisors of 16 bits that give a frequency: the largest whose multiple is not above the
frequency of the clock. -/
structure IsDivisor (freq : UInt32) (d : ℕ) : Prop where
  pos : 1 ≤ d
  fits : d ≤ 65535
  le_clock : d * freq.toNat ≤ timerFreq.toNat
  clock_lt : timerFreq.toNat < (d + 1) * freq.toNat

/-- A control word that selects a timer, with LSB-then-MSB access and the mode of the configuration
`st`. -/
structure Selects (timer st word : UInt8) : Prop where
  mode : word &&& 0x0F = st &&& 0x0F
  timer_eq : word >>> 6 = timer
  access : (word >>> 4) &&& 3 = 3

/-- What `timer_set_frequency` owes to its callers on a stream of replies. -/
structure SetsFrequency (timer : UInt8) (freq : UInt32) (rs : ℕ → Reply) : Prop where
  no_trap : (timerSetFrequency timer freq).value rs ≠ none
  programs : (timerSetFrequency timer freq).value rs = some 0 → ∃ word lsb msb : UInt8,
    ((timerSetFrequency timer freq).trace rs).map Prod.fst =
      [.outb timerCtrl (readBackCommand timer).toUInt32, .inb (counterPort timer),
        .outb timerCtrl word.toUInt32, .outb (counterPort timer) lsb.toUInt32,
        .outb (counterPort timer) msb.toUInt32] ∧
      Selects timer (rs 1).val.toUInt8 word ∧ IsDivisor freq (lsb.toNat + 256 * msb.toNat)
  rejects : (¬ ∃ d, IsDivisor freq d) →
    ∃ res, res ≠ 0 ∧ (timerSetFrequency timer freq).value rs = some res

theorem controlWord_selects {timer : UInt8} (valid : timer ≤ 2) (st : UInt8) :
    Selects timer st (controlWord timer st) := by
  have bits : ∀ t < 3, ∀ n < 256,
      let word := controlWord (UInt8.ofNat t) (UInt8.ofNat n)
      word &&& 0x0F = UInt8.ofNat n &&& 0x0F ∧ word >>> 6 = UInt8.ofNat t ∧
        (word >>> 4) &&& 3 = 3 := by decide +kernel
  have small : timer.toNat ≤ 2 := UInt8.le_iff_toNat_le.1 valid
  have word := bits timer.toNat (by omega) st.toNat st.toNat_lt
  rw [UInt8.ofNat_toNat, UInt8.ofNat_toNat] at word
  exact ⟨word.1, word.2.1, word.2.2⟩

theorem bytes_divisor (freq : UInt32) :
    (utilGetLSB (divisor freq)).toNat + 256 * (utilGetMSB (divisor freq)).toNat =
      1193182 / freq.toNat % 65536 := by
  have word : (divisor freq).toNat = 1193182 / freq.toNat % 65536 := by
    rw [divisor, UInt32.toNat_toUInt16, UInt32.toNat_div]
    rfl
  have small := (divisor freq).toNat_lt
  have low : (utilGetLSB (divisor freq)).toNat = (divisor freq).toNat % 256 :=
    UInt16.toNat_toUInt8 _
  have high : (utilGetMSB (divisor freq)).toNat = (divisor freq).toNat / 256 := by
    rw [utilGetMSB, UInt16.toNat_toUInt8, UInt16.toNat_shiftRight, Nat.shiftRight_eq_div_pow]
    exact Nat.mod_eq_of_lt (by simp; omega)
  rw [← word, low, high]
  omega

/-- The frequencies that have a divisor. -/
theorem isDivisor_quotient {freq : UInt32} (low : 19 ≤ freq.toNat) (high : freq.toNat ≤ 1193182) :
    IsDivisor freq (1193182 / freq.toNat) where
  pos := Nat.div_pos high (by omega)
  fits := (Nat.div_le_div_left low (by decide)).trans (by decide)
  le_clock := Nat.div_mul_le_self _ _
  clock_lt := by
    rw [Nat.mul_comm]
    exact Nat.lt_mul_div_succ _ (by omega)

theorem IsDivisor.freq_range {freq : UInt32} {d : ℕ} (h : IsDivisor freq d) :
    19 ≤ freq.toNat ∧ freq.toNat ≤ 1193182 := by
  obtain ⟨pos, fits, below, above⟩ := h
  have clock : timerFreq.toNat = 1193182 := rfl
  refine ⟨?_, ?_⟩
  · by_contra slow
    have bound : (d + 1) * freq.toNat ≤ 65536 * 18 := Nat.mul_le_mul (by omega) (by omega)
    omega
  · have bound : 1 * freq.toNat ≤ d * freq.toNat := Nat.mul_le_mul_right _ pos
    omega

/-- When all accesses succeed, a frequency is set as it should be exactly if it has a divisor. -/
theorem setsFrequency_iff {timer : UInt8} (valid : timer ≤ 2) (freq : UInt32) (rs : ℕ → Reply)
    (succeed : ∀ a ∈ (timerSetFrequency timer freq).trace rs, a.2.res = 0) :
    SetsFrequency timer freq rs ↔ 19 ≤ freq.toNat ∧ freq.toNat ≤ 1193182 := by
  have value := value_timerSetFrequency valid freq rs
  obtain ⟨r0, r1, later⟩ := (succeed_iff valid freq rs).1 succeed
  rw [if_neg (by simp [r0, r1])] at value
  by_cases zero : freq = 0
  · rw [if_pos zero] at value
    apply iff_of_false
    · intro sets
      exact sets.no_trap value
    · rw [zero]
      decide
  obtain ⟨r2, r3, r4⟩ := later.resolve_left zero
  rw [if_neg zero, if_neg (not_not_intro r2), r3, r4] at value
  constructor
  · intro sets
    obtain ⟨_, _, _, -, -, divides⟩ := sets.programs value
    exact divides.freq_range
  · rintro ⟨low, high⟩
    have quotient := isDivisor_quotient low high
    refine ⟨?_, ?_, ?_⟩
    · rw [value]
      exact Option.some_ne_none _
    · intro _
      refine ⟨_, _, _, trace_timerSetFrequency valid freq rs zero succeed,
        controlWord_selects valid _, ?_⟩
      rw [bytes_divisor, Nat.mod_eq_of_lt (by have := quotient.fits; omega)]
      exact quotient
    · intro none
      exact absurd ⟨_, quotient⟩ none

/-- The configuration read back for a timer in mode 3. -/
def squareWave : ℕ → Reply := fun _ => ⟨0, 0x36⟩

theorem setsFrequency_sixty : SetsFrequency 0 60 squareWave :=
  (setsFrequency_iff (by decide) 60 squareWave (by decide)).2 (by decide)

/-- 18 Hz needs a divisor of 17 bits. -/
theorem not_setsFrequency_eighteen :
    ¬ ∀ timer : UInt8, timer ≤ 2 → ∀ (freq : UInt32) (rs : ℕ → Reply),
      (∀ a ∈ (timerSetFrequency timer freq).trace rs, a.2.res = 0) →
        SetsFrequency timer freq rs := by
  intro all
  have sets := all 0 (by decide) 18 squareWave (by decide)
  obtain ⟨word, lsb, msb, -, -, divides⟩ := sets.programs (by decide)
  exact absurd divides.freq_range.1 (by decide)

/-! ## The results of the accesses -/

theorem value_of_invalid {timer : UInt8} (invalid : ¬ timer ≤ 2) (freq : UInt32)
    (rs : ℕ → Reply) : (timerSetFrequency timer freq).value rs = some 1 := by
  unfold timerSetFrequency
  simp only [timerGetConf_eq, if_neg invalid, ite_self]
  rfl

/-- The result is 0 exactly if the timer exists and no access failed, unless one failed and the
other did not fail with a common bit among the last two accesses, or the division trapped. -/
theorem timerSetFrequency_zero_iff (timer : UInt8) (freq : UInt32) (rs : ℕ → Reply) :
    ((timerSetFrequency timer freq).value rs = some 0 ↔
        timer ≤ 2 ∧ ∀ a ∈ (timerSetFrequency timer freq).trace rs, a.2.res = 0) ↔
      ¬ (timer ≤ 2 ∧ (rs 0).res = 0 ∧ (rs 1).res = 0 ∧
        (freq = 0 ∨ (rs 2).res = 0 ∧ Int.land (rs 3).res (rs 4).res = 0 ∧
          ¬ ((rs 3).res = 0 ∧ (rs 4).res = 0))) := by
  by_cases valid : timer ≤ 2
  · have both : (rs 3).res = 0 → (rs 4).res = 0 → Int.land (rs 3).res (rs 4).res = 0 := by
      intro r3 r4
      rw [r3, r4]
      rfl
    rw [value_timerSetFrequency valid, succeed_iff valid]
    by_cases configured : (rs 0).res = 0 ∧ (rs 1).res = 0
    · simp only [configured.1, configured.2, ne_eq, not_true, or_self, if_false]
      by_cases zero : freq = 0
      · simp [zero, valid]
      · by_cases r2 : (rs 2).res = 0
        · simp only [zero, r2, valid]
          grind
        · simp [zero, r2]
    · have failed : (rs 0).res ≠ 0 ∨ (rs 1).res ≠ 0 := by tauto
      rw [if_pos failed]
      simp
      tauto
  · rw [value_of_invalid valid]
    simp [valid]

/-- The second byte is refused, and the function reports success. -/
theorem timerSetFrequency_loses_failure :
    ¬ ∀ (timer : UInt8) (freq : UInt32) (rs : ℕ → Reply),
      (timerSetFrequency timer freq).value rs = some 0 ↔
        timer ≤ 2 ∧ ∀ a ∈ (timerSetFrequency timer freq).trace rs, a.2.res = 0 := by
  intro all
  have lost := all 0 60 fun n => ⟨if n = 4 then 1 else 0, 0x36⟩
  exact absurd lost (by decide)

end LabComputers.Lab2

import Mathlib.Data.Nat.Bitwise

/-!
# Bit fields

A word that consists of fields: `Field.get` reads one and `Field.place` is the word in which it holds
a value and all other bits are zero.  The fields of a word are combined by `|||`; reading one of them
finds its own value, and nothing of those it is disjoint from.
-/

namespace BitField

/-- The `size` bits from bit `position` on. -/
structure Field where
  position : ℕ
  size : ℕ

namespace Field

variable {f g : Field} {v : ℕ}

/-- The field contains bit `b`. -/
def Covers (f : Field) (b : ℕ) : Prop := f.position ≤ b ∧ b < f.position + f.size

/-- No bit belongs to both fields. -/
def Apart (f g : Field) : Prop := ∀ b, f.Covers b → ¬ g.Covers b

/-- The field lies in the lowest `bits` bits. -/
def Fits (f : Field) (bits : ℕ) : Prop := ∀ b, f.Covers b → b < bits

/-- The value of the field of a word. -/
def get (f : Field) (word : ℕ) : ℕ := word / 2 ^ f.position % 2 ^ f.size

/-- The word with a value in the field and zeros elsewhere. -/
def place (f : Field) (v : ℕ) : ℕ := v * 2 ^ f.position

theorem Apart.symm (h : f.Apart g) : g.Apart f := fun b hg hf => h b hf hg

theorem get_lt (f : Field) (word : ℕ) : f.get word < 2 ^ f.size := Nat.mod_lt _ (Nat.two_pow_pos _)

theorem testBit_get (f : Field) (word t : ℕ) :
    (f.get word).testBit t = (decide (t < f.size) && word.testBit (f.position + t)) := by
  rw [get, Nat.testBit_mod_two_pow, Nat.testBit_div_two_pow, Nat.add_comm]

theorem testBit_place (f : Field) (v b : ℕ) :
    (f.place v).testBit b = (decide (f.position ≤ b) && v.testBit (b - f.position)) := by
  rw [place, Nat.testBit_mul_two_pow]

/-- A placed value has bits only in its field. -/
theorem covers_of_testBit_place (hv : v < 2 ^ f.size) {b : ℕ} (set : (f.place v).testBit b) :
    f.Covers b := by
  rw [testBit_place, Bool.and_eq_true, decide_eq_true_eq] at set
  refine ⟨set.1, ?_⟩
  by_contra behind
  have zero : v.testBit (b - f.position) = false :=
    Nat.testBit_lt_two_pow (hv.trans_le (Nat.pow_le_pow_right (by decide) (by omega)))
  exact absurd (zero.symm.trans set.2) (by decide)

theorem get_or (f : Field) (a b : ℕ) : f.get (a ||| b) = f.get a ||| f.get b := by
  apply Nat.eq_of_testBit_eq
  intro t
  simp only [testBit_get, Nat.testBit_or]
  cases decide (t < f.size)
  · rfl
  · rfl

theorem get_place (hv : v < 2 ^ f.size) : f.get (f.place v) = v := by
  rw [get, place, Nat.mul_div_cancel _ (Nat.two_pow_pos _), Nat.mod_eq_of_lt hv]

theorem get_place_apart (apart : f.Apart g) (hv : v < 2 ^ g.size) : f.get (g.place v) = 0 := by
  apply Nat.eq_of_testBit_eq
  intro t
  rw [testBit_get, Nat.zero_testBit, Bool.and_eq_false_iff]
  by_cases inside : t < f.size
  · right
    rw [Bool.eq_false_iff]
    intro set
    exact apart (f.position + t) ⟨Nat.le_add_right _ _, by omega⟩ (covers_of_testBit_place hv set)
  · left
    simpa using inside

theorem place_lt {bits : ℕ} (fits : f.Fits bits) (hv : v < 2 ^ f.size) : f.place v < 2 ^ bits := by
  apply Nat.lt_pow_two_of_testBit
  intro b above
  rw [Bool.eq_false_iff]
  intro set
  have below := fits b (covers_of_testBit_place hv set)
  omega

theorem size_le {bits : ℕ} (fits : f.Fits bits) : f.size ≤ bits := by
  by_cases none : f.size = 0
  · omega
  · have last := fits (f.position + (f.size - 1)) ⟨Nat.le_add_right _ _, by omega⟩
    omega

end Field

end BitField

import Mathlib.Data.Fintype.Card
import Mathlib.Data.Fintype.Prod

/-!
# Lifetimes in a history of ticks, births and deaths

Places `κ` are occupied by one individual at a time.  A history is the list of what happened, the
latest first; `age h k` counts the ticks since the birth of the individual that now lives in `k`.
In a lawful history only empty places are filled, only occupied places are vacated, and no two
births fall between the same two ticks.  Then the age determines the tick at which the individual
was born (`survivor_iff`), no two individuals have the same age (`Lawful.age_inj`), and the births
are the deaths plus the living (`Lawful.births_eq`).  `sinceDeath h k` counts the ticks since a vacant
place was vacated, and `lull h` those since the last death.
-/

namespace Lifetime

/-- What happens to the individuals. -/
inductive Event (κ : Type*) where
  | tick
  | born (k : κ)
  | died (k : κ)
  deriving DecidableEq

variable {κ : Type*}

/-- The number of ticks. -/
def clock : List (Event κ) → ℕ
  | [] => 0
  | .tick :: h => clock h + 1
  | .born _ :: h => clock h
  | .died _ :: h => clock h

/-- The number of births. -/
def births : List (Event κ) → ℕ
  | [] => 0
  | .tick :: h => births h
  | .born _ :: h => births h + 1
  | .died _ :: h => births h

/-- The number of deaths. -/
def deaths : List (Event κ) → ℕ
  | [] => 0
  | .tick :: h => deaths h
  | .born _ :: h => deaths h
  | .died _ :: h => deaths h + 1

/-- The individual born in place `k` at tick `n` has not died. -/
def Survivor (h : List (Event κ)) (n : ℕ) (k : κ) : Prop :=
  ∃ post pre, h = post ++ .born k :: pre ∧ clock pre = n ∧ .died k ∉ post

theorem survivor_cons {e : Event κ} {h : List (Event κ)} {n : ℕ} {k : κ} :
    Survivor (e :: h) n k ↔ (e = .born k ∧ clock h = n) ∨ (e ≠ .died k ∧ Survivor h n k) := by
  constructor
  · rintro ⟨post, pre, split, hn, alive⟩
    cases post with
    | nil =>
      rw [List.nil_append, List.cons.injEq] at split
      exact Or.inl ⟨split.1, split.2 ▸ hn⟩
    | cons e' post =>
      rw [List.cons_append, List.cons.injEq] at split
      rw [List.mem_cons, not_or] at alive
      exact Or.inr ⟨split.1 ▸ Ne.symm alive.1, post, pre, split.2, hn, alive.2⟩
  · rintro (⟨rfl, hn⟩ | ⟨ne, post, pre, rfl, hn, alive⟩)
    · exact ⟨[], h, rfl, hn, by simp⟩
    · exact ⟨e :: post, pre, rfl, hn, by simp [Ne.symm ne, alive]⟩

/-- An individual was born in place `k` at tick `n`. -/
def BornAt (h : List (Event κ)) (n : ℕ) (k : κ) : Prop :=
  ∃ post pre, h = post ++ .born k :: pre ∧ clock pre = n

theorem bornAt_cons {e : Event κ} {h : List (Event κ)} {n : ℕ} {k : κ} :
    BornAt (e :: h) n k ↔ (e = .born k ∧ clock h = n) ∨ BornAt h n k := by
  constructor
  · rintro ⟨post, pre, split, hn⟩
    cases post with
    | nil =>
      rw [List.nil_append, List.cons.injEq] at split
      exact .inl ⟨split.1, split.2 ▸ hn⟩
    | cons e' post =>
      rw [List.cons_append, List.cons.injEq] at split
      exact .inr ⟨post, pre, split.2, hn⟩
  · rintro (⟨rfl, hn⟩ | ⟨post, pre, rfl, hn⟩)
    · exact ⟨[], h, rfl, hn⟩
    · exact ⟨e :: post, pre, rfl, hn⟩

theorem Survivor.bornAt {h : List (Event κ)} {n : ℕ} {k : κ} (survivor : Survivor h n k) :
    BornAt h n k := by
  obtain ⟨post, pre, split, hn, -⟩ := survivor
  exact ⟨post, pre, split, hn⟩

theorem died_notMem {h : List (Event κ)} (safe : deaths h = 0) (k : κ) : .died k ∉ h := by
  induction h with
  | nil => exact List.not_mem_nil
  | cons e h ih =>
    cases e with
    | tick => simpa using ih safe
    | born k' => simpa using ih safe
    | died k' => exact absurd safe (Nat.succ_ne_zero _)

/-- Without deaths all individuals survive. -/
theorem BornAt.survivor {h : List (Event κ)} {n : ℕ} {k : κ} (born : BornAt h n k)
    (safe : deaths h = 0) : Survivor h n k := by
  obtain ⟨post, pre, rfl, hn⟩ := born
  exact ⟨post, pre, rfl, hn, fun mem => died_notMem safe k (List.mem_append_left _ mem)⟩

theorem BornAt.births_pos {h : List (Event κ)} {n : ℕ} {k : κ} (born : BornAt h n k) :
    0 < births h := by
  induction h with
  | nil =>
    obtain ⟨post, pre, split, -⟩ := born
    exact absurd split.symm (List.append_ne_nil_of_right_ne_nil _ (List.cons_ne_nil _ _))
  | cons e h ih =>
    rcases bornAt_cons.1 born with ⟨rfl, -⟩ | earlier
    · exact Nat.succ_pos _
    · cases e with
      | tick => exact ih earlier
      | born _ => exact Nat.succ_pos _
      | died _ => exact ih earlier

variable [DecidableEq κ]

/-- The ticks since the birth of the individual that lives in a place. -/
def age : List (Event κ) → κ → Option ℕ
  | [], _ => none
  | .tick :: h, k => (age h k).map (· + 1)
  | .born k' :: h, k => if k = k' then some 0 else age h k
  | .died k' :: h, k => if k = k' then none else age h k

/-- A history that respects occupancy, with at most one birth between two ticks. -/
inductive Lawful : List (Event κ) → Prop
  | nil : Lawful []
  | tick {h} : Lawful h → Lawful (.tick :: h)
  | born {h k} : Lawful h → age h k = none → (∀ k', age h k' ≠ some 0) → Lawful (.born k :: h)
  | died {h k} : Lawful h → age h k ≠ none → Lawful (.died k :: h)

/-! ## Births and ages -/

/-- The age of the living tells the tick of their birth. -/
theorem survivor_iff {h : List (Event κ)} (lawful : Lawful h) {n : ℕ} {k : κ} :
    Survivor h n k ↔ ∃ a, age h k = some a ∧ n + a = clock h := by
  induction lawful with
  | nil => simp [Survivor, age]
  | tick _ ih =>
    rw [survivor_cons, ih]
    simp only [reduceCtorEq, false_and, ne_eq, not_false_eq_true, true_and, false_or, age, clock,
      Option.map_eq_some_iff]
    constructor
    · rintro ⟨a, ha, hn⟩
      exact ⟨a + 1, ⟨a, ha, rfl⟩, by omega⟩
    · rintro ⟨_, ⟨a, ha, rfl⟩, hn⟩
      exact ⟨a, ha, by omega⟩
  | @born h k' _ vacant _ ih =>
    rw [survivor_cons, ih]
    simp only [age, clock, ne_eq, reduceCtorEq, not_false_eq_true, true_and, Event.born.injEq]
    by_cases here : k = k'
    · subst here
      simp [vacant, eq_comm]
    · simp [here, Ne.symm here]
  | @died h k' _ _ ih =>
    rw [survivor_cons, ih]
    by_cases here : k = k'
    · subst here
      simp [age]
    · simp [age, clock, here, Ne.symm here]

theorem age_le_clock {h : List (Event κ)} {k : κ} {a : ℕ} (ha : age h k = some a) :
    a ≤ clock h := by
  induction h generalizing a with
  | nil => simp [age] at ha
  | cons e h ih =>
    cases e with
    | tick =>
      obtain ⟨b, hb, rfl⟩ := Option.map_eq_some_iff.1 ha
      exact Nat.succ_le_succ (ih hb)
    | born k' =>
      simp only [age] at ha
      split_ifs at ha
      · obtain rfl := Option.some.inj ha
        exact Nat.zero_le _
      · exact ih ha
    | died k' =>
      simp only [age] at ha
      split_ifs at ha
      exact ih ha

/-- No two individuals have the same age. -/
theorem Lawful.age_inj {h : List (Event κ)} (lawful : Lawful h) {k k' : κ} {a : ℕ}
    (hk : age h k = some a) (hk' : age h k' = some a) : k = k' := by
  induction lawful generalizing a with
  | nil => simp [age] at hk
  | tick _ ih =>
    simp only [age, Option.map_eq_some_iff] at hk hk'
    obtain ⟨b, hb, rfl⟩ := hk
    obtain ⟨b', hb', eq⟩ := hk'
    obtain rfl : b' = b := by omega
    exact ih hb hb'
  | born _ _ young ih =>
    simp only [age] at hk hk'
    split_ifs at hk hk' with h₁ h₂ h₂
    · rw [h₁, h₂]
    · obtain rfl := Option.some.inj hk
      exact absurd hk' (young k')
    · obtain rfl := Option.some.inj hk'
      exact absurd hk (young k)
    · exact ih hk hk'
  | died _ _ ih =>
    simp only [age] at hk hk'
    split_ifs at hk hk' with h₁ h₂
    exact ih hk hk'

/-! ## Vacancies -/

/-- The ticks since the last individual in a place died, if nobody was born there since. -/
def sinceDeath : List (Event κ) → κ → Option ℕ
  | [], _ => none
  | .tick :: h, k => (sinceDeath h k).map (· + 1)
  | .born k' :: h, k => if k = k' then none else sinceDeath h k
  | .died k' :: h, k => if k = k' then some 0 else sinceDeath h k

/-- The ticks since the last death, or since the start. -/
def lull : List (Event κ) → ℕ
  | [] => 0
  | .tick :: h => lull h + 1
  | .born _ :: h => lull h
  | .died _ :: _ => 0

theorem lull_le {h : List (Event κ)} {k : κ} {n : ℕ} (hn : sinceDeath h k = some n) :
    lull h ≤ n := by
  induction h generalizing n with
  | nil => cases hn
  | cons e h ih =>
    cases e with
    | tick =>
      obtain ⟨m, hm, rfl⟩ := Option.map_eq_some_iff.1 hn
      exact Nat.succ_le_succ (ih hm)
    | born k' =>
      simp only [sinceDeath] at hn
      split_ifs at hn
      exact ih hn
    | died k' => exact Nat.zero_le n

/-- A vacant place in which someone died has been vacant since the last death there. -/
theorem exists_sinceDeath {mid pre : List (Event κ)} {k : κ}
    (vacant : age (mid ++ .died k :: pre) k = none) :
    ∃ n, sinceDeath (mid ++ .died k :: pre) k = some n ∧ n ≤ clock mid := by
  induction mid with
  | nil => exact ⟨0, if_pos rfl, Nat.zero_le _⟩
  | cons e mid ih =>
    cases e with
    | tick =>
      obtain ⟨n, hn, le⟩ := ih (Option.map_eq_none_iff.1 vacant)
      exact ⟨n + 1, congrArg (Option.map (· + 1)) hn, Nat.succ_le_succ le⟩
    | born k' =>
      simp only [List.cons_append, age] at vacant
      split_ifs at vacant with here
      obtain ⟨n, hn, le⟩ := ih vacant
      exact ⟨n, (if_neg here).trans hn, le⟩
    | died k' =>
      by_cases here : k = k'
      · exact ⟨0, if_pos here, Nat.zero_le _⟩
      · simp only [List.cons_append, age, if_neg here] at vacant
        obtain ⟨n, hn, le⟩ := ih vacant
        exact ⟨n, (if_neg here).trans hn, le⟩

/-- Nobody is born in a place less than `n` ticks after someone died there. -/
def Rested (n : ℕ) (h : List (Event κ)) : Prop :=
  ∀ post k mid pre, h = post ++ .born k :: (mid ++ .died k :: pre) → n ≤ clock mid

omit [DecidableEq κ] in
theorem Rested.cons {n : ℕ} {e : Event κ} {h : List (Event κ)} (rested : Rested n h)
    (quiet : ∀ k, e ≠ .born k) : Rested n (e :: h) := by
  intro post k mid pre split
  cases post with
  | nil => exact absurd (List.cons.inj split).1 (quiet k)
  | cons e' post => exact rested post k mid pre (List.cons.inj split).2

/-- A birth in a place that has been vacant for long enough. -/
theorem Rested.born {n : ℕ} {h : List (Event κ)} {k : κ} (rested : Rested n h)
    (vacant : age h k = none) (long : ∀ m, sinceDeath h k = some m → n ≤ m) :
    Rested n (.born k :: h) := by
  intro post k' mid pre split
  cases post with
  | nil =>
    obtain ⟨same, rfl⟩ := List.cons.inj split
    obtain rfl := Event.born.inj same
    obtain ⟨m, hm, le⟩ := exists_sinceDeath vacant
    exact (long m hm).trans le
  | cons e' post => exact rested post k' mid pre (List.cons.inj split).2

/-! ## Conservation -/

/-- The places in which someone lives. -/
def living [Fintype κ] (h : List (Event κ)) : Finset κ := {k | (age h k).isSome}

theorem mem_living [Fintype κ] {h : List (Event κ)} {k : κ} :
    k ∈ living h ↔ (age h k).isSome := by
  simp [living]

/-- The individuals born are those that died and those that live. -/
theorem Lawful.births_eq [Fintype κ] {h : List (Event κ)} (lawful : Lawful h) :
    births h = deaths h + (living h).card := by
  induction lawful with
  | nil => simp [births, deaths, living, age]
  | @tick h _ ih =>
    have same : living (.tick :: h) = living h := by
      ext k
      simp [mem_living, age]
    rw [births, deaths, same, ih]
  | @born h k _ vacant _ ih =>
    have more : living (.born k :: h) = insert k (living h) := by
      ext k'
      simp only [mem_living, age, Finset.mem_insert]
      split_ifs with here <;> simp [here]
    rw [births, deaths, more, Finset.card_insert_of_notMem (by simp [mem_living, vacant]), ih]
    omega
  | @died h k _ occupied ih =>
    have lives : k ∈ living h := by
      rw [mem_living]
      exact Option.ne_none_iff_isSome.1 occupied
    have fewer : living (.died k :: h) = (living h).erase k := by
      ext k'
      simp only [mem_living, age, Finset.mem_erase]
      split_ifs with here <;> simp [here]
    have card := Finset.card_erase_add_one lives
    rw [births, deaths, fewer, ih]
    omega

end Lifetime

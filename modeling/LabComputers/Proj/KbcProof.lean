import LabComputers.Lib.Transition
import LabComputers.Proj.GameLoopProof
import LabComputers.Proj.Kbc

/-!
# Which handler consumes whose bytes

`kbc_ih` tests OBF before AUX: once the buffer is full nothing can replace the byte that AUX is then
read for.  `mouse_ih` tests AUX first, so a keyboard byte that arrives between its two tests, while
AUX is still set for an earlier byte of the mouse, is taken for a byte of the mouse
(`step_window`).  Without such an arrival each handler consumes bytes of its own device only.
-/

namespace LabComputers

open Port

/-! ## The status bits -/

theorem status_bits (kbc : Kbc) (noise : UInt8) :
    (kbc.status noise &&& mouseCheck = 0 ↔ kbc.aux = false) ∧
      (kbc.status noise &&& kbcOutBufFull ≠ 0 ↔ kbc.obf = true) := by
  have table : ∀ (obf aux : Bool) (b : Fin 256),
      ((Kbc.status ⟨obf, aux, 0, .mouse⟩ (UInt8.ofFin b)) &&& mouseCheck = 0 ↔ aux = false) ∧
        ((Kbc.status ⟨obf, aux, 0, .mouse⟩ (UInt8.ofFin b)) &&& kbcOutBufFull ≠ 0 ↔ obf = true) := by
    decide +kernel
  exact table kbc.obf kbc.aux noise.toFin

theorem auxClear_reply (kbc : Kbc) (noise : UInt8) :
    auxClear (kbc.reply noise (.inb kbcStatReg)) ↔ kbc.aux = false := by
  rw [← (status_bits kbc noise).1]
  simp [auxClear, Kbc.reply]

theorem outputFull_reply (kbc : Kbc) (noise : UInt8) :
    outputFull (kbc.reply noise (.inb kbcStatReg)) ↔ kbc.obf = true := by
  rw [← (status_bits kbc noise).2]
  simp [outputFull, Kbc.reply]

/-! ## Where a handler is in its code -/

/-- `mouse_ih` after its OBF test. -/
def mouseAfterObf (g : Globals) : Prog Globals :=
  .io (.inb kbcOutBuf) fun r₂ => .io (.inb kbcStatReg) fun r₃ =>
    .ret (if inError r₃ then clearPacket g else mouseByte r₂.val.toUInt8 (clearPacket g))

/-- `mouse_ih` after its AUX test. -/
def mouseAfterAux (g : Globals) : Prog Globals :=
  .io (.inb kbcStatReg) fun r₁ =>
    if ¬ outputFull r₁ then .ret (clearPacket g) else mouseAfterObf g

/-- `kbc_ih` after its AUX test. -/
def kbcAfterAux (g : Globals) : Prog Globals :=
  .io (.inb kbcOutBuf) fun r₂ => .io (.inb kbcStatReg) fun r₃ =>
    .ret (if inError r₃ then g else kbcScancode r₂.val.toUInt8 g)

/-- `kbc_ih` after its OBF test. -/
def kbcAfterObf (g : Globals) : Prog Globals :=
  .io (.inb kbcStatReg) fun r₁ => if ¬ auxClear r₁ then .ret g else kbcAfterAux g

theorem mouseIh_phases (g : Globals) :
    mouseIh g = .io (.inb kbcStatReg) fun r₀ =>
      if auxClear r₀ then .ret (clearPacket g) else mouseAfterAux g := mouseIh_eq g

theorem kbcIh_phases (g : Globals) :
    kbcIh g = .io (.inb kbcStatReg) fun r₀ =>
      if ¬ outputFull r₀ then .ret g else kbcAfterObf g := kbcIh_eq g

/-- A read of the output buffer. -/
def readsData (op : Op) : Prop := op = .inb kbcOutBuf

/-- What a handler knows about the buffer at each point of its code. -/
inductive Phase (kbc : Kbc) : Device → Prog Globals → Prop
  | mouseStart (g) : Phase kbc .mouse (mouseIh g)
  | mouseAux (g) : (kbc.obf = true → kbc.source = .mouse) → Phase kbc .mouse (mouseAfterAux g)
  | mouseObf (g) : kbc.obf = true → kbc.source = .mouse → Phase kbc .mouse (mouseAfterObf g)
  | kbcStart (g) : Phase kbc .keyboard (kbcIh g)
  | kbcObf (g) : kbc.obf = true → Phase kbc .keyboard (kbcAfterObf g)
  | kbcAux (g) : kbc.obf = true → kbc.source = .keyboard → Phase kbc .keyboard (kbcAfterAux g)
  | done (h p) : p.Avoids readsData → Phase kbc h p

/-- The invariant of the machine. -/
structure Orderly (m : Machine) : Prop where
  aux : m.kbc.obf = true → (m.kbc.aux = true ↔ m.kbc.source = .mouse)
  phase : ∀ h p, m.running = some (h, p) → Phase m.kbc h p
  consumed : ∀ c ∈ m.consumed, c.1 = c.2

/-- `mouse_ih` is between its AUX test, which found AUX set, and its OBF test. -/
def InWindow (m : Machine) : Prop := ∃ g, m.running = some (.mouse, mouseAfterAux g)

/-- The action is the arrival of a keyboard byte in the empty buffer while `mouse_ih` is between its two
tests. -/
def ArrivesInWindow (m : Machine) (a : Action) : Prop :=
  (∃ byte, a = .arrive .keyboard byte) ∧ m.kbc.obf = false ∧ InWindow m

/-! ## Steps -/

namespace Machine

variable {m : Machine} {h : Device}

theorem step_ret {g : Globals} (running : m.running = some (h, .ret g)) (noise : UInt8) :
    m.step (.advance noise) = { m with running := none, game := g } := by
  rw [step, running]

theorem step_other {op : Op} {k : Reply → Prog Globals} (running : m.running = some (h, .io op k))
    (other : ¬ readsData op) (noise : UInt8) :
    m.step (.advance noise) = { m with running := some (h, k (m.kbc.reply noise op)) } := by
  have other' : ¬ op = .inb kbcOutBuf := other
  rw [step, running]
  simp only [access, other', false_and, if_false]

theorem step_data {k : Reply → Prog Globals} (running : m.running = some (h, .io (.inb kbcOutBuf) k))
    (full : m.kbc.obf = true) (noise : UInt8) :
    m.step (.advance noise) =
      { m with
        running := some (h, k (m.kbc.reply noise (.inb kbcOutBuf)))
        kbc := { m.kbc with obf := false }
        consumed := (h, m.kbc.source) :: m.consumed } := by
  rw [step, running]
  simp only [access, full, and_self, if_true]

end Machine

theorem not_readsData_status : ¬ readsData (.inb kbcStatReg) := by
  unfold readsData
  decide

namespace Orderly

variable {m : Machine}

/-- A port access that leaves the controller alone, after which the handler is in the phase given. -/
theorem proceed (o : Orderly m) {h : Device} {p : Prog Globals} (phase : Phase m.kbc h p) :
    Orderly { m with running := some (h, p) } :=
  { o with
    phase := by
      rintro _ _ ⟨⟩
      exact phase }

theorem arrive (o : Orderly m) (source : Device) (byte : UInt8)
    (admitted : ¬ ArrivesInWindow m (.arrive source byte)) :
    Orderly (m.step (.arrive source byte)) := by
  rw [Machine.step]
  by_cases full : m.kbc.obf = true
  · rw [if_pos full]
    exact o
  · rw [if_neg full]
    refine ⟨fun _ => decide_eq_true_iff, fun h p running => ?_, o.consumed⟩
    cases o.phase h p running with
    | mouseStart g => exact .mouseStart g
    | mouseAux g _ =>
      refine .mouseAux g fun _ => ?_
      cases source with
      | mouse => rfl
      | keyboard => exact absurd ⟨⟨byte, rfl⟩, eq_false_of_ne_true full, g, running⟩ admitted
    | mouseObf g full' _ => exact absurd full' full
    | kbcStart g => exact .kbcStart g
    | kbcObf g full' => exact absurd full' full
    | kbcAux g full' _ => exact absurd full' full
    | done _ _ avoids => exact .done _ _ avoids

theorem call (o : Orderly m) (h : Device) : Orderly (m.step (.call h)) := by
  rw [Machine.step]
  cases running : m.running with
  | none =>
    apply o.proceed
    cases h with
    | keyboard => exact .kbcStart _
    | mouse => exact .mouseStart _
  | some _ =>
    simp only
    exact o

/-- A byte is consumed by the handler of the device that sent it. -/
theorem data (o : Orderly m) {h : Device} {k : Reply → Prog Globals}
    (running : m.running = some (h, .io (.inb kbcOutBuf) k)) (full : m.kbc.obf = true)
    (own : m.kbc.source = h) (rest : ∀ r, (k r).Avoids readsData) (noise : UInt8) :
    Orderly (m.step (.advance noise)) := by
  rw [Machine.step_data running full]
  refine ⟨nofun, ?_, ?_⟩
  · rintro _ _ ⟨⟩
    exact .done _ _ (rest _)
  · intro c hc
    rcases List.mem_cons.1 hc with rfl | hc
    · exact own.symm
    · exact o.consumed c hc

theorem advance (o : Orderly m) (noise : UInt8) : Orderly (m.step (.advance noise)) := by
  cases running : m.running with
  | none =>
    rw [Machine.step, running]
    exact o
  | some hp =>
    obtain ⟨h, p⟩ := hp
    cases o.phase h p running with
    | mouseStart g =>
      rw [mouseIh_phases] at running
      rw [Machine.step_other running not_readsData_status]
      apply o.proceed
      split_ifs with clear
      · exact .done _ _ trivial
      · rw [auxClear_reply, Bool.not_eq_false] at clear
        exact .mouseAux g fun full => (o.aux full).1 clear
    | mouseAux g own =>
      rw [mouseAfterAux] at running
      rw [Machine.step_other running not_readsData_status]
      apply o.proceed
      split_ifs with full
      · rw [outputFull_reply] at full
        exact .mouseObf g full (own full)
      · exact .done _ _ trivial
    | mouseObf g full own =>
      exact o.data running full own (fun r => ⟨not_readsData_status, fun _ => trivial⟩) noise
    | kbcStart g =>
      rw [kbcIh_phases] at running
      rw [Machine.step_other running not_readsData_status]
      apply o.proceed
      split_ifs with full
      · rw [outputFull_reply] at full
        exact .kbcObf g full
      · exact .done _ _ trivial
    | kbcObf g full =>
      rw [kbcAfterObf] at running
      rw [Machine.step_other running not_readsData_status]
      apply o.proceed
      split_ifs with clear
      · rw [auxClear_reply] at clear
        apply Phase.kbcAux g full
        cases source : m.kbc.source with
        | keyboard => rfl
        | mouse => simp [(o.aux full).2 source] at clear
      · exact .done _ _ trivial
    | kbcAux g full own =>
      exact o.data running full own (fun r => ⟨not_readsData_status, fun _ => trivial⟩) noise
    | done _ _ avoids =>
      cases p with
      | ret g =>
        rw [Machine.step_ret running]
        exact ⟨o.aux, nofun, o.consumed⟩
      | io op k =>
        rw [Machine.step_other running avoids.1]
        exact o.proceed (.done _ _ (avoids.2 _))

theorem step (o : Orderly m) (a : Action) (admitted : ¬ ArrivesInWindow m a) :
    Orderly (m.step a) := by
  cases a with
  | arrive source byte => exact o.arrive source byte admitted
  | call h => exact o.call h
  | advance noise => exact o.advance noise

end Orderly

/-- A keyboard byte that does arrive there is consumed by `mouse_ih`. -/
theorem step_window {m : Machine} (window : InWindow m) (empty : m.kbc.obf = false) (byte : UInt8) :
    (Transition.run Machine.step m [.arrive .keyboard byte, .advance 0, .advance 0]).consumed =
      (.mouse, .keyboard) :: m.consumed := by
  obtain ⟨g, running⟩ := window
  have arrived : m.step (.arrive .keyboard byte) = { m with kbc := .place .keyboard byte } := by
    rw [Machine.step, empty]
    rfl
  have tested : Machine.step { m with kbc := .place .keyboard byte } (.advance 0) =
      { m with kbc := .place .keyboard byte, running := some (.mouse, mouseAfterObf g) } := by
    rw [Machine.step_other (m := { m with kbc := .place .keyboard byte }) running
      not_readsData_status, if_neg (not_not.2 ((outputFull_reply _ _).2 rfl))]
  rw [Transition.run_cons, Transition.run_cons, Transition.run_cons, Transition.run_nil, arrived,
    tested, Machine.step_data rfl rfl]
  rfl

/-- In every run in which no keyboard byte arrives between the AUX test and the OBF test of
`mouse_ih`, each handler consumes bytes of its own device only. -/
theorem consumed_by_owner {m : Machine} (empty : m.kbc.obf = false) (idle : m.running = none)
    (fresh : m.consumed = []) (actions : List Action)
    (admitted : ∀ pre a post, actions = pre ++ a :: post →
      ¬ ArrivesInWindow (Transition.run Machine.step m pre) a) :
    ∀ c ∈ (Transition.run Machine.step m actions).consumed, c.1 = c.2 := by
  have start : Orderly m := by
    refine ⟨fun full => ?_, fun h p running => ?_, ?_⟩
    · rw [empty] at full
      cases full
    · rw [idle] at running
      cases running
    · rw [fresh]
      exact nofun
  exact (Transition.run_induction_of_admitted Machine.step
    (fun m a admitted o => o.step a admitted) start actions admitted).consumed

/-- The machine before anything has arrived. -/
def quietMachine : Machine := ⟨⟨false, false, 0, .keyboard⟩, loopStart .zero, none, []⟩

/-- A mouse byte arrives and is handled. -/
def mouseByteHandled : List Action :=
  [.arrive .mouse 0x08, .call .mouse, .advance 0, .advance 0, .advance 0, .advance 0, .advance 0]

/-- Both handlers are called, for a byte that is in the buffer. -/
def keyHandled : List Action :=
  [.call .mouse, .advance 0, .advance 0, .call .keyboard, .advance 0, .advance 0, .advance 0,
    .advance 0, .advance 0]

/-- A byte of each device is consumed, and by its own handler. -/
theorem consumed_by_owner_both :
    let m := Transition.run Machine.step quietMachine
      (mouseByteHandled ++ .arrive .keyboard 0x1E :: keyHandled)
    m.consumed.length = 2 ∧ (.mouse, .mouse) ∈ m.consumed ∧ (.keyboard, .keyboard) ∈ m.consumed ∧
      ∀ c ∈ m.consumed, c.1 = c.2 := by
  refine ⟨by decide +kernel, by decide +kernel, by decide +kernel,
    consumed_by_owner rfl rfl rfl _ ?_⟩
  rintro pre a post split ⟨⟨byte, rfl⟩, -, g, running⟩
  obtain rfl : byte = 0x1E := by
    have mem : Action.arrive .keyboard byte ∈
        mouseByteHandled ++ .arrive .keyboard 0x1E :: keyHandled := by
      rw [split]
      simp
    simpa [mouseByteHandled, keyHandled] using mem
  obtain ⟨rfl, -⟩ := (List.append_cons_inj_of_notMem (by decide) (by decide)).1 split
  -- no handler is running when the key arrives
  have idle : (Transition.run Machine.step quietMachine mouseByteHandled).running.isNone = true := by
    decide +kernel
  rw [running] at idle
  cases idle

/-- A mouse byte is handled, the handler is called once more, and a keyboard byte arrives after it has
found AUX still set. -/
def stolenKey : List Action :=
  [.arrive .mouse 0x08, .call .mouse, .advance 0, .advance 0, .advance 0, .advance 0, .advance 0,
    .call .mouse, .advance 0, .arrive .keyboard 0x1e, .advance 0, .advance 0]

theorem stolenKey_consumed :
    ¬ ∀ c ∈ (Transition.run Machine.step quietMachine stolenKey).consumed, c.1 = c.2 := by
  decide +kernel

end LabComputers

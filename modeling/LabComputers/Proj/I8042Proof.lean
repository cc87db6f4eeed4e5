import Mathlib.Algebra.GroupWithZero.Nat
import Mathlib.Data.Finset.Lattice.Fold
import LabComputers.Lab3.CommandByteProof
import LabComputers.Proj.I8042

/-!
# The commands of the drivers on the i8042

The driver polls until the input buffer is empty, and the controller keeps what it has meanwhile
(`wait_iterate`): so a command gets through if the input buffer is not full for too long.  The poll of
`read_ACK_byte` skips the bytes that were in the output buffer or on their way to it before the answer,
and each of its iterations brings the answer nearer (`work`).
-/

namespace LabComputers

open Port

namespace I8042

/-! ## Waiting -/

/-- The bytes that can be read, in their order. -/
def bytes (c : I8042) : List UInt8 := c.output.toList ++ c.coming.map Prod.snd

/-- The number of iterations of `read_ACK_byte` that read them all. -/
def work (c : I8042) : ℕ := (c.coming.map fun a => a.1 + 2).sum + c.output.toList.length

theorem arrive_some (byte : UInt8) (coming : List (ℕ × UInt8)) :
    arrive (some byte) coming = (some byte, coming) := rfl

theorem bytes_wait (c : I8042) : c.wait.bytes = c.bytes := by
  unfold bytes wait arrive
  split <;> simp_all

/-- While a byte is on its way to an empty output buffer, a status read brings it nearer. -/
theorem work_wait_lt {c : I8042} (empty : c.output = none) (more : c.bytes ≠ []) :
    c.wait.work < c.work := by
  unfold bytes at more
  unfold work wait
  rw [empty] at more ⊢
  rcases coming : c.coming with _ | ⟨⟨_ | n, byte⟩, rest⟩
  · rw [coming] at more
    exact absurd rfl more
  · simp [arrive]
    omega
  · simp [arrive]

theorem work_wait_le (c : I8042) : c.wait.work ≤ c.work := by
  by_cases empty : c.output = none
  · by_cases none : c.bytes = []
    · have calm : c.coming = [] := List.map_eq_nil_iff.1 (List.append_eq_nil_iff.1 none).2
      simp [work, wait, empty, calm, arrive]
    · exact (work_wait_lt empty none).le
  · obtain ⟨byte, output⟩ := Option.ne_none_iff_exists'.1 empty
    simp [work, wait, output, arrive]

/-- Status reads bring the bytes nearer and empty the input buffer, and change nothing else. -/
theorem wait_iterate (c : I8042) (n : ℕ) :
    ∃ output coming noise, wait^[n] c =
        { c with full := c.full - n, output := output, coming := coming, noise := noise } ∧
      (wait^[n] c).bytes = c.bytes ∧ (wait^[n] c).work ≤ c.work := by
  induction n with
  | zero => exact ⟨c.output, c.coming, c.noise, rfl, rfl, le_rfl⟩
  | succ n ih =>
    obtain ⟨output, coming, noise, eq, bytes, work⟩ := ih
    rw [Function.iterate_succ_apply']
    refine ⟨(arrive output coming).1, (arrive output coming).2, fun k => noise (k + 1), ?_,
      (bytes_wait _).trans bytes, (work_wait_le _).trans work⟩
    rw [eq, wait]
    simp only [Nat.sub_sub]

/-! ## The accesses -/

theorem status_full (c : I8042) : InputEmpty ⟨0, c.status.toUInt32⟩ ↔ c.full = 0 := by
  have table : ∀ (b : Fin 256) (obf ibf : Bool),
      ((UInt8.ofFin b &&& 0xFC) ||| (if obf then kbcOutBufFull else 0) |||
        (if ibf then kbcInBufFull else 0)) &&& kbcInBufFull = 0 ↔ ibf = false := by
    decide +kernel
  have this := table (c.noise 0).toFin c.output.isSome (decide (c.full ≠ 0))
  simpa [InputEmpty, status] using this

theorem status_ready (c : I8042) :
    c.status.toUInt32.toUInt8 &&& kbcOutBufFull ≠ 0 ↔ c.output.isSome = true := by
  have table : ∀ (b : Fin 256) (obf ibf : Bool),
      ((UInt8.ofFin b &&& 0xFC) ||| (if obf then kbcOutBufFull else 0) |||
        (if ibf then kbcInBufFull else 0)) &&& kbcOutBufFull ≠ 0 ↔ obf = true := by
    decide +kernel
  have this := table (c.noise 0).toFin c.output.isSome (decide (c.full ≠ 0))
  simpa [status] using this

theorem answer_status (c : I8042) :
    c.answer (.inb kbcStatReg) = (⟨0, c.status.toUInt32⟩, c.wait) := rfl

theorem answer_read (c : I8042) :
    c.answer (.inb kbcOutBuf) = (⟨0, c.read.toUInt32⟩, { c with output := none, last := c.read }) := rfl

theorem answer_command (c : I8042) (val : UInt32) :
    c.answer (.outb kbcStatReg val) = (⟨0, 0⟩, c.command val) := rfl

theorem answer_data (c : I8042) (val : UInt32) :
    c.answer (.outb kbcOutBuf val) = (⟨0, 0⟩, c.data val.toUInt8) := rfl

theorem selectMouse_succ (n : ℕ) :
    selectMouse (n + 1) = .io (.inb kbcStatReg) fun r =>
      if InputEmpty r then .io (.outb kbcStatReg wrMouse) fun _ => .ret () else selectMouse n := by
  refine congrArg (Prog.io _) (funext fun r => ?_)
  change (if (if r.val.toUInt8 &&& kbcInBufFull ≠ 0 then true else false) then selectMouse n
    else sysOutb kbcStatReg wrMouse) = _
  rw [full_eq]
  by_cases empty : InputEmpty r
  · rw [decide_eq_true empty, if_pos empty]
    rfl
  · rw [decide_eq_false empty, if_neg empty]
    rfl

theorem serve_utilSysInb (c : I8042) :
    (utilSysInb kbcOutBuf).serve answer c = ((0, c.read), { c with output := none, last := c.read }) := by
  rw [utilSysInb, Prog.serve_io, answer_read, UInt8.toUInt8_toUInt32]
  rfl

/-- `selectMouse` waits for the input buffer and then addresses the mouse. -/
theorem serve_selectMouse {n : ℕ} {c : I8042} (soon : c.full < n) :
    (selectMouse n).serve answer c = ((), (wait^[c.full + 1] c).command wrMouse) := by
  induction n generalizing c with
  | zero => exact absurd soon (Nat.not_lt_zero _)
  | succ n ih =>
    rw [selectMouse_succ, Prog.serve_io, answer_status]
    by_cases empty : c.full = 0
    · rw [if_pos ((status_full c).2 empty), Prog.serve_io, answer_command, empty]
      rfl
    · have next : c.wait.full + 1 = c.full := Nat.sub_add_cancel (Nat.pos_of_ne_zero empty)
      have sooner : c.wait.full < n := by omega
      rw [if_neg (mt (status_full c).1 empty), ih sooner, next, ← Function.iterate_succ_apply]

/-- The controller after a byte was sent to the mouse. -/
def sent (c : I8042) (cmd : UInt8) : I8042 := ((wait^[c.full + 1] c).command wrMouse).data cmd

/-- The byte reaches the mouse, whose answer is the last byte to be read. -/
theorem sent_spec (c : I8042) (cmd : UInt8) :
    ∃ output coming noise, c.sent cmd =
        { c with
          awaits := none, full := c.delays 1, delays := fun k => c.delays (k + 2), output := output,
          coming := coming, mouse := c.mouse.take cmd, noise := noise } ∧
      (c.sent cmd).bytes = c.bytes ++ [(c.mouse.answers 0).2] ∧
      (c.sent cmd).work ≤ c.work + (c.mouse.answers 0).1 + 2 := by
  obtain ⟨output, coming, noise, eq, bytes, work⟩ := c.wait_iterate (c.full + 1)
  have sent : c.sent cmd =
      { c with
        awaits := none, full := c.delays 1, delays := fun k => c.delays (k + 2), output := output,
        coming := coming ++ [c.mouse.answers 0], mouse := c.mouse.take cmd, noise := noise } := by
    rw [I8042.sent, eq]
    rfl
  rw [eq] at bytes work
  refine ⟨_, _, _, sent, ?_, ?_⟩
  · rw [← bytes, sent]
    simp [I8042.bytes]
  · rw [sent]
    simp only [I8042.work, List.map_append, List.sum_append, List.map_singleton,
      List.sum_singleton] at work ⊢
    omega

/-! ## The answer of the mouse -/

/-- The bytes that end the loop of `read_ACK_byte`. -/
def IsAnswer (byte : UInt8) : Prop := byte = ackByte ∨ byte = errorByte ∨ byte = nackByte

/-- What `read_ACK_byte` makes of them. -/
def verdict (byte : UInt8) : ℤ := if byte = ackByte then 0 else if byte = errorByte then -1 else 1

theorem judge_answer (fuel : ℕ) {byte : UInt8} (h : IsAnswer byte) :
    judge fuel byte = .ret (some (verdict byte)) := by
  rcases h with rfl | rfl | rfl <;> rfl

theorem judge_other (fuel : ℕ) {byte : UInt8} (h : ¬ IsAnswer byte) :
    judge fuel byte = readAckByte fuel byte := by
  unfold IsAnswer at h
  push Not at h
  rw [judge, if_neg h.1, if_neg h.2.1, if_neg h.2.2]

/-- `read_ACK_byte` skips the bytes before the answer and reads it. -/
theorem serve_readAckByte {fuel : ℕ} {c : I8042} {ack byte : UInt8} {old : List UInt8}
    (start : ¬ IsAnswer ack) (bytes : c.bytes = old ++ [byte]) (skips : ∀ b ∈ old, ¬ IsAnswer b)
    (ends : IsAnswer byte) (enough : c.work < fuel) :
    ∃ full last noise, full ≤ c.full ∧ (readAckByte fuel ack).serve answer c =
      (some (verdict byte),
        { c with full := full, output := none, last := last, coming := [], noise := noise }) := by
  induction fuel generalizing c ack old with
  | zero => exact absurd enough (Nat.not_lt_zero _)
  | succ fuel ih =>
    rw [readAckByte_succ, Prog.serve_io, answer_status]
    simp only [ne_eq, not_true_eq_false, if_false]
    rcases output : c.output with _ | first
    · have empty : ¬ c.status.toUInt32.toUInt8 &&& kbcOutBufFull ≠ 0 := by
        rw [status_ready, output]
        exact Bool.false_ne_true
      have more : c.bytes ≠ [] := by rw [bytes]; simp
      have nearer := work_wait_lt output more
      obtain ⟨full, last, noise, below, served⟩ := ih start (c.bytes_wait.trans bytes) skips (by omega)
      rw [ne_eq] at empty
      rw [if_neg empty, judge_other _ start, served]
      exact ⟨full, last, noise, below.trans (Nat.sub_le _ _), rfl⟩
    · have ready : c.status.toUInt32.toUInt8 &&& kbcOutBufFull ≠ 0 := by
        rw [status_ready, output]
        rfl
      have wait : c.wait = { c with full := c.full - 1, noise := fun k => c.noise (k + 1) } := by
        rw [I8042.wait, output, arrive_some]
      have read : c.wait.read = first := by rw [wait, I8042.read, output]; rfl
      rw [ne_eq] at ready
      rw [if_pos ready, Prog.serve_io, answer_read, read, UInt8.toUInt8_toUInt32, wait]
      cases old with
      | nil =>
        obtain ⟨rfl, calm⟩ : first = byte ∧ c.coming = [] := by
          simpa [I8042.bytes, output] using bytes
        rw [judge_answer _ ends, Prog.serve_ret]
        exact ⟨c.full - 1, first, _, Nat.sub_le _ _, by rw [calm]⟩
      | cons b old =>
        obtain ⟨rfl, rest⟩ : first = b ∧ c.coming.map Prod.snd = old ++ [byte] := by
          simpa [I8042.bytes, output] using bytes
        obtain ⟨now, later⟩ := List.forall_mem_cons.1 skips
        rw [judge_other _ now]
        have fewer : c.work = (c.coming.map fun a => a.1 + 2).sum + 1 := by rw [work, output]; rfl
        obtain ⟨full, last, noise, below, served⟩ :=
          ih (c := { c with
            full := c.full - 1, output := none, last := first, noise := fun k => c.noise (k + 1) })
            now rest later (by simp only [work, Option.toList_none, List.length_nil]; omega)
        exact ⟨full, last, noise, below.trans (Nat.sub_le _ _), served⟩

/-! ## The exchange of a command -/

/-- The controller is never busy for ten status reads. -/
structure Responsive (c : I8042) : Prop where
  full : c.full < 10
  delays : ∀ k, c.delays k < 10

/-- Only the mouse was spoken to, and every byte was read. -/
structure Undisturbed (c c' : I8042) : Prop where
  keyboard : c'.keyboard = c.keyboard
  commandByte : c'.commandByte = c.commandByte
  responsive : c'.Responsive
  bytes : c'.bytes = []

/-- `cmd` was sent to the mouse `n` times. -/
structure Exchanged (c : I8042) (cmd : UInt8) (n : ℕ) (c' : I8042) : Prop
    extends c.Undisturbed c' where
  mouse : c'.mouse = (Ps2Mouse.take cmd)^[n] c.mouse

theorem Exchanged.work {c c' : I8042} {cmd : UInt8} {n : ℕ} (h : c.Exchanged cmd n c') :
    c'.work = 0 := by
  obtain ⟨output, coming⟩ := List.append_eq_nil_iff.1 h.bytes
  rw [I8042.work, List.map_eq_nil_iff.1 coming, output]
  rfl

theorem serve_sendMouseCommand_succ {cmd : UInt32} {fuel n : ℕ} {acks : ℕ → UInt8} {c : I8042}
    (soon : c.full < 10) :
    (sendMouseCommand cmd fuel (n + 1) acks).serve answer c =
      let answered := (readAckByte fuel (acks 0)).serve answer (c.sent cmd.toUInt8)
      if answered.1 = some 1 then
        (sendMouseCommand cmd fuel n fun k => acks (k + 1)).serve answer answered.2
      else answered := by
  have sent : ((wait^[c.full + 1] c).command wrMouse).data cmd.toUInt8 = c.sent cmd.toUInt8 := rfl
  rw [sendMouseCommand, Prog.serve_bind, serve_selectMouse soon, Prog.serve_bind, sysOutb, Prog.serve_io,
    answer_data, Prog.serve_ret, sent, Prog.serve_bind]
  by_cases again : ((readAckByte fuel (acks 0)).serve answer (c.sent cmd.toUInt8)).1 = some 1
  · simp only [if_pos again]
  · simp only [if_neg again]
    rfl

/-- One round of a command. -/
theorem serve_round (cmd : UInt32) {fuel : ℕ} {ack : UInt8} {c : I8042} (responsive : c.Responsive)
    (start : ¬ IsAnswer ack) (skips : ∀ b ∈ c.bytes, ¬ IsAnswer b)
    (ends : IsAnswer (c.mouse.answers 0).2) (enough : c.work + (c.mouse.answers 0).1 + 2 < fuel) :
    ∃ c', (readAckByte fuel ack).serve answer (c.sent cmd.toUInt8) =
        (some (verdict (c.mouse.answers 0).2), c') ∧
      c.Exchanged cmd.toUInt8 1 c' := by
  obtain ⟨output, coming, noise, sent, bytes, work⟩ := c.sent_spec cmd.toUInt8
  have soon : (c.sent cmd.toUInt8).work < fuel := by omega
  obtain ⟨full, last, noise', below, served⟩ := serve_readAckByte start bytes skips ends soon
  refine ⟨_, served, ?_⟩
  rw [sent] at below ⊢
  exact ⟨⟨rfl, rfl,
    ⟨below.trans_lt (responsive.delays 1), fun k => responsive.delays (k + 2)⟩, rfl⟩, rfl⟩

/-- A command is sent until the mouse does not ask for it again, and its last answer decides the
result. -/
theorem serve_sendMouseCommand {cmd : UInt32} {fuel rounds n : ℕ} {acks : ℕ → UInt8} {c : I8042}
    (responsive : c.Responsive) (start : ∀ k, ¬ IsAnswer (acks k)) (skips : ∀ b ∈ c.bytes, ¬ IsAnswer b)
    (again : ∀ k < n, (c.mouse.answers k).2 = nackByte)
    (final : (c.mouse.answers n).2 = ackByte ∨ (c.mouse.answers n).2 = errorByte) (more : n < rounds)
    (enough : ∀ k ≤ n, c.work + (c.mouse.answers k).1 + 2 < fuel) :
    ∃ c', (sendMouseCommand cmd fuel rounds acks).serve answer c =
        (some (verdict (c.mouse.answers n).2), c') ∧
      c.Exchanged cmd.toUInt8 (n + 1) c' := by
  induction n generalizing c acks rounds with
  | zero =>
    obtain ⟨rounds, rfl⟩ := Nat.exists_eq_succ_of_ne_zero (Nat.ne_of_gt more)
    have ends : IsAnswer (c.mouse.answers 0).2 := final.imp id .inl
    obtain ⟨c', served, exchanged⟩ :=
      serve_round cmd responsive (start 0) skips ends (enough 0 le_rfl)
    have last : verdict (c.mouse.answers 0).2 ≠ 1 := by
      rcases final with e | e <;> rw [e] <;> decide
    rw [serve_sendMouseCommand_succ responsive.full, served]
    exact ⟨c', if_neg fun e => last (Option.some_inj.1 e), exchanged⟩
  | succ n ih =>
    obtain ⟨rounds, rfl⟩ := Nat.exists_eq_succ_of_ne_zero (Nat.ne_of_gt (Nat.zero_lt_of_lt more))
    have nack := again 0 (Nat.succ_pos n)
    have ends : IsAnswer (c.mouse.answers 0).2 := .inr (.inr nack)
    obtain ⟨c₁, served, first⟩ :=
      serve_round cmd responsive (start 0) skips ends (enough 0 (Nat.zero_le _))
    have answers (k : ℕ) : c₁.mouse.answers k = c.mouse.answers (k + 1) := by rw [first.mouse]; rfl
    have fewer : n < rounds := by omega
    obtain ⟨c₂, served₂, rest⟩ :=
      ih (c := c₁) first.responsive
        (fun k => start (k + 1))
        (by rw [first.bytes]; exact fun b mem => absurd mem List.not_mem_nil)
        (fun k hk => by rw [answers]; exact again (k + 1) (by omega))
        (by rw [answers]; exact final) fewer
        (fun k hk => by
          have next := enough (k + 1) (by omega)
          rw [answers, first.work]
          omega)
    rw [serve_sendMouseCommand_succ responsive.full, served, nack]
    refine ⟨c₂, ?_, ⟨rest.keyboard.trans first.keyboard, rest.commandByte.trans first.commandByte,
      rest.responsive, rest.bytes⟩, ?_⟩
    · rw [← answers n]
      exact (if_pos rfl).trans served₂
    · rw [rest.mouse, first.mouse, ← Function.iterate_add_apply]

/-! ## Enabling and disabling the data reporting -/

theorem take_iterate (cmd : UInt8) (m : Ps2Mouse) (n : ℕ) :
    ((Ps2Mouse.take cmd)^[n] m).received = m.received ++ List.replicate n cmd ∧
      ∀ k, ((Ps2Mouse.take cmd)^[n] m).answers k = m.answers (n + k) := by
  induction n with
  | zero => exact ⟨(List.append_nil _).symm, fun k => by rw [Nat.zero_add]; rfl⟩
  | succ n ih =>
    rw [Function.iterate_succ_apply']
    refine ⟨?_, fun k => ?_⟩
    · rw [Ps2Mouse.take, ih.1, List.replicate_succ', List.append_assoc]
    · rw [Ps2Mouse.take, ih.2, Nat.add_right_comm n 1 k, Nat.add_assoc]

/-- From its answer `k` on the mouse asks `n` times to send the command again, and then accepts or
rejects it. -/
structure Settles (m : Ps2Mouse) (k n : ℕ) : Prop where
  again : ∀ i < n, (m.answers (k + i)).2 = nackByte
  final : (m.answers (k + n)).2 = ackByte ∨ (m.answers (k + n)).2 = errorByte

theorem reporting_iterate {m : Ps2Mouse} {n : ℕ} (settles : Settles m 0 n) (cmd : UInt8) :
    ((Ps2Mouse.take cmd)^[n + 1] m).reporting =
      if (m.answers n).2 ≠ ackByte then m.reporting
      else if cmd = dataReport.toUInt8 then true
      else if cmd = disable.toUInt8 then false
      else m.reporting := by
  have kept : ∀ i ≤ n, ((Ps2Mouse.take cmd)^[i] m).reporting = m.reporting := by
    intro i below
    induction i with
    | zero => rfl
    | succ i ih =>
      have nack := settles.again i (by omega)
      rw [Nat.zero_add] at nack
      rw [Function.iterate_succ_apply', Ps2Mouse.take, (take_iterate cmd m i).2 0, Nat.add_zero, nack]
      simp only
      rw [if_pos (by decide), ih (by omega)]
  rw [Function.iterate_succ_apply', Ps2Mouse.take, (take_iterate cmd m n).2 0, Nat.add_zero,
    kept n le_rfl]

theorem exists_enough (f : ℕ → ℕ) (n : ℕ) : ∃ N, ∀ k ≤ n, f k < N :=
  ⟨(Finset.range (n + 1)).sup f + 1, fun _ below =>
    Nat.lt_succ_of_le (Finset.le_sup (Finset.mem_range.2 (Nat.lt_succ_of_le below)))⟩

section Reporting

variable {c : I8042} {acks acks' : ℕ → UInt8} {n n' : ℕ}

/-- The first of the two commands of `_mouse_enable_data_reporting_`, or the one of
`mouse_disable_data_reporting`. -/
theorem exists_exchanged (cmd : UInt32) (responsive : c.Responsive) (start : ∀ k, ¬ IsAnswer (acks k))
    (skips : ∀ b ∈ c.bytes, ¬ IsAnswer b) (settles : Settles c.mouse 0 n) {fuel : ℕ} (more : n < fuel)
    (enough : ∀ k ≤ n, c.work + (c.mouse.answers k).1 + 2 < fuel) :
    ∃ c', (sendMouseCommand cmd fuel fuel acks).serve answer c =
        (some (verdict (c.mouse.answers n).2), c') ∧
      c.Exchanged cmd.toUInt8 (n + 1) c' := by
  have again := settles.again
  have final := settles.final
  simp only [Nat.zero_add] at again final
  exact serve_sendMouseCommand responsive start skips again final more enough

/-- On a controller that is never busy for long, with nothing on its way that looks like an answer, the
mouse is sent exactly STREAM_MODE, until it stops asking for it again, and then DATA_REPORT if it
accepted that; the result tells about STREAM_MODE only, and the mouse reports its data when both are
accepted. -/
theorem mouseEnable_delivered (responsive : c.Responsive) (skips : ∀ b ∈ c.bytes, ¬ IsAnswer b)
    (start : ∀ k, ¬ IsAnswer (acks k)) (start' : ∀ k, ¬ IsAnswer (acks' k))
    (first : Settles c.mouse 0 n)
    (second : (c.mouse.answers n).2 = ackByte → Settles c.mouse (n + 1) n') :
    ∃ N, ∀ fuel ≥ N, ∃ c',
      (mouseEnableDataReporting fuel acks acks').serve answer c =
        (some (if (c.mouse.answers n).2 = ackByte then 0 else 1), c') ∧
      c.Undisturbed c' ∧
      c'.mouse.received = c.mouse.received ++ List.replicate (n + 1) streamMode.toUInt8 ++
        (if (c.mouse.answers n).2 = ackByte then List.replicate (n' + 1) dataReport.toUInt8 else []) ∧
      (c'.mouse.reporting = true ↔ c.mouse.reporting = true ∨
        (c.mouse.answers n).2 = ackByte ∧ (c.mouse.answers (n + 1 + n')).2 = ackByte) := by
  obtain ⟨N, large⟩ := exists_enough (fun k => c.work + (c.mouse.answers k).1 + 2 + k) (n + 1 + n')
  refine ⟨N, fun fuel enough => ?_⟩
  have more : n + n' < fuel := by
    have last := large (n + 1 + n') le_rfl
    omega
  have enough₁ : ∀ k ≤ n, c.work + (c.mouse.answers k).1 + 2 < fuel := fun k below => by
    have next := large k (by omega)
    omega
  obtain ⟨c₁, served, stream⟩ := exists_exchanged streamMode responsive start skips first
    (Nat.lt_of_le_of_lt (Nat.le_add_right n n') more) enough₁
  have received := take_iterate streamMode.toUInt8 c.mouse (n + 1)
  have reporting := reporting_iterate first streamMode.toUInt8
  rw [← stream.mouse] at received reporting
  have same : c₁.mouse.reporting = c.mouse.reporting := by
    rw [reporting, if_neg (show streamMode.toUInt8 ≠ dataReport.toUInt8 by decide),
      if_neg (show streamMode.toUInt8 ≠ disable.toUInt8 by decide), ite_self]
  rw [mouseEnableDataReporting, Prog.serve_bind, served]
  rcases first.final with acked | failed
  · rw [Nat.zero_add] at acked
    have settles : Settles c₁.mouse 0 n' := by
      obtain ⟨again, final⟩ := second acked
      refine ⟨fun i below => ?_, ?_⟩
      · rw [received.2, Nat.zero_add]
        exact again i below
      · rw [received.2, Nat.zero_add]
        exact final
    have skips₁ : ∀ b ∈ c₁.bytes, ¬ IsAnswer b := by
      rw [stream.bytes]
      exact fun b mem => absurd mem List.not_mem_nil
    have enough₂ : ∀ k ≤ n', c₁.work + (c₁.mouse.answers k).1 + 2 < fuel := fun k below => by
      have next := large (n + 1 + k) (by omega)
      rw [stream.work, received.2]
      omega
    obtain ⟨c₂, served₂, data⟩ := exists_exchanged dataReport stream.responsive start' skips₁ settles
      (Nat.lt_of_le_of_lt (Nat.le_add_left n' n) more) enough₂
    have received₂ := take_iterate dataReport.toUInt8 c₁.mouse (n' + 1)
    have reporting₂ := reporting_iterate settles dataReport.toUInt8
    rw [← data.mouse] at received₂ reporting₂
    refine ⟨c₂, ?_, ⟨data.keyboard.trans stream.keyboard, data.commandByte.trans stream.commandByte,
      data.responsive, data.bytes⟩, ?_, ?_⟩
    · have rest : (sendMouseCommand dataReport fuel fuel acks' >>= fun r =>
          if r = none then pure none else pure (some 0) : Prog (Option ℤ)).serve answer c₁ =
            (some 0, c₂) := by
        rw [Prog.serve_bind, served₂]
        rfl
      rw [acked]
      exact rest
    · rw [received₂.1, received.1, if_pos acked]
    · rw [reporting₂, same, received.2]
      by_cases accepted : (c.mouse.answers (n + 1 + n')).2 = ackByte
      · rw [if_neg (not_not.2 accepted), if_pos rfl]
        exact ⟨fun _ => .inr ⟨acked, accepted⟩, fun _ => rfl⟩
      · rw [if_pos accepted]
        exact ⟨.inl, fun h => h.resolve_right fun h => accepted h.2⟩
  · rw [Nat.zero_add] at failed
    have rejected : (c.mouse.answers n).2 ≠ ackByte := by rw [failed]; decide
    refine ⟨c₁, ?_, stream.toUndisturbed, ?_, ?_⟩
    · rw [failed]
      rfl
    · rw [received.1, if_neg rejected, List.append_nil]
    · rw [same]
      exact ⟨.inl, fun h => h.resolve_right fun h => rejected h.1⟩

/-- Two bytes of a packet are still to be read, and the mouse asks for the first command once again. -/
def chatty : I8042 where
  commandByte := 0x46
  lag := 0
  awaits := none
  full := 3
  delays _ := 2
  output := some 0x08
  last := 0
  coming := [(4, 0x05)]
  keyboard := []
  mouse := ⟨[], fun k => (k, if k = 0 then nackByte else ackByte), false⟩
  noise _ := 0x1C

theorem chatty_responsive : chatty.Responsive := ⟨by decide, fun _ => show 2 < 10 by decide⟩

theorem chatty_skips : ∀ b ∈ chatty.bytes, ¬ IsAnswer b := by
  unfold IsAnswer
  exact List.forall_mem_cons.2 ⟨by decide, List.forall_mem_singleton.2 (by decide)⟩

theorem chatty_settles : Settles chatty.mouse 0 1 :=
  ⟨fun i below => by obtain rfl := Nat.lt_one_iff.1 below; rfl, .inl rfl⟩

theorem zero_not_answer (_ : ℕ) : ¬ IsAnswer 0 := by
  unfold IsAnswer
  decide

theorem mouseEnable_delivered_chatty : ∃ N, ∀ fuel ≥ N, ∃ c',
    (mouseEnableDataReporting fuel (fun _ => 0) fun _ => 0).serve answer chatty = (some 0, c') ∧
      c'.mouse.received = [0xEA, 0xEA, 0xF4] ∧ c'.mouse.reporting = true := by
  have accepts : Settles chatty.mouse (1 + 1) 0 :=
    ⟨fun i below => absurd below (Nat.not_lt_zero i), .inl rfl⟩
  obtain ⟨N, delivered⟩ := mouseEnable_delivered chatty_responsive chatty_skips zero_not_answer
    zero_not_answer chatty_settles fun _ => accepts
  refine ⟨N, fun fuel enough => ?_⟩
  obtain ⟨c', served, -, received, reporting⟩ := delivered fuel enough
  exact ⟨c', served, received, reporting.2 (.inr ⟨rfl, rfl⟩)⟩

/-- `mouse_disable_data_reporting` likewise: the unread bytes of packets are not taken for the answer,
the mouse is sent DISABLE only, and it goes on reporting its data if and only if it rejects that. -/
theorem mouseDisable_delivered (responsive : c.Responsive) (skips : ∀ b ∈ c.bytes, ¬ IsAnswer b)
    (start : ∀ k, ¬ IsAnswer (acks k)) (settles : Settles c.mouse 0 n) (mode : ℤ) :
    ∃ N, ∀ fuel ≥ N, ∃ c',
      (mouseDisableDataReporting mode fuel acks).serve answer c =
        (some (verdict (c.mouse.answers n).2), c') ∧
      c.Undisturbed c' ∧
      c'.mouse.received = c.mouse.received ++ List.replicate (n + 1) disable.toUInt8 ∧
      (c'.mouse.reporting = true ↔
        c.mouse.reporting = true ∧ (c.mouse.answers n).2 = errorByte) := by
  obtain ⟨N, large⟩ := exists_enough (fun k => c.work + (c.mouse.answers k).1 + 2 + k) n
  refine ⟨N, fun fuel enough => ?_⟩
  have more : n < fuel := by
    have last := large n le_rfl
    omega
  have enough₁ : ∀ k ≤ n, c.work + (c.mouse.answers k).1 + 2 < fuel := fun k below => by
    have next := large k below
    omega
  obtain ⟨c', served, exchanged⟩ :=
    exists_exchanged disable responsive start skips settles more enough₁
  have received := (take_iterate disable.toUInt8 c.mouse (n + 1)).1
  have reporting := reporting_iterate settles disable.toUInt8
  rw [← exchanged.mouse] at received reporting
  refine ⟨c', served, exchanged.toUndisturbed, received, ?_⟩
  have final := settles.final
  rw [Nat.zero_add] at final
  rw [reporting]
  rcases final with acked | failed
  · rw [acked, if_neg (not_not.2 rfl), if_neg (by decide), if_pos rfl]
    exact ⟨fun h => absurd h (by decide), fun h => absurd h.2 (by decide)⟩
  · rw [failed, if_pos (by decide)]
    exact ⟨fun h => ⟨h, rfl⟩, And.left⟩

theorem mouseDisable_delivered_chatty : ∃ N, ∀ fuel ≥ N, ∃ c',
    (mouseDisableDataReporting 1 fuel fun _ => 0).serve answer chatty = (some 0, c') ∧
      c'.mouse.received = [0xF5, 0xF5] ∧ c'.mouse.reporting = false := by
  obtain ⟨N, delivered⟩ := mouseDisable_delivered (n := 1) chatty_responsive chatty_skips
    zero_not_answer chatty_settles 1
  refine ⟨N, fun fuel enough => ?_⟩
  obtain ⟨c', served, -, received, reporting⟩ := delivered fuel enough
  refine ⟨c', served, received, Bool.eq_false_iff.2 fun still => ?_⟩
  exact absurd (reporting.1 still).1 Bool.false_ne_true

end Reporting

/-! ## Enabling the interrupts of the keyboard -/

/-- The byte that is in the output buffer when the input buffer is found empty. -/
def waiting (c : I8042) : Option UInt8 := (wait^[c.full + 1] c).output

/-- What `read_command_byte` reads: it does not wait for the command byte to arrive. -/
def fetched (c : I8042) : UInt8 := c.waiting.getD (if c.lag = 0 then c.commandByte else c.last)

/-- What `enable_interrupts` takes the new command byte to be. -/
def enabling (c : I8042) : UInt8 := c.fetched ||| kbcCommandEnableInterrupts

/-- The bytes that `read_command_byte` leaves to be read: the command byte is one of them, unless it was
the byte that it read. -/
def leftover (c : I8042) : List UInt8 :=
  if c.waiting = none ∧ c.lag = 0 then c.bytes
  else c.commandByte :: c.bytes.drop c.waiting.toList.length

/-- The new command byte is set if the controller is ready for it in time, and else it is sent to the
keyboard. -/
structure Enabled (c c' : I8042) : Prop where
  commandByte : c'.commandByte = if c.delays 0 < 100000 then c.enabling else c.commandByte
  keyboard : c'.keyboard = if c.delays 0 < 100000 then c.keyboard else c.keyboard ++ [c.enabling]
  bytes : c'.bytes = c.leftover
  mouse : c'.mouse = c.mouse

section CommandByte

open CommandByte

variable {σ : Type} {inputFull : σ → Prog (Bool × σ)} {count : σ → σ}
variable (polls : Polls inputFull count)
include polls

theorem serve_readLoop {fuel : ℕ} {c : I8042} (g : σ) (soon : c.full < fuel) :
    ∃ g', (readLoop inputFull fuel 0 g).serve answer c =
      (some g', (wait^[c.full + 1] c).command kbcReadCmdByte) := by
  induction fuel generalizing c g with
  | zero => exact absurd soon (Nat.not_lt_zero _)
  | succ fuel ih =>
    rw [readLoop_succ polls, Prog.serve_io, answer_status]
    by_cases empty : c.full = 0
    · rw [if_pos ((status_full c).2 empty), Prog.serve_io, answer_command, empty]
      exact ⟨_, rfl⟩
    · have next : c.wait.full + 1 = c.full := Nat.sub_add_cancel (Nat.pos_of_ne_zero empty)
      obtain ⟨g', served⟩ := ih (c := c.wait) (count g) (by omega)
      rw [if_neg (mt (status_full c).1 empty), served, next, ← Function.iterate_succ_apply]
      exact ⟨g', rfl⟩

theorem serve_writeLoop {fuel counterCycles : ℕ} {c : I8042} (g : σ) (bound : counterCycles ≤ 100000)
    (enough : 100000 < fuel + counterCycles) :
    ∃ g', (writeLoop inputFull fuel counterCycles g).serve answer c =
      (some g', if c.full + counterCycles < 100000 then (wait^[c.full + 1] c).command kbcWriteCmdByte
        else wait^[100000 - counterCycles] c) := by
  induction fuel generalizing counterCycles c g with
  | zero => omega
  | succ fuel ih =>
    rw [writeLoop_succ polls]
    by_cases more : counterCycles < 100000
    · rw [if_pos more, Prog.serve_io, answer_status]
      by_cases empty : c.full = 0
      · rw [if_pos ((status_full c).2 empty), Prog.serve_io, answer_command, empty,
          if_pos (show 0 + counterCycles < 100000 by omega)]
        exact ⟨_, rfl⟩
      · have next : c.wait.full + 1 = c.full := Nat.sub_add_cancel (Nat.pos_of_ne_zero empty)
        have total : c.wait.full + (counterCycles + 1) = c.full + counterCycles := by omega
        have cycles : 100000 - counterCycles = 100000 - (counterCycles + 1) + 1 := by omega
        have bound' : counterCycles + 1 ≤ 100000 := more
        obtain ⟨g', served⟩ := ih (c := c.wait) (count g) bound' (by omega)
        rw [if_neg (mt (status_full c).1 empty), served, total, next, cycles]
        exact ⟨g', rfl⟩
    · rw [if_neg more, if_neg (show ¬ c.full + counterCycles < 100000 by omega),
        Nat.sub_eq_zero_of_le (by omega)]
      exact ⟨g, rfl⟩

/-- `read_command_byte` reads the byte that is waiting, if there is one, in place of the command byte,
and the last byte once more if the command byte has not arrived. -/
theorem serve_readCommandByte (tick : σ → σ) {fuel : ℕ} {c : I8042} (g : σ) (soon : c.full < fuel) :
    ∃ g' coming noise last, (readCommandByte inputFull tick fuel g).serve answer c =
      (some (c.fetched, g'),
        { c with
          awaits := none, full := c.delays 0, delays := fun k => c.delays (k + 1), output := none,
          last := last, coming := coming, noise := noise }) ∧
      coming.map Prod.snd = c.leftover := by
  obtain ⟨output, coming, noise, eq, bytes, -⟩ := c.wait_iterate (c.full + 1)
  obtain ⟨g', served⟩ := serve_readLoop polls g soon
  have waiting : c.waiting = output := by rw [I8042.waiting, eq]
  rw [eq] at bytes
  rw [readCommandByte, Prog.serve_bind, served, eq, fetched, leftover, waiting, ← bytes]
  simp only
  rw [Prog.serve_bind, serve_utilSysInb, command, if_pos rfl]
  simp only
  cases output with
  | none =>
    by_cases now : c.lag = 0
    · rw [if_pos ⟨rfl, now⟩, if_pos now, if_pos ⟨rfl, now⟩]
      exact ⟨tick g', coming, noise, c.commandByte, rfl, rfl⟩
    · rw [if_neg fun both => now both.2, if_neg now, if_neg fun both => now both.2]
      exact ⟨tick g', (c.lag - 1, c.commandByte) :: coming, noise, c.last, rfl, rfl⟩
  | some byte =>
    have there : ¬ (some byte = none ∧ c.lag = 0) := fun both => Option.some_ne_none byte both.1
    rw [if_neg there, if_neg there]
    exact ⟨tick g', (c.lag - 1, c.commandByte) :: coming, noise, byte, rfl, rfl⟩

theorem serve_enableInterrupts (tick : σ → σ) {fuel : ℕ} {c : I8042} (g : σ) (soon : c.full < fuel)
    (enough : 100000 < fuel) :
    ∃ g' c', (CommandByte.enableInterrupts inputFull tick fuel g).serve answer c = (some g', c') ∧
      c.Enabled c' := by
  obtain ⟨g₁, coming, noise, last, read, left⟩ := serve_readCommandByte polls tick g soon
  rw [CommandByte.enableInterrupts, Prog.serve_bind, read]
  simp only
  generalize written : ({ c with
    awaits := none, full := c.delays 0, delays := fun k => c.delays (k + 1), output := none,
    last := last, coming := coming, noise := noise } : I8042) = c₁
  obtain ⟨g₂, served⟩ := serve_writeLoop polls (c := c₁) g₁ (Nat.zero_le _) enough
  have full : c₁.full = c.delays 0 := by rw [← written]
  have bytes₁ : c₁.bytes = c.leftover := by rw [← written, ← left]; rfl
  rw [writeCommandByte, Prog.serve_bind, served, full, Nat.add_zero]
  simp only
  rw [Prog.serve_bind, sysOutb, Prog.serve_io, answer_data, UInt8.toUInt8_toUInt32]
  refine ⟨g₂, _, rfl, ?_⟩
  by_cases quick : c.delays 0 < 100000
  · obtain ⟨output, coming, noise, eq, bytes, -⟩ := c₁.wait_iterate (c.delays 0 + 1)
    have read : output.toList ++ coming.map Prod.snd = c.leftover := by
      rw [← bytes₁, ← bytes, eq, I8042.bytes]
    rw [if_pos quick, eq, ← written]
    exact ⟨(if_pos quick).symm, (if_pos quick).symm, read, rfl⟩
  · obtain ⟨output, coming, noise, eq, bytes, -⟩ := c₁.wait_iterate 100000
    have read : output.toList ++ coming.map Prod.snd = c.leftover := by
      rw [← bytes₁, ← bytes, eq, I8042.bytes]
    rw [if_neg quick, Nat.sub_zero, eq, ← written]
    exact ⟨(if_neg quick).symm, (if_neg quick).symm, read, rfl⟩

end CommandByte

/-- Both copies of `enable_interrupts` set bit 0 of the byte that is waiting to be read.  If none is, it is
the command byte if that arrives at once, and else the byte that was read last, because nothing polls
the output buffer; in these two cases the command byte is left to be read.  They write the result as the
command byte if the controller takes less than 100000 status reads to be ready, and send it to the
keyboard otherwise. -/
theorem enableInterrupts_commandByte (c : I8042) (g : Lab3.Globals) {fuel : ℕ} (soon : c.full < fuel)
    (enough : 100000 < fuel) :
    (∃ g' c', (Lab3.enableInterrupts fuel g).serve answer c = (some g', c') ∧ c.Enabled c') ∧
      ∃ c', (LabComputers.enableInterrupts fuel ()).serve answer c = (some (), c') ∧ c.Enabled c' := by
  obtain ⟨⟨⟩, c', served, enabled⟩ := serve_enableInterrupts pollInput_polls id () soon enough
  exact ⟨serve_enableInterrupts Lab3.kbcIntputBufFull_polls _ g soon enough, c', served, enabled⟩

/-- A controller that nothing was waiting in. -/
def unread : I8042 := { chatty with output := none, coming := [] }

theorem enableInterrupts_commandByte_unread :
    (∃ c', (LabComputers.enableInterrupts 100001 ()).serve answer unread = (some (), c') ∧
        c'.commandByte = 0x47 ∧ c'.keyboard = []) ∧
      ∃ c', (LabComputers.enableInterrupts 100001 ()).serve answer { unread with lag := 1 } =
          (some (), c') ∧
        c'.commandByte = 0x01 ∧ c'.bytes = [0x46] := by
  have quick : unread.delays 0 < 100000 := show 2 < 100000 by decide
  refine ⟨?_, ?_⟩
  · obtain ⟨-, c', served, enabled⟩ := enableInterrupts_commandByte unread ⟨0, false, false, []⟩
      (show unread.full < 100001 by decide) (by decide)
    refine ⟨c', served, ?_, ?_⟩
    · rw [enabled.commandByte, if_pos quick]
      rfl
    · rw [enabled.keyboard, if_pos quick]
      rfl
  · obtain ⟨-, c', served, enabled⟩ := enableInterrupts_commandByte { unread with lag := 1 }
      ⟨0, false, false, []⟩ (show unread.full < 100001 by decide) (by decide)
    refine ⟨c', served, ?_, enabled.bytes⟩
    rw [enabled.commandByte]
    exact if_pos quick

end I8042

end LabComputers

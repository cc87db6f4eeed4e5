import LabComputers.Proj.MouseCommand

/-!
# The mouse set-up commands

The accesses of a call are read as events: the writes, and the bytes received from a full output
buffer (`portEvents`).  A round of `sendMouseCommand` selects the mouse, unless all ten polls find
the input buffer full, sends the command and receives bytes until one decides.
-/

namespace LabComputers

open Port

/-! ## Events -/

/-- A write, with whether the access just before it was a status read that showed an empty input
buffer; or a byte read from the output buffer just after a status read that showed it full. -/
inductive PortEvent where
  | sent (port : ℕ) (val : UInt32) (empty : Bool)
  | received (byte : UInt8)
  deriving DecidableEq

/-- The status shows an empty input buffer. -/
def InputEmpty (r : Reply) : Prop := r.val.toUInt8 &&& kbcInBufFull = 0

/-- The status was read and shows a full output buffer. -/
def DataReady (r : Reply) : Prop := r.res = 0 ∧ r.val.toUInt8 &&& kbcOutBufFull ≠ 0

instance (r : Reply) : Decidable (InputEmpty r) := by
  unfold InputEmpty
  infer_instance

instance (r : Reply) : Decidable (DataReady r) := by
  unfold DataReady
  infer_instance

/-- The events of an access; `last` is the reply to the access before it, if that was a status
read. -/
def observe (last : Option Reply) (a : Op × Reply) : List PortEvent :=
  match a.1 with
  | .outb port val => [.sent port val (last.any fun r => InputEmpty r)]
  | .inb port =>
    if port = kbcOutBuf ∧ last.any fun r => DataReady r then [.received a.2.val.toUInt8] else []

/-- The reply to an access, if it is a status read. -/
def statusReply (a : Op × Reply) : Option Reply := if a.1 = .inb kbcStatReg then some a.2 else none

/-- The events of a sequence of accesses. -/
def portEvents : Option Reply → List (Op × Reply) → List PortEvent
  | _, [] => []
  | last, a :: trace => observe last a ++ portEvents (statusReply a) trace

/-- The reply to the last access, if it is a status read. -/
def lastStatus : Option Reply → List (Op × Reply) → Option Reply
  | last, [] => last
  | _, a :: trace => lastStatus (statusReply a) trace

theorem portEvents_append (last : Option Reply) (t t' : List (Op × Reply)) :
    portEvents last (t ++ t') = portEvents last t ++ portEvents (lastStatus last t) t' := by
  induction t generalizing last with
  | nil => rfl
  | cons a t ih =>
    rw [List.cons_append, portEvents, ih, portEvents, lastStatus, List.append_assoc]

/-! ## Selecting the mouse -/

theorem trace_selectMouse (n : ℕ) (rs : ℕ → Reply) :
    (selectMouse (n + 1)).trace rs = (.inb kbcStatReg, rs 0) ::
      if InputEmpty (rs 0) then [(.outb kbcStatReg wrMouse, rs 1)]
      else (selectMouse n).trace fun k => rs (k + 1) := by
  by_cases empty : InputEmpty (rs 0)
  · have clear : (rs 0).val.toUInt8 &&& kbcInBufFull = 0 := empty
    rw [if_pos empty]
    simp [selectMouse, kbcInputBufFull, utilSysInb, sysOutb] at clear ⊢
    simp [clear]
  · have busy : ¬ (rs 0).val.toUInt8 &&& kbcInBufFull = 0 := empty
    rw [if_neg empty]
    simp [selectMouse, kbcInputBufFull, utilSysInb] at busy ⊢
    simp [busy]

/-- The mouse is selected if one of `n` polls finds the input buffer empty. -/
def selection (n : ℕ) (rs : ℕ → Reply) : List PortEvent :=
  if ∃ k < n, InputEmpty (rs k) then [.sent kbcStatReg wrMouse true] else []

theorem portEvents_selectMouse (n : ℕ) (rs : ℕ → Reply) (last : Option Reply) :
    portEvents last ((selectMouse n).trace rs) = selection n rs := by
  induction n generalizing rs last with
  | zero => simp [selectMouse, portEvents, selection]
  | succ n ih =>
    simp only [trace_selectMouse, selection, Nat.exists_lt_succ_left]
    by_cases empty : InputEmpty (rs 0)
    · simp [portEvents, observe, statusReply, empty]
    · simp [portEvents, observe, statusReply, empty, ih, selection]

/-! ## Waiting for the answer -/

/-- The uninitialised byte is an ACK and the first status shows an empty output buffer, so that the
byte is taken for the answer. -/
def StaleAck (ack : UInt8) (rs : ℕ → Reply) : Prop :=
  ack = ackByte ∧ (rs 0).res = 0 ∧ ¬ DataReady (rs 0)

/-- The tests at the end of an iteration of `read_ACK_byte`. -/
def judge (fuel : ℕ) (ack : UInt8) : Prog (Option ℤ) :=
  if ack = ackByte then .ret (some 0)
  else if ack = errorByte then .ret (some (-1))
  else if ack = nackByte then .ret (some 1)
  else readAckByte fuel ack

theorem readAckByte_succ (fuel : ℕ) (ack : UInt8) :
    readAckByte (fuel + 1) ack = .io (.inb kbcStatReg) fun r =>
      if r.res ≠ 0 then .ret (some (-1))
      else if r.val.toUInt8 &&& kbcOutBufFull ≠ 0 then
        .io (.inb kbcOutBuf) fun r => judge fuel r.val.toUInt8
      else judge fuel ack := rfl

section Iteration

variable (fuel : ℕ) (ack : UInt8) {rs : ℕ → Reply}

theorem readAckByte_failed (failed : (rs 0).res ≠ 0) :
    (readAckByte (fuel + 1) ack).trace rs = [(.inb kbcStatReg, rs 0)] ∧
      (readAckByte (fuel + 1) ack).value rs = some (-1) := by
  rw [readAckByte_succ, Prog.value, Prog.trace_io, Prog.exec_io, if_pos failed]
  exact ⟨rfl, rfl⟩

theorem readAckByte_ready (ready : DataReady (rs 0)) :
    (readAckByte (fuel + 1) ack).trace rs = (.inb kbcStatReg, rs 0) :: (.inb kbcOutBuf, rs 1) ::
        (judge fuel (rs 1).val.toUInt8).trace (fun k => rs (k + 2)) ∧
      (readAckByte (fuel + 1) ack).value rs =
        (judge fuel (rs 1).val.toUInt8).value fun k => rs (k + 2) := by
  rw [readAckByte_succ, Prog.value, Prog.trace_io, Prog.exec_io, if_neg (not_not.2 ready.1),
    if_pos ready.2]
  exact ⟨rfl, rfl⟩

theorem readAckByte_empty (read : (rs 0).res = 0) (empty : ¬ DataReady (rs 0)) :
    (readAckByte (fuel + 1) ack).trace rs =
        (.inb kbcStatReg, rs 0) :: (judge fuel ack).trace (fun k => rs (k + 1)) ∧
      (readAckByte (fuel + 1) ack).value rs = (judge fuel ack).value fun k => rs (k + 1) := by
  have clear : ¬ (rs 0).val.toUInt8 &&& kbcOutBufFull ≠ 0 := fun full => empty ⟨read, full⟩
  rw [readAckByte_succ, Prog.value, Prog.trace_io, Prog.exec_io, if_neg (not_not.2 read),
    if_neg clear]
  exact ⟨rfl, rfl⟩

end Iteration

theorem judge_ack (fuel : ℕ) (rs : ℕ → Reply) : (judge fuel ackByte).value rs = some 0 := rfl

/-- The bytes received by `read_ACK_byte` contain an ACK if and only if it returns 0 and did not take
the uninitialised byte for it. -/
theorem portEvents_readAckByte (fuel : ℕ) (ack : UInt8) (rs : ℕ → Reply) (last : Option Reply) :
    ∃ bytes : List UInt8,
      portEvents last ((readAckByte fuel ack).trace rs) = bytes.map .received ∧
        (ackByte ∈ bytes ↔ (readAckByte fuel ack).value rs = some 0 ∧ ¬ StaleAck ack rs) := by
  induction fuel generalizing ack rs last with
  | zero => exact ⟨[], rfl, by simp [readAckByte, Prog.value]⟩
  | succ fuel ih =>
    have judged : ∀ (b : UInt8) (rs : ℕ → Reply) (last : Option Reply), ∃ bytes : List UInt8,
        portEvents last ((judge fuel b).trace rs) = bytes.map .received ∧
          (ackByte ∈ bytes ↔ (judge fuel b).value rs = some 0 ∧ b ≠ ackByte) := by
      intro b rs last
      unfold judge
      split_ifs with acked error nacked
      · exact ⟨[], rfl, by simp [acked]⟩
      · exact ⟨[], rfl, by simp [Prog.value]⟩
      · exact ⟨[], rfl, by simp [Prog.value]⟩
      · obtain ⟨bytes, events, decided⟩ := ih b rs last
        have fresh : ¬ StaleAck b rs := fun stale => acked stale.1
        exact ⟨bytes, events, decided.trans (and_congr_right' (iff_of_true fresh acked))⟩
    by_cases failed : (rs 0).res ≠ 0
    · obtain ⟨trace, value⟩ := readAckByte_failed fuel ack failed
      rw [trace, value]
      exact ⟨[], rfl, by simp⟩
    · rw [not_not] at failed
      by_cases ready : DataReady (rs 0)
      · obtain ⟨trace, value⟩ := readAckByte_ready fuel ack ready
        obtain ⟨bytes, events, decided⟩ := judged (rs 1).val.toUInt8 (fun k => rs (k + 2)) none
        rw [trace, value]
        refine ⟨(rs 1).val.toUInt8 :: bytes, ?_, ?_⟩
        · simp [portEvents, observe, statusReply, ready, events]
        · have genuine : ¬ StaleAck ack rs := fun stale => stale.2.2 ready
          rw [List.mem_cons, decided, and_iff_left genuine]
          by_cases acked : (rs 1).val.toUInt8 = ackByte
          · rw [acked]
            exact iff_of_true (.inl rfl) (judge_ack fuel _)
          · simp only [Ne.symm acked, ne_eq, acked, not_false_eq_true, and_true, false_or]
      · obtain ⟨trace, value⟩ := readAckByte_empty fuel ack failed ready
        obtain ⟨bytes, events, decided⟩ := judged ack (fun k => rs (k + 1)) (some (rs 0))
        rw [trace, value]
        refine ⟨bytes, ?_, ?_⟩
        · simp [portEvents, observe, statusReply, events]
        · rw [decided]
          simp only [StaleAck, failed, ready, not_false_eq_true, and_true, ne_eq]

/-! ## Rounds -/

/-- A round of `sendMouseCommand`: the replies left at its start, and the uninitialised byte and the
replies with which `read_ACK_byte` is called in it. -/
structure Round where
  start : ℕ → Reply
  ack : UInt8
  answers : ℕ → Reply

/-- The replies left when the command has been written. -/
def afterCommand (cmd : UInt32) (rs : ℕ → Reply) : ℕ → Reply :=
  ((selectMouse 10 >>= fun _ => sysOutb kbcOutBuf cmd).exec rs).2

/-- The rounds of `sendMouseCommand`. -/
def sendRounds (cmd : UInt32) (fuel : ℕ) : ℕ → (ℕ → UInt8) → (ℕ → Reply) → List Round
  | 0, _, _ => []
  | n + 1, acks, rs =>
    ⟨rs, acks 0, afterCommand cmd rs⟩ ::
      let answer := (readAckByte fuel (acks 0)).exec (afterCommand cmd rs)
      if answer.1 = some 1 then sendRounds cmd fuel n (fun k => acks (k + 1)) answer.2 else []

/-- The mouse is selected in one of the ten polls. -/
def Round.Selected (r : Round) : Prop := ∃ k < 10, InputEmpty (r.start k)

/-- The uninitialised byte is taken for an ACK. -/
def Round.Stale (r : Round) : Prop := StaleAck r.ack r.answers

/-- The result of a round followed by the rest of the loop. -/
theorem value_sendMouseCommand (cmd : UInt32) (fuel n : ℕ) (acks : ℕ → UInt8) (rs : ℕ → Reply) :
    let answer := (readAckByte fuel (acks 0)).exec (afterCommand cmd rs)
    (sendMouseCommand cmd fuel (n + 1) acks).exec rs =
      if answer.1 = some 1 then
        (sendMouseCommand cmd fuel n fun k => acks (k + 1)).exec answer.2
      else answer := by
  intro answer
  have rounds : (sendMouseCommand cmd fuel (n + 1) acks).exec rs =
      (if answer.1 = some 1 then sendMouseCommand cmd fuel n fun k => acks (k + 1)
        else .ret answer.1).exec answer.2 := by
    simp only [sendMouseCommand, Prog.exec_bind, answer, afterCommand]
    rfl
  rw [rounds, Prog.exec_ite]
  rfl

/-- The result of `read_ACK_byte` in a round. -/
def Round.answer (fuel : ℕ) (r : Round) : Option ℤ := (readAckByte fuel r.ack).value r.answers

/-- The result of the loop is that of `read_ACK_byte` in its last round. -/
theorem value_iff_round (cmd : UInt32) (fuel n : ℕ) (acks : ℕ → UInt8) (rs : ℕ → Reply) {v : ℤ}
    (final : v ≠ 1) :
    (sendMouseCommand cmd fuel n acks).value rs = some v ↔
      ∃ r ∈ sendRounds cmd fuel n acks rs, r.answer fuel = some v := by
  induction n generalizing acks rs with
  | zero => simp [sendMouseCommand, sendRounds, Prog.value]
  | succ n ih =>
    rw [Prog.value, value_sendMouseCommand, sendRounds, List.exists_mem_cons_iff]
    by_cases retry : ((readAckByte fuel (acks 0)).exec (afterCommand cmd rs)).1 = some 1
    · have other : (Round.mk rs (acks 0) (afterCommand cmd rs)).answer fuel ≠ some v := by
        intro same
        exact final (Option.some.inj (same.symm.trans retry))
      rw [if_pos retry, if_pos retry, or_iff_right other]
      exact ih _ _
    · rw [if_neg retry, if_neg retry]
      simp [Round.answer, Prog.value]

/-- The possible results of `read_ACK_byte`. -/
theorem readAckByte_value_cases (fuel : ℕ) (ack : UInt8) (rs : ℕ → Reply) :
    (readAckByte fuel ack).value rs = none ∨ (readAckByte fuel ack).value rs = some 0 ∨
      (readAckByte fuel ack).value rs = some 1 ∨ (readAckByte fuel ack).value rs = some (-1) := by
  induction fuel generalizing ack rs with
  | zero => exact .inl rfl
  | succ fuel ih =>
    have judged : ∀ b rs, (judge fuel b).value rs = none ∨ (judge fuel b).value rs = some 0 ∨
        (judge fuel b).value rs = some 1 ∨ (judge fuel b).value rs = some (-1) := by
      intro b rs
      unfold judge
      split_ifs
      · exact .inr (.inl rfl)
      · exact .inr (.inr (.inr rfl))
      · exact .inr (.inr (.inl rfl))
      · exact ih b rs
    by_cases failed : (rs 0).res ≠ 0
    · rw [(readAckByte_failed fuel ack failed).2]
      exact .inr (.inr (.inr rfl))
    · by_cases ready : DataReady (rs 0)
      · rw [(readAckByte_ready fuel ack ready).2]
        exact judged _ _
      · rw [(readAckByte_empty fuel ack (not_not.1 failed) ready).2]
        exact judged _ _

/-- A command that is answered is accepted or not. -/
theorem sendMouseCommand_value_cases (cmd : UInt32) (fuel n : ℕ) (acks : ℕ → UInt8)
    (rs : ℕ → Reply) :
    (sendMouseCommand cmd fuel n acks).value rs = none ∨
      (sendMouseCommand cmd fuel n acks).value rs = some 0 ∨
      (sendMouseCommand cmd fuel n acks).value rs = some (-1) := by
  induction n generalizing acks rs with
  | zero => exact .inl rfl
  | succ n ih =>
    simp only [Prog.value, value_sendMouseCommand] at ih ⊢
    split_ifs with retry
    · exact ih _ _
    · have cases := readAckByte_value_cases fuel (acks 0) (afterCommand cmd rs)
      simp only [Prog.value, retry, false_or] at cases
      exact cases

/-- The events of a round followed by those of the rest of the loop. -/
theorem portEvents_sendMouseCommand (cmd : UInt32) (fuel n : ℕ) (acks : ℕ → UInt8)
    (rs : ℕ → Reply) (last : Option Reply) :
    let answer := (readAckByte fuel (acks 0)).exec (afterCommand cmd rs)
    ∃ empty last',
      portEvents last ((sendMouseCommand cmd fuel (n + 1) acks).trace rs) =
        selection 10 rs ++ .sent kbcOutBuf cmd empty ::
            (portEvents none ((readAckByte fuel (acks 0)).trace (afterCommand cmd rs)) ++
              if answer.1 = some 1 then
                portEvents last' ((sendMouseCommand cmd fuel n fun k => acks (k + 1)).trace answer.2)
              else []) := by
  intro answer
  have split : (sendMouseCommand cmd fuel (n + 1) acks).trace rs =
      (selectMouse 10).trace rs ++ (.outb kbcOutBuf cmd, ((selectMouse 10).exec rs).2 0) ::
        ((readAckByte fuel (acks 0)).trace (afterCommand cmd rs) ++
          (if answer.1 = some 1 then sendMouseCommand cmd fuel n fun k => acks (k + 1)
            else .ret answer.1).trace answer.2) := by
    simp only [sendMouseCommand, Prog.trace_bind, answer, afterCommand, Prog.exec_bind]
    rfl
  rw [split, portEvents_append, portEvents_selectMouse, portEvents, portEvents_append,
    Prog.trace_ite, apply_ite (portEvents _)]
  exact ⟨_, _, rfl⟩

/-! ## A call of `_mouse_enable_data_reporting_` -/

section Enable

variable (fuel : ℕ) (acks acks' : ℕ → UInt8) (rs : ℕ → Reply)

/-- How the loop of STREAM_MODE ends. -/
def streamResult : Option ℤ := (sendMouseCommand streamMode fuel fuel acks).value rs

/-- The replies left after the loop of STREAM_MODE. -/
def afterStream : ℕ → Reply := ((sendMouseCommand streamMode fuel fuel acks).exec rs).2

/-- How the loop of DATA_REPORT ends, if it is run. -/
def dataResult : Option ℤ :=
  if streamResult fuel acks rs = some 0 then
    (sendMouseCommand dataReport fuel fuel acks').value (afterStream fuel acks rs)
  else none

/-- The rounds in which STREAM_MODE is sent. -/
def streamRounds : List Round := sendRounds streamMode fuel fuel acks rs

/-- The rounds in which DATA_REPORT is sent; there are none if STREAM_MODE is not accepted. -/
def dataRounds : List Round :=
  if ∃ r ∈ streamRounds fuel acks rs, r.answer fuel = some 0 then
    sendRounds dataReport fuel fuel acks' (afterStream fuel acks rs)
  else []

variable {fuel acks rs}

/-- STREAM_MODE is not accepted, or its loop does not end. -/
theorem mouseEnableDataReporting_stopped (stopped : streamResult fuel acks rs ≠ some 0) :
    (mouseEnableDataReporting fuel acks acks').trace rs =
        (sendMouseCommand streamMode fuel fuel acks).trace rs ∧
      (mouseEnableDataReporting fuel acks acks').value rs ≠ some 0 ∧
      dataRounds fuel acks acks' rs = [] := by
  have unsent : dataRounds fuel acks acks' rs = [] :=
    if_neg fun accepted => stopped ((value_iff_round _ _ _ _ _ (by decide)).2 accepted)
  rw [mouseEnableDataReporting, Prog.value, Prog.trace_bind, Prog.exec_bind]
  rcases sendMouseCommand_value_cases streamMode fuel fuel acks rs with none | accepted | failed
  · rw [Prog.value] at none
    rw [if_pos none]
    exact ⟨List.append_nil _, by simp, unsent⟩
  · exact absurd accepted stopped
  · rw [Prog.value] at failed
    rw [if_neg (by simp [failed]), if_pos failed]
    exact ⟨List.append_nil _, by simp, unsent⟩

/-- STREAM_MODE is accepted, and DATA_REPORT is sent. -/
theorem mouseEnableDataReporting_continued (first : streamResult fuel acks rs = some 0) :
    (mouseEnableDataReporting fuel acks acks').trace rs =
        (sendMouseCommand streamMode fuel fuel acks).trace rs ++
          (sendMouseCommand dataReport fuel fuel acks').trace (afterStream fuel acks rs) ∧
      ((mouseEnableDataReporting fuel acks acks').value rs = some 0 ↔
        dataResult fuel acks acks' rs ≠ none) ∧
      dataRounds fuel acks acks' rs =
        sendRounds dataReport fuel fuel acks' (afterStream fuel acks rs) := by
  have accepted : ∃ r ∈ streamRounds fuel acks rs, r.answer fuel = some 0 :=
    (value_iff_round streamMode fuel fuel acks rs (by decide)).1 first
  rw [dataRounds, if_pos accepted, dataResult, if_pos first]
  rw [streamResult, Prog.value] at first
  rw [mouseEnableDataReporting, Prog.value, Prog.trace_bind, Prog.exec_bind, first,
    if_neg (by simp), if_neg (by simp), Prog.trace_bind, Prog.exec_bind, Prog.trace_ite,
    Prog.exec_ite, Prog.value]
  refine ⟨?_, ?_, rfl⟩
  · split_ifs <;> simp [afterStream]
  · split_ifs with unanswered <;> simp_all [afterStream]

end Enable

/-! ## The selection before each command -/

/-- The write of `WR_MOUSE` when the input buffer was seen empty. -/
def mouseSelected : PortEvent := .sent kbcStatReg wrMouse true

/-- Each write to the output buffer's port comes right after a selection of the mouse, in the order of
the writes; `prev` is the write before the events. -/
def Guarded : Option PortEvent → List PortEvent → Prop
  | _, [] => True
  | prev, .received _ :: es => Guarded prev es
  | prev, .sent port val empty :: es =>
    (port = kbcOutBuf → prev = some mouseSelected) ∧ Guarded (some (.sent port val empty)) es

/-- The last write. -/
def lastSent : Option PortEvent → List PortEvent → Option PortEvent
  | prev, [] => prev
  | prev, .received _ :: es => lastSent prev es
  | _, .sent port val empty :: es => lastSent (some (.sent port val empty)) es

theorem guarded_append (prev : Option PortEvent) (es es' : List PortEvent) :
    Guarded prev (es ++ es') ↔ Guarded prev es ∧ Guarded (lastSent prev es) es' := by
  induction es generalizing prev with
  | nil => simp [Guarded, lastSent]
  | cons e es ih => cases e <;> simp [Guarded, lastSent, ih, and_assoc]

theorem lastSent_append (prev : Option PortEvent) (es es' : List PortEvent) :
    lastSent prev (es ++ es') = lastSent (lastSent prev es) es' := by
  induction es generalizing prev with
  | nil => rfl
  | cons e es ih => cases e <;> simp [lastSent, ih]

theorem guarded_received (prev : Option PortEvent) (bytes : List UInt8) :
    Guarded prev (bytes.map .received) ∧ lastSent prev (bytes.map .received) = prev := by
  induction bytes with
  | nil => exact ⟨trivial, rfl⟩
  | cons b bytes ih => exact ih

theorem unselected_none : none ≠ some mouseSelected := by simp

theorem guarded_sendMouseCommand (cmd : UInt32) (fuel n : ℕ) (acks : ℕ → UInt8) (rs : ℕ → Reply)
    (last : Option Reply) {prev : Option PortEvent} (unselected : prev ≠ some mouseSelected) :
    (Guarded prev (portEvents last ((sendMouseCommand cmd fuel n acks).trace rs)) ↔
        ∀ r ∈ sendRounds cmd fuel n acks rs, r.Selected) ∧
      lastSent prev (portEvents last ((sendMouseCommand cmd fuel n acks).trace rs)) ≠
        some mouseSelected := by
  induction n generalizing acks rs last prev with
  | zero => exact ⟨by simp [sendMouseCommand, portEvents, Guarded, sendRounds], unselected⟩
  | succ n ih =>
    obtain ⟨empty, last', events⟩ := portEvents_sendMouseCommand cmd fuel n acks rs last
    obtain ⟨bytes, received, -⟩ := portEvents_readAckByte fuel (acks 0) (afterCommand cmd rs) none
    have command : some (PortEvent.sent kbcOutBuf cmd empty) ≠ some mouseSelected := by
      simp [mouseSelected]
    rw [events, received, guarded_append, lastSent_append, sendRounds, List.forall_mem_cons]
    simp only [Guarded, lastSent, guarded_append, lastSent_append, guarded_received, true_and]
    -- the rest of the loop, after the write of the command
    generalize (readAckByte fuel (acks 0)).exec (afterCommand cmd rs) = answer
    have rest : (Guarded (some (.sent kbcOutBuf cmd empty)) (if answer.1 = some 1 then
          portEvents last' ((sendMouseCommand cmd fuel n fun k => acks (k + 1)).trace answer.2)
        else []) ↔
        ∀ r ∈ if answer.1 = some 1 then sendRounds cmd fuel n (fun k => acks (k + 1)) answer.2
          else [], r.Selected) ∧
        lastSent (some (.sent kbcOutBuf cmd empty)) (if answer.1 = some 1 then
          portEvents last' ((sendMouseCommand cmd fuel n fun k => acks (k + 1)).trace answer.2)
        else []) ≠ some mouseSelected := by
      split_ifs
      · exact ih (fun k => acks (k + 1)) answer.2 last' command
      · exact ⟨by simp [Guarded], command⟩
    refine ⟨?_, rest.2⟩
    rw [rest.1, ← and_assoc]
    apply and_congr_left'
    by_cases selected : ∃ k < 10, InputEmpty (rs k)
    · simp [selection, selected, lastSent, Round.Selected, Guarded, mouseSelected]
    · simp [selection, selected, lastSent, Round.Selected, Guarded, unselected]

/-- Every mouse command goes to the mouse if and only if in each round of the retry loops one of the
ten polls finds the input buffer empty. -/
theorem mouseCommands_guarded_iff (fuel : ℕ) (acks acks' : ℕ → UInt8) (mode : ℤ)
    (rs : ℕ → Reply) :
    (Guarded none (portEvents none ((mouseEnableDataReporting fuel acks acks').trace rs)) ↔
        ∀ r ∈ streamRounds fuel acks rs ++ dataRounds fuel acks acks' rs, r.Selected) ∧
      (Guarded none (portEvents none ((mouseDisableDataReporting mode fuel acks).trace rs)) ↔
        ∀ r ∈ sendRounds disable fuel fuel acks rs, r.Selected) := by
  refine ⟨?_, (guarded_sendMouseCommand disable fuel fuel acks rs none unselected_none).1⟩
  obtain ⟨streamGuarded, unselected⟩ :=
    guarded_sendMouseCommand streamMode fuel fuel acks rs none unselected_none
  rw [List.forall_mem_append, streamRounds]
  by_cases first : streamResult fuel acks rs = some 0
  · obtain ⟨trace, -, rounds⟩ := mouseEnableDataReporting_continued acks' first
    rw [trace, rounds, portEvents_append, guarded_append, streamGuarded]
    apply and_congr_right'
    exact (guarded_sendMouseCommand dataReport fuel fuel acks' _ _ unselected).1
  · obtain ⟨trace, -, unsent⟩ := mouseEnableDataReporting_stopped acks' first
    rw [trace, unsent, streamGuarded]
    simp

/-- Replies of a controller whose input buffer stays full. -/
def busy : ℕ → Reply := fun _ => ⟨0, 0x02⟩

/-- After ten busy polls the command is written without a selection, and goes to the keyboard. -/
theorem mouseCommands_unguarded :
    ¬ Guarded none (portEvents none ((mouseDisableDataReporting 0 1 fun _ => 0).trace busy)) := by
  intro guarded
  have selected := (guarded_sendMouseCommand disable 1 1 (fun _ => 0) busy none unselected_none).1.1
    guarded
  obtain ⟨k, -, empty⟩ := selected ⟨busy, 0, afterCommand disable busy⟩ List.mem_cons_self
  exact absurd empty (show ¬ (0x02 : UInt32).toUInt8 &&& kbcInBufFull = 0 by decide)

end LabComputers

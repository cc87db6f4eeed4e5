import LabComputers.Proj.MouseCommandProof

/-!
# The answers to the mouse set-up commands

`_mouse_enable_data_reporting_` should return 0 exactly if the mouse acknowledged both commands.  What
the events of a command's loop say about its answer is collected in `Exchange`.
-/

namespace LabComputers

open Port

/-! ## The answers to the commands -/

/-- An ACK was received after the last time the command was sent. -/
def AckAfter (es : List PortEvent) (cmd : UInt32) : Prop :=
  ∃ pre empty post, es = pre ++ .sent kbcOutBuf cmd empty :: post ∧
    (∀ empty', .sent kbcOutBuf cmd empty' ∉ post) ∧ .received ackByte ∈ post

/-- An ACK was received after the last time the command was sent and before any other write. -/
def Acknowledged (es : List PortEvent) (cmd : UInt32) : Prop :=
  ∃ pre empty post, ∃ bytes : List UInt8,
    es = pre ++ .sent kbcOutBuf cmd empty :: (bytes.map .received ++ post) ∧
      (∀ empty', .sent kbcOutBuf cmd empty' ∉ post) ∧ ackByte ∈ bytes

/-- What follows the last element with a property is determined. -/
theorem last_unique {α : Type} {p : α → Prop} {a a' : α} {pre pre' post post' : List α} (ha : p a)
    (ha' : p a') (last : ∀ x ∈ post, ¬ p x) (last' : ∀ x ∈ post', ¬ p x)
    (same : pre ++ a :: post = pre' ++ a' :: post') : post = post' := by
  rcases List.append_eq_append_iff.1 same with ⟨mid, -, behind⟩ | ⟨mid, -, behind⟩
  · cases mid with
    | nil => exact (List.cons.inj behind).2
    | cons b mid =>
      have mem : a' ∈ post := by
        rw [(List.cons.inj behind).2]
        simp
      exact absurd ha' (last a' mem)
  · cases mid with
    | nil => exact (List.cons.inj behind).2.symm
    | cons b mid =>
      have mem : a ∈ post' := by
        rw [(List.cons.inj behind).2]
        simp
      exact absurd ha (last' a mem)

/-- The command is not sent. -/
def Unsent (cmd : UInt32) (es : List PortEvent) : Prop := ∀ empty, .sent kbcOutBuf cmd empty ∉ es

theorem unsent_received (cmd : UInt32) (bytes : List UInt8) : Unsent cmd (bytes.map .received) := by
  intro empty mem
  simp at mem

theorem Unsent.append {cmd : UInt32} {es es' : List PortEvent} (h : Unsent cmd es)
    (h' : Unsent cmd es') : Unsent cmd (es ++ es') := by
  intro empty mem
  rcases List.mem_append.1 mem with mem | mem
  · exact h empty mem
  · exact h' empty mem

section Last

variable {pre post : List PortEvent} {cmd : UInt32} {empty : Bool}

theorem after_last (last : Unsent cmd post) {pre' post' : List PortEvent} {empty' : Bool}
    (last' : Unsent cmd post')
    (same : pre ++ .sent kbcOutBuf cmd empty :: post =
      pre' ++ .sent kbcOutBuf cmd empty' :: post') : post = post' := by
  have none {post : List PortEvent} (last : Unsent cmd post) :
      ∀ x ∈ post, ¬ ∃ e, x = .sent kbcOutBuf cmd e := by
    rintro x mem ⟨e, rfl⟩
    exact last e mem
  exact last_unique ⟨empty, rfl⟩ ⟨empty', rfl⟩ (none last) (none last') same

theorem ackAfter_iff (last : Unsent cmd post) :
    AckAfter (pre ++ .sent kbcOutBuf cmd empty :: post) cmd ↔ .received ackByte ∈ post := by
  constructor
  · rintro ⟨pre', empty', post', same, last', mem⟩
    rwa [after_last last last' same]
  · exact fun mem => ⟨pre, empty, post, rfl, last, mem⟩

/-- Bytes received before the next write are among those received before it. -/
theorem mem_of_received {bytes bytes' : List UInt8} {rest post' : List PortEvent}
    (next : ∀ b es, rest ≠ .received b :: es)
    (same : bytes.map .received ++ rest = bytes'.map .received ++ post') {b : UInt8}
    (mem : b ∈ bytes') : b ∈ bytes := by
  induction bytes' generalizing bytes with
  | nil => exact absurd mem List.not_mem_nil
  | cons c bytes' ih =>
    cases bytes with
    | nil => exact absurd same (next c _)
    | cons d bytes =>
      obtain ⟨head, tail⟩ := List.cons.inj same
      obtain rfl : d = c := PortEvent.received.inj head
      rcases List.mem_cons.1 mem with rfl | mem
      · exact List.mem_cons_self
      · exact List.mem_cons_of_mem _ (ih tail mem)

theorem acknowledged_iff {bytes : List UInt8} (last : Unsent cmd post)
    (next : ∀ b es, post ≠ .received b :: es) :
    Acknowledged (pre ++ .sent kbcOutBuf cmd empty :: (bytes.map .received ++ post)) cmd ↔
      ackByte ∈ bytes := by
  constructor
  · rintro ⟨pre', empty', post', bytes', same, last', mem⟩
    have behind := after_last ((unsent_received cmd bytes).append last)
      ((unsent_received cmd bytes').append last') same
    exact mem_of_received next behind mem
  · exact fun mem => ⟨pre, empty, post, bytes, rfl, last, mem⟩

end Last

/-! ## The loops of the two commands -/

theorem StaleAck.value {ack : UInt8} {rs : ℕ → Reply} (stale : StaleAck ack rs) (fuel : ℕ) :
    (readAckByte (fuel + 1) ack).value rs = some 0 := by
  obtain ⟨acked, read, empty⟩ := stale
  rw [(readAckByte_empty fuel ack read empty).2, acked, judge_ack]

theorem StaleAck.value_ne (fuel : ℕ) {ack : UInt8} {rs : ℕ → Reply} (stale : StaleAck ack rs) :
    (readAckByte fuel ack).value rs ≠ some 1 := by
  cases fuel with
  | zero => simp [readAckByte, Prog.value]
  | succ fuel =>
    rw [stale.value fuel]
    simp

/-- What the events of `sendMouseCommand` say about its answer. -/
structure Exchange (cmd : UInt32) (result : Option ℤ) (rounds : List Round) (es : List PortEvent) :
    Prop where
  answer : ∃ pre empty, ∃ bytes : List UInt8,
    es = pre ++ .sent kbcOutBuf cmd empty :: bytes.map .received ∧
      (ackByte ∈ bytes ↔ result = some 0 ∧ ¬ ∃ r ∈ rounds, r.Stale)
  unsent : ∀ cmd', cmd' ≠ cmd → Unsent cmd' es
  starts : ∀ b es', es ≠ .received b :: es'

theorem unsent_round {cmd cmd' : UInt32} (other : cmd' ≠ cmd) (rs : ℕ → Reply) (empty : Bool)
    (bytes : List UInt8) {rest : List PortEvent} (unsent : Unsent cmd' rest) :
    Unsent cmd' (selection 10 rs ++ .sent kbcOutBuf cmd empty :: (bytes.map .received ++ rest)) := by
  have selecting : Unsent cmd' (selection 10 rs) := by
    intro empty' mem
    unfold selection at mem
    split_ifs at mem <;> simp at mem
  have command : Unsent cmd' [.sent kbcOutBuf cmd empty] := by
    intro empty' mem
    rw [List.mem_singleton, PortEvent.sent.injEq] at mem
    exact other mem.2.1
  exact selecting.append (command.append ((unsent_received cmd' bytes).append unsent))

theorem round_starts (rs : ℕ → Reply) (cmd : UInt32) (empty : Bool) (es : List PortEvent) :
    ∀ b es', selection 10 rs ++ .sent kbcOutBuf cmd empty :: es ≠ .received b :: es' := by
  intro b es' same
  unfold selection at same
  split_ifs at same <;> simp at same

/-- The last round of the loop. -/
theorem exchange_last {cmd : UInt32} {result : Option ℤ} {r : Round} {rs : ℕ → Reply} {empty : Bool}
    {bytes : List UInt8} (acked : ackByte ∈ bytes ↔ result = some 0 ∧ ¬ r.Stale) :
    Exchange cmd result [r]
      (selection 10 rs ++ .sent kbcOutBuf cmd empty :: (bytes.map .received ++ [])) where
  answer := ⟨_, empty, bytes, by rw [List.append_nil], by simpa using acked⟩
  unsent cmd' other := unsent_round other rs empty bytes fun _ => List.not_mem_nil
  starts := round_starts rs cmd empty _

/-- A round that is answered by NACK. -/
theorem Exchange.retry {cmd : UInt32} {result : Option ℤ} {rounds : List Round}
    {rest : List PortEvent} (h : Exchange cmd result rounds rest) {r : Round} (genuine : ¬ r.Stale)
    (rs : ℕ → Reply) (empty : Bool) (bytes : List UInt8) :
    Exchange cmd result (r :: rounds)
      (selection 10 rs ++ .sent kbcOutBuf cmd empty :: (bytes.map .received ++ rest)) where
  answer := by
    obtain ⟨pre, empty', bytes', rfl, acked⟩ := h.answer
    refine ⟨selection 10 rs ++ .sent kbcOutBuf cmd empty :: (bytes.map .received ++ pre), empty',
      bytes', by simp, ?_⟩
    simp [acked, genuine]
  unsent cmd' other := unsent_round other rs empty bytes (h.unsent cmd' other)
  starts := round_starts rs cmd empty _

/-- One round and, if it is answered by NACK, the rest of the loop. -/
theorem exchange_round (cmd : UInt32) (fuel n : ℕ) (acks : ℕ → UInt8) (rs : ℕ → Reply)
    (last : Option Reply)
    (more : n = 0 ∨ ∀ acks rs last, Exchange cmd ((sendMouseCommand cmd fuel n acks).value rs)
      (sendRounds cmd fuel n acks rs)
      (portEvents last ((sendMouseCommand cmd fuel n acks).trace rs))) :
    Exchange cmd ((sendMouseCommand cmd fuel (n + 1) acks).value rs)
      (sendRounds cmd fuel (n + 1) acks rs)
      (portEvents last ((sendMouseCommand cmd fuel (n + 1) acks).trace rs)) := by
  obtain ⟨empty, last', events⟩ := portEvents_sendMouseCommand cmd fuel n acks rs last
  obtain ⟨bytes, received, acked⟩ :=
    portEvents_readAckByte fuel (acks 0) (afterCommand cmd rs) none
  rw [events, received, Prog.value, value_sendMouseCommand, sendRounds]
  by_cases retry : ((readAckByte fuel (acks 0)).exec (afterCommand cmd rs)).1 = some 1
  · simp only [if_pos retry]
    rcases more with rfl | more
    · apply exchange_last
      rw [acked, Prog.value, retry]
      simp [sendMouseCommand]
    · have genuine : ¬ (Round.mk rs (acks 0) (afterCommand cmd rs)).Stale := fun stale =>
        StaleAck.value_ne fuel stale retry
      exact (more _ _ _).retry genuine rs empty bytes
  · simp only [if_neg retry]
    exact exchange_last acked

theorem exchange_sendMouseCommand (cmd : UInt32) (fuel n : ℕ) (acks : ℕ → UInt8) (rs : ℕ → Reply)
    (last : Option Reply) :
    Exchange cmd ((sendMouseCommand cmd fuel (n + 1) acks).value rs)
      (sendRounds cmd fuel (n + 1) acks rs)
      (portEvents last ((sendMouseCommand cmd fuel (n + 1) acks).trace rs)) := by
  induction n generalizing acks rs last with
  | zero => exact exchange_round cmd fuel 0 acks rs last (.inl rfl)
  | succ n ih => exact exchange_round cmd fuel (n + 1) acks rs last (.inr ih)

theorem received_mem {byte : UInt8} {bytes : List UInt8} :
    PortEvent.received byte ∈ bytes.map .received ↔ byte ∈ bytes := by simp

section Answers

variable {es es' : List PortEvent} {result result' : Option ℤ} {rounds rounds' : List Round}
  (stream : Exchange streamMode result rounds es) (data : Exchange dataReport result' rounds' es')
include data

theorem ackAfter_dataReport :
    AckAfter (es ++ es') dataReport ↔ result' = some 0 ∧ ¬ ∃ r ∈ rounds', r.Stale := by
  obtain ⟨pre, empty, bytes, rfl, acked⟩ := data.answer
  rw [← List.append_assoc, ackAfter_iff (unsent_received dataReport bytes), received_mem, acked]

theorem acknowledged_dataReport :
    Acknowledged (es ++ es') dataReport ↔ result' = some 0 ∧ ¬ ∃ r ∈ rounds', r.Stale := by
  obtain ⟨pre, empty, bytes, rfl, acked⟩ := data.answer
  have unsent : Unsent dataReport [] := fun _ => List.not_mem_nil
  rw [← List.append_assoc, ← (bytes.map PortEvent.received).append_nil,
    acknowledged_iff unsent (by simp), acked]

include stream

/-- The ACK of the second command follows the first command, too. -/
theorem ackAfter_streamMode (second : AckAfter (es ++ es') dataReport) :
    AckAfter (es ++ es') streamMode := by
  rw [ackAfter_dataReport data] at second
  obtain ⟨pre, empty, bytes, rfl, -⟩ := stream.answer
  obtain ⟨pre', empty', bytes', rfl, acked⟩ := data.answer
  have unsent := data.unsent streamMode (by decide)
  rw [List.append_assoc, List.cons_append, ackAfter_iff ((unsent_received _ _).append unsent)]
  have mem : ackByte ∈ bytes' := acked.2 second
  simp [mem]

theorem acknowledged_streamMode :
    Acknowledged (es ++ es') streamMode ↔ result = some 0 ∧ ¬ ∃ r ∈ rounds, r.Stale := by
  obtain ⟨pre, empty, bytes, rfl, acked⟩ := stream.answer
  rw [List.append_assoc, List.cons_append,
    acknowledged_iff (data.unsent streamMode (by decide)) data.starts, acked]

end Answers

/-! ## The result of `_mouse_enable_data_reporting_` -/

section Result

variable (fuel : ℕ) (acks acks' : ℕ → UInt8) (rs : ℕ → Reply)

/-- The result is 0 exactly if both commands were acknowledged, and not 0 if one of them ended in an
error. -/
structure ReportsAcks (acked : UInt32 → Prop) : Prop where
  zero_iff : (mouseEnableDataReporting fuel acks acks').value rs = some 0 ↔
    acked streamMode ∧ acked dataReport
  failure : streamResult fuel acks rs = some (-1) ∨ dataResult fuel acks acks' rs = some (-1) →
    (mouseEnableDataReporting fuel acks acks').value rs ≠ some 0

/-- The events of a call. -/
def enableEvents : List PortEvent :=
  portEvents none ((mouseEnableDataReporting fuel acks acks').trace rs)

variable {fuel acks acks' rs}

/-- A call in which STREAM_MODE is not accepted. -/
theorem reports_of_stopped {acked : UInt32 → Prop} (stopped : streamResult fuel acks rs ≠ some 0)
    (unacked : ¬ acked dataReport) : ReportsAcks fuel acks acks' rs acked := by
  have nonzero := (mouseEnableDataReporting_stopped acks' stopped).2.1
  exact ⟨iff_of_false nonzero fun both => unacked both.2, fun _ => nonzero⟩

variable (acks') in
theorem dataResult_iff (first : streamResult fuel acks rs = some 0) {v : ℤ} (final : v ≠ 1) :
    dataResult fuel acks acks' rs = some v ↔
      ∃ r ∈ dataRounds fuel acks acks' rs, r.answer fuel = some v := by
  rw [dataResult, if_pos first, (mouseEnableDataReporting_continued acks' first).2.2]
  exact value_iff_round dataReport fuel fuel acks' _ final

/-- An uninitialised byte that is taken for an ACK ends the loop. -/
theorem answer_of_stale {r : Round} (mem : r ∈ dataRounds fuel acks acks' rs) (stale : r.Stale) :
    r.answer fuel = some 0 := by
  cases fuel with
  | zero => simp [dataRounds, sendRounds] at mem
  | succ n => exact StaleAck.value stale n

/-- A call in which STREAM_MODE is accepted. -/
theorem reports_of_continued {acked : UInt32 → Prop} {genuine : Prop}
    (first : streamResult fuel acks rs = some 0)
    (data : acked dataReport ↔ dataResult fuel acks acks' rs = some 0 ∧
      ¬ ∃ r ∈ dataRounds fuel acks acks' rs, r.Stale)
    (stream : acked dataReport → (acked streamMode ↔ genuine)) :
    ReportsAcks fuel acks acks' rs acked ↔ ∀ r ∈ dataRounds fuel acks acks' rs,
      r.answer fuel ≠ some (-1) ∧ ¬ r.Stale ∧ (r.answer fuel = some 0 → genuine) := by
  have result := (mouseEnableDataReporting_continued acks' first).2.1
  have failed := dataResult_iff acks' first (v := -1) (by decide)
  have done := dataResult_iff acks' first (v := 0) (by decide)
  have unaccepted : streamResult fuel acks rs ≠ some (-1) := by
    rw [first]
    decide
  constructor
  · intro h r mem
    have reported : dataResult fuel acks acks' rs ≠ none → acked streamMode ∧ acked dataReport :=
      fun ended => h.zero_iff.1 (result.2 ended)
    refine ⟨fun refused => ?_, fun stale => ?_, fun answered => ?_⟩
    · have ended := failed.2 ⟨r, mem, refused⟩
      exact h.failure (.inr ended) (result.2 (by simp [ended]))
    · have ended := done.2 ⟨r, mem, answer_of_stale mem stale⟩
      exact (data.1 (reported (by simp [ended])).2).2 ⟨r, mem, stale⟩
    · have ended := done.2 ⟨r, mem, answered⟩
      have both := reported (by simp [ended])
      exact (stream both.2).1 both.1
  · intro h
    have accepted : dataResult fuel acks acks' rs ≠ some (-1) := by
      intro refused
      obtain ⟨r, mem, answer⟩ := failed.1 refused
      exact (h r mem).1 answer
    have fresh : ¬ ∃ r ∈ dataRounds fuel acks acks' rs, r.Stale := by
      rintro ⟨r, mem, stale⟩
      exact (h r mem).2.1 stale
    refine ⟨?_, fun ended => ?_⟩
    · rw [result]
      constructor
      · intro ended
        have zero : dataResult fuel acks acks' rs = some 0 := by
          rw [dataResult, if_pos first] at ended accepted ⊢
          rcases sendMouseCommand_value_cases dataReport fuel fuel acks' (afterStream fuel acks rs)
            with none | zero | refused
          · exact absurd none ended
          · exact zero
          · exact absurd refused accepted
        have second := data.2 ⟨zero, fresh⟩
        obtain ⟨r, mem, answered⟩ := done.1 zero
        exact ⟨(stream second).2 ((h r mem).2.2 answered), second⟩
      · intro both
        rw [(data.1 both.2).1]
        simp
    · exact absurd ended (not_or.2 ⟨unaccepted, accepted⟩)

end Result

/-- If STREAM_MODE is not accepted, DATA_REPORT is not sent. -/
theorem unsent_of_stopped {fuel : ℕ} {acks : ℕ → UInt8} (acks' : ℕ → UInt8) {rs : ℕ → Reply}
    (stopped : streamResult fuel acks rs ≠ some 0) :
    Unsent dataReport (enableEvents fuel acks acks' rs) := by
  rw [enableEvents, (mouseEnableDataReporting_stopped acks' stopped).1]
  cases fuel with
  | zero => exact fun _ => List.not_mem_nil
  | succ n =>
    apply (exchange_sendMouseCommand streamMode (n + 1) n acks rs none).unsent
    decide

/-- If STREAM_MODE is accepted, the events are those of the two loops. -/
theorem enableEvents_eq {fuel : ℕ} {acks : ℕ → UInt8} (acks' : ℕ → UInt8) {rs : ℕ → Reply}
    (first : streamResult fuel acks rs = some 0) :
    ∃ es es', enableEvents fuel acks acks' rs = es ++ es' ∧
      Exchange streamMode (some 0) (sendRounds streamMode fuel fuel acks rs) es ∧
      Exchange dataReport (dataResult fuel acks acks' rs)
        (sendRounds dataReport fuel fuel acks' (afterStream fuel acks rs)) es' := by
  cases fuel with
  | zero => simp [streamResult, sendMouseCommand, Prog.value] at first
  | succ n =>
    rw [enableEvents, (mouseEnableDataReporting_continued acks' first).1,
      portEvents_append, dataResult, if_pos first, ← first]
    exact ⟨_, _, rfl, exchange_sendMouseCommand streamMode (n + 1) n acks rs none,
      exchange_sendMouseCommand dataReport (n + 1) n acks' (afterStream (n + 1) acks rs) _⟩

/-- The result of a call is right if and only if no round of DATA_REPORT is answered by an error or
takes an uninitialised byte for the ACK.  If an ACK counts for the command before it only, and DATA_REPORT
is accepted, no uninitialised byte may be taken for the ACK of STREAM_MODE either. -/
theorem enable_reports_iff (fuel : ℕ) (acks acks' : ℕ → UInt8) (rs : ℕ → Reply) :
    (ReportsAcks fuel acks acks' rs (AckAfter (enableEvents fuel acks acks' rs)) ↔
        ∀ r ∈ dataRounds fuel acks acks' rs, r.answer fuel ≠ some (-1) ∧ ¬ r.Stale) ∧
      (ReportsAcks fuel acks acks' rs (Acknowledged (enableEvents fuel acks acks' rs)) ↔
        ∀ r ∈ dataRounds fuel acks acks' rs, r.answer fuel ≠ some (-1) ∧ ¬ r.Stale ∧
          (r.answer fuel = some 0 → ∀ q ∈ streamRounds fuel acks rs, ¬ q.Stale)) := by
  by_cases first : streamResult fuel acks rs = some 0
  · obtain ⟨es, es', events, stream, data⟩ := enableEvents_eq acks' first
    rw [← (mouseEnableDataReporting_continued acks' first).2.2] at data
    rw [events]
    refine ⟨?_, ?_⟩
    · rw [reports_of_continued first (ackAfter_dataReport data)
        fun second => iff_true_intro (ackAfter_streamMode stream data second)]
      simp only [imp_true_iff, and_true]
    · have answered : Acknowledged (es ++ es') streamMode ↔
          ∀ q ∈ streamRounds fuel acks rs, ¬ q.Stale := by
        rw [acknowledged_streamMode stream data, and_iff_right rfl]
        simp only [streamRounds, not_exists, not_and]
      exact reports_of_continued first (acknowledged_dataReport data) fun _ => answered
  · have unsent := unsent_of_stopped acks' first
    have unacked : ¬ AckAfter (enableEvents fuel acks acks' rs) dataReport := by
      rintro ⟨pre, empty, post, same, -⟩
      exact unsent empty (by simp [same])
    have unacked' : ¬ Acknowledged (enableEvents fuel acks acks' rs) dataReport := by
      rintro ⟨pre, empty, post, bytes, same, -⟩
      exact unsent empty (by simp [same])
    rw [(mouseEnableDataReporting_stopped acks' first).2.2]
    refine ⟨?_, ?_⟩
    · exact iff_of_true (reports_of_stopped first unacked) (List.forall_mem_nil _)
    · exact iff_of_true (reports_of_stopped first unacked') (List.forall_mem_nil _)

/-- Replies of a controller that is never busy and of a mouse that acknowledges STREAM_MODE and answers
DATA_REPORT with an error. -/
def refusing : ℕ → Reply := fun n =>
  match n with
  | 3 | 8 => ⟨0, 0x01⟩
  | 4 => ⟨0, 0xFA⟩
  | 9 => ⟨0, 0xFC⟩
  | _ => ⟨0, 0x00⟩

/-- The error is not reported: the call returns 0. -/
theorem enable_hides_error : ¬ ReportsAcks 1 (fun _ => 0) (fun _ => 0) refusing
    (AckAfter (enableEvents 1 (fun _ => 0) (fun _ => 0) refusing)) := by
  intro reports
  have failed : dataResult 1 (fun _ => 0) (fun _ => 0) refusing = some (-1) := by decide
  exact absurd (show (mouseEnableDataReporting 1 (fun _ => 0) fun _ => 0).value refusing = some 0
    by decide) (reports.failure (.inr failed))

end LabComputers

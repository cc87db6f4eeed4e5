import LabComputers.Lab4.Mouse
import LabComputers.Proj.PacketProof

/-!
# The packets that lab 4 prints

`mouse_test_packet` and `mouse_test_async` print every packet of the stream of bytes that the mouse
sends, in order, whatever else is received: the first one up to the number of packets asked for
(`testPacket_prints`), the second one until the mouse has been idle for long enough
(`testAsync_stops`).
-/

namespace LabComputers.Lab4

open CString Port MessageLoop

/-! ## One interrupt -/

/-- The reply makes `mouse_check` return true. -/
def auxSet (r : Reply) : Prop := r.res ≠ 0 ∨ r.val.toUInt8 &&& LabComputers.mouseCheck ≠ 0

instance (r : Reply) : Decidable (auxSet r) := inferInstanceAs (Decidable (_ ∨ _))

/-- The byte that a call of `mouse_ih` takes, by the replies to its reads. -/
def byte? (replies : ℕ → Reply) : Option UInt8 :=
  if auxSet (replies 0) ∧ outputFull (replies 1) ∧ ¬ inError (replies 3) then
    some (replies 2).val.toUInt8
  else none

/-- The `memset` at the start of `mouse_ih`. -/
def clearPacket (g : Globals) : Globals := if g.nbytes = 0 then { g with arr := zeros 3 } else g

theorem mouseIh_value (g : Globals) (rs : ℕ → Reply) :
    (mouseIh g).value rs =
      match byte? rs with
      | some byte => mouseByte byte (clearPacket g)
      | none => clearPacket g := by
  have check : mouseCheck = .io (.inb kbcStatReg) fun r => .ret (decide (auxSet r)) := by
    simp only [mouseCheck, utilSysInb, Prog.io_bind, Prog.ret_bind, Prog.pure_eq_ret, auxSet]
    congr
    funext r
    grind
  simp only [mouseIh, check, kbcOutputBufFull_eq, kbcReadOutputBuffer_eq, kbcCommunicationError_eq,
    Prog.io_bind, Prog.ret_bind, Prog.pure_eq_ret, Prog.value, byte?]
  rw [Prog.exec_io]
  by_cases h₀ : auxSet (rs 0)
  · by_cases h₁ : outputFull (rs 1)
    · by_cases h₃ : inError (rs 3) <;> simp [h₀, h₁, h₃, clearPacket]
    · simp [h₀, h₁, clearPacket]
  · simp [h₀, clearPacket]

/-- The bytes of the packet that `mouse_ih` has begun to collect. -/
structure Holds (g : Globals) (held : List UInt8) : Prop where
  nbytes : g.nbytes = held.length
  short : held.length < 3
  arr : held ≠ [] → g.arr = held ++ zeros (3 - held.length)

theorem Holds.clearPacket_eq {g : Globals} {held : List UInt8} (h : Holds g held) :
    clearPacket g = { g with arr := held ++ zeros (3 - held.length) } := by
  unfold clearPacket
  by_cases empty : held = []
  · subst empty
    have none : g.nbytes = 0 := h.nbytes
    rw [if_pos none]
    rfl
  · rw [if_neg (by rw [h.nbytes]; simpa using empty), ← h.arr empty]

/-- A byte is received as a framing receiver would, and a completed packet is printed. -/
theorem print_push {g : Globals} {held : List UInt8} (h : Holds g held) (byte : UInt8) :
    let g' := mouseByte byte (clearPacket g)
    let r := Framing.push startsPacket 3 held byte
    (g'.nbytes = 3 ↔ r.2.isSome) ∧
      Holds (if g'.nbytes = 3 then mousePrintPacket { g' with nbytes := 0 } else g') r.1 ∧
      (if g'.nbytes = 3 then mousePrintPacket { g' with nbytes := 0 } else g').printed =
        g.printed ++ r.2.toList.map packetOf := by
  rw [h.clearPacket_eq]
  have short := h.short
  unfold mouseByte Framing.push
  simp only [h.nbytes, List.length_eq_zero_iff]
  by_cases stray : held = [] ∧ startsPacket byte = false
  · have stray' : byte &&& 0x08 = 0 ∧ held = [] := ⟨by simpa [startsPacket] using stray.2, stray.1⟩
    rw [if_pos stray, if_pos stray']
    obtain ⟨rfl, -⟩ := stray
    refine ⟨by simp, ?_, ?_⟩
    · rw [if_neg (by simp)]
      exact ⟨rfl, by decide, fun none => absurd rfl none⟩
    · rw [if_neg (by simp)]
      exact (List.append_nil _).symm
  · have stray' : ¬ (byte &&& 0x08 = 0 ∧ held = []) := fun h' =>
      stray ⟨h'.2, by simpa [startsPacket] using h'.1⟩
    rw [if_neg stray, if_neg stray', set_append_zeros held short]
    by_cases last : held.length + 1 = 3
    · have full : 3 - (held ++ [byte]).length = 0 := by
        rw [List.length_append, List.length_singleton]
        omega
      rw [if_pos last, if_pos last]
      dsimp only
      rw [if_pos last, full]
      refine ⟨by simp [last], ⟨rfl, by simp, by simp⟩, ?_⟩
      simp [mousePrintPacket, zeros]
    · rw [if_neg last, if_neg last]
      dsimp only
      rw [if_neg last]
      exact ⟨by simpa using last, ⟨by simp, by simpa using by omega, fun _ => rfl⟩, by simp⟩

/-- What the bytes of some calls complete and leave open. -/
abbrev received (held : List UInt8) (rs : ℕ → Reply) : List UInt8 × List (List UInt8) :=
  Framing.feed startsPacket 3 held (byte? rs).toList

theorem asyncHandle_received {g : Globals} {held : List UInt8} (h : Holds g held) (rs : ℕ → Reply) :
    Holds (asyncHandle g rs) (received held rs).1 ∧
      (asyncHandle g rs).printed = g.printed ++ (received held rs).2.map packetOf := by
  rw [asyncHandle, mouseIh_value, received]
  cases byte? rs with
  | none =>
    have open' : ¬ (clearPacket g).nbytes = 3 := by
      have := h.short
      rw [h.clearPacket_eq]
      change ¬ g.nbytes = 3
      rw [h.nbytes]
      omega
    simp only
    rw [if_neg open', h.clearPacket_eq]
    exact ⟨⟨h.nbytes, h.short, fun _ => rfl⟩, (List.append_nil _).symm⟩
  | some byte =>
    obtain ⟨-, holds, printed⟩ := print_push h byte
    refine ⟨holds, printed.trans ?_⟩
    simp [Framing.feed]

/-- The loop of `mouse_test_packet` does the same, and counts the packets. -/
theorem testPacketStep_eq {g : Globals} {held : List UInt8} (h : Holds g held) (counter : ℕ)
    (rs : ℕ → Reply) :
    testPacketStep (g, counter) (.notified rs) =
      (asyncHandle g rs, counter + (received held rs).2.length) := by
  rw [testPacketStep, asyncHandle, mouseIh_value, received]
  cases byte? rs with
  | none =>
    have open' : ¬ (clearPacket g).nbytes = 3 := by
      have := h.short
      rw [h.clearPacket_eq]
      change ¬ g.nbytes = 3
      rw [h.nbytes]
      omega
    simp only
    rw [if_neg open', if_neg open']
    rfl
  | some byte =>
    obtain ⟨complete, -⟩ := print_push h byte
    simp only
    by_cases full : (mouseByte byte (clearPacket g)).nbytes = 3
    · obtain ⟨frame, e⟩ := Option.isSome_iff_exists.1 (complete.1 full)
      rw [if_pos full, if_pos full, Option.toList_some, Framing.feed, e]
      rfl
    · have e : (Framing.push startsPacket 3 held byte).2 = none := by
        rw [← Option.not_isSome_iff_eq_none]
        exact fun some => full (complete.2 some)
      rw [if_neg full, if_neg full, Option.toList_some, Framing.feed, e]
      rfl

/-! ## Streams of interrupts -/

/-- The packets that some calls of `mouse_ih` complete, as their bytes. -/
def frames (rss : List (ℕ → Reply)) : List (List UInt8) :=
  (Framing.feed startsPacket 3 [] (rss.filterMap byte?)).2

theorem run_asyncHandle {g : Globals} {held : List UInt8} (h : Holds g held)
    (rss : List (ℕ → Reply)) :
    Holds (Transition.run asyncHandle g rss)
        (Framing.feed startsPacket 3 held (rss.filterMap byte?)).1 ∧
      (Transition.run asyncHandle g rss).printed =
        g.printed ++ (Framing.feed startsPacket 3 held (rss.filterMap byte?)).2.map packetOf := by
  induction rss generalizing g held with
  | nil => exact ⟨h, (List.append_nil _).symm⟩
  | cons rs rss ih =>
    have split : (rs :: rss).filterMap byte? = (byte? rs).toList ++ rss.filterMap byte? := by
      rw [List.filterMap_cons]
      cases byte? rs <;> rfl
    obtain ⟨h', printed⟩ := asyncHandle_received h rs
    obtain ⟨h'', printed'⟩ := ih h'
    rw [split, Framing.feed_append]
    refine ⟨h'', ?_⟩
    rw [Transition.run_cons, printed', printed, List.map_append, List.append_assoc]

theorem holds_nil {g : Globals} (start : g.nbytes = 0) : Holds g [] :=
  ⟨start, by decide, fun none => absurd rfl none⟩

/-- The bytes of the packet that is open after some calls. -/
def openFrame (rss : List (ℕ → Reply)) : List UInt8 :=
  (Framing.feed startsPacket 3 [] (rss.filterMap byte?)).1

theorem frames_concat (rss : List (ℕ → Reply)) (rs : ℕ → Reply) :
    frames (rss ++ [rs]) = frames rss ++ (received (openFrame rss) rs).2 := by
  have last : [rs].filterMap byte? = (byte? rs).toList := by
    rw [List.filterMap_cons]
    cases byte? rs <;> rfl
  rw [frames, List.filterMap_append, last, Framing.feed_append]
  rfl

theorem received_length_le (held : List UInt8) (rs : ℕ → Reply) :
    (received held rs).2.length ≤ 1 := by
  rw [received]
  cases byte? rs with
  | none => exact Nat.zero_le 1
  | some byte =>
    rw [Option.toList_some, Framing.feed]
    cases (Framing.push startsPacket 3 held byte).2 <;> simp [Framing.feed]

theorem frames_prefix {rss rss' : List (ℕ → Reply)} (h : rss <+: rss') : frames rss <+: frames rss' := by
  obtain ⟨rest, rfl⟩ := h
  rw [frames, frames, List.filterMap_append, Framing.feed_append]
  exact List.prefix_append _ _

/-! ## `mouse_test_packet` -/

/-- The call of `mouse_ih` for a message, by the replies to its reads. -/
def replies? : Message (ℕ → Reply) → Option (ℕ → Reply)
  | .notified replies => some replies
  | _ => none

theorem replies_concat (msgs : List (Message (ℕ → Reply))) (m : Message (ℕ → Reply)) :
    (msgs ++ [m]).filterMap replies? = msgs.filterMap replies? ++ (replies? m).toList := by
  rw [List.filterMap_append]
  cases m <;> rfl

theorem run_testPacketStep {g : Globals} (start : g.nbytes = 0) (msgs : List (Message (ℕ → Reply))) :
    Transition.run testPacketStep (g, 0) msgs =
      (Transition.run asyncHandle g (msgs.filterMap replies?),
        (frames (msgs.filterMap replies?)).length) := by
  induction msgs using List.reverseRecOn with
  | nil => rfl
  | append_singleton msgs m ih =>
    rw [Transition.run_concat, ih, replies_concat]
    have holds := (run_asyncHandle (holds_nil start) (msgs.filterMap replies?)).1
    cases m with
    | failed => simp [replies?, testPacketStep]
    | other => simp [replies?, testPacketStep]
    | notified rs =>
      rw [testPacketStep_eq holds, replies?, Option.toList_some, Transition.run_concat, frames_concat,
        List.length_append]
      rfl

/-- `mouse_test_packet` prints the first `cnt` packets that are completed; for a `cnt` that is negative
as an `int` it prints none. -/
theorem mouseTestPacket_printed {g : Globals} (start : g.nbytes = 0) (cnt : UInt32)
    (msgs : List (Message (ℕ → Reply))) :
    let packets := (frames (msgs.filterMap replies?)).map packetOf
    let wanted := (toInt cnt).toNat
    (mouseTestPacket cnt g msgs).1.printed = g.printed ++ packets.take wanted ∧
      (mouseTestPacket cnt g msgs).2 = min packets.length wanted := by
  intro packets wanted
  obtain ⟨pre, handles, e⟩ := exists_handles testPacketStep
    (fun s => !decide ((s.2 : ℤ) < toInt cnt)) (g, 0) msgs
  have slow : ∀ q m, (frames ((q ++ [m]).filterMap replies?)).length ≤
      (frames (q.filterMap replies?)).length + 1 := by
    intro q m
    rw [replies_concat]
    cases m with
    | failed => simp [replies?]
    | other => simp [replies?]
    | notified rs =>
      rw [replies?, Option.toList_some, frames_concat, List.length_append]
      exact Nat.add_le_add_left (received_length_le _ _) _
  have precise : ∀ q, (frames (q.filterMap replies?)).length ≤ wanted →
      ((!decide (((Transition.run testPacketStep (g, 0) q).2 : ℤ) < toInt cnt)) = true ↔
        False ∨ (frames (q.filterMap replies?)).length = wanted) := by
    intro q below
    rw [run_testPacketStep start, Bool.not_eq_true', decide_eq_false_iff_not, false_or]
    omega
  obtain ⟨-, bound, last⟩ := handles.reaches rfl slow precise
  have first : frames (pre.filterMap replies?) = (frames (msgs.filterMap replies?)).take wanted := by
    have begins : frames (pre.filterMap replies?) <+: frames (msgs.filterMap replies?) :=
      frames_prefix (handles.begins.filterMap _)
    rcases last with rfl | impossible | reached
    · exact (List.take_of_length_le bound).symm
    · exact impossible.elim
    · rw [← reached]
      exact List.prefix_iff_eq_take.1 begins
  have printed := (run_asyncHandle (holds_nil start) (pre.filterMap replies?)).2
  change _ = g.printed ++ (frames (pre.filterMap replies?)).map packetOf at printed
  rw [mouseTestPacket, e, run_testPacketStep start]
  refine ⟨?_, ?_⟩
  · rw [printed, first, List.map_take]
  · simp only [first, List.length_take, packets, List.length_map]
    exact min_comm _ _

/-! ## `mouse_test_async` -/

theorem testAsyncStep_eq : testAsyncStep = watch asyncHandle := by
  funext s msg
  rcases msg with _ | _ | ⟨replies, ticked⟩
  · rfl
  · rfl
  · cases replies <;> cases ticked <;> rfl

/-- `mouse_test_async` prints every packet of the mouse until `60 * idle_time` timer interrupts have come
without an interrupt of the mouse, and ends with the last of them. -/
theorem testAsync_stops {g : Globals} (start : g.nbytes = 0) (idleTime : UInt8)
    (msgs : List (Message (Signal (ℕ → Reply)))) :
    ∃ pre, pre <+: msgs ∧
      (mouseTestAsync idleTime g msgs).1.printed =
        g.printed ++ (frames (pre.filterMap event)).map packetOf ∧
      (mouseTestAsync idleTime g msgs).2 = idle pre ∧
      (∀ q m, q ++ [m] <+: pre → idle q < 60 * idleTime.toNat) ∧
      (pre = msgs ∨ idle pre = 60 * idleTime.toNat) := by
  obtain ⟨pre, handles, e⟩ := exists_handles testAsyncStep
    (fun s => !(true && decide (s.2 / 60 < idleTime.toNat))) (g, 0) msgs
  rw [testAsyncStep_eq] at handles e
  have run : mouseTestAsync idleTime g msgs =
      (Transition.run asyncHandle g (pre.filterMap event), idle pre) := by
    rw [← run_watch, ← e, mouseTestAsync, testAsyncStep_eq]
    rfl
  obtain ⟨before, last⟩ := watchdog (fun _ => true) (by decide) handles
  rw [run]
  refine ⟨pre, handles.begins, (run_asyncHandle (holds_nil start) _).2, rfl, ?_, ?_⟩
  · exact fun q m part => (before q m part).2
  · exact last.imp id (Or.resolve_left · nofun)

/-- A packet, 60 timer interrupts and a byte that comes too late. -/
def packetAndTicks : List (Message (Signal (ℕ → Reply))) :=
  [.notified ⟨some (deliver 0x08), true⟩, .notified ⟨some (deliver 0x05), false⟩,
      .notified ⟨some (deliver 0x03), false⟩] ++
    List.replicate 60 (.notified ⟨none, true⟩) ++ [.notified ⟨some (deliver 0x08), false⟩]

/-- The packet is printed, and the 60th interrupt of the timer is the last. -/
theorem testAsync_stops_packet :
    let g : Globals := ⟨zeros 3, 0, packetOf [], []⟩
    (mouseTestAsync 1 g packetAndTicks).1.printed = [packetOf [0x08, 0x05, 0x03]] ∧
      (mouseTestAsync 1 g packetAndTicks).2 = 60 := by
  intro g
  obtain ⟨pre, begins, printed, count, before, last⟩ := testAsync_stops (g := g) rfl 1 packetAndTicks
  have table : ∀ n < 65, idle (packetAndTicks.take n) = 60 → n = 63 := by decide
  have cut := List.prefix_iff_eq_take.1 begins
  have stopped : idle pre = 60 := by
    refine last.resolve_left ?_
    rintro rfl
    exact absurd (before (packetAndTicks.take 63) _ List.prefix_rfl) (by decide)
  have length : pre.length = 63 := by
    refine table _ (Nat.lt_succ_of_le begins.length_le) ?_
    rw [← cut, stopped]
  rw [length] at cut
  refine ⟨?_, count.trans stopped⟩
  rw [printed, cut]
  decide

/-! ## The packet format -/

/-- What a packet says: the buttons, the overflow flags, and a movement of nine bits on each axis. -/
structure Movement where
  rb : Bool
  mb : Bool
  lb : Bool
  xOv : Bool
  yOv : Bool
  deltaX : ℤ
  deltaY : ℤ
  rangeX : -256 ≤ deltaX ∧ deltaX < 256
  rangeY : -256 ≤ deltaY ∧ deltaY < 256

/-- The first byte of a packet. -/
def flags (rb mb lb xNeg yNeg xOv yOv : Bool) : UInt8 :=
  (if lb then 0x01 else 0) ||| (if rb then 0x02 else 0) ||| (if mb then 0x04 else 0) ||| 0x08 |||
    (if xNeg then 0x10 else 0) ||| (if yNeg then 0x20 else 0) ||| (if xOv then 0x40 else 0) |||
    (if yOv then 0x80 else 0)

/-- The bytes in which the PS/2 protocol sends a movement. -/
def Movement.bytes (m : Movement) : List UInt8 :=
  [flags m.rb m.mb m.lb (m.deltaX < 0) (m.deltaY < 0) m.xOv m.yOv,
    UInt8.ofNat (m.deltaX % 256).toNat, UInt8.ofNat (m.deltaY % 256).toNat]

/-- The fields of the packet say what was sent. -/
structure Shows (p : Packet) (m : Movement) : Prop where
  rb : p.rb = m.rb
  mb : p.mb = m.mb
  lb : p.lb = m.lb
  xOv : p.xOv = m.xOv
  yOv : p.yOv = m.yOv
  deltaX : p.deltaX.toInt = m.deltaX
  deltaY : p.deltaY.toInt = m.deltaY

theorem flags_fields : ∀ rb mb lb xNeg yNeg xOv yOv : Bool,
    let byte := flags rb mb lb xNeg yNeg xOv yOv
    startsPacket byte = true ∧
    decide ((byte &&& rbMouse) >>> 1 ≠ 0) = rb ∧ decide ((byte &&& mbMouse) >>> 2 ≠ 0) = mb ∧
    decide (byte &&& lbMouse ≠ 0) = lb ∧ decide (byte &&& xSign ≠ 0) = xNeg ∧
    decide (byte &&& ySign ≠ 0) = yNeg ∧ decide ((byte &&& xOvMouse) >>> 6 ≠ 0) = xOv ∧
    decide ((byte &&& yOvMouse) >>> 7 ≠ 0) = yOv := by
  decide

theorem exists_flags {byte : UInt8} (sync : startsPacket byte = true) :
    ∃ rb mb lb xNeg yNeg xOv yOv, flags rb mb lb xNeg yNeg xOv yOv = byte := by
  have table : ∀ b : Fin 256, let byte := UInt8.ofFin b
      startsPacket byte = true →
        flags (byte &&& 2 ≠ 0) (byte &&& 4 ≠ 0) (byte &&& 1 ≠ 0) (byte &&& 16 ≠ 0) (byte &&& 32 ≠ 0)
          (byte &&& 64 ≠ 0) (byte &&& 128 ≠ 0) = byte := by
    decide +kernel
  exact ⟨_, _, _, _, _, _, _, table byte.toFin sync⟩

theorem toInt_signed_mod {v : ℤ} (range : -256 ≤ v ∧ v < 256) :
    (signed (UInt8.ofNat (v % 256).toNat) (decide (v < 0))).toInt = v := by
  have byte : (UInt8.ofNat (v % 256).toNat).toNat = (v % 256).toNat :=
    UInt8.toNat_ofNat'.trans (Nat.mod_eq_of_lt (by omega))
  rw [toInt_signed, byte]
  by_cases negative : v < 0
  · rw [if_pos (decide_eq_true negative)]
    omega
  · rw [if_neg (by simpa using negative)]
    omega

/-- The fields of a packet say what its bytes encode. -/
theorem packetOf_shows (m : Movement) : Shows (packetOf m.bytes) m := by
  obtain ⟨-, rb, mb, lb, xNeg, yNeg, xOv, yOv⟩ :=
    flags_fields m.rb m.mb m.lb (m.deltaX < 0) (m.deltaY < 0) m.xOv m.yOv
  refine ⟨rb, mb, lb, xOv, yOv, ?_, ?_⟩
  · change (signed _ (decide (flags m.rb m.mb m.lb _ _ m.xOv m.yOv &&& xSign ≠ 0))).toInt = _
    rw [xNeg]
    exact toInt_signed_mod m.rangeX
  · change (signed _ (decide (flags m.rb m.mb m.lb _ _ m.xOv m.yOv &&& ySign ≠ 0))).toInt = _
    rw [yNeg]
    exact toInt_signed_mod m.rangeY

theorem Movement.synced (m : Movement) : Framing.Synced startsPacket 3 m.bytes :=
  ⟨rfl, _, _, rfl, (flags_fields _ _ _ _ _ _ _).1⟩

/-- Two bytes and their signs. -/
theorem exists_delta (byte : UInt8) (negative : Bool) :
    ∃ v : ℤ, (-256 ≤ v ∧ v < 256) ∧ decide (v < 0) = negative ∧
      UInt8.ofNat (v % 256).toNat = byte := by
  have small := byte.toNat_lt
  refine ⟨byte.toNat - if negative then 256 else 0, ?_, ?_, ?_⟩
  · split_ifs <;> omega
  · cases negative
    · simp
    · simp only [if_true, decide_eq_true_eq]
      omega
  · have same : ((byte.toNat - if negative then 256 else 0 : ℤ) % 256).toNat = byte.toNat := by
      split_ifs <;> omega
    rw [same, UInt8.ofNat_toNat]

/-- The packets with a set bit 3 are exactly the encodings of movements, each of one movement only, and
the fields that `mouse_ih` fills in give the movement back. -/
theorem packet_roundTrip :
    (∀ m : Movement, Shows (packetOf m.bytes) m) ∧
    (∀ m m' : Movement, m.bytes = m'.bytes → m = m') ∧
    (∀ byte0 byte1 byte2 : UInt8, byte0.toNat.testBit 3 = true ↔
      ∃ m : Movement, m.bytes = [byte0, byte1, byte2]) := by
  refine ⟨packetOf_shows, fun m m' same => ?_, fun byte0 byte1 byte2 => ⟨fun sync => ?_, ?_⟩⟩
  · have shown := packetOf_shows m
    rw [same] at shown
    have shown' := packetOf_shows m'
    obtain ⟨rb, mb, lb, xOv, yOv, deltaX, deltaY, rangeX, rangeY⟩ := m
    obtain ⟨rb', mb', lb', xOv', yOv', deltaX', deltaY', rangeX', rangeY'⟩ := m'
    obtain rfl : rb = rb' := shown.rb.symm.trans shown'.rb
    obtain rfl : mb = mb' := shown.mb.symm.trans shown'.mb
    obtain rfl : lb = lb' := shown.lb.symm.trans shown'.lb
    obtain rfl : xOv = xOv' := shown.xOv.symm.trans shown'.xOv
    obtain rfl : yOv = yOv' := shown.yOv.symm.trans shown'.yOv
    obtain rfl : deltaX = deltaX' := shown.deltaX.symm.trans shown'.deltaX
    obtain rfl : deltaY = deltaY' := shown.deltaY.symm.trans shown'.deltaY
    rfl
  · obtain ⟨rb, mb, lb, xNeg, yNeg, xOv, yOv, e⟩ := exists_flags ((masks byte0).1.trans sync)
    obtain ⟨deltaX, rangeX, negX, byteX⟩ := exists_delta byte1 xNeg
    obtain ⟨deltaY, rangeY, negY, byteY⟩ := exists_delta byte2 yNeg
    refine ⟨⟨rb, mb, lb, xOv, yOv, deltaX, deltaY, rangeX, rangeY⟩, ?_⟩
    rw [Movement.bytes, negX, negY, byteX, byteY, e]
  · rintro ⟨m, e⟩
    have starts := (flags_fields m.rb m.mb m.lb (m.deltaX < 0) (m.deltaY < 0) m.xOv m.yOv).1
    obtain rfl := (List.cons.inj e).1
    exact (masks _).1.symm.trans starts

/-- Whatever stray bytes come first and whatever messages come between the bytes, `mouse_test_packet`
prints the first `cnt` movements of the mouse, in order, and nothing else; for a `cnt` that is negative
as an `int` it prints none. -/
theorem testPacket_prints {g : Globals} (start : g.nbytes = 0) (cnt : UInt32)
    {msgs : List (Message (ℕ → Reply))} {strays : List UInt8} {ms : List Movement}
    (dropped : ∀ byte ∈ strays, byte.toNat.testBit 3 = false)
    (sent : (msgs.filterMap replies?).filterMap byte? = strays ++ ms.flatMap Movement.bytes) :
    ∃ printed, (mouseTestPacket cnt g msgs).1.printed = g.printed ++ printed ∧
      List.Forall₂ Shows printed (ms.take (toInt cnt).toNat) ∧
      (mouseTestPacket cnt g msgs).2 = printed.length := by
  have received : frames (msgs.filterMap replies?) = ms.map Movement.bytes := by
    have stray : ∀ byte ∈ strays, startsPacket byte = false := fun byte hb =>
      (masks byte).1.trans (dropped byte hb)
    have synced : ∀ frame ∈ ms.map Movement.bytes, Framing.Synced startsPacket 3 frame := by
      intro frame hf
      obtain ⟨m, -, rfl⟩ := List.mem_map.1 hf
      exact m.synced
    rw [frames, sent, List.flatMap_def, Framing.feed_frames (by decide) stray synced]
  obtain ⟨printed, counter⟩ := mouseTestPacket_printed start cnt msgs
  rw [received, List.map_map] at printed counter
  refine ⟨_, printed, ?_, ?_⟩
  · rw [← List.map_take, List.forall₂_map_left_iff]
    exact List.forall₂_same.2 fun m _ => packetOf_shows m
  · rw [counter, List.length_take, min_comm]

theorem byte?_deliver (byte : UInt8) : byte? (deliver byte) = some byte := by
  have delivers := delivers_deliver byte
  have read : auxSet (deliver byte 0) ∧ outputFull (deliver byte 1) ∧ ¬ inError (deliver byte 3) :=
    ⟨.inr delivers.aux.2, .inr delivers.obf.2,
      fun error => error.elim (· delivers.noError.1) (· delivers.noError.2)⟩
  rw [byte?, if_pos read, delivers.data.2]

theorem filterMap_deliver (bytes : List UInt8) :
    ((bytes.map fun byte => Message.notified (deliver byte)).filterMap replies?).filterMap byte? =
      bytes := by
  induction bytes with
  | nil => rfl
  | cons byte bytes ih =>
    have first := byte?_deliver byte
    simp only [List.map_cons, List.filterMap_cons, replies?, first, ih]

/-- A stray byte, two movements and an interrupt of another device in between; one packet is asked
for. -/
theorem testPacket_prints_first :
    let right : Movement := ⟨false, false, true, false, false, 5, -3, by decide, by decide⟩
    let left : Movement := ⟨false, true, false, false, false, -200, 40, by decide, by decide⟩
    let msgs := .notified (deliver 0x00) :: .other ::
      (right.bytes ++ left.bytes).map fun byte => Message.notified (deliver byte)
    ∃ printed, (mouseTestPacket 1 ⟨zeros 3, 0, packetOf [], []⟩ msgs).1.printed = printed ∧
      List.Forall₂ Shows printed [right] := by
  intro right left msgs
  have sent : (msgs.filterMap replies?).filterMap byte? =
      [0x00] ++ [right, left].flatMap Movement.bytes := by
    have first := byte?_deliver 0x00
    simp only [msgs, List.filterMap_cons, replies?, first, filterMap_deliver]
    rfl
  obtain ⟨printed, e, shows, -⟩ := testPacket_prints (g := ⟨zeros 3, 0, packetOf [], []⟩) rfl 1
    (List.forall_mem_singleton.2 (by decide)) sent
  exact ⟨printed, e, shows⟩

end LabComputers.Lab4

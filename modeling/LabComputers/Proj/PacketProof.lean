import LabComputers.Lib.Framing
import LabComputers.Proj.HandlerProof

/-!
# The packets of the mouse

`mouse_ih` is a receiver of frames of three bytes in the sense of `Framing`: `handle_delivers` and
`handle_idle` are the simulation, for one interrupt each, and `packets_decoded` is what it gives for
a whole stream of packets.
-/

namespace LabComputers

open CString Port

/-- The event with which a recorded call entered `mouse_event_handler`. -/
def Call.event? : Call → Option MouseEvent
  | .mouseEventHandler event => some event
  | _ => none

/-- The events with which `mouse_event_handler` was called, in order. -/
def events (calls : List Call) : List MouseEvent := (calls.filterMap Call.event?).reverse

theorem events_mouseEventHandler (event : MouseEvent) (g : Globals) :
    events (mouseEventHandler event g).calls = events g.calls ++ [event] := by
  have added : ∀ cs, cs.filterMap Call.event? = [] →
      events (cs ++ .mouseEventHandler event :: g.calls) = events g.calls ++ [event] := by
    intro cs none
    rw [events, List.filterMap_append, none]
    simp [Call.event?, events]
  rcases mouseEventHandler_cases event g with e | e | ⟨-, c, -, e⟩ | ⟨-, e⟩ | ⟨-, st, -, e⟩ <;>
    rw [e]
  · exact added [] rfl
  · exact added [] rfl
  · exact added [.hit c.1 c.2, .mouseCheckKill] rfl
  · exact added [.mouseCheckKill] rfl
  · exact added [.mouseCheckExitButton, .mouseCheckPlayButton] rfl

/-! ## One interrupt -/

/-- The replies with which a call of `mouse_ih` receives a byte: AUX and OBF are set, no error flag
is, and the byte is in the output buffer. -/
structure Delivers (rs : ℕ → Reply) (byte : UInt8) : Prop where
  aux : (rs 0).res = 0 ∧ (rs 0).val.toUInt8 &&& mouseCheck ≠ 0
  obf : (rs 1).res = 0 ∧ (rs 1).val.toUInt8 &&& kbcOutBufFull ≠ 0
  data : (rs 2).res = 0 ∧ (rs 2).val.toUInt8 = byte
  noError : (rs 3).res = 0 ∧ (rs 3).val.toUInt8 &&& kbcStatCheck = 0

/-- The replies with which a call of `mouse_ih` finds AUX clear or OBF clear. -/
def Idle (rs : ℕ → Reply) : Prop :=
  (rs 0).val.toUInt8 &&& mouseCheck = 0 ∨
    ((rs 1).res = 0 ∧ (rs 1).val.toUInt8 &&& kbcOutBufFull = 0)

/-- The byte may start a packet. -/
def startsPacket (byte : UInt8) : Bool := byte &&& 0x08 ≠ 0

/-- The bytes of the packet that `mouse_ih` has begun to collect. -/
structure Holds (g : Globals) (held : List UInt8) : Prop where
  nbytes : g.nbytes = held.length
  short : held.length < 3
  arr : held ≠ [] → g.arr = held ++ zeros (3 - held.length)

theorem Holds.clearPacket_eq {g : Globals} {held : List UInt8} (h : Holds g held) :
    clearPacket g = { g with arr := held ++ zeros (3 - held.length) } := by
  unfold clearPacket
  by_cases empty : held = []
  · subst empty
    have none : g.nbytes = 0 := h.nbytes
    rw [if_pos none]
    rfl
  · rw [if_neg (by rw [h.nbytes]; simpa using empty), ← h.arr empty]

/-- A call that returns before it takes a byte keeps the collected ones. -/
theorem handle_unread {g : Globals} {held : List UInt8} (h : Holds g held) {rs : ℕ → Reply}
    (unread : ¬ (¬ auxClear (rs 0) ∧ outputFull (rs 1) ∧ ¬ inError (rs 3))) :
    Holds (handle g (.mouse rs)) held ∧ events (handle g (.mouse rs)).calls = events g.calls := by
  rw [handle, mouseIh_value, if_neg unread, h.clearPacket_eq]
  exact ⟨⟨h.nbytes, h.short, fun _ => rfl⟩, rfl⟩

theorem handle_idle {g : Globals} {held : List UInt8} (h : Holds g held) {rs : ℕ → Reply}
    (idle : Idle rs) :
    Holds (handle g (.mouse rs)) held ∧ events (handle g (.mouse rs)).calls = events g.calls := by
  apply handle_unread h
  rintro ⟨aux, full, -⟩
  rcases idle with clear | ⟨ok, clear⟩
  · exact aux (Or.inr clear)
  · rcases full with failed | full
    · exact failed ok
    · exact full clear

theorem set_append_zeros (held : List UInt8) (short : held.length < 3) (byte : UInt8) :
    (held ++ zeros (3 - held.length)).set held.length byte =
      (held ++ [byte]) ++ zeros (3 - (held ++ [byte]).length) := by
  obtain ⟨k, hk⟩ : ∃ k, 3 - held.length = k + 1 := ⟨2 - held.length, by omega⟩
  have hk' : 3 - (held ++ [byte]).length = k := by
    rw [List.length_append, List.length_singleton]
    omega
  rw [hk, hk', List.set_append_right _ _ (Nat.le_refl _), Nat.sub_self]
  simp [zeros, List.replicate_succ]

theorem Delivers.handle_eq {rs : ℕ → Reply} {byte : UInt8} (delivers : Delivers rs byte)
    (g : Globals) : handle g (.mouse rs) = mouseByte byte (clearPacket g) := by
  have read : ¬ auxClear (rs 0) ∧ outputFull (rs 1) ∧ ¬ inError (rs 3) :=
    ⟨fun clear => clear.elim (· delivers.aux.1) delivers.aux.2, Or.inr delivers.obf.2,
      fun error => error.elim (· delivers.noError.1) (· delivers.noError.2)⟩
  rw [handle, mouseIh_value, if_pos read, delivers.data.2]

/-- A delivered byte is received as a framing receiver would. -/
theorem handle_delivers {g : Globals} {held : List UInt8} (h : Holds g held) {rs : ℕ → Reply}
    {byte : UInt8} (delivers : Delivers rs byte) :
    Holds (handle g (.mouse rs)) (Framing.push startsPacket 3 held byte).1 ∧
      events (handle g (.mouse rs)).calls =
        events g.calls ++ (Framing.push startsPacket 3 held byte).2.toList.map mouseEvent := by
  rw [delivers.handle_eq, h.clearPacket_eq]
  unfold mouseByte Framing.push
  simp only [h.nbytes, List.length_eq_zero_iff]
  by_cases stray : held = [] ∧ startsPacket byte = false
  · have stray' : byte &&& 0x08 = 0 ∧ held = [] := ⟨by simpa [startsPacket] using stray.2, stray.1⟩
    rw [if_pos stray, if_pos stray']
    refine ⟨⟨?_, ?_, ?_⟩, by simp⟩ <;> simp [stray.1]
  · have stray' : ¬ (byte &&& 0x08 = 0 ∧ held = []) := fun h' =>
      stray ⟨h'.2, by simpa [startsPacket] using h'.1⟩
    rw [if_neg stray, if_neg stray', set_append_zeros held h.short]
    by_cases last : held.length + 1 = 3
    · rw [if_pos last, if_pos last]
      refine ⟨⟨rfl, by simp, by simp⟩, ?_⟩
      have full : 3 - (held ++ [byte]).length = 0 := by
        rw [List.length_append, List.length_singleton]
        omega
      simp only [full, zeros, List.replicate_zero, List.append_nil, events_mouseEventHandler,
        Option.toList_some, List.map_cons, List.map_nil]
    · rw [if_neg last, if_neg last]
      have := h.short
      exact ⟨⟨by simp, by simpa using by omega, fun _ => rfl⟩, by simp⟩

theorem handle_mouse_nbytes {g : Globals} (short : g.nbytes < 3) (rs : ℕ → Reply) :
    (handle g (.mouse rs)).nbytes < 3 := by
  have cleared : (clearPacket g).nbytes = g.nbytes := by
    unfold clearPacket
    split_ifs <;> rfl
  rw [handle, mouseIh_value]
  split_ifs
  · unfold mouseByte
    simp only
    split_ifs with stray last
    · rwa [cleared]
    · exact Nat.zero_lt_succ 2
    · simp only [cleared] at *
      omega
  · rwa [cleared]

/-! ## Streams of interrupts -/

/-- Calls of `mouse_ih`, by their replies, that deliver the bytes one by one, with idle calls in
between. -/
inductive Feed : List (ℕ → Reply) → List UInt8 → Prop
  | nil : Feed [] []
  | idle {rs rss bytes} : Idle rs → Feed rss bytes → Feed (rs :: rss) bytes
  | byte {rs rss byte bytes} : Delivers rs byte → Feed rss bytes → Feed (rs :: rss) (byte :: bytes)

theorem run_feed {g : Globals} {held : List UInt8} (h : Holds g held) {rss : List (ℕ → Reply)}
    {bytes : List UInt8} (feed : Feed rss bytes) :
    Holds (Transition.run handle g (rss.map .mouse)) (Framing.feed startsPacket 3 held bytes).1 ∧
      events (Transition.run handle g (rss.map .mouse)).calls =
        events g.calls ++ (Framing.feed startsPacket 3 held bytes).2.map mouseEvent := by
  induction feed generalizing g held with
  | nil => exact ⟨h, by simp [Framing.feed]⟩
  | idle idle _ ih =>
    obtain ⟨h', e⟩ := handle_idle h idle
    obtain ⟨h'', e'⟩ := ih h'
    exact ⟨h'', by rw [List.map_cons, Transition.run_cons, e', e]⟩
  | byte delivers _ ih =>
    obtain ⟨h', e⟩ := handle_delivers h delivers
    obtain ⟨h'', e'⟩ := ih h'
    refine ⟨h'', ?_⟩
    rw [List.map_cons, Transition.run_cons, e', e, Framing.feed, List.map_append,
      List.append_assoc]

theorem run_mouse_nbytes {g : Globals} (short : g.nbytes < 3) (rss : List (ℕ → Reply)) :
    (Transition.run handle g (rss.map .mouse)).nbytes < 3 := by
  induction rss generalizing g with
  | nil => exact short
  | cons rs rss ih => exact ih (handle_mouse_nbytes short rs)

/-- Replies that deliver a byte. -/
def deliver (byte : UInt8) : ℕ → Reply := fun k => ⟨0, if k = 2 then byte.toUInt32 else 0x21⟩

theorem delivers_deliver (byte : UInt8) : Delivers (deliver byte) byte where
  aux := ⟨rfl, show (0x21 : UInt32).toUInt8 &&& mouseCheck ≠ 0 by decide⟩
  obf := ⟨rfl, show (0x21 : UInt32).toUInt8 &&& kbcOutBufFull ≠ 0 by decide⟩
  data := ⟨rfl, by simp [deliver]⟩
  noError := ⟨rfl, show (0x21 : UInt32).toUInt8 &&& kbcStatCheck = 0 by decide⟩

/-! ## Packets -/

/-- A packet of the mouse. -/
structure Packet where
  byte0 : UInt8
  byte1 : UInt8
  byte2 : UInt8
  sync : byte0.toNat.testBit 3 = true

/-- The first byte of a packet without pressed buttons. -/
theorem sync_idle : (0x08 : UInt8).toNat.testBit 3 = true := by decide

/-- The bytes of a packet in the order of their arrival. -/
def Packet.bytes (p : Packet) : List UInt8 := [p.byte0, p.byte1, p.byte2]

/-- The event that the PS/2 protocol encodes in a packet. -/
structure Packet.Encodes (p : Packet) (event : MouseEvent) : Prop where
  moveX : event.moveX.toInt = p.byte1.toNat - 256 * (p.byte0.toNat.testBit 4).toNat
  moveY : event.moveY.toInt = p.byte2.toNat - 256 * (p.byte0.toNat.testBit 5).toNat
  lbdown : event.lbdown = p.byte0.toNat.testBit 0
  overflow : event.overflow = (p.byte0.toNat.testBit 6 || p.byte0.toNat.testBit 7)

/-- The masks of `ps2.h` select single bits. -/
theorem masks (byte : UInt8) :
    startsPacket byte = byte.toNat.testBit 3 ∧
    decide (byte &&& xSign ≠ 0) = byte.toNat.testBit 4 ∧
    decide (byte &&& ySign ≠ 0) = byte.toNat.testBit 5 ∧
    decide (byte &&& lbMouse ≠ 0) = byte.toNat.testBit 0 ∧
    decide ((byte &&& xOvMouse) >>> 6 ≠ 0 ∨ (byte &&& yOvMouse) >>> 7 ≠ 0) =
      (byte.toNat.testBit 6 || byte.toNat.testBit 7) := by
  have table : ∀ b : Fin 256, let byte := UInt8.ofFin b
      startsPacket byte = (b : ℕ).testBit 3 ∧
      decide (byte &&& xSign ≠ 0) = (b : ℕ).testBit 4 ∧
      decide (byte &&& ySign ≠ 0) = (b : ℕ).testBit 5 ∧
      decide (byte &&& lbMouse ≠ 0) = (b : ℕ).testBit 0 ∧
      decide ((byte &&& xOvMouse) >>> 6 ≠ 0 ∨ (byte &&& yOvMouse) >>> 7 ≠ 0) =
        ((b : ℕ).testBit 6 || (b : ℕ).testBit 7) := by
    decide +kernel
  exact table byte.toFin

theorem Packet.encodes (p : Packet) : p.Encodes (mouseEvent p.bytes) := by
  obtain ⟨-, x, y, lb, ov⟩ := masks p.byte0
  have weight : ∀ b : Bool, (if b then 256 else 0 : ℤ) = 256 * (b.toNat : ℤ) := by decide
  refine ⟨?_, ?_, lb, ov⟩
  · simp only [mouseEvent, toInt_signed, Packet.bytes, List.getD_cons_succ, List.getD_cons_zero]
    rw [x, weight]
  · simp only [mouseEvent, toInt_signed, Packet.bytes, List.getD_cons_succ, List.getD_cons_zero]
    rw [y, weight]

/-- The state in which the event handler is called for a packet. -/
def Packet.received (p : Packet) (g : Globals) : Globals := { g with arr := p.bytes, nbytes := 3 }

/-- The state after the packet was handled. -/
def Packet.handled (p : Packet) (g : Globals) : Globals :=
  { mouseEventHandler (mouseEvent p.bytes) (p.received g) with nbytes := 0 }

/-- The state in which the bytes `held` of a packet have been collected. -/
def Globals.collecting (g : Globals) (held : List UInt8) : Globals :=
  { g with arr := held ++ zeros (3 - held.length), nbytes := held.length }

theorem Packet.handle_byte0 (p : Packet) {g : Globals} (start : g.nbytes = 0) :
    handle g (.mouse (deliver p.byte0)) = g.collecting [p.byte0] := by
  have sync : ¬ (p.byte0 &&& 0x08 = 0) := by
    have : startsPacket p.byte0 = true := (masks p.byte0).1.trans p.sync
    simpa [startsPacket] using this
  rw [(delivers_deliver _).handle_eq, clearPacket, if_pos start, mouseByte, if_neg fun h => sync h.1]
  simp [start, zeros, List.replicate, Globals.collecting]

theorem Packet.handle_byte1 (p : Packet) (g : Globals) :
    handle (g.collecting [p.byte0]) (.mouse (deliver p.byte1)) =
      g.collecting [p.byte0, p.byte1] := by
  rw [(delivers_deliver _).handle_eq]
  simp [clearPacket, mouseByte, zeros, List.replicate, Globals.collecting]

theorem Packet.handle_byte2 (p : Packet) (g : Globals) :
    handle (g.collecting [p.byte0, p.byte1]) (.mouse (deliver p.byte2)) = p.handled g := by
  rw [(delivers_deliver _).handle_eq]
  simp [clearPacket, mouseByte, zeros, Globals.collecting, Packet.handled, Packet.received,
    Packet.bytes]

/-- The interrupts that deliver a packet. -/
def Packet.interrupts (p : Packet) : List Interrupt := p.bytes.map fun byte => .mouse (deliver byte)

/-- Three interrupts that deliver a packet call the event handler. -/
theorem Packet.run_interrupts (p : Packet) {g : Globals} (start : g.nbytes = 0) :
    Transition.run handle g p.interrupts = p.handled g := by
  simp only [Packet.interrupts, Packet.bytes, List.map_cons, List.map_nil, Transition.run_cons,
    Transition.run_nil]
  rw [p.handle_byte0 start, p.handle_byte1, p.handle_byte2]

theorem leads_packet {g : Globals} (awake : g.gameState ≠ .exit) (start : g.nbytes = 0)
    (p : Packet) : Leads g (p.handled g) := by
  have awake' : exited g = false := by simpa [exited] using awake
  rw [← p.handle_byte2, ← p.handle_byte1, ← p.handle_byte0 start]
  refine ((Transition.Reaches.single awake' _).tail _ ?_).tail _ ?_
  · rw [p.handle_byte0 start]
    exact awake'
  · rw [p.handle_byte0 start, p.handle_byte1]
    exact awake'

theorem Packet.synced (p : Packet) : Framing.Synced startsPacket 3 p.bytes :=
  ⟨rfl, p.byte0, _, rfl, (masks p.byte0).1.trans p.sync⟩

/-- However stray bytes, packets and idle interrupts arrive, `mouse_event_handler` is called once
for each packet, in order, with the event that the packet encodes, and `nbytes` stays below 3. -/
theorem packets_decoded {g : Globals} (start : g.nbytes = 0) {rss : List (ℕ → Reply)}
    {strays : List UInt8} (dropped : ∀ byte ∈ strays, byte.toNat.testBit 3 = false)
    {packets : List Packet} (feed : Feed rss (strays ++ (packets.map Packet.bytes).flatten)) :
    (∃ new, events (Transition.run handle g (rss.map .mouse)).calls = events g.calls ++ new ∧
      List.Forall₂ Packet.Encodes packets new) ∧
    ∀ rss', rss' <+: rss → (Transition.run handle g (rss'.map .mouse)).nbytes < 3 := by
  have received : Framing.feed startsPacket 3 [] (strays ++ (packets.map Packet.bytes).flatten) =
      ([], packets.map Packet.bytes) := by
    apply Framing.feed_frames (by decide) fun b hb => (masks b).1.trans (dropped b hb)
    intro f hf
    obtain ⟨p, -, rfl⟩ := List.mem_map.1 hf
    exact p.synced
  refine ⟨⟨(packets.map Packet.bytes).map mouseEvent, ?_, ?_⟩, fun rss' _ => ?_⟩
  · have h : Holds g [] := ⟨start, by simp, by simp⟩
    rw [(run_feed h feed).2, received]
  · rw [List.map_map, List.forall₂_map_right_iff, List.forall₂_same]
    exact fun p _ => p.encodes
  · exact run_mouse_nbytes (by omega) rss'

/-- A stray byte, a spurious interrupt and a packet that moves the pointer by (-1, 2). -/
theorem packets_decoded_once :
    ∃ new, events (Transition.run handle (loopStart .zero)
        ([deliver 0x00, fun _ => ⟨0, 0⟩, deliver 0x19, deliver 0xFF, deliver 0x02].map .mouse)).calls =
        [] ++ new ∧
      List.Forall₂ Packet.Encodes [⟨0x19, 0xFF, 0x02, by decide⟩] new := by
  have dropped : ∀ byte ∈ [(0x00 : UInt8)], byte.toNat.testBit 3 = false := by
    rw [List.forall_mem_singleton]
    decide
  exact (packets_decoded (g := loopStart .zero) rfl dropped
    (.byte (delivers_deliver _) (.idle (Or.inl (by decide)) (.byte (delivers_deliver _)
      (.byte (delivers_deliver _) (.byte (delivers_deliver _) .nil)))))).1

end LabComputers

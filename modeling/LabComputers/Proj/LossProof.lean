import LabComputers.Proj.PacketProof

/-!
# Packets with lost bytes

When `kbc_communication_error` reports an error, `mouse_ih` discards the byte it has read and keeps the
bytes collected before it, so the packet is completed by bytes of the next one.  To say which bytes an
event is built from, each byte is tagged with the number of its packet; `events_pure_iff` says for which
losses every event is built from one packet.
-/

namespace LabComputers

open CString Port

/-! ## Reads with and without an error -/

/-- A packet, and which of its bytes are read without an error. -/
structure LossyPacket where
  packet : Packet
  kept0 : Bool
  kept1 : Bool
  kept2 : Bool

/-- The bytes of a packet in the order of their arrival, and whether they are kept. -/
def LossyPacket.reads (p : LossyPacket) : List (UInt8 × Bool) :=
  [(p.packet.byte0, p.kept0), (p.packet.byte1, p.kept1), (p.packet.byte2, p.kept2)]

/-- The bytes that are kept. -/
def keptBytes (reads : List (UInt8 × Bool)) : List UInt8 := (reads.filter (·.2)).map Prod.fst

@[simp] theorem keptBytes_cons_true (byte : UInt8) (reads : List (UInt8 × Bool)) :
    keptBytes ((byte, true) :: reads) = byte :: keptBytes reads := rfl

@[simp] theorem keptBytes_cons_false (byte : UInt8) (reads : List (UInt8 × Bool)) :
    keptBytes ((byte, false) :: reads) = keptBytes reads := rfl

/-- The bytes of a packet that are kept. -/
def LossyPacket.survivors (p : LossyPacket) : List UInt8 := keptBytes p.reads

/-- The replies with which a call of `mouse_ih` reads a byte and discards it: AUX and OBF are set, the
byte is in the output buffer, and `kbc_communication_error` reports an error. -/
structure Discards (rs : ℕ → Reply) (byte : UInt8) : Prop where
  aux : (rs 0).res = 0 ∧ (rs 0).val.toUInt8 &&& mouseCheck ≠ 0
  obf : (rs 1).res = 0 ∧ (rs 1).val.toUInt8 &&& kbcOutBufFull ≠ 0
  data : (rs 2).res = 0 ∧ (rs 2).val.toUInt8 = byte
  error : inError (rs 3)

/-- Calls of `mouse_ih`, by their replies, that read some bytes, with idle calls in between. -/
inductive LossyFeed : List (ℕ → Reply) → List (UInt8 × Bool) → Prop
  | nil : LossyFeed [] []
  | idle {rs rss reads} : Idle rs → LossyFeed rss reads → LossyFeed (rs :: rss) reads
  | kept {rs rss byte reads} : Delivers rs byte → LossyFeed rss reads →
      LossyFeed (rs :: rss) ((byte, true) :: reads)
  | lost {rs rss byte reads} : Discards rs byte → LossyFeed rss reads →
      LossyFeed (rs :: rss) ((byte, false) :: reads)

/-- The bytes that are kept are received as a framing receiver would. -/
theorem run_lossyFeed {g : Globals} {held : List UInt8} (h : Holds g held) {rss : List (ℕ → Reply)}
    {reads : List (UInt8 × Bool)} (feed : LossyFeed rss reads) :
    Holds (Transition.run handle g (rss.map .mouse))
        (Framing.feed startsPacket 3 held (keptBytes reads)).1 ∧
      events (Transition.run handle g (rss.map .mouse)).calls =
        events g.calls ++ (Framing.feed startsPacket 3 held (keptBytes reads)).2.map mouseEvent := by
  induction feed generalizing g held with
  | nil => exact ⟨h, by simp [keptBytes, Framing.feed]⟩
  | idle idle _ ih =>
    obtain ⟨h', e⟩ := handle_idle h idle
    obtain ⟨h'', e'⟩ := ih h'
    exact ⟨h'', by rw [List.map_cons, Transition.run_cons, e', e]⟩
  | kept delivers _ ih =>
    obtain ⟨h', e⟩ := handle_delivers h delivers
    obtain ⟨h'', e'⟩ := ih h'
    refine ⟨h'', ?_⟩
    rw [List.map_cons, Transition.run_cons, e', e, keptBytes_cons_true, Framing.feed, List.map_append,
      List.append_assoc]
  | lost discards _ ih =>
    obtain ⟨h', e⟩ := handle_unread h fun read => read.2.2 discards.error
    obtain ⟨h'', e'⟩ := ih h'
    refine ⟨h'', ?_⟩
    rw [List.map_cons, Transition.run_cons, e', e, keptBytes_cons_false]

/-! ## The packets that events are built from -/

/-- The surviving bytes of each packet, tagged with its number, from `k` on. -/
def tagged (k : ℕ) : List LossyPacket → List (List (UInt8 × ℕ))
  | [] => []
  | p :: ps => p.survivors.map (fun byte => (byte, k)) :: tagged (k + 1) ps

theorem tagged_untag (k : ℕ) (packets : List LossyPacket) :
    (tagged k packets).map (List.map Prod.fst) = packets.map LossyPacket.survivors := by
  induction packets generalizing k with
  | nil => rfl
  | cons p ps ih =>
    rw [tagged, List.map_cons, List.map_cons, ih, List.map_map]
    exact congrArg (· :: _) (List.map_id _)

theorem le_of_mem_tagged {k : ℕ} {packets : List LossyPacket} {block : List (UInt8 × ℕ)}
    (hb : block ∈ tagged k packets) {x : UInt8 × ℕ} (hx : x ∈ block) : k ≤ x.2 := by
  induction packets generalizing k with
  | nil => cases hb
  | cons p ps ih =>
    rcases List.mem_cons.1 hb with rfl | hb
    · obtain ⟨byte, -, rfl⟩ := List.mem_map.1 hx
      exact Nat.le_refl k
    · exact Nat.le_of_succ_le (ih hb)

theorem LossyPacket.survivors_synced (p : LossyPacket) :
    Framing.Synced startsPacket 3 p.survivors ∨ p.survivors.length < 3 := by
  obtain ⟨packet, kept0, kept1, kept2⟩ := p
  cases kept0 <;> cases kept1 <;> cases kept2
  on_goal 8 => exact Or.inl packet.synced
  all_goals exact Or.inr (by simp [LossyPacket.survivors, LossyPacket.reads, keptBytes])

/-- The frames that the receiver builds from the tagged bytes. -/
def taggedFrames (packets : List LossyPacket) : List (List (UInt8 × ℕ)) :=
  (Framing.feed (startsPacket ∘ Prod.fst) 3 [] (tagged 0 packets).flatten).2

theorem keptBytes_flatMap (packets : List LossyPacket) :
    keptBytes (packets.flatMap LossyPacket.reads) = (packets.map LossyPacket.survivors).flatten := by
  induction packets with
  | nil => rfl
  | cons p ps ih =>
    rw [List.flatMap_cons, List.map_cons, List.flatten_cons, ← ih]
    simp only [keptBytes, LossyPacket.survivors, List.filter_append, List.map_append]

/-- The events are built from the tagged frames. -/
theorem events_taggedFrames {g : Globals} (start : g.nbytes = 0) {rss : List (ℕ → Reply)}
    {packets : List LossyPacket} (feed : LossyFeed rss (packets.flatMap LossyPacket.reads)) :
    events (Transition.run handle g (rss.map .mouse)).calls = events g.calls ++
      (taggedFrames packets).map fun frame => mouseEvent (frame.map Prod.fst) := by
  have h : Holds g [] := ⟨start, by simp, by simp⟩
  have untagged := @Framing.feed_map _ startsPacket 3 _ Prod.fst [] (tagged 0 packets).flatten
  rw [List.map_flatten, tagged_untag, List.map_nil] at untagged
  rw [(run_lossyFeed h feed).2, keptBytes_flatMap, untagged, taggedFrames, List.map_map]
  rfl

theorem tagged_own (k : ℕ) (packets : List LossyPacket) :
    ∀ block ∈ tagged k packets, Framing.Pure Prod.snd block := by
  induction packets generalizing k with
  | nil => exact List.forall_mem_nil _
  | cons p ps ih =>
    refine List.forall_mem_cons.2 ⟨?_, ih (k + 1)⟩
    intro x hx y hy
    obtain ⟨byte, -, rfl⟩ := List.mem_map.1 hx
    obtain ⟨byte', -, rfl⟩ := List.mem_map.1 hy
    rfl

theorem tagged_distinct (k : ℕ) (packets : List LossyPacket) :
    (tagged k packets).Pairwise fun b c => ∀ x ∈ b, ∀ y ∈ c, x.2 ≠ y.2 := by
  induction packets generalizing k with
  | nil => exact List.Pairwise.nil
  | cons p ps ih =>
    refine List.pairwise_cons.2 ⟨fun block hblock x hx y hy => ?_, ih (k + 1)⟩
    obtain ⟨byte, -, rfl⟩ := List.mem_map.1 hx
    exact Nat.ne_of_lt (le_of_mem_tagged hblock hy)

theorem tagged_frames (k : ℕ) (packets : List LossyPacket) :
    ∀ block ∈ tagged k packets,
      Framing.Synced (startsPacket ∘ Prod.fst) 3 block ∨ block.length < 3 := by
  induction packets generalizing k with
  | nil => exact List.forall_mem_nil _
  | cons p ps ih =>
    refine List.forall_mem_cons.2 ⟨?_, ih (k + 1)⟩
    rw [List.length_map]
    rcases p.survivors_synced with ⟨len, a, rest, split, starts⟩ | short
    · refine Or.inl ⟨by rw [List.length_map, len], (a, k), rest.map fun byte => (byte, k), ?_, starts⟩
      rw [split, List.map_cons]
    · exact Or.inr short

/-- The event is built from bytes of one packet. -/
def OnePacket (frame : List (UInt8 × ℕ)) : Prop := Framing.Pure Prod.snd frame

/-- However bytes are lost, the events are those of the tagged frames; all of these are built from bytes
of one packet, if and only if the first packet that loses bytes but leaves one with bit 3 set is
followed, from that byte on, by fewer than three bytes that are kept. -/
theorem events_pure_iff {g : Globals} (start : g.nbytes = 0) {rss : List (ℕ → Reply)}
    {packets : List LossyPacket} (feed : LossyFeed rss (packets.flatMap LossyPacket.reads)) :
    events (Transition.run handle g (rss.map .mouse)).calls = events g.calls ++
        (taggedFrames packets).map (fun frame => mouseEvent (frame.map Prod.fst)) ∧
      ((∀ frame ∈ taggedFrames packets, OnePacket frame) ↔
        Framing.Harmless startsPacket 3 (packets.map LossyPacket.survivors)) := by
  refine ⟨events_taggedFrames start feed, ?_⟩
  rw [← tagged_untag 0, Framing.harmless_map]
  exact Framing.pure_frames_iff (by decide) (tagged_frames 0 packets) (tagged_own 0 packets)
    (tagged_distinct 0 packets)

/-- Replies that make `mouse_ih` discard a byte: the parity error is set when the status is read last. -/
def discard (byte : UInt8) : ℕ → Reply := fun k => ⟨0, if k = 2 then byte.toUInt32 else 0xA1⟩

theorem discards_discard (byte : UInt8) : Discards (discard byte) byte where
  aux := ⟨rfl, show (0xA1 : UInt32).toUInt8 &&& mouseCheck ≠ 0 by decide⟩
  obf := ⟨rfl, show (0xA1 : UInt32).toUInt8 &&& kbcOutBufFull ≠ 0 by decide⟩
  data := ⟨rfl, by simp [discard]⟩
  error := Or.inr (show (0xA1 : UInt32).toUInt8 &&& kbcStatCheck ≠ 0 by decide)

/-- A packet that loses its last byte, at the end of a stream. -/
def truncated : List LossyPacket := [⟨⟨0x08, 0x00, 0x00, sync_idle⟩, true, true, false⟩]

theorem events_pure_truncated :
    events (Transition.run handle (loopStart .zero)
        ([deliver 0x08, deliver 0x00, discard 0x00].map .mouse)).calls = [] ∧
      ∀ frame ∈ taggedFrames truncated, OnePacket frame := by
  have feed : LossyFeed [deliver 0x08, deliver 0x00, discard 0x00]
      (truncated.flatMap LossyPacket.reads) :=
    .kept (delivers_deliver _) (.kept (delivers_deliver _) (.lost (discards_discard _) .nil))
  obtain ⟨events, pure⟩ := events_pure_iff (g := loopStart .zero) rfl feed
  exact ⟨events, pure.2 (by decide)⟩

/-- Two packets without a movement, the first of which loses its second byte. -/
def torn : List LossyPacket :=
  [⟨⟨0x08, 0x00, 0x00, sync_idle⟩, true, false, true⟩,
    ⟨⟨0x08, 0x00, 0x00, sync_idle⟩, true, true, true⟩]

/-- The first byte of the second packet becomes a vertical movement of the first. -/
theorem event_of_two_packets :
    LossyFeed [deliver 0x08, discard 0x00, deliver 0x00, deliver 0x08, deliver 0x00, deliver 0x00]
      (torn.flatMap LossyPacket.reads) ∧
    events (Transition.run handle (loopStart .zero) ([deliver 0x08, discard 0x00, deliver 0x00,
      deliver 0x08, deliver 0x00, deliver 0x00].map .mouse)).calls = [⟨0, 8, false, false⟩] ∧
    taggedFrames torn = [[(0x08, 0), (0x00, 0), (0x08, 1)]] ∧
    ¬ ∀ frame ∈ taggedFrames torn, OnePacket frame := by
  have feed : LossyFeed [deliver 0x08, discard 0x00, deliver 0x00, deliver 0x08, deliver 0x00,
      deliver 0x00] (torn.flatMap LossyPacket.reads) :=
    .kept (delivers_deliver _) (.lost (discards_discard _) (.kept (delivers_deliver _)
      (.kept (delivers_deliver _) (.kept (delivers_deliver _) (.kept (delivers_deliver _) .nil)))))
  have frames : taggedFrames torn = [[(0x08, 0), (0x00, 0), (0x08, 1)]] := by decide
  refine ⟨feed, ?_, frames, fun pure => ?_⟩
  · rw [events_taggedFrames (g := loopStart .zero) rfl feed, frames]
    decide
  · rw [frames] at pure
    have mixed := pure _ (List.mem_singleton_self _) (0x08, 0) (by simp) (0x08, 1) (by simp)
    cases mixed

end LabComputers

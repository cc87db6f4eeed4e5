import LabComputers.Lab3.Keyboard
import LabComputers.Lib.Transition
import Mathlib.Data.List.Forall2

/-!
# The scancodes that lab 3 prints

`kbc_ih` puts a scancode together over several calls: the prefix `0xE0` is remembered in `flag2Bytes`
until the second byte arrives.  It prints every scancode once, with the right make flag, but the second
byte of a scancode of two bytes before the first.
-/

namespace LabComputers.Lab3

open Port

/-! ## Streams of keyboard bytes -/

/-- A scancode of one or of two bytes; `byte` is its last byte. -/
inductive Scancode where
  | single (byte : UInt8) (plain : byte ≠ kbcScancode2B)
  | extended (byte : UInt8) (plain : byte ≠ kbcScancode2B)

/-- The bytes of a scancode in the order of their arrival. -/
def Scancode.bytes : Scancode → List UInt8
  | single byte _ => [byte]
  | extended byte _ => [kbcScancode2B, byte]

/-- The last byte of a scancode. -/
def Scancode.last : Scancode → UInt8
  | single byte _ => byte
  | extended byte _ => byte

/-- The call finds the output buffer empty. -/
structure Idle (call : Call) : Prop where
  read : (call.replies 0).res = 0
  empty : (call.replies 0).val.toUInt8 &&& kbcOutBufFull = 0

/-- The call reads `byte`, and no read fails and no error is flagged. -/
structure Delivers (call : Call) (byte : UInt8) : Prop where
  read : ∀ n < 3, (call.replies n).res = 0
  full : (call.replies 0).val.toUInt8 &&& kbcOutBufFull ≠ 0
  data : (call.replies 1).val.toUInt8 = byte
  correct : (call.replies 2).val.toUInt8 &&& kbcStatCheck = 0

/-- The calls deliver the bytes in order; any number of calls find the output buffer empty. -/
inductive Delivered : List Call → List UInt8 → Prop
  | nil : Delivered [] []
  | idle {call calls bytes} (idle : Idle call) (rest : Delivered calls bytes) :
    Delivered (call :: calls) bytes
  | byte {call calls byte bytes} (delivers : Delivers call byte) (rest : Delivered calls bytes) :
    Delivered (call :: calls) (byte :: bytes)

/-- The bytes `bytes[0..size-1]` of a call of `kbd_print_scancode`. -/
def PrintCall.shown (p : PrintCall) : List UInt8 := [p.bytes.1, p.bytes.2].take p.size.toNat

/-- The calls of `kbd_print_scancode` print the scancodes: the bytes in the order of their arrival, and
one call for each scancode, with the right make flag. -/
structure Prints (codes : List Scancode) (prints : List PrintCall) : Prop where
  bytes : prints.flatMap PrintCall.shown = codes.flatMap Scancode.bytes
  make : List.Forall₂ (fun code p => p.make = true ↔ code.last &&& 0x80 = 0) codes prints

/-! ## One call -/

theorem handle_idle {call : Call} (idle : Idle call) (g : Globals) : handle g call = g.countSysIn := by
  obtain ⟨read, empty⟩ := idle
  simp [handle, kbcIh, kbcOutputBufFull, utilSysInb, Prog.value, read, empty]

theorem handle_delivers {call : Call} {byte : UInt8} (delivers : Delivers call byte) (g : Globals) :
    handle g call = kbcScancode call.arr byte g.countSysIn.countSysIn.countSysIn := by
  obtain ⟨read, full, data, correct⟩ := delivers
  have read₀ := read 0 (by decide)
  have read₂ := read 2 (by decide)
  simp [handle, kbcIh, kbcOutputBufFull, kbcReadOutputBuffer, kbcCommunicationError, utilSysInb,
    Prog.value, read₀, full, data, read₂, correct]

/-- The calls up to the next byte: only the counter changes before it is handled. -/
theorem run_delivered {calls : List Call} {byte : UInt8} {bytes : List UInt8}
    (delivered : Delivered calls (byte :: bytes)) (g : Globals) :
    ∃ n arr rest, Delivered rest bytes ∧ Transition.run handle g calls =
      Transition.run handle (kbcScancode arr byte { g with counterSysIn := n }) rest := by
  generalize received : byte :: bytes = bs at delivered
  induction delivered generalizing g with
  | nil => cases received
  | idle idle _ ih =>
    obtain ⟨n, arr, rest, delivered, run⟩ := ih g.countSysIn received
    refine ⟨n, arr, rest, delivered, ?_⟩
    rw [Transition.run_cons, handle_idle idle, run]
    rfl
  | @byte call calls _ _ delivers rest _ =>
    cases received
    refine ⟨g.counterSysIn + 1 + 1 + 1, call.arr, calls, rest, ?_⟩
    rw [Transition.run_cons, handle_delivers delivers]
    rfl

/-! ## One scancode -/

theorem kbcScancode_first (arr : UInt8 × UInt8) (g : Globals) :
    kbcScancode arr kbcScancode2B g = { g with flag2Bytes := true } := if_pos rfl

theorem kbcScancode_plain {byte : UInt8} (plain : byte ≠ kbcScancode2B) (arr : UInt8 × UInt8)
    (g : Globals) :
    kbcScancode arr byte g =
      kbdPrintScancode (byte &&& 0x80 = 0) (if g.flag2Bytes then 2 else 1)
        (byte, if g.flag2Bytes then kbcScancode2B else arr.2)
        { g with
          flagESC := if byte = escBreak then false else g.flagESC
          flag2Bytes := false } := by
  obtain ⟨counter, flagESC, flag2Bytes, printed⟩ := g
  rw [kbcScancode, if_neg plain]
  cases flag2Bytes <;> by_cases esc : byte = escBreak <;> simp [esc]

/-- The last byte of a scancode: it is printed first, and the prefix, if there was one, after it. -/
theorem kbcScancode_last {byte : UInt8} (plain : byte ≠ kbcScancode2B) (arr : UInt8 × UInt8)
    (g : Globals) :
    (kbcScancode arr byte g).flag2Bytes = false ∧
      ∃ p, (kbcScancode arr byte g).printed = g.printed ++ [p] ∧
        p.shown = byte :: (if g.flag2Bytes then [kbcScancode2B] else []) ∧
        (p.make = true ↔ byte &&& 0x80 = 0) := by
  rw [kbcScancode_plain plain]
  refine ⟨rfl, _, rfl, ?_, decide_eq_true_iff⟩
  cases g.flag2Bytes <;> rfl

/-- What `kbc_ih` prints for a scancode. -/
structure Printed (code : Scancode) (p : PrintCall) : Prop where
  shown : p.shown = code.bytes.reverse
  make : p.make = true ↔ code.last &&& 0x80 = 0

/-- The calls up to the end of the next scancode. -/
theorem run_scancode {calls : List Call} {code : Scancode} {bytes : List UInt8}
    (delivered : Delivered calls (code.bytes ++ bytes)) {g : Globals} (fresh : g.flag2Bytes = false) :
    ∃ g' p rest, g'.flag2Bytes = false ∧ g'.printed = g.printed ++ [p] ∧ Printed code p ∧
      Delivered rest bytes ∧ Transition.run handle g calls = Transition.run handle g' rest := by
  cases code with
  | single byte plain =>
    obtain ⟨n, arr, rest, delivered, run⟩ := run_delivered delivered g
    obtain ⟨done, p, printed, shown, make⟩ :=
      kbcScancode_last plain arr { g with counterSysIn := n }
    refine ⟨_, p, rest, done, printed, ⟨?_, make⟩, delivered, run⟩
    rw [shown, fresh]
    rfl
  | extended byte plain =>
    obtain ⟨n, arr, rest, delivered, run⟩ := run_delivered delivered g
    rw [kbcScancode_first] at run
    obtain ⟨n', arr', rest', delivered', run'⟩ :=
      run_delivered delivered { g with counterSysIn := n, flag2Bytes := true }
    obtain ⟨done, p, printed, shown, make⟩ :=
      kbcScancode_last plain arr' { g with counterSysIn := n', flag2Bytes := true }
    exact ⟨_, p, rest', done, printed, ⟨shown, make⟩, delivered', run.trans run'⟩

/-! ## A stream of scancodes -/

theorem run_scancodes {calls : List Call} {codes : List Scancode}
    (delivered : Delivered calls (codes.flatMap Scancode.bytes)) {g : Globals}
    (fresh : g.flag2Bytes = false) :
    ∃ prints, (Transition.run handle g calls).printed = g.printed ++ prints ∧
      List.Forall₂ Printed codes prints := by
  induction codes generalizing calls g with
  | nil =>
    refine ⟨[], ?_, .nil⟩
    generalize none : [].flatMap Scancode.bytes = bytes at delivered
    induction delivered generalizing g with
    | nil => exact (List.append_nil _).symm
    | idle idle _ ih =>
      rw [Transition.run_cons, handle_idle idle]
      exact ih fresh none
    | byte => cases none
  | cons code codes ih =>
    obtain ⟨g', p, rest, fresh', printed, shows, delivered', run⟩ := run_scancode delivered fresh
    obtain ⟨prints, printed', shown⟩ := ih delivered' fresh'
    refine ⟨p :: prints, ?_, .cons shows shown⟩
    rw [run, printed', printed, List.append_assoc, List.singleton_append]

/-- The bytes of every scancode in the order in which they are printed make up the stream if and only if
no scancode has two bytes. -/
theorem reversed_bytes_iff (codes : List Scancode) :
    codes.flatMap (fun code => code.bytes.reverse) = codes.flatMap Scancode.bytes ↔
      ∀ code ∈ codes, code.bytes.length = 1 := by
  induction codes with
  | nil => simp
  | cons code codes ih =>
    rw [List.flatMap_cons, List.flatMap_cons, List.forall_mem_cons]
    cases code with
    | single byte plain =>
      have one : (Scancode.single byte plain).bytes.length = 1 := rfl
      rw [iff_true_intro one, true_and, ← ih]
      exact List.append_right_inj [byte]
    | extended byte plain =>
      have two : ¬ (Scancode.extended byte plain).bytes.length = 1 := by simp [Scancode.bytes]
      apply iff_of_false
      · intro same
        exact plain (List.cons.inj same).1
      · exact fun all => two all.1

/-- The calls of `kbc_ih` print the stream that they receive if and only if it contains no scancode of
two bytes. -/
theorem kbcIh_prints_iff {g : Globals} (fresh : g.flag2Bytes = false) {calls : List Call}
    {codes : List Scancode} (delivered : Delivered calls (codes.flatMap Scancode.bytes)) :
    (∃ prints, (Transition.run handle g calls).printed = g.printed ++ prints ∧ Prints codes prints) ↔
      ∀ code ∈ codes, code.bytes.length = 1 := by
  obtain ⟨prints, printed, all⟩ := run_scancodes delivered fresh
  have reversed : prints.flatMap PrintCall.shown =
      codes.flatMap fun code => code.bytes.reverse := by
    clear printed delivered
    induction all with
    | nil => rfl
    | cons h _ ih => rw [List.flatMap_cons, List.flatMap_cons, h.shown, ih]
  rw [← reversed_bytes_iff, ← reversed]
  constructor
  · rintro ⟨prints', printed', shown⟩
    rw [printed, List.append_cancel_left_eq] at printed'
    rw [printed']
    exact shown.bytes
  · intro bytes
    exact ⟨prints, printed, bytes, all.imp fun _ _ h => h.make⟩

/-- Replies of a controller that delivers one byte without an error. -/
def typing (byte : UInt8) : ℕ → Reply := fun n =>
  match n with
  | 0 => ⟨0, 0x01⟩
  | 1 => ⟨0, byte.toUInt32⟩
  | _ => ⟨0, 0x00⟩

theorem delivers_typing (arr : UInt8 × UInt8) (byte : UInt8) : Delivers ⟨arr, typing byte⟩ byte where
  read n small := by
    match n with
    | 0 => rfl
    | 1 => rfl
    | 2 => rfl
  full := by simp [typing, kbcOutBufFull]
  data := by simp [typing]
  correct := by simp [typing]

/-- A key of one byte is pressed and released, and a call in between finds nothing. -/
theorem one_byte_key_printed :
    let start : Globals := ⟨0, true, false, []⟩
    let calls : List Call :=
      [⟨(0, 0), typing 0x1E⟩, ⟨(0, 0), fun _ => ⟨0, 0⟩⟩, ⟨(0, 0), typing 0x9E⟩]
    let codes : List Scancode := [.single 0x1E (by decide), .single 0x9E (by decide)]
    ∃ prints, (Transition.run handle start calls).printed = start.printed ++ prints ∧
      Prints codes prints := by
  intro start calls codes
  have delivered : Delivered calls (codes.flatMap Scancode.bytes) :=
    .byte (delivers_typing _ _) (.idle ⟨rfl, rfl⟩ (.byte (delivers_typing _ _) .nil))
  apply (kbcIh_prints_iff rfl delivered).2
  intro code member
  rcases List.mem_pair.1 member with rfl | rfl
  · rfl
  · rfl

/-- The arrow key `0xE0`, `0x48` is printed as `0x48`, `0xE0`. -/
theorem arrow_key_reversed :
    let start : Globals := ⟨0, true, false, []⟩
    let calls : List Call := [⟨(0, 0), typing 0xE0⟩, ⟨(0, 0), typing 0x48⟩]
    let codes : List Scancode := [.extended 0x48 (by decide)]
    Delivered calls (codes.flatMap Scancode.bytes) ∧
      ¬ ∃ prints, (Transition.run handle start calls).printed = start.printed ++ prints ∧
        Prints codes prints := by
  intro start calls codes
  constructor
  · exact .byte (delivers_typing _ _) (.byte (delivers_typing _ _) .nil)
  · rintro ⟨prints, printed, bytes, -⟩
    have reversed : [⟨true, 2, (0x48, 0xE0)⟩] = prints := printed
    rw [← reversed] at bytes
    exact absurd bytes (by decide)

/-! ## The calls that the tests make -/

theorem scanLoop_eq_run (g : Globals) (msgs : List Received) :
    ∃ calls, calls <+: msgs.filterMap Received.call ∧
      scanLoop g msgs = Transition.run handle g calls := by
  induction msgs generalizing g with
  | nil => exact ⟨[], List.nil_prefix, rfl⟩
  | cons msg msgs ih =>
    by_cases running : g.flagESC = true
    · cases msg with
      | interrupt call =>
        obtain ⟨calls, begins, run⟩ := ih (handle g call)
        refine ⟨call :: calls, ?_, ?_⟩
        · exact (List.prefix_cons_inj call).2 begins
        · rw [scanLoop, if_pos running, run, Transition.run_cons]
      | failed =>
        rw [scanLoop, if_pos running]
        exact ih g
      | other =>
        rw [scanLoop, if_pos running]
        exact ih g
    · refine ⟨[], List.nil_prefix, ?_⟩
      cases msg <;> exact if_neg running

/-- `kbd_test_scan` calls the handler for a beginning of the keyboard interrupts. -/
theorem kbdTestScan_eq_run (g : Globals) (msgs : List Received) :
    ∃ calls, calls <+: msgs.filterMap Received.call ∧ kbdTestScan g msgs =
      Transition.run handle { g with flagESC := true, flag2Bytes := false, counterSysIn := 0 } calls :=
  scanLoop_eq_run _ msgs

end LabComputers.Lab3

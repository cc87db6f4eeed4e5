import Mathlib.Data.Nat.Notation
import Mathlib.Data.Nat.ModEq
import Mathlib.Logic.Function.Iterate
import Mathlib.Tactic.Ring

/-!
# Copying a rectangle through two pointers

A rectangle of pixels is copied to a frame, or filled, by nested loops.  The destination pointer advances by
one pixel in the inner loop and by the rest of the frame's line at the end of each row; the source
pointer advances by the bytes it reads.  Pointers are offsets, and a copy is the list of the
accesses it makes.  `Advances` is the effect of a piece of such code on the pointers, and composes;
`scan_advances` is the effect of the nested loops.
-/

namespace Raster

variable {α : Type}

/-- A read from the source of a copy or a write to its destination. -/
inductive Access (α : Type) where
  | read (offset : ℕ)
  | write (offset : ℕ) (value : α)
  deriving DecidableEq

/-- The two pointers and the accesses made so far, in order. -/
structure Cursor (α : Type) where
  dst : ℕ
  src : ℕ
  accesses : List (Access α)

/-! ## The loops -/

/-- `dst += n` -/
def skip (n : ℕ) (c : Cursor α) : Cursor α := { c with dst := c.dst + n }

/-- `dst[byte] = *src; src++` -/
def copyByte (data : ℕ → α) (c : Cursor α) (byte : ℕ) : Cursor α :=
  { c with
    src := c.src + 1
    accesses := c.accesses ++ [.read c.src, .write (c.dst + byte) (data c.src)] }

/-- The loop over the bytes of a pixel. -/
def copyBytes (data : ℕ → α) (n : ℕ) (c : Cursor α) : Cursor α :=
  (List.range n).foldl (copyByte data) c

/-- `dst[byte] = value` -/
def fillByte (value : ℕ → α) (c : Cursor α) (byte : ℕ) : Cursor α :=
  { c with accesses := c.accesses ++ [.write (c.dst + byte) (value byte)] }

/-- The loop over the bytes of a pixel of one colour. -/
def fillBytes (value : ℕ → α) (n : ℕ) (c : Cursor α) : Cursor α :=
  (List.range n).foldl (fillByte value) c

/-- The loop over the pixels of a row. -/
def scanRow (pixel : Cursor α → Cursor α) (cols pixelSize : ℕ) : Cursor α → Cursor α :=
  (skip pixelSize ∘ pixel)^[cols]

/-- The loop over the rows. -/
def scan (pixel : Cursor α → Cursor α) (rows cols pixelSize rowIncrement : ℕ) :
    Cursor α → Cursor α :=
  (skip rowIncrement ∘ scanRow pixel cols pixelSize)^[rows]

/-! ## The loops with recomputed addresses -/

/-- `dst[address] = *src; src++` -/
def plotByte (data : ℕ → α) (address : ℕ) (c : Cursor α) : Cursor α :=
  { c with
    src := c.src + 1
    accesses := c.accesses ++ [.read c.src, .write (c.dst + address) (data c.src)] }

/-- The three nested loops over the rows, the columns and the bytes of a pixel. -/
def plot (data : ℕ → α) (address : ℕ → ℕ → ℕ → ℕ) (rows cols n : ℕ) (c : Cursor α) : Cursor α :=
  (List.range rows).foldl (fun c i => (List.range cols).foldl (fun c j =>
    (List.range n).foldl (fun c byte => plotByte data (address i j byte) c) c) c) c

/-! ## The effect on the pointers -/

/-- The code advances the destination by `a` and the source by `b`, and makes the accesses `acc`
of the two pointers. -/
def Advances (f : Cursor α → Cursor α) (a b : ℕ) (acc : ℕ → ℕ → List (Access α)) : Prop :=
  ∀ c, f c = ⟨c.dst + a, c.src + b, c.accesses ++ acc c.dst c.src⟩

theorem skip_advances (n : ℕ) : Advances (α := α) (skip n) n 0 fun _ _ => [] := by
  intro c
  simp [skip]

theorem Advances.skip {f : Cursor α → Cursor α} {a b : ℕ} {acc : ℕ → ℕ → List (Access α)}
    (h : Advances f a b acc) (n : ℕ) : Advances (Raster.skip n ∘ f) (a + n) b acc := by
  intro c
  rw [Function.comp_apply, h c, skip_advances]
  simp only [List.append_nil, Nat.add_zero, Nat.add_assoc]

/-- A loop whose body advances the pointers. -/
theorem Advances.iterate {f : Cursor α → Cursor α} {a b : ℕ} {acc : ℕ → ℕ → List (Access α)}
    (h : Advances f a b acc) (n : ℕ) :
    Advances f^[n] (n * a) (n * b) fun dst src =>
      (List.range n).flatMap fun k => acc (dst + k * a) (src + k * b) := by
  intro c
  induction n with
  | zero => simp
  | succ n ih =>
    rw [Function.iterate_succ_apply', ih, h, List.range_succ]
    simp only [List.flatMap_append, List.flatMap_singleton, List.append_assoc, Nat.add_mul,
      Nat.one_mul, Nat.add_assoc]

/-- A loop over a counter whose body leaves the destination alone. -/
theorem foldl_advances {f : Cursor α → ℕ → Cursor α} {b : ℕ} {acc : ℕ → ℕ → ℕ → List (Access α)}
    (h : ∀ i, Advances (fun c => f c i) 0 b (acc i)) (n : ℕ) :
    Advances (fun c => (List.range n).foldl f c) 0 (n * b) fun dst src =>
      (List.range n).flatMap fun i => acc i dst (src + i * b) := by
  intro c
  induction n with
  | zero => simp
  | succ n ih =>
    have last := h n ((List.range n).foldl f c)
    simp only at ih last ⊢
    rw [List.range_succ, List.foldl_append, List.foldl_cons, List.foldl_nil, last, ih]
    simp only [List.flatMap_append, List.flatMap_singleton, List.append_assoc, Nat.add_mul,
      Nat.one_mul, Nat.add_assoc, Nat.add_zero]

theorem copyBytes_advances (data : ℕ → α) (n : ℕ) :
    Advances (copyBytes data n) 0 n fun dst src =>
      (List.range n).flatMap fun k => [.read (src + k), .write (dst + k) (data (src + k))] := by
  have one : ∀ k, Advances (fun c => copyByte data c k) 0 1 fun dst src =>
      [.read src, .write (dst + k) (data src)] := fun k c => by simp [copyByte]
  have bytes := foldl_advances one n
  simp only [Nat.mul_one] at bytes
  exact bytes

theorem fillBytes_advances (value : ℕ → α) (n : ℕ) :
    Advances (fillBytes value n) 0 0 fun dst _ =>
      (List.range n).flatMap fun k => [.write (dst + k) (value k)] := by
  have one : ∀ k, Advances (fun c => fillByte value c k) 0 0 fun dst _ =>
      [.write (dst + k) (value k)] := fun k c => by simp [fillByte]
  have bytes := foldl_advances one n
  simp only [Nat.mul_zero] at bytes
  exact bytes

theorem scanRow_advances {pixel : Cursor α → Cursor α} {b : ℕ} {acc : ℕ → ℕ → List (Access α)}
    (h : Advances pixel 0 b acc) (cols pixelSize : ℕ) :
    Advances (scanRow pixel cols pixelSize) (cols * pixelSize) (cols * b) fun dst src =>
      (List.range cols).flatMap fun k => acc (dst + k * pixelSize) (src + k * b) := by
  have body := h.skip pixelSize
  rw [Nat.zero_add] at body
  exact body.iterate cols

/-- The accesses of the nested loops, pixel by pixel. -/
theorem scan_advances {pixel : Cursor α → Cursor α} {b : ℕ} {acc : ℕ → ℕ → List (Access α)}
    (h : Advances pixel 0 b acc) (rows cols pixelSize rowIncrement : ℕ) :
    Advances (scan pixel rows cols pixelSize rowIncrement)
      (rows * (cols * pixelSize + rowIncrement)) (rows * (cols * b)) fun dst src =>
        (List.range rows).flatMap fun i => (List.range cols).flatMap fun j =>
          acc (dst + i * (cols * pixelSize + rowIncrement) + j * pixelSize)
            (src + i * (cols * b) + j * b) :=
  ((scanRow_advances h cols pixelSize).skip rowIncrement).iterate rows

theorem plot_advances (data : ℕ → α) (address : ℕ → ℕ → ℕ → ℕ) (rows cols n : ℕ) :
    Advances (plot data address rows cols n) 0 (rows * (cols * n)) fun dst src =>
      (List.range rows).flatMap fun i => (List.range cols).flatMap fun j =>
        (List.range n).flatMap fun k =>
          [.read (src + i * (cols * n) + j * n + k),
            .write (dst + address i j k) (data (src + i * (cols * n) + j * n + k))] := by
  have one : ∀ i j k, Advances (fun c => plotByte data (address i j k) c) 0 1 fun dst src =>
      [.read src, .write (dst + address i j k) (data src)] := fun i j k c => by simp [plotByte]
  have pixels : ∀ i j, Advances (fun c => (List.range n).foldl
      (fun c byte => plotByte data (address i j byte) c) c) 0 n fun dst src =>
        (List.range n).flatMap fun k =>
          [.read (src + k), .write (dst + address i j k) (data (src + k))] := by
    intro i j
    have bytes := foldl_advances (one i j) n
    simp only [Nat.mul_one] at bytes
    exact bytes
  exact foldl_advances (fun i => foldl_advances (pixels i) cols) rows

/-! ## The contents of the destination -/

/-- An access in an address space of `size` bytes. -/
def Access.wrap (size : ℕ) : Access α → Access α
  | read o => read o
  | write o v => write (o % size) v

/-- The destination after an access. -/
def Access.apply (memory : ℕ → α) : Access α → ℕ → α
  | read _ => memory
  | write o v => Function.update memory o v

/-- The destination after some accesses, in an address space of `size` bytes. -/
def store (size : ℕ) (memory : ℕ → α) (accesses : List (Access α)) : ℕ → α :=
  (accesses.map (Access.wrap size)).foldl Access.apply memory

/-- The copy with running pointers writes what the copy with recomputed addresses writes, if the
addresses agree. -/
theorem store_scan_eq_store_plot {size start cols pixelSize rowIncrement rows : ℕ}
    {address : ℕ → ℕ → ℕ → ℕ} (data : ℕ → α)
    (agree : ∀ i j k, start + i * (cols * pixelSize + rowIncrement) + j * pixelSize + k ≡
      address i j k [MOD size]) (memory : ℕ → α) :
    store size memory
        (scan (copyBytes data pixelSize) rows cols pixelSize rowIncrement ⟨start, 0, []⟩).accesses =
      store size memory (plot data address rows cols pixelSize ⟨0, 0, []⟩).accesses := by
  have copied := scan_advances (copyBytes_advances data pixelSize) rows cols pixelSize rowIncrement
    ⟨start, 0, []⟩
  unfold store
  rw [copied, plot_advances]
  simp only [List.nil_append, List.map_flatMap, List.map_cons, List.map_nil, Access.wrap, Nat.zero_add]
  congr
  funext i
  congr
  funext j
  congr
  funext k
  rw [agree i j k]

/-! ## What a copy leaves in the destination -/

/-- `v` is written at address `o` of an address space of `size` bytes. -/
def Writes (size : ℕ) (accesses : List (Access α)) (o : ℕ) (v : α) : Prop :=
  ∃ o', .write o' v ∈ accesses ∧ o' % size = o

theorem store_cons (size : ℕ) (memory : ℕ → α) (a : Access α) (accesses : List (Access α)) :
    store size memory (a :: accesses) =
      store size (Access.apply memory (a.wrap size)) accesses := rfl

/-- A byte that is written once, or several times with one value, holds that value; a byte that is
not written keeps its own. -/
theorem store_eq {size : ℕ} {accesses : List (Access α)} {o : ℕ} {memory : ℕ → α} {v : α}
    (written : (∃ v', Writes size accesses o v') ∨ memory o = v)
    (unique : ∀ v', Writes size accesses o v' → v' = v) : store size memory accesses o = v := by
  induction accesses generalizing memory with
  | nil =>
    rcases written with ⟨v', o', mem, -⟩ | same
    · exact absurd mem List.not_mem_nil
    · exact same
  | cons a accesses ih =>
    have later : ∀ v', Writes size accesses o v' → v' = v := by
      rintro v' ⟨o', mem, at_⟩
      exact unique v' ⟨o', List.mem_cons_of_mem _ mem, at_⟩
    rw [store_cons]
    cases a with
    | read o' =>
      apply ih _ later
      rcases written with ⟨v', o'', mem, at_⟩ | same
      · exact .inl ⟨v', o'', by simpa using mem, at_⟩
      · exact .inr same
    | write o' u =>
      by_cases here : o' % size = o
      · have value : u = v := unique u ⟨o', List.mem_cons_self, here⟩
        apply ih (.inr _) later
        rw [Access.wrap, Access.apply, here, Function.update_self, value]
      · apply ih _ later
        rcases written with ⟨v', o'', mem, at_⟩ | same
        · rcases List.mem_cons.1 mem with equal | mem
          · rw [Access.write.injEq] at equal
            exact absurd (equal.1 ▸ at_) here
          · exact .inl ⟨v', o'', mem, at_⟩
        · apply Or.inr
          rw [Access.wrap, Access.apply, Function.update_of_ne (Ne.symm here), same]

/-- The code of a pixel writes byte `k` of it, or leaves it, as `value` says. -/
def Paints (acc : ℕ → ℕ → List (Access α)) (n : ℕ) (value : ℕ → ℕ → Option α) : Prop :=
  ∀ dst src o v, .write o v ∈ acc dst src ↔ ∃ k < n, o = dst + k ∧ value src k = some v

theorem copyBytes_paints (data : ℕ → α) (n : ℕ) :
    Paints (fun dst src =>
        (List.range n).flatMap fun k => [.read (src + k), .write (dst + k) (data (src + k))]) n
      fun src k => some (data (src + k)) := by
  intro dst src o v
  simp only [List.mem_flatMap, List.mem_range, List.mem_cons, List.not_mem_nil, or_false,
    reduceCtorEq, false_or, Access.write.injEq, Option.some.injEq, eq_comm (a := v)]

theorem fillBytes_paints (value : ℕ → α) (n : ℕ) :
    Paints (fun dst _ => (List.range n).flatMap fun k => [.write (dst + k) (value k)]) n
      fun _ k => some (value k) := by
  intro dst _ o v
  simp only [List.mem_flatMap, List.mem_range, List.mem_singleton, Access.write.injEq,
    Option.some.injEq, eq_comm (a := v)]

/-- The writes of the loop over a row. -/
theorem writes_scanRow_iff {pixel : Cursor α → Cursor α} {b n : ℕ} {acc : ℕ → ℕ → List (Access α)}
    {value : ℕ → ℕ → Option α} (step : Advances pixel 0 b acc) (paints : Paints acc n value)
    {size cols pixelSize start o : ℕ} {v : α} :
    Writes size (scanRow pixel cols pixelSize ⟨start, 0, []⟩).accesses o v ↔
      ∃ j < cols, ∃ k < n, (start + j * pixelSize + k) % size = o ∧ value (j * b) k = some v := by
  simp only [Writes, scanRow_advances step cols pixelSize _, List.nil_append, List.mem_flatMap,
    List.mem_range, paints _ _ _ _, Nat.zero_add]
  constructor
  · rintro ⟨o', ⟨j, hj, k, hk, rfl, painted⟩, at_⟩
    exact ⟨j, hj, k, hk, at_, painted⟩
  · rintro ⟨j, hj, k, hk, at_, painted⟩
    exact ⟨_, ⟨j, hj, k, hk, rfl, painted⟩, at_⟩

/-- The writes of one piece of code after another. -/
theorem writes_flatMap_iff {ι : Type} {size : ℕ} {l : List ι} {f : ι → List (Access α)} {o : ℕ}
    {v : α} : Writes size (l.flatMap f) o v ↔ ∃ i ∈ l, Writes size (f i) o v := by
  simp only [Writes, List.mem_flatMap]
  constructor
  · rintro ⟨o', ⟨i, mem, written⟩, at_⟩
    exact ⟨i, mem, o', written, at_⟩
  · rintro ⟨i, mem, o', written, at_⟩
    exact ⟨o', ⟨i, mem, written⟩, at_⟩

/-- The writes of the nested loops. -/
theorem writes_scan_iff {pixel : Cursor α → Cursor α} {b n : ℕ} {acc : ℕ → ℕ → List (Access α)}
    {value : ℕ → ℕ → Option α} (step : Advances pixel 0 b acc) (paints : Paints acc n value)
    {size rows cols pixelSize rowIncrement start o : ℕ} {v : α} :
    Writes size (scan pixel rows cols pixelSize rowIncrement ⟨start, 0, []⟩).accesses o v ↔
      ∃ i < rows, ∃ j < cols, ∃ k < n,
        (start + i * (cols * pixelSize + rowIncrement) + j * pixelSize + k) % size = o ∧
          value (i * (cols * b) + j * b) k = some v := by
  simp only [Writes, scan_advances step rows cols pixelSize rowIncrement _, List.nil_append,
    List.mem_flatMap, List.mem_range, paints _ _ _ _, Nat.zero_add]
  constructor
  · rintro ⟨o', ⟨i, hi, j, hj, k, hk, rfl, painted⟩, at_⟩
    exact ⟨i, hi, j, hj, k, hk, at_, painted⟩
  · rintro ⟨i, hi, j, hj, k, hk, at_, painted⟩
    exact ⟨_, ⟨i, hi, j, hj, k, hk, rfl, painted⟩, at_⟩

/-! ## Bounds -/

/-- The accesses of a pixel stay inside it: writes in the `n` bytes at `dst` and reads in the `b`
bytes at `src`. -/
def WithinPixel (acc : ℕ → ℕ → List (Access α)) (n b : ℕ) : Prop :=
  ∀ dst src, (∀ o, .read o ∈ acc dst src → src ≤ o ∧ o < src + b) ∧
    ∀ o v, .write o v ∈ acc dst src → dst ≤ o ∧ o < dst + n

/-- The last byte of pixel `j` of row `i` lies inside an area of `height` rows of `width`
pixels. -/
theorem pixel_le {i j width height : ℕ} (size : ℕ) (hi : i < height) (hj : j < width) :
    (i * width + j) * size + size ≤ width * height * size := by
  have last : i * width + j + 1 ≤ width * height :=
    calc i * width + j + 1 ≤ i * width + width := by omega
      _ = width * (i + 1) := by ring
      _ ≤ width * height := Nat.mul_le_mul_left _ hi
  calc (i * width + j) * size + size = (i * width + j + 1) * size := by ring
    _ ≤ width * height * size := Nat.mul_le_mul_right _ last

section Frame

variable {pixel : Cursor α → Cursor α} {n : ℕ} {acc : ℕ → ℕ → List (Access α)}

/-- Copying a `w` by `h` rectangle to `(x, y)` of a frame, pixel by pixel of the frame. -/
theorem scan_frame (step : Advances pixel 0 n acc) {w x hRes : ℕ} (right : x + w ≤ hRes)
    (h y : ℕ) :
    (scan pixel h w n ((hRes - w) * n) ⟨(hRes * y + x) * n, 0, []⟩).accesses =
      (List.range h).flatMap fun i => (List.range w).flatMap fun j =>
        acc (((y + i) * hRes + (x + j)) * n) ((i * w + j) * n) := by
  have stride : w * n + (hRes - w) * n = hRes * n := by
    rw [← Nat.add_mul]
    congr
    omega
  simp only [scan_advances step h w n ((hRes - w) * n) _, stride, List.nil_append]
  congr
  funext i
  congr
  funext j
  congr 1 <;> ring

/-- Copying a rectangle to a frame that contains it. -/
theorem scan_in_bounds (step : Advances pixel 0 n acc) (within : WithinPixel acc n n)
    {w h x y hRes vRes : ℕ} (right : x + w ≤ hRes) (bottom : y + h ≤ vRes) :
    let copy := scan pixel h w n ((hRes - w) * n) ⟨(hRes * y + x) * n, 0, []⟩
    (∀ o, .read o ∈ copy.accesses → o < w * h * n) ∧
      ∀ o v, .write o v ∈ copy.accesses → o < hRes * vRes * n := by
  intro copy
  simp only [copy, scan_frame step right, List.mem_flatMap, List.mem_range]
  refine ⟨?_, ?_⟩
  · rintro o ⟨i, hi, j, hj, ho⟩
    have inside := ((within _ _).1 o ho).2
    have := pixel_le n hi hj
    omega
  · rintro o v ⟨i, hi, j, hj, ho⟩
    have inside := ((within _ _).2 o v ho).2
    have row : y + i < vRes := by omega
    have column : x + j < hRes := by omega
    have := pixel_le n row column
    omega

end Frame

/-! ## Pixels of a frame -/

/-- The address of byte `k` of the pixel in row `i` and column `j`. -/
def address (hRes n i j k : ℕ) : ℕ := (i * hRes + j) * n + k

theorem mul_add_inj {a b a' b' m : ℕ} (hb : b < m) (hb' : b' < m)
    (same : a * m + b = a' * m + b') : a = a' ∧ b = b' := by
  obtain rfl : b = b' := by
    rw [← Nat.mul_add_mod_of_lt (a := a) hb, same, Nat.mul_add_mod_of_lt hb']
  exact ⟨Nat.eq_of_mul_eq_mul_right (by omega) (Nat.add_right_cancel same), rfl⟩

theorem address_inj {hRes n i j k i' j' k' : ℕ} (hj : j < hRes) (hj' : j' < hRes) (hk : k < n)
    (hk' : k' < n) (same : address hRes n i j k = address hRes n i' j' k') :
    i = i' ∧ j = j' ∧ k = k' := by
  obtain ⟨pixel, byte⟩ := mul_add_inj hk hk' same
  obtain ⟨row, column⟩ := mul_add_inj hj hj' pixel
  exact ⟨row, column, byte⟩

section Painted

variable {accesses : List (Access α)} {value : ℕ → ℕ → Option α} {size hRes n w x y rows cols : ℕ}

/-- A frame after pixel `(i, j)` of a picture with rows of `w` pixels was painted at
`(y + i, x + j)`, for `rows` rows and `cols` columns. -/
theorem store_painted
    (writes : ∀ o v, Writes size accesses o v ↔ ∃ i < rows, ∃ j < cols, ∃ k < n,
      address hRes n (y + i) (x + j) k = o ∧ value ((i * w + j) * n) k = some v)
    (right : ∀ j < cols, x + j < hRes) (memory : ℕ → α) {i j k : ℕ} (hj : j < hRes) (hk : k < n) :
    store size memory accesses (address hRes n i j k) =
      if y ≤ i ∧ i < y + rows ∧ x ≤ j ∧ j < x + cols then
        (value (((i - y) * w + (j - x)) * n) k).getD (memory (address hRes n i j k))
      else memory (address hRes n i j k) := by
  have here : ∀ v, Writes size accesses (address hRes n i j k) v ↔
      (y ≤ i ∧ i < y + rows ∧ x ≤ j ∧ j < x + cols) ∧
        value (((i - y) * w + (j - x)) * n) k = some v := by
    intro v
    rw [writes]
    constructor
    · rintro ⟨i', hi', j', hj', k', hk', at_, painted⟩
      obtain ⟨rfl, rfl, rfl⟩ := address_inj (right j' hj') hj hk' hk at_
      rw [Nat.add_sub_cancel_left, Nat.add_sub_cancel_left]
      exact ⟨by omega, painted⟩
    · rintro ⟨inside, painted⟩
      refine ⟨i - y, by omega, j - x, by omega, k, hk, ?_, painted⟩
      rw [Nat.add_sub_cancel' inside.1, Nat.add_sub_cancel' inside.2.2.1]
  split_ifs with inside
  · cases painted : value (((i - y) * w + (j - x)) * n) k with
    | none =>
      apply store_eq (.inr rfl)
      intro v' written
      rw [here, painted] at written
      exact absurd written.2 nofun
    | some v =>
      apply store_eq (.inl ⟨v, (here v).2 ⟨inside, painted⟩⟩)
      intro v' written
      rw [here, painted] at written
      exact (Option.some.inj written.2).symm
  · apply store_eq (.inr rfl)
    intro v' written
    exact absurd ((here v').1 written).1 inside

/-- The bytes behind the frame are not written. -/
theorem store_behind {vRes : ℕ}
    (writes : ∀ o v, Writes size accesses o v ↔ ∃ i < rows, ∃ j < cols, ∃ k < n,
      address hRes n (y + i) (x + j) k = o ∧ value ((i * w + j) * n) k = some v)
    (right : ∀ j < cols, x + j < hRes) (bottom : ∀ i < rows, y + i < vRes) (memory : ℕ → α) {o : ℕ}
    (behind : hRes * vRes * n ≤ o) : store size memory accesses o = memory o := by
  apply store_eq (.inr rfl)
  intro v' written
  obtain ⟨i, hi, j, hj, k, hk, rfl, -⟩ := (writes o v').1 written
  have last := pixel_le n (bottom i hi) (right j hj)
  rw [address] at behind
  omega

section Filled

variable {color : ℕ → α}
  (writes : ∀ o v, Writes size accesses o v ↔ ∃ i < rows, ∃ j < cols, ∃ k < n,
    address hRes n (y + i) (x + j) k = o ∧ color k = v)
  (right : ∀ j < cols, x + j < hRes)
include writes

/-- A filled rectangle is a picture all of whose pixels are the same. -/
theorem writes_filled (o : ℕ) (v : α) :
    Writes size accesses o v ↔ ∃ i < rows, ∃ j < cols, ∃ k < n,
      address hRes n (y + i) (x + j) k = o ∧
        (fun _ k => some (color k) : ℕ → ℕ → Option α) ((i * 0 + j) * n) k = some v := by
  simp only [Option.some.injEq]
  exact writes o v

include right

/-- A frame after `rows` rows of `cols` pixels were filled from `(y, x)` on. -/
theorem store_filled (memory : ℕ → α) {i j k : ℕ} (hj : j < hRes) (hk : k < n) :
    store size memory accesses (address hRes n i j k) =
      if y ≤ i ∧ i < y + rows ∧ x ≤ j ∧ j < x + cols then color k
      else memory (address hRes n i j k) :=
  @store_painted α accesses (fun _ k => some (color k)) size hRes n 0 x y rows cols
    (writes_filled writes) right memory i j k hj hk

theorem store_behind_filled {vRes : ℕ} (bottom : ∀ i < rows, y + i < vRes) (memory : ℕ → α) {o : ℕ}
    (behind : hRes * vRes * n ≤ o) : store size memory accesses o = memory o :=
  @store_behind α accesses (fun _ k => some (color k)) size hRes n 0 x y rows cols vRes
    (writes_filled writes) right bottom memory o behind

end Filled

end Painted

theorem mul_add_lt {r n i h : ℕ} (hr : r < n) (hi : i < h) : r * h + i < n * h :=
  calc r * h + i < r * h + h := Nat.add_lt_add_left hi _
    _ = (r + 1) * h := by ring
    _ ≤ n * h := Nat.mul_le_mul_right _ hr

theorem mul_add_div_self {r i h : ℕ} (hi : i < h) : (r * h + i) / h = r := by
  rw [Nat.mul_comm, Nat.mul_add_div (by omega), Nat.div_eq_of_lt hi, Nat.add_zero]

/-- Rectangles of `w` by `h` pixels, `n` in each direction, that fill the upper left part of a
frame. -/
theorem store_tiled {accesses : List (Access α)} {size hRes bytes n w h : ℕ}
    {color : ℕ → ℕ → ℕ → α}
    (writes : ∀ o v, Writes size accesses o v ↔ ∃ r < n, ∃ c < n, ∃ i < h, ∃ j < w, ∃ k < bytes,
      address hRes bytes (r * h + i) (c * w + j) k = o ∧ color r c k = v)
    (right : n * w ≤ hRes) (memory : ℕ → α) {i j k : ℕ} (hj : j < hRes) (hk : k < bytes) :
    store size memory accesses (address hRes bytes i j k) =
      if i < n * h ∧ j < n * w then color (i / h) (j / w) k else memory (address hRes bytes i j k) := by
  have here : ∀ v, Writes size accesses (address hRes bytes i j k) v ↔
      (i < n * h ∧ j < n * w) ∧ color (i / h) (j / w) k = v := by
    intro v
    rw [writes]
    constructor
    · rintro ⟨r, hr, c, hc, i', hi', j', hj', k', hk', at_, rfl⟩
      have column : c * w + j' < n * w := mul_add_lt hc hj'
      obtain ⟨rfl, rfl, rfl⟩ := address_inj (column.trans_le right) hj hk' hk at_
      rw [mul_add_div_self hi', mul_add_div_self hj']
      exact ⟨⟨mul_add_lt hr hi', column⟩, rfl⟩
    · rintro ⟨⟨hi, hj'⟩, value⟩
      have high : 0 < h := Nat.pos_of_mul_pos_left (by omega : 0 < n * h)
      have wide : 0 < w := Nat.pos_of_mul_pos_left (by omega : 0 < n * w)
      refine ⟨i / h, Nat.div_lt_of_lt_mul (by rwa [Nat.mul_comm]), j / w,
        Nat.div_lt_of_lt_mul (by rwa [Nat.mul_comm]), i % h, Nat.mod_lt _ high, j % w,
        Nat.mod_lt _ wide, k, hk, ?_, value⟩
      rw [Nat.div_add_mod', Nat.div_add_mod']
  split_ifs with inside
  · apply store_eq (.inl ⟨_, (here _).2 ⟨inside, rfl⟩⟩)
    intro v' written
    exact ((here v').1 written).2.symm
  · apply store_eq (.inr rfl)
    intro v' written
    exact absurd ((here v').1 written).1 inside

end Raster

import LabComputers.Proj.BoundsProof
import LabComputers.Proj.TextProof
import LabComputers.Proj.VideoCard

/-!
# Every frame is drawn inside the buffer

`Fits` says that a draw has a sprite with all its bytes and a position at which the whole sprite
lies inside the frame.  Such a draw stays inside the buffer and the sprite (`Fits.inBounds`).  Every
part of every screen consists of draws that fit: the positions come from the matrix, from the
pointer, from the digits of a number, or from the lines of a text.
-/

namespace LabComputers

open CString Raster

/-! ## A draw that fits -/

/-- What the draws of a frame must satisfy: the sprite is drawn whole, and the accesses stay inside
the buffer and the sprite's data. -/
structure Draw.InBounds (m : VideoMode) (d : Draw) : Prop where
  buffer : d.bufferNo = 1
  unclipped : d.x + d.sprite.width ≤ m.hRes ∧ d.y + d.sprite.height ≤ m.vRes
  writes : ∀ o v, .write o v ∈ d.accesses m → o < m.hRes * m.vRes * m.bytesPerPixel
  reads : ∀ o, .read o ∈ d.accesses m → o < d.sprite.bytes.length

/-- A draw to the buffer whose sprite has all its bytes and lies inside the frame. -/
structure Draw.Fits (m : VideoMode) (d : Draw) : Prop where
  buffer : d.bufferNo = 1
  data : d.sprite.bytes.length = d.sprite.width * d.sprite.height * m.bytesPerPixel
  shown : 0 < d.sprite.height
  right : d.x + d.sprite.width ≤ m.hRes
  bottom : d.y + d.sprite.height ≤ m.vRes

theorem copyBytes_within (data : ℕ → UInt8) (n : ℕ) :
    WithinPixel (fun dst src =>
      (List.range n).flatMap fun k => [.read (src + k), .write (dst + k) (data (src + k))]) n n := by
  intro dst src
  simp only [List.mem_flatMap, List.mem_range, List.mem_cons, List.not_mem_nil, or_false,
    reduceCtorEq, false_or, Access.read.injEq, Access.write.injEq]
  constructor
  · rintro o ⟨k, hk, rfl⟩
    omega
  · rintro o v ⟨k, hk, rfl, -⟩
    omega

/-- The accesses of a pixel of `vg_draw_crosshair` and `vg_draw_killer_alien`. -/
def visibleAccesses (data : ℕ → UInt8) (dst src : ℕ) : List (Access UInt8) :=
  [.read src, .read (src + 1), .read (src + 2)] ++
    if data src ||| data (src + 1) ||| data (src + 2) = 0 then []
    else (List.range 3).flatMap fun k => [.read (src + k), .write (dst + k) (data (src + k))]

theorem copyVisible_advances (data : ℕ → UInt8) :
    Advances (copyVisible data 3) 0 3 (visibleAccesses data) := by
  intro c
  unfold copyVisible visibleAccesses
  by_cases black : data c.src ||| data (c.src + 1) ||| data (c.src + 2) = 0
  · simp only [if_pos black, Nat.add_zero, List.append_nil]
  · simp only [if_neg black]
    rw [copyBytes_advances]
    simp only [List.append_assoc]

theorem visibleAccesses_within (data : ℕ → UInt8) : WithinPixel (visibleAccesses data) 3 3 := by
  intro dst src
  have copied := copyBytes_within data 3 dst src
  constructor
  · intro o ho
    rcases List.mem_append.1 ho with h | h
    · simp only [List.mem_cons, List.not_mem_nil, or_false, Access.read.injEq] at h
      omega
    · split_ifs at h
      · cases h
      · exact copied.1 o h
  · intro o v ho
    rcases List.mem_append.1 ho with h | h
    · simp at h
    · split_ifs at h
      · cases h
      · exact copied.2 o v h

theorem Draw.Fits.start_lt {m : VideoMode} {d : Draw} (h : d.Fits m) :
    (m.hRes * d.y + d.x) * m.bytesPerPixel ≤ m.hRes * m.vRes * m.bytesPerPixel := by
  have right := h.right
  have bottom := h.bottom
  have shown := h.shown
  apply Nat.mul_le_mul_right
  calc m.hRes * d.y + d.x ≤ m.hRes * d.y + m.hRes := by omega
    _ = m.hRes * (d.y + 1) := by ring
    _ ≤ m.hRes * m.vRes := Nat.mul_le_mul_left _ (by omega)

/-- The loops of a draw that fits run over the whole sprite, and no offset wraps. -/
theorem Draw.Fits.accesses_eq {m : VideoMode} {d : Draw} (h : d.Fits m)
    (small : m.hRes * m.vRes * m.bytesPerPixel < 2 ^ 32) :
    d.accesses m =
      (scan (if d.skipBlack then copyVisible d.sprite.byte m.bytesPerPixel
          else copyBytes d.sprite.byte m.bytesPerPixel) d.sprite.height d.sprite.width
        m.bytesPerPixel ((m.hRes - d.sprite.width) * m.bytesPerPixel)
        ⟨(m.hRes * d.y + d.x) * m.bytesPerPixel, 0, []⟩).accesses := by
  have right := h.right
  have bottom := h.bottom
  have shown := h.shown
  have hRes := m.hRes_lt
  have vRes := m.vRes_lt
  have start : (m.hRes * d.y + d.x) * m.bytesPerPixel % 2 ^ 32 =
      (m.hRes * d.y + d.x) * m.bytesPerPixel := Nat.mod_eq_of_lt (h.start_lt.trans_lt small)
  have increment : (m.hRes + 2 ^ 32 - d.sprite.width) * m.bytesPerPixel % 2 ^ 32 =
      (m.hRes - d.sprite.width) * m.bytesPerPixel := by
    have line : (m.hRes - d.sprite.width) * m.bytesPerPixel ≤
        m.hRes * m.vRes * m.bytesPerPixel := by
      refine Nat.mul_le_mul_right _ ((Nat.sub_le _ _).trans ?_)
      exact Nat.le_mul_of_pos_right _ (by omega)
    rw [show m.hRes + 2 ^ 32 - d.sprite.width = m.hRes - d.sprite.width + 2 ^ 32 by omega,
      Nat.add_mul, Nat.add_mul_mod_self_left]
    exact Nat.mod_eq_of_lt (line.trans_lt small)
  have rows : min m.vRes ((d.y + d.sprite.height) % 2 ^ 32) - d.y % 2 ^ 16 = d.sprite.height := by
    omega
  have cols : min m.hRes ((d.x + d.sprite.width) % 2 ^ 32) - d.x % 2 ^ 16 = d.sprite.width := by
    omega
  simp only [Draw.accesses, if_pos (Or.inr h.buffer), start, increment, rows, cols]

/-- A draw that fits stays inside the buffer and inside its sprite. -/
theorem Draw.Fits.inBounds {m : VideoMode} {d : Draw} (h : d.Fits m)
    (small : m.hRes * m.vRes * m.bytesPerPixel < 2 ^ 32) (bytes : m.bytesPerPixel = 3) :
    d.InBounds m := by
  have safe : (∀ o, .read o ∈ d.accesses m → o < d.sprite.bytes.length) ∧
      ∀ o v, .write o v ∈ d.accesses m → o < m.hRes * m.vRes * m.bytesPerPixel := by
    rw [h.accesses_eq small, h.data]
    split_ifs
    · rw [bytes]
      exact scan_in_bounds (copyVisible_advances _) (visibleAccesses_within _) h.right h.bottom
    · exact scan_in_bounds (copyBytes_advances _ _) (copyBytes_within _ _) h.right h.bottom
  exact ⟨h.buffer, ⟨h.right, h.bottom⟩, safe.2, safe.1⟩

/-! ## The sprite tables -/

/-- The sprite is a pixmap of the given size, as loaded. -/
def IsPixmap (xpm : XpmLoader) (w h : ℕ) (sprite : Sprite) : Prop :=
  ∃ p : Xpm, sprite = xpm.load p ∧ p.width = w ∧ p.height = h

theorem Xpm.height_pos (p : Xpm) : 0 < p.height := by
  cases p <;> exact Nat.succ_pos _

theorem isPixmap_getD {xpm : XpmLoader} {w h : ℕ} {table : List Sprite}
    (all : ∀ sprite ∈ table, IsPixmap xpm w h sprite) (past : Sprite) {k : ℕ}
    (inside : k < table.length) : IsPixmap xpm w h (table.getD k past) := by
  rw [List.getD_eq_getElem?_getD, List.getElem?_eq_getElem inside]
  exact all _ (List.getElem_mem inside)

theorem IsPixmap.size {xpm : XpmLoader} {w h : ℕ} {sprite : Sprite} (pixmap : IsPixmap xpm w h sprite) :
    sprite.width = w ∧ sprite.height = h := by
  obtain ⟨p, rfl, rfl, rfl⟩ := pixmap
  exact ⟨xpm.width_load p, xpm.height_load p⟩

theorem IsPixmap.fits {xpm : XpmLoader} {w h : ℕ} {sprite : Sprite}
    (pixmap : IsPixmap xpm w h sprite) {x y : ℕ} (right : x + w ≤ 800) (bottom : y + h ≤ 600)
    (skipBlack : Bool) :
    Draw.Fits gameGraphicsMode ⟨sprite, x, y, 1, skipBlack⟩ := by
  obtain ⟨p, rfl, rfl, rfl⟩ := pixmap
  have width := xpm.width_load p
  have height := xpm.height_load p
  refine ⟨rfl, ?_, ?_, ?_, ?_⟩
  · simp only [width, height]
    exact xpm.length_bytes p
  · exact height ▸ p.height_pos
  · exact width ▸ right
  · exact height ▸ bottom

theorem toNat_ofInt {z : ℤ} (nonneg : 0 ≤ z) (small : z < 2 ^ 16) :
    (UInt16.ofInt z).toNat = z.toNat := by
  rw [UInt16.ofInt, Int.emod_eq_of_lt nonneg small]
  exact UInt16.toNat_ofNat_of_lt (show z.toNat < 65536 by omega)

theorem drawAt_fits {xpm : XpmLoader} {w h : ℕ} {sprite : Sprite}
    (pixmap : IsPixmap xpm w h sprite) {x y : ℤ} (left : 0 ≤ x) (right : x + w ≤ 800) (top : 0 ≤ y)
    (bottom : y + h ≤ 600) : (drawAt sprite x y).Fits gameGraphicsMode := by
  apply pixmap.fits
  · rw [toNat_ofInt left (by omega)]
    omega
  · rw [toNat_ofInt top (by omega)]
    omega

section Parts

variable (xpm : XpmLoader) (past : Sprite)

theorem isPixmap_load (p : Xpm) : IsPixmap xpm p.width p.height (xpm.load p) := ⟨p, rfl, rfl, rfl⟩

theorem alienSprites_pixmaps :
    ∀ sprite ∈ (vgLoadSprites xpm).alienSprites, IsPixmap xpm 64 64 sprite := by
  simp only [vgLoadSprites, List.forall_mem_cons]
  exact ⟨isPixmap_load xpm _, isPixmap_load xpm _, isPixmap_load xpm _, isPixmap_load xpm _,
    isPixmap_load xpm _, isPixmap_load xpm _, isPixmap_load xpm _, List.forall_mem_nil _⟩

theorem killerAlienSprites_pixmaps :
    ∀ sprite ∈ (vgLoadSprites xpm).killerAlienSprites, IsPixmap xpm 64 64 sprite := by
  simp only [vgLoadSprites, List.forall_mem_cons]
  exact ⟨isPixmap_load xpm _, isPixmap_load xpm _, isPixmap_load xpm _, isPixmap_load xpm _,
    List.forall_mem_nil _⟩

theorem numberSprite_pixmap {d : ℕ} (digit : d < 10) :
    IsPixmap xpm 32 32 (numberSprite (vgLoadSprites xpm) past d) :=
  isPixmap_getD (List.forall_mem_ofFn_iff.2 fun k => isPixmap_load xpm (.number k)) past
    (by simpa [vgLoadSprites] using digit)

theorem letterSprite_pixmap {l : ℕ} (letter : l < 26) :
    IsPixmap xpm 32 32 ((vgLoadSprites xpm).lettersSprites.getD l past) :=
  isPixmap_getD (List.forall_mem_ofFn_iff.2 fun k => isPixmap_load xpm (.letter k)) past
    (by simpa [vgLoadSprites] using letter)

theorem lbCorner_pixmap {k : ℕ} (corner : k < 4) :
    IsPixmap xpm 96 96 ((vgLoadSprites xpm).lbCorners.getD k past) :=
  isPixmap_getD (List.forall_mem_ofFn_iff.2 fun k => isPixmap_load xpm (.lbc k)) past
    (by simpa [vgLoadSprites] using corner)

/-! ## Aliens and the crosshair -/

theorem vgDrawCrosshair_fits {g : Globals} (bounded : Bounded g) :
    (vgDrawCrosshair (vgLoadSprites xpm) g 1).Fits gameGraphicsMode := by
  obtain ⟨halfX, halfY⟩ := bounded.half
  have mouseX := bounded.mouse_x
  have mouseY := bounded.mouse_y
  have half : (32 : Int16).toInt = 32 := by decide
  unfold vgDrawCrosshair
  rw [halfX, halfY, half]
  apply (isPixmap_load xpm .crosshair).fits
  · rw [toNat_ofInt (by omega) (by omega)]
    simp only [Xpm.width]
    omega
  · rw [toNat_ofInt (by omega) (by omega)]
    simp only [Xpm.height]
    omega

theorem vgDrawKillerAlien_fits {g : Globals} (bounded : Bounded g) :
    (vgDrawKillerAlien (vgLoadSprites xpm) past g).Fits gameGraphicsMode := by
  have x := bounded.killer_x
  have y := bounded.killer_y
  apply (isPixmap_getD (killerAlienSprites_pixmaps xpm) past bounded.killer_state).fits
  · simp only [alienWidth, alienHorizontalMargin, gameHorizontalMargin]
    rw [Nat.mod_eq_of_lt (by omega)]
    omega
  · simp only [alienHeight, alienVerticalMargin, gameVerticalMargin]
    rw [Nat.mod_eq_of_lt (by omega)]
    omega

theorem vgDrawAliens_fits {g : Globals} (bounded : Bounded g) :
    ∀ d ∈ vgDrawAliens (vgLoadSprites xpm) past g, d.Fits gameGraphicsMode := by
  intro d hd
  obtain ⟨⟨i, j⟩, -, hd⟩ := List.mem_flatMap.1 hd
  have state := bounded.state_le i j
  have hi := i.isLt
  have hj := j.isLt
  simp only at hd
  split_ifs at hd with vacant
  · cases hd
  · obtain rfl := List.mem_singleton.1 hd
    have inside : (g.gameMatrix i j).state < (vgLoadSprites xpm).alienSprites.length :=
      bounded.indicesInRange.alienSprites xpm i j vacant
    apply (isPixmap_getD (alienSprites_pixmaps xpm) past inside).fits
    · simp only [gameHorizontalMargin, alienWidth, alienHorizontalMargin]
      rw [UInt16.toNat_ofNat', Nat.mod_eq_of_lt (by omega)]
      omega
    · simp only [gameVerticalMargin, alienHeight, alienVerticalMargin]
      rw [UInt16.toNat_ofNat', Nat.mod_eq_of_lt (by omega)]
      omega

/-! ## Numbers -/

theorem leftOf_toNat {d : ℕ} (digit : d < 10) {x : UInt16} (room : 37 ≤ x.toNat) :
    (leftOf (vgLoadSprites xpm) past d x).toNat = x.toNat - 37 := by
  rw [leftOf, (numberSprite_pixmap xpm past digit).size.1]
  exact UInt16.toNat_sub_of_le _ _ (UInt16.le_iff_toNat_le.2 room)

/-- The digits of a number below `10 ^ k` take at most `k` places of 37 pixels. -/
theorem drawDigits_fits {y : UInt16} (bottom : y.toNat + 32 ≤ 600) {k n : ℕ} {x : UInt16}
    (small : n < 10 ^ k) (left : 37 * k ≤ x.toNat) (right : x.toNat ≤ 768) :
    (∀ d ∈ (drawDigits (vgLoadSprites xpm) past y n x).1, d.Fits gameGraphicsMode) ∧
      (drawDigits (vgLoadSprites xpm) past y n x).2.1.toNat ≤ x.toNat ∧
      x.toNat ≤ (drawDigits (vgLoadSprites xpm) past y n x).2.1.toNat + 37 * k := by
  induction k generalizing n x with
  | zero =>
    obtain rfl : n = 0 := by simpa using small
    rw [drawDigits, if_pos rfl]
    exact ⟨List.forall_mem_nil _, le_rfl, le_rfl⟩
  | succ k ih =>
    rw [drawDigits]
    split_ifs with last
    · exact ⟨List.forall_mem_nil _, le_rfl, Nat.le_add_right _ _⟩
    · have digit : n % 10 < 10 := Nat.mod_lt _ (by decide)
      have step := leftOf_toNat xpm past digit (x := x) (by omega)
      have fewer : n / 10 < 10 ^ k := by
        rw [pow_succ] at small
        omega
      obtain ⟨rest, low, high⟩ := ih fewer (x := leftOf (vgLoadSprites xpm) past (n % 10) x)
        (by omega) (by omega)
      refine ⟨List.forall_mem_cons.2 ⟨?_, rest⟩, ?_, ?_⟩
      · exact (numberSprite_pixmap xpm past digit).fits (by omega) bottom false
      · simp only
        omega
      · simp only
        omega

theorem vgDrawPoints_fits (g : Globals) :
    ∀ d ∈ vgDrawPoints (vgLoadSprites xpm) past g, d.Fits gameGraphicsMode := by
  unfold vgDrawPoints
  simp only
  split_ifs
  · rw [List.forall_mem_singleton]
    exact (numberSprite_pixmap xpm past (by decide)).fits (by decide) (by decide) false
  · have small := g.points.toNat_lt
    exact (drawDigits_fits xpm past (by decide) (k := 10) (by omega) (by decide) (by decide)).1

/-- The minutes or hours take at most five places. -/
theorem drawTimeField_fits {y : UInt16} (bottom : y.toNat + 32 ≤ 600) (value : UInt8) {x : UInt16}
    (left : 185 ≤ x.toNat) (right : x.toNat ≤ 768) :
    (∀ d ∈ (drawTimeField (vgLoadSprites xpm) past y value x).1, d.Fits gameGraphicsMode) ∧
      (drawTimeField (vgLoadSprites xpm) past y value x).2.toNat ≤ x.toNat ∧
      x.toNat ≤ (drawTimeField (vgLoadSprites xpm) past y value x).2.toNat + 185 := by
  have small := value.toNat_lt
  obtain ⟨digits, low, high⟩ := drawDigits_fits xpm past bottom (k := 3)
    (n := value.toNat) (x := x) (by omega) (by omega) right
  unfold drawTimeField
  generalize drawDigits (vgLoadSprites xpm) past y value.toNat x = r at digits low high ⊢
  obtain ⟨draws, x', n⟩ := r
  simp only at digits low high ⊢
  have next := leftOf_toNat xpm past (d := 0) (by decide) (x := x') (by omega)
  have next' := leftOf_toNat xpm past (d := 0) (by decide)
    (x := leftOf (vgLoadSprites xpm) past 0 x') (by omega)
  have zero := numberSprite_pixmap xpm past (d := 0) (by decide)
  split_ifs
  · refine ⟨List.forall_mem_append.2 ⟨digits, List.forall_mem_singleton.2 ?_⟩, ?_, ?_⟩
    · exact zero.fits (by omega) bottom false
    · simp only
      omega
    · simp only
      omega
  · refine ⟨List.forall_mem_append.2 ⟨digits, List.forall_mem_cons.2 ⟨?_,
      List.forall_mem_singleton.2 ?_⟩⟩, ?_, ?_⟩
    · exact zero.fits (by omega) bottom false
    · exact zero.fits (by omega) bottom false
    · simp only
      omega
    · simp only
      omega
  · exact ⟨digits, low, high.trans (Nat.add_le_add_left (by decide) _)⟩

theorem twoPoints_pixmap : IsPixmap xpm 16 16 ((vgLoadSprites xpm).symbSprites.getD 2 past) :=
  isPixmap_load xpm .twoPoints

theorem vgDrawTimeInfo_fits (g : Globals) :
    ∀ d ∈ vgDrawTimeInfo (vgLoadSprites xpm) past g, d.Fits gameGraphicsMode := by
  have start : (UInt16.ofNat pointsWidthMargin).toNat = 700 := by decide
  obtain ⟨minutes, low, high⟩ := drawTimeField_fits xpm past
    (y := UInt16.ofNat (pointsHeightMargin + 8)) (by decide) g.minutes
    (x := UInt16.ofNat pointsWidthMargin) (by decide) (by decide)
  unfold vgDrawTimeInfo
  simp only
  generalize drawTimeField (vgLoadSprites xpm) past _ g.minutes _ = r at minutes low high ⊢
  rw [start] at low high
  have next := leftOf_toNat xpm past (d := 1) (by decide) (x := r.2) (by omega)
  refine List.forall_mem_append.2 ⟨minutes, List.forall_mem_cons.2 ⟨?_, ?_⟩⟩
  · apply (twoPoints_pixmap xpm past).fits _ (by decide)
    rw [UInt16.toNat_add, show (8 : UInt16).toNat = 8 from rfl, Nat.mod_eq_of_lt (by omega)]
    omega
  · exact (drawTimeField_fits xpm past (by decide) g.hours (by omega) (by omega)).1

/-! ## Texts -/

theorem drawChar_fits (c : UInt8) {x y : ℤ} (left : 0 ≤ x) (right : x + 32 ≤ 800) (top : 0 ≤ y)
    (bottom : y + 32 ≤ 600) :
    ∀ d ∈ drawChar (vgLoadSprites xpm) past c x y, d.Fits gameGraphicsMode := by
  unfold drawChar
  split_ifs with letter digit
  · rw [List.forall_mem_singleton]
    apply drawAt_fits (letterSprite_pixmap xpm past _) left right top bottom
    obtain ⟨first, last⟩ := letter
    rw [UInt8.toNat_sub_of_le _ _ first]
    have : c.toNat ≤ 90 := UInt8.le_iff_toNat_le.1 last
    have : 'A'.toUInt8.toNat = 65 := rfl
    omega
  · rw [List.forall_mem_singleton]
    apply drawAt_fits (numberSprite_pixmap xpm past _) left right top bottom
    obtain ⟨first, last⟩ := digit
    rw [UInt8.toNat_sub_of_le _ _ first]
    have : c.toNat ≤ 57 := UInt8.le_iff_toNat_le.1 last
    have : '0'.toUInt8.toNat = 48 := rfl
    omega
  · rw [List.forall_mem_singleton]
    exact drawAt_fits (isPixmap_load xpm .dash) left right top bottom
  · rw [List.forall_mem_singleton]
    exact drawAt_fits (isPixmap_load xpm .slash) left right top bottom
  · rw [List.forall_mem_singleton]
    exact drawAt_fits (twoPoints_pixmap xpm past) (by omega) (by omega) (by omega) (by omega)
  · exact List.forall_mem_nil _

theorem letterA_size : ((letterA (vgLoadSprites xpm) past).width : ℤ) = 32 ∧
    ((letterA (vgLoadSprites xpm) past).height : ℤ) = 32 := by
  have size := (letterSprite_pixmap xpm past (l := 0) (by decide)).size
  exact ⟨congrArg Nat.cast size.1, congrArg Nat.cast size.2⟩

/-- A text drawn from `(x0, y0)` on stays inside the frame if its lines have room there, each
character taking at most 32 pixels. -/
theorem drawChars_fits {x0 y0 : ℤ} {width lines : ℕ} (left : 0 ≤ x0) (right : x0 + 32 * width ≤ 800)
    (top : 0 ≤ y0) (bottom : y0 + 32 * lines ≤ 600) {cs : List UInt8} {x : ℤ} {col row : ℕ}
    (room : fitsLines width lines col row cs) (inside : row < lines) (start : x0 ≤ x)
    (column : x ≤ x0 + 32 * col) :
    ∀ d ∈ drawChars (vgLoadSprites xpm) past x0 cs x (y0 + 32 * row), d.Fits gameGraphicsMode := by
  induction cs generalizing x col row with
  | nil => exact List.forall_mem_nil _
  | cons c cs ih =>
    obtain ⟨w, h⟩ := letterA_size xpm past
    rw [fitsLines] at room
    simp only [drawChars, w, h]
    refine List.forall_mem_append.2 ⟨?_, ?_⟩
    · by_cases newline : c = 10
      · subst newline
        exact List.forall_mem_nil _
      · rw [if_neg newline, Bool.and_eq_true, decide_eq_true_eq] at room
        exact drawChar_fits xpm past c (by omega) (by omega) (by omega) (by omega)
    · by_cases newline : c = 10
      · subst newline
        rw [if_pos rfl, Bool.and_eq_true, decide_eq_true_eq] at room
        rw [if_neg (by decide), if_pos rfl,
          show y0 + 32 * (row : ℤ) + 32 = y0 + 32 * ((row + 1 : ℕ) : ℤ) by push_cast; ring]
        exact ih room.2 room.1 (by omega) (by omega)
      · rw [if_neg newline, Bool.and_eq_true, decide_eq_true_eq] at room
        rw [if_neg newline]
        split_ifs
        · exact ih room.2 inside (by omega) (by push_cast; omega)
        · exact ih room.2 inside (by omega) (by push_cast; omega)

theorem vgDrawStr_fits {text : List UInt8} {width lines : ℕ}
    (room : fitsLines width lines 0 0 (str text)) (some : 0 < lines) {x0 y0 : ℤ} (left : 0 ≤ x0)
    (right : x0 + 32 * width ≤ 800) (top : 0 ≤ y0) (bottom : y0 + 32 * lines ≤ 600) :
    ∀ d ∈ vgDrawStr (vgLoadSprites xpm) past text x0 y0, d.Fits gameGraphicsMode := by
  have fits := drawChars_fits xpm past left right top bottom room some le_rfl
    (by omega)
  simpa [vgDrawStr] using fits

/-! ## The screens -/

theorem vgDrawGame_fits {g : Globals} (bounded : Bounded g) :
    ∀ d ∈ vgDrawGame (vgLoadSprites xpm) past g, d.Fits gameGraphicsMode := by
  simp only [vgDrawGame, List.forall_mem_append, List.forall_mem_singleton]
  exact ⟨⟨vgDrawAliens_fits xpm past bounded, vgDrawPoints_fits xpm past g⟩,
    vgDrawCrosshair_fits xpm bounded⟩

theorem vgDrawPlayButton_fits (g : Globals) :
    (vgDrawPlayButton (vgLoadSprites xpm) past g).Fits gameGraphicsMode := by
  unfold vgDrawPlayButton
  split_ifs
  · exact (isPixmap_load xpm .playButtonUnpressed).fits (by decide) (by decide) false
  · exact (isPixmap_load xpm .playButtonPressed).fits (by decide) (by decide) false

theorem vgDrawExitButton_fits (g : Globals) :
    (vgDrawExitButton (vgLoadSprites xpm) past g).Fits gameGraphicsMode := by
  unfold vgDrawExitButton
  split_ifs
  · exact (isPixmap_load xpm .exitButtonUnpressed).fits (by decide) (by decide) false
  · exact (isPixmap_load xpm .exitButtonPressed).fits (by decide) (by decide) false

theorem vgDrawMenu_fits {g : Globals} (bounded : Bounded g) :
    ∀ d ∈ vgDrawMenu (vgLoadSprites xpm) past g, d.Fits gameGraphicsMode := by
  simp only [vgDrawMenu, List.forall_mem_append, List.forall_mem_cons]
  refine ⟨⟨⟨?_, vgDrawPlayButton_fits xpm past g, vgDrawExitButton_fits xpm past g,
    List.forall_mem_nil _⟩, vgDrawTimeInfo_fits xpm past g⟩,
    vgDrawCrosshair_fits xpm bounded, List.forall_mem_nil _⟩
  exact (isPixmap_load xpm .gameName).fits (by decide) (by decide) false

theorem vgDrawGameOver_fits {g : Globals} (bounded : Bounded g) :
    ∀ d ∈ vgDrawGameOver (vgLoadSprites xpm) past g, d.Fits gameGraphicsMode := by
  refine List.forall_mem_append.2 ⟨?_, ?_⟩
  · split_ifs
    · rw [List.forall_mem_singleton]
      exact (isPixmap_load xpm .gameOver).fits (by decide) (by decide) false
    · exact vgDrawAliens_fits xpm past bounded
  · simp only [List.forall_mem_cons]
    exact ⟨vgDrawKillerAlien_fits xpm past bounded, vgDrawCrosshair_fits xpm bounded,
      List.forall_mem_nil _⟩

theorem vgDrawPaused_fits : ∀ d ∈ vgDrawPaused (vgLoadSprites xpm), d.Fits gameGraphicsMode := by
  rw [vgDrawPaused, List.forall_mem_singleton]
  exact (isPixmap_load xpm .paused).fits (by decide) (by decide) false

theorem vgDrawInputScreen_fits {g : Globals} (bounded : Bounded g)
    {points : UInt32} {submitted : Bool} (message : g.inputMessage = scoreMessage points submitted)
    (name : strlen g.name ≤ 6 ∧ (str g.name).all isNameByte) :
    ∀ d ∈ vgDrawInputScreen (vgLoadSprites xpm) past g, d.Fits gameGraphicsMode := by
  obtain ⟨w, h⟩ := letterA_size xpm past
  simp only [vgDrawInputScreen, List.forall_mem_append, List.forall_mem_singleton, message, w, h]
  refine ⟨⟨?_, ?_⟩, vgDrawCrosshair_fits xpm bounded⟩
  · exact vgDrawStr_fits xpm past (fitsLines_scoreMessage points submitted) (by decide) (by decide)
      (by decide) (by decide) (by decide)
  · split_ifs
    · exact vgDrawStr_fits xpm past (fitsLines_line (newline_notMem_name name.2) name.1)
        (by decide) (by decide) (by decide) (by decide) (by decide)
    · exact List.forall_mem_nil _

theorem vgDrawLeadeboard_fits {g : Globals} (bounded : Bounded g) (valid : g.lb.ValidNames) :
    ∀ d ∈ vgDrawLeadeboard (vgLoadSprites xpm) past g, d.Fits gameGraphicsMode := by
  obtain ⟨-, h⟩ := letterA_size xpm past
  simp only [vgDrawLeadeboard, List.forall_mem_append, List.forall_mem_cons, h]
  refine ⟨⟨⟨⟨?_, ?_, ?_, ?_, List.forall_mem_nil _⟩, ?_⟩, ?_⟩, vgDrawCrosshair_fits xpm bounded,
    List.forall_mem_nil _⟩
  · exact (lbCorner_pixmap xpm past (by decide)).fits (by decide) (by decide) false
  · exact (lbCorner_pixmap xpm past (by decide)).fits (by decide) (by decide) false
  · exact (lbCorner_pixmap xpm past (by decide)).fits (by decide) (by decide) false
  · exact (lbCorner_pixmap xpm past (by decide)).fits (by decide) (by decide) false
  · exact vgDrawStr_fits xpm past (fitsLines_getLeaderBoard valid) (by decide) (by decide) (by decide)
      (by decide) (by decide)
  · have line : fitsLines 23 1 0 0 (str (ascii "PRESS ENTER TO CONTINUE")) := by decide
    exact vgDrawStr_fits xpm past line (by decide) (by decide) (by decide) (by decide) (by decide)

end Parts

/-- The state with other values of what the screens display: the points with the message built from
them, the clock and the leaderboard. -/
def Globals.showing (g : Globals) (points : UInt32) (hours minutes : UInt8) (lb : Leaderboard)
    (submitted : Bool) : Globals :=
  { g with
    points := points
    hours := hours
    minutes := minutes
    lb := lb
    inputMessage := scoreMessage points submitted }

/-- One call of `vg_ih` in a reachable state, whatever the points, the time and the names on the
leaderboard are, clears and copies exactly the buffer, draws every sprite whole, writes inside the
buffer only and reads inside the sprites only. -/
theorem vgIh_in_bounds (xpm : XpmLoader) (past : Sprite) {g : Globals} (reachable : Reachable g)
    (points : UInt32) (hours minutes : UInt8) {lb : Leaderboard} (valid : lb.ValidNames)
    (submitted : Bool) :
    let frame := vgIh (vgLoadSprites xpm) past (g.showing points hours minutes lb submitted)
      gameGraphicsMode
    frame.cleared = 800 * 600 * 3 ∧ frame.copied = 800 * 600 * 3 ∧
      ∀ d ∈ frame.draws, d.InBounds gameGraphicsMode := by
  refine ⟨rfl, rfl, fun d hd => Draw.Fits.inBounds ?_ (by decide) rfl⟩
  have bounded : Bounded (g.showing points hours minutes lb submitted) :=
    { reachable.bounded with }
  have typed : Typed (g.showing points hours minutes lb submitted) := reachable.typed
  generalize shown : g.showing points hours minutes lb submitted = g' at bounded typed hd
  have message : g'.inputMessage = scoreMessage points submitted := shown ▸ rfl
  have names : g'.lb.ValidNames := shown ▸ valid
  revert d
  unfold vgIh
  cases state : g'.gameState with
  | playing => exact vgDrawGame_fits xpm past bounded
  | menu => exact vgDrawMenu_fits xpm past bounded
  | gameOver => exact vgDrawGameOver_fits xpm past bounded
  | pause => exact vgDrawPaused_fits xpm
  | lbInput => exact vgDrawInputScreen_fits xpm past bounded message (typed state)
  | leaderboard => exact vgDrawLeadeboard_fits xpm past bounded names
  | exit => exact List.forall_mem_nil _

/-- Pixmaps of the sizes in their headers, with white and black pixels in turn. -/
def stripedPixmaps : XpmLoader where
  load p :=
    ⟨(List.range (p.width * p.height * 3)).map fun k => if k / 3 % 2 = 0 then 0xFF else 0, p.width,
      p.height⟩
  width_load _ := rfl
  height_load _ := rfl
  length_bytes _ := by rw [List.length_map, List.length_range]

/-- The first frame, with the largest number of points. -/
theorem vgIh_in_bounds_menu :
    let frame := vgIh (vgLoadSprites stripedPixmaps) ⟨[], 0, 0⟩
      ((loopStart .zero).showing 4294967295 23 59 oneEntry true) gameGraphicsMode
    frame.draws ≠ [] ∧ ∀ d ∈ frame.draws, d.InBounds gameGraphicsMode := by
  refine ⟨nofun, (vgIh_in_bounds stripedPixmaps _ (reachable_loopStart .zero) _ _ _ ?_ _).2.2⟩
  unfold Leaderboard.ValidNames
  decide

end LabComputers

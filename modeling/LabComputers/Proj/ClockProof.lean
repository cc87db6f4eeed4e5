import LabComputers.Proj.GlyphProof
import LabComputers.Proj.RtcProof

/-!
# The time in the menu

`to_BCD` decodes what the clock encodes (`toBCD_bcd`), and `vg_draw_time_info` draws two digits for the
minutes and two for the hours, whether they come from the loop or from the zeros added to it
(`drawTimeField_two`).  So the menu shows the time that the registers of the clock hold.
-/

namespace LabComputers

open CString

/-- The coding of the numbers below 100 in the registers of the clock. -/
def bcd (n : ℕ) : UInt8 := UInt8.ofNat (n / 10 * 16 + n % 10)

theorem toBCD_bcd {n : ℕ} (small : n < 100) : (toBCD (bcd n)).toNat = n := by
  have table : ∀ n : Fin 100, (toBCD (bcd n)).toNat = n := by decide
  exact table ⟨n, small⟩

/-- The character of a digit. -/
def digit (d : ℕ) : UInt8 := UInt8.ofNat d.digitChar.toNat

/-- Where the characters of the time are drawn, from left to right, the colon lower than the digits. -/
def clockPlaces : List (ℕ × ℕ) := [(552, 40), (589, 40), (634, 54), (663, 40), (700, 40)]

/-- The time as it is read. -/
def clockText (h m : ℕ) : List UInt8 :=
  [digit (h / 10), digit (h % 10), ':'.toUInt8, digit (m / 10), digit (m % 10)]

section Time

variable (xpm : XpmLoader) (past : Sprite)

theorem leftOf_eq {d : ℕ} (small : d < 10) (x : UInt16) :
    leftOf (vgLoadSprites xpm) past d x = x - 37 := by
  rw [leftOf, (numberSprite_pixmap xpm past small).size.1]
  rfl

/-- A number below 100 is drawn as two digits. -/
theorem drawTimeField_two {value : UInt8} {n : ℕ} (stands : value.toNat = n) (small : n < 100)
    (y x : UInt16) :
    drawTimeField (vgLoadSprites xpm) past y value x =
      ([vgDrawSprite (numberSprite (vgLoadSprites xpm) past (n % 10)) x y 1,
        vgDrawSprite (numberSprite (vgLoadSprites xpm) past (n / 10)) (x - 37) y 1], x - 37 - 37) := by
  have left (d : ℕ) (small : d < 10) (x : UInt16) := leftOf_eq xpm past small x
  rw [drawTimeField, stands]
  by_cases none : n = 0
  · rw [none, drawDigits, if_pos rfl]
    simp [left 0 (by decide)]
  · by_cases one : n / 10 = 0
    · have last : n % 10 = n := by omega
      have digits : drawDigits (vgLoadSprites xpm) past y n x =
          ([vgDrawSprite (numberSprite (vgLoadSprites xpm) past n) x y 1], x - 37, 1) := by
        rw [drawDigits, if_neg none, one, drawDigits, if_pos rfl, last, left n (by omega)]
      rw [digits]
      simp [one, last, left 0 (by decide)]
    · have first : n / 10 % 10 = n / 10 := by omega
      have digits : drawDigits (vgLoadSprites xpm) past y n x =
          ([vgDrawSprite (numberSprite (vgLoadSprites xpm) past (n % 10)) x y 1,
            vgDrawSprite (numberSprite (vgLoadSprites xpm) past (n / 10)) (x - 37) y 1],
            x - 37 - 37, 2) := by
        rw [drawDigits, if_neg none, drawDigits, if_neg one, drawDigits, if_pos (by omega), first,
          left (n % 10) (by omega), left (n / 10) (by omega)]
      rw [digits]
      simp

/-- What `vg_draw_time_info` draws, read from left to right, and where. -/
theorem vgDrawTimeInfo_reads {g : Globals} {h m : ℕ} (hours : g.hours.toNat = h)
    (minutes : g.minutes.toNat = m) (hour : h < 100) (minute : m < 100) :
    (vgDrawTimeInfo (vgLoadSprites xpm) past g).reverse.map (fun d => (some d.sprite, d.x, d.y)) =
      ((clockText h m).map (glyph xpm)).zip clockPlaces := by
  have colon : glyph xpm ':'.toUInt8 = some ((vgLoadSprites xpm).symbSprites.getD 2 past) := rfl
  rw [vgDrawTimeInfo, drawTimeField_two xpm past minutes minute, drawTimeField_two xpm past hours hour,
    leftOf_eq xpm past (by decide)]
  simp only [clockText, List.map_cons, List.map_nil, digit, colon,
    glyph_digit xpm past (show h / 10 < 10 by omega), glyph_digit xpm past (show m / 10 < 10 by omega),
    glyph_digit xpm past (show h % 10 < 10 by omega), glyph_digit xpm past (show m % 10 < 10 by omega)]
  rfl

/-- Whatever the clock is doing when `rtc_ih` asks for the time, the menu then shows the hours and the
minutes of its registers, in two digits each. -/
theorem menu_shows_time {c : Rtc.Clock} {h m n fuel : ℕ} {g : Globals} (v : Rtc.Variables)
    (menu : g.gameState = .menu) (hour : h < 100) (minute : m < 100)
    (hours : c.registers Rtc.hours = bcd h) (minutes : c.registers Rtc.minutes = bcd m)
    (busy : ∀ k < n, Rtc.Updating (c.nextA k)) (valid : ¬ Rtc.Updating (c.nextA n))
    (enough : n < fuel) :
    ∃ v' g' c' time, (Rtc.rtcIh fuel v g).serve Rtc.Clock.answer c = (some (v', g'), c') ∧
      (vgIh (vgLoadSprites xpm) past g' gameGraphicsMode).draws =
        [vgDrawGameName (vgLoadSprites xpm), vgDrawPlayButton (vgLoadSprites xpm) past g,
          vgDrawExitButton (vgLoadSprites xpm) past g] ++ time ++
            [vgDrawCrosshair (vgLoadSprites xpm) g 1] ∧
      time.reverse.map (fun d => (some d.sprite, d.x, d.y)) =
        ((clockText h m).map (glyph xpm)).zip clockPlaces := by
  obtain ⟨v', c', served⟩ := Rtc.serve_rtcIh v g busy valid enough
  rw [hours, minutes] at served
  refine ⟨v', _, c', vgDrawTimeInfo (vgLoadSprites xpm) past (rtcIh (bcd h) (bcd m) g), served, ?_,
    vgDrawTimeInfo_reads xpm past (toBCD_bcd hour) (toBCD_bcd minute) hour minute⟩
  rw [vgIh, rtcIh]
  simp only [menu]
  rfl

end Time

/-- Five minutes past nine, after two polls during an update. -/
theorem menu_shows_time_nine :
    let g := loopStart .zero
    let c : Rtc.Clock := { Rtc.quietClock with
      registers := fun r => if r = Rtc.hours then 0x09 else if r = Rtc.minutes then 0x05 else 0x02 }
    ∃ v' g' c' time, (Rtc.rtcIh 3 ⟨0, 0, 0, 0, 0, 0, 0, 0⟩ g).serve Rtc.Clock.answer c =
        (some (v', g'), c') ∧
      (vgIh (vgLoadSprites stripedPixmaps) ⟨[], 0, 0⟩ g' gameGraphicsMode).draws =
        [vgDrawGameName (vgLoadSprites stripedPixmaps),
          vgDrawPlayButton (vgLoadSprites stripedPixmaps) ⟨[], 0, 0⟩ g,
          vgDrawExitButton (vgLoadSprites stripedPixmaps) ⟨[], 0, 0⟩ g] ++ time ++
            [vgDrawCrosshair (vgLoadSprites stripedPixmaps) g 1] ∧
      time.reverse.map (fun d => (some d.sprite, d.x, d.y)) =
        ((ascii "09:05").map (glyph stripedPixmaps)).zip clockPlaces := by
  have busy : ∀ k < 2, Rtc.Updating (Rtc.quietClock.nextA k) := by decide
  exact menu_shows_time (h := 9) (m := 5) (n := 2) stripedPixmaps _ _ rfl (by decide) (by decide) rfl rfl
    busy (by decide) (by decide)

end LabComputers

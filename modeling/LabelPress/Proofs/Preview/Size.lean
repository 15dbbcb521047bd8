import LabelPress.Proofs.Preview.Painting
import LabelPress.Proofs.Units.Error

/-! The size of a picture. It goes through dots and through pixels, each of which adds a half of its
own unit, so that it is the physical size but for a pixel and a half, whatever the density. -/
namespace LabelPress

open Binary Number

theorem Units.abs_pixelsOfDots_dotsOfMm_sub_lt {mm : Single} {m : Rat} (hmm : mm.toRat? = some m)
    (hlow : 0 ≤ m) (hhigh : m ≤ 10000) (d : Density) :
    |((pixelsOfDots (dotsOfMm mm d) d).toInt : Rat) - 10 * m| < 3 / 2 := by
  obtain ⟨hleast, -⟩ := ratio_bounds d
  have hpos : 0 < d.ratio := by linarith
  have hdots := abs_dotsOfMm_sub_le_of_abs_le hmm (abs_le.mpr ⟨by linarith, hhigh⟩) (by norm_num) d
  generalize dotsOfMm mm d = dots at hdots ⊢
  -- Half a dot is less than a pixel, and half a pixel comes on top.
  have hsize : |10 * dots.toInt / d.ratio - 10 * m| ≤ 9 / 10 := by
    have hscaled : 10 * dots.toInt / d.ratio - 10 * m =
        10 / d.ratio * (dots.toInt - m * d.ratio) := by
      field_simp
    rw [hscaled, abs_mul, abs_of_pos (by positivity)]
    calc 10 / d.ratio * |dots.toInt - m * d.ratio|
        ≤ 10 / 6 * (1 / 2 + 10000 * 24 * (13 * 2 ^ (-27 : Int))) := by gcongr
      _ ≤ 9 / 10 := by norm_num
  have hrange := abs_le.mp hsize
  have hword : |10 * dots.toInt / d.ratio| ≤ 100001 := abs_le.mpr ⟨by linarith, by linarith⟩
  have hpixels := abs_pixelsOfDots_sub_le dots d
  rw [clampWord_eq_self (by linarith) (by linarith)] at hpixels
  calc |((pixelsOfDots dots d).toInt : Rat) - 10 * m|
      ≤ |((pixelsOfDots dots d).toInt : Rat) - 10 * dots.toInt / d.ratio| +
          |10 * dots.toInt / d.ratio - 10 * m| := abs_sub_le _ _ _
    _ ≤ 1 / 2 + 100001 * 2 ^ (-22 : Int) + 9 / 10 := by
        refine add_le_add (hpixels.trans ?_) hsize
        gcongr
    _ < 3 / 2 := by norm_num

namespace Label

/-- The least side is one pixel, which is no further from a length than the pixels below it. -/
theorem abs_canvasSide_sub_lt {mm : Single} {m : Rat} (hmm : mm.toRat? = some m) (hlow : 0 ≤ m)
    (hhigh : m ≤ 10000) (d : Density) :
    |(canvasSide (Units.dotsOfMm mm d) d : Rat) - 10 * m| < 3 / 2 := by
  have hpixels := abs_lt.mp (Units.abs_pixelsOfDots_dotsOfMm_sub_lt hmm hlow hhigh d)
  have hside : (canvasSide (Units.dotsOfMm mm d) d : Rat) =
      max 1 ((Units.pixelsOfDots (Units.dotsOfMm mm d) d).toInt : Rat) := by
    exact_mod_cast canvasSide_eq (Units.dotsOfMm mm d) d
  rw [hside, abs_lt]
  rcases max_cases (1 : Rat) (Units.pixelsOfDots (Units.dotsOfMm mm d) d).toInt with
    ⟨hmax, hle⟩ | ⟨hmax, -⟩ <;> rw [hmax] <;> constructor <;> linarith

def blankMm (d : Density) (width height : Single) : Label :=
  (ofConfig { density := d }).sizedMm width height

theorem preview_blankMm (d : Density) (width height : Single) :
    ∃ canvas, (blankMm d width height).preview = .ok canvas ∧
      canvas.width = canvasSide (Units.dotsOfMm width d) d ∧
      canvas.height = canvasSide (Units.dotsOfMm height d) d := by
  have hwidth : (blankMm d width height).width = some (Units.dotsOfMm width d) := rfl
  have hheight : (blankMm d width height).height = some (Units.dotsOfMm height d) := rfl
  have hdensity : (blankMm d width height).config.density = d := rfl
  refine ⟨_, preview_eq_ok hwidth hheight, ?_⟩
  rw [Canvas.width_paint, Canvas.height_paint, hdensity]
  simp only [Canvas.blank, and_self]

/-- The picture of a label up to ten metres on a side is ten pixels to the millimetre but for a
pixel and a half, so that two densities show it alike but for three pixels. -/
theorem preview_size_near {width height : Single} {w h : Rat} (hwidth : width.toRat? = some w)
    (hheight : height.toRat? = some h) (hw : 0 ≤ w ∧ w ≤ 10000) (hh : 0 ≤ h ∧ h ≤ 10000)
    (d d' : Density) :
    ∃ canvas canvas', (blankMm d width height).preview = .ok canvas ∧
      (blankMm d' width height).preview = .ok canvas' ∧
      (|(canvas.width : Rat) - 10 * w| < 3 / 2 ∧ |(canvas.height : Rat) - 10 * h| < 3 / 2) ∧
      |(canvas.width : Rat) - canvas'.width| < 3 ∧
      |(canvas.height : Rat) - canvas'.height| < 3 := by
  obtain ⟨canvas, hcanvas, hcanvasWidth, hcanvasHeight⟩ := preview_blankMm d width height
  obtain ⟨canvas', hcanvas', hcanvasWidth', hcanvasHeight'⟩ := preview_blankMm d' width height
  have hcloseW (d : Density) := abs_canvasSide_sub_lt hwidth hw.1 hw.2 d
  have hcloseH (d : Density) := abs_canvasSide_sub_lt hheight hh.1 hh.2 d
  have hdiff {a b c : Rat} (ha : |a - c| < 3 / 2) (hb : |b - c| < 3 / 2) : |a - b| < 3 := by
    rw [abs_sub_comm] at hb
    linarith [abs_sub_le a c b]
  refine ⟨canvas, canvas', hcanvas, hcanvas', ?_⟩
  rw [hcanvasWidth, hcanvasHeight, hcanvasWidth', hcanvasHeight']
  exact ⟨⟨hcloseW d, hcloseH d⟩, hdiff (hcloseW d) (hcloseW d'), hdiff (hcloseH d) (hcloseH d')⟩

/-- A width that is no dot at the first density and one dot at the second, and the greatest
height. -/
theorem preview_size_near_thread :
    ((.finite false 13421773 (-28) : Single).toRat? = some (13421773 / 268435456) ∧
        (.finite false 10240000 (-10) : Single).toRat? = some 10000 ∧
        (0 ≤ (13421773 / 268435456 : Rat) ∧ (13421773 / 268435456 : Rat) ≤ 10000) ∧
        (0 ≤ (10000 : Rat) ∧ (10000 : Rat) ≤ 10000)) ∧
      ∃ canvas canvas',
        (blankMm .dpi152 (.finite false 13421773 (-28)) (.finite false 10240000 (-10))).preview =
            .ok canvas ∧
          (blankMm .dpi600 (.finite false 13421773 (-28)) (.finite false 10240000 (-10))).preview =
            .ok canvas' ∧
          (|(canvas.width : Rat) - 10 * (13421773 / 268435456)| < 3 / 2 ∧
            |(canvas.height : Rat) - 10 * 10000| < 3 / 2) ∧
          |(canvas.width : Rat) - canvas'.width| < 3 ∧
          |(canvas.height : Rat) - canvas'.height| < 3 :=
  have hwidth : (.finite false 13421773 (-28) : Single).toRat? = some (13421773 / 268435456) := by
    decide +kernel
  have hheight : (.finite false 10240000 (-10) : Single).toRat? = some 10000 := by decide +kernel
  have hw : 0 ≤ (13421773 / 268435456 : Rat) ∧ (13421773 / 268435456 : Rat) ≤ 10000 := by
    norm_num
  have hh : 0 ≤ (10000 : Rat) ∧ (10000 : Rat) ≤ 10000 := by norm_num
  ⟨⟨hwidth, hheight, hw, hh⟩, preview_size_near hwidth hheight hw hh .dpi152 .dpi600⟩

end Label

end LabelPress

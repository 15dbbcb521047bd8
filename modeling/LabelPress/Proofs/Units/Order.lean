import LabelPress.Proofs.Binary.Order
import LabelPress.Proofs.Units.Error

/-! Conversions keep the order of measures. Each one rounds products and quotients with positive
factors, and then takes the nearest word. -/
namespace LabelPress.Units

open Binary Number

theorem mul_dotsPerMm_mono (d : Density) {x y : Single} (h : x ≤ y) :
    x * d.dotsPerMm ≤ y * d.dotsPerMm := by
  obtain ⟨c, hc, hlow, -⟩ := dotsPerMm_bounds d
  exact mul_le_mul_right hc (by linarith) Format.sound_single h

theorem dotsOfMm_mono (d : Density) {x y : Single} (h : x ≤ y) : dotsOfMm x d ≤ dotsOfMm y d :=
  toInt32_mono (mul_dotsPerMm_mono d h)

theorem dotsOfPoints_mono (d : Density) {x y : Single} (h : x ≤ y) :
    dotsOfPoints x d ≤ dotsOfPoints y d :=
  dotsOfMm_mono d (mul_le_mul_right toRat?_mmPerPoint (by norm_num) Format.sound_single h)

theorem mmOfDots_mono (d : Density) {m n : Int32} (h : m ≤ n) : mmOfDots m d ≤ mmOfDots n d := by
  obtain ⟨c, hc, hlow, -⟩ := dotsPerMm_bounds d
  exact div_le_div_right hc (by linarith) Format.sound_single
    (ofInt_le_ofInt Format.sound_single (Int32.le_iff_toInt_le.mp h))

theorem pointsOfDots_mono (d : Density) {m n : Int32} (h : m ≤ n) :
    pointsOfDots m d ≤ pointsOfDots n d :=
  div_le_div_right toRat?_mmPerPoint (by norm_num) Format.sound_single (mmOfDots_mono d h)

theorem pixelsOfDots_mono (d : Density) {m n : Int32} (h : m ≤ n) :
    pixelsOfDots m d ≤ pixelsOfDots n d :=
  toInt32_mono (mul_le_mul_right toRat?_pixelsPerMm (by norm_num) Format.sound_single
    (mmOfDots_mono d h))

end LabelPress.Units

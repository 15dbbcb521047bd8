import LabelPress.Proofs.Binary.Operation
import LabelPress.Units

/-! The errors of the conversions. Every operation adds a share of the exact value, the density
adds the share of its own rounding, and the nearest word adds a half. -/
namespace LabelPress

/-- The dots in a millimetre, before they are rounded to a single. -/
def Density.ratio : Density → Rat
  | dpi152 => 6
  | dpi203 => 8
  | dpi300 => 59 / 5
  | dpi600 => 24

namespace Units

open Binary Number

theorem ratio_bounds (d : Density) : 6 ≤ d.ratio ∧ d.ratio ≤ 24 := by
  cases d <;> norm_num [Density.ratio]

/-- 11.8 is rounded by less than half of the share of the precision; the others are exact. -/
theorem dotsPerMm_near (d : Density) :
    ∃ c, d.dotsPerMm.toRat? = some c ∧ Near (2 ^ (-25 : Int)) c d.ratio := by
  cases d with
  | dpi152 =>
    have hvalue : Density.dpi152.dotsPerMm = .finite false 12582912 (-21) := by decide +kernel
    refine ⟨6, ?_, ?_⟩ <;> norm_num [hvalue, toRat?, magnitude, Near, Density.ratio]
  | dpi203 =>
    have hvalue : Density.dpi203.dotsPerMm = .finite false 8388608 (-20) := by decide +kernel
    refine ⟨8, ?_, ?_⟩ <;> norm_num [hvalue, toRat?, magnitude, Near, Density.ratio]
  | dpi300 =>
    have hvalue : Density.dpi300.dotsPerMm = .finite false 12373197 (-20) := by decide +kernel
    refine ⟨12373197 / 1048576, ?_, ?_⟩ <;>
      norm_num [hvalue, toRat?, magnitude, Near, Density.ratio, abs_of_pos]
  | dpi600 =>
    have hvalue : Density.dpi600.dotsPerMm = .finite false 12582912 (-19) := by decide +kernel
    refine ⟨24, ?_, ?_⟩ <;> norm_num [hvalue, toRat?, magnitude, Near, Density.ratio]

theorem dotsPerMm_bounds (d : Density) :
    ∃ c, d.dotsPerMm.toRat? = some c ∧ 5 ≤ c ∧ c ≤ 25 := by
  obtain ⟨hlow, hhigh⟩ := ratio_bounds d
  obtain ⟨c, hc, hcNear⟩ := dotsPerMm_near d
  have hpos := hcNear.pos (by norm_num) (by linarith)
  have hle := hcNear.abs_le
  have hge := hcNear.le_abs
  rw [abs_of_pos hpos, abs_of_pos (by linarith)] at hle hge
  norm_num at hle hge
  exact ⟨c, hc, by linarith, by linarith⟩

theorem abs_toInt_le (dots : Int32) : |(dots.toInt : Rat)| ≤ 2 ^ 31 := by
  have hlow := dots.le_toInt
  have hhigh := dots.toInt_lt
  rw [abs_le]
  norm_cast
  omega

theorem one_le_abs_toInt {dots : Int32} (h : dots ≠ 0) : 1 ≤ |(dots.toInt : Rat)| := by
  have hne : dots.toInt ≠ 0 := fun hzero => h (Int32.toInt_inj.mp hzero)
  exact_mod_cast Int.one_le_abs hne

theorem abs_div_bounds {dots : Int32} (h : dots ≠ 0) {b : Rat} (hb : |(dots.toInt : Rat)| ≤ b)
    {c : Rat} (hlow : 5 ≤ c) (hhigh : c ≤ 25) :
    1 / 25 ≤ |(dots.toInt / c : Rat)| ∧ |(dots.toInt / c : Rat)| ≤ b := by
  have hone := one_le_abs_toInt h
  have hpos : 0 < c := by linarith
  rw [abs_div, abs_of_pos hpos, le_div_iff₀ hpos, div_le_iff₀ hpos]
  have hscaled : b * 1 ≤ b * c := mul_le_mul_of_nonneg_left (by linarith) (by linarith)
  constructor <;> linarith

theorem mmOfDots_near_of_near {dots : Int32} {n s : Rat}
    (hn : (Number.ofInt dots.toInt : Single).toRat? = some n) (hnear : Near s n dots.toInt)
    (hlow : 0 ≤ s) (hhigh : s ≤ 2 ^ (-24 : Int)) (d : Density) :
    ∃ v, (mmOfDots dots d).toRat? = some v ∧
      Near (13 * 2 ^ (-27 : Int) + s) v (dots.toInt / d.ratio) := by
  by_cases h : dots = 0
  -- Below the normal numbers an error is no share of the value; only zero dots get there.
  · subst h
    refine ⟨0, ?_, by simp [Near]⟩
    cases d <;> decide +kernel
  · obtain ⟨hsix, htwentyfour⟩ := ratio_bounds d
    obtain ⟨hleast, hgreatest⟩ := abs_div_bounds h (abs_toInt_le dots) (c := d.ratio)
      (by linarith) (by linarith)
    have hratio : d.ratio ≠ 0 := by linarith
    obtain ⟨c, hc, hcNear⟩ := dotsPerMm_near d
    -- Three roundings: that of the dots, that of the density, and that of their quotient.
    have hquotient := ((hcNear.inv (by norm_num) hratio).mul_left dots.toInt).trans
      (hnear.mul_right c⁻¹) hlow
    rw [← div_eq_mul_inv, ← div_eq_mul_inv] at hquotient
    norm_num at hhigh
    have hcoarse := hquotient.mono (t := 2 ^ (-22 : Int)) (by norm_num; linarith)
    have hquotientLow := hcoarse.le_abs
    have hquotientHigh := hcoarse.abs_le
    obtain ⟨v, hv, hvNear⟩ := (rounds_div hn hc (hcNear.ne_zero (by norm_num) hratio)).near
      (by norm_num at hquotientLow ⊢; linarith) (by norm_num at hquotientHigh ⊢; linarith)
    exact ⟨v, hv, (hquotient.trans hvNear (by norm_num)).mono (by norm_num; linarith)⟩

theorem mmOfDots_near (dots : Int32) (d : Density) :
    ∃ v, (mmOfDots dots d).toRat? = some v ∧
      Near (11 * 2 ^ (-26 : Int)) v (dots.toInt / d.ratio) := by
  have hword := abs_toInt_le dots
  obtain ⟨n, hn, hnNear⟩ : ∃ n, (Number.ofInt dots.toInt : Single).toRat? = some n ∧
      Near (2 ^ (-24 : Int)) n dots.toInt := by
    by_cases h : dots = 0
    · subst h
      exact ⟨0, by decide +kernel, by simp [Near]⟩
    · have hone := one_le_abs_toInt h
      exact (rounds_ofInt dots.toInt).near (by norm_num; linarith) (by norm_num; linarith)
  obtain ⟨v, hv, hvNear⟩ := mmOfDots_near_of_near hn hnNear (by norm_num) le_rfl d
  exact ⟨v, hv, hvNear.mono (by norm_num)⟩

theorem mmOfDots_near_of_lt {dots : Int32} (h : |dots.toInt| < 2 ^ 24) (d : Density) :
    ∃ v, (mmOfDots dots d).toRat? = some v ∧
      Near (13 * 2 ^ (-27 : Int)) v (dots.toInt / d.ratio) := by
  obtain ⟨v, hv, hvNear⟩ := mmOfDots_near_of_near (s := 0) (toRat?_ofInt h) (by simp [Near]) le_rfl
    (by norm_num) d
  exact ⟨v, hv, by rwa [add_zero] at hvNear⟩

theorem toRat?_mmPerPoint : mmPerPoint.toRat? = some (11837258 / 33554432) := by decide +kernel

theorem abs_dotsOfMm_sub_le_share {mm : Single} {m : Rat} (hmm : mm.toRat? = some m) (d : Density) :
    |((dotsOfMm mm d).toInt : Rat) - clampWord (m * d.ratio)| ≤
      1 / 2 + |m * d.ratio| * (13 * 2 ^ (-27 : Int)) := by
  obtain ⟨c, hc, hcNear⟩ := dotsPerMm_near d
  refine ((rounds_mul hmm hc).abs_toInt32_sub_le_of_near (hcNear.mul_left m)).trans ?_
  gcongr
  norm_num

/-- The same for lengths that are no more dots than words count, where the error is an absolute
one. -/
theorem abs_dotsOfMm_sub_le_of_abs_le {mm : Single} {m b : Rat} (hmm : mm.toRat? = some m)
    (hm : |m| ≤ b) (hb : b ≤ 2 ^ 26) (d : Density) :
    |((dotsOfMm mm d).toInt : Rat) - m * d.ratio| ≤ 1 / 2 + b * 24 * (13 * 2 ^ (-27 : Int)) := by
  obtain ⟨hlow, hhigh⟩ := ratio_bounds d
  have hproduct : |m * d.ratio| ≤ b * 24 := by
    rw [abs_mul, abs_of_pos (by linarith : 0 < d.ratio)]
    have hnonneg := (abs_nonneg m).trans hm
    gcongr
  have hexact := abs_le.mp hproduct
  have herror := abs_dotsOfMm_sub_le_share hmm d
  rw [clampWord_eq_self (by linarith) (by linarith)] at herror
  refine herror.trans ?_
  gcongr

theorem abs_dotsOfMm_sub_le {mm : Single} {m : Rat} (hmm : mm.toRat? = some m) (d : Density) :
    |((dotsOfMm mm d).toInt : Rat) - clampWord (m * d.ratio)| ≤
      1 / 2 + |m * d.ratio| * 2 ^ (-23 : Int) := by
  refine (abs_dotsOfMm_sub_le_share hmm d).trans ?_
  gcongr
  norm_num

theorem toRat?_pixelsPerMm : pixelsPerMm.toRat? = some 10 := by decide +kernel

theorem abs_pixelsOfDots_sub_le (dots : Int32) (d : Density) :
    |((pixelsOfDots dots d).toInt : Rat) - clampWord (10 * dots.toInt / d.ratio)| ≤
      1 / 2 + |10 * dots.toInt / d.ratio| * 2 ^ (-22 : Int) := by
  obtain ⟨v, hv, hvNear⟩ := mmOfDots_near dots d
  have hproduct := hvNear.mul_right 10
  rw [div_mul_eq_mul_div, mul_comm (dots.toInt : Rat)] at hproduct
  refine ((rounds_mul hv toRat?_pixelsPerMm).abs_toInt32_sub_le_of_near hproduct).trans ?_
  gcongr
  norm_num

theorem dotsOfMm_nan (d : Density) : dotsOfMm .nan d = 0 := by
  cases d <;> rfl

/-- On the whole range a conversion is off by half a word and a few roundings of the exact value,
both in the range of a word. -/
theorem conversions_near {mm : Single} {m : Rat} (hmm : mm.toRat? = some m) (dots : Int32)
    (d : Density) :
    |((dotsOfMm mm d).toInt : Rat) - clampWord (m * d.ratio)| ≤
        1 / 2 + |m * d.ratio| * 2 ^ (-23 : Int) ∧
      |((pixelsOfDots dots d).toInt : Rat) - clampWord (10 * dots.toInt / d.ratio)| ≤
        1 / 2 + |10 * dots.toInt / d.ratio| * 2 ^ (-22 : Int) ∧
      dotsOfMm .nan d = 0 :=
  ⟨abs_dotsOfMm_sub_le hmm d, abs_pixelsOfDots_sub_le dots d, dotsOfMm_nan d⟩

/-- The greatest odd length, which is off by more than a dot, and the greatest word. -/
theorem conversions_near_large :
    (.finite false 16777215 0 : Single).toRat? = some 16777215 ∧
      dotsOfMm (.finite false 16777215 0) .dpi300 = 197971136 ∧
      |((dotsOfMm (.finite false 16777215 0) .dpi300).toInt : Rat) -
          clampWord (16777215 * Density.dpi300.ratio)| ≤
        1 / 2 + |16777215 * Density.dpi300.ratio| * 2 ^ (-23 : Int) ∧
      pixelsOfDots 2147483647 .dpi300 = 1819901440 ∧
      |((pixelsOfDots 2147483647 .dpi300).toInt : Rat) -
          clampWord (10 * (2147483647 : Int32).toInt / Density.dpi300.ratio)| ≤
        1 / 2 + |10 * (2147483647 : Int32).toInt / Density.dpi300.ratio| * 2 ^ (-22 : Int) ∧
      dotsOfMm .nan .dpi300 = 0 :=
  have hmm : (.finite false 16777215 0 : Single).toRat? = some 16777215 := by decide +kernel
  have ⟨hdots, hpixels, hnan⟩ := conversions_near hmm 2147483647 .dpi300
  ⟨hmm, by decide +kernel, hdots, by decide +kernel, hpixels, hnan⟩

end Units

end LabelPress

import LabelPress.Proofs.Units.Error

/-! Measures that go to another unit and back. Millimetres come back within a dot, and dots come
back as they were: what a rounded quotient is multiplied by is the number it was divided by, so that
the errors of the density and of the point cancel. -/
namespace LabelPress.Units

open Binary Number

theorem mmOfDots_mul_ratio {dots : Int32} (h : |(dots.toInt : Rat)| ≤ 2400001) (d : Density) :
    ∃ v, (mmOfDots dots d).toRat? = some v ∧ |v * d.ratio - dots.toInt| ≤ 1 / 4 := by
  have hratio : d.ratio ≠ 0 := by linarith [(ratio_bounds d).1]
  have hfits : |dots.toInt| < 2 ^ 24 := by
    have hcast : (|dots.toInt| : Rat) < 2 ^ 24 := h.trans_lt (by norm_num)
    exact_mod_cast hcast
  obtain ⟨v, hv, hvNear⟩ := mmOfDots_near_of_lt hfits d
  have hscaled := hvNear.mul_right d.ratio
  rw [div_mul_cancel₀ _ hratio] at hscaled
  refine ⟨v, hv, ?_⟩
  calc |v * d.ratio - dots.toInt|
      ≤ |(dots.toInt : Rat)| * (13 * 2 ^ (-27 : Int)) := hscaled
    _ ≤ 2400001 * (13 * 2 ^ (-27 : Int)) := by gcongr
    _ ≤ 1 / 4 := by norm_num

/-- Up to a hundred metres either way adds less than a quarter of a dot, and the nearest dot adds a
half. -/
theorem millimetres_round_trip {mm : Single} {m : Rat} (hmm : mm.toRat? = some m)
    (hm : |m| ≤ 100000) (d : Density) :
    ∃ v, (mmOfDots (dotsOfMm mm d) d).toRat? = some v ∧ |v - m| ≤ 1 / d.ratio := by
  obtain ⟨hlow, hhigh⟩ := ratio_bounds d
  have hpos : 0 < d.ratio := by linarith
  have hout := (abs_dotsOfMm_sub_le_of_abs_le hmm hm (by norm_num) d).trans
    (show _ ≤ (3 / 4 : Rat) by norm_num)
  generalize dotsOfMm mm d = dots at hout ⊢
  have hlength : |m * d.ratio| ≤ 100000 * 24 := by
    rw [abs_mul, abs_of_pos hpos]
    gcongr
  have hword : |(dots.toInt : Rat)| ≤ 2400001 := by
    linarith [abs_sub_abs_le_abs_sub (dots.toInt : Rat) (m * d.ratio)]
  obtain ⟨v, hv, hback⟩ := mmOfDots_mul_ratio hword d
  refine ⟨v, hv, ?_⟩
  rw [le_div_iff₀ hpos]
  calc |v - m| * d.ratio
      = |v * d.ratio - m * d.ratio| := by rw [← sub_mul, abs_mul, abs_of_pos hpos]
    _ ≤ |v * d.ratio - dots.toInt| + |dots.toInt - m * d.ratio| := abs_sub_le _ _ _
    _ ≤ 1 := by linarith

theorem millimetres_round_trip_long :
    (.finite false 12799999 (-7) : Single).toRat? = some (12799999 / 128) ∧
      |(12799999 / 128 : Rat)| ≤ 100000 ∧
      dotsOfMm (.finite false 12799999 (-7)) .dpi300 = 1180000 ∧
      ∃ v, (mmOfDots (dotsOfMm (.finite false 12799999 (-7)) .dpi300) .dpi300).toRat? = some v ∧
        |v - 12799999 / 128| ≤ 1 / Density.dpi300.ratio :=
  have hmm : (.finite false 12799999 (-7) : Single).toRat? = some (12799999 / 128) := by
    decide +kernel
  have hlength : |(12799999 / 128 : Rat)| ≤ 100000 := by decide +kernel
  ⟨hmm, hlength, by decide +kernel, millimetres_round_trip hmm hlength .dpi300⟩

/-- Lengths that are a few roundings off those of some dots are nearest to these dots. -/
theorem dotsOfMm_eq_of_near {dots : Int32} (hne : dots ≠ 0) (hdots : |dots.toInt| ≤ 2 ^ 20)
    {d : Density} {c : Rat} (hc : d.dotsPerMm.toRat? = some c) (hcne : c ≠ 0) {mm : Single}
    {u : Rat} (hmm : mm.toRat? = some u)
    (hnear : Near (7 * 2 ^ (-25 : Int)) u (dots.toInt / c)) : dotsOfMm mm d = dots := by
  have hone := one_le_abs_toInt hne
  have hmax : |(dots.toInt : Rat)| ≤ 2 ^ 20 := by exact_mod_cast hdots
  obtain ⟨w, hw, hwNear⟩ := mul_near_of_near_div hmm hc hcne hnear (by norm_num)
    (by norm_num; linarith) (by norm_num; linarith)
  apply toInt32_eq hw
  calc |w - dots.toInt| ≤ |(dots.toInt : Rat)| * (5 * 2 ^ (-24 : Int)) :=
        hwNear.mono (by norm_num)
    _ ≤ 2 ^ 20 * (5 * 2 ^ (-24 : Int)) := by gcongr
    _ < 1 / 2 := by norm_num

section

variable {dots : Int32} (hne : dots ≠ 0) (hdots : |dots.toInt| ≤ 2 ^ 20) {d : Density} {c : Rat}
  (hlow : 5 ≤ c) (hhigh : c ≤ 25) (hc : d.dotsPerMm.toRat? = some c)

include hne hdots hlow hhigh hc

theorem mmOfDots_near_quotient :
    ∃ v, (mmOfDots dots d).toRat? = some v ∧ Near (2 ^ (-24 : Int)) v (dots.toInt / c) := by
  have hmax : |(dots.toInt : Rat)| ≤ 2 ^ 20 := by exact_mod_cast hdots
  obtain ⟨hleast, hgreatest⟩ := abs_div_bounds hne hmax hlow hhigh
  have hexact : (Number.ofInt dots.toInt : Single).toRat? = some (dots.toInt : Rat) :=
    toRat?_ofInt (hdots.trans_lt (by norm_num))
  exact (rounds_div hexact hc (by linarith)).near (by norm_num; linarith) (by norm_num; linarith)

/-- Points are made of millimetres by one rounding, and millimetres of points by another. -/
theorem pointsOfDots_mul_near :
    ∃ t, (pointsOfDots dots d * mmPerPoint).toRat? = some t ∧
      Near (7 * 2 ^ (-25 : Int)) t (dots.toInt / c) := by
  have hmax : |(dots.toInt : Rat)| ≤ 2 ^ 20 := by exact_mod_cast hdots
  obtain ⟨hleast, hgreatest⟩ := abs_div_bounds hne hmax hlow hhigh
  obtain ⟨v, hv, hvNear⟩ := mmOfDots_near_quotient hne hdots hlow hhigh hc
  have hge := hvNear.le_abs
  have hle := hvNear.abs_le
  norm_num at hge hle
  obtain ⟨u, hu, huNear⟩ := (rounds_div hv toRat?_mmPerPoint (by norm_num)).near
    (by rw [abs_div]; norm_num; linarith) (by rw [abs_div]; norm_num; linarith)
  obtain ⟨t, ht, htNear⟩ := mul_near_of_near_div hu toRat?_mmPerPoint (by norm_num) huNear
    (by norm_num) (by norm_num; linarith) (by norm_num; linarith)
  exact ⟨t, ht, (hvNear.trans htNear (by norm_num)).mono (by norm_num)⟩

end

/-- Up to `2 ^ 20` dots the four roundings of a trip through points add less than a third of a
dot. -/
theorem dots_round_trip {dots : Int32} (hdots : |dots.toInt| ≤ 2 ^ 20) (d : Density) :
    dotsOfMm (mmOfDots dots d) d = dots ∧ dotsOfPoints (pointsOfDots dots d) d = dots := by
  by_cases hne : dots = 0
  · subst hne
    cases d <;> decide +kernel
  · obtain ⟨c, hc, hlow, hhigh⟩ := dotsPerMm_bounds d
    obtain ⟨v, hv, hvNear⟩ := mmOfDots_near_quotient hne hdots hlow hhigh hc
    obtain ⟨t, ht, htNear⟩ := pointsOfDots_mul_near hne hdots hlow hhigh hc
    have hcne : c ≠ 0 := by linarith
    exact ⟨dotsOfMm_eq_of_near hne hdots hc hcne hv (hvNear.mono (by norm_num)),
      dotsOfMm_eq_of_near hne hdots hc hcne ht htNear⟩

theorem dots_round_trip_odd :
    |(-1048575 : Int32).toInt| ≤ 2 ^ 20 ∧
      dotsOfMm (mmOfDots (-1048575) .dpi300) .dpi300 = -1048575 ∧
      dotsOfPoints (pointsOfDots (-1048575) .dpi300) .dpi300 = -1048575 :=
  have hdots : |(-1048575 : Int32).toInt| ≤ 2 ^ 20 := by decide
  ⟨hdots, dots_round_trip hdots .dpi300⟩

end LabelPress.Units

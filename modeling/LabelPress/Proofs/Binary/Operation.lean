import LabelPress.Proofs.Binary.Rounding
import Mathlib.Algebra.Order.Group.MinMax

/-! Operations on numbers. Each gives its exact value rounded once, which is off by a share of the
value or by half of the least number, or infinite where the value is beyond the greatest number.
Taking the nearest word adds a half. -/
namespace LabelPress.Binary

namespace Number

variable {F : Format}

def signed (negative : Bool) (q : Rat) : Rat := if negative then -q else q

theorem abs_signed (negative : Bool) {q : Rat} (hq : 0 ≤ q) : |signed negative q| = q := by
  cases negative with
  | false => exact abs_of_nonneg hq
  | true => exact (abs_neg q).trans (abs_of_nonneg hq)

theorem signed_mul (a b : Bool) (p q : Rat) :
    signed a p * signed b q = signed (a != b) (p * q) := by
  cases a <;> cases b <;> simp [signed]

theorem signed_div (a b : Bool) (p q : Rat) :
    signed a p / signed b q = signed (a != b) (p / q) := by
  cases a <;> cases b <;> simp [signed, neg_div, div_neg]

theorem signed_sub (negative : Bool) (p q : Rat) :
    |signed negative p - signed negative q| = |p - q| := by
  cases negative with
  | false => rfl
  | true => rw [signed, signed, if_pos rfl, if_pos rfl, neg_sub_neg, abs_sub_comm]

/-- The numbers that are a value rounded once. -/
inductive Rounds : Rat → Number F → Prop
  | intro (negative : Bool) {q : Rat} : 0 ≤ q → Rounds (signed negative q) (round negative q)

theorem toRat?_finite (negative : Bool) (m : Nat) (e : Int) :
    (finite negative m e : Number F).toRat? = some (signed negative (magnitude m e)) := rfl

theorem magnitude_nonneg (m : Nat) (e : Int) : 0 ≤ magnitude m e := by
  unfold magnitude
  positivity

theorem exists_finite {x : Number F} {q : Rat} (h : x.toRat? = some q) :
    ∃ negative m e, x = finite negative m e ∧ q = signed negative (magnitude m e) := by
  cases x with
  | nan => contradiction
  | infinite negative => contradiction
  | finite negative m e =>
    rw [toRat?_finite] at h
    exact ⟨negative, m, e, rfl, (Option.some.inj h).symm⟩

theorem rounds_mul {x y : Number F} {p q : Rat} (hx : x.toRat? = some p) (hy : y.toRat? = some q) :
    Rounds (p * q) (x * y) := by
  obtain ⟨a, m, e, rfl, rfl⟩ := exists_finite hx
  obtain ⟨b, n, f, rfl, rfl⟩ := exists_finite hy
  rw [signed_mul]
  exact .intro _ (mul_nonneg (magnitude_nonneg m e) (magnitude_nonneg n f))

theorem rounds_div {x y : Number F} {p q : Rat} (hx : x.toRat? = some p) (hy : y.toRat? = some q)
    (hq : q ≠ 0) : Rounds (p / q) (x / y) := by
  obtain ⟨a, m, e, rfl, rfl⟩ := exists_finite hx
  obtain ⟨b, n, f, rfl, rfl⟩ := exists_finite hy
  have hn : n ≠ 0 := by
    rintro rfl
    exact hq (by cases b <;> simp [signed, magnitude])
  have hdiv : (finite a m e / finite b n f : Number F) =
      round (a != b) (magnitude m e / magnitude n f) := if_neg hn
  rw [signed_div, hdiv]
  exact .intro _ (div_nonneg (magnitude_nonneg m e) (magnitude_nonneg n f))

theorem rounds_ofInt (n : Int) : Rounds n (ofInt n : Number F) := by
  have hsigned : (n : Rat) = signed (decide (n < 0)) n.natAbs := by
    unfold signed
    rw [Nat.cast_natAbs]
    split_ifs with h
    · rw [abs_of_neg (by simpa using h)]
      simp
    · rw [abs_of_nonneg (by simpa using h)]
  rw [hsigned]
  exact .intro _ (Nat.cast_nonneg _)

theorem Rounds.toRat?_eq (hF : F.Sound) {q : Rat} {x : Number F} (h : Rounds q x)
    (hnearest : F.nearest |q| = |q|) (hlimit : |q| < F.limit) : x.toRat? = some q := by
  obtain @⟨negative, q, hq⟩ := h
  rw [abs_signed negative hq] at hnearest hlimit
  rcases round_nearest hF negative hq with ⟨m, e, hround, hvalue, -⟩ | ⟨-, hbeyond⟩
  · rw [hround, toRat?_finite, hvalue, hnearest]
  · rw [hnearest] at hbeyond
    exact absurd hlimit (not_lt.mpr hbeyond)

theorem toRat?_ofInt {n : Int} (h : |n| < 2 ^ 24) : (ofInt n : Single).toRat? = some (n : Rat) := by
  have habs : |(n : Rat)| = n.natAbs := by
    rw [Nat.cast_natAbs, Int.cast_abs]
  have hfits : n.natAbs < 2 ^ Format.single.precision := by
    rw [Int.abs_eq_natAbs] at h
    exact_mod_cast h
  apply (rounds_ofInt n).toRat?_eq Format.sound_single
  · rw [habs]
    rcases Nat.eq_zero_or_pos n.natAbs with hzero | hpos
    · rw [hzero]
      exact Format.nearest_zero
    · exact Format.nearest_natCast hpos (by decide) hfits
  · have hlimit : ((2 ^ Format.single.precision : Nat) : Rat) < Format.single.limit := by
      norm_num [Format.single, Format.limit]
    rw [habs]
    exact (Nat.cast_lt.mpr hfits).trans hlimit

theorem Rounds.cases (hF : F.Sound) {q : Rat} {x : Number F} (h : Rounds q x) :
    (∃ v, x.toRat? = some v ∧
        |v - q| ≤ max (|q| * 2 ^ (-(F.precision : Int))) (2 ^ (F.minExponent - 1))) ∨
      (2 * F.leastNormal - 1 / 2) * 2 ^ F.maxExponent ≤ |q| ∧ x = .infinite (decide (q < 0)) := by
  have hleast : (0 : Rat) < 2 ^ (F.minExponent - 1) := by positivity
  obtain @⟨negative, q, hq⟩ := h
  rw [abs_signed negative hq]
  rcases hq.eq_or_lt with rfl | hpos
  · refine .inl ⟨signed negative 0, ?_, by simp [hleast.le]⟩
    simp [round, zero, toRat?_finite, magnitude]
  · rcases round_cases hF negative hpos with ⟨m, e, hround, herror⟩ | ⟨hround, hbeyond⟩
    · refine .inl ⟨signed negative (magnitude m e), ?_, ?_⟩
      · rw [hround, toRat?_finite]
      · rw [signed_sub]
        exact herror.trans (Format.two_zpow_lastPlace_le_max hpos)
    · refine .inr ⟨hbeyond, ?_⟩
      rw [hround]
      cases negative <;> simp [signed, hpos, hpos.le]

theorem Rounds.cases_single {q : Rat} {x : Single} (h : Rounds q x) :
    (∃ v, x.toRat? = some v ∧ |v - q| ≤ max (|q| * 2 ^ (-24 : Int)) (2 ^ (-150 : Int))) ∨
      2 ^ 127 < |q| ∧ x = .infinite (decide (q < 0)) := by
  rcases h.cases Format.sound_single with hfinite | ⟨hbeyond, hx⟩
  · exact .inl hfinite
  · refine .inr ⟨lt_of_lt_of_le ?_ hbeyond, hx⟩
    rw [Format.sound_single.leastNormal_eq]
    norm_num [Format.single]

/-- One value is off from another by a share of the other at most. Errors of operations that follow
one another are shares of the exact value. -/
def Near (share v q : Rat) : Prop := |v - q| ≤ |q| * share

namespace Near

variable {s t u v q : Rat}

theorem mono (h : Near s v q) (hle : s ≤ t) : Near t v q :=
  h.trans (mul_le_mul_of_nonneg_left hle (abs_nonneg q))

theorem abs_le (h : Near s v q) : |v| ≤ |q| * (1 + s) := by
  unfold Near at h
  linarith [abs_sub_abs_le_abs_sub v q]

theorem le_abs (h : Near s v q) : |q| * (1 - s) ≤ |v| := by
  unfold Near at h
  rw [abs_sub_comm] at h
  linarith [abs_sub_abs_le_abs_sub q v]

theorem trans (hs : Near s v q) (ht : Near t u v) (hnonneg : 0 ≤ t) :
    Near (s + t + s * t) u q := by
  have hscaled := mul_le_mul_of_nonneg_right hs.abs_le hnonneg
  unfold Near at hs ht ⊢
  linarith [abs_sub_le u v q]

theorem mul_left (h : Near s v q) (a : Rat) : Near s (a * v) (a * q) := by
  unfold Near at h ⊢
  rw [← mul_sub, abs_mul, abs_mul, mul_assoc]
  exact mul_le_mul_of_nonneg_left h (abs_nonneg a)

theorem mul_right (h : Near s v q) (a : Rat) : Near s (v * a) (q * a) := by
  rw [mul_comm v, mul_comm q]
  exact h.mul_left a

theorem ne_zero (h : Near s v q) (hs : s < 1) (hq : q ≠ 0) : v ≠ 0 := by
  have hpos : 0 < |q| * (1 - s) := mul_pos (abs_pos.mpr hq) (by linarith)
  exact abs_pos.mp (lt_of_lt_of_le hpos h.le_abs)

theorem pos (h : Near s v q) (hs : s < 1) (hq : 0 < q) : 0 < v := by
  have hbelow : q - v ≤ |q| * s := (le_abs_self (q - v)).trans (by rwa [abs_sub_comm])
  rw [abs_of_pos hq] at hbelow
  linarith [mul_pos hq (sub_pos.mpr hs)]

theorem inv (h : Near s v q) (hs : s < 1) (hq : q ≠ 0) : Near (s / (1 - s)) v⁻¹ q⁻¹ := by
  have hrest : 0 < 1 - s := by linarith
  have hpos : 0 < |q| := abs_pos.mpr hq
  have hv := h.ne_zero hs hq
  have hsub : v⁻¹ - q⁻¹ = (q - v) * (v⁻¹ * q⁻¹) := by field_simp
  have hinv : |v|⁻¹ ≤ (|q| * (1 - s))⁻¹ := inv_anti₀ (mul_pos hpos hrest) h.le_abs
  unfold Near at h ⊢
  have hshare : 0 ≤ |q| * s := (abs_nonneg _).trans h
  rw [hsub, abs_mul, abs_mul, abs_inv, abs_inv, abs_sub_comm]
  calc |v - q| * (|v|⁻¹ * |q|⁻¹)
      ≤ |q| * s * ((|q| * (1 - s))⁻¹ * |q|⁻¹) := by gcongr
    _ = |q|⁻¹ * (s / (1 - s)) := by field_simp

end Near

theorem Rounds.near {q : Rat} {x : Single} (h : Rounds q x) (hlow : 2 ^ (-126 : Int) ≤ |q|)
    (hhigh : |q| ≤ 2 ^ 127) : ∃ v, x.toRat? = some v ∧ Near (2 ^ (-24 : Int)) v q := by
  rcases h.cases_single with ⟨v, hv, herror⟩ | ⟨hbeyond, -⟩
  · refine ⟨v, hv, herror.trans (max_le le_rfl ?_)⟩
    calc (2 : Rat) ^ (-150 : Int) = 2 ^ (-126 : Int) * 2 ^ (-24 : Int) := by norm_num
      _ ≤ |q| * 2 ^ (-24 : Int) := by gcongr
  · exact absurd hhigh (not_le.mpr hbeyond)

theorem mul_near_of_near_div {x c : Single} {u p r s : Rat} (hx : x.toRat? = some u)
    (hc : c.toRat? = some r) (hr : r ≠ 0) (hnear : Near s u (p / r)) (hs : s ≤ 1 / 2)
    (hlow : 2 ^ (-125 : Int) ≤ |p|) (hhigh : |p| ≤ 2 ^ 126) :
    ∃ w, (x * c).toRat? = some w ∧ Near (s + 2 ^ (-24 : Int) + s * 2 ^ (-24 : Int)) w p := by
  have hproduct := hnear.mul_right r
  rw [div_mul_cancel₀ _ hr] at hproduct
  have hle := (hproduct.mono hs).abs_le
  have hge := (hproduct.mono hs).le_abs
  obtain ⟨w, hw, hwNear⟩ := (rounds_mul hx hc).near (by norm_num at hge hlow ⊢; linarith)
    (by norm_num at hle hhigh ⊢; linarith)
  exact ⟨w, hw, hproduct.trans hwNear (by norm_num)⟩

def clampWord (q : Rat) : Rat := max (-2147483648) (min q 2147483647)

theorem abs_clampWord_sub_le (p q : Rat) : |clampWord p - clampWord q| ≤ |p - q| := by
  have hmin := abs_min_sub_min_le_max p 2147483647 q 2147483647
  have hmax := abs_max_sub_max_le_max (-2147483648) (min p 2147483647) (-2147483648)
    (min q 2147483647)
  rw [sub_self, abs_zero] at hmin hmax
  exact hmax.trans (max_le (abs_nonneg _) (hmin.trans (max_le le_rfl (abs_nonneg _))))

theorem clampWord_eq_self {q : Rat} (hlow : -2147483648 ≤ q) (hhigh : q ≤ 2147483647) :
    clampWord q = q := by
  rw [clampWord, min_eq_left hhigh, max_eq_right hlow]

theorem abs_roundAway_sub_le (q : Rat) : |(roundAway q : Rat) - q| ≤ 1 / 2 := by
  have hfloor (p : Rat) : p.floor = ⌊p⌋ := rfl
  unfold roundAway
  rw [hfloor, hfloor, abs_le]
  split_ifs
  · have hle := Int.floor_le (1 / 2 - q)
    have hlt := Int.lt_floor_add_one (1 / 2 - q)
    push_cast
    constructor <;> linarith
  · have hle := Int.floor_le (q + 1 / 2)
    have hlt := Int.lt_floor_add_one (q + 1 / 2)
    constructor <;> linarith

theorem roundAway_mono {p q : Rat} (h : p ≤ q) : roundAway p ≤ roundAway q :=
  mono_of_abs_sub_le abs_roundAway_sub_le h

theorem roundAway_eq {q : Rat} {n : Int} (h : |q - n| < 1 / 2) : roundAway q = n := by
  have herror := abs_roundAway_sub_le q
  apply eq_of_abs_cast_sub_lt
  linarith [abs_sub_le (roundAway q : Rat) q n]

theorem toInt_toInt32 {x : Number F} {v : Rat} (h : x.toRat? = some v) :
    (x.toInt32.toInt : Rat) = clampWord (roundAway v) := by
  obtain ⟨negative, m, e, rfl, rfl⟩ := exists_finite h
  have hword : (finite negative m e : Number F).toInt32 =
      clampInt32 (roundAway (signed negative (magnitude m e))) := rfl
  rw [hword, toInt_clampInt32]
  push_cast
  rfl

theorem clampWord_toInt (word : Int32) : clampWord word.toInt = word.toInt := by
  have hlow := word.le_toInt
  have hhigh := word.toInt_lt
  apply clampWord_eq_self <;> norm_cast
  omega

theorem toInt32_eq {x : Number F} {v : Rat} (h : x.toRat? = some v) {word : Int32}
    (hnear : |v - word.toInt| < 1 / 2) : x.toInt32 = word := by
  have hword := toInt_toInt32 h
  rw [roundAway_eq hnear, clampWord_toInt, Int.cast_inj] at hword
  exact Int32.toInt_inj.mp hword

theorem toInt_toInt32_infinite {q : Rat} (h : 2147483648 ≤ |q|) :
    (((.infinite (decide (q < 0)) : Number F).toInt32.toInt : Int) : Rat) = clampWord q := by
  unfold clampWord
  rcases le_abs.mp h with hhigh | hlow
  · have hneg : ¬q < 0 := by linarith
    rw [decide_eq_false hneg, min_eq_right (by linarith)]
    rfl
  · have hneg : q < 0 := by linarith
    rw [decide_eq_true hneg, min_eq_left (by linarith), max_eq_left (by linarith)]
    rfl

/-- The word nearest to a value rounded once is off by half and by the share of the rounding. A
value that is too small for a share is nearest to zero. -/
theorem Rounds.abs_toInt32_sub_le {q : Rat} {x : Single} (h : Rounds q x) :
    |(x.toInt32.toInt : Rat) - clampWord q| ≤ 1 / 2 + |q| * 2 ^ (-24 : Int) := by
  have hshare : 0 ≤ |q| * (2 : Rat) ^ (-24 : Int) := by positivity
  rcases h.cases_single with ⟨v, hv, herror⟩ | ⟨hbeyond, rfl⟩
  · rw [toInt_toInt32 hv]
    by_cases hsmall : |q| < 1 / 4
    · have hnear : |v - q| < 1 / 4 :=
        lt_of_le_of_lt herror (max_lt (by norm_num; linarith) (by norm_num))
      have hzero : roundAway v = 0 := by
        apply roundAway_eq
        rw [Int.cast_zero, sub_zero]
        linarith [abs_sub_abs_le_abs_sub v q]
      have hq := abs_lt.mp hsmall
      rw [hzero, clampWord_eq_self (by norm_num) (by norm_num),
        clampWord_eq_self (by linarith) (by linarith), Int.cast_zero, zero_sub, abs_neg]
      linarith
    · have hleast : (2 : Rat) ^ (-150 : Int) ≤ |q| * 2 ^ (-24 : Int) := by
        norm_num
        linarith
      rw [max_eq_left hleast] at herror
      calc |clampWord (roundAway v) - clampWord q|
          ≤ |(roundAway v : Rat) - q| := abs_clampWord_sub_le _ _
        _ ≤ |(roundAway v : Rat) - v| + |v - q| := abs_sub_le _ _ _
        _ ≤ 1 / 2 + |q| * 2 ^ (-24 : Int) := add_le_add (abs_roundAway_sub_le v) herror
  · rw [toInt_toInt32_infinite (by norm_num at hbeyond ⊢; linarith), sub_self, abs_zero]
    linarith

theorem Rounds.abs_toInt32_sub_le_of_near {s p q : Rat} {x : Single} (h : Rounds p x)
    (hnear : Near s p q) :
    |(x.toInt32.toInt : Rat) - clampWord q| ≤
      1 / 2 + |q| * (s + (1 + s) * 2 ^ (-24 : Int)) := by
  have habs := hnear.abs_le
  calc |(x.toInt32.toInt : Rat) - clampWord q|
      ≤ |(x.toInt32.toInt : Rat) - clampWord p| + |clampWord p - clampWord q| := abs_sub_le _ _ _
    _ ≤ 1 / 2 + |p| * 2 ^ (-24 : Int) + |q| * s :=
        add_le_add h.abs_toInt32_sub_le ((abs_clampWord_sub_le p q).trans hnear)
    _ ≤ 1 / 2 + |q| * (1 + s) * 2 ^ (-24 : Int) + |q| * s := by gcongr
    _ = 1 / 2 + |q| * (s + (1 + s) * 2 ^ (-24 : Int)) := by ring

end Number

end LabelPress.Binary

import LabelPress.Binary.Number
import Mathlib.Algebra.Order.Field.Power
import Mathlib.Algebra.Order.Field.Rat
import Mathlib.Data.Rat.Floor
import Mathlib.Tactic.FieldSimp
import Mathlib.Tactic.Linarith

/-! Rounding a magnitude. It becomes the nearest multiple of its last place, or infinite where that
is beyond all numbers. So a number is off by half a unit of its last place at most, it is infinite
only if the magnitude is beyond the greatest number by half a unit, and a greater magnitude is never
rounded to less. -/
namespace LabelPress.Binary

theorem two_zpow_log2_le {n : Nat} (h : n ≠ 0) : (2 : Rat) ^ (n.log2 : Int) ≤ n := by
  have hle := Nat.log2_self_le h
  rw [zpow_natCast]
  exact_mod_cast hle

theorem lt_two_zpow_log2 (n : Nat) : (n : Rat) < 2 ^ ((n.log2 : Int) + 1) := by
  have hlt := Nat.lt_log2_self (n := n)
  rw [← Nat.cast_succ, zpow_natCast]
  exact_mod_cast hlt

theorem floorLog2_guess {q : Rat} (hq : 0 < q) :
    (2 : Rat) ^ ((q.num.natAbs.log2 : Int) - q.den.log2 - 1) < q ∧
      q < 2 ^ ((q.num.natAbs.log2 : Int) - q.den.log2 + 1) := by
  have hnum : q.num.natAbs ≠ 0 := by
    have hpos := Rat.num_pos.mpr hq
    omega
  have hden : 0 < (q.den : Rat) := Nat.cast_pos.mpr q.pos
  have hquot : (q.num.natAbs : Rat) = q * q.den := by
    have hpos := Rat.num_pos.mpr hq
    rw [Nat.cast_natAbs, abs_of_pos hpos, Rat.mul_den_eq_num]
  have hnumLow := two_zpow_log2_le hnum
  have hnumHigh := lt_two_zpow_log2 q.num.natAbs
  have hdenLow := two_zpow_log2_le q.den_nz
  have hdenHigh := lt_two_zpow_log2 q.den
  rw [hquot] at hnumLow hnumHigh
  constructor
  · rw [← mul_lt_mul_iff_left₀ hden]
    calc (2 : Rat) ^ ((q.num.natAbs.log2 : Int) - q.den.log2 - 1) * q.den
        < 2 ^ ((q.num.natAbs.log2 : Int) - q.den.log2 - 1) * 2 ^ ((q.den.log2 : Int) + 1) := by
          gcongr
      _ = 2 ^ (q.num.natAbs.log2 : Int) := by
          rw [← zpow_add₀ (by decide)]
          congr 1
          omega
      _ ≤ q * q.den := hnumLow
  · rw [← mul_lt_mul_iff_left₀ hden]
    calc q * q.den
        < 2 ^ ((q.num.natAbs.log2 : Int) + 1) := hnumHigh
      _ = 2 ^ ((q.num.natAbs.log2 : Int) - q.den.log2 + 1) * 2 ^ (q.den.log2 : Int) := by
          rw [← zpow_add₀ (by decide)]
          congr 1
          omega
      _ ≤ 2 ^ ((q.num.natAbs.log2 : Int) - q.den.log2 + 1) * q.den := by
          gcongr

theorem two_zpow_floorLog2_le {q : Rat} (hq : 0 < q) : (2 : Rat) ^ floorLog2 q ≤ q := by
  have hguess := (floorLog2_guess hq).1
  unfold floorLog2
  dsimp only
  split_ifs with h
  · exact h
  · exact hguess.le

theorem lt_two_zpow_floorLog2 {q : Rat} (hq : 0 < q) : q < 2 ^ (floorLog2 q + 1) := by
  have hguess := (floorLog2_guess hq).2
  unfold floorLog2
  dsimp only
  split_ifs with h
  · exact hguess
  · rw [Int.sub_add_cancel]
    exact not_le.mp h

theorem floorLog2_mono {p q : Rat} (hp : 0 < p) (h : p ≤ q) : floorLog2 p ≤ floorLog2 q := by
  have hlt : (2 : Rat) ^ floorLog2 p < 2 ^ (floorLog2 q + 1) :=
    (two_zpow_floorLog2_le hp).trans_lt (h.trans_lt (lt_two_zpow_floorLog2 (hp.trans_le h)))
  have hexponents := (zpow_lt_zpow_iff_right₀ (by norm_num)).mp hlt
  omega

theorem eq_of_abs_cast_sub_lt {m n : Int} (h : |(m : Rat) - n| < 1) : m = n := by
  have hint : |m - n| < 1 := by exact_mod_cast h
  exact sub_eq_zero.mp (Int.abs_lt_one_iff.mp hint)

theorem mono_of_abs_sub_le {f : Rat → Int} (hf : ∀ q, |(f q : Rat) - q| ≤ 1 / 2) {p q : Rat}
    (h : p ≤ q) : f p ≤ f q := by
  by_contra hnot
  have hstep : (f q : Rat) + 1 ≤ f p := by exact_mod_cast not_le.mp hnot
  have hp := (abs_le.mp (hf p)).2
  have hq := (abs_le.mp (hf q)).1
  obtain rfl : p = q := by linarith
  exact hnot le_rfl

theorem abs_roundEven_sub_le (q : Rat) : |(roundEven q : Rat) - q| ≤ 1 / 2 := by
  have hle := Int.floor_le q
  have hlt := Int.lt_floor_add_one q
  have hfloor : q.floor = ⌊q⌋ := rfl
  unfold roundEven
  rw [hfloor, abs_le]
  dsimp only
  split_ifs <;> push_cast <;> constructor <;> linarith

theorem roundEven_nonneg {q : Rat} (hq : 0 ≤ q) : 0 ≤ roundEven q := by
  have herror := (abs_le.mp (abs_roundEven_sub_le q)).1
  have hhalf : (-1 : Rat) < roundEven q := by linarith
  have hint : -1 < roundEven q := by exact_mod_cast hhalf
  omega

theorem roundEven_mono {p q : Rat} (h : p ≤ q) : roundEven p ≤ roundEven q :=
  mono_of_abs_sub_le abs_roundEven_sub_le h

theorem roundEven_intCast (n : Int) : roundEven n = n :=
  eq_of_abs_cast_sub_lt (lt_of_le_of_lt (abs_roundEven_sub_le n) (by norm_num))

theorem le_roundEven {n : Int} {q : Rat} (h : n ≤ q) : n ≤ roundEven q := by
  rw [← roundEven_intCast n]
  exact roundEven_mono h

theorem roundEven_le {n : Int} {q : Rat} (h : q ≤ n) : roundEven q ≤ n := by
  rw [← roundEven_intCast n]
  exact roundEven_mono h

structure Format.Sound (F : Format) : Prop where
  precision_pos : 0 < F.precision
  exponents_le : F.minExponent ≤ F.maxExponent

namespace Format

theorem sound_single : single.Sound := ⟨by decide, by decide⟩

theorem sound_double : double.Sound := ⟨by decide, by decide⟩

variable {F : Format}

theorem Sound.leastNormal_eq (h : F.Sound) :
    (F.leastNormal : Rat) = 2 ^ ((F.precision : Int) - 1) := by
  have hprecision := h.precision_pos
  unfold leastNormal
  rw [Nat.one_shiftLeft, ← Nat.cast_pred hprecision, zpow_natCast]
  norm_num

theorem two_zpow_lastPlace_le_max {q : Rat} (hq : 0 < q) :
    (2 : Rat) ^ (F.lastPlace q - 1) ≤
      max (q * 2 ^ (-(F.precision : Int))) (2 ^ (F.minExponent - 1)) := by
  have hlow := two_zpow_floorLog2_le hq
  unfold lastPlace
  rcases max_choice F.minExponent (floorLog2 q - (F.precision - 1)) with h | h
  · rw [h]
    exact le_max_right _ _
  · have hplace : (2 : Rat) ^ (floorLog2 q - ((F.precision : Int) - 1) - 1) =
        2 ^ floorLog2 q * 2 ^ (-(F.precision : Int)) := by
      rw [← zpow_add₀ (by decide)]
      congr 1
      omega
    rw [h, hplace]
    refine le_max_of_le_left ?_
    gcongr

theorem two_zpow_lastPlace_le {q : Rat} (h : (2 : Rat) ^ (F.minExponent + F.precision - 1) ≤ q) :
    (2 : Rat) ^ (F.lastPlace q - 1) ≤ q * 2 ^ (-(F.precision : Int)) := by
  have hq : 0 < q := lt_of_lt_of_le (zpow_pos (by decide) _) h
  refine (two_zpow_lastPlace_le_max hq).trans (max_le le_rfl ?_)
  calc (2 : Rat) ^ (F.minExponent - 1)
      = 2 ^ (F.minExponent + F.precision - 1) * 2 ^ (-(F.precision : Int)) := by
        rw [← zpow_add₀ (by decide)]
        congr 1
        omega
    _ ≤ q * 2 ^ (-(F.precision : Int)) := by gcongr

theorem lastPlace_mono {p q : Rat} (hp : 0 < p) (h : p ≤ q) : F.lastPlace p ≤ F.lastPlace q := by
  have hlog := floorLog2_mono hp h
  unfold lastPlace
  omega

theorem lt_two_zpow_lastPlace {q : Rat} (hq : 0 < q) :
    q < 2 ^ (F.lastPlace q + F.precision) := by
  refine (lt_two_zpow_floorLog2 hq).trans_le (zpow_le_zpow_right₀ (by norm_num) ?_)
  unfold lastPlace
  omega

theorem two_zpow_lastPlace_le_self {q : Rat} (hq : 0 < q) (h : F.minExponent < F.lastPlace q) :
    2 ^ (F.lastPlace q + F.precision - 1) ≤ q := by
  refine le_trans (zpow_le_zpow_right₀ (by norm_num) ?_) (two_zpow_floorLog2_le hq)
  unfold lastPlace at h ⊢
  omega

/-- What a magnitude is rounded to where no exponent is too great. -/
def nearest (F : Format) (q : Rat) : Rat :=
  Number.magnitude (roundEven (q / 2 ^ F.lastPlace q)).toNat (F.lastPlace q)

/-- The least power of two that no number reaches. -/
def limit (F : Format) : Rat := 2 ^ (F.maxExponent + F.precision)

theorem nearest_eq {q : Rat} (hq : 0 ≤ q) :
    F.nearest q = roundEven (q / 2 ^ F.lastPlace q) * 2 ^ F.lastPlace q := by
  have hkept : ((roundEven (q / 2 ^ F.lastPlace q)).toNat : Int) =
      roundEven (q / 2 ^ F.lastPlace q) :=
    Int.toNat_of_nonneg (roundEven_nonneg (by positivity))
  unfold nearest Number.magnitude
  rw [← Int.cast_natCast, hkept]

theorem nearest_zero : F.nearest 0 = 0 := by
  have hzero := roundEven_intCast 0
  rw [Int.cast_zero] at hzero
  rw [nearest_eq le_rfl, zero_div, hzero, Int.cast_zero, zero_mul]

theorem nearest_nonneg (F : Format) (q : Rat) : 0 ≤ F.nearest q := by
  unfold nearest Number.magnitude
  positivity

theorem abs_nearest_sub_le {q : Rat} (hq : 0 ≤ q) :
    |F.nearest q - q| ≤ 2 ^ (F.lastPlace q - 1) := by
  have hpow : (0 : Rat) < 2 ^ F.lastPlace q := by positivity
  have herror := abs_roundEven_sub_le (q / 2 ^ F.lastPlace q)
  have hscaled : F.nearest q - q =
      (roundEven (q / 2 ^ F.lastPlace q) - q / 2 ^ F.lastPlace q) * 2 ^ F.lastPlace q := by
    rw [nearest_eq hq, sub_mul, div_mul_cancel₀ q hpow.ne']
  rw [hscaled, abs_mul, abs_of_pos hpow, zpow_sub_one₀ (by decide)]
  linarith [mul_le_mul_of_nonneg_right herror hpow.le]

theorem mul_le_nearest {q : Rat} (hq : 0 ≤ q) {n : Int} (h : n * 2 ^ F.lastPlace q ≤ q) :
    n * 2 ^ F.lastPlace q ≤ F.nearest q := by
  have hpow : (0 : Rat) < 2 ^ F.lastPlace q := by positivity
  have hkept : (n : Rat) ≤ roundEven (q / 2 ^ F.lastPlace q) := by
    exact_mod_cast le_roundEven ((le_div_iff₀ hpow).mpr h)
  rw [nearest_eq hq]
  gcongr

theorem nearest_le_mul {q : Rat} (hq : 0 ≤ q) {n : Int} (h : q ≤ n * 2 ^ F.lastPlace q) :
    F.nearest q ≤ n * 2 ^ F.lastPlace q := by
  have hpow : (0 : Rat) < 2 ^ F.lastPlace q := by positivity
  have hkept : (roundEven (q / 2 ^ F.lastPlace q) : Rat) ≤ n := by
    exact_mod_cast roundEven_le ((div_le_iff₀ hpow).mpr h)
  rw [nearest_eq hq]
  gcongr

theorem two_zpow_add (place : Int) (n : Nat) :
    (2 : Rat) ^ (place + n) = ((2 ^ n : Int) : Rat) * 2 ^ place := by
  rw [zpow_add₀ (by norm_num), zpow_natCast, mul_comm]
  push_cast
  rfl

theorem nearest_le {q : Rat} (hq : 0 < q) : F.nearest q ≤ 2 ^ (F.lastPlace q + F.precision) := by
  have hlt := lt_two_zpow_lastPlace (F := F) hq
  rw [two_zpow_add] at hlt ⊢
  exact nearest_le_mul hq.le hlt.le

theorem le_nearest (hF : F.Sound) {q : Rat} (hq : 0 < q) (h : F.minExponent < F.lastPlace q) :
    2 ^ (F.lastPlace q + F.precision - 1) ≤ F.nearest q := by
  have hle := two_zpow_lastPlace_le_self hq h
  rw [add_sub_assoc, ← Nat.cast_pred hF.precision_pos, two_zpow_add] at hle ⊢
  exact mul_le_nearest hq.le hle

theorem nearest_natCast {n : Nat} (hn : 0 < n) (hexponent : F.minExponent ≤ 0)
    (h : n < 2 ^ F.precision) : F.nearest n = n := by
  have hpos : (0 : Rat) < n := Nat.cast_pos.mpr hn
  have hlog : floorLog2 n < F.precision := by
    rw [← zpow_lt_zpow_iff_right₀ (show (1 : Rat) < 2 by norm_num), zpow_natCast]
    exact (two_zpow_floorLog2_le hpos).trans_lt (by exact_mod_cast h)
  obtain ⟨k, hplace⟩ : ∃ k : Nat, F.lastPlace n = -k := by
    refine ⟨(-F.lastPlace n).toNat, ?_⟩
    unfold lastPlace
    omega
  have hmultiple : ((n * 2 ^ k : Int) : Rat) * 2 ^ F.lastPlace n = n := by
    rw [hplace, zpow_neg, zpow_natCast]
    push_cast
    field_simp
  have hle := mul_le_nearest hpos.le hmultiple.le
  have hge := nearest_le_mul hpos.le hmultiple.ge
  rw [hmultiple] at hle hge
  exact le_antisymm hge hle

theorem nearest_mono (hF : F.Sound) {p q : Rat} (hp : 0 ≤ p) (h : p ≤ q) :
    F.nearest p ≤ F.nearest q := by
  rcases hp.eq_or_lt with rfl | hp
  · exact nearest_zero.trans_le (nearest_nonneg F q)
  have hq := hp.trans_le h
  rcases (lastPlace_mono hp h).eq_or_lt with hplace | hplace
  · have hkept : (roundEven (p / 2 ^ F.lastPlace q) : Rat) ≤ roundEven (q / 2 ^ F.lastPlace q) := by
      exact_mod_cast roundEven_mono (by gcongr)
    rw [nearest_eq hp.le, nearest_eq hq.le, hplace]
    gcongr
  -- A power of two stands between magnitudes with different last places.
  · have hleast : F.minExponent < F.lastPlace q := (le_max_left _ _).trans_lt hplace
    calc F.nearest p
        ≤ 2 ^ (F.lastPlace p + F.precision) := nearest_le hp
      _ ≤ 2 ^ (F.lastPlace q + F.precision - 1) := zpow_le_zpow_right₀ (by norm_num) (by omega)
      _ ≤ F.nearest q := le_nearest hF hq hleast

end Format

namespace Number

variable {F : Format}

theorem magnitude_carried (m : Nat) (e : Int) : magnitude m (e + 1) = magnitude (2 * m) e := by
  unfold magnitude
  rw [zpow_add_one₀ (by decide), Nat.cast_mul]
  ring

/-- Twice the least normal significand is the least one that is not kept. -/
theorem magnitude_eq_two_zpow_iff (hF : F.Sound) (m : Nat) (place : Int) :
    magnitude m place = 2 ^ (place + F.precision) ↔ m = 2 * F.leastNormal := by
  have hpow : (2 : Rat) ^ place ≠ 0 := zpow_ne_zero _ (by norm_num)
  have htwice : (2 : Rat) ^ (place + F.precision) = magnitude (2 * F.leastNormal) place := by
    rw [← magnitude_carried, magnitude, hF.leastNormal_eq, ← zpow_add₀ (by norm_num)]
    congr 1
    omega
  rw [htwice]
  unfold magnitude
  rw [mul_left_inj' hpow, Nat.cast_inj]

/-- A magnitude is rounded to the nearest multiple of its last place, or is infinite where that is
beyond all numbers. -/
theorem round_nearest (hF : F.Sound) (negative : Bool) {q : Rat} (hq : 0 ≤ q) :
    (∃ m e, (round negative q : Number F) = .finite negative m e ∧ magnitude m e = F.nearest q ∧
        F.nearest q < F.limit) ∨
      (round negative q : Number F) = .infinite negative ∧ F.limit ≤ F.nearest q := by
  rcases hq.eq_or_lt with rfl | hq
  · rw [Format.nearest_zero]
    exact .inl ⟨0, F.minExponent, if_pos rfl, by simp [magnitude], zpow_pos (by norm_num) _⟩
  have hhigh := Format.nearest_le (F := F) hq
  have hlow := Format.le_nearest hF hq
  have hexponents := hF.exponents_le
  unfold Format.limit
  unfold Format.nearest at hhigh hlow ⊢
  unfold round
  rw [if_neg hq.ne']
  dsimp only
  generalize F.lastPlace q = place at hhigh hlow ⊢
  generalize (roundEven (q / 2 ^ place)).toNat = kept at hhigh hlow ⊢
  have hfull := magnitude_eq_two_zpow_iff hF kept place
  by_cases hcarried : kept = 2 * F.leastNormal
  · rw [if_pos hcarried, if_pos hcarried, hfull.mpr hcarried]
    split_ifs with hbeyond
    · exact .inr ⟨rfl, zpow_le_zpow_right₀ (by norm_num) (by omega)⟩
    · refine .inl ⟨_, _, rfl, ?_, zpow_lt_zpow_right₀ (by norm_num) (by omega)⟩
      rw [magnitude_carried, ← hcarried, hfull.mpr hcarried]
  · have hlt := hhigh.lt_of_ne (mt hfull.mp hcarried)
    rw [if_neg hcarried, if_neg hcarried]
    split_ifs with hbeyond
    · exact .inr ⟨rfl, (zpow_le_zpow_right₀ (by norm_num) (by omega)).trans (hlow (by omega))⟩
    · exact .inl ⟨_, _, rfl, rfl, hlt.trans_le (zpow_le_zpow_right₀ (by norm_num) (by omega))⟩

theorem round_cases (hF : F.Sound) (negative : Bool) {q : Rat} (hq : 0 < q) :
    (∃ m e, (round negative q : Number F) = .finite negative m e ∧
        |magnitude m e - q| ≤ 2 ^ (F.lastPlace q - 1)) ∨
      ((round negative q : Number F) = .infinite negative ∧
        (2 * F.leastNormal - 1 / 2) * 2 ^ F.maxExponent ≤ q) := by
  have herror := Format.abs_nearest_sub_le (F := F) hq.le
  rcases round_nearest hF negative hq.le with ⟨m, e, hround, hvalue, -⟩ | ⟨hround, hbeyond⟩
  · exact .inl ⟨m, e, hround, by rwa [hvalue]⟩
  · refine .inr ⟨hround, ?_⟩
    have hlimit : 2 * F.leastNormal * 2 ^ F.maxExponent = F.limit := by
      have htwice := (magnitude_eq_two_zpow_iff hF _ F.maxExponent).mpr rfl
      rwa [magnitude, Nat.cast_mul] at htwice
    have hhalf : 1 / 2 * (2 : Rat) ^ F.maxExponent = 2 ^ (F.maxExponent - 1) := by
      rw [zpow_sub_one₀ (by norm_num)]
      ring
    rw [sub_mul, hlimit, hhalf]
    rcases le_or_gt (F.lastPlace q) F.maxExponent with hplace | hplace
    · have hunit : (2 : Rat) ^ (F.lastPlace q - 1) ≤ 2 ^ (F.maxExponent - 1) :=
        zpow_le_zpow_right₀ (by norm_num) (by omega)
      linarith [(abs_le.mp herror).2]
    · have hleast := hF.exponents_le.trans_lt hplace
      have hreach : F.limit ≤ q := (zpow_le_zpow_right₀ (by norm_num) (by omega)).trans
        (Format.two_zpow_lastPlace_le_self hq hleast)
      have hpos : (0 : Rat) < 2 ^ (F.maxExponent - 1) := by positivity
      linarith

theorem round_normal (hF : F.Sound) (negative : Bool) {q : Rat}
    (hlow : (2 : Rat) ^ (F.minExponent + F.precision - 1) ≤ q)
    (hhigh : q < (2 * F.leastNormal - 1 / 2) * 2 ^ F.maxExponent) :
    ∃ m e, (round negative q : Number F) = .finite negative m e ∧
      |magnitude m e - q| ≤ q * 2 ^ (-(F.precision : Int)) := by
  have hq : 0 < q := lt_of_lt_of_le (zpow_pos (by decide) _) hlow
  obtain ⟨m, e, hround, herror⟩ | ⟨-, hbeyond⟩ := round_cases hF negative hq
  · exact ⟨m, e, hround, herror.trans (Format.two_zpow_lastPlace_le hlow)⟩
  · exact absurd hhigh (not_lt.mpr hbeyond)

end Number

end LabelPress.Binary

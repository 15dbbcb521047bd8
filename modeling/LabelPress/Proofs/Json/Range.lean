import LabelPress.Proofs.Binary.Rounding
import LabelPress.Proofs.Json.Tree
import LabelPress.Proofs.Text.Decimal

/-! The range of numbers. A number that is written is read in steps, each of which rounds; unless it
is close to the greatest double, it is read without a fault. -/
namespace LabelPress.Json

open Text (digitValue digitsValue digitsValue_append mul_pow_le_digitsValue)

namespace Number

theorem extend_split (n : Nat) (ds : List Char) :
    ∃ kept rest, ds = kept ++ rest ∧ extend n ds = (digitsValue n kept, kept.length) ∧
      (n ≤ maxSignificand → digitsValue n kept ≤ maxSignificand) ∧
      ∀ c ∈ rest.head?, maxSignificand < 10 * digitsValue n kept + digitValue c := by
  induction ds generalizing n with
  | nil => exact ⟨[], [], rfl, rfl, id, by simp⟩
  | cons c cs ih =>
    unfold extend
    dsimp only
    split_ifs with hfits
    · obtain ⟨kept, rest, hcs, hextend, hkept, hrest⟩ := ih (10 * n + digitValue c)
      refine ⟨c :: kept, rest, by rw [hcs, List.cons_append], ?_, fun _ => hkept hfits, hrest⟩
      rw [hextend]
      rfl
    · refine ⟨[], c :: cs, rfl, rfl, id, ?_⟩
      rintro d ⟨⟩
      exact not_le.mp hfits

/-- The significand may take digits of the fraction although it left out digits of the whole part.
It is below the number even so, since the digits left out were greater. -/
theorem significand_le {kept rest : List Char} (kept' rest' : List Char)
    (hrest : ∀ c ∈ rest.head?, maxSignificand < 10 * digitsValue 0 kept + digitValue c)
    (hfits : digitsValue (digitsValue 0 kept) kept' ≤ maxSignificand) :
    digitsValue (digitsValue 0 kept) kept' * 10 ^ (rest.length + rest'.length) ≤
      digitsValue 0 (kept ++ rest ++ (kept' ++ rest')) := by
  rw [List.append_assoc, digitsValue_append 0 kept]
  generalize digitsValue 0 kept = n at hrest hfits ⊢
  cases rest with
  | nil =>
    rw [List.length_nil, Nat.zero_add, List.nil_append, digitsValue_append]
    exact mul_pow_le_digitsValue _ rest'
  | cons c cs =>
    have hfull := hrest c rfl
    cases kept' with
    | nil =>
      rw [List.nil_append, ← List.length_append]
      exact mul_pow_le_digitsValue n (c :: cs ++ rest')
    | cons d ds =>
      generalize digitsValue n (d :: ds) = m at hfits ⊢
      calc m * 10 ^ (cs.length + 1 + rest'.length)
          ≤ (10 * n + digitValue c) * 10 ^ (cs ++ (d :: ds ++ rest')).length := by
            apply Nat.mul_le_mul (hfits.trans hfull.le)
            apply Nat.pow_le_pow_right (by decide)
            simp only [List.length_append, List.length_cons]
            omega
        _ ≤ digitsValue n (c :: cs ++ (d :: ds ++ rest')) :=
            mul_pow_le_digitsValue (10 * n + digitValue c) _

/-- The third greatest double. -/
def reach : Rat := 9007199254740989 * (2 : Rat) ^ (971 : Int)

theorem reach_lt : reach * (1 + (2 : Rat) ^ (-53 : Int)) * (1 + (2 : Rat) ^ (-53 : Int)) <
    (2 * Binary.Format.double.leastNormal - 1 / 2) * 2 ^ Binary.Format.double.maxExponent := by
  decide +kernel

theorem isInfinite_round (negative : Bool) {q : Rat} (hq : 0 ≤ q)
    (h : q ≤ reach * (1 + 2 ^ (-53 : Int)) * (1 + 2 ^ (-53 : Int))) :
    (Binary.Number.round negative q : Binary.Double).isInfinite = false := by
  obtain hq | rfl := lt_or_eq_of_le hq
  · obtain ⟨m, e, hround, -⟩ | ⟨-, hbeyond⟩ :=
      Binary.Number.round_cases Binary.Format.sound_double negative hq
    · rw [hround]
      rfl
    · exact absurd (lt_of_le_of_lt h reach_lt) (not_lt.mpr hbeyond)
  · unfold Binary.Number.round
    rw [if_pos rfl]
    rfl

theorem round_of_le_reach (negative : Bool) {q : Rat} (hlow : 1 ≤ q) (hhigh : q ≤ reach) :
    ∃ m e, (Binary.Number.round negative q : Binary.Double) = .finite negative m e ∧
      0 ≤ Binary.Number.magnitude m e ∧
      Binary.Number.magnitude m e ≤ q * (1 + 2 ^ (-53 : Int)) := by
  have hnormal : (2 : Rat) ^ (Binary.Format.double.minExponent + Binary.Format.double.precision - 1)
      ≤ q :=
    le_trans (zpow_le_one_of_nonpos₀ (by decide) (by decide)) hlow
  have hstep : reach ≤ reach * (1 + (2 : Rat) ^ (-53 : Int)) * (1 + (2 : Rat) ^ (-53 : Int)) := by
    decide +kernel
  obtain ⟨m, e, hround, herror⟩ := Binary.Number.round_normal Binary.Format.sound_double negative
    hnormal (lt_of_le_of_lt (hhigh.trans hstep) reach_lt)
  have hupper := (abs_le.mp herror).2
  change _ ≤ q * (2 : Rat) ^ (-53 : Int) at hupper
  refine ⟨m, e, hround, ?_, by linarith⟩
  unfold Binary.Number.magnitude
  positivity

theorem isOk_scale_neg (x : Binary.Double) {e : Int} (he : e < 0) : ∃ y, scale x e = .ok y := by
  induction hn : (-e).toNat using Nat.strongRecOn generalizing x e with
  | ind n ih =>
    rw [scale]
    split_ifs with htable hsign hzero
    · exact absurd hsign (by omega)
    · exact ⟨_, rfl⟩
    · exact ⟨_, rfl⟩
    · exact absurd ‹0 ≤ e› (by omega)
    · unfold maxPower at htable ⊢
      exact ih _ (by omega) _ (by omega) rfl

theorem isOk_scale_table {x : Binary.Double} {k : Nat} (hk : k ≤ maxPower)
    (h : (x * power k).isInfinite = false) : ∃ y, scale x k = .ok y := by
  rw [scale, Int.natAbs_natCast, if_pos hk, if_pos (Int.natCast_nonneg k)]
  dsimp only
  rw [h]
  exact ⟨_, rfl⟩

theorem isInfinite_zero_mul (x : Binary.Double) :
    (Binary.Number.zero false * x).isInfinite = false := by
  cases x with
  | nan => rfl
  | infinite s => rfl
  | finite s m e =>
    apply isInfinite_round (false != s)
    · rw [Binary.Number.magnitude, Nat.cast_zero, zero_mul, zero_mul]
    · rw [Binary.Number.magnitude, Nat.cast_zero, zero_mul, zero_mul]
      decide +kernel

theorem isOk_scale_zero (e : Int) : ∃ y, scale (.zero false) e = .ok y := by
  by_cases he : e < 0
  · exact isOk_scale_neg _ he
  · obtain ⟨k, rfl⟩ := Int.eq_ofNat_of_zero_le (not_lt.mp he)
    by_cases hk : k ≤ maxPower
    · exact isOk_scale_table hk (isInfinite_zero_mul _)
    · rw [scale, Int.natAbs_natCast, if_neg hk]
      exact ⟨_, rfl⟩

theorem le_maxPower {k : Nat} (h : (10 : Rat) ^ k ≤ reach) : k ≤ maxPower := by
  have hgreat : reach < (10 : Rat) ^ 309 := by decide +kernel
  have hpow := lt_of_le_of_lt h hgreat
  rw [pow_lt_pow_iff_right₀ (by decide)] at hpow
  exact Nat.lt_succ_iff.mp hpow

theorem isOk_scale {n : Nat} {e : Int} (h : n * (10 : Rat) ^ e ≤ reach) :
    ∃ y, scale (.ofInt n) e = .ok y := by
  by_cases hn : n = 0
  · rw [hn]
    exact isOk_scale_zero e
  by_cases he : e < 0
  · exact isOk_scale_neg _ he
  obtain ⟨k, rfl⟩ := Int.eq_ofNat_of_zero_le (not_lt.mp he)
  rw [zpow_natCast] at h
  have hone : (1 : Rat) ≤ n := by exact_mod_cast Nat.one_le_iff_ne_zero.mpr hn
  have hpower : (1 : Rat) ≤ 10 ^ k := one_le_pow₀ (by decide)
  have hpowerReach : (10 : Rat) ^ k ≤ reach :=
    (le_mul_of_one_le_left (by linarith) hone).trans h
  obtain ⟨m, a, hm, -, hmle⟩ :=
    round_of_le_reach false hone ((le_mul_of_one_le_right (by linarith) hpower).trans h)
  obtain ⟨m', b, hm', hm'0, hm'le⟩ := round_of_le_reach false hpower hpowerReach
  have hx : (.ofInt n : Binary.Double) = .finite false m a := hm
  have hy : power k = .finite false m' b := by
    have hnonneg : ¬ (10 : Rat) ^ k < 0 := by linarith
    unfold power Binary.Number.ofRat
    rw [if_neg hnonneg, decide_eq_false hnonneg]
    exact hm'
  apply isOk_scale_table (le_maxPower hpowerReach)
  rw [hx, hy]
  -- The digits and the power are each rounded up by a share at most.
  apply isInfinite_round false
  · unfold Binary.Number.magnitude
    positivity
  · have herror : (0 : Rat) ≤ 1 + 2 ^ (-53 : Int) := by positivity
    calc Binary.Number.magnitude m a * Binary.Number.magnitude m' b
        ≤ n * (1 + 2 ^ (-53 : Int)) * (10 ^ k * (1 + 2 ^ (-53 : Int))) := by gcongr
      _ = n * 10 ^ k * (1 + 2 ^ (-53 : Int)) * (1 + 2 ^ (-53 : Int)) := by ring
      _ ≤ reach * (1 + 2 ^ (-53 : Int)) * (1 + 2 ^ (-53 : Int)) := by gcongr

end Number

namespace Literal

theorem abs_value (n : Literal) :
    |n.value| = digitsValue 0 (n.whole.chars ++ (n.fraction.map Digits.chars).getD []) *
      (10 : Rat) ^ ((n.exponent.map Exponent.value).getD 0 -
        ((n.fraction.map Digits.chars).getD []).length) := by
  have hpow (e : Int) : |(10 : Rat) ^ e| = 10 ^ e := abs_of_pos (zpow_pos (by decide) e)
  unfold value
  dsimp only
  rw [abs_mul, abs_mul, Nat.abs_cast, hpow]
  split_ifs <;> norm_num

theorem isOk_readExponent {significand : Nat} {exponent : Int} {e : Option Exponent}
    (he : ∀ x ∈ e, x.value ≤ Number.maxExponent)
    (h : significand * (10 : Rat) ^ (exponent + (e.map Exponent.value).getD 0) ≤ Number.reach) :
    ∃ y, readExponent significand exponent e = .ok y := by
  cases e with
  | none =>
    rw [Option.map_none, Option.getD_none, Int.add_zero] at h
    exact Number.isOk_scale h
  | some x =>
    have hx := he x rfl
    rw [Option.map_some, Option.getD_some] at h
    unfold Exponent.value at h hx
    unfold readExponent
    dsimp only at h hx ⊢
    by_cases hminus : x.sign = some '-'
    · rw [if_pos hminus] at h
      split_ifs with hfits hgreat
      · exact Number.isOk_scale h
      · exact absurd hminus hgreat.2
      · exact ⟨_, rfl⟩
    · rw [if_neg hminus] at h hx
      rw [if_pos (Int.ofNat_le.mp hx), if_neg hminus]
      exact Number.isOk_scale h

theorem scaled_le {m n k places : Nat} {exponent e : Int} (h : m * 10 ^ k ≤ n)
    (hk : exponent + places = k) :
    m * (10 : Rat) ^ (exponent + e) ≤ n * 10 ^ (e - places) := by
  have hcast : (m : Rat) * 10 ^ k ≤ n := by exact_mod_cast h
  have hexponent : exponent + e = k + (e - places) := by omega
  rw [hexponent, zpow_add₀ (by decide), zpow_natCast, ← mul_assoc]
  gcongr

theorem isOk_readFraction {kept rest : List Char} {fraction : Option Digits} {e : Option Exponent}
    (hkept : digitsValue 0 kept ≤ Number.maxSignificand)
    (hrest : ∀ c ∈ rest.head?, Number.maxSignificand < 10 * digitsValue 0 kept + digitValue c)
    (he : ∀ x ∈ e, x.value ≤ Number.maxExponent)
    (h : digitsValue 0 (kept ++ rest ++ (fraction.map Digits.chars).getD []) *
      (10 : Rat) ^ ((e.map Exponent.value).getD 0 -
        ((fraction.map Digits.chars).getD []).length) ≤ Number.reach) :
    ∃ y, readFraction (digitsValue 0 kept) rest.length e fraction = .ok y := by
  cases fraction with
  | none =>
    have hle := Number.significand_le [] [] hrest hkept
    exact isOk_readExponent he ((scaled_le hle rfl).trans h)
  | some ds =>
    obtain ⟨kept', rest', hds, hextend, hkept', -⟩ :=
      Number.extend_split (digitsValue 0 kept) ds.chars
    have hle := Number.significand_le kept' rest' hrest (hkept' hkept)
    rw [Option.map_some, Option.getD_some, hds] at h
    unfold readFraction
    dsimp only
    rw [hextend]
    apply isOk_readExponent he
    refine (scaled_le hle ?_).trans h
    rw [List.length_append]
    omega

/-- Numbers up to the third greatest double are read. -/
theorem readable_of_le_reach {n : Literal} (he : ∀ e ∈ n.exponent, e.value ≤ Number.maxExponent)
    (h : |n.value| ≤ Number.reach) : n.Readable := by
  obtain ⟨kept, rest, hwhole, hextend, hkept, hrest⟩ := Number.extend_split 0 n.whole.chars
  rw [abs_value, hwhole] at h
  obtain ⟨x, hx⟩ := isOk_readFraction (hkept (Nat.zero_le _)) hrest he h
  have hdropped : n.whole.chars.length - kept.length = rest.length := by
    rw [hwhole, List.length_append, Nat.add_sub_cancel_left]
  unfold Readable read
  rw [hextend]
  dsimp only
  rw [hdropped, hx]
  split
  · exact ⟨_, rfl⟩
  · exact ⟨_, rfl⟩

end Literal

end LabelPress.Json

import LabelPress.Proofs.Json.Printing
import LabelPress.Proofs.Json.Range

/-! Integer literals. A literal that is written as an integer is read as this integer if it fits 64
bits; all other literals, and a zero with a minus sign, are read as doubles or not at all. -/
namespace LabelPress.Json

open Text

namespace Literal

def integer (n : Literal) : Int :=
  if n.negative then -(digitsValue 0 n.whole.chars : Int) else digitsValue 0 n.whole.chars

/-- There is neither a fraction nor an exponent, and it is not `-0`. -/
structure IsInteger (n : Literal) : Prop where
  fraction : n.fraction = none
  exponent : n.exponent = none
  notNegativeZero : ¬(n.negative = true ∧ n.whole.chars = ['0'])

theorem digitValue_pos {c : Char} (hdigit : isDigit c = true) (hc : c ≠ '0') :
    0 < digitValue c := by
  simp only [isDigit, Bool.and_eq_true, decide_eq_true_eq] at hdigit
  have hlow : '0'.toNat ≤ c.toNat := hdigit.1
  have hne : c.toNat ≠ '0'.toNat := fun h => hc (Char.toNat_inj.mp h)
  unfold digitValue
  omega

theorem digitsValue_whole_eq_zero_iff (n : Literal) :
    digitsValue 0 n.whole.chars = 0 ↔ n.whole.chars = ['0'] := by
  constructor
  · intro hzero
    rcases n.noLeadingZero with hchars | hhead
    · exact hchars
    · obtain ⟨c, r, hchars, hdigit⟩ := n.whole.exists_cons
      have hc : c ≠ '0' := by simpa [hchars] using hhead
      have hle := le_digitsValue (10 * 0 + digitValue c) r
      have hpos := digitValue_pos hdigit hc
      have hvalue : digitsValue 0 n.whole.chars = digitsValue (10 * 0 + digitValue c) r := by
        rw [hchars]
        rfl
      omega
  · rintro hchars
    rw [hchars]
    rfl

theorem toDigits_whole (n : Literal) :
    Nat.toDigits 10 (digitsValue 0 n.whole.chars) = n.whole.chars := by
  by_cases hzero : n.whole.chars = ['0']
  · rw [hzero]
    rfl
  · obtain ⟨c, r, hchars, hdigit⟩ := n.whole.exists_cons
    have hc : c ≠ '0' := by simpa [hchars] using n.noLeadingZero.resolve_left hzero
    have hrest : ∀ d ∈ r, isDigit d = true := fun d hd =>
      n.whole.areDigits d (hchars ▸ List.mem_cons_of_mem c hd)
    have hpos : 0 < 10 * 0 + digitValue c := by
      have hpos := digitValue_pos hdigit hc
      omega
    rw [hchars]
    calc Nat.toDigits 10 (digitsValue 0 (c :: r))
        = Nat.toDigits 10 (10 * 0 + digitValue c) ++ r := toDigits_digitsValue hpos hrest
      _ = c :: r := by
        rw [Nat.mul_zero, Nat.zero_add, Nat.toDigits_of_lt_base (digitValue_lt_ten hdigit),
          digitChar_digitValue hdigit]
        rfl

theorem IsInteger.toString_integer {n : Literal} (h : n.IsInteger) (hnonneg : 0 ≤ n.integer) :
    toString n.integer = String.ofList n.whole.chars := by
  have hpositive : n.integer = digitsValue 0 n.whole.chars := by
    have hzero := n.digitsValue_whole_eq_zero_iff
    unfold integer at hnonneg ⊢
    split_ifs at hnonneg with hnegative
    · exact absurd ⟨hnegative, hzero.mp (by omega)⟩ h.notNegativeZero
    · exact if_neg hnegative
  rw [hpositive]
  change toString (digitsValue 0 n.whole.chars) = _
  rw [Nat.toString_eq_ofList_toDigits, n.toDigits_whole]

theorem ofSignificand_eq_integer_iff {negative : Bool} {significand : Nat} {i : Int} :
    Number.ofSignificand negative significand = .integer i ↔
      (if negative then -(significand : Int) else significand) = i ∧
        (negative = true → significand ≠ 0 ∧ significand ≤ 0x8000000000000000) := by
  unfold Number.ofSignificand
  cases negative with
  | false => simp
  | true =>
    simp only [if_true, true_implies]
    split_ifs with h
    · simp only [false_iff]
      omega
    · simp only [Number.integer.injEq]
      omega

theorem read_ne_integer {n : Literal} {significand taken : Nat}
    (hextend : Number.extend 0 n.whole.chars = (significand, taken))
    (h : ¬(n.whole.chars.length - taken = 0 ∧ n.fraction.isNone ∧ n.exponent.isNone)) (i : Int) :
    n.read ≠ .ok (.integer i) := by
  unfold read
  rw [hextend]
  dsimp only
  rw [if_neg h]
  cases readFraction significand (n.whole.chars.length - taken : Nat) n.exponent n.fraction <;>
    simp [Except.map]

/-- A literal is read as an integer if it is written as one that fits 64 bits, and exactly then. -/
theorem read_eq_integer_iff {n : Literal} {i : Int} :
    n.read = .ok (.integer i) ↔
      n.IsInteger ∧ n.integer = i ∧ -0x8000000000000000 ≤ i ∧ i ≤ 0xFFFFFFFFFFFFFFFF := by
  by_cases hfits : digitsValue 0 n.whole.chars ≤ Number.maxSignificand
  · have hextend := extend_eq hfits
    by_cases hplain : n.fraction.isNone ∧ n.exponent.isNone
    · have hread :
          n.read = .ok (Number.ofSignificand n.negative (digitsValue 0 n.whole.chars)) := by
        unfold read
        rw [hextend]
        dsimp only
        rw [if_pos ⟨Nat.sub_self _, hplain⟩]
      have hzero := n.digitsValue_whole_eq_zero_iff
      rw [hread, Except.ok.injEq, ofSignificand_eq_integer_iff]
      rw [Option.isNone_iff_eq_none, Option.isNone_iff_eq_none] at hplain
      unfold Number.maxSignificand at hfits
      unfold integer
      constructor
      · rintro ⟨hi, hnegative⟩
        refine ⟨⟨hplain.1, hplain.2, fun h => (hnegative h.1).1 (hzero.mpr h.2)⟩, hi, ?_⟩
        split at hi <;> simp_all <;> omega
      · rintro ⟨hinteger, hi, hlow, hhigh⟩
        refine ⟨hi, fun hnegative => ?_⟩
        have hne := fun h => hinteger.notNegativeZero ⟨hnegative, hzero.mp h⟩
        rw [if_pos hnegative] at hi
        exact ⟨hne, by omega⟩
    · refine iff_of_false (read_ne_integer hextend (fun h => hplain h.2) i) ?_
      rintro ⟨hinteger, -⟩
      exact hplain ⟨by simp [hinteger.fraction], by simp [hinteger.exponent]⟩
  · obtain ⟨kept, rest, hwhole, hextend, hkept, -⟩ := Number.extend_split 0 n.whole.chars
    -- Not all digits were kept, so the whole part alone is beyond 64 bits.
    have hdropped : n.whole.chars.length - kept.length ≠ 0 := by
      rw [hwhole, List.length_append, Nat.add_sub_cancel_left]
      intro hnil
      rw [hwhole, List.eq_nil_of_length_eq_zero hnil, List.append_nil] at hfits
      exact hfits (hkept (Nat.zero_le _))
    refine iff_of_false (read_ne_integer hextend (fun h => hdropped h.1) i) ?_
    rintro ⟨-, hi, hlow, hhigh⟩
    unfold integer at hi
    unfold Number.maxSignificand at hfits
    split at hi <;> omega

end Literal

end LabelPress.Json

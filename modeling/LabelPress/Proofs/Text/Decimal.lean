import LabelPress.Text.Decimal
import Mathlib.Algebra.Group.Nat.Defs

/-! Decimal notation. The digits of a number are digits, have its value, and start with a zero only
if they are that zero; more digits make a number greater. Read back, they are that number. -/
namespace LabelPress.Text

theorem isDigit_eq (c : Char) : isDigit c = c.isDigit := by
  simp [isDigit, Char.isDigit, Char.le_def]

theorem bounds_of_isDigit {c : Char} (h : isDigit c = true) : 48 ≤ c.toNat ∧ c.toNat ≤ 57 := by
  simp only [isDigit, Bool.and_eq_true, decide_eq_true_eq] at h
  exact h

theorem isDigit_of_mem_toDigits {n : Nat} {c : Char} (h : c ∈ Nat.toDigits 10 n) :
    isDigit c = true := by
  rw [isDigit_eq]
  exact Nat.isDigit_of_mem_toDigits (by decide) (by decide) h

theorem digitsValue_toDigits (n : Nat) : digitsValue 0 (Nat.toDigits 10 n) = n :=
  Nat.ofDigitChars_ten_toDigits

theorem head?_toDigits_ne_zero {n : Nat} (h : n ≠ 0) :
    (Nat.toDigits 10 n).head? ≠ some '0' := by
  induction n using Nat.strongRecOn with
  | ind n ih =>
    by_cases hn : n < 10
    · rw [Nat.toDigits_of_lt_base hn]
      have hall : ∀ m < 10, m ≠ 0 → [m.digitChar].head? ≠ some '0' := by decide
      exact hall n hn h
    · have hfirst := ih (n / 10) (by omega) (by omega)
      rw [Nat.toDigits_of_base_le (by decide) (by omega)]
      cases hds : Nat.toDigits 10 (n / 10) with
      | nil => exact absurd hds Nat.toDigits_ne_nil
      | cons c cs =>
        rw [hds] at hfirst
        exact hfirst

theorem toDigits_leadingZero (n : Nat) :
    Nat.toDigits 10 n = ['0'] ∨ (Nat.toDigits 10 n).head? ≠ some '0' := by
  by_cases h : n = 0
  · exact .inl (by rw [h, Nat.toDigits_zero])
  · exact .inr (head?_toDigits_ne_zero h)

/-- The first digits of a number are the digits of a number that is not greater. -/
theorem exists_toDigits_of_append {n : Nat} {q r : List Char} (h : Nat.toDigits 10 n = q ++ r)
    (hq : q ≠ []) : ∃ k ≤ n, (0 < n → 0 < k) ∧ q = Nat.toDigits 10 k := by
  induction n using Nat.strongRecOn generalizing r with
  | ind n ih =>
    rcases List.eq_nil_or_concat r with rfl | ⟨r, c, rfl⟩
    · exact ⟨n, Nat.le_refl n, id, by simpa using h.symm⟩
    rw [List.concat_eq_append, ← List.append_assoc] at h
    by_cases hn : n < 10
    · rw [Nat.toDigits_of_lt_base hn] at h
      have hnil : q ++ r = [] := by
        have hlength := congrArg List.length h
        simp only [List.length_append, List.length_cons, List.length_nil] at hlength
        exact List.eq_nil_of_length_eq_zero (by rw [List.length_append]; omega)
      exact absurd (List.append_eq_nil_iff.mp hnil).1 hq
    · rw [Nat.toDigits_of_base_le (by decide) (by omega)] at h
      obtain ⟨k, hk, hpos, rfl⟩ := ih (n / 10) (by omega) (List.append_inj' h rfl).1
      exact ⟨k, by omega, fun _ => hpos (by omega), rfl⟩

theorem digitsValue_append (n : Nat) (xs ys : List Char) :
    digitsValue n (xs ++ ys) = digitsValue (digitsValue n xs) ys :=
  List.foldl_append

theorem mul_pow_le_digitsValue (n : Nat) (ds : List Char) :
    n * 10 ^ ds.length ≤ digitsValue n ds := by
  induction ds generalizing n with
  | nil => exact Nat.le_of_eq (Nat.mul_one n)
  | cons c cs ih =>
    calc n * 10 ^ (cs.length + 1)
        = 10 * n * 10 ^ cs.length := by
          rw [Nat.pow_succ, Nat.mul_comm (10 ^ _) 10, ← Nat.mul_assoc, Nat.mul_comm n 10]
      _ ≤ (10 * n + digitValue c) * 10 ^ cs.length := Nat.mul_le_mul_right _ (Nat.le_add_right _ _)
      _ ≤ digitsValue n (c :: cs) := ih (10 * n + digitValue c)

theorem le_digitsValue (n : Nat) (ds : List Char) : n ≤ digitsValue n ds := by
  have hpow : 0 < 10 ^ ds.length := Nat.pow_pos (by decide)
  exact Nat.le_trans (Nat.le_mul_of_pos_right n hpow) (mul_pow_le_digitsValue n ds)

theorem digitValue_lt_ten {c : Char} (h : isDigit c = true) : digitValue c < 10 := by
  have hhigh := (bounds_of_isDigit h).2
  have hzero : '0'.toNat = 48 := rfl
  unfold digitValue
  omega

theorem digitChar_digitValue {c : Char} (h : isDigit c = true) : (digitValue c).digitChar = c := by
  have hlow := (bounds_of_isDigit h).1
  have hzero : '0'.toNat = 48 := rfl
  apply Char.toNat_inj.mp
  rw [Nat.toNat_digitChar_of_lt_ten (digitValue_lt_ten h)]
  unfold digitValue
  omega

theorem toDigits_digitsValue {n : Nat} (hn : 0 < n) {ds : List Char}
    (hds : ∀ c ∈ ds, isDigit c = true) :
    Nat.toDigits 10 (digitsValue n ds) = Nat.toDigits 10 n ++ ds := by
  induction ds generalizing n with
  | nil => exact (List.append_nil _).symm
  | cons c cs ih =>
    obtain ⟨hc, hcs⟩ := List.forall_mem_cons.mp hds
    have hlt := digitValue_lt_ten hc
    have hpos : 0 < 10 * n + digitValue c := by omega
    calc Nat.toDigits 10 (digitsValue n (c :: cs))
        = Nat.toDigits 10 (10 * n + digitValue c) ++ cs := ih hpos hcs
      _ = Nat.toDigits 10 n ++ Nat.toDigits 10 (digitValue c) ++ cs := by
        rw [Nat.toDigits_append_toDigits (by decide) hn hlt]
      _ = Nat.toDigits 10 n ++ c :: cs := by
        rw [Nat.toDigits_of_lt_base hlt, digitChar_digitValue hc, List.append_assoc]
        rfl

theorem readNat?_eq_some_iff {s : List Char} {n : Nat} :
    readNat? s = some n ↔
      s ≠ [] ∧ (∀ c ∈ s, c.isDigit = true) ∧ Nat.ofDigitChars 10 s 0 = n := by
  unfold readNat?
  simp only [Option.ite_none_left_eq_some, Bool.or_eq_true, Bool.not_eq_true', not_or,
    List.isEmpty_iff, Bool.not_eq_false, List.all_eq_true, isDigit_eq, Option.some_inj, and_assoc]
  rfl

theorem readInt?_of_isDigit {s : List Char} (h : ∀ c ∈ s, isDigit c = true) :
    readInt? s = (readNat? s).map Int.ofNat := by
  unfold readInt?
  split
  · exact absurd (h _ List.mem_cons_self) (by decide)
  · exact absurd (h _ List.mem_cons_self) (by decide)
  · rfl

theorem readInt?_eq_some_iff {s : List Char} {n : Int} (hn : 0 < n) :
    readInt? s = some n ↔ ∃ sign digits : List Char, s = sign ++ digits ∧
      (sign = [] ∨ sign = ['+']) ∧ readNat? digits = some n.toNat := by
  have hnat {k : Nat} : (k : Int) = n ↔ k = n.toNat := by omega
  constructor
  · intro h
    unfold readInt? at h
    split at h
    · rename_i r
      cases hread : readNat? r with
      | none => simp [hread] at h
      | some k =>
        have hneg : -(k : Int) = n := by simpa [hread] using h
        omega
    · obtain ⟨k, hread, hk⟩ := Option.map_eq_some_iff.mp h
      exact ⟨['+'], _, rfl, .inr rfl, hread.trans (congrArg some (hnat.mp hk))⟩
    · obtain ⟨k, hread, hk⟩ := Option.map_eq_some_iff.mp h
      exact ⟨[], _, rfl, .inl rfl, hread.trans (congrArg some (hnat.mp hk))⟩
  · rintro ⟨sign, digits, rfl, rfl | rfl, hread⟩
    · have hdigits : ∀ c ∈ digits, isDigit c = true := fun c hc =>
        (isDigit_eq c).trans ((readNat?_eq_some_iff.mp hread).2.1 c hc)
      rw [List.nil_append, readInt?_of_isDigit hdigits, hread]
      exact congrArg some (hnat.mpr rfl)
    · change (readNat? digits).map Int.ofNat = some n
      rw [hread]
      exact congrArg some (hnat.mpr rfl)

end LabelPress.Text

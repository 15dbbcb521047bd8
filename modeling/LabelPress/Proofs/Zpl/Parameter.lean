import LabelPress.Proofs.Text.Decimal
import LabelPress.Zpl.QrSetting
import LabelPress.Zpl.Font
import LabelPress.Zpl.Token

/-! Parameters of commands. A number or a letter has no comma, so the parameters of a command are
found again between its commas, and a number and a letter are found again in its parameter. -/
namespace LabelPress.Zpl

open Text

theorem toList_parameter (n : Int) :
    (parameter n).toList =
      if n < 0 then '-' :: Nat.toDigits 10 n.natAbs else Nat.toDigits 10 n.natAbs := by
  unfold parameter
  cases n with
  | ofNat n => simp [Int.toString_eq_repr, Int.repr]
  | negSucc n => simp [Int.toString_eq_repr, Int.repr, Int.negSucc_lt_zero]

theorem readNat?_toDigits (n : Nat) : readNat? (Nat.toDigits 10 n) = some n := by
  have hdigits : (Nat.toDigits 10 n).all isDigit = true :=
    List.all_eq_true.mpr fun _ => isDigit_of_mem_toDigits
  unfold readNat?
  simp [hdigits, Nat.toDigits_ne_nil, digitsValue_toDigits]

theorem readInt?_parameter (n : Int) : readInt? (parameter n).toList = some n := by
  have hread := readNat?_toDigits n.natAbs
  rw [toList_parameter]
  by_cases hn : n < 0
  · rw [if_pos hn]
    have habs : -(n.natAbs : Int) = n := by omega
    rw [readInt?, hread]
    exact congrArg some habs
  · rw [if_neg hn]
    rw [readInt?_of_isDigit fun _ => isDigit_of_mem_toDigits, hread]
    simp
    omega

theorem parameter_inj {m n : Int} (h : parameter m = parameter n) : m = n := by
  have hread := readInt?_parameter m
  rw [h, readInt?_parameter] at hread
  exact (Option.some.inj hread).symm

/-- Without the characters that part commands, parameters and lines. -/
def Clean (p : String) : Prop := ∀ c ∈ p.toList, c ≠ '^' ∧ c ≠ ',' ∧ c ≠ '\n'

@[simp] theorem clean_empty : Clean "" := fun c h => absurd h (by simp)

def Numeric (c : Char) : Prop := c = '-' ∨ isDigit c = true

theorem numeric_of_mem_parameter {n : Int} {c : Char} (h : c ∈ (parameter n).toList) :
    Numeric c := by
  rw [toList_parameter] at h
  split at h
  · rcases List.mem_cons.mp h with rfl | h
    · exact .inl rfl
    · exact .inr (isDigit_of_mem_toDigits h)
  · exact .inr (isDigit_of_mem_toDigits h)

theorem Numeric.plain {c : Char} (h : Numeric c) : c ≠ '^' ∧ c ≠ ',' ∧ c ≠ '\n' := by
  rcases h with rfl | h
  · decide
  · refine ⟨?_, ?_, ?_⟩
    all_goals
      rintro rfl
      exact absurd h (by decide)

@[simp] theorem clean_parameter (n : Int) : Clean (parameter n) :=
  fun _ h => (numeric_of_mem_parameter h).plain

theorem parameter_ne_empty (n : Int) : parameter n ≠ "" := by
  intro h
  have hread := readInt?_parameter n
  rw [h] at hread
  simp [readInt?, readNat?] at hread

theorem parameter?_inj {m n : Option Int32} (h : parameter? m = parameter? n) : m = n := by
  cases m with
  | none =>
    cases n with
    | none => rfl
    | some n => exact absurd h.symm (parameter_ne_empty n.toInt)
  | some m =>
    cases n with
    | none => exact absurd h (parameter_ne_empty m.toInt)
    | some n => exact congrArg some (Int32.toInt_inj.mp (parameter_inj h))

theorem numeric_of_mem_parameter? {n : Option Int32} {c : Char}
    (h : c ∈ (parameter? n).toList) : Numeric c := by
  cases n with
  | none => simp [parameter?] at h
  | some n => exact numeric_of_mem_parameter h

@[simp] theorem clean_parameter? (n : Option Int32) : Clean (parameter? n) :=
  fun _ h => (numeric_of_mem_parameter? h).plain

/-- A setting is written as one character of its own. -/
class Lettered {α : Type} (token : α → String) : Prop where
  isLetter (a : α) : ∃ c, (token a).toList = [c] ∧ c ≠ '^' ∧ c ≠ ',' ∧ c ≠ '\n'
  token_inj {a b : α} : token a = token b → a = b

namespace Lettered

instance : Lettered Rotation.token where
  isLetter a := by cases a <;> exact ⟨_, rfl, by decide⟩
  token_inj {a b} h := by
    cases a <;> cases b <;> first | rfl | exact absurd h (by decide)

instance : Lettered PrintMode.token where
  isLetter a := by cases a <;> exact ⟨_, rfl, by decide⟩
  token_inj {a b} h := by
    cases a <;> cases b <;> first | rfl | exact absurd h (by decide)

instance : Lettered LineColor.token where
  isLetter a := by cases a <;> exact ⟨_, rfl, by decide⟩
  token_inj {a b} h := by
    cases a <;> cases b <;> first | rfl | exact absurd h (by decide)

instance : Lettered Font.token where
  isLetter font := by cases font <;> exact ⟨_, rfl, by decide⟩
  token_inj {font font'} h := by
    cases font <;> cases font' <;> first | rfl | exact absurd h (by decide)

instance : Lettered QrModel.token where
  isLetter a := by cases a <;> exact ⟨_, rfl, by decide⟩
  token_inj {a b} h := by
    cases a <;> cases b <;> first | rfl | exact absurd h (by decide)

instance : Lettered QrErrorCorrection.token where
  isLetter a := by cases a <;> exact ⟨_, rfl, by decide⟩
  token_inj {a b} h := by
    cases a <;> cases b <;> first | rfl | exact absurd h (by decide)

instance : Lettered QrInputMode.token where
  isLetter a := by cases a <;> exact ⟨_, rfl, by decide⟩
  token_inj {a b} h := by
    cases a <;> cases b <;> first | rfl | exact absurd h (by decide)

instance : Lettered QrCharacterMode.token where
  isLetter a := by cases a <;> exact ⟨_, rfl, by decide⟩
  token_inj {a b} h := by
    cases a <;> cases b <;> first | rfl | exact absurd h (by decide)

variable {α : Type} {token : α → String} [Lettered token]

theorem length_token (a : α) : (token a).toList.length = 1 := by
  obtain ⟨c, hc, -⟩ := @isLetter α token _ a
  rw [hc]
  rfl

@[simp] theorem clean_token (a : α) : Clean (token a) := by
  obtain ⟨c, hc, hclean⟩ := @isLetter α token _ a
  intro d hd
  rw [hc, List.mem_singleton] at hd
  exact hd ▸ hclean

theorem append_inj {a b : α} {s t : List Char}
    (h : (token a).toList ++ s = (token b).toList ++ t) : a = b ∧ s = t := by
  obtain ⟨htoken, hrest⟩ := List.append_inj h (by rw [length_token, length_token])
  exact ⟨token_inj (String.toList_inj.mp htoken), hrest⟩

end Lettered

end LabelPress.Zpl

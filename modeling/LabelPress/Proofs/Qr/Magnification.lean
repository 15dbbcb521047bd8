import LabelPress.Proofs.Text.Trim
import LabelPress.Zpl.QrSetting

/-! What a magnification says. It is read as a number if it is digits between blanks, perhaps with a
plus sign, that make a positive word; all other texts leave the size of the modules open. -/
namespace LabelPress

namespace Magnification

/-- The text is a positive word in decimal notation. Zeros may lead, and blanks stand around it. -/
inductive Says (m : Magnification) (k : Int32) : Prop
  | intro {before sign digits after : List Char} :
      m.text.toList = before ++ (sign ++ digits) ++ after →
        (∀ c ∈ before, Text.isBlank c = true) → (∀ c ∈ after, Text.isBlank c = true) →
          sign = [] ∨ sign = ['+'] → digits ≠ [] → (∀ c ∈ digits, c.isDigit = true) →
            0 < k → k.toInt = Nat.ofDigitChars 10 digits 0 → Says m k

/-- The number of dots that a module is wide: what the text says, or two. -/
def Means (m : Magnification) (k : Int32) : Prop := m.Says k ∨ (∀ n, ¬m.Says n) ∧ k = 2

variable {m : Magnification} {k : Int32}

theorem says_iff : m.Says k ↔ 0 < k ∧ Text.readInt? (Text.trim m.text.toList) = some k.toInt := by
  have hpositive (h : 0 < k) : 0 < k.toInt := Int32.lt_iff_toInt_lt.mp h
  constructor
  · rintro ⟨htext, hbefore, hafter, hsign, hne, hdigits, hk, hvalue⟩
    rename_i before sign digits after
    have hkept : ∀ c ∈ sign ++ digits, Text.isBlank c = false := by
      rw [List.forall_mem_append]
      refine ⟨?_, fun c hc => Text.isBlank_of_isDigit ((Text.isDigit_eq c).trans (hdigits c hc))⟩
      rcases hsign with rfl | rfl
      · simp
      · intro c hc
        obtain rfl := List.mem_singleton.mp hc
        rfl
    have htrim : Text.trim m.text.toList = sign ++ digits :=
      (Text.trimWhere_eq_iff (by simp [hne]) hkept).mpr ⟨before, after, htext, hbefore, hafter⟩
    refine ⟨hk, (Text.readInt?_eq_some_iff (hpositive hk)).mpr ⟨sign, digits, htrim, hsign, ?_⟩⟩
    exact Text.readNat?_eq_some_iff.mpr ⟨hne, hdigits, by omega⟩
  · rintro ⟨hk, hread⟩
    obtain ⟨sign, digits, htrim, hsign, hread⟩ :=
      (Text.readInt?_eq_some_iff (hpositive hk)).mp hread
    obtain ⟨hne, hdigits, hvalue⟩ := Text.readNat?_eq_some_iff.mp hread
    obtain ⟨before, after, htext, hbefore, hafter⟩ :=
      Text.exists_trimWhere Text.isBlank m.text.toList
    change Text.trimWhere Text.isBlank m.text.toList = sign ++ digits at htrim
    rw [htrim] at htext
    have hvalue : k.toInt = Nat.ofDigitChars 10 digits 0 := by
      have hnonneg := hpositive hk
      omega
    exact .intro htext hbefore hafter hsign hne hdigits hk hvalue

theorem Says.dots_eq (h : m.Says k) : m.dots = k := by
  obtain ⟨hk, hread⟩ := says_iff.mp h
  have hlow : 0 < k.toInt := Int32.lt_iff_toInt_lt.mp hk
  have hhigh := k.toInt_lt
  unfold dots
  rw [hread]
  dsimp only
  rw [if_pos ⟨hlow, by omega⟩, Int32.ofInt_toInt]

theorem dots_eq_unset (h : ∀ k, ¬m.Says k) : m.dots = unset := by
  unfold dots
  split
  · rename_i n hread
    refine if_neg fun ⟨hlow, hhigh⟩ => h (Int32.ofInt n) (says_iff.mpr ?_)
    have hword : (Int32.ofInt n).toInt = n := Int32.toInt_ofInt_of_le (by omega) (by omega)
    exact ⟨Int32.lt_iff_toInt_lt.mpr (by rwa [hword]), by rw [hword, hread]⟩
  · rfl

/-- The dots that pictures use are those that the text means. -/
theorem dots_eq_iff : m.dots = k ↔ m.Means k := by
  constructor
  · rintro rfl
    by_cases h : ∃ n, m.Says n
    · obtain ⟨n, hn⟩ := h
      rw [hn.dots_eq]
      exact .inl hn
    · exact .inr ⟨not_exists.mp h, dots_eq_unset (not_exists.mp h)⟩
  · rintro (h | ⟨h, rfl⟩)
    · exact h.dots_eq
    · exact dots_eq_unset h

instance : Decidable (m.Means k) := decidable_of_iff (m.dots = k) dots_eq_iff

end Magnification

end LabelPress

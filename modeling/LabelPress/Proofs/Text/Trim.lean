import LabelPress.Proofs.Text.Decimal
import LabelPress.Text.Blank
import Mathlib.Data.List.TakeWhile

/-! Trimming: what is left of a text is what stands between characters of the class. -/
namespace LabelPress.Text

theorem isBlank_of_isDigit {c : Char} (h : isDigit c = true) : isBlank c = false := by
  have hbounds := bounds_of_isDigit h
  rw [Bool.eq_false_iff]
  simp only [isBlank, Ne, Bool.or_eq_true, Bool.and_eq_true, decide_eq_true_eq, beq_iff_eq]
  omega

variable {p : Char → Bool} {s m l r : List Char}

theorem dropWhile_append_kept (hne : m ≠ []) (hm : ∀ c ∈ m, p c = false) :
    (l ++ (m ++ r)).dropWhile p = l.dropWhile p ++ (m ++ r) := by
  have hkept : (m ++ r).dropWhile p = m ++ r := by
    cases m with
    | nil => exact absurd rfl hne
    | cons c m => simp [hm c List.mem_cons_self]
  rw [List.dropWhile_append, hkept]
  split
  · rename_i hnil
    rw [List.isEmpty_iff.mp hnil, List.nil_append]
  · rfl

/-- What is kept in the middle parts the two ends. -/
theorem trimWhere_append (hne : m ≠ []) (hm : ∀ c ∈ m, p c = false) :
    trimWhere p (l ++ m ++ r) = l.dropWhile p ++ m ++ (r.reverse.dropWhile p).reverse := by
  unfold trimWhere
  rw [List.append_assoc, dropWhile_append_kept hne hm, List.reverse_append, List.reverse_append,
    List.append_assoc, dropWhile_append_kept (by simpa using hne) (by simpa using hm)]
  simp

theorem exists_trimWhere (p : Char → Bool) (s : List Char) :
    ∃ l r, s = l ++ trimWhere p s ++ r ∧ (∀ c ∈ l, p c = true) ∧ ∀ c ∈ r, p c = true := by
  refine ⟨s.takeWhile p, ((s.dropWhile p).reverse.takeWhile p).reverse, ?_, ?_, ?_⟩
  · unfold trimWhere
    rw [List.append_assoc, ← List.reverse_append, List.takeWhile_append_dropWhile,
      List.reverse_reverse, List.takeWhile_append_dropWhile]
  · exact fun c hc => List.all_eq_true.mp List.all_takeWhile c hc
  · exact fun c hc => List.all_eq_true.mp List.all_takeWhile c (List.mem_reverse.mp hc)

theorem trimWhere_eq_iff (hne : m ≠ []) (hm : ∀ c ∈ m, p c = false) :
    trimWhere p s = m ↔
      ∃ l r, s = l ++ m ++ r ∧ (∀ c ∈ l, p c = true) ∧ ∀ c ∈ r, p c = true := by
  constructor
  · rintro rfl
    exact exists_trimWhere p s
  · rintro ⟨l, r, rfl, hl, hr⟩
    rw [trimWhere_append hne hm, List.dropWhile_eq_nil_iff.mpr hl,
      List.dropWhile_eq_nil_iff.mpr (by simpa using hr)]
    simp

end LabelPress.Text

import LabelPress.Text.Lowercase
import Mathlib.Data.List.Basic
import Mathlib.Tactic.SplitIfs

/-! Small letters. The blanks, and the characters of ASCII but for `k`, are the small form of
nothing but themselves and at most one ASCII capital. A text of such characters is the small form of
exactly the texts that differ from it in the case of ASCII letters. -/
namespace LabelPress.Text

theorem toNat_toLower (c : Char) :
    c.toLower.toNat = if 65 ≤ c.toNat ∧ c.toNat ≤ 90 then c.toNat + 32 else c.toNat := by
  have hrange : c.val ≥ 'A'.val ∧ c.val ≤ 'Z'.val ↔ 65 ≤ c.toNat ∧ c.toNat ≤ 90 := Iff.rfl
  unfold Char.toLower
  split_ifs with hval hcapital hcapital
  · have hsum : (c.val + 32).toNat = (c.val.toNat + 32) % 2 ^ 32 := UInt32.toNat_add c.val 32
    change (c.val + 32).toNat = c.val.toNat + 32
    have hle : c.val.toNat ≤ 90 := hcapital.2
    omega
  · exact absurd (hrange.mp hval) hcapital
  · exact absurd (hrange.mpr hcapital) hval
  · rfl

theorem isBlank_toLower (c : Char) : isBlank c.toLower = isBlank c := by
  rw [Bool.eq_iff_iff]
  simp only [isBlank, toNat_toLower, Bool.or_eq_true, Bool.and_eq_true, decide_eq_true_eq,
    beq_iff_eq]
  split_ifs <;> omega

def Caseless (c : Char) : Prop := c.toNat < 65 ∨ 90 < c.toNat ∧ c.toNat < 97 ∨ 122 < c.toNat

theorem toLower_eq_iff {c x : Char} (hx : Caseless x) : c.toLower = x ↔ c = x := by
  unfold Caseless at hx
  rw [← Char.toNat_inj, ← Char.toNat_inj, toNat_toLower]
  split_ifs <;> omega

theorem map_toLower_eq_iff {s t : List Char} (ht : ∀ x ∈ t, Caseless x) :
    s.map Char.toLower = t ↔ s = t := by
  induction s generalizing t with
  | nil => exact Iff.rfl
  | cons c s ih =>
    cases t with
    | nil => simp
    | cons x t =>
      rw [List.map_cons, List.cons.injEq, List.cons.injEq, toLower_eq_iff (ht x List.mem_cons_self),
        ih fun y hy => ht y (List.mem_cons_of_mem x hy)]

def blankRanges : List (Nat × Nat) :=
  [ (0x85, 0x85), (0xA0, 0xA0), (0x1680, 0x1680), (0x2000, 0x200A), (0x2028, 0x2029),
    (0x202F, 0x202F), (0x205F, 0x205F), (0x3000, 0x3000) ]

theorem exists_range_of_isBlank {c : Char} (h : isBlank c = true) (hc : 0x80 ≤ c.toNat) :
    ∃ b ∈ blankRanges, b.1 ≤ c.toNat ∧ c.toNat ≤ b.2 := by
  simp only [isBlank, Bool.or_eq_true, Bool.and_eq_true, decide_eq_true_eq, beq_iff_eq] at h
  simp only [blankRanges, List.exists_mem_cons_iff, List.not_mem_nil, false_and, exists_false]
  omega

structure CapitalRun.Apart (r : CapitalRun) : Prop where
  isChar : r.last + r.shift < 0xD800 ∨ 0xE000 ≤ r.first + r.shift ∧ r.last + r.shift < 0x110000
  notAscii : 0x80 ≤ r.first + r.shift ∨ r.first = r.last ∧ r.first + r.shift = 'k'.toNat
  notBlank : ∀ b ∈ blankRanges, (r.last < b.1 ∨ b.2 < r.first) ∧
    (r.last + r.shift < b.1 ∨ b.2 < r.first + r.shift)

theorem apart_of_mem : ∀ r ∈ capitalRuns, r.Apart := by
  have htable : ∀ r ∈ capitalRuns,
      (r.last + r.shift < 0xD800 ∨ 0xE000 ≤ r.first + r.shift ∧ r.last + r.shift < 0x110000) ∧
      (0x80 ≤ r.first + r.shift ∨ r.first = r.last ∧ r.first + r.shift = 'k'.toNat) ∧
      ∀ b ∈ blankRanges, (r.last < b.1 ∨ b.2 < r.first) ∧
        (r.last + r.shift < b.1 ∨ b.2 < r.first + r.shift) := by
    decide +kernel
  exact fun r hr => ⟨(htable r hr).1, (htable r hr).2.1, (htable r hr).2.2⟩

/-- A character that is no small letter but of an ASCII capital. -/
def Settled (c : Char) : Prop := c.toNat < 0x80 ∧ c ≠ 'k' ∨ isBlank c = true

namespace CapitalRun.Apart

variable {r : CapitalRun} {n : Nat}

theorem toNat_small (h : r.Apart) (hn : r.first ≤ n) (hn' : n ≤ r.last) :
    ((r.small n).toNat : Int) = n + r.shift := by
  have hchar := h.isChar
  have hascii := h.notAscii
  have hk : 'k'.toNat = 107 := rfl
  have hvalid : (n + r.shift).toNat.isValidChar := by
    unfold Nat.isValidChar
    omega
  have htoNat : (r.small n).toNat = (n + r.shift).toNat := by
    unfold CapitalRun.small Char.ofNat
    rw [dif_pos hvalid]
    rfl
  omega

theorem not_settled_small (h : r.Apart) (hn : r.first ≤ n) (hn' : n ≤ r.last) :
    ¬Settled (r.small n) := by
  have hsmall := h.toNat_small hn hn'
  have hk : 'k'.toNat = 107 := rfl
  rintro (⟨hascii, hne⟩ | hblank)
  · rw [Ne, ← Char.toNat_inj] at hne
    have hnotAscii := h.notAscii
    omega
  · by_cases hascii : (r.small n).toNat < 0x80
    · have hnotAscii := h.notAscii
      simp only [isBlank, Bool.or_eq_true, Bool.and_eq_true, decide_eq_true_eq, beq_iff_eq]
        at hblank
      omega
    · obtain ⟨b, hb, hlow, hhigh⟩ := exists_range_of_isBlank hblank (Nat.le_of_not_lt hascii)
      have hnotBlank := h.notBlank b hb
      omega

end CapitalRun.Apart

theorem small_cases (c : Char) : small c = ['i', '\u0307'] ∨ ∃ x, small c = [x] := by
  unfold small
  split_ifs
  · exact .inr ⟨_, rfl⟩
  · exact .inl rfl
  · split
    · exact .inr ⟨_, rfl⟩
    · exact .inr ⟨_, rfl⟩

theorem toLower_of_not_ascii {c : Char} (h : ¬c.toNat < 0x80) : c.toLower = c := by
  rw [← Char.toNat_inj, toNat_toLower, if_neg (by omega)]

theorem small_eq_iff {c x : Char} (hx : Settled x) : small c = [x] ↔ c.toLower = x := by
  unfold small
  split_ifs with hascii hdotted
  · rw [List.singleton_inj]
  · refine iff_of_false (by simp) ?_
    rw [toLower_of_not_ascii hascii]
    rintro rfl
    rcases hx with ⟨hascii', -⟩ | hblank
    · exact hascii hascii'
    · simp [isBlank, hdotted] at hblank
  · rw [toLower_of_not_ascii hascii]
    split
    · rename_i r hfind
      have hapart := apart_of_mem r (List.mem_of_find?_eq_some hfind)
      have hholds := List.find?_some hfind
      simp only [CapitalRun.holds, Bool.and_eq_true, decide_eq_true_eq] at hholds
      obtain ⟨⟨hlow, hhigh⟩, -⟩ := hholds
      rw [List.singleton_inj]
      refine iff_of_false ?_ ?_ <;> rintro rfl
      · exact hapart.not_settled_small hlow hhigh hx
      · rcases hx with ⟨hascii', -⟩ | hblank
        · exact hascii hascii'
        · obtain ⟨b, hb, hblow, hbhigh⟩ :=
            exists_range_of_isBlank hblank (Nat.le_of_not_lt hascii)
          have hnotBlank := (hapart.notBlank b hb).1
          omega
    · rw [List.singleton_inj]

theorem not_settled_dot : ¬Settled '\u0307' := by
  unfold Settled
  decide

theorem lowercase_eq_iff {s t : List Char} (ht : ∀ x ∈ t, Settled x) :
    lowercase s = t ↔ s.map Char.toLower = t := by
  induction s generalizing t with
  | nil => exact Iff.rfl
  | cons c s ih =>
    have hcons : lowercase (c :: s) = small c ++ lowercase s := List.flatMap_cons
    rw [hcons, List.map_cons]
    constructor
    · rintro rfl
      have hrest := (ih fun x hx => ht x (List.mem_append_right _ hx)).mp rfl
      rcases small_cases c with hdotted | ⟨x, hsmall⟩
      · exact absurd (ht '\u0307' (by simp [hdotted])) not_settled_dot
      · have hx := (small_eq_iff (ht x (by simp [hsmall]))).mp hsmall
        rw [hsmall, hrest, hx]
        rfl
    · rintro rfl
      rw [(small_eq_iff (ht _ List.mem_cons_self)).mpr rfl,
        (ih fun x hx => ht x (List.mem_cons_of_mem _ hx)).mpr rfl]
      rfl

end LabelPress.Text

import LabelPress.Printer.FontSize
import Mathlib.Algebra.Order.Group.Abs
import Mathlib.Algebra.Order.Group.Int
import Mathlib.Tactic.SplitIfs

/-! Font sizes. The scan over the presets keeps the nearest of those it has seen, and of two as near
as each other the smaller. Presets ascend in every column, so heights are ordered as sizes are. -/
namespace LabelPress.FontSize

namespace Preset

/-- No preset of the list is nearer to the size, and those that are as near are not smaller. -/
structure NearestAmong (p : Preset) (ps : List Preset) (size : Nat) : Prop where
  mem : p ∈ ps
  abs_le : ∀ q ∈ ps, |(p.nominal : ℤ) - size| ≤ |(q.nominal : ℤ) - size|
  nominal_le : ∀ q ∈ ps, |(p.nominal : ℤ) - size| = |(q.nominal : ℤ) - size| → p.nominal ≤ q.nominal

theorem abs_nominal_sub (p : Preset) (size : Nat) :
    |(p.nominal : ℤ) - size| = p.distance size := by
  unfold distance
  rcases Nat.le_total p.nominal size with h | h
  · rw [abs_of_nonpos (by omega)]
    omega
  · rw [abs_of_nonneg (by omega)]
    omega

variable {p q : Preset} {ps qs : List Preset} {size other : Nat}

theorem nearestAmong_iff :
    p.NearestAmong ps size ↔ p ∈ ps ∧ ∀ q ∈ ps, p.distance size < q.distance size ∨
      p.distance size = q.distance size ∧ p.nominal ≤ q.nominal := by
  constructor
  · rintro ⟨hmem, hle, hnominal⟩
    simp only [abs_nominal_sub, Int.ofNat_le, Int.natCast_inj] at hle hnominal
    refine ⟨hmem, fun q hq => ?_⟩
    rcases Nat.lt_or_eq_of_le (hle q hq) with hlt | heq
    · exact .inl hlt
    · exact .inr ⟨heq, hnominal q hq heq⟩
  · rintro ⟨hmem, hnearest⟩
    refine ⟨hmem, fun q hq => ?_, fun q hq htie => ?_⟩
    · have hq := hnearest q hq
      rw [abs_nominal_sub, abs_nominal_sub, Int.ofNat_le]
      omega
    · have hq := hnearest q hq
      rw [abs_nominal_sub, abs_nominal_sub, Int.natCast_inj] at htie
      omega

/-- A further preset, larger than those seen, takes over only if it is strictly nearer. -/
theorem NearestAmong.closer (h : p.NearestAmong ps size)
    (hlarger : ∀ p' ∈ ps, p'.nominal < q.nominal) :
    (closer size p q).NearestAmong (ps ++ [q]) size := by
  obtain ⟨hmem, hnearest⟩ := nearestAmong_iff.mp h
  have hsmaller := hlarger p hmem
  rw [nearestAmong_iff, List.forall_mem_append, List.forall_mem_singleton]
  unfold FontSize.closer
  split_ifs with hcloser
  · refine ⟨by simp, fun p' hp' => ?_, .inr ⟨rfl, Nat.le_refl _⟩⟩
    have hp := hnearest p' hp'
    omega
  · exact ⟨by simp [hmem], hnearest, by omega⟩

theorem NearestAmong.foldl (h : p.NearestAmong ps size)
    (hascending : (ps ++ qs).Pairwise fun p q => p.nominal < q.nominal) :
    (qs.foldl (FontSize.closer size) p).NearestAmong (ps ++ qs) size := by
  induction qs generalizing p ps with
  | nil => simpa using h
  | cons q qs ih =>
    have hlarger : ∀ p' ∈ ps, p'.nominal < q.nominal := fun p' hp' =>
      (List.pairwise_append.mp hascending).2.2 p' hp' q List.mem_cons_self
    rw [List.append_cons] at hascending ⊢
    exact ih (h.closer hlarger) hascending

theorem NearestAmong.nominal_mono (hp : p.NearestAmong ps size) (hq : q.NearestAmong ps other)
    (h : size ≤ other) : p.nominal ≤ q.nominal := by
  have hcloser := (nearestAmong_iff.mp hp).2 q hq.mem
  have hcloser' := (nearestAmong_iff.mp hq).2 p hp.mem
  unfold distance at hcloser hcloser'
  omega

end Preset

theorem presets_ascending : presets.Pairwise fun p q => p.nominal < q.nominal := by
  decide

theorem dots_le_iff (d : Density) :
    ∀ p ∈ presets, ∀ q ∈ presets, (p.dots d ≤ q.dots d ↔ p.nominal ≤ q.nominal) := by
  cases d <;> decide

theorem nearest_nearestAmong (size : Nat) : (nearest size).NearestAmong presets size := by
  have hfirst : smallest.NearestAmong [smallest] size := ⟨by simp, by simp, by simp⟩
  exact hfirst.foldl presets_ascending

theorem inDots_le_iff (size other : UInt32) (d : Density) :
    inDots size d ≤ inDots other d ↔
      (nearest size.toNat).nominal ≤ (nearest other.toNat).nominal :=
  dots_le_iff d _ (nearest_nearestAmong _).mem _ (nearest_nearestAmong _).mem

theorem inDots_eq_iff (size other : UInt32) (d : Density) :
    inDots size d = inDots other d ↔
      (nearest size.toNat).nominal = (nearest other.toNat).nominal := by
  rw [le_antisymm_iff, le_antisymm_iff, inDots_le_iff, inDots_le_iff]

/-- A size has the height of the preset nearest to it, the smaller one on a tie, whatever the
density. A larger size is never lower, and two sizes are as high as each other at one density only
if they are at all. -/
theorem inDots_nearest {size other : UInt32} (h : size ≤ other) :
    (∃ p : Preset, p.NearestAmong presets size.toNat ∧
      inDots size .dpi152 = p.dots152 ∧ inDots size .dpi203 = p.dots203 ∧
      inDots size .dpi300 = p.dots300 ∧ inDots size .dpi600 = p.dots600) ∧
      ∀ d, inDots size d ≤ inDots other d ∧
        (inDots size d = inDots other d ↔ ∀ d', inDots size d' = inDots other d') := by
  have hmono := (nearest_nearestAmong size.toNat).nominal_mono (nearest_nearestAmong other.toNat)
    (UInt32.le_iff_toNat_le.mp h)
  refine ⟨⟨nearest size.toNat, nearest_nearestAmong _, rfl, rfl, rfl, rfl⟩, fun d => ⟨?_, ?_⟩⟩
  · exact (inDots_le_iff size other d).mpr hmono
  · simp only [inDots_eq_iff, forall_const]

theorem inDots_nearest_halfway :
    (15 : UInt32) ≤ 60 ∧
      (∃ p : Preset, p.NearestAmong presets 15 ∧ p = ⟨14, 30, 40, 58, 119⟩ ∧
        inDots 15 .dpi152 = 30 ∧ inDots 15 .dpi203 = 40 ∧
        inDots 15 .dpi300 = 58 ∧ inDots 15 .dpi600 = 119) ∧
      ∀ d, inDots 15 d < inDots 60 d := by
  have hle : (15 : UInt32) ≤ 60 := by decide
  have hcolumn : ∀ p ∈ presets, p.dots152 = 30 → p = ⟨14, 30, 40, 58, 119⟩ := by decide
  obtain ⟨⟨p, hp, h152, h203, h300, h600⟩, hmono⟩ := inDots_nearest hle
  obtain rfl := hcolumn p hp.mem h152.symm
  refine ⟨hle, ⟨_, hp, rfl, h152, h203, h300, h600⟩, fun d => ?_⟩
  refine Nat.lt_of_le_of_ne (hmono d).1 fun heq => ?_
  exact absurd ((hmono d).2.mp heq .dpi152) (by decide)

end LabelPress.FontSize

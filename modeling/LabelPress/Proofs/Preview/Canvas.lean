import LabelPress.Preview.Canvas
import Mathlib.Tactic.SplitIfs

/-! Filling rectangles, pixel by pixel. The rectangle of a fill lies on the unbounded plane; the
fill sets exactly the pixels of the canvas that the rectangle covers. -/
namespace LabelPress

/-- Whether a point of the plane is in the rectangle. -/
def Fill.Covers (f : Fill) (p q : Int) : Prop :=
  (f.left.toInt ≤ p ∧ p < f.left.toInt + f.width.toInt) ∧
    f.top.toInt ≤ q ∧ q < f.top.toInt + f.height.toInt

instance (f : Fill) (p q : Int) : Decidable (f.Covers p q) :=
  inferInstanceAs (Decidable ((_ ∧ _) ∧ _ ∧ _))

namespace Canvas

variable {ink : LineColor} {pixels : Array LineColor}

@[simp] theorem size_setRun (ink : LineColor) (pixels : Array LineColor) (i count : Nat) :
    (setRun ink pixels i count).size = pixels.size := by
  induction count generalizing pixels i with
  | zero => rfl
  | succ count ih => rw [setRun, ih, Array.size_setIfInBounds]

@[simp] theorem size_setRows (ink : LineColor) (width count : Nat) (pixels : Array LineColor)
    (i rows : Nat) : (setRows ink width count pixels i rows).size = pixels.size := by
  induction rows generalizing pixels i with
  | zero => rfl
  | succ rows ih => rw [setRows, ih, size_setRun]

theorem getElem?_setRun {i count j : Nat} (hj : j < pixels.size) :
    (setRun ink pixels i count)[j]? =
      if i ≤ j ∧ j < i + count then some ink else pixels[j]? := by
  induction count generalizing pixels i with
  | zero =>
    rw [setRun, if_neg (by omega)]
  | succ count ih =>
    rw [setRun, ih (by rwa [Array.size_setIfInBounds]), Array.getElem?_setIfInBounds]
    by_cases hi : i = j
    · rw [if_neg (by omega), if_pos hi, if_pos (by omega), if_pos (by omega)]
    · rw [if_neg hi]
      congr 1
      simp only [eq_iff_iff]
      omega

theorem mem_run_iff {width x₀ count x y₀ y : Nat} (hx : x < width) (hcount : x₀ + count ≤ width) :
    y₀ * width + x₀ ≤ y * width + x ∧ y * width + x < y₀ * width + x₀ + count ↔
      y₀ = y ∧ x₀ ≤ x ∧ x < x₀ + count := by
  rcases Nat.lt_trichotomy y₀ y with h | rfl | h
  · have hrow := Nat.mul_le_mul_right width (Nat.succ_le_of_lt h)
    rw [Nat.succ_mul] at hrow
    omega
  · omega
  · have hrow := Nat.mul_le_mul_right width (Nat.succ_le_of_lt h)
    rw [Nat.succ_mul] at hrow
    omega

theorem getElem?_setRows {width x₀ count x y₀ y rows : Nat} (hx : x < width)
    (hcount : x₀ + count ≤ width) (hsize : y * width + x < pixels.size) :
    (setRows ink width count pixels (y₀ * width + x₀) rows)[y * width + x]? =
      if (y₀ ≤ y ∧ y < y₀ + rows) ∧ x₀ ≤ x ∧ x < x₀ + count then some ink
      else pixels[y * width + x]? := by
  induction rows generalizing pixels y₀ with
  | zero => rw [setRows, if_neg (by omega)]
  | succ rows ih =>
    have hnext : y₀ * width + x₀ + width = (y₀ + 1) * width + x₀ := by
      rw [Nat.succ_mul]
      omega
    rw [setRows, hnext, ih (by rwa [size_setRun]), getElem?_setRun hsize]
    simp only [mem_run_iff hx hcount]
    split_ifs <;> first | rfl | omega

def Valid (c : Canvas) : Prop := c.pixels.size = c.width * c.height

theorem valid_blank (width height : Nat) : (blank width height).Valid := by
  unfold Valid blank
  exact Array.size_replicate

theorem Valid.fill {c : Canvas} (h : c.Valid) (f : Fill) : (c.fill f).Valid := by
  unfold Valid at h ⊢
  unfold Canvas.fill
  dsimp only
  rw [size_setRows, h]

theorem Valid.index_lt {c : Canvas} (h : c.Valid) {x y : Nat} (hx : x < c.width)
    (hy : y < c.height) : y * c.width + x < c.pixels.size := by
  have hrow := Nat.mul_le_mul_right c.width (Nat.succ_le_of_lt hy)
  rw [Nat.succ_mul, Nat.mul_comm c.height] at hrow
  unfold Valid at h
  omega

theorem pixel_eq (c : Canvas) {x y : Nat} (hx : x < c.width) (hy : y < c.height) :
    c.pixel x y = c.pixels[y * c.width + x]?.getD .white := by
  unfold pixel
  rw [if_pos ⟨hx, hy⟩, Array.getD_eq_getD_getElem?]

theorem pixel_blank {width height x y : Nat} : (blank width height).pixel x y = .white := by
  unfold pixel blank
  split
  · rw [Array.getD_eq_getD_getElem?, Array.getElem?_replicate]
    split <;> rfl
  · rfl

theorem clip_le (start length : Int32) (limit : Nat) :
    (clip start length limit).1 ≤ limit ∧ (clip start length limit).2 ≤ limit := by
  unfold clip
  omega

theorem mem_clip_iff {start length : Int32} {limit x : Nat} (hx : x < limit) :
    (clip start length limit).1 ≤ x ∧ x < (clip start length limit).2 ↔
      start.toInt ≤ x ∧ (x : Int) < start.toInt + length.toInt := by
  unfold clip
  dsimp only
  omega

/-- A fill sets the pixels that its rectangle covers and keeps the others. -/
theorem pixel_fill {c : Canvas} (h : c.Valid) (f : Fill) {x y : Nat} (hx : x < c.width)
    (hy : y < c.height) :
    (c.fill f).pixel x y = if f.Covers x y then f.ink else c.pixel x y := by
  have hindex := h.index_lt hx hy
  have hwidth := clip_le f.left f.width c.width
  have hcovers : f.Covers x y ↔
      ((clip f.left f.width c.width).1 ≤ x ∧ x < (clip f.left f.width c.width).2) ∧
      (clip f.top f.height c.height).1 ≤ y ∧ y < (clip f.top f.height c.height).2 := by
    rw [mem_clip_iff hx, mem_clip_iff hy]
    exact Iff.rfl
  rw [pixel_eq (c.fill f) hx hy, pixel_eq c hx hy]
  simp only [hcovers]
  unfold fill
  dsimp only
  rw [getElem?_setRows hx (by omega) hindex]
  split_ifs <;> first | rfl | omega

@[simp] theorem width_fill (c : Canvas) (f : Fill) : (c.fill f).width = c.width := rfl

@[simp] theorem height_fill (c : Canvas) (f : Fill) : (c.fill f).height = c.height := rfl

theorem width_paint (c : Canvas) (fills : List Fill) : (c.paint fills).width = c.width := by
  unfold paint
  induction fills generalizing c with
  | nil => rfl
  | cons f fs ih => rw [List.foldl_cons, ih, width_fill]

theorem height_paint (c : Canvas) (fills : List Fill) : (c.paint fills).height = c.height := by
  unfold paint
  induction fills generalizing c with
  | nil => rfl
  | cons f fs ih => rw [List.foldl_cons, ih, height_fill]

theorem Valid.paint {c : Canvas} (h : c.Valid) (fills : List Fill) : (c.paint fills).Valid := by
  unfold Canvas.paint
  induction fills generalizing c with
  | nil => exact h
  | cons f fs ih => exact ih (h.fill f)

theorem paint_append (c : Canvas) (fills fills' : List Fill) :
    c.paint (fills ++ fills') = (c.paint fills).paint fills' :=
  List.foldl_append

/-- Fills of one colour set the pixels that any of them covers. -/
theorem pixel_paint {c : Canvas} (h : c.Valid) {fills : List Fill}
    (hink : ∀ f ∈ fills, f.ink = ink) {x y : Nat} (hx : x < c.width) (hy : y < c.height) :
    (c.paint fills).pixel x y = if ∃ f ∈ fills, f.Covers x y then ink else c.pixel x y := by
  induction fills generalizing c with
  | nil => simp [paint]
  | cons f fs ih =>
    rw [List.forall_mem_cons] at hink
    have hrest := ih (h.fill f) hink.2 hx hy
    rw [pixel_fill h f hx hy, hink.1] at hrest
    change ((c.fill f).paint fs).pixel x y = _
    rw [hrest]
    by_cases hfs : ∃ g ∈ fs, g.Covers x y
    · obtain ⟨g, hg, hcovers⟩ := hfs
      rw [if_pos ⟨g, hg, hcovers⟩, if_pos ⟨g, List.mem_cons_of_mem f hg, hcovers⟩]
    · rw [if_neg hfs]
      by_cases hf : f.Covers x y
      · rw [if_pos hf, if_pos ⟨f, List.mem_cons_self, hf⟩]
      · rw [if_neg hf, if_neg]
        rintro ⟨g, hg, hcovers⟩
        rcases List.mem_cons.mp hg with rfl | hg
        · exact hf hcovers
        · exact hfs ⟨g, hg, hcovers⟩

end Canvas

end LabelPress

import LabelPress.Proofs.Preview.Region

/-! Drawing a symbol, pixel by pixel. Its modules are drawn where they belong unless one of them is
further than a word from the first and would be beyond the canvas: it is then drawn a word away, and
that may be on the canvas. -/
namespace LabelPress

namespace Drawing

section

variable {c : Canvas} (hc : c.Valid) (hwidth : c.width ≤ 2147483647)
  (hheight : c.height ≤ 2147483647)
  {s : Qr.Symbol} (hs : s.size ≤ 177) (left top side : Int32) (hside : 1 ≤ side.toInt) {x y : Nat}
  (hx : x < c.width) (hy : y < c.height)

include hc hwidth hheight hs hside hx hy

theorem pixel_paint_draws :
    (c.paint (modules s left top side)).pixel x y =
      if s.Draws left.toInt top.toInt side.toInt x y then .black else c.pixel x y := by
  have hdraws : (∃ f ∈ modules s left top side, f.Covers x y) ↔
      s.Draws left.toInt top.toInt side.toInt x y :=
    covers_modules_iff_draws (by omega) hside (by omega) (by omega)
  rw [Canvas.pixel_paint hc (fun f hf => ink_of_mem_modules hf) hx hy]
  simp only [hdraws]

/-- A pixel is black after a symbol was drawn if it was black before or a dark module is drawn
there. Where all modules reach, that is a dark module that belongs there. -/
theorem pixel_paint_modules :
    (c.paint (modules s left top side)).pixel x y =
        (if s.Draws left.toInt top.toInt side.toInt x y then .black else c.pixel x y) ∧
      (ModulesReach left.toInt side.toInt s.size c.width →
        ModulesReach top.toInt side.toInt s.size c.height →
        (c.paint (modules s left top side)).pixel x y =
          if s.Covers left.toInt top.toInt side.toInt x y then .black else c.pixel x y) := by
  have hpixel := pixel_paint_draws hc hwidth hheight hs left top side hside hx hy
  refine ⟨hpixel, fun hleft htop => ?_⟩
  have hcovers := Qr.Symbol.draws_iff_covers (p := x) (q := y) hside hleft htop (by omega)
    (by omega)
  rw [hpixel]
  simp only [hcovers]

end

/-- Two dark modules, the second of which starts a word away from the first. -/
def diagonal : Qr.Symbol := ⟨2, #[true, false, false, true]⟩

theorem pixel_paint_modules_diagonal :
    (Canvas.blank 3 2).Valid ∧ diagonal.size ≤ 177 ∧
      ModulesReach (-2147483648) 2147483647 diagonal.size 3 ∧
      ModulesReach (-2147483648) 2147483647 diagonal.size 2 ∧
      ((Canvas.blank 3 2).paint (modules diagonal Int32.minValue Int32.minValue
        Int32.maxValue)).pixel 2 1 = .black := by
  have hvalid := Canvas.valid_blank 3 2
  have hwide : ModulesReach (-2147483648) 2147483647 diagonal.size 3 := by decide
  have hhigh : ModulesReach (-2147483648) 2147483647 diagonal.size 2 := by decide
  have hpixel := (pixel_paint_modules hvalid (by decide) (by decide) (s := diagonal) (by decide)
    Int32.minValue Int32.minValue Int32.maxValue (by decide) (x := 2) (y := 1) (by decide)
    (by decide)).2 hwide hhigh
  rw [if_pos (by decide)] at hpixel
  exact ⟨hvalid, by decide, hwide, hhigh, hpixel⟩

/-- Far to the left and above, with modules as great as words, the third module of the third row is
drawn over the canvas. The one that belongs there is light. -/
theorem not_pixel_paint_covers :
    ¬ ∀ (c : Canvas) (level : Qr.Level) (text : List UInt8) (s : Qr.Symbol)
      (left top side : Int32) (x y : Nat), c.Valid → c.width ≤ 2147483647 →
      c.height ≤ 2147483647 → Qr.symbol? level text = some s → 1 ≤ side.toInt → x < c.width →
      y < c.height → (c.paint (modules s left top side)).pixel x y =
        if s.Covers left.toInt top.toInt side.toInt x y then .black else c.pixel x y := by
  intro h
  have hsome : (Qr.symbol? .medium [49]).isSome := by decide +kernel
  obtain ⟨s, hs⟩ := Option.isSome_iff_exists.mp hsome
  obtain ⟨hsize, hlight, hdark⟩ := Qr.isDark_corner hs
  have hvalid := Canvas.valid_blank 1 1
  have hdrawn := pixel_paint_draws hvalid (by decide) (by decide) (Qr.size_le_of_symbol? hs)
    Int32.minValue Int32.minValue Int32.maxValue (by decide) (x := 0) (y := 0) (by decide)
    (by decide)
  have hbelongs := h (.blank 1 1) .medium [49] s Int32.minValue Int32.minValue Int32.maxValue 0 0
    hvalid (by decide) (by decide) hs (by decide) (by decide) (by decide)
  have hdraws : s.Draws Int32.minValue.toInt Int32.minValue.toInt Int32.maxValue.toInt
      (0 : Nat) (0 : Nat) := ⟨2, hsize, 2, hsize, hdark, by decide⟩
  have hcovers : ¬ s.Covers Int32.minValue.toInt Int32.minValue.toInt Int32.maxValue.toInt
      (0 : Nat) (0 : Nat) := by
    rintro ⟨x, -, y, -, hmodule, hcolumn, hrow⟩
    have hmin : Int32.minValue.toInt = -2147483648 := by decide
    have hmax : Int32.maxValue.toInt = 2147483647 := by decide
    rw [hmin, hmax] at hcolumn hrow
    -- Exactly one module in each direction reaches over the first pixel.
    obtain ⟨rfl, rfl⟩ : x = 1 ∧ y = 1 := by omega
    rw [hlight] at hmodule
    contradiction
  rw [if_pos hdraws, hbelongs, if_neg hcovers] at hdrawn
  contradiction

end Drawing

end LabelPress

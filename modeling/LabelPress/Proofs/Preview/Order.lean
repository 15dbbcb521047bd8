import LabelPress.Proofs.Preview.Region
import LabelPress.Proofs.Units.Order

/-! The order of elements along an axis. Every drawing starts at the pixel of its element's
position, and none of its rectangles starts before that, so elements are drawn in the order of their
positions. Positions in millimetres are ordered as the millimetres are. -/
namespace LabelPress

theorem le_clampedAdd {a b : Int32} (hb : 0 ≤ b.toInt) : a ≤ clampedAdd a b := by
  have hword := a.toInt_lt
  rw [Int32.le_iff_toInt_le, toInt_clampedAdd]
  omega

theorem clampedAdd_zero (a : Int32) : clampedAdd a 0 = a := by
  have hlow := a.le_toInt
  have hhigh := a.toInt_lt
  rw [← Int32.toInt_inj, toInt_clampedAdd, Int32.toInt_zero]
  omega

namespace Drawing

/-- One of the rectangles starts at a pixel, and none starts further left or further up. -/
structure StartsAt (fills : List Fill) (left top : Int32) : Prop where
  reached : ∃ f ∈ fills, f.left = left ∧ f.top = top
  le : ∀ f ∈ fills, left ≤ f.left ∧ top ≤ f.top

theorem startsAt_outline (left top : Int32) {width height thickness : Int32} (ink : LineColor)
    (hw : 1 ≤ width.toInt) (hh : 1 ≤ height.toInt) (ht : 1 ≤ thickness.toInt) :
    StartsAt (outline left top width height thickness ink) left top := by
  obtain ⟨hthickness, hright, hdown⟩ := toInt_border hw hh ht
  have hleft := Int32.le_refl left
  have htop := Int32.le_refl top
  refine ⟨⟨_, List.mem_cons_self, rfl, rfl⟩, ?_⟩
  simp only [outline, List.forall_mem_cons]
  exact ⟨⟨hleft, htop⟩, ⟨hleft, le_clampedAdd (by omega)⟩, ⟨hleft, htop⟩,
    ⟨le_clampedAdd (by omega), htop⟩, by simp⟩

theorem startsAt_modules {s : Qr.Symbol} (hs : s.size ≤ 177) (hsize : 0 < s.size)
    (hdark : s.isDark 0 0 = true) (left top : Int32) {side : Int32} (hside : 1 ≤ side.toInt) :
    StartsAt (modules s left top side) left top := by
  have hoffset {x : Nat} (hx : x < s.size) : 0 ≤ (clampedMul (Int32.ofNat x) side).toInt := by
    have hword : (Int32.ofNat x).toInt = x := Int32.toInt_ofNat_of_lt (by omega)
    have hproduct : 0 ≤ (x : Int) * side.toInt := Int.mul_nonneg (by omega) (by omega)
    rw [toInt_clampedMul, hword]
    omega
  have hzero : clampedMul (Int32.ofNat 0) side = 0 := by
    rw [← Int32.toInt_inj, toInt_clampedMul, Int32.toInt_ofNat_of_lt (by decide)]
    simp
  constructor
  · refine ⟨_, mem_modules_iff.mpr ⟨0, hsize, 0, hsize, hdark, rfl⟩, ?_⟩
    rw [hzero]
    exact ⟨clampedAdd_zero left, clampedAdd_zero top⟩
  · intro f hf
    obtain ⟨x, hx, y, hy, -, rfl⟩ := mem_modules_iff.mp hf
    exact ⟨le_clampedAdd (hoffset hx), le_clampedAdd (hoffset hy)⟩

/-- Along an axis, the first drawing does not start beyond the second one: each rectangle of the
second has one of the first that starts no further. -/
def StartsBefore (edge : Fill → Int32) (fills fills' : List Fill) : Prop :=
  ∀ f' ∈ fills', ∃ f ∈ fills, edge f ≤ edge f'

section

variable {fills fills' : List Fill} {left top left' top' : Int32} (h : StartsAt fills left top)
  (h' : StartsAt fills' left' top')

include h h'

theorem StartsAt.before_left (hle : left ≤ left') : StartsBefore Fill.left fills fills' := by
  obtain ⟨f, hf, hleft, -⟩ := h.reached
  intro f' hf'
  exact ⟨f, hf, hleft.trans_le (Int32.le_trans hle (h'.le f' hf').1)⟩

theorem StartsAt.before_top (hle : top ≤ top') : StartsBefore Fill.top fills fills' := by
  obtain ⟨f, hf, -, htop⟩ := h.reached
  intro f' hf'
  exact ⟨f, hf, htop.trans_le (Int32.le_trans hle (h'.le f' hf').2)⟩

end

end Drawing

namespace Position

def column (p : Position) : Int32 := p.x.getD 0

def row (p : Position) : Int32 := p.y.getD 0

end Position

theorem Element.startsAt_fills (density : Density) (e : Element) :
    Drawing.StartsAt (e.fills density) (Units.pixelsOfDots e.position.column density)
      (Units.pixelsOfDots e.position.row density) := by
  have hlength (dots : Int32) := Drawing.one_le_pixelLength dots density
  have hplaceholder (left top : Int32) :
      Drawing.StartsAt (Drawing.placeholder left top) left top :=
    Drawing.startsAt_outline left top .black (by decide) (by decide) (by decide)
  cases e with
  | graphicBox b =>
    exact Drawing.startsAt_outline _ _ b.color (hlength b.width) (hlength b.height)
      (hlength b.thickness)
  | qrCode c =>
    simp only [fills, Drawing.qrCode]
    cases hs : Drawing.symbol? c with
    | none => exact hplaceholder _ _
    | some s =>
      obtain ⟨hsize, hdark⟩ := Qr.isDark_origin hs
      exact Drawing.startsAt_modules (Qr.size_le_of_symbol? hs) hsize hdark _ _ (hlength _)
  | customCommand c => exact hplaceholder _ _
  | text t => exact hplaceholder _ _
  | native n => exact hplaceholder _ _

namespace Units

open Binary

/-- Every conversion keeps the order of what it converts, infinite lengths and dots that no single
holds included. So elements placed in millimetres are in the order of the millimetres, and pictures
show elements in the order of their positions. -/
theorem conversions_keep_order (d : Density) :
    (∀ x y : Single, x ≤ y → dotsOfMm x d ≤ dotsOfMm y d ∧ dotsOfPoints x d ≤ dotsOfPoints y d) ∧
      (∀ m n : Int32, m ≤ n → mmOfDots m d ≤ mmOfDots n d ∧
        pointsOfDots m d ≤ pointsOfDots n d ∧ pixelsOfDots m d ≤ pixelsOfDots n d) ∧
      (∀ x y x' y' : Single,
        (x ≤ x' → (Position.ofMm x y d).column ≤ (Position.ofMm x' y' d).column) ∧
          (y ≤ y' → (Position.ofMm x y d).row ≤ (Position.ofMm x' y' d).row)) ∧
      ∀ e e' : Element,
        (e.position.column ≤ e'.position.column →
            Drawing.StartsBefore Fill.left (e.fills d) (e'.fills d)) ∧
          (e.position.row ≤ e'.position.row →
            Drawing.StartsBefore Fill.top (e.fills d) (e'.fills d)) := by
  refine ⟨fun x y h => ⟨dotsOfMm_mono d h, dotsOfPoints_mono d h⟩,
    fun m n h => ⟨mmOfDots_mono d h, pointsOfDots_mono d h, pixelsOfDots_mono d h⟩,
    fun x y x' y' => ⟨dotsOfMm_mono d, dotsOfMm_mono d⟩, fun e e' => ?_⟩
  have hstart := e.startsAt_fills d
  have hstart' := e'.startsAt_fills d
  exact ⟨fun h => hstart.before_left hstart' (pixelsOfDots_mono d h),
    fun h => hstart.before_top hstart' (pixelsOfDots_mono d h)⟩

/-- A symbol at the greatest dots up to which every one is a single. -/
def symbolAtLimit : Element := .qrCode { text := "1", position := .ofDots 16777216 8 }

/-- A box one dot to the right, which no single tells from the one before. -/
def boxPastLimit : Element :=
  .graphicBox { position := .ofDots 16777217 8, width := 40, height := 40, color := .white }

theorem conversions_keep_order_limit :
    ((.infinite true : Single) ≤ .finite false 1 (-149) ∧ (16777216 : Int32) ≤ 16777217 ∧
        symbolAtLimit.position.column ≤ boxPastLimit.position.column) ∧
      dotsOfPoints (.infinite true) .dpi300 ≤ dotsOfPoints (.finite false 1 (-149)) .dpi300 ∧
      mmOfDots 16777216 .dpi300 ≤ mmOfDots 16777217 .dpi300 ∧
      (Position.ofMm (.infinite true) .nan .dpi300).column ≤
        (Position.ofMm (.finite false 1 (-149)) .nan .dpi300).column ∧
      Drawing.StartsBefore Fill.left (symbolAtLimit.fills .dpi300) (boxPastLimit.fills .dpi300) :=
  have hsingle : (.infinite true : Single) ≤ .finite false 1 (-149) := .bottom nofun
  have hdots : (16777216 : Int32) ≤ 16777217 := by decide
  have hcolumn : symbolAtLimit.position.column ≤ boxPastLimit.position.column := by decide
  have ⟨hmm, hword, hplaced, hdrawn⟩ := conversions_keep_order .dpi300
  ⟨⟨hsingle, hdots, hcolumn⟩, (hmm _ _ hsingle).2, (hword _ _ hdots).1,
    (hplaced _ _ _ _).1 hsingle, (hdrawn _ _).1 hcolumn⟩

end Units

end LabelPress

import LabelPress.Proofs.Preview.Painting

/-! Pictures of different sizes. The rectangles that draw an element do not depend on the canvas, so
two canvases on which the same rectangles are filled never differ at a pixel that both of them
have. -/
namespace LabelPress

namespace Canvas

def Agrees (c c' : Canvas) : Prop :=
  ∀ x y, x < c.width → y < c.height → x < c'.width → y < c'.height → c.pixel x y = c'.pixel x y

theorem agrees_blank (width height width' height' : Nat) :
    (blank width height).Agrees (blank width' height') := by
  intro x y _ _ _ _
  rw [pixel_blank, pixel_blank]

variable {c c' : Canvas} (hc : c.Valid) (hc' : c'.Valid)

include hc hc'

theorem Agrees.fill (h : c.Agrees c') (f : Fill) : (c.fill f).Agrees (c'.fill f) := by
  intro x y hx hy hx' hy'
  rw [width_fill] at hx hx'
  rw [height_fill] at hy hy'
  rw [pixel_fill hc f hx hy, pixel_fill hc' f hx' hy', h x y hx hy hx' hy']

theorem Agrees.paint (h : c.Agrees c') (fills : List Fill) :
    (c.paint fills).Agrees (c'.paint fills) := by
  unfold Canvas.paint
  induction fills generalizing c c' with
  | nil => exact h
  | cons f fs ih => exact ih (hc.fill f) (hc'.fill f) (h.fill hc hc' f)

end Canvas

namespace Element

/-- Elements that pictures show alike: of one kind, at one place, and for a box or a symbol with the
same outline or the same modules. -/
structure Alike (e e' : Element) : Prop where
  position : e.position = e'.position
  shape :
    match e, e' with
    | .graphicBox b, .graphicBox b' =>
      b.width = b'.width ∧ b.height = b'.height ∧ b.thickness = b'.thickness ∧ b.color = b'.color
    | .qrCode q, .qrCode q' =>
      q.text = q'.text ∧ q.options.magnification = q'.options.magnification ∧
        q.options.errorCorrection = q'.options.errorCorrection
    | e, e' => e.kind = e'.kind

theorem Alike.fills_eq {e e' : Element} (h : e.Alike e') (density : Density) :
    e.fills density = e'.fills density := by
  obtain ⟨hposition, hshape⟩ := h
  cases e <;> cases e' <;> first | contradiction | skip
  case graphicBox.graphicBox b b' =>
    obtain ⟨hwidth, hheight, hthickness, hcolor⟩ := hshape
    simp only [fills, Drawing.box, hposition, hwidth, hheight, hthickness, hcolor]
  case qrCode.qrCode q q' =>
    obtain ⟨htext, hmagnification, hcorrection⟩ := hshape
    simp only [fills, Drawing.qrCode, Drawing.symbol?, hposition, htext, hmagnification,
      hcorrection]
  all_goals simp only [fills, hposition]

theorem flatMap_fills_eq {es es' : List Element} (h : List.Forall₂ Alike es es')
    (density : Density) : es.flatMap (fills density) = es'.flatMap (fills density) := by
  induction h with
  | nil => rfl
  | cons he _ ih => rw [List.flatMap_cons, List.flatMap_cons, he.fills_eq, ih]

end Element

namespace Label

/-- Labels of one density whose elements are shown alike have the same picture, as far as the
smaller one reaches. -/
theorem preview_enlarged {l l' : Label} {width height width' height' : Int32}
    (hwidth : l.width = some width) (hheight : l.height = some height)
    (hwidth' : l'.width = some width') (hheight' : l'.height = some height')
    (hdensity : l.config.density = l'.config.density)
    (helements : List.Forall₂ Element.Alike l.elements l'.elements) :
    ∃ canvas canvas', l.preview = .ok canvas ∧ l'.preview = .ok canvas' ∧
      (canvas.width ≤ canvas'.width → canvas.height ≤ canvas'.height →
        ∀ x < canvas.width, ∀ y < canvas.height, canvas.pixel x y = canvas'.pixel x y) := by
  have hfills : l.fills = l'.fills := by
    unfold fills
    rw [hdensity, Element.flatMap_fills_eq helements]
  have hagrees := (Canvas.agrees_blank (canvasSide width l.config.density)
    (canvasSide height l.config.density) (canvasSide width' l'.config.density)
    (canvasSide height' l'.config.density)).paint (Canvas.valid_blank _ _)
      (Canvas.valid_blank _ _) l'.fills
  refine ⟨_, _, preview_eq_ok hwidth hheight, preview_eq_ok hwidth' hheight', ?_⟩
  rw [hfills]
  intro hwide hhigh x hx y hy
  exact hagrees x y hx hy (Nat.lt_of_lt_of_le hx hwide) (Nat.lt_of_lt_of_le hy hhigh)

/-- A symbol whose modules start a word away from each other, partly over a box. -/
def cropped : Label where
  width := some 80
  height := some 80
  elements :=
    [ .graphicBox { position := .ofDots (-40) (-40), width := 500, height := 60, thickness := 8 },
      .qrCode
        { text := "1", position := .ofDots Int32.minValue Int32.minValue,
          options := { magnification := ⟨"2147483647"⟩ } },
      .text { content := "far", position := .ofDots 10 60 } ]

/-- The same on a larger label, with all that pictures do not show changed. -/
def uncropped : Label where
  width := some 400
  height := some 200
  printMode := .rewind
  elements :=
    [ .graphicBox
        { position := .ofDots (-40) (-40), width := 500, height := 60, thickness := 8,
          rounding := 3 },
      .qrCode
        { text := "1", position := .ofDots Int32.minValue Int32.minValue,
          options := { magnification := ⟨"2147483647"⟩, model := .model1, rotation := .inverted } },
      .text { content := "away", position := .ofDots 10 60, rotation := .inverted } ]

theorem preview_enlarged_uncropped :
    List.Forall₂ Element.Alike cropped.elements uncropped.elements ∧
      ∃ canvas canvas', cropped.preview = .ok canvas ∧ uncropped.preview = .ok canvas' ∧
        canvas.width ≤ canvas'.width ∧ canvas.height ≤ canvas'.height ∧
        ∀ x < canvas.width, ∀ y < canvas.height, canvas.pixel x y = canvas'.pixel x y := by
  have helements : List.Forall₂ Element.Alike cropped.elements uncropped.elements :=
    .cons ⟨rfl, rfl, rfl, rfl, rfl⟩ (.cons ⟨rfl, rfl, rfl, rfl⟩ (.cons ⟨rfl, rfl⟩ .nil))
  obtain ⟨canvas, canvas', hcanvas, hcanvas', hpixels⟩ :=
    @preview_enlarged cropped uncropped _ _ _ _ rfl rfl rfl rfl rfl helements
  have hsize : canvas.width ≤ canvas'.width ∧ canvas.height ≤ canvas'.height := by
    cases hcanvas.symm.trans (preview_eq_ok rfl rfl)
    cases hcanvas'.symm.trans (preview_eq_ok rfl rfl)
    simp only [Canvas.width_paint, Canvas.height_paint, Canvas.blank]
    decide +kernel
  exact ⟨helements, canvas, canvas', hcanvas, hcanvas', hsize.1, hsize.2,
    hpixels hsize.1 hsize.2⟩

end Label

end LabelPress

import LabelPress.Proofs.Preview.Region

/-! The picture of a label, pixel by pixel: a pixel has the colour of the last element whose region
it is in. -/
namespace LabelPress

namespace Element

/-- The colour at a point: of the last element whose region it is in, or that of the ground. -/
def inkAt (density : Density) (es : List Element) (ground : LineColor) (p q : Int) : LineColor :=
  (es.reverse.find? fun e => e.covers density p q).elim ground ink

theorem inkAt_cons (density : Density) (e : Element) (es : List Element) (ground : LineColor)
    (p q : Int) :
    inkAt density (e :: es) ground p q =
      inkAt density es (if e.covers density p q then e.ink else ground) p q := by
  unfold inkAt
  rw [List.reverse_cons, List.find?_append]
  cases es.reverse.find? fun e => e.covers density p q with
  | some f => rfl
  | none => cases h : e.covers density p q <;> simp [h]

theorem pixel_paint_fills {density : Density} {es : List Element}
    (hes : ∀ e ∈ es, e.SymbolFits density) {c : Canvas} (hc : c.Valid) {x y : Nat}
    (hx : x < c.width) (hy : y < c.height) (hxword : x < 2147483647) (hyword : y < 2147483647) :
    (c.paint (es.flatMap (fills density))).pixel x y = inkAt density es (c.pixel x y) x y := by
  induction es generalizing c with
  | nil => rfl
  | cons e es ih =>
    rw [List.forall_mem_cons] at hes
    have hink : ∀ f ∈ e.fills density, f.ink = e.ink := fun f hf => ink_of_mem_fills hf
    have hpixel := Canvas.pixel_paint hc hink hx hy
    have hcovers := covers_fills_iff hes.1 (p := x) (q := y) (by omega) (by omega)
    rw [List.flatMap_cons, Canvas.paint_append, inkAt_cons,
      ih hes.2 (hc.paint _) (by rwa [Canvas.width_paint]) (by rwa [Canvas.height_paint]), hpixel]
    simp only [hcovers]

theorem pixel_paint_blank {density : Density} {es : List Element}
    (hes : ∀ e ∈ es, e.SymbolFits density) {width height : Nat} (hwidth : width ≤ 2147483647)
    (hheight : height ≤ 2147483647) {x y : Nat} (hx : x < width) (hy : y < height) :
    ((Canvas.blank width height).paint (es.flatMap (fills density))).pixel x y =
      inkAt density es .white x y := by
  rw [pixel_paint_fills hes (Canvas.valid_blank width height) hx hy (Nat.lt_of_lt_of_le hx hwidth)
    (Nat.lt_of_lt_of_le hy hheight), Canvas.pixel_blank]

end Element

namespace Label

theorem canvasSide_eq (dots : Int32) (density : Density) :
    (canvasSide dots density : Int) = max 1 (Units.pixelsOfDots dots density).toInt := by
  unfold canvasSide
  rw [Drawing.toInt_pixelLength]
  omega

theorem canvasSide_le (dots : Int32) (density : Density) :
    canvasSide dots density ≤ 2147483647 := by
  have hlength := (Drawing.pixelLength dots density).toInt_lt
  unfold canvasSide
  omega

theorem preview_eq_ok {l : Label} {width height : Int32} (hwidth : l.width = some width)
    (hheight : l.height = some height) :
    l.preview = .ok ((Canvas.blank (canvasSide width l.config.density)
      (canvasSide height l.config.density)).paint l.fills) := by
  unfold preview preview?
  rw [hwidth, hheight]
  rfl

/-- The picture of a label has its size, and every pixel the colour of the last element whose region
it is in. -/
theorem preview_pixels {l : Label} {width height : Int32} (hwidth : l.width = some width)
    (hheight : l.height = some height) (hfits : ∀ e ∈ l.elements, e.SymbolFits l.config.density) :
    ∃ canvas, l.preview = .ok canvas ∧
      (canvas.width : Int) = max 1 (Units.pixelsOfDots width l.config.density).toInt ∧
      (canvas.height : Int) = max 1 (Units.pixelsOfDots height l.config.density).toInt ∧
      canvas.pixels.size = canvas.width * canvas.height ∧
      ∀ x < canvas.width, ∀ y < canvas.height,
        canvas.pixel x y = Element.inkAt l.config.density l.elements .white x y := by
  have hpreview := preview_eq_ok hwidth hheight
  have hw := canvasSide_le width l.config.density
  have hh := canvasSide_le height l.config.density
  rw [← canvasSide_eq, ← canvasSide_eq]
  generalize canvasSide width l.config.density = w at hpreview hw ⊢
  generalize canvasSide height l.config.density = h at hpreview hh ⊢
  have hvalid := (Canvas.valid_blank w h).paint l.fills
  rw [Canvas.Valid, Canvas.width_paint, Canvas.height_paint] at hvalid
  refine ⟨_, hpreview, ?_⟩
  rw [Canvas.width_paint, Canvas.height_paint]
  exact ⟨rfl, rfl, hvalid, fun x hx y hy => Element.pixel_paint_blank hfits hw hh hx hy⟩

def spaced : QrField :=
  { text := "1", position := .ofDots 8 8, options := { magnification := ⟨" +3\n"⟩ } }

def eraser : GraphicBox := { width := 10, height := 10, thickness := 50, color := .white }

/-- A symbol, part of whose first module a white box erases. -/
def erased : Label where
  width := some 400
  height := some 200
  elements := [.qrCode spaced, .graphicBox eraser]

theorem covers_eraser (p q : Int) :
    (Element.graphicBox eraser).covers .dpi203 p q = true ↔ (0 ≤ p ∧ p < 13) ∧ 0 ≤ q ∧ q < 13 := by
  have hcorner : (Units.pixelsOfDots 0 .dpi203).toInt = 0 := by decide +kernel
  have hside : max 1 (Units.pixelsOfDots 10 .dpi203).toInt = 13 := by decide +kernel
  have hborder : max 1 (Units.pixelsOfDots 50 .dpi203).toInt = 63 := by decide +kernel
  unfold Element.covers
  simp only [eraser, Option.getD_none, hcorner, hside, hborder, Ring, decide_eq_true_iff]
  omega

theorem covers_spaced :
    ∃ s : Qr.Symbol, (2 < s.size ∧ s.isDark 0 0 = true ∧ s.isDark 1 1 = false ∧
      s.isDark 2 2 = true) ∧
      ∀ p q, (Element.qrCode spaced).covers .dpi203 p q = true ↔ s.Covers 10 10 4 p q := by
  have hsome : (Qr.symbol? .medium "1".toUTF8.toList).isSome := by decide +kernel
  obtain ⟨s, hs⟩ := Option.isSome_iff_exists.mp hsome
  refine ⟨s, ⟨(Qr.isDark_corner hs).1, (Qr.isDark_origin hs).2, (Qr.isDark_corner hs).2⟩, ?_⟩
  intro p q
  have hsymbol : spaced.symbol? = some s := hs
  have hplace : (Units.pixelsOfDots 8 .dpi203).toInt = 10 := by decide +kernel
  have hside : max 1 (Units.pixelsOfDots spaced.options.magnification.dots .dpi203).toInt = 4 := by
    decide +kernel
  have hx : spaced.position.x.getD 0 = 8 := rfl
  have hy : spaced.position.y.getD 0 = 8 := rfl
  unfold Element.covers
  simp only [hsymbol, hx, hy, hplace, decide_eq_true_iff, Magnification.exists_means_iff, hside]

theorem inkAt_erased (p q : Int) :
    Element.inkAt erased.config.density erased.elements .white p q =
      if (Element.graphicBox eraser).covers .dpi203 p q then .white
      else if (Element.qrCode spaced).covers .dpi203 p q then .black else .white := by
  change Element.inkAt .dpi203 [.qrCode spaced, .graphicBox eraser] .white p q = _
  rw [Element.inkAt_cons, Element.inkAt_cons]
  rfl

/-- The box hides a corner of the first module. The text makes modules four pixels wide; the second
one on the diagonal is light, and with modules of three pixels its last pixel would be dark. -/
theorem preview_pixels_erased :
    (erased.width = some 400 ∧ erased.height = some 200 ∧
      ∀ e ∈ erased.elements, e.SymbolFits erased.config.density) ∧
    ∃ canvas, erased.preview = .ok canvas ∧
      (canvas.width : Int) = max 1 (Units.pixelsOfDots 400 erased.config.density).toInt ∧
      (canvas.height : Int) = max 1 (Units.pixelsOfDots 200 erased.config.density).toInt ∧
      canvas.pixels.size = canvas.width * canvas.height ∧
      (∀ x < canvas.width, ∀ y < canvas.height,
        canvas.pixel x y = Element.inkAt erased.config.density erased.elements .white x y) ∧
      canvas.width = 500 ∧ canvas.height = 250 ∧ canvas.pixel 12 12 = .white ∧
      canvas.pixel 13 13 = .black ∧ canvas.pixel 17 17 = .white ∧ canvas.pixel 18 18 = .black := by
  have hfits : ∀ e ∈ erased.elements, e.SymbolFits erased.config.density := by
    simp only [erased, List.forall_mem_cons]
    exact ⟨Element.symbolFits_of_le (by decide +kernel), trivial, by simp⟩
  obtain ⟨canvas, hpreview, hwidth, hheight, hsize, hpixel⟩ :=
    preview_pixels (l := erased) rfl rfl hfits
  have hcolumns : canvas.width = 500 := by
    have h : max 1 (Units.pixelsOfDots 400 erased.config.density).toInt = 500 := by decide +kernel
    omega
  have hrows : canvas.height = 250 := by
    have h : max 1 (Units.pixelsOfDots 200 erased.config.density).toInt = 250 := by decide +kernel
    omega
  obtain ⟨s, ⟨hlarge, hfirst, hlight, hdark⟩, hcovers⟩ := covers_spaced
  have hpixel' (x y : Nat) (hx : x < 500) (hy : y < 250) :
      canvas.pixel x y =
        if (Element.graphicBox eraser).covers .dpi203 x y then .white
        else if (Element.qrCode spaced).covers .dpi203 x y then .black else .white :=
    (hpixel x (by omega) y (by omega)).trans (inkAt_erased x y)
  refine ⟨⟨rfl, rfl, hfits⟩, canvas, hpreview, hwidth, hheight, hsize, hpixel, hcolumns, hrows,
    ?_, ?_, ?_, ?_⟩
  · rw [hpixel' 12 12 (by decide) (by decide), if_pos ((covers_eraser _ _).mpr (by decide))]
  · rw [hpixel' 13 13 (by decide) (by decide), if_neg (mt (covers_eraser _ _).mp (by decide)),
      if_pos ((hcovers _ _).mpr ⟨0, by omega, 0, by omega, hfirst, by decide⟩)]
  · rw [hpixel' 17 17 (by decide) (by decide), if_neg (mt (covers_eraser _ _).mp (by decide)),
      if_neg]
    intro h
    obtain ⟨x, -, y, -, hmodule, hcolumn, hrow⟩ := (hcovers _ _).mp h
    obtain ⟨rfl, rfl⟩ : x = 1 ∧ y = 1 := by omega
    rw [hlight] at hmodule
    contradiction
  · rw [hpixel' 18 18 (by decide) (by decide), if_neg (mt (covers_eraser _ _).mp (by decide)),
      if_pos ((hcovers _ _).mpr ⟨2, hlarge, 2, hlarge, hdark, by decide⟩)]

end Label

end LabelPress

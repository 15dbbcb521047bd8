import LabelPress.Element.Basic
import LabelPress.Preview.Canvas
import LabelPress.Qr.Symbol

/-!
How elements are drawn, as lists of filled rectangles that know nothing of the canvas. Boxes show
their outline, QR symbols their modules, and everything else an outline that keeps its place.
-/

namespace LabelPress

namespace Drawing

/-- The four sides of a box as rectangles. A border wider than the box fills it. -/
def outline (left top width height thickness : Int32) (ink : LineColor) : List Fill :=
  let t := min (min thickness width) height
  [ ⟨left, top, width, t, ink⟩,
    ⟨left, clampedAdd top (height - t), width, t, ink⟩,
    ⟨left, top, t, height, ink⟩,
    ⟨clampedAdd left (width - t), top, t, height, ink⟩ ]

def placeholder (left top : Int32) : List Fill := outline left top 100 20 1 .black

def pixelLength (dots : Int32) (density : Density) : Int32 := max 1 (Units.pixelsOfDots dots density)

def box (b : GraphicBox) (density : Density) (left top : Int32) : List Fill :=
  outline left top (pixelLength b.width density) (pixelLength b.height density)
    (pixelLength b.thickness density) b.color

def modules (s : Qr.Symbol) (left top side : Int32) : List Fill :=
  (List.range s.size).flatMap fun y =>
    (List.range s.size).filterMap fun x =>
      if s.isDark x y then
        some
          ⟨clampedAdd left (clampedMul (Int32.ofNat x) side),
            clampedAdd top (clampedMul (Int32.ofNat y) side), side, side, .black⟩
      else none

def level : QrErrorCorrection → Qr.Level
  | .highDensity => .low
  | .standard => .medium
  | .high => .quartile
  | .ultraHigh => .high

def moduleSide (m : Magnification) (density : Density) : Int32 := pixelLength m.dots density

def symbol? (q : QrField) : Option Qr.Symbol :=
  Qr.symbol? (level q.options.errorCorrection) q.text.toUTF8.toList

/-- The symbol, or the placeholder if the text is too long for one. -/
def qrCode (q : QrField) (density : Density) (left top : Int32) : List Fill :=
  match symbol? q with
  | some s => modules s left top (moduleSide q.options.magnification density)
  | none => placeholder left top

end Drawing

/-- The rectangles that draw an element; a missing coordinate counts as zero. -/
def Element.fills (density : Density) (e : Element) : List Fill :=
  let left := Units.pixelsOfDots (e.position.x.getD 0) density
  let top := Units.pixelsOfDots (e.position.y.getD 0) density
  match e with
  | .qrCode q => Drawing.qrCode q density left top
  | .graphicBox b => Drawing.box b density left top
  | _ => Drawing.placeholder left top

end LabelPress

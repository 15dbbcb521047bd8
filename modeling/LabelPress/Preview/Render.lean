import LabelPress.Failure
import LabelPress.Label.Basic
import LabelPress.Preview.Drawing

/-!
The approximate picture of a label, a tenth of a millimetre to the pixel at every density. It shows
where elements are, never what the encoded program says.
-/

namespace LabelPress

namespace Label

def fills (l : Label) : List Fill := l.elements.flatMap (Element.fills l.config.density)

def canvasSide (dots : Int32) (density : Density) : Nat :=
  (Drawing.pixelLength dots density).toInt.toNat

def preview? (l : Label) : Option Canvas := do
  let width ← l.width
  let height ← l.height
  let d := l.config.density
  pure ((Canvas.blank (canvasSide width d) (canvasSide height d)).paint l.fills)

def preview (l : Label) : Except Failure Canvas :=
  match l.preview? with
  | none => .error .previewUnavailable
  | some canvas => .ok canvas

end Label

end LabelPress

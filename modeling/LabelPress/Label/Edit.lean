import LabelPress.Label.Document

/-!
Edits of a label, one after the other. An edit changes what it names and leaves the rest alone, and
nothing is encoded while a label is edited. Only a size in millimetres looks at another field, the
density of its own turn.
-/

namespace LabelPress.Label

inductive Edit
  | size (width height : Int32)
  | sizeMm (width height : Binary.Single)
  | width (width : Option Int32)
  | height (height : Option Int32)
  | printMode (printMode : PrintMode)
  | defaultFont (font : Font) (size : UInt32)
  | density (density : Density)
  | font (font : Option Font)
  | fontSize (size : Option UInt32)
  | add (element : Element)
  /-- Writes the document of the label and goes on with the label of that document. -/
  | reload
deriving DecidableEq, Repr

def edit (l : Label) : Edit → Except Json.Fault Label
  | .size width height => .ok (l.sized width height)
  | .sizeMm width height => .ok (l.sizedMm width height)
  | .width width => .ok { l with width }
  | .height height => .ok { l with height }
  | .printMode printMode => .ok (l.inMode printMode)
  | .defaultFont font size => .ok (l.withDefaultFont font size)
  | .density density => .ok (l.withDensity density)
  | .font font => .ok { l with config := { l.config with defaultFont := font } }
  | .fontSize size => .ok { l with config := { l.config with defaultFontSize := size } }
  | .add element => .ok (l.add element)
  | .reload => ofDocument l.render

def editAll (l : Label) (edits : List Edit) : Except Json.Fault Label := edits.foldlM edit l

end LabelPress.Label

import LabelPress.Element.Basic

/-!
A label: its size, print mode, printer configuration and elements, and the program they make. The
configuration counts as it is when the label is encoded, whenever the elements were added.
-/

namespace LabelPress

structure Label where
  width : Option Int32 := none
  height : Option Int32 := none
  printMode : PrintMode := default
  config : PrinterConfig := {}
  /-- In the order in which they are drawn and written. -/
  elements : List Element := []
deriving DecidableEq, Repr, Inhabited

namespace Label

def ofConfig (config : PrinterConfig) : Label := { config }

def sized (l : Label) (width height : Int32) : Label :=
  { l with width := some width, height := some height }

def sizedMm (l : Label) (width height : Binary.Single) : Label :=
  l.sized (Units.dotsOfMm width l.config.density) (Units.dotsOfMm height l.config.density)

def inMode (l : Label) (printMode : PrintMode) : Label := { l with printMode }

def add (l : Label) (e : Element) : Label := { l with elements := l.elements ++ [e] }

def withDefaultFont (l : Label) (font : Font) (size : UInt32) : Label :=
  { l with config := { l.config with defaultFont := some font, defaultFontSize := some size } }

def withDensity (l : Label) (density : Density) : Label :=
  { l with config := { l.config with density } }

def dimensionLine (mnemonic : String) : Option Int32 → String
  | some n => Zpl.commandLine mnemonic [Zpl.parameter n.toInt]
  | none => ""

def fontLine (c : PrinterConfig) : String :=
  match c.resolvedFont with
  | some (font, dots) =>
    Zpl.commandLine Zpl.Mnemonic.changeFont [font.token, Zpl.parameter dots]
  | none => ""

/-- The program: start, print mode, the dimensions and the default font where they are set, the
elements in order, and end. -/
def zpl (l : Label) : String :=
  Zpl.startFormat ++ l.printMode.zpl
    ++ dimensionLine Zpl.Mnemonic.printWidth l.width
    ++ dimensionLine Zpl.Mnemonic.labelLength l.height
    ++ fontLine l.config
    ++ String.join (l.elements.map (Element.zpl l.config))
    ++ Zpl.endFormat

end Label

end LabelPress

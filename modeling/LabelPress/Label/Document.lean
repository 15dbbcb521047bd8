import LabelPress.Element.Document
import LabelPress.Label.Basic

/-!
Labels as JSON documents: writing a label, and reading one back. All members of a label and of its
configuration may be left out.
-/

namespace LabelPress

open Json Json.Reader

namespace PrinterConfig

def toValue (c : PrinterConfig) : Value :=
  .object
    [ ("density", .ofName c.density),
      ("default_font", .ofOption .ofName c.defaultFont),
      ("default_font_size", .ofOption (fun n => .integer n.toNat) c.defaultFontSize) ]

structure Draft where
  density : Option Density := none
  defaultFont : Option (Option Font) := none
  defaultFontSize : Option (Option UInt32) := none

def put (depth : Nat) (d : Draft) : String → Reader Draft
  | "density" => do pure { d with density := ← fillFromText depth "density" d.density }
  | "default_font" => do
    pure { d with defaultFont := ← fillFromText depth "default_font" d.defaultFont }
  | "default_font_size" => do
    pure { d with defaultFontSize := ← fillFromText depth "default_font_size" d.defaultFontSize }
  | _ => do colon; skipValue; pure d

def readMembers (depth : Nat) : Reader PrinterConfig := do
  let d ← members (put depth) {}
  pure
    { density := d.density.getD default
      defaultFont := d.defaultFont.getD none
      defaultFontSize := d.defaultFontSize.getD none }

def readItems (depth : Nat) : Reader PrinterConfig := do
  let density ← itemOr depth true default
  let defaultFont ← itemOr depth false none
  let defaultFontSize ← itemOr depth false none
  listEnd
  pure { density, defaultFont, defaultFontSize }

instance : FromText PrinterConfig :=
  ⟨fun depth => readObjectOrList "PrinterConfig" depth readMembers readItems⟩

end PrinterConfig

namespace Label

def toValue (l : Label) : Value :=
  .object
    [ ("width", .ofOption .ofInt32 l.width),
      ("height", .ofOption .ofInt32 l.height),
      ("print_mode", .ofName l.printMode),
      ("config", l.config.toValue),
      ("elements", .list (l.elements.map Element.toValue)) ]

def render (l : Label) : String := l.toValue.pretty

instance : FromText (List Element) where
  read depth := do
    match ← peek with
    | none => fail .endInValue
    | some '[' => enter depth fun depth => items (FromText.read depth)
    | some _ => mismatch .sequence

structure Draft where
  width : Option (Option Int32) := none
  height : Option (Option Int32) := none
  printMode : Option PrintMode := none
  config : Option PrinterConfig := none
  elements : Option (List Element) := none

def put (depth : Nat) (d : Draft) : String → Reader Draft
  | "width" => do pure { d with width := ← fillFromText depth "width" d.width }
  | "height" => do pure { d with height := ← fillFromText depth "height" d.height }
  | "print_mode" => do pure { d with printMode := ← fillFromText depth "print_mode" d.printMode }
  | "config" => do pure { d with config := ← fillFromText depth "config" d.config }
  | "elements" => do pure { d with elements := ← fillFromText depth "elements" d.elements }
  | _ => do colon; skipValue; pure d

def readMembers (depth : Nat) : Reader Label := do
  let d ← members (put depth) {}
  pure
    { width := d.width.getD none
      height := d.height.getD none
      printMode := d.printMode.getD default
      config := d.config.getD {}
      elements := d.elements.getD [] }

def readItems (depth : Nat) : Reader Label := do
  let width ← itemOr depth true none
  let height ← itemOr depth false none
  let printMode ← itemOr depth false default
  let config ← itemOr depth false {}
  let elements ← itemOr depth false []
  listEnd
  pure { width, height, printMode, config, elements }

instance : FromText Label := ⟨fun depth => readObjectOrList "Label" depth readMembers readItems⟩

def ofDocument (text : String) : Except Fault Label := parse (FromText.read maxDepth) text

end Label

end LabelPress

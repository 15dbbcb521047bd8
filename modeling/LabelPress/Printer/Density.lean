import LabelPress.Binary.Number
import LabelPress.Failure
import LabelPress.Named
import LabelPress.Text.Lowercase

/-!
Print head densities, and reading one from what a user types.
-/

namespace LabelPress

/-- The resolution class of a print head, lowest first. -/
inductive Density
  | dpi152
  | dpi203
  | dpi300
  | dpi600
deriving DecidableEq, Repr

namespace Density

instance : Inhabited Density := ⟨dpi203⟩

instance : Named Density where
  all := [dpi152, dpi203, dpi300, dpi600]
  name
    | dpi152 => "dpi152"
    | dpi203 => "dpi203"
    | dpi300 => "dpi300"
    | dpi600 => "dpi600"

def dpi : Density → Nat
  | dpi152 => 152
  | dpi203 => 203
  | dpi300 => 300
  | dpi600 => 600

/-- Dots per millimetre as a single; only 11.8 is not exact. -/
def dotsPerMm : Density → Binary.Single
  | dpi152 => .ofRat 6
  | dpi203 => .ofRat 8
  | dpi300 => .ofRat (59 / 5)
  | dpi600 => .ofRat 24

def display (d : Density) : String := toString d.dpi ++ " dpi"

def dropUnit : List Char → List Char
  | 'd' :: 'p' :: 'i' :: r => dropUnit r
  | s => s

/-- Drops every trailing `dpi`, given the text backwards. -/
def dropUnitBackwards : List Char → List Char
  | 'i' :: 'p' :: 'd' :: r => dropUnitBackwards r
  | s => s

/-- What is left of a text in small letters without the units at its ends, the underscores inside
those, and the blanks inside these. -/
def bare (text : List Char) : List Char :=
  let rest := (dropUnitBackwards (dropUnit text).reverse).reverse
  Text.trim (Text.trimWhere (· == '_') rest)

def numeral (text : List Char) : List Char := bare (Text.lowercase (Text.trim text))

/-- The class that a text names; the last has two names. -/
def ofText? (text : String) : Option Density :=
  let n := numeral text.toList
  if n = ['1', '5', '2'] then some dpi152
  else if n = ['2', '0', '3'] then some dpi203
  else if n = ['3', '0', '0'] then some dpi300
  else if n = ['6', '0', '0'] ∨ n = ['6', '0', '8'] then some dpi600
  else none

def ofText (text : String) : Except Failure Density :=
  match ofText? text with
  | none => .error (.unknownDensity text)
  | some d => .ok d

end Density

end LabelPress

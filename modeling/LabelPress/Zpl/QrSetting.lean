import LabelPress.Named
import LabelPress.Text.Blank
import LabelPress.Text.Decimal

/-!
The parameters of a QR code field, each with its letter on the wire.
-/

namespace LabelPress

inductive QrModel
  | model1
  | model2
deriving DecidableEq, Repr

namespace QrModel

instance : Inhabited QrModel := ⟨model2⟩

instance : Named QrModel where
  all := [model1, model2]
  name
    | model1 => "model1"
    | model2 => "model2"

def token : QrModel → String
  | model1 => "1"
  | model2 => "2"

end QrModel

/-- Error correction, the most redundant level first. -/
inductive QrErrorCorrection
  | ultraHigh
  | high
  | standard
  | highDensity
deriving DecidableEq, Repr

namespace QrErrorCorrection

instance : Inhabited QrErrorCorrection := ⟨standard⟩

instance : Named QrErrorCorrection where
  all := [ultraHigh, high, standard, highDensity]
  name
    | ultraHigh => "ultra_high"
    | high => "high"
    | standard => "standard"
    | highDensity => "high_density"

def token : QrErrorCorrection → String
  | ultraHigh => "H"
  | high => "Q"
  | standard => "M"
  | highDensity => "L"

end QrErrorCorrection

/-- Who picks the character mode: the printer, or the field. -/
inductive QrInputMode
  | automatic
  | manual
deriving DecidableEq, Repr

namespace QrInputMode

instance : Inhabited QrInputMode := ⟨manual⟩

instance : Named QrInputMode where
  all := [automatic, manual]
  name
    | automatic => "automatic"
    | manual => "manual"

def token : QrInputMode → String
  | automatic => "A"
  | manual => "M"

end QrInputMode

inductive QrCharacterMode
  | numeric
  | alphanumeric
  | byte
  | kanji
deriving DecidableEq, Repr

namespace QrCharacterMode

instance : Inhabited QrCharacterMode := ⟨alphanumeric⟩

instance : Named QrCharacterMode where
  all := [numeric, alphanumeric, byte, kanji]
  name
    | numeric => "numeric"
    | alphanumeric => "alphanumeric"
    | byte => "byte"
    | kanji => "kanji"

def token : QrCharacterMode → String
  | numeric => "N"
  | alphanumeric => "A"
  | byte => "B"
  | kanji => "K"

end QrCharacterMode

/-- How many dots a module is wide, as text. It is written as it stands and never checked; the
empty text leaves the choice to the printer. -/
structure Magnification where
  text : String
deriving DecidableEq, Repr

namespace Magnification

instance : Inhabited Magnification := ⟨⟨""⟩⟩

/-- What printers take when none is given. -/
def unset : Int32 := 2

/-- The dots per module that a picture of the symbol uses: the number that the text shows between
blanks, if it is positive and fits a word. -/
def dots (m : Magnification) : Int32 :=
  match Text.readInt? (Text.trim m.text.toList) with
  | some n => if 0 < n ∧ n ≤ 2147483647 then Int32.ofInt n else unset
  | none => unset

end Magnification

end LabelPress

import LabelPress.Position
import LabelPress.Printer.Config
import LabelPress.Zpl.QrSetting
import LabelPress.Zpl.Token

/-!
What can be placed on a label. Each element knows its own fields and how it is written; it sees the
printer configuration only while it is written.
-/

namespace LabelPress

structure TextField where
  position : Position := {}
  font : Option Font := none
  /-- In nominal points. -/
  fontSize : Option UInt32 := none
  rotation : Rotation := default
  content : String
deriving DecidableEq, Repr

namespace TextField

def ofContent (content : String) : TextField := { content }

def placed (t : TextField) (x y : Int32) : TextField := { t with position := .ofDots x y }

def inFont (t : TextField) (font : Font) (size : UInt32) : TextField :=
  { t with font := some font, fontSize := some size }

def turned (t : TextField) (rotation : Rotation) : TextField := { t with rotation }

/-- The font is selected only if both the font and its size are set. -/
def fontSelection (t : TextField) (density : Density) : String :=
  match t.font, t.fontSize with
  | some font, some size =>
    let dots := Zpl.parameter (FontSize.inDots size density)
    Zpl.command Zpl.Mnemonic.font [font.token ++ t.rotation.token, dots, dots]
  | _, _ => ""

def zpl (t : TextField) (config : PrinterConfig) : String :=
  t.position.typeset ++ t.fontSelection config.density
    ++ Zpl.fieldData t.content ++ Zpl.fieldSeparator

end TextField

structure QrOptions where
  rotation : Rotation := default
  model : QrModel := default
  inputMode : QrInputMode := default
  /-- Written only when the input is manual. -/
  characterMode : QrCharacterMode := default
  errorCorrection : QrErrorCorrection := default
  magnification : Magnification := default
deriving DecidableEq, Repr, Inhabited

/-- A QR symbol. Its position is used by pictures of the label only; on the wire a field origin in
front of it places it. -/
structure QrField where
  position : Position := {}
  options : QrOptions := {}
  text : String
deriving DecidableEq, Repr

namespace QrField

def ofText (text : String) : QrField := { text }

def placed (q : QrField) (x y : Int32) : QrField := { q with position := .ofDots x y }

def turned (q : QrField) (rotation : Rotation) : QrField :=
  { q with options := { q.options with rotation } }

def ofModel (q : QrField) (model : QrModel) : QrField :=
  { q with options := { q.options with model } }

def withInputMode (q : QrField) (inputMode : QrInputMode) : QrField :=
  { q with options := { q.options with inputMode } }

def automatic (q : QrField) : QrField := q.withInputMode .automatic

def manual (q : QrField) (characterMode : QrCharacterMode) : QrField :=
  { q with options := { q.options with inputMode := .manual, characterMode } }

def withErrorCorrection (q : QrField) (errorCorrection : QrErrorCorrection) : QrField :=
  { q with options := { q.options with errorCorrection } }

def magnified (q : QrField) (text : String) : QrField :=
  { q with options := { q.options with magnification := ⟨text⟩ } }

/-- The level letter again, the input mode, and the character mode if it is given by hand. -/
def dataHeader (o : QrOptions) : String :=
  o.errorCorrection.token ++ o.inputMode.token ++ ","
    ++ (match o.inputMode with
      | .manual => o.characterMode.token
      | .automatic => "")

def zpl (q : QrField) : String :=
  let o := q.options
  Zpl.commandLine Zpl.Mnemonic.qrCode
      [o.rotation.token, o.model.token, o.magnification.text, o.errorCorrection.token]
    ++ Zpl.fieldData (dataHeader o ++ q.text) ++ Zpl.fieldSeparator

end QrField

/-- A box, or a line when one side equals the border. Nothing is checked; the printer clamps. -/
structure GraphicBox where
  position : Position := {}
  width : Int32
  height : Int32
  thickness : Int32 := 1
  color : LineColor := default
  /-- Corner rounding, from square at 0 to 8. -/
  rounding : UInt8 := 0
deriving DecidableEq, Repr

namespace GraphicBox

def ofSize (width height : Int32) : GraphicBox := { width, height }

def horizontalLine (length thickness : Int32) : GraphicBox :=
  { width := length, height := thickness, thickness }

def verticalLine (length thickness : Int32) : GraphicBox :=
  { width := thickness, height := length, thickness }

def placed (b : GraphicBox) (x y : Int32) : GraphicBox := { b with position := .ofDots x y }

def withThickness (b : GraphicBox) (thickness : Int32) : GraphicBox := { b with thickness }

def colored (b : GraphicBox) (color : LineColor) : GraphicBox := { b with color }

def rounded (b : GraphicBox) (rounding : UInt8) : GraphicBox := { b with rounding }

def zpl (b : GraphicBox) : String :=
  b.position.origin
    ++ Zpl.command Zpl.Mnemonic.graphicBox
      [ Zpl.parameter b.width.toInt, Zpl.parameter b.height.toInt,
        Zpl.parameter b.thickness.toInt, b.color.token, Zpl.parameter b.rounding.toNat ]
    ++ Zpl.fieldSeparator

end GraphicBox

/-- A command of three numbers. The position gives the first two, and a missing number leaves its
slot empty. There is no line end: the field that it configures follows directly. -/
structure CustomCommand where
  mnemonic : String
  position : Position := {}
  z : Option Int32 := none
deriving DecidableEq, Repr

namespace CustomCommand

def ofParameters (mnemonic : String) (x y z : Int32) : CustomCommand :=
  { mnemonic, position := .ofDots x y, z := some z }

def bare (mnemonic : String) : CustomCommand := { mnemonic }

def zpl (c : CustomCommand) : String :=
  Zpl.command c.mnemonic
    [Zpl.parameter? c.position.x, Zpl.parameter? c.position.y, Zpl.parameter? c.z]

end CustomCommand

/-- ZPL written as it is. Its position is used by pictures of the label only. -/
structure NativeZpl where
  position : Position := {}
  zpl : String
deriving DecidableEq, Repr

def NativeZpl.ofZpl (zpl : String) : NativeZpl := { zpl }

inductive Element
  | customCommand (command : CustomCommand)
  | qrCode (field : QrField)
  | text (field : TextField)
  | graphicBox (box : GraphicBox)
  | native (native : NativeZpl)
deriving DecidableEq, Repr

namespace Element

inductive Kind
  | customCommand
  | qrCode
  | text
  | graphicBox
  | native
deriving DecidableEq, Repr

instance : Named Kind where
  all := [.customCommand, .qrCode, .text, .graphicBox, .native]
  name
    | .customCommand => "custom_command"
    | .qrCode => "qr_code"
    | .text => "text"
    | .graphicBox => "graphic_box"
    | .native => "native"

def kind : Element → Kind
  | customCommand _ => .customCommand
  | qrCode _ => .qrCode
  | text _ => .text
  | graphicBox _ => .graphicBox
  | native _ => .native

def position : Element → Position
  | customCommand e => e.position
  | qrCode e => e.position
  | text e => e.position
  | graphicBox e => e.position
  | native e => e.position

def withPosition (p : Position) : Element → Element
  | customCommand e => customCommand { e with position := p }
  | qrCode e => qrCode { e with position := p }
  | text e => text { e with position := p }
  | graphicBox e => graphicBox { e with position := p }
  | native e => native { e with position := p }

def zpl (config : PrinterConfig) : Element → String
  | customCommand e => e.zpl
  | qrCode e => e.zpl
  | text e => e.zpl config
  | graphicBox e => e.zpl
  | native e => e.zpl

end Element

end LabelPress

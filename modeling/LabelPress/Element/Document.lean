import LabelPress.Element.Basic
import LabelPress.Json.Printer
import LabelPress.Json.Record

/-!
Elements in documents. An element is an object with its kind as the member `type`; its position and
the options of a QR symbol stand among its own members. The kind may come last, so the members of an
element are read as values first. The five kinds can also be read on their own, without a `type`.
-/

namespace LabelPress

open Json Json.Reader

namespace Json.Value

def ofInt32 (n : Int32) : Value := .integer n.toInt

def ofName {α : Type} [Named α] (a : α) : Value := .string (Named.name a)

def ofOption {α : Type} (f : α → Value) : Option α → Value
  | some a => f a
  | none => .null

end Json.Value

def Position.members (p : Position) : List (String × Value) :=
  [("x", .ofOption .ofInt32 p.x), ("y", .ofOption .ofInt32 p.y)]

def QrOptions.members (o : QrOptions) : List (String × Value) :=
  [ ("rotation", .ofName o.rotation),
    ("model", .ofName o.model),
    ("input_mode", .ofName o.inputMode),
    ("character_mode", .ofName o.characterMode),
    ("error_correction", .ofName o.errorCorrection),
    ("magnification", .string o.magnification.text) ]

def TextField.members (t : TextField) : List (String × Value) :=
  t.position.members ++
    [ ("font", .ofOption .ofName t.font),
      ("font_size", .ofOption (fun n => .integer n.toNat) t.fontSize),
      ("rotation", .ofName t.rotation),
      ("content", .string t.content) ]

def QrField.members (q : QrField) : List (String × Value) :=
  q.position.members ++ q.options.members ++ [("text", .string q.text)]

def GraphicBox.members (b : GraphicBox) : List (String × Value) :=
  b.position.members ++
    [ ("width", .ofInt32 b.width),
      ("height", .ofInt32 b.height),
      ("thickness", .ofInt32 b.thickness),
      ("color", .ofName b.color),
      ("rounding", .integer b.rounding.toNat) ]

def CustomCommand.members (c : CustomCommand) : List (String × Value) :=
  ("mnemonic", .string c.mnemonic) :: c.position.members ++ [("z", .ofOption .ofInt32 c.z)]

def NativeZpl.members (n : NativeZpl) : List (String × Value) :=
  n.position.members ++ [("zpl", .string n.zpl)]

namespace Element

def members : Element → List (String × Value)
  | customCommand e => e.members
  | qrCode e => e.members
  | text e => e.members
  | graphicBox e => e.members
  | native e => e.members

def toValue (e : Element) : Value := .object (("type", .ofName e.kind) :: e.members)

end Element

namespace Position

structure Draft where
  x : Option (Option Int32) := none
  y : Option (Option Int32) := none

instance : Record Position where
  Draft := Draft
  name := "Position"
  empty := {}
  put source d
    | "x" => do pure { d with x := ← source.fill "x" d.x }
    | "y" => do pure { d with y := ← source.fill "y" d.y }
    | _ => do source.ignore; pure d
  finish d := .ok { x := d.x.getD none, y := d.y.getD none }

def ofUnclaimed (ms : Unclaimed) : Except Fault Position :=
  Record.ofMembers Position (ms.filter fun m => ["x", "y"].contains m.1)

def readItems (depth : Nat) : Reader Position := do
  let x ← itemOr depth true none
  let y ← itemOr depth false none
  listEnd
  pure { x, y }

instance : FromText Position :=
  ⟨fun depth => readObjectOrList "Position" depth (Record.readMembers Position) readItems⟩

end Position

namespace Magnification

/-- A string, or an integer that fits 32 bits without a sign, which counts as its digits. -/
def ofValue : Value → Except Fault Magnification
  | .string s => .ok ⟨s⟩
  | .number (.integer n) =>
    if 0 ≤ n ∧ n ≤ IntegerKind.unsigned32.high then .ok ⟨toString n⟩
    else .error (.noMatchingForm "Raw")
  | _ => .error (.noMatchingForm "Raw")

instance : FromValue Magnification := ⟨ofValue⟩

instance : FromText Magnification := ⟨fun depth => do ofExcept (ofValue (← value depth))⟩

end Magnification

namespace QrOptions

structure Draft where
  rotation : Option Rotation := none
  model : Option QrModel := none
  inputMode : Option QrInputMode := none
  characterMode : Option QrCharacterMode := none
  errorCorrection : Option QrErrorCorrection := none
  magnification : Option Magnification := none

instance : Record QrOptions where
  Draft := Draft
  name := "QrOptions"
  empty := {}
  put source d
    | "rotation" => do pure { d with rotation := ← source.fill "rotation" d.rotation }
    | "model" => do pure { d with model := ← source.fill "model" d.model }
    | "input_mode" => do pure { d with inputMode := ← source.fill "input_mode" d.inputMode }
    | "character_mode" => do
      pure { d with characterMode := ← source.fill "character_mode" d.characterMode }
    | "error_correction" => do
      pure { d with errorCorrection := ← source.fill "error_correction" d.errorCorrection }
    | "magnification" => do
      pure { d with magnification := ← source.fill "magnification" d.magnification }
    | _ => do source.ignore; pure d
  finish d := .ok
    { rotation := d.rotation.getD default
      model := d.model.getD default
      inputMode := d.inputMode.getD default
      characterMode := d.characterMode.getD default
      errorCorrection := d.errorCorrection.getD default
      magnification := d.magnification.getD default }

def fieldNames : List String :=
  ["rotation", "model", "input_mode", "character_mode", "error_correction", "magnification"]

def ofUnclaimed (ms : Unclaimed) : Except Fault QrOptions :=
  Record.ofMembers QrOptions (ms.filter fun m => fieldNames.contains m.1)

def readItems (depth : Nat) : Reader QrOptions := do
  let rotation ← itemOr depth true default
  let model ← itemOr depth false default
  let inputMode ← itemOr depth false default
  let characterMode ← itemOr depth false default
  let errorCorrection ← itemOr depth false default
  let magnification ← itemOr depth false default
  listEnd
  pure { rotation, model, inputMode, characterMode, errorCorrection, magnification }

instance : FromText QrOptions :=
  ⟨fun depth => readObjectOrList "QrOptions" depth (Record.readMembers QrOptions) readItems⟩

end QrOptions

namespace TextField

structure Draft where
  font : Option (Option Font) := none
  fontSize : Option (Option UInt32) := none
  rotation : Option Rotation := none
  content : Option String := none
  unclaimed : Unclaimed := []

instance : Record TextField where
  Draft := Draft
  name := "Text"
  empty := {}
  put source d
    | "font" => do pure { d with font := ← source.fill "font" d.font }
    | "font_size" => do pure { d with fontSize := ← source.fill "font_size" d.fontSize }
    | "rotation" => do pure { d with rotation := ← source.fill "rotation" d.rotation }
    | "content" => do pure { d with content := ← source.fill "content" d.content }
    | key => do
      let v ← source.value
      pure { d with unclaimed := d.unclaimed ++ [(key, v)] }
  finish d := do
    let content ← required "content" d.content
    let position ← Position.ofUnclaimed d.unclaimed
    pure
      { position
        font := d.font.getD none
        fontSize := d.fontSize.getD none
        rotation := d.rotation.getD default
        content }

end TextField

namespace QrField

structure Draft where
  text : Option String := none
  unclaimed : Unclaimed := []

instance : Record QrField where
  Draft := Draft
  name := "QrCode"
  empty := {}
  put source d
    | "text" => do pure { d with text := ← source.fill "text" d.text }
    | key => do
      let v ← source.value
      pure { d with unclaimed := d.unclaimed ++ [(key, v)] }
  finish d := do
    let text ← required "text" d.text
    let position ← Position.ofUnclaimed d.unclaimed
    let options ← QrOptions.ofUnclaimed d.unclaimed
    pure { position, options, text }

end QrField

namespace GraphicBox

structure Draft where
  width : Option Int32 := none
  height : Option Int32 := none
  thickness : Option Int32 := none
  color : Option LineColor := none
  rounding : Option UInt8 := none
  unclaimed : Unclaimed := []

instance : Record GraphicBox where
  Draft := Draft
  name := "GraphicBox"
  empty := {}
  put source d
    | "width" => do pure { d with width := ← source.fill "width" d.width }
    | "height" => do pure { d with height := ← source.fill "height" d.height }
    | "thickness" => do pure { d with thickness := ← source.fill "thickness" d.thickness }
    | "color" => do pure { d with color := ← source.fill "color" d.color }
    | "rounding" => do pure { d with rounding := ← source.fill "rounding" d.rounding }
    | key => do
      let v ← source.value
      pure { d with unclaimed := d.unclaimed ++ [(key, v)] }
  finish d := do
    let width ← required "width" d.width
    let height ← required "height" d.height
    let position ← Position.ofUnclaimed d.unclaimed
    pure
      { position
        width
        height
        thickness := d.thickness.getD 1
        color := d.color.getD default
        rounding := d.rounding.getD 0 }

end GraphicBox

namespace CustomCommand

structure Draft where
  mnemonic : Option String := none
  z : Option (Option Int32) := none
  unclaimed : Unclaimed := []

instance : Record CustomCommand where
  Draft := Draft
  name := "CustomCommand"
  empty := {}
  put source d
    | "mnemonic" => do pure { d with mnemonic := ← source.fill "mnemonic" d.mnemonic }
    | "z" => do pure { d with z := ← source.fill "z" d.z }
    | key => do
      let v ← source.value
      pure { d with unclaimed := d.unclaimed ++ [(key, v)] }
  finish d := do
    let mnemonic ← required "mnemonic" d.mnemonic
    let position ← Position.ofUnclaimed d.unclaimed
    pure { mnemonic, position, z := d.z.getD none }

end CustomCommand

namespace NativeZpl

structure Draft where
  zpl : Option String := none
  unclaimed : Unclaimed := []

instance : Record NativeZpl where
  Draft := Draft
  name := "Native"
  empty := {}
  put source d
    | "zpl" => do pure { d with zpl := ← source.fill "zpl" d.zpl }
    | key => do
      let v ← source.value
      pure { d with unclaimed := d.unclaimed ++ [(key, v)] }
  finish d := do
    let zpl ← required "zpl" d.zpl
    let position ← Position.ofUnclaimed d.unclaimed
    pure { position, zpl }

end NativeZpl

namespace Element

def ofValue (v : Value) : Kind → Except Fault Element
  | .customCommand => (Record.ofValue CustomCommand v).map customCommand
  | .qrCode => (Record.ofValue QrField v).map qrCode
  | .text => (Record.ofValue TextField v).map text
  | .graphicBox => (Record.ofValue GraphicBox v).map graphicBox
  | .native => (Record.ofValue NativeZpl v).map native

def readKind : Reader Kind := do
  ofExcept (variantNamed Kind (← readString .variantName))

structure Draft where
  kind : Option Kind := none
  others : Unclaimed := []

def put (depth : Nat) (d : Draft) (key : String) : Reader Draft :=
  if key = "type" then
    if d.kind.isSome then fail (.duplicateField "type")
    else do
      colon
      pure { d with kind := some (← readKind) }
  else do
    colon
    let v ← value depth
    pure { d with others := (key, v) :: d.others }

def readMembers (depth : Nat) : Reader Element := do
  let d ← Json.members (put depth) {}
  let kind ← ofExcept (required "type" d.kind)
  ofExcept (ofValue (.object d.others.reverse) kind)

/-- An element may be a list that starts with its kind. No kind is made of the items after it, so
this always fails, but not before they are read. -/
def readItems (depth : Nat) : Reader Element := do
  match ← peek with
  | none => fail .endInList
  | some ']' => fail (.missingField "type")
  | some _ => do
    let kind ← readKind
    let others ← moreItems (value depth) []
    ofExcept (ofValue (.list others) kind)

instance : FromText Element where
  read depth := do
    match ← peek with
    | none => fail .endInValue
    | some '[' => enter depth readItems
    | some '{' => enter depth readMembers
    | some _ => mismatch (.tagged "Element")

end Element

end LabelPress

import LabelPress.Label.Basic
import LabelPress.Proofs.Zpl.Piece
import Mathlib.Data.Option.NAry

/-! What a label writes: the parts of the label and of its elements that reach the wire, and the
commands they become. The encoding of a label is the text of these commands. -/
namespace LabelPress

open Zpl

/-- What is written of an element. The input mode of a symbol and its character mode are one here:
the character mode is there if the input is manual. -/
inductive Element.Wire
  | customCommand (mnemonic : String) (x y z : Option Int32)
  | qrCode (rotation : Rotation) (model : QrModel) (magnification : String)
      (errorCorrection : QrErrorCorrection) (manual : Option QrCharacterMode) (text : String)
  | text (content : String) (position : Option (Int32 × Int32))
      (font : Option (Font × Rotation × Nat))
  | graphicBox (position : Option (Int32 × Int32)) (width height thickness : Int32)
      (color : LineColor) (rounding : UInt8)
  | native (zpl : String)

def QrOptions.manual (o : QrOptions) : Option QrCharacterMode :=
  match o.inputMode with
  | .manual => some o.characterMode
  | .automatic => none

/-- The font, the rotation and the height in dots, if both the font and its size are set. -/
def TextField.selectedFont (t : TextField) (density : Density) : Option (Font × Rotation × Nat) :=
  Option.map₂ (fun font size => (font, t.rotation, FontSize.inDots size density)) t.font t.fontSize

namespace Element

def wire (config : PrinterConfig) : Element → Wire
  | customCommand c => .customCommand c.mnemonic c.position.x c.position.y c.z
  | qrCode q =>
    .qrCode q.options.rotation q.options.model q.options.magnification.text
      q.options.errorCorrection q.options.manual q.text
  | text t =>
    .text t.content (Option.map₂ Prod.mk t.position.x t.position.y) (t.selectedFont config.density)
  | graphicBox b =>
    .graphicBox (Option.map₂ Prod.mk b.position.x b.position.y) b.width b.height b.thickness b.color
      b.rounding
  | native n => .native n.zpl

/-- The commands of an element can be told apart: a mnemonic is two letters, there is no caret in a
text, and the element is not a program of its own. -/
def Separable : Element → Prop
  | customCommand c => ∃ a b, c.mnemonic.toList = [a, b] ∧ a.isAlpha ∧ b.isAlpha
  | qrCode q => '^' ∉ q.text.toList ∧ '^' ∉ q.options.magnification.text.toList
  | text t => '^' ∉ t.content.toList
  | graphicBox _ => True
  | native _ => False

end Element

namespace Zpl.Piece

def point (mnemonic : String) (p : Int32 × Int32) : Piece :=
  .command mnemonic [parameter p.1.toInt, parameter p.2.toInt] .next

def font (f : Font × Rotation × Nat) : Piece :=
  .command (Mnemonic.font ++ f.1.token) [f.2.1.token, parameter f.2.2, parameter f.2.2] .next

def box (width height thickness : Int32) (color : LineColor) (rounding : UInt8) : Piece :=
  .command Mnemonic.graphicBox
    [ parameter width.toInt, parameter height.toInt, parameter thickness.toInt, color.token,
      parameter rounding.toNat ] .separator

def symbol (errorCorrection : QrErrorCorrection) (manual : Option QrCharacterMode) (text : String) :
    Piece :=
  .field (errorCorrection.token ++
    (match manual with
      | some mode => QrInputMode.manual.token ++ "," ++ mode.token
      | none => QrInputMode.automatic.token ++ ",") ++ text)

theorem legal_point (p : Int32 × Int32) {mnemonic : String}
    (h : mnemonic ∈ [Mnemonic.fieldTypeset, Mnemonic.fieldOrigin]) :
    (point mnemonic p).Legal := by
  refine ⟨?_, fun _ => rfl, by simp, by simp⟩
  simp only [List.mem_cons, List.not_mem_nil, or_false] at h
  rcases h with rfl | rfl
  · exact ⟨'F', 'T', rfl, by decide, by decide⟩
  · exact ⟨'F', 'O', rfl, by decide, by decide⟩

theorem legal_font (f : Font × Rotation × Nat) : (font f).Legal := by
  obtain ⟨c, hc, hplain⟩ := @Lettered.isLetter _ Font.token _ f.1
  refine ⟨⟨'A', c, ?_, by decide, hplain.1⟩, fun _ => rfl, by simp, by simp⟩
  rw [String.toList_append, hc]
  rfl

theorem legal_box (width height thickness : Int32) (color : LineColor) (rounding : UInt8) :
    (box width height thickness color rounding).Legal :=
  ⟨⟨'G', 'B', rfl, by decide, by decide⟩, fun h => absurd h (by decide), by simp, by simp⟩

theorem legal_symbol (errorCorrection : QrErrorCorrection) (manual : Option QrCharacterMode)
    {text : String} (h : '^' ∉ text.toList) : (symbol errorCorrection manual text).Legal := by
  have htoken {α : Type} {token : α → String} [Lettered token] (a : α) : '^' ∉ (token a).toList :=
    fun hmem => (Lettered.clean_token a _ hmem).1 rfl
  cases manual <;> simp [symbol, Legal, h, htoken]

end Zpl.Piece

def Zpl.Piece.text (ps : List Piece) : List Char := ps.flatMap fun p => p.zpl.toList

namespace Zpl.Piece

theorem text_append (ps qs : List Piece) : text (ps ++ qs) = text ps ++ text qs :=
  List.flatMap_append

theorem text_cons (p : Piece) (ps : List Piece) : text (p :: ps) = p.zpl.toList ++ text ps := rfl

end Zpl.Piece

theorem Position.toList_written (p : Position) (mnemonic : String) :
    (p.written mnemonic).toList =
      Piece.text ((Option.map₂ Prod.mk p.x p.y).toList.map (.point mnemonic)) := by
  obtain ⟨x, y⟩ := p
  unfold written resolved
  cases x <;> cases y <;> simp [Piece.text, Piece.point, Piece.zpl, Ending.zpl]

theorem TextField.toList_fontSelection (t : TextField) (density : Density) :
    (t.fontSelection density).toList =
      Piece.text ((t.selectedFont density).toList.map .font) := by
  obtain ⟨position, font, size, rotation, content⟩ := t
  unfold fontSelection selectedFont
  cases font <;> cases size <;>
    simp [Piece.text, Piece.font, Piece.zpl, Ending.zpl, Zpl.command]

namespace Element

def Wire.pieces : Wire → List Piece
  | .customCommand mnemonic x y z =>
    [.command mnemonic [parameter? x, parameter? y, parameter? z] .next]
  | .qrCode rotation model magnification errorCorrection manual data =>
    [.qrSetup rotation model magnification errorCorrection, .symbol errorCorrection manual data]
  | .text content position font =>
    position.toList.map (.point Mnemonic.fieldTypeset) ++
      (font.toList.map .font ++ [.field content])
  | .graphicBox position width height thickness color rounding =>
    position.toList.map (.point Mnemonic.fieldOrigin) ++
      [.box width height thickness color rounding]
  | .native _ => []

theorem toList_zpl {e : Element} (h : e.Separable) (config : PrinterConfig) :
    (e.zpl config).toList = Piece.text (e.wire config).pieces := by
  cases e with
  | customCommand c =>
    simp [zpl, CustomCommand.zpl, wire, Wire.pieces, Piece.text, Piece.zpl, Ending.zpl]
  | qrCode q =>
    cases hmode : q.options.inputMode <;>
      simp [zpl, QrField.zpl, QrField.dataHeader, wire, QrOptions.manual, hmode, Wire.pieces,
        Piece.text, Piece.symbol, Piece.zpl, String.append_assoc]
  | text t =>
    rw [zpl, TextField.zpl, wire, Wire.pieces, Piece.text_append, Piece.text_append,
      ← TextField.toList_fontSelection, ← Position.toList_written]
    simp [Position.typeset, Piece.text, Piece.zpl]
  | graphicBox b =>
    rw [zpl, GraphicBox.zpl, wire, Wire.pieces, Piece.text_append, ← Position.toList_written]
    simp [Position.origin, Piece.text, Piece.zpl, Piece.box, Ending.zpl]
  | native n => exact h.elim

theorem legal_pieces {e : Element} (h : e.Separable) (config : PrinterConfig) :
    ∀ p ∈ (e.wire config).pieces, p.Legal := by
  cases e with
  | customCommand c =>
    obtain ⟨a, b, hm, ha, hb⟩ := h
    have hcaret (c : Char) (hc : c.isAlpha = true) : c ≠ '^' := by
      rintro rfl
      exact absurd hc (by decide)
    simp only [wire, Wire.pieces, List.mem_singleton, forall_eq]
    exact ⟨⟨a, b, hm, hcaret a ha, hcaret b hb⟩, fun _ => rfl, by simp, by simp⟩
  | qrCode q =>
    simp only [wire, Wire.pieces, List.forall_mem_cons]
    exact ⟨h.2, Piece.legal_symbol _ _ h.1, by simp⟩
  | text t =>
    have hcontent : (Piece.field t.content).Legal := h
    simp only [wire, Wire.pieces, List.forall_mem_append, List.forall_mem_cons, List.forall_mem_map]
    exact ⟨fun p _ => Piece.legal_point p (by simp), fun f _ => Piece.legal_font f, hcontent,
      by simp⟩
  | graphicBox b =>
    simp only [wire, Wire.pieces, List.forall_mem_append, List.forall_mem_cons, List.forall_mem_map]
    exact ⟨fun p _ => Piece.legal_point p (by simp), Piece.legal_box _ _ _ _ _, by simp⟩
  | native n => exact h.elim

end Element

/-- What is written of a label. -/
structure Label.Wire where
  printMode : PrintMode
  width : Option Int32
  height : Option Int32
  defaultFont : Option (Font × Nat)
  elements : List Element.Wire

namespace Zpl.Piece

def line (mnemonic : String) (parameters : List String) : Piece :=
  .command mnemonic parameters .line

def finish : Piece := .line Mnemonic.endFormat [""]

def dimension (mnemonic : String) (n : Int32) : Piece := .line mnemonic [parameter n.toInt]

def defaultFont (f : Font × Nat) : Piece :=
  .line Mnemonic.changeFont [f.1.token, parameter f.2]

end Zpl.Piece

namespace Label

def wire (l : Label) : Wire where
  printMode := l.printMode
  width := l.width
  height := l.height
  defaultFont :=
    Option.map₂ (fun font size => (font, FontSize.inDots size l.config.density))
      l.config.defaultFont l.config.defaultFontSize
  elements := l.elements.map (Element.wire l.config)

def WireEq (a b : Label) : Prop := a.wire = b.wire

def Separable (l : Label) : Prop := ∀ e ∈ l.elements, e.Separable

def Wire.pieces (w : Wire) : List Piece :=
  .line Mnemonic.startFormat [""] :: .line Mnemonic.printMode [w.printMode.token] ::
    (w.width.toList.map (.dimension Mnemonic.printWidth) ++
      (w.height.toList.map (.dimension Mnemonic.labelLength) ++
        (w.defaultFont.toList.map .defaultFont ++
          (w.elements.flatMap Element.Wire.pieces ++ [.finish]))))

theorem toList_dimensionLine (mnemonic : String) (n : Option Int32) :
    (dimensionLine mnemonic n).toList = Piece.text (n.toList.map (.dimension mnemonic)) := by
  cases n <;>
    simp [dimensionLine, Piece.text, Piece.dimension, Piece.line, Piece.zpl, Ending.zpl,
      commandLine]

theorem toList_fontLine (c : PrinterConfig) :
    (fontLine c).toList =
      Piece.text ((Option.map₂ (fun font size => (font, FontSize.inDots size c.density))
        c.defaultFont c.defaultFontSize).toList.map .defaultFont) := by
  obtain ⟨density, font, size⟩ := c
  unfold fontLine PrinterConfig.resolvedFont
  cases font <;> cases size <;>
    simp [Piece.text, Piece.defaultFont, Piece.line, Piece.zpl, Ending.zpl, commandLine]

theorem toList_elements {es : List Element} (h : ∀ e ∈ es, e.Separable) (config : PrinterConfig) :
    (String.join (es.map (Element.zpl config))).toList =
      Piece.text ((es.map (Element.wire config)).flatMap Element.Wire.pieces) := by
  induction es with
  | nil => rfl
  | cons e es ih =>
    rw [List.forall_mem_cons] at h
    rw [List.map_cons, List.map_cons, List.flatMap_cons, Piece.text_append, ← ih h.2,
      ← e.toList_zpl h.1]
    simp

/-- The encoding of a label is the text of its commands. -/
theorem toList_zpl {l : Label} (h : l.Separable) : l.zpl.toList = Piece.text l.wire.pieces := by
  unfold zpl Wire.pieces wire
  simp only [Piece.text_cons, Piece.text_append, ← toList_dimensionLine, ← toList_fontLine,
    ← toList_elements h]
  simp [startFormat, PrintMode.zpl, endFormat, Piece.text, Piece.finish, Piece.line, Piece.zpl,
    Ending.zpl, commandLine, Zpl.command]

theorem legal_line {mnemonic : String} {parameter : String} {parameters : List String}
    (hm : mnemonic ∈ [Mnemonic.startFormat, Mnemonic.printMode, Mnemonic.printWidth,
      Mnemonic.labelLength, Mnemonic.changeFont, Mnemonic.endFormat])
    (h : ∀ p ∈ parameter :: parameters, Clean p) :
    (Piece.line mnemonic (parameter :: parameters)).Legal := by
  refine ⟨?_, fun hreserved => ?_, by simp, h⟩
  · simp only [List.mem_cons, List.not_mem_nil, or_false] at hm
    rcases hm with rfl | rfl | rfl | rfl | rfl | rfl <;>
      exact ⟨_, _, rfl, by decide, by decide⟩
  · simp only [List.mem_cons, List.not_mem_nil, or_false] at hm
    rcases hm with rfl | rfl | rfl | rfl | rfl | rfl <;> exact absurd hreserved (by decide)

theorem legal_pieces {l : Label} (h : l.Separable) : ∀ p ∈ l.wire.pieces, p.Legal := by
  have helements (p : Piece) (hp : p ∈ l.wire.elements.flatMap Element.Wire.pieces) : p.Legal := by
    obtain ⟨w, hw, hp⟩ := List.mem_flatMap.mp hp
    obtain ⟨e, he, rfl⟩ := List.mem_map.mp hw
    exact e.legal_pieces (h e he) l.config p hp
  unfold Wire.pieces
  simp only [List.forall_mem_cons, List.forall_mem_append, List.forall_mem_map]
  exact ⟨legal_line (by simp) (by simp), legal_line (by simp) (by simp),
    fun n _ => legal_line (by simp) (by simp), fun n _ => legal_line (by simp) (by simp),
    fun f _ => legal_line (by simp) (by simp), helements, legal_line (by simp) (by simp), by simp⟩

end Label

end LabelPress

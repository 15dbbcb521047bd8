import LabelPress.Proofs.Label.Wire
import Mathlib.Data.List.Forall2

/-! The encodings of labels, written one after another, tell which labels they are. The first
command of an element shows its kind, and none is a line of a label's head or its end. -/
namespace LabelPress

open Zpl

namespace Zpl.Piece

theorem point_inj {mnemonic : String} {p q : Int32 × Int32}
    (h : point mnemonic p = point mnemonic q) : p = q := by
  obtain ⟨x, y⟩ := p
  obtain ⟨x', y'⟩ := q
  simp only [point, command.injEq, List.cons.injEq, and_true, true_and] at h
  rw [Int32.toInt_inj.mp (parameter_inj h.1), Int32.toInt_inj.mp (parameter_inj h.2)]

theorem font_inj {p q : Font × Rotation × Nat} (h : font p = font q) : p = q := by
  obtain ⟨font, rotation, dots⟩ := p
  obtain ⟨font', rotation', dots'⟩ := q
  simp only [Piece.font, command.injEq, List.cons.injEq, and_true] at h
  obtain ⟨hfont, hrotation, hdots, -⟩ := h
  have htoken : font.token = font'.token := by simpa [← String.toList_inj] using hfont
  rw [Lettered.token_inj htoken, Lettered.token_inj hrotation,
    Int.ofNat_inj.mp (parameter_inj hdots)]

theorem box_inj {width height thickness width' height' thickness' : Int32}
    {color color' : LineColor} {rounding rounding' : UInt8}
    (h : box width height thickness color rounding =
      box width' height' thickness' color' rounding') :
    width = width' ∧ height = height' ∧ thickness = thickness' ∧ color = color' ∧
      rounding = rounding' := by
  simp only [box, command.injEq, List.cons.injEq, and_true, true_and] at h
  obtain ⟨hwidth, hheight, hthickness, hcolor, hrounding⟩ := h
  exact ⟨Int32.toInt_inj.mp (parameter_inj hwidth), Int32.toInt_inj.mp (parameter_inj hheight),
    Int32.toInt_inj.mp (parameter_inj hthickness), Lettered.token_inj hcolor,
    UInt8.toNat_inj.mp (Int.ofNat_inj.mp (parameter_inj hrounding))⟩

theorem symbol_inj {errorCorrection : QrErrorCorrection} {manual manual' : Option QrCharacterMode}
    {text text' : String}
    (h : symbol errorCorrection manual text = symbol errorCorrection manual' text') :
    manual = manual' ∧ text = text' := by
  simp only [symbol, field.injEq, ← String.toList_inj, String.toList_append, List.append_assoc,
    List.append_cancel_left_eq] at h
  cases manual with
  | none =>
    cases manual' with
    | none => exact ⟨rfl, String.toList_inj.mp (by simpa using h)⟩
    | some mode => simp [QrInputMode.token] at h
  | some mode =>
    cases manual' with
    | none => simp [QrInputMode.token] at h
    | some mode' =>
      simp only [String.toList_append, List.append_assoc, List.append_cancel_left_eq] at h
      obtain ⟨rfl, htext⟩ := Lettered.append_inj h
      exact ⟨rfl, String.toList_inj.mp htext⟩

theorem dimension_inj {mnemonic : String} {m n : Int32}
    (h : dimension mnemonic m = dimension mnemonic n) : m = n := by
  simp only [dimension, line, command.injEq, List.cons.injEq, and_true, true_and] at h
  exact Int32.toInt_inj.mp (parameter_inj h)

theorem defaultFont_inj {p q : Font × Nat} (h : defaultFont p = defaultFont q) : p = q := by
  obtain ⟨font, dots⟩ := p
  obtain ⟨font', dots'⟩ := q
  simp only [defaultFont, line, command.injEq, List.cons.injEq, and_true, true_and] at h
  rw [Lettered.token_inj h.1, Int.ofNat_inj.mp (parameter_inj h.2)]

theorem option_append_inj {α : Type} {f : α → Piece} (hf : ∀ a b, f a = f b → a = b)
    {o o' : Option α} {r s : List Piece} (hr : ∀ a, r.head? ≠ some (f a))
    (hs : ∀ a, s.head? ≠ some (f a)) (h : o.toList.map f ++ r = o'.toList.map f ++ s) :
    o = o' ∧ r = s := by
  cases o with
  | none =>
    cases o' with
    | none => exact ⟨rfl, h⟩
    | some a => exact absurd (congrArg List.head? h) (hr a)
  | some a =>
    cases o' with
    | none => exact absurd (congrArg List.head? h).symm (hs a)
    | some b =>
      obtain ⟨hab, hrest⟩ := List.cons.inj h
      exact ⟨congrArg some (hf a b hab), hrest⟩

def rotationLetters : List String := ["N", "R", "I", "B"]

/-- The kind of element that a command stands at the start of. Lines stand at the start of none. -/
def kind? : Piece → Option Element.Kind
  | qrSetup .. => some .qrCode
  | field _ => some .text
  | command _ _ .separator => some .graphicBox
  | command _ _ .line => none
  | command mnemonic parameters .next =>
    if parameters.length = 2 then
      if mnemonic = Mnemonic.fieldTypeset then some .text else some .graphicBox
    else if ∃ p ∈ parameters, p ∈ rotationLetters then some .text
    else some .customCommand

theorem kind?_font (f : Font × Rotation × Nat) : (font f).kind? = some .text := by
  have hletter : f.2.1.token ∈ rotationLetters := by
    cases f.2.1 <;> simp [Rotation.token, rotationLetters]
  simp [font, kind?, hletter]

theorem parameter?_not_rotation (n : Option Int32) : parameter? n ∉ rotationLetters := by
  intro h
  have hnumeric (c : Char) (hc : parameter? n = String.ofList [c]) : Numeric c := by
    apply @numeric_of_mem_parameter? n
    simp [hc]
  simp only [rotationLetters, List.mem_cons, List.not_mem_nil, or_false] at h
  rcases h with h | h | h | h
  · exact absurd (hnumeric 'N' h) (by simp [Numeric, Text.isDigit])
  · exact absurd (hnumeric 'R' h) (by simp [Numeric, Text.isDigit])
  · exact absurd (hnumeric 'I' h) (by simp [Numeric, Text.isDigit])
  · exact absurd (hnumeric 'B' h) (by simp [Numeric, Text.isDigit])

theorem kind?_custom (mnemonic : String) (x y z : Option Int32) :
    (command mnemonic [parameter? x, parameter? y, parameter? z] .next).kind? =
      some .customCommand := by
  simp [kind?, parameter?_not_rotation]

end Zpl.Piece

namespace Element.Wire

def kind : Wire → Kind
  | .customCommand .. => .customCommand
  | .qrCode .. => .qrCode
  | .text .. => .text
  | .graphicBox .. => .graphicBox
  | .native .. => .native

theorem head?_pieces {w : Wire} (h : w.kind ≠ .native) (r : List Piece) :
    ∃ p, (w.pieces ++ r).head? = some p ∧ p.kind? = some w.kind := by
  cases w with
  | customCommand m x y z => exact ⟨_, rfl, Piece.kind?_custom m x y z⟩
  | qrCode r m g c i t => exact ⟨_, rfl, rfl⟩
  | text c p f =>
    cases p with
    | some p => exact ⟨_, rfl, rfl⟩
    | none =>
      cases f with
      | some f => exact ⟨_, rfl, Piece.kind?_font f⟩
      | none => exact ⟨_, rfl, rfl⟩
  | graphicBox p w h t c r =>
    cases p with
    | some p => exact ⟨_, rfl, rfl⟩
    | none => exact ⟨_, rfl, rfl⟩
  | native z => exact absurd rfl h

theorem customCommand_inj {m m' : String} {x y z x' y' z' : Option Int32} {r s : List Piece}
    (h : (customCommand m x y z).pieces ++ r = (customCommand m' x' y' z').pieces ++ s) :
    customCommand m x y z = customCommand m' x' y' z' ∧ r = s := by
  simp only [pieces, List.cons_append, List.nil_append, List.cons.injEq, Piece.command.injEq,
    and_true] at h
  obtain ⟨⟨rfl, hx, hy, hz⟩, hrest⟩ := h
  rw [parameter?_inj hx, parameter?_inj hy, parameter?_inj hz]
  exact ⟨rfl, hrest⟩

theorem qrCode_inj {o o' : Rotation} {m m' : QrModel} {g g' : String} {c c' : QrErrorCorrection}
    {i i' : Option QrCharacterMode} {t t' : String} {r s : List Piece}
    (h : (qrCode o m g c i t).pieces ++ r = (qrCode o' m' g' c' i' t').pieces ++ s) :
    qrCode o m g c i t = qrCode o' m' g' c' i' t' ∧ r = s := by
  simp only [pieces, List.cons_append, List.nil_append, List.cons.injEq, Piece.qrSetup.injEq] at h
  obtain ⟨⟨rfl, rfl, rfl, rfl⟩, hsymbol, hrest⟩ := h
  obtain ⟨rfl, rfl⟩ := Piece.symbol_inj hsymbol
  exact ⟨rfl, hrest⟩

theorem text_inj {c c' : String} {p p' : Option (Int32 × Int32)}
    {f f' : Option (Font × Rotation × Nat)} {r s : List Piece}
    (h : (text c p f).pieces ++ r = (text c' p' f').pieces ++ s) :
    text c p f = text c' p' f' ∧ r = s := by
  simp only [pieces, List.append_assoc] at h
  have hpoint (f : Option (Font × Rotation × Nat)) (c : String) (r : List Piece)
      (q : Int32 × Int32) :
      (f.toList.map Piece.font ++ ([Piece.field c] ++ r)).head? ≠
        some (Piece.point Mnemonic.fieldTypeset q) := by
    cases f <;> simp [Piece.point, Piece.font]
  have hfont (c : String) (r : List Piece) (q : Font × Rotation × Nat) :
      ([Piece.field c] ++ r).head? ≠ some (Piece.font q) := by
    simp [Piece.font]
  obtain ⟨rfl, hplaced⟩ := Piece.option_append_inj (fun _ _ => Piece.point_inj) (hpoint f c r)
    (hpoint f' c' s) h
  obtain ⟨rfl, hfield⟩ := Piece.option_append_inj (fun _ _ => Piece.font_inj) (hfont c r)
    (hfont c' s) hplaced
  simp only [List.cons_append, List.nil_append, List.cons.injEq, Piece.field.injEq] at hfield
  obtain ⟨rfl, hrest⟩ := hfield
  exact ⟨rfl, hrest⟩

theorem graphicBox_inj {p p' : Option (Int32 × Int32)} {w w' h h' t t' : Int32} {c c' : LineColor}
    {o o' : UInt8} {r s : List Piece}
    (heq : (graphicBox p w h t c o).pieces ++ r = (graphicBox p' w' h' t' c' o').pieces ++ s) :
    graphicBox p w h t c o = graphicBox p' w' h' t' c' o' ∧ r = s := by
  simp only [pieces, List.append_assoc] at heq
  have hpoint (w h t : Int32) (c : LineColor) (o : UInt8) (r : List Piece) (q : Int32 × Int32) :
      ([Piece.box w h t c o] ++ r).head? ≠ some (Piece.point Mnemonic.fieldOrigin q) := by
    simp [Piece.point, Piece.box]
  obtain ⟨rfl, hplaced⟩ := Piece.option_append_inj (fun _ _ => Piece.point_inj)
    (hpoint w h t c o r) (hpoint w' h' t' c' o' s) heq
  obtain ⟨hbox, hrest⟩ := List.cons.inj hplaced
  obtain ⟨rfl, rfl, rfl, rfl, rfl⟩ := Piece.box_inj hbox
  exact ⟨rfl, hrest⟩

theorem pieces_append_inj {w v : Wire} (hw : w.kind ≠ .native) (hv : v.kind ≠ .native)
    {r s : List Piece} (h : w.pieces ++ r = v.pieces ++ s) : w = v ∧ r = s := by
  have hkind : w.kind = v.kind := by
    obtain ⟨p, hp, hpk⟩ := head?_pieces hw r
    obtain ⟨q, hq, hqk⟩ := head?_pieces hv s
    rw [h, hq] at hp
    cases hp
    exact Option.some.inj (hpk.symm.trans hqk)
  -- The first command tells the kind, so only elements of one kind are left to compare.
  cases w with
  | customCommand m x y z =>
    cases v with
    | customCommand m' x' y' z' => exact customCommand_inj h
    | _ => cases hkind
  | qrCode o m g c i t =>
    cases v with
    | qrCode o' m' g' c' i' t' => exact qrCode_inj h
    | _ => cases hkind
  | text c p f =>
    cases v with
    | text c' p' f' => exact text_inj h
    | _ => cases hkind
  | graphicBox p w h t c o =>
    cases v with
    | graphicBox p' w' h' t' c' o' => exact graphicBox_inj ‹_›
    | _ => cases hkind
  | native z => exact absurd rfl hw

theorem flatMap_pieces_inj {ws vs : List Wire} (hws : ∀ w ∈ ws, w.kind ≠ .native)
    (hvs : ∀ v ∈ vs, v.kind ≠ .native) {e : Piece} (he : e.kind? = none) {r s : List Piece}
    (h : ws.flatMap pieces ++ e :: r = vs.flatMap pieces ++ e :: s) : ws = vs ∧ r = s := by
  have hfirst {w : Wire} (hw : w.kind ≠ .native) (r s : List Piece) : w.pieces ++ r ≠ e :: s := by
    intro heq
    obtain ⟨p, hp, hkind⟩ := head?_pieces hw r
    rw [heq] at hp
    cases hp
    rw [he] at hkind
    cases hkind
  induction ws generalizing vs with
  | nil =>
    cases vs with
    | nil => exact ⟨rfl, (List.cons.inj h).2⟩
    | cons v vs =>
      rw [List.forall_mem_cons] at hvs
      rw [List.flatMap_cons, List.append_assoc] at h
      exact absurd h.symm (hfirst hvs.1 _ r)
  | cons w ws ih =>
    rw [List.forall_mem_cons] at hws
    rw [List.flatMap_cons, List.append_assoc] at h
    cases vs with
    | nil => exact absurd h (hfirst hws.1 _ s)
    | cons v vs =>
      rw [List.forall_mem_cons] at hvs
      rw [List.flatMap_cons, List.append_assoc] at h
      obtain ⟨rfl, hrest⟩ := pieces_append_inj hws.1 hvs.1 h
      obtain ⟨rfl, hrs⟩ := ih hws.2 hvs.2 hrest
      exact ⟨rfl, hrs⟩

end Element.Wire

namespace Label

namespace Wire

theorem head?_ne_line {ws : List Element.Wire} (hws : ∀ w ∈ ws, w.kind ≠ .native)
    {mnemonic : String} (hm : mnemonic ≠ Mnemonic.endFormat) (parameters : List String)
    (r : List Piece) :
    (ws.flatMap Element.Wire.pieces ++ Piece.finish :: r).head? ≠
      some (.line mnemonic parameters) := by
  cases ws with
  | nil =>
    intro h
    simp only [List.flatMap_nil, List.nil_append, List.head?_cons, Option.some.injEq, Piece.finish,
      Piece.line, Piece.command.injEq] at h
    exact hm h.1.symm
  | cons w ws =>
    rw [List.forall_mem_cons] at hws
    rw [List.flatMap_cons, List.append_assoc]
    obtain ⟨p, hp, hkind⟩ := Element.Wire.head?_pieces hws.1
      (ws.flatMap Element.Wire.pieces ++ Piece.finish :: r)
    rw [hp]
    rintro ⟨⟩
    cases hkind

theorem pieces_append_inj {w v : Wire} (hw : ∀ e ∈ w.elements, e.kind ≠ .native)
    (hv : ∀ e ∈ v.elements, e.kind ≠ .native) {r s : List Piece}
    (h : w.pieces ++ r = v.pieces ++ s) : w = v ∧ r = s := by
  -- No line with the mnemonic of an optional line stands first in what may follow it, so a line
  -- that is missing on one side is missing on the other.
  have hfont {ws : List Element.Wire} (hws : ∀ w ∈ ws, w.kind ≠ .native) (r : List Piece)
      (f : Font × Nat) :
      (ws.flatMap Element.Wire.pieces ++ Piece.finish :: r).head? ≠ some (Piece.defaultFont f) :=
    head?_ne_line hws (by decide) _ r
  have hheight {ws : List Element.Wire} (hws : ∀ w ∈ ws, w.kind ≠ .native) (r : List Piece)
      (font : Option (Font × Nat)) (n : Int32) :
      (font.toList.map Piece.defaultFont ++
        (ws.flatMap Element.Wire.pieces ++ Piece.finish :: r)).head? ≠
        some (Piece.dimension Mnemonic.labelLength n) := by
    cases font with
    | none => exact head?_ne_line hws (by decide) _ r
    | some f => simp [Piece.defaultFont, Piece.dimension, Piece.line]
  have hwidth {ws : List Element.Wire} (hws : ∀ w ∈ ws, w.kind ≠ .native) (r : List Piece)
      (height : Option Int32) (font : Option (Font × Nat)) (n : Int32) :
      (height.toList.map (Piece.dimension Mnemonic.labelLength) ++
        (font.toList.map Piece.defaultFont ++
          (ws.flatMap Element.Wire.pieces ++ Piece.finish :: r))).head? ≠
        some (Piece.dimension Mnemonic.printWidth n) := by
    cases height with
    | some m => simp [Piece.dimension, Piece.line, Mnemonic.labelLength, Mnemonic.printWidth]
    | none =>
      cases font with
      | none => exact head?_ne_line hws (by decide) _ r
      | some f => simp [Piece.defaultFont, Piece.dimension, Piece.line]
  obtain ⟨mode, width, height, font, elements⟩ := w
  obtain ⟨mode', width', height', font', elements'⟩ := v
  simp only [pieces, List.cons_append, List.append_assoc, List.nil_append, List.cons.injEq,
    true_and] at h
  obtain ⟨hmode, hlines⟩ := h
  simp only [Piece.line, Piece.command.injEq, List.cons.injEq, and_true, true_and] at hmode
  obtain rfl := Lettered.token_inj hmode
  obtain ⟨rfl, hlines⟩ := Piece.option_append_inj (fun _ _ => Piece.dimension_inj)
    (hwidth hw r height font) (hwidth hv s height' font') hlines
  obtain ⟨rfl, hlines⟩ := Piece.option_append_inj (fun _ _ => Piece.dimension_inj)
    (hheight hw r font) (hheight hv s font') hlines
  obtain ⟨rfl, hlines⟩ := Piece.option_append_inj (fun _ _ => Piece.defaultFont_inj)
    (hfont hw r) (hfont hv s) hlines
  obtain ⟨rfl, hrest⟩ := Element.Wire.flatMap_pieces_inj hw hv rfl hlines
  exact ⟨rfl, hrest⟩

end Wire

theorem kind_ne_native {l : Label} (h : l.Separable) : ∀ e ∈ l.wire.elements, e.kind ≠ .native := by
  intro w hw
  obtain ⟨e, he, rfl⟩ := List.mem_map.mp hw
  have hseparable := h e he
  cases e with
  | native n => exact hseparable.elim
  | _ => simp [Element.wire, Element.Wire.kind]

theorem flatMap_pieces_inj {as bs : List Label} (has : ∀ l ∈ as, l.Separable)
    (hbs : ∀ l ∈ bs, l.Separable)
    (h : as.flatMap (fun l => l.wire.pieces) = bs.flatMap fun l => l.wire.pieces) :
    List.Forall₂ WireEq as bs := by
  induction as generalizing bs with
  | nil =>
    cases bs with
    | nil => exact .nil
    | cons b bs => cases h
  | cons a as ih =>
    cases bs with
    | nil => cases h
    | cons b bs =>
      rw [List.forall_mem_cons] at has hbs
      rw [List.flatMap_cons, List.flatMap_cons] at h
      obtain ⟨heq, hrest⟩ :=
        Wire.pieces_append_inj (kind_ne_native has.1) (kind_ne_native hbs.1) h
      exact .cons heq (ih has.2 hbs.2 hrest)

theorem toList_join {as : List Label} (h : ∀ l ∈ as, l.Separable) :
    (String.join (as.map zpl)).toList = Piece.text (as.flatMap fun l => l.wire.pieces) := by
  induction as with
  | nil => rfl
  | cons a as ih =>
    rw [List.forall_mem_cons] at h
    rw [List.flatMap_cons, Piece.text_append, ← ih h.2, ← toList_zpl h.1]
    simp

/-- The encodings of labels, one after another, are the same text exactly if the same is written of
the labels. -/
theorem join_zpl_eq_iff {as bs : List Label} (has : ∀ l ∈ as, l.Separable)
    (hbs : ∀ l ∈ bs, l.Separable) :
    String.join (as.map zpl) = String.join (bs.map zpl) ↔ List.Forall₂ WireEq as bs := by
  have hlegal {ls : List Label} (hls : ∀ l ∈ ls, l.Separable) :
      ∀ p ∈ ls.flatMap fun l => l.wire.pieces, p.Legal := by
    intro p hp
    obtain ⟨l, hl, hp⟩ := List.mem_flatMap.mp hp
    exact legal_pieces (hls l hl) p hp
  rw [← String.toList_inj, toList_join has, toList_join hbs]
  constructor
  · intro h
    exact flatMap_pieces_inj has hbs (Piece.flatMap_inj (hlegal has) (hlegal hbs) h)
  · intro h
    have hpieces : as.flatMap (fun l => l.wire.pieces) = bs.flatMap fun l => l.wire.pieces := by
      induction h with
      | nil => rfl
      | cons heq _ ih =>
        rw [List.forall_mem_cons] at has hbs
        rw [List.flatMap_cons, List.flatMap_cons, ih has.2 hbs.2, heq]
    rw [hpieces]

/-- Field data that looks like a command behind a command that looks like field data. The nominal
size, the free position and the rotation are not written as they are. -/
def misleading (size : UInt32) (free : Position) (rotation : Rotation) (corner : Position) :
    Label where
  width := some 203
  config := { defaultFont := some .a, defaultFontSize := some size }
  elements :=
    [ .customCommand { mnemonic := "FD", position := ⟨some 1, none⟩, z := some (-3) },
      .text { content := "1,,-3", position := ⟨none, free.y⟩, rotation },
      .text { content := "FO3,4", position := .ofDots 5 (-6), font := some .zero,
              fontSize := some 10 },
      .qrCode { text := "a,b\n", options := { magnification := ⟨"2,M\n"⟩ }, position := free },
      .graphicBox { width := 4, height := -5, position := corner } ]

theorem separable_misleading (size : UInt32) (free : Position) (rotation : Rotation)
    (corner : Position) : ∀ l ∈ [misleading size free rotation corner, {}], l.Separable := by
  have hletters : 'F'.isAlpha ∧ 'D'.isAlpha := by decide
  simp [misleading, Separable, Element.Separable, hletters]

/-- Sizes with the same height make the same program, and boxes at different positions do not. -/
theorem join_zpl_misleading :
    (∀ size free rotation corner, ∀ l ∈ [misleading size free rotation corner, {}], l.Separable) ∧
    (misleading 14 {} .normal (.ofDots 3 4)).zpl =
      "^XA\n^MMT\n^PW203\n^CFA,40\n^FD1,,-3^FD1,,-3^FS\n^FT5,-6^A0N,28,28^FDFO3,4^FS\n" ++
        "^BQN,2,2,M\n,M\n^FDMM,Aa,b\n^FS\n^FO3,4^GB4,-5,1,B,0^FS\n^XZ\n" ∧
    String.join ([misleading 14 {} .normal (.ofDots 3 4), {}].map zpl) =
      String.join ([misleading 15 (.ofDots 8 9) .inverted (.ofDots 3 4), {}].map zpl) ∧
    String.join ([misleading 14 {} .normal (.ofDots 3 4), {}].map zpl) ≠
      String.join ([misleading 14 {} .normal (.ofDots 3 5), {}].map zpl) := by
  have hseparable := separable_misleading 14 {} .normal (.ofDots 3 4)
  have hfree := separable_misleading 15 (.ofDots 8 9) .inverted (.ofDots 3 4)
  have hcorner := separable_misleading 14 {} .normal (.ofDots 3 5)
  refine ⟨separable_misleading, by decide +kernel,
    (join_zpl_eq_iff hseparable hfree).mpr (.cons rfl (.cons rfl .nil)), fun h => ?_⟩
  obtain ⟨heq, -⟩ := List.forall₂_cons.mp ((join_zpl_eq_iff hseparable hcorner).mp h)
  simp [WireEq, wire, Element.wire, misleading, Position.ofDots] at heq

end Label

end LabelPress

import LabelPress.Proofs.Document.Gap
import LabelPress.Proofs.Json.Integer

/-! Integers in documents. Whatever number is put into an integer field of a document, it is either
kept exactly or the document is not read: there is no rounding, no wrapping and no clamping, be the
field read from the text or from a value that was read before. -/
namespace LabelPress

open Json

namespace Json

variable {α β : Type}

class IntegerType (α : Type) [FromValue α] where
  kind : IntegerKind
  ofInt : Int → α
  integer? : α → Option Int
  readValue_number (x : Number) : readValue (.number x) = (kind.ofNumber x).toOption.map ofInt
  integer?_ofInt {i : Int} : kind.low ≤ i → i ≤ kind.high → integer? (ofInt i) = some i

instance : IntegerType Int32 where
  kind := .signed32
  ofInt := Int32.ofInt
  integer? n := some n.toInt
  readValue_number x := toOption_map (IntegerKind.signed32.ofNumber x) Int32.ofInt
  integer?_ofInt hlow hhigh :=
    congrArg some (Int32.toInt_ofInt_of_le hlow (Int.lt_add_one_of_le hhigh))

instance : IntegerType UInt32 where
  kind := .unsigned32
  ofInt := UInt32.ofInt
  integer? n := some n.toNat
  readValue_number x := toOption_map (IntegerKind.unsigned32.ofNumber x) UInt32.ofInt
  integer?_ofInt {i} hlow hhigh := by
    simp only [IntegerKind.low, IntegerKind.high] at hlow hhigh
    simp only [UInt32.ofInt, UInt32.toNat_ofNat']
    congr 1
    omega

instance : IntegerType UInt8 where
  kind := .unsigned8
  ofInt := UInt8.ofInt
  integer? n := some n.toNat
  readValue_number x := toOption_map (IntegerKind.unsigned8.ofNumber x) UInt8.ofInt
  integer?_ofInt {i} hlow hhigh := by
    simp only [IntegerKind.low, IntegerKind.high] at hlow hhigh
    simp only [UInt8.ofInt, UInt8.toNat_ofNat']
    congr 1
    omega

instance [FromValue α] [IntegerType α] : IntegerType (Option α) where
  kind := IntegerType.kind α
  ofInt i := some (IntegerType.ofInt i)
  integer? a := a.bind IntegerType.integer?
  readValue_number x := by
    have hread : (readValue (.number x) : Option (Option α)) =
        (readValue (.number x) : Option α).map some := toOption_map _ _
    rw [hread, IntegerType.readValue_number, Option.map_map]
    rfl
  integer?_ofInt := IntegerType.integer?_ofInt

/-- What is read where a number stands: one thing, which holds the integer, or nothing if the number
is no integer of the kind. -/
def TakesInteger (kind : IntegerKind) (n : Literal) (integer? : α → Option Int) (o : Option α) :
    Prop :=
  ∃ a, (∀ a', o = some a' ↔
      (n.IsInteger ∧ kind.low ≤ n.integer ∧ n.integer ≤ kind.high) ∧ a' = a) ∧
    (kind.low ≤ n.integer → n.integer ≤ kind.high → integer? a = some n.integer)

theorem TakesInteger.map {kind : IntegerKind} {n : Literal} {integer? : α → Option Int}
    {o : Option α} (h : TakesInteger kind n integer? o) {f : α → β} {o' : Option β}
    (ho : ∀ b, o' = some b ↔ ∃ a, o = some a ∧ b = f a) {integer?' : β → Option Int}
    (hf : ∀ a, integer?' (f a) = integer? a) : TakesInteger kind n integer?' o' := by
  obtain ⟨a, hread, hinteger⟩ := h
  refine ⟨f a, fun b => ?_, fun hlow hhigh => (hf a).trans (hinteger hlow hhigh)⟩
  simp only [ho, hread]
  constructor
  · rintro ⟨_, ⟨hn, rfl⟩, rfl⟩
    exact ⟨hn, rfl⟩
  · rintro ⟨hn, rfl⟩
    exact ⟨a, ⟨hn, rfl⟩, rfl⟩

theorem takesInteger_readTree [FromValue α] [IntegerType α] (depth : Nat) (n : Literal) :
    TakesInteger (IntegerType.kind α) n IntegerType.integer?
      (Tree.readTree depth (.number n) : Option α) := by
  refine ⟨IntegerType.ofInt n.integer, fun a => ?_, IntegerType.integer?_ofInt⟩
  have hread : (Tree.readTree depth (.number n) : Option α) = n.read.toOption.bind fun x =>
      ((IntegerType.kind α).ofNumber x).toOption.map IntegerType.ofInt := by
    unfold Tree.readTree
    rw [Tree.value?, Option.bind_map]
    congr 1
    funext x
    exact IntegerType.readValue_number x
  rw [hread]
  simp only [Option.bind_eq_some_iff, toOption_eq_some_iff, Option.map_eq_some_iff]
  constructor
  · rintro ⟨x, hx, i, hi, rfl⟩
    cases x with
    | real x => contradiction
    | integer j =>
      obtain ⟨hinteger, rfl, -, -⟩ := Literal.read_eq_integer_iff.mp hx
      unfold IntegerKind.ofNumber at hi
      dsimp only at hi
      split_ifs at hi with hrange
      cases hi
      exact ⟨⟨hinteger, hrange⟩, rfl⟩
  · rintro ⟨⟨hinteger, hrange⟩, rfl⟩
    have hbound : -0x8000000000000000 ≤ n.integer ∧ n.integer ≤ 0xFFFFFFFFFFFFFFFF := by
      cases hkind : IntegerType.kind α <;> rw [hkind] at hrange <;>
        simp only [IntegerKind.low, IntegerKind.high] at hrange <;> omega
    exact ⟨_, Literal.read_eq_integer_iff.mpr ⟨hinteger, rfl, hbound⟩, _,
      IntegerKind.ofNumber_integer hrange, rfl⟩

end Json

namespace Element

inductive IntegerField
  | x
  | y
  | z
  | fontSize
  | width
  | height
  | thickness
  | rounding

namespace IntegerField

def name : IntegerField → String
  | x => "x"
  | y => "y"
  | z => "z"
  | fontSize => "font_size"
  | width => "width"
  | height => "height"
  | thickness => "thickness"
  | rounding => "rounding"

/-- The range of the field's type. -/
def InRange (i : Int) : IntegerField → Prop
  | fontSize => 0 ≤ i ∧ i < 2 ^ 32
  | rounding => 0 ≤ i ∧ i < 2 ^ 8
  | _ => -2 ^ 31 ≤ i ∧ i < 2 ^ 31

def kind : IntegerField → IntegerKind
  | fontSize => .unsigned32
  | rounding => .unsigned8
  | _ => .signed32

theorem inRange_iff (f : IntegerField) (i : Int) :
    f.InRange i ↔ f.kind.low ≤ i ∧ i ≤ f.kind.high := by
  cases f <;> simp only [InRange, kind, IntegerKind.low, IntegerKind.high] <;> omega

def BelongsTo (k : Kind) : IntegerField → Prop
  | x => True
  | y => True
  | z => k = .customCommand
  | fontSize => k = .text
  | _ => k = .graphicBox

def value? : IntegerField → Element → Option Int
  | x, e => e.position.x.map Int32.toInt
  | y, e => e.position.y.map Int32.toInt
  | z, .customCommand c => c.z.map Int32.toInt
  | fontSize, .text t => t.fontSize.map fun n => n.toNat
  | width, .graphicBox b => some b.width.toInt
  | height, .graphicBox b => some b.height.toInt
  | thickness, .graphicBox b => some b.thickness.toInt
  | rounding, .graphicBox b => some b.rounding.toNat
  | _, _ => none

section

variable {f : IntegerField} {k : Kind}

theorem exists_field_of_mem {α : Type} [FromValue α] [IntegerType α] {default : Option α}
    {get : k.Body → α} {set : k.Body → α → k.Body}
    (hmem : ⟨α, f.name, readValue, default, get, set⟩ ∈ k.fields)
    (hkind : IntegerType.kind α = f.kind)
    (hvalue : ∀ b a, f.value? (ofBody (set b a)) = IntegerType.integer? a) :
    ∃ g ∈ k.fields, g.name = f.name ∧ ∀ b depth n,
      TakesInteger f.kind n (fun a => f.value? (ofBody (g.set b a)))
        ((g.ofTree depth).read (.number n)) := by
  refine ⟨_, hmem, rfl, fun b depth n => ?_⟩
  dsimp only
  rw [← hkind, funext (hvalue b)]
  exact takesInteger_readTree (α := α) depth n

theorem exists_field (h : f.BelongsTo k) :
    ∃ g ∈ k.fields, g.name = f.name ∧ ∀ b depth n,
      TakesInteger f.kind n (fun a => f.value? (ofBody (g.set b a)))
        ((g.ofTree depth).read (.number n)) := by
  cases f with
  | x =>
    cases k <;> exact exists_field_of_mem (.head _) rfl fun _ a => by cases a <;> rfl
  | y =>
    cases k <;> exact exists_field_of_mem (.tail _ (.head _)) rfl fun _ a => by cases a <;> rfl
  | z =>
    cases h
    exact exists_field_of_mem (.tail _ (.tail _ (.tail _ (.head _)))) rfl
      fun _ a => by cases a <;> rfl
  | fontSize =>
    cases h
    exact exists_field_of_mem (.tail _ (.tail _ (.tail _ (.head _)))) rfl
      fun _ a => by cases a <;> rfl
  | width =>
    cases h
    exact exists_field_of_mem (.tail _ (.tail _ (.head _))) rfl fun _ _ => rfl
  | height =>
    cases h
    exact exists_field_of_mem (.tail _ (.tail _ (.tail _ (.head _)))) rfl fun _ _ => rfl
  | thickness =>
    cases h
    exact exists_field_of_mem (.tail _ (.tail _ (.tail _ (.tail _ (.head _))))) rfl fun _ _ => rfl
  | rounding =>
    cases h
    exact exists_field_of_mem (.tail _ (.tail _ (.tail _ (.tail _ (.tail _ (.tail _ (.head _)))))))
      rfl fun _ _ => rfl

end

end IntegerField

end Element

namespace Label

/-- The integer fields of a document. -/
inductive IntegerField
  | width
  | height
  | defaultFontSize
  | ofElement (index : Nat) (field : Element.IntegerField)

namespace IntegerField

def InRange (i : Int) : IntegerField → Prop
  | width => -2 ^ 31 ≤ i ∧ i < 2 ^ 31
  | height => -2 ^ 31 ≤ i ∧ i < 2 ^ 31
  | defaultFontSize => 0 ≤ i ∧ i < 2 ^ 32
  | ofElement _ f => f.InRange i

def kind : IntegerField → IntegerKind
  | width => .signed32
  | height => .signed32
  | defaultFontSize => .unsigned32
  | ofElement _ f => f.kind

theorem inRange_iff (f : IntegerField) (i : Int) :
    f.InRange i ↔ f.kind.low ≤ i ∧ i ≤ f.kind.high := by
  cases f with
  | ofElement _ f => exact f.inRange_iff i
  | _ => simp only [InRange, kind, IntegerKind.low, IntegerKind.high]; omega

def IsIn (l : Label) : IntegerField → Prop
  | ofElement i f => ∃ e, l.elements[i]? = some e ∧ f.BelongsTo e.kind
  | _ => True

def value? : IntegerField → Label → Option Int
  | width, l => l.width.map Int32.toInt
  | height, l => l.height.map Int32.toInt
  | defaultFontSize, l => l.config.defaultFontSize.map fun n => n.toNat
  | ofElement i f, l => l.elements[i]?.bind f.value?

/-- A document with a gap for the value of the field. An element is an object; labels and
configurations may be lists. -/
inductive Gap : IntegerField → (Tree → Tree) → Prop
  | width {label : Tree → Tree} : Tree.Gap fieldNames "width" label → Gap .width label
  | height {label : Tree → Tree} : Tree.Gap fieldNames "height" label → Gap .height label
  | defaultFontSize {label config : Tree → Tree} : Tree.Gap fieldNames "config" label →
      Tree.Gap PrinterConfig.fieldNames "default_font_size" config →
        Gap .defaultFontSize fun t => label (config t)
  | ofElement {label element : Tree → Tree} {f : Element.IntegerField} (before after : List Tree) :
      Tree.Gap fieldNames "elements" label → Tree.Gap [] f.name element →
        Gap (.ofElement before.length f) fun t => label (.list (before ++ element t :: after))

end IntegerField

theorem takesInteger_read? {field : IntegerField} {document : Tree → Tree}
    (hgap : field.Gap document) {t₀ : Tree} {l₀ : Label} (h₀ : read? (document t₀) = some l₀)
    (hfield : field.IsIn l₀) (n : Literal) :
    TakesInteger field.kind n field.value? (read? (document (.number n))) := by
  cases hgap with
  | width hlabel =>
    refine (takesInteger_readTree (α := Option Int32) 0 n).map
      (read?_gap_iff (f := widthField) (by simp [fields]) hlabel h₀ _) fun a => ?_
    cases a <;> rfl
  | height hlabel =>
    refine (takesInteger_readTree (α := Option Int32) 0 n).map
      (read?_gap_iff (f := heightField) (by simp [fields]) hlabel h₀ _) fun a => ?_
    cases a <;> rfl
  | @defaultFontSize label config hlabel hconfig =>
    have hread := read?_gap_iff (f := configField) (by simp [fields]) hlabel h₀
    obtain ⟨c₀, hc₀, -⟩ := (hread _ _).mp h₀
    have hsize := PrinterConfig.read?_gap_iff (f := PrinterConfig.fontSizeField)
      (by simp [PrinterConfig.fields]) hconfig hc₀ (.number n)
    have hinner : TakesInteger .unsigned32 n (fun c : PrinterConfig =>
        c.defaultFontSize.map fun n => (n.toNat : Int))
        (PrinterConfig.read? (config (.number n))) := by
      refine (takesInteger_readTree (α := Option UInt32) 0 n).map hsize fun a => ?_
      cases a <;> rfl
    exact hinner.map (hread _) fun _ => rfl
  | ofElement before after hlabel helement =>
    obtain ⟨element, helement, ⟨e, he, hi⟩, hread⟩ :=
      (ElementGap.inside before after hlabel helement).exists_element h₀
    obtain ⟨e', hi', hbelongs⟩ := hfield
    cases hi.symm.trans hi'
    obtain ⟨g, hg, hname, htakes⟩ := Element.IntegerField.exists_field hbelongs
    obtain ⟨b, hb⟩ := e.exists_ofBody
    rw [← hb] at he
    rw [← hname] at helement
    have helem := (htakes b 124 n).map (Element.read?_gap_iff hg helement he (.number n))
      fun _ => rfl
    have hlength : before.length < l₀.elements.length := (List.getElem?_eq_some_iff.mp hi).1
    exact helem.map (hread _) fun e => by
      simp [IntegerField.value?, List.getElem?_set_self hlength]

/-- A number in an integer field of an otherwise valid document is read exactly if it is an integer
in the range of the field. The label then has this integer there. -/
theorem ofDocument_integer {field : IntegerField} {document : Tree → Tree}
    (hgap : field.Gap document) {t₀ : Tree} {valid : String}
    (hvalid : (document t₀).SpelledBy valid) {l₀ : Label} (hl₀ : ofDocument valid = .ok l₀)
    (hfield : field.IsIn l₀) {n : Literal} {text : String}
    (htext : (document (.number n)).SpelledBy text) :
    ((∃ l, ofDocument text = .ok l) ↔ n.IsInteger ∧ field.InRange n.integer) ∧
      ∀ l, ofDocument text = .ok l → field.value? l = some n.integer := by
  rw [ofDocument_eq_ok_iff hvalid] at hl₀
  obtain ⟨l', hread, hinteger⟩ := takesInteger_read? hgap hl₀ hfield n
  simp only [ofDocument_eq_ok_iff htext, hread, IntegerField.inRange_iff]
  refine ⟨by simp, ?_⟩
  rintro l ⟨⟨-, hlow, hhigh⟩, rfl⟩
  exact hinteger hlow hhigh

theorem ofDocument_integer_rounding :
    let document (rounding : Int) : Value := .object
      [ ("elements", .list
          [ .object
              [ ("type", .string "graphic_box"), ("width", .integer 10), ("height", .integer 10),
                ("rounding", .integer rounding) ] ]) ]
    (∃ l, ofDocument (document 255).compact = .ok l ∧
      (IntegerField.ofElement 0 .rounding).value? l = some 255) ∧
    ¬∃ l, ofDocument (document 256).compact = .ok l := by
  intro document
  let box (t : Tree) : Tree := .object
    [ (.ofString "type", .string (.ofString "graphic_box")),
      (.ofString "width", .number (.ofInt 10)), (.ofString "height", .number (.ofInt 10)),
      (.ofString "rounding", t) ]
  have hgap : (IntegerField.ofElement 0 .rounding).Gap
      fun t => .object [(.ofString "elements", .list [box t])] :=
    .ofElement [] [] (.member [] [] (Pieces.text?_ofString _))
      (.member [(.ofString "type", .string (.ofString "graphic_box")),
        (.ofString "width", .number (.ofInt 10)), (.ofString "height", .number (.ofInt 10))] []
        (Pieces.text?_ofString _))
  have hwhole {rounding : Int} (hlow : 0 ≤ rounding) (hhigh : rounding ≤ 256) :
      (document rounding).Whole := by
    refine .object (List.forall_mem_singleton.mpr (.list (List.forall_mem_singleton.mpr ?_)))
    apply Value.Whole.object
    simp only [List.forall_mem_cons, List.not_mem_nil, false_implies, implies_true, and_true]
    exact ⟨.string _, .integer (by decide) (by decide), .integer (by decide) (by decide),
      .integer (by omega) (by omega)⟩
  have hspelled {rounding : Int} (hlow : 0 ≤ rounding) (hhigh : rounding ≤ 256) :
      (document rounding).tree.SpelledBy (document rounding).compact :=
    (hwhole hlow hhigh).spelledBy_compact
  have hvalid : ofDocument (document 0).compact =
      .ok { elements := [.graphicBox { width := 10, height := 10 }] } :=
    (ofDocument_eq_ok_iff (hspelled (by decide) (by decide))).mpr (by decide +kernel)
  have hfield : (IntegerField.ofElement 0 .rounding).IsIn
      { elements := [.graphicBox { width := 10, height := 10 }] } := ⟨_, rfl, rfl⟩
  have hlargest := ofDocument_integer hgap (hspelled (by decide) (by decide)) hvalid hfield
    (n := .ofInt 255) (hspelled (by decide) (by decide))
  have htooLarge := ofDocument_integer hgap (hspelled (by decide) (by decide)) hvalid hfield
    (n := .ofInt 256) (hspelled (by decide) (by decide))
  obtain ⟨l, hl⟩ := hlargest.1.mpr ⟨⟨rfl, rfl, by decide⟩, by decide, by decide⟩
  refine ⟨⟨l, hl, hlargest.2 l hl⟩, fun hread => ?_⟩
  have hrange : (256 : Int) < 2 ^ 8 := (htooLarge.1.mp hread).2.2
  exact absurd hrange (by decide)

end Label

end LabelPress

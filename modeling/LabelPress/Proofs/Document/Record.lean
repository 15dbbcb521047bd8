import LabelPress.Element.Document
import LabelPress.Proofs.Json.Slot
import Mathlib.Tactic.Simproc.ExistsAndEq
import Mathlib.Tactic.Tauto

/-! The records of elements, read from members that are values. A record is read exactly if each of
its fields is found among the members; whatever else is among them does not matter. -/
namespace LabelPress

namespace Json

variable {α β σ μ : Type}

@[simp] theorem bind_eq_ok_iff {x : Except Fault α} {f : α → Except Fault β} {b : β} :
    x >>= f = .ok b ↔ ∃ a, x = .ok a ∧ f a = .ok b := by
  cases x <;> simp [bind, Except.bind]

@[simp] theorem map_eq_ok_iff {x : Except Fault α} {f : α → β} {b : β} :
    f <$> x = .ok b ↔ ∃ a, x = .ok a ∧ f a = b := by
  cases x <;> simp [Functor.map, Except.map]

def readValue [FromValue α] (v : Value) : Option α :=
  (FromValue.ofValue v : Except Fault α).toOption

@[simp] theorem readValue_value (v : Value) : readValue v = some v := rfl

theorem toOption_eq_some_iff {x : Except Fault α} {a : α} : x.toOption = some a ↔ x = .ok a := by
  cases x <;> simp [Except.toOption]

@[simp] theorem toOption_map (x : Except Fault α) (f : α → β) :
    (f <$> x).toOption = x.toOption.map f := by
  cases x <;> rfl

theorem toOption_bind (x : Except Fault α) (f : α → Except Fault β) :
    (x >>= f).toOption = x.toOption.bind fun a => (f a).toOption := by
  cases x <;> rfl

theorem toOption_foldlM (f : σ → μ → Except Fault σ) (ms : List μ) (d : σ) :
    (ms.foldlM f d).toOption = ms.foldlM (fun d m => (f d m).toOption) d := by
  induction ms generalizing d with
  | nil => rfl
  | cons m ms ih =>
    rw [List.foldlM_cons, List.foldlM_cons, toOption_bind]
    cases f d m with
    | error e => rfl
    | ok d' => exact ih d'

@[simp] theorem toOption_value [FromText α] [FromValue α] (v : Value) :
    ((Source.ofValue v).value : Except Fault α).toOption = readValue v := rfl

@[simp] theorem toOption_ignore (v : Value) : (Source.ofValue v).ignore.toOption = some () := rfl

@[simp] theorem toOption_fill [FromText α] [FromValue α] (v : Value) (name : String)
    (field : Option α) :
    ((Source.ofValue v).fill name field).toOption = fillSlot readValue name field (name, v) := by
  unfold Source.fill fillSlot readValue
  rw [if_pos rfl]
  cases field with
  | some a => rfl
  | none =>
    change (Except.bind (FromValue.ofValue v : Except Fault α) _).toOption = _
    cases (FromValue.ofValue v : Except Fault α) <;> rfl

namespace Record

variable [Record α]

def step? (α : Type) [Record α] (d : Draft α) (m : String × Value) : Option (Draft α) :=
  (put (Source.ofValue m.2) d m.1).toOption

theorem ofMembers_eq_ok_iff {ms : List (String × Value)} {r : α} :
    ofMembers α ms = .ok r ↔
      ∃ d, ms.foldlM (step? α) empty = some d ∧ finish d = .ok r := by
  rw [← toOption_eq_some_iff]
  unfold ofMembers
  rw [toOption_bind, toOption_foldlM, Option.bind_eq_some_iff]
  simp only [toOption_eq_some_iff]
  rfl

end Record

@[simp] theorem required_eq_ok_iff {name : String} {field : Option α} {a : α} :
    required name field = .ok a ↔ field = some a := by
  cases field <;> simp [required]

end Json

open Json

namespace Position

def slots : List (Slot Draft (String × Value)) :=
  [ .field readValue "x" Draft.x,
    .field readValue "y" Draft.y ]

theorem slotted : @Slotted Draft _ (Record.step? Position) slots where
  step_iff := by
    rintro ⟨x, y⟩ ⟨k, v⟩ ⟨x', y'⟩
    unfold Record.step? Record.put instRecord
    dsimp only
    split <;> simp_all [slots]
    tauto
  total := by
    rintro ⟨x, y⟩ ⟨k, v⟩
    unfold Record.step? Record.put instRecord
    dsimp only
    split <;> simp_all [slots]
  ext := by
    rintro ⟨x, y⟩ ⟨x', y'⟩
    simp [slots]

/-- What members say about a position. -/
structure SaidBy (p : Position) (ms : List (String × Value)) : Prop where
  x : field? readValue "x" (some none) ms = some p.x
  y : field? readValue "y" (some none) ms = some p.y

theorem ofMembers_eq_ok_iff {ms : List (String × Value)} {p : Position} :
    Record.ofMembers Position ms = .ok p ↔ p.SaidBy ms := by
  rw [Record.ofMembers_eq_ok_iff]
  simp only [slotted.foldlM_iff, slots, List.forall_mem_cons, List.not_mem_nil, false_implies,
    implies_true, and_true, Slot.field]
  constructor
  · rintro ⟨d, ⟨hx, hy⟩, hfinish⟩
    cases hfinish
    exact ⟨field?_default_iff.mpr ⟨_, hx, rfl⟩, field?_default_iff.mpr ⟨_, hy, rfl⟩⟩
  · rintro ⟨hx, hy⟩
    obtain ⟨x, hx, hx'⟩ := field?_default_iff.mp hx
    obtain ⟨y, hy, hy'⟩ := field?_default_iff.mp hy
    refine ⟨⟨x, y⟩, ⟨hx, hy⟩, ?_⟩
    simp [Record.finish, hx', hy']

/-- The members put aside are enough to tell the position. -/
theorem ofUnclaimed_eq_ok_iff {known : List String} (h : "x" ∉ known ∧ "y" ∉ known)
    {ms : List (String × Value)} {p : Position} :
    ofUnclaimed (ms.filter fun m => m.1 ∉ known) = .ok p ↔ p.SaidBy ms := by
  have hfield (name : String) (hname : name ∈ ["x", "y"]) :
      field? readValue name (some none) ((ms.filter fun m => m.1 ∉ known).filter
        fun m => ["x", "y"].contains m.1) =
          (field? readValue name (some none) ms : Option (Option Int32)) := by
    rw [field?_filter, field?_filter]
    · rintro m rfl
      simp only [List.mem_cons, List.not_mem_nil, or_false] at hname
      rcases hname with hm | hm <;> simp [hm, h]
    · rintro m rfl
      simpa using hname
  unfold ofUnclaimed
  rw [ofMembers_eq_ok_iff]
  constructor
  · rintro ⟨hx, hy⟩
    exact ⟨hfield "x" (by simp) ▸ hx, hfield "y" (by simp) ▸ hy⟩
  · rintro ⟨hx, hy⟩
    exact ⟨(hfield "x" (by simp)).trans hx, (hfield "y" (by simp)).trans hy⟩

end Position

namespace QrOptions

def slots : List (Slot Draft (String × Value)) :=
  [ .field readValue "rotation" Draft.rotation,
    .field readValue "model" Draft.model,
    .field readValue "input_mode" Draft.inputMode,
    .field readValue "character_mode" Draft.characterMode,
    .field readValue "error_correction" Draft.errorCorrection,
    .field readValue "magnification" Draft.magnification ]

theorem slotted : @Slotted Draft _ (Record.step? QrOptions) slots where
  step_iff := by
    rintro ⟨rotation, model, inputMode, characterMode, errorCorrection, magnification⟩ ⟨k, v⟩
      ⟨rotation', model', inputMode', characterMode', errorCorrection', magnification'⟩
    unfold Record.step? Record.put instRecord
    dsimp only
    split <;> simp_all [slots] <;> tauto
  total := by
    rintro ⟨rotation, model, inputMode, characterMode, errorCorrection, magnification⟩ ⟨k, v⟩
    unfold Record.step? Record.put instRecord
    dsimp only
    split <;> simp_all [slots]
  ext := by
    rintro ⟨rotation, model, inputMode, characterMode, errorCorrection, magnification⟩
      ⟨rotation', model', inputMode', characterMode', errorCorrection', magnification'⟩
    simp [slots]

structure SaidBy (o : QrOptions) (ms : List (String × Value)) : Prop where
  rotation : field? readValue "rotation" (some default) ms = some o.rotation
  model : field? readValue "model" (some default) ms = some o.model
  inputMode : field? readValue "input_mode" (some default) ms = some o.inputMode
  characterMode : field? readValue "character_mode" (some default) ms = some o.characterMode
  errorCorrection : field? readValue "error_correction" (some default) ms = some o.errorCorrection
  magnification : field? readValue "magnification" (some default) ms = some o.magnification

theorem ofMembers_eq_ok_iff {ms : List (String × Value)} {o : QrOptions} :
    Record.ofMembers QrOptions ms = .ok o ↔ o.SaidBy ms := by
  rw [Record.ofMembers_eq_ok_iff]
  simp only [slotted.foldlM_iff, slots, List.forall_mem_cons, List.not_mem_nil, false_implies,
    implies_true, and_true, Slot.field]
  constructor
  · rintro ⟨d, ⟨hrotation, hmodel, hinput, hcharacter, hcorrection, hmagnification⟩, hfinish⟩
    cases hfinish
    exact
      { rotation := field?_default_iff.mpr ⟨_, hrotation, rfl⟩
        model := field?_default_iff.mpr ⟨_, hmodel, rfl⟩
        inputMode := field?_default_iff.mpr ⟨_, hinput, rfl⟩
        characterMode := field?_default_iff.mpr ⟨_, hcharacter, rfl⟩
        errorCorrection := field?_default_iff.mpr ⟨_, hcorrection, rfl⟩
        magnification := field?_default_iff.mpr ⟨_, hmagnification, rfl⟩ }
  · rintro ⟨hrotation, hmodel, hinput, hcharacter, hcorrection, hmagnification⟩
    obtain ⟨rotation, hrotation, hrotation'⟩ := field?_default_iff.mp hrotation
    obtain ⟨model, hmodel, hmodel'⟩ := field?_default_iff.mp hmodel
    obtain ⟨inputMode, hinput, hinput'⟩ := field?_default_iff.mp hinput
    obtain ⟨characterMode, hcharacter, hcharacter'⟩ := field?_default_iff.mp hcharacter
    obtain ⟨errorCorrection, hcorrection, hcorrection'⟩ := field?_default_iff.mp hcorrection
    obtain ⟨magnification, hmagnification, hmagnification'⟩ := field?_default_iff.mp hmagnification
    refine ⟨⟨rotation, model, inputMode, characterMode, errorCorrection, magnification⟩,
      ⟨hrotation, hmodel, hinput, hcharacter, hcorrection, hmagnification⟩, ?_⟩
    simp [Record.finish, hrotation', hmodel', hinput', hcharacter', hcorrection', hmagnification']

theorem ofUnclaimed_eq_ok_iff {known : List String} (h : ∀ name ∈ fieldNames, name ∉ known)
    {ms : List (String × Value)} {o : QrOptions} :
    ofUnclaimed (ms.filter fun m => m.1 ∉ known) = .ok o ↔ o.SaidBy ms := by
  have hfield {α : Type} [FromValue α] (name : String) (hname : name ∈ fieldNames)
      (default : Option α) :
      field? readValue name default ((ms.filter fun m => m.1 ∉ known).filter
        fun m => fieldNames.contains m.1) = field? readValue name default ms := by
    rw [field?_filter, field?_filter]
    · rintro m rfl
      simp [h m.1 hname]
    · rintro m rfl
      simpa using hname
  unfold ofUnclaimed
  rw [ofMembers_eq_ok_iff]
  constructor
  · rintro ⟨h₁, h₂, h₃, h₄, h₅, h₆⟩
    rw [hfield _ (by simp [fieldNames])] at h₁ h₂ h₃ h₄ h₅ h₆
    exact ⟨h₁, h₂, h₃, h₄, h₅, h₆⟩
  · rintro ⟨h₁, h₂, h₃, h₄, h₅, h₆⟩
    constructor <;> rw [hfield _ (by simp [fieldNames])] <;> assumption

end QrOptions

namespace TextField

def slots : List (Slot Draft (String × Value)) :=
  [ .field readValue "font" Draft.font,
    .field readValue "font_size" Draft.fontSize,
    .field readValue "rotation" Draft.rotation,
    .field readValue "content" Draft.content,
    .others ["font", "font_size", "rotation", "content"] Draft.unclaimed ]

theorem slotted : @Slotted Draft _ (Record.step? TextField) slots where
  step_iff := by
    rintro ⟨font, fontSize, rotation, content, unclaimed⟩ ⟨k, v⟩
      ⟨font', fontSize', rotation', content', unclaimed'⟩
    unfold Record.step? Record.put instRecord
    dsimp only
    split <;> simp_all [slots] <;> tauto
  total := by
    rintro ⟨font, fontSize, rotation, content, unclaimed⟩ ⟨k, v⟩
    unfold Record.step? Record.put instRecord
    dsimp only
    split <;> simp_all [slots]
  ext := by
    rintro ⟨font, fontSize, rotation, content, unclaimed⟩
      ⟨font', fontSize', rotation', content', unclaimed'⟩
    simp [slots]

structure SaidBy (t : TextField) (ms : List (String × Value)) : Prop where
  position : t.position.SaidBy ms
  font : field? readValue "font" (some none) ms = some t.font
  fontSize : field? readValue "font_size" (some none) ms = some t.fontSize
  rotation : field? readValue "rotation" (some default) ms = some t.rotation
  content : field? readValue "content" none ms = some t.content

theorem finish_eq_ok_iff {d : Draft} {t : TextField} :
    Record.finish d = .ok t ↔
      d.content = some t.content ∧ Position.ofUnclaimed d.unclaimed = .ok t.position ∧
        d.font.getD none = t.font ∧ d.fontSize.getD none = t.fontSize ∧
          d.rotation.getD default = t.rotation := by
  cases t
  simp [Record.finish]

theorem ofMembers_eq_ok_iff {ms : List (String × Value)} {t : TextField} :
    Record.ofMembers TextField ms = .ok t ↔ t.SaidBy ms := by
  rw [Record.ofMembers_eq_ok_iff]
  simp only [slotted.foldlM_iff, slots, List.forall_mem_cons, List.not_mem_nil, false_implies,
    implies_true, and_true, Slot.field, Slot.others, foldlM_keepSlot]
  constructor
  · rintro ⟨d, ⟨hfont, hsize, hrotation, hcontent, hothers⟩, hfinish⟩
    obtain ⟨hcontent', hposition, hfont', hsize', hrotation'⟩ := finish_eq_ok_iff.mp hfinish
    rw [← Option.some.inj hothers] at hposition
    rw [hcontent'] at hcontent
    exact
      { position := (Position.ofUnclaimed_eq_ok_iff (by simp)).mp hposition
        font := field?_default_iff.mpr ⟨_, hfont, hfont'⟩
        fontSize := field?_default_iff.mpr ⟨_, hsize, hsize'⟩
        rotation := field?_default_iff.mpr ⟨_, hrotation, hrotation'⟩
        content := field?_required_iff.mpr hcontent }
  · rintro ⟨hposition, hfont, hsize, hrotation, hcontent⟩
    obtain ⟨font, hfont, hfont'⟩ := field?_default_iff.mp hfont
    obtain ⟨size, hsize, hsize'⟩ := field?_default_iff.mp hsize
    obtain ⟨rotation, hrotation, hrotation'⟩ := field?_default_iff.mp hrotation
    rw [field?_required_iff] at hcontent
    refine ⟨⟨font, size, rotation, some t.content, _⟩,
      ⟨hfont, hsize, hrotation, hcontent, rfl⟩, ?_⟩
    exact finish_eq_ok_iff.mpr
      ⟨rfl, (Position.ofUnclaimed_eq_ok_iff (by simp)).mpr hposition, hfont', hsize', hrotation'⟩

end TextField

namespace QrField

def slots : List (Slot Draft (String × Value)) :=
  [ .field readValue "text" Draft.text,
    .others ["text"] Draft.unclaimed ]

theorem slotted : @Slotted Draft _ (Record.step? QrField) slots where
  step_iff := by
    rintro ⟨text, unclaimed⟩ ⟨k, v⟩ ⟨text', unclaimed'⟩
    unfold Record.step? Record.put instRecord
    dsimp only
    split <;> simp_all [slots]
  total := by
    rintro ⟨text, unclaimed⟩ ⟨k, v⟩
    unfold Record.step? Record.put instRecord
    dsimp only
    split <;> simp_all [slots]
  ext := by
    rintro ⟨text, unclaimed⟩ ⟨text', unclaimed'⟩
    simp [slots]

structure SaidBy (q : QrField) (ms : List (String × Value)) : Prop where
  position : q.position.SaidBy ms
  options : q.options.SaidBy ms
  text : field? readValue "text" none ms = some q.text

theorem finish_eq_ok_iff {d : Draft} {q : QrField} :
    Record.finish d = .ok q ↔
      d.text = some q.text ∧ Position.ofUnclaimed d.unclaimed = .ok q.position ∧
        QrOptions.ofUnclaimed d.unclaimed = .ok q.options := by
  cases q
  simp [Record.finish]

theorem ofMembers_eq_ok_iff {ms : List (String × Value)} {q : QrField} :
    Record.ofMembers QrField ms = .ok q ↔ q.SaidBy ms := by
  rw [Record.ofMembers_eq_ok_iff]
  simp only [slotted.foldlM_iff, slots, List.forall_mem_cons, List.not_mem_nil, false_implies,
    implies_true, and_true, Slot.field, Slot.others, foldlM_keepSlot]
  constructor
  · rintro ⟨d, ⟨htext, hothers⟩, hfinish⟩
    obtain ⟨htext', hposition, hoptions⟩ := finish_eq_ok_iff.mp hfinish
    rw [← Option.some.inj hothers] at hposition hoptions
    rw [htext'] at htext
    exact
      { position := (Position.ofUnclaimed_eq_ok_iff (by simp)).mp hposition
        options := (QrOptions.ofUnclaimed_eq_ok_iff (by simp [QrOptions.fieldNames])).mp hoptions
        text := field?_required_iff.mpr htext }
  · rintro ⟨hposition, hoptions, htext⟩
    rw [field?_required_iff] at htext
    refine ⟨⟨some q.text, _⟩, ⟨htext, rfl⟩, ?_⟩
    exact finish_eq_ok_iff.mpr
      ⟨rfl, (Position.ofUnclaimed_eq_ok_iff (by simp)).mpr hposition,
        (QrOptions.ofUnclaimed_eq_ok_iff (by simp [QrOptions.fieldNames])).mpr hoptions⟩

end QrField

namespace GraphicBox

def slots : List (Slot Draft (String × Value)) :=
  [ .field readValue "width" Draft.width,
    .field readValue "height" Draft.height,
    .field readValue "thickness" Draft.thickness,
    .field readValue "color" Draft.color,
    .field readValue "rounding" Draft.rounding,
    .others ["width", "height", "thickness", "color", "rounding"] Draft.unclaimed ]

theorem slotted : @Slotted Draft _ (Record.step? GraphicBox) slots where
  step_iff := by
    rintro ⟨width, height, thickness, color, rounding, unclaimed⟩ ⟨k, v⟩
      ⟨width', height', thickness', color', rounding', unclaimed'⟩
    unfold Record.step? Record.put instRecord
    dsimp only
    split <;> simp_all [slots] <;> tauto
  total := by
    rintro ⟨width, height, thickness, color, rounding, unclaimed⟩ ⟨k, v⟩
    unfold Record.step? Record.put instRecord
    dsimp only
    split <;> simp_all [slots]
  ext := by
    rintro ⟨width, height, thickness, color, rounding, unclaimed⟩
      ⟨width', height', thickness', color', rounding', unclaimed'⟩
    simp [slots]

structure SaidBy (b : GraphicBox) (ms : List (String × Value)) : Prop where
  position : b.position.SaidBy ms
  width : field? readValue "width" none ms = some b.width
  height : field? readValue "height" none ms = some b.height
  thickness : field? readValue "thickness" (some 1) ms = some b.thickness
  color : field? readValue "color" (some default) ms = some b.color
  rounding : field? readValue "rounding" (some 0) ms = some b.rounding

theorem finish_eq_ok_iff {d : Draft} {b : GraphicBox} :
    Record.finish d = .ok b ↔
      d.width = some b.width ∧ d.height = some b.height ∧
        Position.ofUnclaimed d.unclaimed = .ok b.position ∧ d.thickness.getD 1 = b.thickness ∧
          d.color.getD default = b.color ∧ d.rounding.getD 0 = b.rounding := by
  cases b
  simp [Record.finish]

theorem ofMembers_eq_ok_iff {ms : List (String × Value)} {b : GraphicBox} :
    Record.ofMembers GraphicBox ms = .ok b ↔ b.SaidBy ms := by
  rw [Record.ofMembers_eq_ok_iff]
  simp only [slotted.foldlM_iff, slots, List.forall_mem_cons, List.not_mem_nil, false_implies,
    implies_true, and_true, Slot.field, Slot.others, foldlM_keepSlot]
  constructor
  · rintro ⟨d, ⟨hwidth, hheight, hthickness, hcolor, hrounding, hothers⟩, hfinish⟩
    obtain ⟨hwidth', hheight', hposition, hthickness', hcolor', hrounding'⟩ :=
      finish_eq_ok_iff.mp hfinish
    rw [← Option.some.inj hothers] at hposition
    rw [hwidth'] at hwidth
    rw [hheight'] at hheight
    exact
      { position := (Position.ofUnclaimed_eq_ok_iff (by simp)).mp hposition
        width := field?_required_iff.mpr hwidth
        height := field?_required_iff.mpr hheight
        thickness := field?_default_iff.mpr ⟨_, hthickness, hthickness'⟩
        color := field?_default_iff.mpr ⟨_, hcolor, hcolor'⟩
        rounding := field?_default_iff.mpr ⟨_, hrounding, hrounding'⟩ }
  · rintro ⟨hposition, hwidth, hheight, hthickness, hcolor, hrounding⟩
    obtain ⟨thickness, hthickness, hthickness'⟩ := field?_default_iff.mp hthickness
    obtain ⟨color, hcolor, hcolor'⟩ := field?_default_iff.mp hcolor
    obtain ⟨rounding, hrounding, hrounding'⟩ := field?_default_iff.mp hrounding
    rw [field?_required_iff] at hwidth hheight
    refine ⟨⟨some b.width, some b.height, thickness, color, rounding, _⟩,
      ⟨hwidth, hheight, hthickness, hcolor, hrounding, rfl⟩, ?_⟩
    exact finish_eq_ok_iff.mpr
      ⟨rfl, rfl, (Position.ofUnclaimed_eq_ok_iff (by simp)).mpr hposition, hthickness', hcolor',
        hrounding'⟩

end GraphicBox

namespace CustomCommand

def slots : List (Slot Draft (String × Value)) :=
  [ .field readValue "mnemonic" Draft.mnemonic,
    .field readValue "z" Draft.z,
    .others ["mnemonic", "z"] Draft.unclaimed ]

theorem slotted : @Slotted Draft _ (Record.step? CustomCommand) slots where
  step_iff := by
    rintro ⟨mnemonic, z, unclaimed⟩ ⟨k, v⟩ ⟨mnemonic', z', unclaimed'⟩
    unfold Record.step? Record.put instRecord
    dsimp only
    split <;> simp_all [slots]
    tauto
  total := by
    rintro ⟨mnemonic, z, unclaimed⟩ ⟨k, v⟩
    unfold Record.step? Record.put instRecord
    dsimp only
    split <;> simp_all [slots]
  ext := by
    rintro ⟨mnemonic, z, unclaimed⟩ ⟨mnemonic', z', unclaimed'⟩
    simp [slots]

structure SaidBy (c : CustomCommand) (ms : List (String × Value)) : Prop where
  position : c.position.SaidBy ms
  mnemonic : field? readValue "mnemonic" none ms = some c.mnemonic
  z : field? readValue "z" (some none) ms = some c.z

theorem finish_eq_ok_iff {d : Draft} {c : CustomCommand} :
    Record.finish d = .ok c ↔
      d.mnemonic = some c.mnemonic ∧ Position.ofUnclaimed d.unclaimed = .ok c.position ∧
        d.z.getD none = c.z := by
  cases c
  simp [Record.finish]

theorem ofMembers_eq_ok_iff {ms : List (String × Value)} {c : CustomCommand} :
    Record.ofMembers CustomCommand ms = .ok c ↔ c.SaidBy ms := by
  rw [Record.ofMembers_eq_ok_iff]
  simp only [slotted.foldlM_iff, slots, List.forall_mem_cons, List.not_mem_nil, false_implies,
    implies_true, and_true, Slot.field, Slot.others, foldlM_keepSlot]
  constructor
  · rintro ⟨d, ⟨hmnemonic, hz, hothers⟩, hfinish⟩
    obtain ⟨hmnemonic', hposition, hz'⟩ := finish_eq_ok_iff.mp hfinish
    rw [← Option.some.inj hothers] at hposition
    rw [hmnemonic'] at hmnemonic
    exact
      { position := (Position.ofUnclaimed_eq_ok_iff (by simp)).mp hposition
        mnemonic := field?_required_iff.mpr hmnemonic
        z := field?_default_iff.mpr ⟨_, hz, hz'⟩ }
  · rintro ⟨hposition, hmnemonic, hz⟩
    obtain ⟨z, hz, hz'⟩ := field?_default_iff.mp hz
    rw [field?_required_iff] at hmnemonic
    refine ⟨⟨some c.mnemonic, z, _⟩, ⟨hmnemonic, hz, rfl⟩, ?_⟩
    exact finish_eq_ok_iff.mpr
      ⟨rfl, (Position.ofUnclaimed_eq_ok_iff (by simp)).mpr hposition, hz'⟩

end CustomCommand

namespace NativeZpl

def slots : List (Slot Draft (String × Value)) :=
  [ .field readValue "zpl" Draft.zpl,
    .others ["zpl"] Draft.unclaimed ]

theorem slotted : @Slotted Draft _ (Record.step? NativeZpl) slots where
  step_iff := by
    rintro ⟨zpl, unclaimed⟩ ⟨k, v⟩ ⟨zpl', unclaimed'⟩
    unfold Record.step? Record.put instRecord
    dsimp only
    split <;> simp_all [slots]
  total := by
    rintro ⟨zpl, unclaimed⟩ ⟨k, v⟩
    unfold Record.step? Record.put instRecord
    dsimp only
    split <;> simp_all [slots]
  ext := by
    rintro ⟨zpl, unclaimed⟩ ⟨zpl', unclaimed'⟩
    simp [slots]

structure SaidBy (n : NativeZpl) (ms : List (String × Value)) : Prop where
  position : n.position.SaidBy ms
  zpl : field? readValue "zpl" none ms = some n.zpl

theorem finish_eq_ok_iff {d : Draft} {n : NativeZpl} :
    Record.finish d = .ok n ↔
      d.zpl = some n.zpl ∧ Position.ofUnclaimed d.unclaimed = .ok n.position := by
  cases n
  simp [Record.finish]

theorem ofMembers_eq_ok_iff {ms : List (String × Value)} {n : NativeZpl} :
    Record.ofMembers NativeZpl ms = .ok n ↔ n.SaidBy ms := by
  rw [Record.ofMembers_eq_ok_iff]
  simp only [slotted.foldlM_iff, slots, List.forall_mem_cons, List.not_mem_nil, false_implies,
    implies_true, and_true, Slot.field, Slot.others, foldlM_keepSlot]
  constructor
  · rintro ⟨d, ⟨hzpl, hothers⟩, hfinish⟩
    obtain ⟨hzpl', hposition⟩ := finish_eq_ok_iff.mp hfinish
    rw [← Option.some.inj hothers] at hposition
    rw [hzpl'] at hzpl
    exact
      { position := (Position.ofUnclaimed_eq_ok_iff (by simp)).mp hposition
        zpl := field?_required_iff.mpr hzpl }
  · rintro ⟨hposition, hzpl⟩
    rw [field?_required_iff] at hzpl
    refine ⟨⟨some n.zpl, _⟩, ⟨hzpl, rfl⟩, ?_⟩
    exact finish_eq_ok_iff.mpr
      ⟨rfl, (Position.ofUnclaimed_eq_ok_iff (by simp)).mpr hposition⟩

end NativeZpl

end LabelPress

import LabelPress.Proofs.Document.Meaning
import LabelPress.Proofs.Document.Tagged

/-! Records by their fields. The members of an object say each field of its record apart, so no
field is said twice, and what one member says can be replaced without changing the other fields. -/
namespace LabelPress

namespace Json

variable {V α ρ : Type}

theorem countP_le_one_of_field? {read : V → Option α} {name : String} {default : Option α}
    {ms : List (String × V)} {a : α} (h : field? read name default ms = some a) :
    ms.countP (fun m => m.1 = name) ≤ 1 := by
  rw [List.countP_eq_length_filter]
  unfold field? at h
  split at h
  · rename_i hnil
    simp [hnil]
  · rename_i m hone
    simp [hone]
  · contradiction

section

variable {read : V → Option α} {name : String} {default : Option α}
  {before after : List (String × V)}

theorem field?_insert {v₀ : V} {a₀ : α}
    (h : field? read name default (before ++ (name, v₀) :: after) = some a₀) (v : V) :
    field? read name default (before ++ (name, v) :: after) = read v := by
  have hcount := countP_le_one_of_field? h
  rw [List.countP_append, List.countP_cons_of_pos (by simp)] at hcount
  have hbefore : before.filter (fun m => m.1 = name) = [] := by
    rw [← List.length_eq_zero_iff, ← List.countP_eq_length_filter]
    omega
  have hafter : after.filter (fun m => m.1 = name) = [] := by
    rw [← List.length_eq_zero_iff, ← List.countP_eq_length_filter]
    omega
  unfold field?
  rw [List.filter_append, List.filter_cons_of_pos (by simp), hbefore, hafter]
  rfl

theorem field?_insert_ne {k : String} (h : k ≠ name) (v v' : V) :
    field? read name default (before ++ (k, v) :: after) =
      field? read name default (before ++ (k, v') :: after) := by
  unfold field?
  simp [List.filter_append, h]

end

/-- A field of a record: how members say it, and its place in the record. -/
structure Field (V ρ : Type) where
  Kept : Type
  name : String
  read : V → Option Kept
  default : Option Kept
  get : ρ → Kept
  set : ρ → Kept → ρ

namespace Field

/-- The members say what the record holds in the field. -/
def Says (f : Field V ρ) (r : ρ) (ms : List (String × V)) : Prop :=
  field? f.read f.name f.default ms = some (f.get r)

def ofTree (depth : Nat) (f : Field Value ρ) : Field Tree ρ where
  Kept := f.Kept
  name := f.name
  read t := (t.value? depth).bind f.read
  default := f.default
  get := f.get
  set := f.set

/-- The fields have different names and do not depend on each other, and there are no more. -/
structure Independent (fields : List (Field V ρ)) : Prop where
  nodup : (fields.map name).Nodup
  ext (r r' : ρ) : (∀ f ∈ fields, f.get r = f.get r') → r = r'
  get_set : ∀ f ∈ fields, ∀ r a, f.get (f.set r a) = a
  get_set_ne : ∀ f ∈ fields, ∀ g ∈ fields, g.name ≠ f.name → ∀ r a, g.get (f.set r a) = g.get r

section

variable {depth : Nat} {fields : List (Field Value ρ)}

theorem map_name_ofTree : (fields.map (ofTree depth)).map name = fields.map name := by
  simp [Function.comp_def, ofTree]

theorem isSome_value?_of_ofTree {f : Field Value ρ} {t : Tree}
    (h : ((f.ofTree depth).read t).isSome) : (t.value? depth).isSome := by
  cases hvalue : t.value? depth with
  | none => simp [ofTree, hvalue] at h
  | some v => rfl

theorem Independent.map_ofTree (h : Independent fields) (depth : Nat) :
    Independent (fields.map (ofTree depth)) where
  nodup := by
    rw [map_name_ofTree]
    exact h.nodup
  ext r r' hget := h.ext r r' fun f hf => hget _ (List.mem_map_of_mem hf)
  get_set := by
    simp only [List.forall_mem_map]
    exact h.get_set
  get_set_ne := by
    simp only [List.forall_mem_map]
    exact h.get_set_ne

end

end Field

/-- Members say a record if they say all its fields and each of them is admitted. -/
structure Fielded (said : ρ → List (String × V) → Prop) (admits : String × V → Prop)
    (fields : List (Field V ρ)) : Prop extends Field.Independent fields where
  said_iff (r : ρ) (ms : List (String × V)) :
    said r ms ↔ (∀ m ∈ ms, admits m) ∧ ∀ f ∈ fields, f.Says r ms
  admits_read : ∀ f ∈ fields, ∀ v, (f.read v).isSome → admits (f.name, v)

namespace Fielded

variable {said : ρ → List (String × V) → Prop} {admits : String × V → Prop}
  {fields : List (Field V ρ)} (h : Fielded said admits fields)

include h

theorem countP_le_one {r : ρ} {ms : List (String × V)} (hr : said r ms) {f : Field V ρ}
    (hf : f ∈ fields) : ms.countP (fun m => m.1 = f.name) ≤ 1 :=
  countP_le_one_of_field? (((h.said_iff r ms).mp hr).2 f hf)

theorem eq_of_name {f g : Field V ρ} (hf : f ∈ fields) (hg : g ∈ fields) (hname : g.name = f.name) :
    g = f :=
  List.inj_on_of_nodup_map h.nodup hg hf hname

/-- Another value for one field gives the record with another content of this field, if the value
can be read, and no record if it cannot. -/
theorem said_insert_iff {f : Field V ρ} (hf : f ∈ fields) {before after : List (String × V)}
    {v₀ : V} {r₀ : ρ} (h₀ : said r₀ (before ++ (f.name, v₀) :: after)) (v : V) (r : ρ) :
    said r (before ++ (f.name, v) :: after) ↔ ∃ a, f.read v = some a ∧ r = f.set r₀ a := by
  rw [h.said_iff] at h₀ ⊢
  obtain ⟨hadmits₀, hheld₀⟩ := h₀
  have hread := field?_insert (hheld₀ f hf) v
  constructor
  · rintro ⟨-, hheld⟩
    refine ⟨f.get r, hread ▸ hheld f hf, h.ext _ _ fun g hg => ?_⟩
    by_cases hname : g.name = f.name
    · cases h.eq_of_name hf hg hname
      exact (h.get_set f hf r₀ _).symm
    · rw [h.get_set_ne f hf g hg hname]
      have hsame : field? g.read g.name g.default (before ++ (f.name, v) :: after) =
          field? g.read g.name g.default (before ++ (f.name, v₀) :: after) :=
        field?_insert_ne (Ne.symm hname) v v₀
      exact Option.some.inj ((hheld g hg).symm.trans (hsame.trans (hheld₀ g hg)))
  · rintro ⟨a, ha, rfl⟩
    constructor
    · intro m hm
      rcases List.mem_append.mp hm with hm | hm
      · exact hadmits₀ m (List.mem_append_left _ hm)
      · rcases List.mem_cons.mp hm with rfl | hm
        · exact h.admits_read f hf v (by simp [ha])
        · exact hadmits₀ m (List.mem_append_right _ (List.mem_cons_of_mem _ hm))
    · intro g hg
      by_cases hname : g.name = f.name
      · cases h.eq_of_name hf hg hname
        unfold Field.Says
        rw [hread, ha, h.get_set f hf]
      · unfold Field.Says
        rw [h.get_set_ne f hf g hg hname, field?_insert_ne (Ne.symm hname) v v₀]
        exact hheld₀ g hg

end Fielded

end Json

open Json
open Json.Reader hiding true false null

def Position.fields {ρ : Type} (get : ρ → Position) (set : ρ → Position → ρ) :
    List (Field Value ρ) :=
  [ ⟨Option Int32, "x", readValue, some none, fun r => (get r).x,
      fun r x => set r { get r with x }⟩,
    ⟨Option Int32, "y", readValue, some none, fun r => (get r).y,
      fun r y => set r { get r with y }⟩ ]

def CustomCommand.fields : List (Field Value CustomCommand) :=
  Position.fields position (fun c position => { c with position }) ++
    [ ⟨String, "mnemonic", readValue, none, mnemonic, fun c mnemonic => { c with mnemonic }⟩,
      ⟨Option Int32, "z", readValue, some none, z, fun c z => { c with z }⟩ ]

def QrField.fields : List (Field Value QrField) :=
  Position.fields position (fun q position => { q with position }) ++
    [ ⟨String, "text", readValue, none, text, fun q text => { q with text }⟩,
      ⟨Rotation, "rotation", readValue, some default, fun q => q.options.rotation,
        fun q rotation => { q with options := { q.options with rotation } }⟩,
      ⟨QrModel, "model", readValue, some default, fun q => q.options.model,
        fun q model => { q with options := { q.options with model } }⟩,
      ⟨QrInputMode, "input_mode", readValue, some default, fun q => q.options.inputMode,
        fun q inputMode => { q with options := { q.options with inputMode } }⟩,
      ⟨QrCharacterMode, "character_mode", readValue, some default, fun q => q.options.characterMode,
        fun q characterMode => { q with options := { q.options with characterMode } }⟩,
      ⟨QrErrorCorrection, "error_correction", readValue, some default,
        fun q => q.options.errorCorrection,
        fun q errorCorrection => { q with options := { q.options with errorCorrection } }⟩,
      ⟨Magnification, "magnification", readValue, some default, fun q => q.options.magnification,
        fun q magnification => { q with options := { q.options with magnification } }⟩ ]

def TextField.fields : List (Field Value TextField) :=
  Position.fields position (fun t position => { t with position }) ++
    [ ⟨Option Font, "font", readValue, some none, font, fun t font => { t with font }⟩,
      ⟨Option UInt32, "font_size", readValue, some none, fontSize,
        fun t fontSize => { t with fontSize }⟩,
      ⟨Rotation, "rotation", readValue, some default, rotation,
        fun t rotation => { t with rotation }⟩,
      ⟨String, "content", readValue, none, content, fun t content => { t with content }⟩ ]

def GraphicBox.fields : List (Field Value GraphicBox) :=
  Position.fields position (fun b position => { b with position }) ++
    [ ⟨Int32, "width", readValue, none, width, fun b width => { b with width }⟩,
      ⟨Int32, "height", readValue, none, height, fun b height => { b with height }⟩,
      ⟨Int32, "thickness", readValue, some 1, thickness, fun b thickness => { b with thickness }⟩,
      ⟨LineColor, "color", readValue, some default, color, fun b color => { b with color }⟩,
      ⟨UInt8, "rounding", readValue, some 0, rounding, fun b rounding => { b with rounding }⟩ ]

def NativeZpl.fields : List (Field Value NativeZpl) :=
  Position.fields position (fun n position => { n with position }) ++
    [⟨String, "zpl", readValue, none, zpl, fun n zpl => { n with zpl }⟩]

section

variable {ms : List (String × Value)}

theorem CustomCommand.saidBy_iff {c : CustomCommand} :
    c.SaidBy ms ↔ ∀ f ∈ fields, f.Says c ms := by
  simp only [fields, Position.fields, List.cons_append, List.nil_append, List.forall_mem_cons,
    List.not_mem_nil, false_implies, implies_true, and_true]
  constructor
  · rintro ⟨⟨hx, hy⟩, hmnemonic, hz⟩
    exact ⟨hx, hy, hmnemonic, hz⟩
  · rintro ⟨hx, hy, hmnemonic, hz⟩
    exact ⟨⟨hx, hy⟩, hmnemonic, hz⟩

theorem QrField.saidBy_iff {q : QrField} : q.SaidBy ms ↔ ∀ f ∈ fields, f.Says q ms := by
  simp only [fields, Position.fields, List.cons_append, List.nil_append, List.forall_mem_cons,
    List.not_mem_nil, false_implies, implies_true, and_true]
  constructor
  · rintro ⟨⟨hx, hy⟩, ⟨hrotation, hmodel, hinput, hcharacter, hcorrection, hmagnification⟩, htext⟩
    exact ⟨hx, hy, htext, hrotation, hmodel, hinput, hcharacter, hcorrection, hmagnification⟩
  · rintro ⟨hx, hy, htext, hrotation, hmodel, hinput, hcharacter, hcorrection, hmagnification⟩
    exact ⟨⟨hx, hy⟩, ⟨hrotation, hmodel, hinput, hcharacter, hcorrection, hmagnification⟩, htext⟩

theorem TextField.saidBy_iff {t : TextField} : t.SaidBy ms ↔ ∀ f ∈ fields, f.Says t ms := by
  simp only [fields, Position.fields, List.cons_append, List.nil_append, List.forall_mem_cons,
    List.not_mem_nil, false_implies, implies_true, and_true]
  constructor
  · rintro ⟨⟨hx, hy⟩, hfont, hsize, hrotation, hcontent⟩
    exact ⟨hx, hy, hfont, hsize, hrotation, hcontent⟩
  · rintro ⟨hx, hy, hfont, hsize, hrotation, hcontent⟩
    exact ⟨⟨hx, hy⟩, hfont, hsize, hrotation, hcontent⟩

theorem GraphicBox.saidBy_iff {b : GraphicBox} : b.SaidBy ms ↔ ∀ f ∈ fields, f.Says b ms := by
  simp only [fields, Position.fields, List.cons_append, List.nil_append, List.forall_mem_cons,
    List.not_mem_nil, false_implies, implies_true, and_true]
  constructor
  · rintro ⟨⟨hx, hy⟩, hwidth, hheight, hthickness, hcolor, hrounding⟩
    exact ⟨hx, hy, hwidth, hheight, hthickness, hcolor, hrounding⟩
  · rintro ⟨hx, hy, hwidth, hheight, hthickness, hcolor, hrounding⟩
    exact ⟨⟨hx, hy⟩, hwidth, hheight, hthickness, hcolor, hrounding⟩

theorem NativeZpl.saidBy_iff {n : NativeZpl} : n.SaidBy ms ↔ ∀ f ∈ fields, f.Says n ms := by
  simp only [fields, Position.fields, List.cons_append, List.nil_append, List.forall_mem_cons,
    List.not_mem_nil, false_implies, implies_true, and_true]
  constructor
  · rintro ⟨⟨hx, hy⟩, hzpl⟩
    exact ⟨hx, hy, hzpl⟩
  · rintro ⟨hx, hy, hzpl⟩
    exact ⟨⟨hx, hy⟩, hzpl⟩

end

namespace Element.Kind

def fields : (k : Kind) → List (Field Value k.Body)
  | customCommand => CustomCommand.fields
  | qrCode => QrField.fields
  | text => TextField.fields
  | graphicBox => GraphicBox.fields
  | native => NativeZpl.fields

theorem ofMembers_eq_ok_iff (k : Kind) {ms : List (String × Value)} {b : k.Body} :
    Record.ofMembers k.Body ms = .ok b ↔ ∀ f ∈ k.fields, f.Says b ms := by
  cases k with
  | customCommand => exact CustomCommand.ofMembers_eq_ok_iff.trans CustomCommand.saidBy_iff
  | qrCode => exact QrField.ofMembers_eq_ok_iff.trans QrField.saidBy_iff
  | text => exact TextField.ofMembers_eq_ok_iff.trans TextField.saidBy_iff
  | graphicBox => exact GraphicBox.ofMembers_eq_ok_iff.trans GraphicBox.saidBy_iff
  | native => exact NativeZpl.ofMembers_eq_ok_iff.trans NativeZpl.saidBy_iff

end Element.Kind

theorem CustomCommand.independent : Field.Independent fields where
  nodup := by decide
  ext := by
    rintro ⟨mnemonic, ⟨x, y⟩, z⟩ ⟨mnemonic', ⟨x', y'⟩, z'⟩
    simp +contextual [fields, Position.fields]
  get_set := by simp [fields, Position.fields]
  get_set_ne := by simp [fields, Position.fields]

theorem QrField.independent : Field.Independent fields where
  nodup := by decide
  ext := by
    rintro ⟨⟨x, y⟩, ⟨rotation, model, input, character, correction, magnification⟩, text⟩
      ⟨⟨x', y'⟩, ⟨rotation', model', input', character', correction', magnification'⟩, text'⟩
    simp +contextual [fields, Position.fields]
  get_set := by simp [fields, Position.fields]
  get_set_ne := by simp [fields, Position.fields]

theorem TextField.independent : Field.Independent fields where
  nodup := by decide
  ext := by
    rintro ⟨⟨x, y⟩, font, fontSize, rotation, content⟩
      ⟨⟨x', y'⟩, font', fontSize', rotation', content'⟩
    simp +contextual [fields, Position.fields]
  get_set := by simp [fields, Position.fields]
  get_set_ne := by simp [fields, Position.fields]

theorem GraphicBox.independent : Field.Independent fields where
  nodup := by decide
  ext := by
    rintro ⟨⟨x, y⟩, width, height, thickness, color, rounding⟩
      ⟨⟨x', y'⟩, width', height', thickness', color', rounding'⟩
    simp +contextual [fields, Position.fields]
  get_set := by simp [fields, Position.fields]
  get_set_ne := by simp [fields, Position.fields]

theorem NativeZpl.independent : Field.Independent fields where
  nodup := by decide
  ext := by
    rintro ⟨⟨x, y⟩, zpl⟩ ⟨⟨x', y'⟩, zpl'⟩
    simp +contextual [fields, Position.fields]
  get_set := by simp [fields, Position.fields]
  get_set_ne := by simp [fields, Position.fields]

namespace Element.Kind

theorem independent (k : Kind) : Field.Independent k.fields := by
  cases k with
  | customCommand => exact CustomCommand.independent
  | qrCode => exact QrField.independent
  | text => exact TextField.independent
  | graphicBox => exact GraphicBox.independent
  | native => exact NativeZpl.independent

/-- The kind itself, as a field in which nothing is kept. -/
def typeField (k : Kind) : Field Tree k.Body where
  Kept := Unit
  name := "type"
  read t := if kind? t = some k then some () else none
  default := none
  get _ := ()
  set b _ := b

def treeFields (k : Kind) (depth : Nat) : List (Field Tree k.Body) :=
  k.typeField :: k.fields.map (Field.ofTree depth)

theorem not_type_mem_fields (k : Kind) {f : Field Value k.Body} (hf : f ∈ k.fields) :
    f.name ≠ "type" := by
  have hnames : "type" ∉ k.fields.map Field.name := by cases k <;> decide
  rintro hname
  exact hnames (hname ▸ List.mem_map_of_mem hf)

theorem treeFields_independent (k : Kind) (depth : Nat) :
    Field.Independent (k.treeFields depth) where
  nodup := by
    unfold treeFields
    rw [List.map_cons, Field.map_name_ofTree, List.nodup_cons]
    refine ⟨fun htype => ?_, k.independent.nodup⟩
    obtain ⟨f, hf, hname⟩ := List.mem_map.mp htype
    exact k.not_type_mem_fields hf hname
  ext b b' h := (k.independent.map_ofTree depth).ext b b' fun f hf =>
    h f (List.mem_cons_of_mem _ hf)
  get_set := List.forall_mem_cons.mpr ⟨fun _ _ => rfl, (k.independent.map_ofTree depth).get_set⟩
  get_set_ne := by
    simp only [treeFields, List.forall_mem_cons]
    exact ⟨⟨fun h => absurd rfl h, fun _ _ _ _ _ => rfl⟩,
      fun f hf => ⟨fun _ _ _ => rfl, (k.independent.map_ofTree depth).get_set_ne f hf⟩⟩

theorem typeField_says_iff (k : Kind) {b : k.Body} {ns : List (String × Tree)} :
    k.typeField.Says b ns ↔ field? kind? "type" none ns = some k := by
  unfold Field.Says typeField field?
  rcases h : ns.filter fun m => m.1 = "type" with _ | ⟨m, _ | ⟨m', rest⟩⟩ <;> simp [h]

theorem ofTree_says_iff (k : Kind) {depth : Nat} {ns : List (String × Tree)}
    {vs : List (String × Value)}
    (hvs : Tree.namedValues? depth (ns.filter fun n => n.1 ≠ "type") = some vs)
    {f : Field Value k.Body} (hf : f ∈ k.fields) (b : k.Body) :
    (f.ofTree depth).Says b ns ↔ f.Says b vs := by
  have hname := k.not_type_mem_fields hf
  unfold Field.Says Field.ofTree
  rw [Tree.field?_namedValues? hvs, field?_filter]
  intro n hn
  simpa [hn] using hname

end Element.Kind

theorem Json.Tree.isSome_namedValues?_iff {depth : Nat} {ns : List (String × Tree)} :
    (namedValues? depth ns).isSome ↔ ∀ n ∈ ns, (n.2.value? depth).isSome := by
  unfold namedValues?
  induction ns with
  | nil => simp
  | cons n ns ih =>
    rw [List.mapM_cons, List.forall_mem_cons, ← ih]
    cases n.2.value? depth <;> cases ns.mapM fun n => (n.2.value? depth).map (n.1, ·) <;> simp

namespace Element

theorem kind_ofBody {k : Kind} (b : k.Body) : (ofBody b).kind = k := by
  cases k <;> rfl

theorem exists_ofBody (e : Element) : ∃ b : e.kind.Body, ofBody b = e := by
  cases e <;> exact ⟨_, rfl⟩

theorem ofTree?_eq_some_iff {depth : Nat} {ns : List (String × Tree)} {k : Kind} {b : k.Body} :
    ofTree? depth ns = some (ofBody b) ↔
      field? kind? "type" none ns = some k ∧
        ∃ vs, Tree.namedValues? depth (ns.filter fun n => n.1 ≠ "type") = some vs ∧
          Record.ofMembers k.Body vs = .ok b := by
  unfold ofTree?
  simp only [Option.bind_eq_bind, Option.bind_eq_some_iff, toOption_ofValue, Option.map_eq_some_iff,
    toOption_eq_some_iff]
  constructor
  · rintro ⟨k', hkind, vs, hvs, b', hb', heq⟩
    have hk := congrArg kind heq
    rw [kind_ofBody, kind_ofBody] at hk
    subst hk
    cases ofBody_injective heq
    exact ⟨hkind, vs, hvs, hb'⟩
  · rintro ⟨hkind, vs, hvs, hb⟩
    exact ⟨k, hkind, vs, hvs, b, hb, rfl⟩

theorem kind_of_ofTree? {depth : Nat} {ns : List (String × Tree)} {e : Element}
    (h : ofTree? depth ns = some e) : field? kind? "type" none ns = some e.kind := by
  obtain ⟨b, hb⟩ := e.exists_ofBody
  rw [← hb] at h
  exact (ofTree?_eq_some_iff.mp h).1

theorem fielded (k : Kind) (depth : Nat) :
    Fielded (fun (b : k.Body) ns => ofTree? depth ns = some (ofBody b))
      (fun n => n.1 ≠ "type" → (n.2.value? depth).isSome) (k.treeFields depth) where
  toIndependent := k.treeFields_independent depth
  said_iff b ns := by
    rw [ofTree?_eq_some_iff]
    simp only [Kind.treeFields, List.forall_mem_cons, List.forall_mem_map, k.typeField_says_iff]
    have hvalues : (∀ n ∈ ns, n.1 ≠ "type" → (n.2.value? depth).isSome) ↔
        (Tree.namedValues? depth (ns.filter fun n => n.1 ≠ "type")).isSome := by
      simp [Tree.isSome_namedValues?_iff, List.mem_filter]
    rw [hvalues]
    constructor
    · rintro ⟨hkind, vs, hvs, hb⟩
      refine ⟨Option.isSome_iff_exists.mpr ⟨vs, hvs⟩, hkind, fun f hf => ?_⟩
      exact (k.ofTree_says_iff hvs hf b).mpr (k.ofMembers_eq_ok_iff.mp hb f hf)
    · rintro ⟨hsome, hkind, hheld⟩
      obtain ⟨vs, hvs⟩ := Option.isSome_iff_exists.mp hsome
      refine ⟨hkind, vs, hvs, k.ofMembers_eq_ok_iff.mpr fun f hf => ?_⟩
      exact (k.ofTree_says_iff hvs hf b).mp (hheld f hf)
  admits_read := by
    simp only [Kind.treeFields, List.forall_mem_cons, List.forall_mem_map]
    exact ⟨fun _ _ h => absurd rfl h, fun f _ t hread _ => Field.isSome_value?_of_ofTree hread⟩

def Kind.record? (k : Kind) (depth : Nat) (ns : List (String × Tree)) : Option k.Body :=
  (Tree.namedValues? depth ns).bind fun vs => (Record.ofMembers k.Body vs).toOption

theorem Kind.record_fielded (k : Kind) (depth : Nat) :
    Fielded (fun (b : k.Body) ns => k.record? depth ns = some b)
      (fun n => (n.2.value? depth).isSome) (k.fields.map (Field.ofTree depth)) where
  toIndependent := k.independent.map_ofTree depth
  said_iff b ns := by
    have hheldBy {vs : List (String × Value)} (hvs : Tree.namedValues? depth ns = some vs) :
        Record.ofMembers k.Body vs = .ok b ↔ ∀ f ∈ k.fields, (f.ofTree depth).Says b ns := by
      rw [k.ofMembers_eq_ok_iff]
      unfold Field.Says Field.ofTree
      simp only [Tree.field?_namedValues? hvs]
    unfold record?
    rw [← Tree.isSome_namedValues?_iff, List.forall_mem_map, Option.bind_eq_some_iff]
    simp only [toOption_eq_some_iff]
    constructor
    · rintro ⟨vs, hvs, hb⟩
      exact ⟨Option.isSome_iff_exists.mpr ⟨vs, hvs⟩, (hheldBy hvs).mp hb⟩
    · rintro ⟨hsome, hheld⟩
      obtain ⟨vs, hvs⟩ := Option.isSome_iff_exists.mp hsome
      exact ⟨vs, hvs, (hheldBy hvs).mpr hheld⟩
  admits_read := by
    simp only [List.forall_mem_map]
    exact fun f _ t hread => Field.isSome_value?_of_ofTree hread

end Element

namespace PrinterConfig

def fontSizeField : Field Tree PrinterConfig where
  Kept := Option UInt32
  name := "default_font_size"
  read := Tree.readTree 0
  default := some none
  get := defaultFontSize
  set c defaultFontSize := { c with defaultFontSize }

def fields : List (Field Tree PrinterConfig) :=
  [ ⟨Density, "density", Tree.alternative?, some default, density,
      fun c density => { c with density }⟩,
    ⟨Option Font, "default_font", font?, some none, defaultFont,
      fun c defaultFont => { c with defaultFont }⟩,
    fontSizeField ]

theorem fielded :
    Fielded (fun c ns => ofTree? Tree.alternative? font? ns = some c) (fun _ => True) fields where
  nodup := by decide
  ext := by
    rintro ⟨density, font, size⟩ ⟨density', font', size'⟩
    simp +contextual [fields, fontSizeField]
  get_set := by simp [fields, fontSizeField]
  get_set_ne := by simp [fields, fontSizeField]
  said_iff c ns := by
    unfold ofTree?
    simp only [Option.bind_eq_bind, Option.bind_eq_some_iff, fields, List.forall_mem_cons,
      List.not_mem_nil, false_implies, implies_true, and_true, true_and]
    constructor
    · rintro ⟨density, hdensity, font, hfont, size, hsize, hc⟩
      cases hc
      exact ⟨hdensity, hfont, hsize⟩
    · rintro ⟨hdensity, hfont, hsize⟩
      exact ⟨_, hdensity, _, hfont, _, hsize, rfl⟩
  admits_read := by simp

end PrinterConfig

namespace Label

def widthField : Field Tree Label where
  Kept := Option Int32
  name := "width"
  read := Tree.readTree 0
  default := some none
  get := width
  set l width := { l with width }

def heightField : Field Tree Label where
  Kept := Option Int32
  name := "height"
  read := Tree.readTree 0
  default := some none
  get := height
  set l height := { l with height }

def configField : Field Tree Label where
  Kept := PrinterConfig
  name := "config"
  read := PrinterConfig.read?
  default := some {}
  get := config
  set l config := { l with config }

def elementsField : Field Tree Label where
  Kept := List Element
  name := "elements"
  read := elements? 124
  default := some []
  get := elements
  set l elements := { l with elements }

def fields : List (Field Tree Label) :=
  [ widthField, heightField,
    ⟨PrintMode, "print_mode", Tree.alternative?, some default, printMode,
      fun l printMode => { l with printMode }⟩,
    configField, elementsField ]

theorem fielded :
    Fielded
      (fun l ns => ofTree? Tree.alternative? PrinterConfig.read? (elements? 124) ns = some l)
      (fun _ => True) fields where
  nodup := by decide
  ext := by
    rintro ⟨width, height, mode, config, elements⟩ ⟨width', height', mode', config', elements'⟩
    simp +contextual [fields, widthField, heightField, configField, elementsField]
  get_set := by simp [fields, widthField, heightField, configField, elementsField]
  get_set_ne := by simp [fields, widthField, heightField, configField, elementsField]
  said_iff l ns := by
    unfold ofTree?
    simp only [Option.bind_eq_bind, Option.bind_eq_some_iff, fields, List.forall_mem_cons,
      List.not_mem_nil, false_implies, implies_true, and_true, true_and]
    constructor
    · rintro ⟨width, hwidth, height, hheight, mode, hmode, config, hconfig, elements, helements, hl⟩
      cases hl
      exact ⟨hwidth, hheight, hmode, hconfig, helements⟩
    · rintro ⟨hwidth, hheight, hmode, hconfig, helements⟩
      exact ⟨_, hwidth, _, hheight, _, hmode, _, hconfig, _, helements, rfl⟩
  admits_read := by simp

end Label

end LabelPress

import LabelPress.Proofs.Document.Fielded

/-! Repeated names. In a document that is read, no object says a field twice, be it the object of
the label, of its configuration or of an element, and whatever the members say; so no value is
dropped in favour of a later one. -/
namespace LabelPress

open Json

namespace Json

variable {ρ : Type}

namespace Tree

/-- If the tree is an object, then each of the names has at most one member. -/
def NamesOnce (names : List String) (t : Tree) : Prop :=
  ∀ ms, t = .object ms → ∀ name ∈ names, ms.countP (fun m => m.1.text? = some name) ≤ 1

/-- The tree of a record has another tree as one of its fields. -/
def HasField (names : List String) (name : String) (t v : Tree) : Prop :=
  ∃ ns, t.fields? names = some ns ∧ (name, v) ∈ ns

theorem countP_named? {ms : List (Pieces × Tree)} {ns : List (String × Tree)}
    (h : named? ms = some ns) (name : String) :
    ms.countP (fun m => m.1.text? = some name) = ns.countP fun n => n.1 = name := by
  induction ms generalizing ns with
  | nil =>
    cases h
    rfl
  | cons m ms ih =>
    obtain ⟨k, rest, hk, hrest, rfl⟩ := named?_cons.mp h
    rw [List.countP_cons, List.countP_cons, ih hrest, hk]
    simp

end Tree

theorem forall₂_of_mapM {α β : Type} {f : α → Option β} {xs : List α} {ys : List β}
    (h : xs.mapM f = some ys) : List.Forall₂ (fun y x => f x = some y) ys xs := by
  induction xs generalizing ys with
  | nil =>
    cases h
    exact .nil
  | cons x xs ih =>
    obtain ⟨y, rest, hy, hrest, rfl⟩ := mapM_cons_eq_some_iff.mp h
    exact .cons hy (ih hrest)

namespace Fielded

variable {said : ρ → List (String × Tree) → Prop} {admits : String × Tree → Prop}
  {fields : List (Field Tree ρ)} (h : Fielded said admits fields) {names : List String} {t : Tree}
  {ns : List (String × Tree)} (hns : t.fields? names = some ns) {r : ρ} (hr : said r ns)

include h hns hr

theorem namesOnce : t.NamesOnce (fields.map Field.name) := by
  rintro ms rfl name hname
  obtain ⟨f, hf, rfl⟩ := List.mem_map.mp hname
  rw [Tree.countP_named? hns]
  exact h.countP_le_one hr hf

theorem read_of_hasField {f : Field Tree ρ} (hf : f ∈ fields) {v : Tree}
    (hv : t.HasField names f.name v) : f.read v = some (f.get r) := by
  obtain ⟨ns', hns', hmem⟩ := hv
  cases hns.symm.trans hns'
  obtain ⟨before, after, rfl⟩ := List.append_of_mem hmem
  have hheld := ((h.said_iff r _).mp hr).2 f hf
  rw [← field?_insert hheld v]
  exact hheld

end Fielded

end Json

namespace Element

def Kind.fieldNames : Kind → List String
  | customCommand => ["type", "x", "y", "mnemonic", "z"]
  | qrCode =>
    [ "type", "x", "y", "text", "rotation", "model", "input_mode", "character_mode",
      "error_correction", "magnification" ]
  | text => ["type", "x", "y", "font", "font_size", "rotation", "content"]
  | graphicBox => ["type", "x", "y", "width", "height", "thickness", "color", "rounding"]
  | native => ["type", "x", "y", "zpl"]

theorem namesOnce {depth : Nat} {t : Tree} {e : Element} (h : read? depth t = some e) :
    t.NamesOnce e.kind.fieldNames := by
  obtain ⟨b, hb⟩ := e.exists_ofBody
  have hnames : e.kind.fieldNames = (e.kind.treeFields depth).map Field.name := by
    cases e <;> rfl
  rw [hnames]
  cases t with
  | object ms =>
    obtain ⟨ns, hns, he⟩ := Option.bind_eq_some_iff.mp h
    rw [← hb] at he
    have hfields : (Tree.object ms).fields? [] = some ns := hns
    exact (fielded e.kind depth).namesOnce hfields he
  | _ => contradiction

end Element

namespace PrinterConfig

theorem namesOnce {t : Tree} {c : PrinterConfig} (h : read? t = some c) :
    t.NamesOnce fieldNames := by
  obtain ⟨ns, hns, hc⟩ := Option.bind_eq_some_iff.mp h
  exact fielded.namesOnce hns hc

end PrinterConfig

namespace Label

/-- In a document that is read, an object says each field at most once: the object of the label,
that of its configuration, and those of its elements. -/
theorem ofDocument_namesOnce {t : Tree} {text : String} (ht : t.SpelledBy text) {l : Label}
    (hl : ofDocument text = .ok l) :
    t.NamesOnce fieldNames ∧
      (∀ v, t.HasField fieldNames "config" v → v.NamesOnce PrinterConfig.fieldNames) ∧
      ∀ v, t.HasField fieldNames "elements" v →
        ∃ ts, v = .list ts ∧
          List.Forall₂ (fun e t => t.NamesOnce e.kind.fieldNames) l.elements ts := by
  rw [ofDocument_eq_ok_iff ht] at hl
  obtain ⟨ns, hns, hsaid⟩ := Option.bind_eq_some_iff.mp hl
  refine ⟨fielded.namesOnce hns hsaid, fun v hv => ?_, fun v hv => ?_⟩
  · have hread := fielded.read_of_hasField hns hsaid (f := configField) (by simp [fields]) hv
    exact PrinterConfig.namesOnce hread
  · have hread := fielded.read_of_hasField hns hsaid (f := elementsField) (by simp [fields]) hv
    change elements? 124 v = some l.elements at hread
    cases v with
    | list ts =>
      exact ⟨ts, rfl, (forall₂_of_mapM hread).imp fun e t he => Element.namesOnce he⟩
    | _ => contradiction

theorem ofDocument_namesOnce_foreign :
    let code : Value := .object
      [ ("k", .null), ("type", .string "qr_code"), ("k", .integer 3), ("text", .string "a") ]
    let document : Value := .object
      [ ("k", .integer 1), ("elements", .list [code]), ("k", .integer 2),
        ("config", .object [("k", .null), ("k", .null)]) ]
    let l : Label := { elements := [.qrCode { text := "a" }] }
    ofDocument document.compact = .ok l ∧ document.tree.NamesOnce fieldNames ∧
      code.tree.NamesOnce Element.Kind.qrCode.fieldNames := by
  intro code document l
  have hcode : code.Whole := by
    apply Value.Whole.object
    simp only [List.forall_mem_cons, List.not_mem_nil, false_implies, implies_true, and_true]
    exact ⟨.null, .string _, .integer (by decide) (by decide), .string _⟩
  have hwhole : document.Whole := by
    apply Value.Whole.object
    simp only [List.forall_mem_cons, List.not_mem_nil, false_implies, implies_true, and_true]
    exact ⟨.integer (by decide) (by decide), .list (by simpa using hcode),
      .integer (by decide) (by decide), .object (by simp [Value.Whole.null])⟩
  have hspelled : document.tree.SpelledBy document.compact := hwhole.spelledBy_compact
  have hread : ofDocument document.compact = .ok l :=
    (ofDocument_eq_ok_iff hspelled).mpr (by decide +kernel)
  obtain ⟨hlabel, -, helements⟩ := ofDocument_namesOnce hspelled hread
  have hfield : document.tree.HasField fieldNames "elements" (.list [code.tree]) :=
    ⟨_, Value.named?_memberTrees _, by simp [Value.tree, Value.itemTrees]⟩
  obtain ⟨ts, hts, honce⟩ := helements _ hfield
  cases hts
  cases honce with
  | cons hcodeOnce _ => exact ⟨hread, hlabel, hcodeOnce⟩

end Label

end LabelPress

import LabelPress.Proofs.Document.Fielded

/-! Documents with a gap. Where the value of one field is left open, what is put there is read on
its own: the label is the one of any other value with the content of this field replaced. -/
namespace LabelPress

open Json

namespace Json

variable {α β ρ : Type}

/-- A record with a gap for the value of a field, as an object or as a list. -/
inductive Tree.Gap (names : List String) (name : String) : (Tree → Tree) → Prop
  | member {key : Pieces} (before after : List (Pieces × Tree)) : key.text? = some name →
      Gap names name fun t => .object (before ++ (key, t) :: after)
  | item (before after : List Tree) : names[before.length]? = some name →
      Gap names name fun t => .list (before ++ t :: after)

theorem Tree.Gap.exists_object {name : String} {document : Tree → Tree}
    (h : Gap [] name document) (t : Tree) : ∃ ms, document t = .object ms := by
  cases h with
  | member before after hkey => exact ⟨_, rfl⟩
  | item before after hname => contradiction

theorem Tree.listed?_insert {names : List String} {name : String} {before after : List Tree}
    (h : names[before.length]? = some name) {t₀ : Tree} {ns : List (String × Tree)}
    (h₀ : listed? names (before ++ t₀ :: after) = some ns) (t : Tree) :
    listed? names (before ++ t :: after) =
      some ((names.take before.length).zip before ++
        (name, t) :: (names.drop (before.length + 1)).zip after) := by
  obtain ⟨hlt, hname⟩ := List.getElem?_eq_some_iff.mp h
  unfold listed? at h₀ ⊢
  split at h₀
  · rename_i hlength
    have hnames : names =
        names.take before.length ++ name :: names.drop (before.length + 1) := by
      rw [← hname, ← List.drop_eq_getElem_cons hlt, List.take_append_drop]
    rw [if_pos (by simpa using hlength)]
    conv => lhs; rw [hnames]
    rw [List.zip_append (by rw [List.length_take]; omega), List.zip_cons_cons]
  · contradiction

theorem Tree.Gap.exists_fields? {names : List String} {name : String} {document : Tree → Tree}
    (h : Gap names name document) {t₀ : Tree} {ns : List (String × Tree)}
    (h₀ : (document t₀).fields? names = some ns) :
    ∃ before after, ∀ t, (document t).fields? names = some (before ++ (name, t) :: after) := by
  cases h with
  | @member key before after hkey =>
    have hnamed (t : Tree) := named?_insert (m := (key, t)) hkey before after
    change named? _ = _ at h₀
    rw [hnamed] at h₀
    obtain ⟨ns₁, hbefore, h₀⟩ := Option.bind_eq_some_iff.mp h₀
    obtain ⟨ns₂, hafter, -⟩ := Option.map_eq_some_iff.mp h₀
    refine ⟨ns₁, ns₂, fun t => ?_⟩
    change named? _ = _
    rw [hnamed, hbefore, hafter]
    rfl
  | item before after hname =>
    exact ⟨_, _, fun t => listed?_insert hname h₀ t⟩

/-- Among the fields of a record with a gap, what is put there is read as the content of its
field. -/
theorem Fielded.said_gap_iff {said : ρ → List (String × Tree) → Prop}
    {admits : String × Tree → Prop} {fields : List (Field Tree ρ)}
    (h : Fielded said admits fields) {f : Field Tree ρ} (hf : f ∈ fields) {names : List String}
    {document : Tree → Tree} (hgap : Tree.Gap names f.name document) {t₀ : Tree} {r₀ : ρ}
    {ns₀ : List (String × Tree)}
    (hns₀ : (document t₀).fields? names = some ns₀) (hr₀ : said r₀ ns₀) (t : Tree) (r : ρ) :
    (∃ ns, (document t).fields? names = some ns ∧ said r ns) ↔
      ∃ a, f.read t = some a ∧ r = f.set r₀ a := by
  obtain ⟨before, after, hfields⟩ := hgap.exists_fields? hns₀
  cases hns₀.symm.trans (hfields t₀)
  rw [← h.said_insert_iff hf hr₀ t r, hfields t]
  simp

theorem mapM_gap_iff {f : α → Option β} {before after : List α} {x₀ : α} {ys₀ : List β}
    (h₀ : (before ++ x₀ :: after).mapM f = some ys₀) (x : α) (ys : List β) :
    (before ++ x :: after).mapM f = some ys ↔
      ∃ y, f x = some y ∧ ys = ys₀.set before.length y := by
  induction before generalizing ys₀ ys with
  | nil =>
    obtain ⟨y₀, rest, -, hrest, rfl⟩ := mapM_cons_eq_some_iff.mp h₀
    rw [List.nil_append, mapM_cons_eq_some_iff]
    simp [hrest]
  | cons z before ih =>
    obtain ⟨y₀, rest, hz, hrest, rfl⟩ := mapM_cons_eq_some_iff.mp h₀
    rw [List.cons_append, mapM_cons_eq_some_iff]
    simp only [hz, ih hrest, Option.some.injEq, List.length_cons, List.set_cons_succ]
    constructor
    · rintro ⟨_, _, rfl, ⟨y, hy, rfl⟩, rfl⟩
      exact ⟨y, hy, rfl⟩
    · rintro ⟨y, hy, rfl⟩
      exact ⟨_, _, rfl, ⟨y, hy, rfl⟩, rfl⟩

theorem mapM_gap_getElem? {f : α → Option β} {before after : List α} {x₀ : α} {ys₀ : List β}
    (h₀ : (before ++ x₀ :: after).mapM f = some ys₀) :
    ∃ y₀, f x₀ = some y₀ ∧ ys₀[before.length]? = some y₀ := by
  induction before generalizing ys₀ with
  | nil =>
    obtain ⟨y₀, rest, hy₀, -, rfl⟩ := mapM_cons_eq_some_iff.mp h₀
    exact ⟨y₀, hy₀, rfl⟩
  | cons z before ih =>
    obtain ⟨-, rest, -, hrest, rfl⟩ := mapM_cons_eq_some_iff.mp h₀
    exact ih hrest

end Json

namespace PrinterConfig

theorem read?_gap_iff {f : Field Tree PrinterConfig} (hf : f ∈ fields) {document : Tree → Tree}
    (hgap : Tree.Gap fieldNames f.name document) {t₀ : Tree} {c₀ : PrinterConfig}
    (h₀ : read? (document t₀) = some c₀) (t : Tree) (c : PrinterConfig) :
    read? (document t) = some c ↔ ∃ a, f.read t = some a ∧ c = f.set c₀ a := by
  obtain ⟨ns₀, hns₀, hc₀⟩ := Option.bind_eq_some_iff.mp h₀
  rw [← fielded.said_gap_iff hf hgap hns₀ hc₀ t c]
  exact Option.bind_eq_some_iff

end PrinterConfig

namespace Label

theorem read?_gap_iff {f : Field Tree Label} (hf : f ∈ fields) {document : Tree → Tree}
    (hgap : Tree.Gap fieldNames f.name document) {t₀ : Tree} {l₀ : Label}
    (h₀ : read? (document t₀) = some l₀) (t : Tree) (l : Label) :
    read? (document t) = some l ↔ ∃ a, f.read t = some a ∧ l = f.set l₀ a := by
  obtain ⟨ns₀, hns₀, hl₀⟩ := Option.bind_eq_some_iff.mp h₀
  rw [← fielded.said_gap_iff hf hgap hns₀ hl₀ t l]
  exact Option.bind_eq_some_iff

end Label

namespace Element

theorem read?_eq_some_iff {depth : Nat} {t : Tree} {e : Element} :
    read? depth t = some e ↔ ∃ ns, t.fields? [] = some ns ∧ ofTree? depth ns = some e := by
  cases t with
  | object ms => exact Option.bind_eq_some_iff
  | list ts =>
    refine iff_of_false (by simp [read?]) ?_
    rintro ⟨ns, hns, he⟩
    cases ts with
    | nil =>
      cases hns
      contradiction
    | cons t ts => contradiction
  | _ =>
    refine iff_of_false (by simp [read?]) ?_
    rintro ⟨ns, hns, -⟩
    contradiction

theorem read?_gap_iff {depth : Nat} {k : Kind} {f : Field Value k.Body} (hf : f ∈ k.fields)
    {document : Tree → Tree} (hgap : Tree.Gap [] f.name document) {t₀ : Tree} {b₀ : k.Body}
    (h₀ : read? depth (document t₀) = some (ofBody b₀)) (t : Tree) (e : Element) :
    read? depth (document t) = some e ↔
      ∃ a, (f.ofTree depth).read t = some a ∧ e = ofBody (f.set b₀ a) := by
  obtain ⟨ns₀, hns₀, hb₀⟩ := read?_eq_some_iff.mp h₀
  have hfield : f.ofTree depth ∈ k.treeFields depth :=
    List.mem_cons_of_mem _ (List.mem_map_of_mem hf)
  have hbody := (fielded k depth).said_gap_iff hfield hgap hns₀ hb₀ t
  rw [read?_eq_some_iff]
  constructor
  · rintro ⟨ns, hns, he⟩
    -- What stands in the gap is not the kind, so the kind is the same with either tree.
    have hkind : k = e.kind := by
      obtain ⟨before, after, hfields⟩ := hgap.exists_fields? hns₀
      cases hns₀.symm.trans (hfields t₀)
      cases hns.symm.trans (hfields t)
      have hsame : field? kind? "type" none (before ++ (f.name, t₀) :: after) =
          field? kind? "type" none (before ++ (f.name, t) :: after) :=
        field?_insert_ne (k.not_type_mem_fields hf) t₀ t
      rw [(ofTree?_eq_some_iff.mp hb₀).1, kind_of_ofTree? he] at hsame
      exact Option.some.inj hsame
    subst hkind
    obtain ⟨b, hb⟩ := e.exists_ofBody
    rw [← hb] at he
    obtain ⟨a, ha, rfl⟩ := (hbody b).mp ⟨ns, hns, he⟩
    exact ⟨a, ha, hb.symm⟩
  · rintro ⟨a, ha, rfl⟩
    exact (hbody _).mpr ⟨a, ha, rfl⟩

theorem Kind.record?_gap_iff {depth : Nat} {k : Kind} {f : Field Value k.Body} (hf : f ∈ k.fields)
    {document : Tree → Tree} (hgap : Tree.Gap [] f.name document) {t₀ : Tree} {b₀ : k.Body}
    (h₀ : ((document t₀).fields? []).bind (k.record? depth) = some b₀) (t : Tree) (b : k.Body) :
    ((document t).fields? []).bind (k.record? depth) = some b ↔
      ∃ a, (f.ofTree depth).read t = some a ∧ b = f.set b₀ a := by
  obtain ⟨ns₀, hns₀, hb₀⟩ := Option.bind_eq_some_iff.mp h₀
  have hfield : f.ofTree depth ∈ k.fields.map (Field.ofTree depth) := List.mem_map_of_mem hf
  exact Option.bind_eq_some_iff.trans
    ((k.record_fielded depth).said_gap_iff hfield hgap hns₀ hb₀ t b)

end Element

namespace Label

/-- A document with a gap for the value of a field of one of its elements, which are objects. -/
inductive ElementGap (name : String) : Nat → (Tree → Tree) → Prop
  | inside {label element : Tree → Tree} (before after : List Tree) :
      Tree.Gap fieldNames "elements" label → Tree.Gap [] name element →
        ElementGap name before.length fun t => label (.list (before ++ element t :: after))

theorem ElementGap.exists_element {name : String} {i : Nat} {document : Tree → Tree}
    (h : ElementGap name i document) {t₀ : Tree} {l₀ : Label}
    (h₀ : read? (document t₀) = some l₀) :
    ∃ element, Tree.Gap [] name element ∧
      (∃ e₀, Element.read? 124 (element t₀) = some e₀ ∧ l₀.elements[i]? = some e₀) ∧
      ∀ t l, read? (document t) = some l ↔ ∃ e, Element.read? 124 (element t) = some e ∧
        l = { l₀ with elements := l₀.elements.set i e } := by
  obtain @⟨label, element, before, after, hlabel, helement⟩ := h
  have hread := read?_gap_iff (f := elementsField) (by simp [fields]) hlabel h₀
  obtain ⟨es₀, hes₀, hl₀⟩ := (hread _ _).mp h₀
  have helements : l₀.elements = es₀ := congrArg elements hl₀
  subst helements
  refine ⟨element, helement, mapM_gap_getElem? hes₀, fun t l => (hread _ _).trans ?_⟩
  have hitems := mapM_gap_iff (f := Element.read? 124) hes₀ (element t)
  constructor
  · rintro ⟨es, hes, rfl⟩
    obtain ⟨e, he, rfl⟩ := (hitems es).mp hes
    exact ⟨e, he, rfl⟩
  · rintro ⟨e, he, rfl⟩
    exact ⟨_, (hitems _).mpr ⟨e, he, rfl⟩, rfl⟩

end Label

end LabelPress

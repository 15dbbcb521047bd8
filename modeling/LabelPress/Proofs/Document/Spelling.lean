import LabelPress.Proofs.Document.Label
import Mathlib.Data.List.Nodup

/-! The spellings of a label: the texts that differ from its document in what does not matter. The
members of an object stand in any order, a member that says the default may be missing, members
with other names may be there, a string may be escaped in any way, and blanks stand between the
tokens. -/
namespace LabelPress

namespace Json

variable {α : Type}

structure Entry where
  name : String
  spells : Tree → Prop
  omittable : Prop

def Entry.SpelledBy (e : Entry) (m : Pieces × Tree) : Prop :=
  m.1.text? = some e.name ∧ e.spells m.2

def IsForeign (entries : List Entry) (admitted : Tree → Prop) (m : Pieces × Tree) : Prop :=
  ∃ k, m.1.text? = some k ∧ k ∉ entries.map Entry.name ∧ admitted m.2

/-- The entries that are kept and the members that are added, in any order. -/
def Respells (entries : List Entry) (admitted : Tree → Prop) (ms : List (Pieces × Tree)) : Prop :=
  ∃ kept own added, kept.Sublist entries ∧ (∀ e ∈ entries, e ∈ kept ∨ e.omittable) ∧
    List.Forall₂ Entry.SpelledBy kept own ∧ (∀ m ∈ added, IsForeign entries admitted m) ∧
      ms.Perm (own ++ added)

/-- A tree that a reader accepts as a value: its numbers are as given, its strings have a text, and
not more than so many containers stand in each other. -/
inductive Tree.Mild (number : Literal → Prop) : Nat → Tree → Prop
  | null {depth : Nat} : Mild number depth .null
  | boolean {depth : Nat} (b : Bool) : Mild number depth (.boolean b)
  | number {depth : Nat} {n : Literal} : number n → Mild number depth (.number n)
  | string {depth : Nat} {ps : Pieces} : ps.text?.isSome → Mild number depth (.string ps)
  | list {depth : Nat} {ts : List Tree} :
      (∀ t ∈ ts, Mild number depth t) → Mild number (depth + 1) (.list ts)
  | object {depth : Nat} {ms : List (Pieces × Tree)} :
      (∀ m ∈ ms, m.1.text?.isSome) → (∀ m ∈ ms, Mild number depth m.2) →
        Mild number (depth + 1) (.object ms)

theorem isSome_mapM {β : Type} {f : α → Option β} {xs : List α} (h : ∀ x ∈ xs, (f x).isSome) :
    (xs.mapM f).isSome := by
  induction xs with
  | nil => rfl
  | cons x xs ih =>
    obtain ⟨y, hy⟩ := Option.isSome_iff_exists.mp (h x List.mem_cons_self)
    obtain ⟨ys, hys⟩ := Option.isSome_iff_exists.mp
      (ih fun x' hx' => h x' (List.mem_cons_of_mem x hx'))
    rw [List.mapM_cons, hy, hys]
    rfl

theorem Tree.Mild.isSome_value? {t : Tree} {n : Nat} (h : t.Mild Literal.Readable n) {depth : Nat}
    (hdepth : n ≤ depth) : (t.value? depth).isSome := by
  induction h generalizing depth with
  | null => rfl
  | boolean b => rfl
  | number hn =>
    obtain ⟨x, hx⟩ := hn
    simp [value?, hx, Except.toOption]
  | string hps => simpa [value?] using hps
  | @list n ts _ ih =>
    obtain ⟨depth, rfl⟩ : ∃ d, depth = d + 1 := ⟨depth - 1, by omega⟩
    rw [value?, Option.isSome_map, itemValues?_eq]
    exact isSome_mapM fun t ht => ih t ht (by omega)
  | @object n ms hnames _ ih =>
    obtain ⟨depth, rfl⟩ : ∃ d, depth = d + 1 := ⟨depth - 1, by omega⟩
    rw [value?, Option.isSome_map, memberValues?_eq]
    apply isSome_mapM
    intro m hm
    obtain ⟨k, hk⟩ := Option.isSome_iff_exists.mp (hnames m hm)
    obtain ⟨v, hv⟩ := Option.isSome_iff_exists.mp (ih m hm (show n ≤ depth by omega))
    simp [memberValue?, hk, hv]

def Tree.named (m : Pieces × Tree) : String × Tree := (m.1.text?.getD "", m.2)

theorem Tree.named?_eq {ms : List (Pieces × Tree)} (h : ∀ m ∈ ms, m.1.text?.isSome) :
    named? ms = some (ms.map named) := by
  unfold named?
  induction ms with
  | nil => rfl
  | cons m ms ih =>
    obtain ⟨k, hk⟩ := Option.isSome_iff_exists.mp (h m List.mem_cons_self)
    rw [List.mapM_cons, ih fun m' hm' => h m' (List.mem_cons_of_mem m hm'), hk]
    simp [named, hk]

namespace Respells

variable {entries : List Entry} {admitted : Tree → Prop} {ms : List (Pieces × Tree)}

theorem member (h : Respells entries admitted ms) {m : Pieces × Tree} (hm : m ∈ ms) :
    (∃ e ∈ entries, e.SpelledBy m) ∨ IsForeign entries admitted m := by
  obtain ⟨kept, own, added, hkept, -, hown, hadded, hperm⟩ := h
  rcases List.mem_append.mp (hperm.mem_iff.mp hm) with hm | hm
  · obtain ⟨e, he, hspells⟩ := exists_of_forall₂ hown hm
    exact .inl ⟨e, hkept.subset he, hspells⟩
  · exact .inr (hadded m hm)

theorem spells_of_name (h : Respells entries admitted ms) (hnodup : (entries.map Entry.name).Nodup)
    {m : Pieces × Tree} (hm : m ∈ ms) {e : Entry} (he : e ∈ entries)
    (hname : m.1.text? = some e.name) : e.spells m.2 := by
  rcases h.member hm with ⟨e', he', hname', hspells⟩ | ⟨k, hk, hforeign, -⟩
  · rw [hname] at hname'
    cases List.inj_on_of_nodup_map hnodup he he' (Option.some.inj hname')
    exact hspells
  · rw [hname] at hk
    cases hk
    exact absurd (List.mem_map_of_mem he) hforeign

theorem named?_eq (h : Respells entries admitted ms) :
    Tree.named? ms = some (ms.map Tree.named) := by
  apply Tree.named?_eq
  intro m hm
  rcases h.member hm with ⟨e, -, hk, -⟩ | ⟨k, hk, -⟩ <;> simp [hk]

theorem filter_own {kept : List Entry} {own : List (Pieces × Tree)}
    (hown : List.Forall₂ Entry.SpelledBy kept own) (hnodup : (kept.map Entry.name).Nodup)
    (name : String) :
    (∃ e ∈ kept, e.name = name ∧ ∃ t, e.spells t ∧
      (own.map Tree.named).filter (fun n => n.1 = name) = [(name, t)]) ∨
    name ∉ kept.map Entry.name ∧ (own.map Tree.named).filter (fun n => n.1 = name) = [] := by
  induction hown with
  | nil => exact .inr ⟨List.not_mem_nil, rfl⟩
  | @cons e m kept own hspelled _ ih =>
    rw [List.map_cons, List.nodup_cons] at hnodup
    have hname : Tree.named m = (e.name, m.2) := by simp [Tree.named, hspelled.1]
    rw [List.map_cons, List.filter_cons, hname]
    by_cases he : e.name = name
    · rcases ih hnodup.2 with ⟨e', he', hname', -⟩ | ⟨-, hnone⟩
      · exact absurd (List.mem_map.mpr ⟨e', he', hname'.trans he.symm⟩) hnodup.1
      · exact .inl ⟨e, List.mem_cons_self, he, m.2, hspelled.2, by simp [he, hnone]⟩
    · rcases ih hnodup.2 with ⟨e', he', hname', t, ht, hone⟩ | ⟨hfresh, hnone⟩
      · exact .inl ⟨e', List.mem_cons_of_mem e he', hname', t, ht, by simp [he, hone]⟩
      · refine .inr ⟨?_, by simp [he, hnone]⟩
        rw [List.map_cons, List.mem_cons, not_or]
        exact ⟨fun h => he h.symm, hfresh⟩

/-- A field is found again, whether its entry was kept or left out. -/
theorem field?_eq (h : Respells entries admitted ms) (hnodup : (entries.map Entry.name).Nodup)
    {e : Entry} (he : e ∈ entries) {read : Tree → Option α} {default : Option α} {a : α}
    (hread : ∀ t, e.spells t → read t = some a) (homit : e.omittable → default = some a) :
    field? read e.name default (ms.map Tree.named) = some a := by
  obtain ⟨kept, own, added, hkept, hleft, hown, hadded, hperm⟩ := h
  have hnone : (added.map Tree.named).filter (fun n => n.1 = e.name) = [] := by
    rw [List.filter_eq_nil_iff]
    intro n hn
    obtain ⟨m, hm, rfl⟩ := List.mem_map.mp hn
    obtain ⟨k, hk, hforeign, -⟩ := hadded m hm
    have hne : k ≠ e.name := by
      rintro rfl
      exact hforeign (List.mem_map_of_mem he)
    simp [Tree.named, hk, hne]
  have hfilter := (hperm.map Tree.named).filter fun n => n.1 = e.name
  rw [List.map_append, List.filter_append, hnone, List.append_nil] at hfilter
  have hkeptNodup := hnodup.sublist (hkept.map Entry.name)
  unfold field?
  -- Foreign members are gone; among the others the name is found once, or not at all.
  rcases filter_own hown hkeptNodup e.name with ⟨e', he', hname, t, ht, hone⟩ | ⟨hfresh, hnil⟩
  · cases List.inj_on_of_nodup_map hnodup (hkept.subset he') he hname
    rw [hone, List.perm_singleton] at hfilter
    rw [hfilter]
    exact hread t ht
  · rw [hnil, List.perm_nil] at hfilter
    rw [hfilter]
    apply homit
    rcases hleft e he with hmem | homitted
    · exact absurd (List.mem_map_of_mem hmem) hfresh
    · exact homitted

end Respells

/-- A member whose value is a scalar; it may be left out if it says the default. -/
def Entry.ofMember (defaults : List (String × Value)) (m : String × Value) : Entry where
  name := m.1
  spells t := t.value? 0 = some m.2
  omittable := m ∈ defaults

def Value.members : Value → List (String × Value)
  | object ms => ms
  | _ => []

end Json

open Json

def addedDepth : Nat := 64

namespace Element

/-- The members that say the default, for elements of all kinds; texts and symbols have the same
rotation. -/
def defaultMembers : List (String × Value) :=
  [ ("x", .null), ("y", .null), ("z", .null), ("font", .null), ("font_size", .null),
    ("thickness", .integer 1), ("color", .ofName LineColor.black), ("rounding", .integer 0) ] ++
  QrOptions.members default

def entries (e : Element) : List Entry :=
  e.toValue.members.map (Entry.ofMember defaultMembers)

def SpelledBy (number : Literal → Prop) (e : Element) (t : Tree) : Prop :=
  ∃ ms, Respells e.entries (Tree.Mild number addedDepth) ms ∧ t = .object ms

end Element

namespace PrinterConfig

def defaultMembers : List (String × Value) :=
  [("density", .ofName Density.dpi203), ("default_font", .null), ("default_font_size", .null)]

def entries (c : PrinterConfig) : List Entry :=
  c.toValue.members.map (Entry.ofMember defaultMembers)

def SpelledBy (c : PrinterConfig) (t : Tree) : Prop :=
  ∃ ms, Respells c.entries (Tree.Mild Literal.Finite addedDepth) ms ∧ t = .object ms

end PrinterConfig

namespace Label

def defaultMembers : List (String × Value) :=
  [("width", .null), ("height", .null), ("print_mode", .ofName PrintMode.tearOff)]

def configEntry (l : Label) : Entry where
  name := "config"
  spells := l.config.SpelledBy
  omittable := l.config = {}

def elementsEntry (number : Literal → Prop) (l : Label) : Entry where
  name := "elements"
  spells t := ∃ ts, List.Forall₂ (Element.SpelledBy number) l.elements ts ∧ t = .list ts
  omittable := l.elements = []

def entry (number : Literal → Prop) (l : Label) (m : String × Value) : Entry :=
  match m.1 with
  | "config" => l.configEntry
  | "elements" => l.elementsEntry number
  | _ => Entry.ofMember defaultMembers m

def entries (number : Literal → Prop) (l : Label) : List Entry :=
  l.toValue.members.map (l.entry number)

/-- The texts of a label, with a condition on the numbers that are added to its elements. Numbers
that are added elsewhere mean numbers within the range of doubles. -/
def SpelledBy (number : Literal → Prop) (l : Label) (text : String) : Prop :=
  ∃ ms, Respells (l.entries number) (Tree.Mild Literal.Finite addedDepth) ms ∧
    (Tree.object ms).SpelledBy text

end Label

end LabelPress

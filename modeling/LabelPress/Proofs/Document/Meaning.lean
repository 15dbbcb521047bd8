import LabelPress.Proofs.Document.Listed
import LabelPress.Proofs.Document.Respelled

/-! What a document says. Whether a text is read, and as which label, depends on its tree alone, and
the label of a tree is put together from its parts: records are objects or lists, elements are
objects. This holds of all JSON texts, so it also tells which of them are not labels. -/
namespace LabelPress

open Json
open Json.Reader hiding true false null

namespace Json

/-- The fields of a record: members of an object, or items of a list in the order of the fields. -/
def Tree.fields? (names : List String) : Tree → Option (List (String × Tree))
  | .object ms => named? ms
  | .list ts => listed? names ts
  | _ => none

end Json

namespace PrinterConfig

def font? : Tree → Option (Option Font)
  | .null => some none
  | t => t.alternative?.map some

theorem reads_font (depth : Nat) (t : Tree) :
    Reads (FromText.read (depth + 1)) t (font? t) := by
  by_cases hnull : t = .null
  · subst hnull
    exact Reads.option_none (depth + 1)
  · have hfont : font? t = t.alternative?.map some := by
      cases t <;> first | contradiction | rfl
    rw [hfont]
    exact Reads.option_some hnull (Reads.alternative depth t)

def read? (t : Tree) : Option PrinterConfig :=
  (t.fields? fieldNames).bind (ofTree? Tree.alternative? font?)

theorem reads (depth : Nat) (t : Tree) : Reads (FromText.read (depth + 2)) t (read? t) := by
  cases t with
  | object ms =>
    exact reads_object (fun m _ _ => Reads.alternative depth m.2) fun m _ _ => reads_font depth m.2
  | list ts => exact reads_list (Reads.alternative depth) (reads_font depth) ts
  | _ => exact Reads.notRecord (by trivial)

end PrinterConfig

namespace Element

theorem run?_readItems (depth : Nat) (s : List Char) : (readItems depth).run? s = none := by
  have hvalue (vs : List Value) (k : Kind) : (ofValue (.list vs) k).toOption = none := by
    cases k <;> rfl
  unfold readItems
  rw [run?_bind, run?_peek, Option.bind_some]
  dsimp only
  split
  · rfl
  · rfl
  · simp [hvalue]

theorem reads (depth : Nat) (t : Tree) : Reads (FromText.read (depth + 1)) t (read? depth t) := by
  cases t with
  | object ms => exact reads_object depth ms
  | list ts =>
    refine Reads.ofList fun hb _ _ => ?_
    unfold FromText.read instFromText
    dsimp only
    rw [run?_bind, run?_peek_start hb (by rfl)]
    simp only [Option.bind_some, enter, run?_bind, run?_eat, run?_readItems]
    rfl
  | _ =>
    refine Reads.ofScalar (by trivial) fun hb hblank hlist hobject => ?_
    unfold FromText.read instFromText
    dsimp only
    rw [run?_bind, run?_peek_start hb hblank, Option.bind_some]
    split <;> simp_all

end Element

namespace Label

def elements? (depth : Nat) : Tree → Option (List Element)
  | .list ts => ts.mapM (Element.read? depth)
  | _ => none

theorem reads_elementsOf (depth : Nat) (t : Tree) :
    Reads (FromText.read (depth + 2)) t (elements? depth t) := by
  cases t with
  | list ts => exact reads_elements fun t _ => Element.reads depth t
  | object ms =>
    refine Reads.ofObject fun hb _ _ => ?_
    unfold FromText.read instFromTextListElement
    dsimp only
    rw [run?_bind, run?_peek_start hb (by rfl), Option.bind_some]
    exact run?_mismatch _ _
  | _ =>
    refine Reads.ofScalar (by trivial) fun hb hblank hlist _ => ?_
    unfold FromText.read instFromTextListElement
    dsimp only
    rw [run?_bind, run?_peek_start hb hblank, Option.bind_some]
    split <;> simp_all

def read? (t : Tree) : Option Label :=
  (t.fields? fieldNames).bind (ofTree? Tree.alternative? PrinterConfig.read? (elements? 124))

theorem reads (t : Tree) : Reads (FromText.read maxDepth) t (read? t) := by
  have hmode (t : Tree) : Reads (FromText.read 126 : Reader PrintMode) t t.alternative? :=
    Reads.alternative 125 t
  have hconfig := PrinterConfig.reads 124
  have helements := reads_elementsOf 124
  cases t with
  | object ms =>
    exact reads_object (fun m _ _ => hmode m.2) (fun m _ _ => hconfig m.2)
      fun m _ _ => helements m.2
  | list ts => exact reads_list hmode hconfig helements ts
  | _ => exact Reads.notRecord (by trivial)

/-- A text is read as the label of its tree, or not at all. -/
theorem ofDocument_eq_ok_iff {t : Tree} {text : String} (h : t.SpelledBy text) {l : Label} :
    ofDocument text = .ok l ↔ read? t = some l := by
  rw [← toOption_eq_some_iff]
  exact Eq.congr_left (toOption_parse (reads t) h)

end Label

end LabelPress

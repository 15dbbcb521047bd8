import LabelPress.Preview.Render
import LabelPress.Proofs.Document.Gap
import LabelPress.Proofs.Json.Integer

/-! Magnifications in documents. A magnification is a string or an integer of 32 bits without a
sign. Both are kept as text, so which of the two a document has makes no difference to its label. -/
namespace LabelPress

open Json

namespace Magnification

/-- The two forms of a magnification: a string as it is, and an integer by its digits. -/
inductive SaidBy : Tree → String → Prop
  | string {s : Pieces} {text : String} : s.text? = some text → SaidBy (.string s) text
  | number {n : Literal} : n.IsInteger → 0 ≤ n.integer → n.integer ≤ 4294967295 →
      SaidBy (.number n) (String.ofList n.whole.chars)

theorem readTree_number_iff {depth : Nat} {n : Literal} {a : Magnification} :
    Tree.readTree depth (.number n) = some a ↔ SaidBy (.number n) a.text := by
  have hread : (Tree.readTree depth (.number n) : Option Magnification) =
      n.read.toOption.bind fun x => (ofValue (.number x)).toOption := by
    unfold Tree.readTree
    rw [Tree.value?, Option.bind_map]
    rfl
  rw [hread, Option.bind_eq_some_iff]
  simp only [toOption_eq_some_iff]
  constructor
  · rintro ⟨x, hx, ha⟩
    cases x with
    | real x => contradiction
    | integer i =>
      obtain ⟨hinteger, rfl, -, -⟩ := Literal.read_eq_integer_iff.mp hx
      unfold ofValue at ha
      dsimp only at ha
      split_ifs at ha with hrange
      cases ha
      dsimp only
      rw [hinteger.toString_integer hrange.1]
      exact .number hinteger hrange.1 hrange.2
  · obtain ⟨text⟩ := a
    intro h
    cases h with
    | number hinteger hlow hhigh =>
      refine ⟨.integer n.integer,
        Literal.read_eq_integer_iff.mpr ⟨hinteger, rfl, by omega, by omega⟩, ?_⟩
      unfold ofValue
      dsimp only
      rw [if_pos ⟨hlow, hhigh⟩, hinteger.toString_integer hlow]
      rfl

theorem readTree_iff {depth : Nat} {t : Tree} {a : Magnification} :
    Tree.readTree depth t = some a ↔ SaidBy t a.text := by
  unfold Tree.readTree
  -- Lists and objects are refused however deep they are, so that it is enough to look at depth 0.
  rw [t.bind_value? (fun _ => rfl) (fun _ => rfl)]
  cases t with
  | number n => exact readTree_number_iff
  | string s =>
    rw [Tree.value?, Option.bind_map, Option.bind_eq_some_iff]
    constructor
    · rintro ⟨text, htext, ha⟩
      cases ha
      exact .string htext
    · obtain ⟨text⟩ := a
      rintro ⟨htext⟩
      exact ⟨text, htext, rfl⟩
  | _ =>
    refine iff_of_false ?_ fun h => ?_
    · rw [Tree.value?]
      rintro ⟨⟩
    · cases h

/-- A reader takes a magnification in the gap of a document, and nothing else there; what it makes
of the document depends on the text of the magnification alone. -/
def TakenBy {ρ : Type} (read : String → Except Fault ρ) (document : Tree → Tree)
    (kept : String → ρ) : Prop :=
  ∀ t text, (document t).SpelledBy text → ∀ r,
    read text = .ok r ↔ ∃ m, SaidBy t m ∧ r = kept m

theorem TakenBy.of_reads {ρ : Type} {p : Reader ρ} {document : Tree → Tree} {kept : String → ρ}
    {o : Tree → Option ρ} (hp : ∀ t, Reads p (document t) (o t))
    (ho : ∀ t r, o t = some r ↔ ∃ m, SaidBy t m ∧ r = kept m) :
    TakenBy (parse p) document kept := by
  intro t text htext r
  rw [← toOption_eq_some_iff, toOption_parse (hp t) htext]
  exact ho t r

theorem TakenBy.eq_ok {ρ : Type} {read : String → Except Fault ρ} {document : Tree → Tree}
    {kept : String → ρ} (h : TakenBy read document kept) {t : Tree} {m : String}
    (hm : SaidBy t m) {text : String} (htext : (document t).SpelledBy text) :
    read text = .ok (kept m) :=
  (h t text htext _).mpr ⟨m, hm, rfl⟩

end Magnification

namespace QrField

def magnificationField : Field Value QrField where
  Kept := Magnification
  name := "magnification"
  read := readValue
  default := some default
  get q := q.options.magnification
  set q magnification := { q with options := { q.options with magnification } }

theorem magnificationField_mem : magnificationField ∈ fields := by
  simp [fields, magnificationField]

theorem exists_magnificationField_iff {ρ : Type} {depth : Nat} {t : Tree} {q : QrField}
    (kept : QrField → ρ) (r : ρ) :
    (∃ a, (magnificationField.ofTree depth).read t = some a ∧
        r = kept (magnificationField.set q a)) ↔
      ∃ m, Magnification.SaidBy t m ∧ r = kept (q.magnified m) := by
  constructor
  · rintro ⟨a, ha, rfl⟩
    exact ⟨a.text, Magnification.readTree_iff.mp ha, rfl⟩
  · rintro ⟨m, hm, rfl⟩
    exact ⟨⟨m⟩, Magnification.readTree_iff.mpr hm, rfl⟩

end QrField

section

variable {element : Tree → Tree} (hgap : Tree.Gap [] "magnification" element) {t₀ : Tree}
  {q₀ : QrField} {valid : String} (hvalid : (element t₀).SpelledBy valid)

include hgap hvalid

theorem QrField.takes_magnification
    (h₀ : parse (Record.readObject QrField maxDepth) valid = .ok q₀) :
    Magnification.TakenBy (parse (Record.readObject QrField maxDepth)) element q₀.magnified := by
  have hreads (t : Tree) : Reads (Record.readObject QrField maxDepth) (element t)
      (((element t).fields? []).bind (Element.Kind.record? .qrCode 126)) := by
    obtain ⟨ms, hms⟩ := hgap.exists_object t
    have hread : Reads (Record.readObject QrField maxDepth) (.object ms)
        (((Tree.named? ms).bind (Tree.namedValues? 126)).bind fun vs =>
          (Record.ofMembers QrField vs).toOption) :=
      reads_record_of_put fun m _ d k _ => reads_put_qrField k m.2 126 d
    rw [Option.bind_assoc] at hread
    rw [hms]
    exact hread
  rw [← toOption_eq_some_iff, toOption_parse (hreads t₀) hvalid] at h₀
  exact .of_reads hreads fun t q =>
    (Element.Kind.record?_gap_iff (k := .qrCode) magnificationField_mem hgap h₀ t q).trans
      (exists_magnificationField_iff id q)

theorem Element.takes_magnification
    (h₀ : parse (FromText.read maxDepth) valid = .ok (qrCode q₀)) :
    Magnification.TakenBy (parse (FromText.read maxDepth)) element
      fun m => qrCode (q₀.magnified m) := by
  have hreads (t : Tree) : Reads (FromText.read maxDepth) (element t) (read? 126 (element t)) :=
    reads 126 (element t)
  rw [← toOption_eq_some_iff, toOption_parse (hreads t₀) hvalid] at h₀
  exact .of_reads hreads fun t e =>
    (read?_gap_iff (k := .qrCode) QrField.magnificationField_mem hgap h₀ t e).trans
      (QrField.exists_magnificationField_iff qrCode e)

end

namespace Label

def magnified (l : Label) (i : Nat) (q : QrField) (m : String) : Label :=
  { l with elements := l.elements.set i (.qrCode (q.magnified m)) }

theorem takes_magnification {i : Nat} {document : Tree → Tree}
    (hgap : ElementGap "magnification" i document) {t₀ : Tree} {l₀ : Label} {valid : String}
    (hvalid : (document t₀).SpelledBy valid) (h₀ : ofDocument valid = .ok l₀) {q₀ : QrField}
    (hq₀ : l₀.elements[i]? = some (.qrCode q₀)) :
    Magnification.TakenBy ofDocument document (l₀.magnified i q₀) := by
  rw [ofDocument_eq_ok_iff hvalid] at h₀
  obtain ⟨element, helement, ⟨e₀, he₀, hi⟩, hread⟩ := hgap.exists_element h₀
  cases hq₀.symm.trans hi
  refine .of_reads (fun t => reads (document t)) fun t l => ?_
  have helem (e : Element) :=
    (Element.read?_gap_iff (k := .qrCode) QrField.magnificationField_mem helement he₀ t e).trans
      (QrField.exists_magnificationField_iff .qrCode e)
  rw [hread]
  constructor
  · rintro ⟨e, he, rfl⟩
    obtain ⟨m, hm, rfl⟩ := (helem e).mp he
    exact ⟨m, hm, rfl⟩
  · rintro ⟨m, hm, rfl⟩
    exact ⟨_, (helem _).mpr ⟨m, hm, rfl⟩, rfl⟩

def qrMembers (q : QrField) (t : Tree) : List (Pieces × Tree) :=
  Value.memberTrees
      ( ("type", .ofName Element.Kind.qrCode) :: q.position.members ++
        [ ("rotation", .ofName q.options.rotation),
          ("model", .ofName q.options.model),
          ("input_mode", .ofName q.options.inputMode),
          ("character_mode", .ofName q.options.characterMode),
          ("error_correction", .ofName q.options.errorCorrection) ] ) ++
    (.ofString "magnification", t) :: Value.memberTrees [("text", .string q.text)]

theorem exists_elementGap_toValue {l : Label} {i : Nat} {q : QrField}
    (h : l.elements[i]? = some (.qrCode q)) :
    ∃ written, ElementGap "magnification" i written ∧
      l.toValue.tree = written (.string (.ofString q.options.magnification.text)) := by
  obtain ⟨hi, he⟩ := List.getElem?_eq_some_iff.mp h
  let trees (es : List Element) : List Tree := es.map fun e => e.toValue.tree
  let label (t : Tree) : Tree := .object (Value.memberTrees
    [ ("width", .ofOption .ofInt32 l.width), ("height", .ofOption .ofInt32 l.height),
      ("print_mode", .ofName l.printMode), ("config", l.config.toValue) ] ++
      [(.ofString "elements", t)])
  have hlabel : Tree.Gap fieldNames "elements" label :=
    .member _ [] (Pieces.text?_ofString "elements")
  have helement : Tree.Gap [] "magnification" fun t => .object (qrMembers q t) :=
    .member _ _ (Pieces.text?_ofString "magnification")
  have hlength : (trees (l.elements.take i)).length = i := by
    rw [List.length_map, List.length_take, Nat.min_eq_left (Nat.le_of_lt hi)]
  have hgap := ElementGap.inside (trees (l.elements.take i)) (trees (l.elements.drop (i + 1)))
    hlabel helement
  rw [hlength] at hgap
  refine ⟨_, hgap, ?_⟩
  have hsplit : trees l.elements = trees (l.elements.take i) ++
      .object (qrMembers q (.string (.ofString q.options.magnification.text))) ::
        trees (l.elements.drop (i + 1)) := by
    conv => lhs; rw [← List.take_append_drop i l.elements, List.drop_eq_getElem_cons hi, he]
    exact List.map_append
  have htree : l.toValue.tree = label (.list (Value.itemTrees (l.elements.map Element.toValue))) :=
    rfl
  rw [htree, Value.itemTrees_eq, List.map_map, ← hsplit]
  rfl

theorem exists_elementGap_render {l : Label} {i : Nat} {q : QrField}
    (h : l.elements[i]? = some (.qrCode q)) (m : String) :
    ∃ written, ElementGap "magnification" i written ∧
      (written (.string (.ofString m))).SpelledBy (l.magnified i q m).render := by
  have hlength : i < l.elements.length := (List.getElem?_eq_some_iff.mp h).1
  have hset : (l.magnified i q m).elements[i]? = some (.qrCode (q.magnified m)) :=
    List.getElem?_set_self hlength
  obtain ⟨written, hgap, htree⟩ := exists_elementGap_toValue hset
  refine ⟨written, hgap, ?_⟩
  have hspelled := (l.magnified i q m).whole_toValue.spelledBy_pretty
  rw [htree] at hspelled
  exact hspelled

end Label

/-- The magnification of an otherwise valid QR code is taken exactly if it is a string or an integer
of 32 bits without a sign, be the QR code a record, an element or among the elements of a label. It
is kept as text, so a number and the string of its digits make the same label, program and picture,
and the document that is written for the label has the string. -/
theorem documents_take_magnification :
    (∀ {element : Tree → Tree} {t₀ : Tree} {valid : String} {q₀ : QrField},
      Tree.Gap [] "magnification" element → (element t₀).SpelledBy valid →
        (parse (Record.readObject QrField maxDepth) valid = .ok q₀ →
          Magnification.TakenBy (parse (Record.readObject QrField maxDepth)) element
            q₀.magnified) ∧
        (parse (FromText.read maxDepth) valid = .ok (Element.qrCode q₀) →
          Magnification.TakenBy (parse (FromText.read maxDepth)) element
            fun m => Element.qrCode (q₀.magnified m))) ∧
    ∀ {i : Nat} {document : Tree → Tree} {t₀ : Tree} {valid : String} {l₀ : Label} {q₀ : QrField},
      Label.ElementGap "magnification" i document → (document t₀).SpelledBy valid →
        Label.ofDocument valid = .ok l₀ → l₀.elements[i]? = some (.qrCode q₀) →
          Magnification.TakenBy Label.ofDocument document (l₀.magnified i q₀) ∧
          (∀ m, ∃ written, Label.ElementGap "magnification" i written ∧
            (written (.string (.ofString m))).SpelledBy (l₀.magnified i q₀ m).render) ∧
          ∀ {t t' : Tree} {text text' m : String}, Magnification.SaidBy t m →
            Magnification.SaidBy t' m → (document t).SpelledBy text →
              (document t').SpelledBy text' →
                ∃ l l', Label.ofDocument text = .ok l ∧ Label.ofDocument text' = .ok l' ∧ l = l' ∧
                  l.zpl = l'.zpl ∧ l.preview = l'.preview ∧ l.render = l'.render := by
  refine ⟨fun hgap hvalid => ⟨QrField.takes_magnification hgap hvalid,
    Element.takes_magnification hgap hvalid⟩, fun hgap hvalid h₀ hq₀ => ?_⟩
  have htakes := Label.takes_magnification hgap hvalid h₀ hq₀
  refine ⟨htakes, Label.exists_elementGap_render hq₀, fun hm hm' htext htext' => ?_⟩
  exact ⟨_, _, htakes.eq_ok hm htext, htakes.eq_ok hm' htext', rfl, rfl, rfl, rfl⟩

theorem documents_take_magnification_greatest :
    let code (m : Value) : Value := .object
      [("type", .string "qr_code"), ("text", .string "a"), ("magnification", m)]
    let document (m : Value) : Value := .object [("elements", .list [code m])]
    let greatest : QrField := QrField.magnified { text := "a" } "4294967295"
    parse (Record.readObject QrField maxDepth) (code (.integer 4294967295)).compact =
        .ok greatest ∧
      parse (FromText.read maxDepth) (code (.integer 4294967295)).compact =
        .ok (Element.qrCode greatest) ∧
      (∃ l l', Label.ofDocument (document (.integer 4294967295)).compact = .ok l ∧
        Label.ofDocument (document (.string "4294967295")).compact = .ok l' ∧ l = l' ∧
          l.zpl = l'.zpl ∧ l.preview = l'.preview ∧ l.render = l'.render) ∧
      ¬∃ l, Label.ofDocument (document (.integer 4294967296)).compact = .ok l := by
  intro code document greatest
  let element (t : Tree) : Tree := .object
    [ (.ofString "type", .string (.ofString "qr_code")),
      (.ofString "text", .string (.ofString "a")), (.ofString "magnification", t) ]
  have helement : Tree.Gap [] "magnification" element :=
    .member [_, _] [] (Pieces.text?_ofString "magnification")
  have hdocument : Label.ElementGap "magnification" 0
      fun t => .object [(.ofString "elements", .list [element t])] :=
    .inside [] [] (.member [] [] (Pieces.text?_ofString "elements")) helement
  have hcode {m : Value} (hm : m.Whole) : (code m).Whole := by
    apply Value.Whole.object
    simp only [List.forall_mem_cons, List.not_mem_nil, false_implies, implies_true, and_true]
    exact ⟨.string _, .string _, hm⟩
  have hlabel {m : Value} (hm : m.Whole) : (document m).Whole :=
    .object (List.forall_mem_singleton.mpr (.list (List.forall_mem_singleton.mpr (hcode hm))))
  have hgreatest : (Value.integer 4294967295).Whole := .integer (by decide) (by decide)
  have hbeyond : (Value.integer 4294967296).Whole := .integer (by decide) (by decide)
  have hsaid : Magnification.SaidBy (.number (.ofInt 4294967295)) "4294967295" :=
    .number ⟨rfl, rfl, by decide⟩ (by decide) (by decide)
  have hbare : parse (Record.readObject QrField maxDepth) (code (.string "")).compact =
      .ok { text := "a" } := toOption_eq_some_iff.mp (by decide +kernel)
  have htagged : parse (FromText.read maxDepth) (code (.string "")).compact =
      .ok (Element.qrCode { text := "a" }) := toOption_eq_some_iff.mp (by decide +kernel)
  have hvalid : Label.ofDocument (document (.string "")).compact =
      .ok { elements := [.qrCode { text := "a" }] } :=
    toOption_eq_some_iff.mp (by decide +kernel)
  obtain ⟨hcodes, hlabels⟩ := documents_take_magnification
  have hrecords := (hcodes helement (hcode (.string "")).spelledBy_compact).1 hbare
  have helements := (hcodes helement (hcode (.string "")).spelledBy_compact).2 htagged
  obtain ⟨htaken, -, hsame⟩ := hlabels hdocument (hlabel (.string "")).spelledBy_compact hvalid rfl
  refine ⟨hrecords.eq_ok hsaid (hcode hgreatest).spelledBy_compact,
    helements.eq_ok hsaid (hcode hgreatest).spelledBy_compact, ?_, ?_⟩
  · exact hsame hsaid (.string (Pieces.text?_ofString "4294967295"))
      (hlabel hgreatest).spelledBy_compact (hlabel (.string _)).spelledBy_compact
  · rintro ⟨l, hl⟩
    obtain ⟨m, hm, -⟩ := (htaken (.number (.ofInt 4294967296)) _
      (hlabel hbeyond).spelledBy_compact l).mp hl
    cases hm with
    | number hinteger hlow hhigh => exact absurd hhigh (by decide)

end LabelPress

import LabelPress.Proofs.Document.Respelled
import LabelPress.Proofs.Json.Printing
import LabelPress.Proofs.Json.Range

/-! Documents read back. What is written for a label is one of its spellings, so the label is read
from it again; an element and a record on its own are read from their text on one line. A label is
read from all its other spellings too, if the numbers added to its elements are readable. -/
namespace LabelPress

namespace Json

structure Value.Plain (v : Value) : Prop where
  whole : v.Whole
  value?_tree : v.tree.value? 0 = some v

namespace Value

@[simp] theorem plain_null : Plain .null := ⟨.null, rfl⟩

@[simp] theorem plain_string (s : String) : Plain (.string s) where
  whole := .string s
  value?_tree := by rw [tree, Tree.value?, Pieces.text?_ofString]; rfl

@[simp] theorem plain_ofName {α : Type} [Named α] (a : α) : Plain (.ofName a) :=
  plain_string (Named.name a)

theorem plain_integer {n : Int} (hlow : -0x8000000000000000 ≤ n)
    (hhigh : n ≤ 0xFFFFFFFFFFFFFFFF) : Plain (.integer n) where
  whole := .integer hlow hhigh
  value?_tree := by
    rw [integer, tree, Tree.value?, Literal.read_ofInt hlow hhigh]
    rfl

@[simp] theorem plain_ofInt32 (n : Int32) : Plain (.ofInt32 n) := by
  have hlow := n.le_toInt
  have hhigh := n.toInt_lt
  exact plain_integer (by omega) (by omega)

@[simp] theorem plain_ofUInt32 (n : UInt32) : Plain (.integer n.toNat) := by
  have hhigh := n.toNat_lt
  exact plain_integer (by omega) (by omega)

@[simp] theorem plain_ofUInt8 (n : UInt8) : Plain (.integer n.toNat) := by
  have hhigh := n.toNat_lt
  exact plain_integer (by omega) (by omega)

theorem plain_ofOption {α : Type} {f : α → Value} (h : ∀ a, Plain (f a)) (o : Option α) :
    Plain (.ofOption f o) := by
  cases o with
  | none => exact plain_null
  | some a => exact h a

@[simp] theorem plain_int32Option (o : Option Int32) : Plain (.ofOption .ofInt32 o) :=
  plain_ofOption plain_ofInt32 o

@[simp] theorem plain_uint32Option (o : Option UInt32) :
    Plain (.ofOption (fun n => .integer n.toNat) o) :=
  plain_ofOption plain_ofUInt32 o

@[simp] theorem plain_nameOption {α : Type} [Named α] (o : Option α) :
    Plain (.ofOption .ofName o) :=
  plain_ofOption plain_ofName o

end Value

/-- Without additions, omissions and changes of order an object is one of its spellings. -/
theorem Respells.of_forall₂ {entries : List Entry} {admitted : Tree → Prop}
    {ms : List (Pieces × Tree)} (h : List.Forall₂ Entry.SpelledBy entries ms) :
    Respells entries admitted ms :=
  ⟨entries, ms, [], .refl _, fun _ he => .inl he, h, by simp, by simp⟩

theorem Entry.spelledBy_memberTree {defaults : List (String × Value)} {m : String × Value}
    (h : m.2.Plain) : (Entry.ofMember defaults m).SpelledBy (Value.memberTree m) :=
  ⟨Pieces.text?_ofString m.1, h.value?_tree⟩

theorem Respells.memberTrees {defaults ms : List (String × Value)} {admitted : Tree → Prop}
    (h : ∀ m ∈ ms, m.2.Plain) :
    Respells (ms.map (Entry.ofMember defaults)) admitted (Value.memberTrees ms) := by
  apply Respells.of_forall₂
  rw [Value.memberTrees_eq, List.forall₂_map_left_iff, List.forall₂_map_right_iff,
    List.forall₂_same]
  exact fun m hm => Entry.spelledBy_memberTree (h m hm)

theorem Value.whole_object {ms : List (String × Value)} (h : ∀ m ∈ ms, m.2.Plain) :
    Whole (.object ms) :=
  .object fun m hm => (h m hm).whole

theorem Tree.map_named_memberTrees (ms : List (String × Value)) :
    (Value.memberTrees ms).map named = ms.map fun m => (m.1, m.2.tree) := by
  rw [Value.memberTrees_eq, List.map_map]
  apply List.map_congr_left
  intro m _
  simp [named, Value.memberTree, Pieces.text?_ofString]

theorem Tree.namedValues?_trees {ms : List (String × Value)} (h : ∀ m ∈ ms, m.2.Plain)
    (depth : Nat) : namedValues? depth (ms.map fun m => (m.1, m.2.tree)) = some ms := by
  unfold namedValues?
  induction ms with
  | nil => rfl
  | cons m ms ih =>
    rw [List.map_cons, List.mapM_cons, value?_of_zero (h m List.mem_cons_self).value?_tree,
      ih fun m' hm' => h m' (List.mem_cons_of_mem m hm')]
    rfl

theorem plainAlternatives_memberTrees {ms : List (String × Value)} (h : ∀ m ∈ ms, m.2.Plain) :
    PlainAlternatives (Value.memberTrees ms) := by
  intro m hm _ _ _
  rw [Value.memberTrees_eq] at hm
  obtain ⟨m', hm', rfl⟩ := List.mem_map.mp hm
  exact Tree.isScalar_of_zero (h m' hm').value?_tree

theorem parse_readObject_compact {α : Type} [Record α] [ReadsAlike α] {a : α}
    {ms : List (String × Value)} (hms : ∀ m ∈ ms, m.2.Plain)
    (ha : Record.ofMembers α ms = .ok a) :
    parse (Record.readObject α maxDepth) (Value.object ms).compact = .ok a := by
  have hread := reads_record (α := α) 126 (plainAlternatives_memberTrees hms)
  rw [Value.named?_memberTrees, Option.bind_some, Tree.namedValues?_trees hms, Option.bind_some,
    ha] at hread
  exact parse_eq_ok hread (Value.whole_object hms).spelledBy_compact

end Json

open Json
open Json.Reader hiding true false null

theorem TextField.plain_members (t : TextField) : ∀ m ∈ t.members, m.2.Plain := by
  simp [members, Position.members]

theorem QrField.plain_members (q : QrField) : ∀ m ∈ q.members, m.2.Plain := by
  simp [members, Position.members, QrOptions.members]

theorem GraphicBox.plain_members (b : GraphicBox) : ∀ m ∈ b.members, m.2.Plain := by
  simp [members, Position.members]

theorem CustomCommand.plain_members (c : CustomCommand) : ∀ m ∈ c.members, m.2.Plain := by
  simp [members, Position.members]

theorem NativeZpl.plain_members (n : NativeZpl) : ∀ m ∈ n.members, m.2.Plain := by
  simp [members, Position.members]

namespace Element

theorem plain_members (e : Element) : ∀ m ∈ e.members, m.2.Plain := by
  cases e with
  | customCommand c => exact c.plain_members
  | qrCode q => exact q.plain_members
  | text t => exact t.plain_members
  | graphicBox b => exact b.plain_members
  | native n => exact n.plain_members

theorem plain_toValue_members (e : Element) : ∀ m ∈ e.toValue.members, m.2.Plain :=
  List.forall_mem_cons.mpr ⟨Value.plain_ofName e.kind, e.plain_members⟩

theorem whole_toValue (e : Element) : e.toValue.Whole :=
  Value.whole_object e.plain_toValue_members

theorem spelledBy_tree (number : Literal → Prop) (e : Element) :
    e.SpelledBy number e.toValue.tree :=
  ⟨_, .memberTrees e.plain_toValue_members, rfl⟩

theorem spelledBy_itemTrees (number : Literal → Prop) (es : List Element) :
    List.Forall₂ (SpelledBy number) es (Value.itemTrees (es.map toValue)) := by
  rw [Value.itemTrees_eq, List.map_map, List.forall₂_map_right_iff, List.forall₂_same]
  exact fun e _ => e.spelledBy_tree number

theorem finds_members (e : Element) : Finds e.members e.members := by
  have hrespells : Respells e.entries (Tree.Mild Literal.Readable addedDepth)
      (Value.memberTrees e.toValue.members) := .memberTrees e.plain_toValue_members
  have hothers : (e.toValue.members.map fun m => (m.1, m.2.tree)).filter (fun n => n.1 ≠ "type") =
      e.members.map fun m => (m.1, m.2.tree) := by
    have hkeep : ∀ n ∈ e.members.map fun m => (m.1, m.2.tree), decide (n.1 ≠ "type") = true := by
      intro n hn
      obtain ⟨⟨k, v⟩, hm, rfl⟩ := List.mem_map.mp hn
      rw [decide_eq_true_iff]
      rintro rfl
      exact not_type_mem_members e v hm
    exact List.filter_eq_self.mpr hkeep
  refine @finds_of_respells e _ hrespells 0 _ ?_
  rw [Tree.map_named_memberTrees, hothers, Tree.namedValues?_trees e.plain_members]

theorem reads_tree (e : Element) {depth : Nat} (hdepth : addedDepth ≤ depth) :
    Reads (FromText.read (depth + 1)) e.toValue.tree (some e) := by
  have hspelled := e.spelledBy_tree Literal.Readable
  rw [← read?_respelled hspelled hdepth]
  exact reads_respelled hspelled depth

theorem parse_compact (e : Element) : parse (FromText.read maxDepth) e.toValue.compact = .ok e :=
  parse_eq_ok (e.reads_tree (by decide)) e.whole_toValue.spelledBy_compact

end Element

theorem TextField.ofMembers_members (t : TextField) :
    Record.ofMembers TextField t.members = .ok t :=
  ofMembers_eq_ok_iff.mpr (saidBy_of_finds (Element.finds_members (.text t)))

theorem QrField.ofMembers_members (q : QrField) : Record.ofMembers QrField q.members = .ok q :=
  ofMembers_eq_ok_iff.mpr (saidBy_of_finds (Element.finds_members (.qrCode q)))

theorem GraphicBox.ofMembers_members (b : GraphicBox) :
    Record.ofMembers GraphicBox b.members = .ok b :=
  ofMembers_eq_ok_iff.mpr (saidBy_of_finds (Element.finds_members (.graphicBox b)))

theorem CustomCommand.ofMembers_members (c : CustomCommand) :
    Record.ofMembers CustomCommand c.members = .ok c :=
  ofMembers_eq_ok_iff.mpr (saidBy_of_finds (Element.finds_members (.customCommand c)))

theorem NativeZpl.ofMembers_members (n : NativeZpl) :
    Record.ofMembers NativeZpl n.members = .ok n :=
  ofMembers_eq_ok_iff.mpr (saidBy_of_finds (Element.finds_members (.native n)))

theorem PrinterConfig.plain_members (c : PrinterConfig) : ∀ m ∈ c.toValue.members, m.2.Plain := by
  simp [toValue, Value.members]

theorem PrinterConfig.spelledBy_tree (c : PrinterConfig) : c.SpelledBy c.toValue.tree :=
  ⟨_, .memberTrees c.plain_members, rfl⟩

namespace Label

theorem whole_toValue (l : Label) : l.toValue.Whole := by
  have hconfig : l.config.toValue.Whole := Value.whole_object l.config.plain_members
  have helements : Value.Whole (.list (l.elements.map Element.toValue)) := by
    apply Value.Whole.list
    intro v hv
    obtain ⟨e, -, rfl⟩ := List.mem_map.mp hv
    exact e.whole_toValue
  apply Value.Whole.object
  simp only [List.forall_mem_cons, List.not_mem_nil, false_implies, implies_true, and_true]
  exact ⟨(Value.plain_int32Option _).whole, (Value.plain_int32Option _).whole,
    (Value.plain_ofName _).whole, hconfig, helements⟩

theorem respells_memberTrees (number : Literal → Prop) (l : Label) :
    Respells (l.entries number) (Tree.Mild Literal.Finite addedDepth)
      (Value.memberTrees l.toValue.members) := by
  have helements := Element.spelledBy_itemTrees number l.elements
  apply Respells.of_forall₂
  rw [entries_eq]
  exact .cons (Entry.spelledBy_memberTree (Value.plain_int32Option _))
    (.cons (Entry.spelledBy_memberTree (Value.plain_int32Option _))
      (.cons (Entry.spelledBy_memberTree (Value.plain_ofName _))
        (.cons ⟨Pieces.text?_ofString _, l.config.spelledBy_tree⟩
          (.cons ⟨Pieces.text?_ofString _, _, helements, rfl⟩ .nil))))

theorem spelledBy_render (number : Literal → Prop) (l : Label) :
    l.SpelledBy number l.render :=
  ⟨_, l.respells_memberTrees number, l.whole_toValue.spelledBy_pretty⟩

theorem ofDocument_render (l : Label) : ofDocument l.render = .ok l := by
  obtain ⟨ms, hms, htext⟩ := l.spelledBy_render Literal.Readable
  exact parse_eq_ok (reads_respelled hms) htext

end Label

/-- Documents are read back: labels with the same encoding, elements, and the records of elements
without their kind. -/
theorem documents_round_trip :
    (∀ l : Label, Label.ofDocument l.render = .ok l ∧
      (Label.ofDocument l.render).map Label.zpl = .ok l.zpl) ∧
    (∀ e : Element, parse (FromText.read maxDepth) e.toValue.compact = .ok e) ∧
    (∀ c : CustomCommand,
      parse (Record.readObject CustomCommand maxDepth) (Value.object c.members).compact = .ok c) ∧
    (∀ q : QrField,
      parse (Record.readObject QrField maxDepth) (Value.object q.members).compact = .ok q) ∧
    (∀ t : TextField,
      parse (Record.readObject TextField maxDepth) (Value.object t.members).compact = .ok t) ∧
    (∀ b : GraphicBox,
      parse (Record.readObject GraphicBox maxDepth) (Value.object b.members).compact = .ok b) ∧
    (∀ n : NativeZpl,
      parse (Record.readObject NativeZpl maxDepth) (Value.object n.members).compact = .ok n) := by
  refine ⟨fun l => ?_, Element.parse_compact,
    fun c => parse_readObject_compact c.plain_members c.ofMembers_members,
    fun q => parse_readObject_compact q.plain_members q.ofMembers_members,
    fun t => parse_readObject_compact t.plain_members t.ofMembers_members,
    fun b => parse_readObject_compact b.plain_members b.ofMembers_members,
    fun n => parse_readObject_compact n.plain_members n.ofMembers_members⟩
  rw [l.ofDocument_render]
  exact ⟨rfl, rfl⟩

namespace Label

/-- A label is read from all its spellings. -/
theorem ofDocument_of_spelledBy {l : Label} {text : String}
    (h : l.SpelledBy Literal.Readable text) : ofDocument text = .ok l := by
  obtain ⟨ms, hms, htext⟩ := h
  exact parse_eq_ok (reads_respelled hms) htext

/-- An object whose member `k` no element has, with its kind last and an escape in its content. -/
def sampleMembers (n : Literal) : List (Pieces × Tree) :=
  [ (.ofString "k", .number n),
    (.ofString "content", .string [.code '0' '0' '6' '1' 97 rfl]),
    (.ofString "type", .string (.ofString "text")) ]

def sampleElement (n : Literal) : List Char :=
  "\x7b\"k\":".toList ++ n.chars ++ ", \"content\": \"\\u0061\",\"type\":\"text\"\x7d".toList

def sampleText (n : Literal) : String :=
  "\x7b\"elements\": [" ++ String.ofList (sampleElement n) ++ "]\x7d\n"

def sample : Label := { elements := [.text { content := "a" }] }

theorem spells_sampleElement (n : Literal) :
    (Tree.object (sampleMembers n)).Spells (sampleElement n) := by
  refine ⟨_, _, ⟨[], [], _, _, Blanks.nil, Blanks.nil, rfl,
    ⟨[], [' '], _, _, Blanks.nil, Blanks.cons rfl Blanks.nil, rfl,
      ⟨[], [], _, _, Blanks.nil, Blanks.nil, rfl, rfl, rfl⟩, rfl⟩, rfl⟩,
    .items Blanks.nil (.comma Blanks.nil (Blanks.cons (c := ' ') rfl Blanks.nil)
      (.comma Blanks.nil Blanks.nil (.closed Blanks.nil))), ?_⟩
  unfold sampleElement
  simp only [String.reduceToList, List.append_assoc, List.cons_append, List.nil_append]
  rfl

def sampleLabelMembers (n : Literal) : List (Pieces × Tree) :=
  [(.ofString "elements", .list [.object (sampleMembers n)])]

theorem spelledBy_sampleTree (n : Literal) :
    (Tree.object (sampleLabelMembers n)).SpelledBy (sampleText n) := by
  have hlist : (Tree.list [.object (sampleMembers n)]).Spells ('[' :: sampleElement n ++ [']']) :=
    ⟨_, _, ⟨_, _, spells_sampleElement n, rfl, rfl⟩,
      .items Blanks.nil (.closed Blanks.nil), by simp⟩
  refine ⟨[], _, ['\n'], Blanks.nil, ⟨_, _, ⟨[], [' '], _, _, Blanks.nil,
    Blanks.cons rfl Blanks.nil, hlist, rfl, rfl⟩, .items Blanks.nil (.closed Blanks.nil), rfl⟩,
    Blanks.cons rfl Blanks.nil, ?_⟩
  unfold sampleText
  generalize sampleElement n = element
  simp only [String.toList_append, String.toList_ofList, String.reduceToList, List.append_assoc,
    List.cons_append, List.nil_append]
  rfl

theorem spelledBy_sampleMembers {number : Literal → Prop} {n : Literal} (h : number n) :
    (Element.text { content := "a" }).SpelledBy number (.object (sampleMembers n)) := by
  let kept : List Entry :=
    [ .ofMember Element.defaultMembers ("type", .ofName Element.Kind.text),
      .ofMember Element.defaultMembers ("content", .string "a") ]
  have hkept : kept.Sublist (Element.text { content := "a" }).entries :=
    .cons_cons _ (.cons _ (.cons _ (.cons _ (.cons _ (.cons _ (.cons_cons _ .slnil))))))
  have homitted : ∀ e ∈ (Element.text { content := "a" }).entries, e ∈ kept ∨ e.omittable := by
    simp only [Element.entries, Element.toValue, Element.members, TextField.members,
      Position.members, Value.members, List.cons_append, List.nil_append, List.map_cons,
      List.map_nil, List.forall_mem_cons]
    refine ⟨.inl (by simp [kept, Element.kind]), .inr ?_, .inr ?_, .inr ?_, .inr ?_, .inr ?_,
      .inl (by simp [kept]), by simp⟩ <;>
        simp [Entry.ofMember, Element.defaultMembers, QrOptions.members, Value.ofOption]
    rfl
  have hown : List.Forall₂ Entry.SpelledBy kept
      [ (.ofString "type", .string (.ofString "text")),
        (.ofString "content", .string [.code '0' '0' '6' '1' 97 rfl]) ] :=
    .cons (Entry.spelledBy_memberTree (Value.plain_ofName Element.Kind.text))
      (.cons ⟨Pieces.text?_ofString "content", rfl⟩ .nil)
  have hforeign : IsForeign (Element.text { content := "a" }).entries (Tree.Mild number addedDepth)
      (.ofString "k", .number n) :=
    ⟨"k", Pieces.text?_ofString "k", by decide, .number h⟩
  refine ⟨_, ⟨kept, _, [(.ofString "k", .number n)], hkept, homitted, hown, by simpa using hforeign,
    ?_⟩, rfl⟩
  exact (List.reverse_perm (sampleMembers n)).symm

theorem spelledBy_sampleText {number : Literal → Prop} {n : Literal} (h : number n) :
    sample.SpelledBy number (sampleText n) := by
  have homitted : ∀ e ∈ sample.entries number,
      e ∈ [sample.elementsEntry number] ∨ e.omittable := by
    rw [entries_eq]
    simp only [List.forall_mem_cons]
    refine ⟨.inr ?_, .inr ?_, .inr ?_, .inr rfl, .inl (by simp), by simp⟩ <;>
      simp [Entry.ofMember, defaultMembers, sample, Value.ofOption]
    rfl
  have hown : List.Forall₂ Entry.SpelledBy [sample.elementsEntry number]
      [(.ofString "elements", .list [.object (sampleMembers n)])] :=
    .cons ⟨Pieces.text?_ofString "elements", _, .cons (spelledBy_sampleMembers h) .nil, rfl⟩ .nil
  exact ⟨_, ⟨_, _, [], .cons _ (.cons _ (.cons _ (.cons _ (.cons_cons _ .slnil)))), homitted, hown,
    by simp, .refl _⟩, spelledBy_sampleTree n⟩

theorem toOption_ofDocument_sampleText {n : Literal} (h : n.read.toOption = none) :
    (ofDocument (sampleText n)).toOption = none := by
  have hnamed : Tree.named? (sampleMembers n) =
      some [("k", .number n), ("content", .string [.code '0' '0' '6' '1' 97 rfl]),
        ("type", .string (.ofString "text"))] := by
    simp [Tree.named?, sampleMembers, Pieces.text?_ofString]
  have helement (t : Tree) (ht : t ∈ [Tree.object (sampleMembers n)]) :
      Reads (FromText.read 125 : Reader Element) t none := by
    rw [List.mem_singleton.mp ht]
    have hread := Element.reads_object 124 (sampleMembers n)
    have hnone : (Tree.named? (sampleMembers n)).bind (Element.ofTree? 124) = none := by
      rw [hnamed]
      simp [Element.ofTree?, Tree.namedValues?, Tree.value?, h]
    rwa [hnone] at hread
  have hlist (m : Pieces × Tree) (hm : m ∈ sampleLabelMembers n)
      (_ : m.1.text? = some "elements") :
      Reads (FromText.read 126 : Reader (List Element)) m.2 none := by
    rw [List.mem_singleton.mp hm]
    exact reads_elements helement
  have hmode (m : Pieces × Tree) (hm : m ∈ sampleLabelMembers n)
      (hname : m.1.text? = some "print_mode") :
      Reads (FromText.read 126 : Reader PrintMode) m.2 none := by
    rw [List.mem_singleton.mp hm, Pieces.text?_ofString] at hname
    simp at hname
  have hconfig (m : Pieces × Tree) (hm : m ∈ sampleLabelMembers n)
      (hname : m.1.text? = some "config") :
      Reads (FromText.read 126 : Reader PrinterConfig) m.2 none := by
    rw [List.mem_singleton.mp hm, Pieces.text?_ofString] at hname
    simp at hname
  have hread : Reads (FromText.read maxDepth) (.object (sampleLabelMembers n))
      ((Tree.named? (sampleLabelMembers n)).bind
        (ofTree? (fun _ => none) (fun _ => none) fun _ => none)) :=
    reads_object hmode hconfig hlist
  have hnone : (Tree.named? (sampleLabelMembers n)).bind
      (ofTree? (fun _ => none) (fun _ => none) fun _ => none) = none := by
    simp [Tree.named?, sampleLabelMembers, Pieces.text?_ofString, ofTree?, field?]
  rw [hnone] at hread
  exact toOption_parse hread (spelledBy_sampleTree n)

def hundred : Literal where
  negative := false
  whole := .ofNat 1
  fraction := none
  exponent := some ⟨'e', none, .ofNat 2, .inl rfl, by simp⟩
  noLeadingZero := Text.toDigits_leadingZero 1

theorem ofDocument_of_spelledBy_sample :
    sample.SpelledBy Literal.Readable (sampleText hundred) ∧
      ofDocument (sampleText hundred) = .ok sample := by
  have hreadable : hundred.Readable := by
    apply Literal.readable_of_le_reach
    · rintro e ⟨⟩
      decide +kernel
    · decide +kernel
  have hspelled := spelledBy_sampleText hreadable
  exact ⟨hspelled, ofDocument_of_spelledBy hspelled⟩

/-- `17976931348623157081e289`, which is less than the greatest double. Its digits fit 64 bits, but
the product of the doubles nearest to them and to the power of ten is infinite. -/
def huge : Literal where
  negative := false
  whole := .ofNat 17976931348623157081
  fraction := none
  exponent := some ⟨'e', none, .ofNat 289, .inl rfl, by simp⟩
  noLeadingZero := Text.toDigits_leadingZero 17976931348623157081

theorem not_ofDocument_of_finite :
    ¬ ∀ (l : Label) (text : String),
      l.SpelledBy Literal.Finite text → ofDocument text = .ok l := by
  intro h
  have hfinite : huge.Finite := by
    unfold Literal.Finite
    decide +kernel
  have hunreadable : huge.read.toOption = none := by decide +kernel
  have hread := h sample (sampleText huge) (spelledBy_sampleText hfinite)
  have hnone := toOption_ofDocument_sampleText hunreadable
  rw [hread] at hnone
  cases hnone

end Label

end LabelPress

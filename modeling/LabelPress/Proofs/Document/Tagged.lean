import LabelPress.Proofs.Document.RoundTrip

/-! Elements and their records. A record on its own is read field by field, where its members stand;
as an element, all its members are read as values before its kind is known. Both say the same,
wherever the kind stands among the members. -/
namespace LabelPress

open Json
open Json.Reader hiding true false null

namespace Element

namespace Kind

def Body : Kind → Type
  | customCommand => CustomCommand
  | qrCode => QrField
  | text => TextField
  | graphicBox => GraphicBox
  | native => NativeZpl

instance : (k : Kind) → Record k.Body
  | customCommand => inferInstanceAs (Record CustomCommand)
  | qrCode => inferInstanceAs (Record QrField)
  | text => inferInstanceAs (Record TextField)
  | graphicBox => inferInstanceAs (Record GraphicBox)
  | native => inferInstanceAs (Record NativeZpl)

instance : (k : Kind) → ReadsAlike k.Body
  | customCommand => inferInstanceAs (ReadsAlike CustomCommand)
  | qrCode => inferInstanceAs (ReadsAlike QrField)
  | text => inferInstanceAs (ReadsAlike TextField)
  | graphicBox => inferInstanceAs (ReadsAlike GraphicBox)
  | native => inferInstanceAs (ReadsAlike NativeZpl)

def Body.zpl (config : PrinterConfig) : {k : Kind} → k.Body → String
  | customCommand, c => CustomCommand.zpl c
  | qrCode, q => QrField.zpl q
  | text, t => TextField.zpl t config
  | graphicBox, b => GraphicBox.zpl b
  | native, n => NativeZpl.zpl n

/-- A member that names the kind, whatever its escapes. -/
structure NamedBy (k : Kind) (m : Pieces × Tree) : Prop where
  key : m.1.text? = some "type"
  value : m.2.value? 0 = some (.ofName k)

end Kind

def ofBody : {k : Kind} → k.Body → Element
  | .customCommand, c => customCommand c
  | .qrCode, q => qrCode q
  | .text, t => text t
  | .graphicBox, b => graphicBox b
  | .native, n => native n

theorem ofBody_injective {k : Kind} : Function.Injective (ofBody (k := k)) := by
  intro v w h
  cases k <;> (cases h; rfl)

theorem zpl_ofBody (config : PrinterConfig) {k : Kind} (v : k.Body) :
    (ofBody v).zpl config = v.zpl config := by
  cases k <;> rfl

theorem toOption_ofValue (k : Kind) (vs : List (String × Value)) :
    (ofValue (.object vs) k).toOption = (Record.ofMembers k.Body vs).toOption.map ofBody := by
  cases k <;> exact toOption_map _ _

def Untagged (ms : List (Pieces × Tree)) : Prop := ∀ m ∈ ms, m.1.text? ≠ some "type"

theorem Untagged.filter_named {ms : List (Pieces × Tree)} (h : Untagged ms)
    {ns : List (String × Tree)} (hns : Tree.named? ms = some ns) :
    ns.filter (fun n => n.1 = "type") = [] ∧ ns.filter (fun n => n.1 ≠ "type") = ns := by
  have hname : ∀ n ∈ ns, n.1 ≠ "type" := by
    induction ms generalizing ns with
    | nil =>
      cases hns
      simp
    | cons m ms ih =>
      obtain ⟨k, rest, hk, hrest, rfl⟩ := Tree.named?_cons.mp hns
      refine List.forall_mem_cons.mpr
        ⟨?_, ih (fun m' hm' => h m' (List.mem_cons_of_mem m hm')) hrest⟩
      rintro rfl
      exact h m List.mem_cons_self hk
  exact ⟨List.filter_eq_nil_iff.mpr (by simpa using hname),
    List.filter_eq_self.mpr (by simpa using hname)⟩

section

variable {k : Kind} {before after : List (Pieces × Tree)} {m : Pieces × Tree}

theorem ofTree?_insert (hm : k.NamedBy m) (h : Untagged (before ++ after)) (depth : Nat) :
    (Tree.named? (before ++ m :: after)).bind (ofTree? depth) =
      (((Tree.named? (before ++ after)).bind (Tree.namedValues? depth)).bind fun vs =>
        (Record.ofMembers k.Body vs).toOption).map ofBody := by
  have hbefore : Untagged before := fun m' hm' => h m' (List.mem_append_left after hm')
  have hafter : Untagged after := fun m' hm' => h m' (List.mem_append_right before hm')
  rw [Tree.named?_insert hm.key, Tree.named?_append]
  cases hns : Tree.named? before with
  | none => rfl
  | some ns =>
    cases hns' : Tree.named? after with
    | none => rfl
    | some ns' =>
      obtain ⟨hnone, hall⟩ := hbefore.filter_named hns
      obtain ⟨hnone', hall'⟩ := hafter.filter_named hns'
      have hkind : field? kind? "type" none (ns ++ ("type", m.2) :: ns') = some k := by
        unfold field?
        rw [List.filter_append, List.filter_cons_of_pos (by simp), hnone, hnone']
        exact kind?_of_spelling hm.value
      have hothers : (ns ++ ("type", m.2) :: ns').filter (fun n => n.1 ≠ "type") = ns ++ ns' := by
        rw [List.filter_append, List.filter_cons_of_neg (by simp), hall, hall']
      simp only [Option.map_some, Option.bind_some, ofTree?, hkind, hothers, toOption_ofValue,
        Option.bind_eq_bind]
      cases Tree.namedValues? depth (ns ++ ns') <;> rfl

end

/-- An object that names a kind among its members is read as an element exactly if without that
member it is read as the record of that kind. It is the element of this record, on the wire too. -/
theorem parse_tagged (k : Kind) {before after : List (Pieces × Tree)} {tag : Pieces × Tree}
    {bare tagged : String} (hbare : (Tree.object (before ++ after)).SpelledBy bare)
    (htagged : (Tree.object (before ++ tag :: after)).SpelledBy tagged) (htag : k.NamedBy tag)
    (huntagged : Untagged (before ++ after)) (hplain : PlainAlternatives (before ++ after)) :
    (∀ v : k.Body, parse (Record.readObject k.Body maxDepth) bare = .ok v ↔
        parse (FromText.read maxDepth) tagged = .ok (ofBody v)) ∧
      (∀ e : Element, parse (FromText.read maxDepth) tagged = .ok e → ∃ v : k.Body, e = ofBody v) ∧
      ∀ (config : PrinterConfig) (v : k.Body),
        parse (Record.readObject k.Body maxDepth) bare = .ok v →
          (parse (FromText.read maxDepth) tagged).map (Element.zpl config) = .ok (v.zpl config) := by
  -- The two errors may differ, as the texts do, so the readings are compared without them.
  have hread : (parse (FromText.read maxDepth) tagged).toOption =
      (parse (Record.readObject k.Body maxDepth) bare).toOption.map ofBody := by
    have hrecord := toOption_parse (reads_record (α := k.Body) 126 hplain) hbare
    have helement := toOption_parse (reads_object 126 (before ++ tag :: after)) htagged
    rwa [ofTree?_insert htag huntagged, ← hrecord] at helement
  have hiff (v : k.Body) : parse (Record.readObject k.Body maxDepth) bare = .ok v ↔
      parse (FromText.read maxDepth) tagged = .ok (ofBody v) := by
    rw [← toOption_eq_some_iff, ← toOption_eq_some_iff, hread, Option.map_eq_some_iff]
    constructor
    · exact fun hv => ⟨v, hv, rfl⟩
    · rintro ⟨w, hw, hwv⟩
      rwa [ofBody_injective hwv] at hw
  refine ⟨hiff, fun e he => ?_, fun config v hv => ?_⟩
  · rw [← toOption_eq_some_iff, hread, Option.map_eq_some_iff] at he
    obtain ⟨v, -, rfl⟩ := he
    exact ⟨v, rfl⟩
  · rw [(hiff v).mp hv]
    exact congrArg Except.ok (zpl_ofBody config v)

theorem parse_tagged_text :
    let line : TextField := { content := "a" }
    let tagged : Value := .object
      [ ("x", .null), ("y", .null), ("font", .null), ("type", .string "text"), ("font_size", .null),
        ("rotation", .string "normal"), ("content", .string "a") ]
    parse (Record.readObject TextField maxDepth) (Value.object line.members).compact = .ok line ∧
      parse (FromText.read maxDepth) tagged.compact = .ok (Element.text line) := by
  intro line tagged
  let before : List (String × Value) := [("x", .null), ("y", .null), ("font", .null)]
  let after : List (String × Value) :=
    [("font_size", .null), ("rotation", .string "normal"), ("content", .string "a")]
  have hplain : ∀ m ∈ line.members, m.2.Plain := line.plain_members
  have htagged : ∀ m ∈ before ++ ("type", .ofName Kind.text) :: after, m.2.Plain := by
    simp [before, after]
  have huntagged : Untagged (Value.memberTrees before ++ Value.memberTrees after) := by
    simp [Untagged, before, after, Value.memberTrees, Pieces.text?_ofString]
  have htag : Kind.text.NamedBy (Value.memberTree ("type", .ofName Kind.text)) :=
    ⟨Pieces.text?_ofString "type", (Value.plain_ofName Kind.text).value?_tree⟩
  have hspelledBare : (Tree.object (Value.memberTrees before ++ Value.memberTrees after)).SpelledBy
      (Value.object line.members).compact :=
    (Value.whole_object hplain).spelledBy_compact
  have hspelled : (Tree.object (Value.memberTrees before ++
      Value.memberTree ("type", .ofName Kind.text) :: Value.memberTrees after)).SpelledBy
        tagged.compact :=
    (Value.whole_object htagged).spelledBy_compact
  have hbare := parse_readObject_compact hplain line.ofMembers_members
  have hparse := parse_tagged .text hspelledBare hspelled htag huntagged
    (plainAlternatives_memberTrees hplain)
  exact ⟨hbare, (hparse.1 line).mp hbare⟩

end Element

end LabelPress

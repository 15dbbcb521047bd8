import LabelPress.Proofs.Document.Spelling

/-! Labels, elements and configurations are read whatever the spelling. -/
namespace LabelPress

class LawfulNamed (α : Type) [Named α] : Prop where
  find?_name (a : α) : Named.find? (Named.name a) = some a

instance : LawfulNamed Rotation := ⟨fun a => by cases a <;> rfl⟩
instance : LawfulNamed PrintMode := ⟨fun a => by cases a <;> rfl⟩
instance : LawfulNamed LineColor := ⟨fun a => by cases a <;> rfl⟩
instance : LawfulNamed Font := ⟨fun font => by cases font <;> rfl⟩
instance : LawfulNamed Density := ⟨fun a => by cases a <;> rfl⟩
instance : LawfulNamed QrModel := ⟨fun a => by cases a <;> rfl⟩
instance : LawfulNamed QrErrorCorrection := ⟨fun a => by cases a <;> rfl⟩
instance : LawfulNamed QrInputMode := ⟨fun a => by cases a <;> rfl⟩
instance : LawfulNamed QrCharacterMode := ⟨fun a => by cases a <;> rfl⟩
instance : LawfulNamed Element.Kind := ⟨fun a => by cases a <;> rfl⟩

namespace Json

variable {α : Type}

theorem readValue_ofName [Named α] [LawfulNamed α] (a : α) :
    (readValue (.ofName a) : Option α) = some a := by
  unfold readValue Value.ofName
  change (variantNamed α (Named.name a)).toOption = some a
  unfold variantNamed
  rw [LawfulNamed.find?_name]
  rfl

theorem readValue_string (s : String) : readValue (.string s) = some s := rfl

theorem IntegerKind.ofNumber_integer {kind : IntegerKind} {n : Int}
    (h : kind.low ≤ n ∧ n ≤ kind.high) : kind.ofNumber (.integer n) = .ok n :=
  if_pos h

theorem readValue_ofInt32 (n : Int32) : readValue (.ofInt32 n) = some n := by
  have hrange : IntegerKind.signed32.low ≤ n.toInt ∧ n.toInt ≤ IntegerKind.signed32.high :=
    ⟨n.le_toInt, Int.le_sub_one_of_lt n.toInt_lt⟩
  change ((IntegerKind.signed32.ofNumber (.integer n.toInt)).map Int32.ofInt).toOption = some n
  rw [IntegerKind.ofNumber_integer hrange]
  exact congrArg some n.ofInt_toInt

theorem readValue_ofUInt32 (n : UInt32) : readValue (.integer n.toNat) = some n := by
  have hrange : IntegerKind.unsigned32.low ≤ (n.toNat : Int) ∧
      (n.toNat : Int) ≤ IntegerKind.unsigned32.high :=
    ⟨Int.natCast_nonneg _, Int.ofNat_le.mpr (Nat.le_pred_of_lt n.toNat_lt)⟩
  have hword : ((n.toNat : Int) % 2 ^ 32).toNat = n.toNat := by
    have hlt := n.toNat_lt
    omega
  change ((IntegerKind.unsigned32.ofNumber (.integer n.toNat)).map UInt32.ofInt).toOption = some n
  rw [IntegerKind.ofNumber_integer hrange]
  change some (UInt32.ofNat ((n.toNat : Int) % 2 ^ 32).toNat) = some n
  rw [hword, UInt32.ofNat_toNat]

theorem readValue_ofUInt8 (n : UInt8) : readValue (.integer n.toNat) = some n := by
  have hrange : IntegerKind.unsigned8.low ≤ (n.toNat : Int) ∧
      (n.toNat : Int) ≤ IntegerKind.unsigned8.high :=
    ⟨Int.natCast_nonneg _, Int.ofNat_le.mpr (Nat.le_pred_of_lt n.toNat_lt)⟩
  have hword : ((n.toNat : Int) % 2 ^ 8).toNat = n.toNat := by
    have hlt := n.toNat_lt
    omega
  change ((IntegerKind.unsigned8.ofNumber (.integer n.toNat)).map UInt8.ofInt).toOption = some n
  rw [IntegerKind.ofNumber_integer hrange]
  change some (UInt8.ofNat ((n.toNat : Int) % 2 ^ 8).toNat) = some n
  rw [hword, UInt8.ofNat_toNat]

theorem readValue_ofOption [FromValue α] {f : α → Value}
    (h : ∀ a, f a ≠ .null ∧ readValue (f a) = some a) (o : Option α) :
    readValue (.ofOption f o) = some o := by
  cases o with
  | none => rfl
  | some a =>
    obtain ⟨hnull, hread⟩ := h a
    have hoption := bind_readValue_option (α := α) (o := some (f a)) (by simpa using hnull)
    simp only [Option.bind_some, hread] at hoption
    exact hoption

theorem readValue_magnification (m : Magnification) : readValue (.string m.text) = some m := rfl

theorem Tree.value?_of_zero {t : Tree} {v : Value} (h : t.value? 0 = some v) (depth : Nat) :
    t.value? depth = some v := by
  cases t with
  | list ts => rw [value?] at h; contradiction
  | object ms => rw [value?] at h; contradiction
  | null => rwa [value?] at h ⊢
  | boolean b => rwa [value?] at h ⊢
  | number n => rwa [value?] at h ⊢
  | string ps => rwa [value?] at h ⊢

theorem Tree.isScalar_of_zero {t : Tree} {v : Value} (h : t.value? 0 = some v) : t.IsScalar := by
  cases t with
  | list ts => rw [value?] at h; contradiction
  | object ms => rw [value?] at h; contradiction
  | _ => trivial

theorem Respells.scalar [FromValue α] {entries : List Entry} {admitted : Tree → Prop}
    {ms : List (Pieces × Tree)} (h : Respells entries admitted ms)
    (hnodup : (entries.map Entry.name).Nodup) {defaults : List (String × Value)}
    {name : String} {v : Value} (hentry : Entry.ofMember defaults (name, v) ∈ entries)
    {default : Option α} {a : α} (hread : readValue v = some a)
    (hdefault : ∀ w, (name, w) ∈ defaults → readValue w = default) (depth : Nat) :
    field? (Tree.readTree depth) name default (ms.map Tree.named) = some a := by
  refine h.field?_eq hnodup hentry (fun t ht => ?_) fun hmem => ?_
  · unfold Tree.readTree
    rw [Tree.value?_of_zero ht]
    exact hread
  · rw [← hdefault v hmem]
    exact hread

theorem toOption_parse_eq (p : Reader α) (s : String) :
    (parse p s).toOption = (p.run? s.toList).bind fun x =>
      if (x.2.dropWhile Reader.isBlank).isEmpty then some x.1 else none := by
  unfold parse Reader.run?
  cases p.run s.toList with
  | error e => rfl
  | ok x =>
    dsimp only [Except.toOption, Option.bind_some]
    by_cases h : (x.2.dropWhile Reader.isBlank).isEmpty = Bool.true
    · rw [if_pos h, if_pos h]
    · rw [if_neg h, if_neg h]

theorem toOption_parse {p : Reader α} {t : Tree} {o : Option α} (h : Reads p t o) {s : String}
    (hs : t.SpelledBy s) : (parse p s).toOption = o := by
  obtain ⟨b, r, b', hb, hr, hb', hlist⟩ := hs
  have hread := h.run? hb hr (Ends.of_blanks hb' Ends.nil)
  rw [List.append_nil, ← List.append_assoc, ← hlist] at hread
  rw [toOption_parse_eq, hread]
  cases o with
  | none => rfl
  | some a =>
    simp only [Option.map_some, Option.bind_some, hb'.dropWhile_eq_nil, List.isEmpty_nil, if_true]

theorem parse_eq_ok {p : Reader α} {t : Tree} {a : α} (h : Reads p t (some a)) {s : String}
    (hs : t.SpelledBy s) : parse p s = .ok a :=
  toOption_eq_some_iff.mp (toOption_parse h hs)

end Json

open Json
open Json.Reader hiding true false null

namespace PrinterConfig

theorem entries_nodup (c : PrinterConfig) : (c.entries.map Entry.name).Nodup := by
  simp [entries, toValue, Value.members, Entry.ofMember]

theorem reads_respelled {c : PrinterConfig} {t : Tree} (h : c.SpelledBy t) (depth : Nat) :
    Reads (FromText.read (depth + 1)) t (some c) := by
  obtain ⟨ms, hms, rfl⟩ := h
  have hscalar (m : Pieces × Tree) (hm : m ∈ ms) (k : String) (hk : k ∈ fieldNames)
      (hname : m.1.text? = some k) : m.2.IsScalar := by
    rcases hms.member hm with ⟨e, he, -, hspells⟩ | ⟨k', hk', hforeign, -⟩
    · obtain ⟨m', -, rfl⟩ := List.mem_map.mp he
      exact Tree.isScalar_of_zero hspells
    · rw [hname] at hk'
      cases hk'
      simp [entries, toValue, Value.members, Entry.ofMember] at hforeign
      simp [fieldNames, hforeign] at hk
  have hread : Reads (FromText.read (depth + 1)) (.object ms)
      ((Tree.named? ms).bind (ofTree? (Tree.readTree 0) (Tree.readTree 0))) :=
    reads_object
      (fun m hm hk => ReadsScalars.reads (hscalar m hm "density" (by simp [fieldNames]) hk) depth)
      fun m hm hk =>
        ReadsScalars.reads (hscalar m hm "default_font" (by simp [fieldNames]) hk) depth
  rw [hms.named?_eq] at hread
  have hfield {α : Type} [FromValue α] {name : String} {v : Value} {default : Option α} {a : α}
      (hmem : (name, v) ∈ c.toValue.members) (hread : readValue v = some a)
      (hdefault : ∀ w, (name, w) ∈ defaultMembers → readValue w = default) :
      field? (Tree.readTree 0) name default (ms.map Tree.named) = some a :=
    hms.scalar c.entries_nodup (List.mem_map_of_mem hmem) hread hdefault 0
  have hconfig : ofTree? (Tree.readTree 0) (Tree.readTree 0) (ms.map Tree.named) = some c := by
    unfold ofTree?
    rw [hfield (by simp [toValue, Value.members]) (readValue_ofName c.density)
        (by simp [defaultMembers]; rfl),
      hfield (by simp [toValue, Value.members]; rfl)
        (readValue_ofOption (fun font => ⟨by simp [Value.ofName], readValue_ofName font⟩) _)
        (by simp [defaultMembers]; rfl),
      hfield (by simp [toValue, Value.members]; rfl)
        (readValue_ofOption (fun n => ⟨by simp [Value.integer], readValue_ofUInt32 n⟩) _)
        (by simp [defaultMembers]; rfl)]
    rfl
  rwa [Option.bind_some, hconfig] at hread

end PrinterConfig

namespace Element

def default? {α : Type} [FromValue α] (name : String) : Option α :=
  (defaultMembers.lookup name).bind readValue

theorem default?_eq {α : Type} [FromValue α] {m : String × Value} (h : m ∈ defaultMembers) :
    (default? m.1 : Option α) = readValue m.2 := by
  have hlookup : defaultMembers.lookup m.1 = some m.2 := by
    simp only [defaultMembers, QrOptions.members, List.cons_append, List.nil_append,
      List.mem_cons, List.not_mem_nil, or_false] at h
    rcases h with rfl | rfl | rfl | rfl | rfl | rfl | rfl | rfl | rfl | rfl | rfl | rfl | rfl |
      rfl <;> rfl
  unfold default?
  rw [hlookup]
  rfl

/-- Every field of the members that were written is found again. -/
def Finds (written read : List (String × Value)) : Prop :=
  ∀ {α : Type} [FromValue α] {name : String} {v : Value} {a : α}, (name, v) ∈ written →
    readValue v = some a → field? readValue name (default? name) read = some a

theorem Finds.mono {written written' read : List (String × Value)} (h : Finds written read)
    (hsub : written' ⊆ written) : Finds written' read :=
  fun hmem hread => h (hsub hmem) hread

end Element

section

open Element

variable {ms : List (String × Value)}

theorem readValue_int32Option (o : Option Int32) : readValue (.ofOption .ofInt32 o) = some o :=
  readValue_ofOption (fun n => ⟨by simp [Value.ofInt32, Value.integer], readValue_ofInt32 n⟩) o

theorem readValue_nameOption {α : Type} [Named α] [LawfulNamed α] (o : Option α) :
    readValue (.ofOption .ofName o) = some o :=
  readValue_ofOption (fun a => ⟨by simp [Value.ofName], readValue_ofName a⟩) o

theorem readValue_uint32Option (o : Option UInt32) :
    readValue (.ofOption (fun n => .integer n.toNat) o) = some o :=
  readValue_ofOption (fun n => ⟨by simp [Value.integer], readValue_ofUInt32 n⟩) o

theorem Position.saidBy_of_finds {p : Position} (h : Finds p.members ms) : p.SaidBy ms where
  x := h (by simp [members]) (readValue_int32Option _)
  y := h (by simp [members]) (readValue_int32Option _)

theorem QrOptions.saidBy_of_finds {o : QrOptions} (h : Finds o.members ms) : o.SaidBy ms where
  rotation := h (by simp [members]) (readValue_ofName _)
  model := h (by simp [members]) (readValue_ofName _)
  inputMode := h (by simp [members]) (readValue_ofName _)
  characterMode := h (by simp [members]) (readValue_ofName _)
  errorCorrection := h (by simp [members]) (readValue_ofName _)
  magnification := h (by simp [members]) (readValue_magnification _)

theorem TextField.saidBy_of_finds {t : TextField} (h : Finds t.members ms) : t.SaidBy ms where
  position := Position.saidBy_of_finds (h.mono (by simp [members]))
  font := h (by simp [members]) (readValue_nameOption _)
  fontSize := h (by simp [members]) (readValue_uint32Option _)
  rotation := h (by simp [members]) (readValue_ofName _)
  content := h (by simp [members]) (readValue_string _)

theorem QrField.saidBy_of_finds {q : QrField} (h : Finds q.members ms) : q.SaidBy ms where
  position := Position.saidBy_of_finds (h.mono (by simp [members]))
  options := QrOptions.saidBy_of_finds (h.mono (by simp [members]))
  text := h (by simp [members]) (readValue_string _)

theorem GraphicBox.saidBy_of_finds {b : GraphicBox} (h : Finds b.members ms) : b.SaidBy ms where
  position := Position.saidBy_of_finds (h.mono (by simp [members]))
  width := h (by simp [members]) (readValue_ofInt32 _)
  height := h (by simp [members]) (readValue_ofInt32 _)
  thickness := h (by simp [members]) (readValue_ofInt32 _)
  color := h (by simp [members]) (readValue_ofName _)
  rounding := h (by simp [members]) (readValue_ofUInt8 _)

theorem CustomCommand.saidBy_of_finds {c : CustomCommand} (h : Finds c.members ms) :
    c.SaidBy ms where
  position := Position.saidBy_of_finds (h.mono (by simp [members]))
  mnemonic := h (by simp [members]) (readValue_string _)
  z := h (by simp [members]) (readValue_int32Option _)

theorem NativeZpl.saidBy_of_finds {n : NativeZpl} (h : Finds n.members ms) : n.SaidBy ms where
  position := Position.saidBy_of_finds (h.mono (by simp [members]))
  zpl := h (by simp [members]) (readValue_string _)

theorem Element.ofValue_of_finds {e : Element} (h : Finds e.members ms) :
    ofValue (.object ms) e.kind = .ok e := by
  cases e with
  | customCommand c =>
    change (Record.ofMembers CustomCommand ms).map customCommand = _
    rw [CustomCommand.ofMembers_eq_ok_iff.mpr (CustomCommand.saidBy_of_finds h)]
    rfl
  | qrCode q =>
    change (Record.ofMembers QrField ms).map qrCode = _
    rw [QrField.ofMembers_eq_ok_iff.mpr (QrField.saidBy_of_finds h)]
    rfl
  | text t =>
    change (Record.ofMembers TextField ms).map text = _
    rw [TextField.ofMembers_eq_ok_iff.mpr (TextField.saidBy_of_finds h)]
    rfl
  | graphicBox b =>
    change (Record.ofMembers GraphicBox ms).map graphicBox = _
    rw [GraphicBox.ofMembers_eq_ok_iff.mpr (GraphicBox.saidBy_of_finds h)]
    rfl
  | native n =>
    change (Record.ofMembers NativeZpl ms).map native = _
    rw [NativeZpl.ofMembers_eq_ok_iff.mpr (NativeZpl.saidBy_of_finds h)]
    rfl

end

namespace Element

theorem entries_nodup (e : Element) : (e.entries.map Entry.name).Nodup := by
  cases e <;>
    simp [entries, toValue, Value.members, Entry.ofMember, members, CustomCommand.members,
      QrField.members, TextField.members, GraphicBox.members, NativeZpl.members, Position.members,
      QrOptions.members]

theorem not_type_mem_members (e : Element) (v : Value) : ("type", v) ∉ e.members := by
  cases e <;>
    simp [members, CustomCommand.members, QrField.members, TextField.members, GraphicBox.members,
      NativeZpl.members, Position.members, QrOptions.members]

section

variable {e : Element} {ms : List (Pieces × Tree)}

theorem isSome_namedValues? (h : Respells e.entries (Tree.Mild Literal.Readable addedDepth) ms)
    {depth : Nat} (hdepth : addedDepth ≤ depth) (p : String × Tree → Bool) :
    (Tree.namedValues? depth ((ms.map Tree.named).filter p)).isSome := by
  apply isSome_mapM
  intro n hn
  obtain ⟨m, hm, rfl⟩ := List.mem_map.mp (List.mem_of_mem_filter hn)
  rw [Option.isSome_map]
  rcases h.member hm with ⟨entry, hentry, -, hspells⟩ | ⟨k, -, -, hmild⟩
  · obtain ⟨m', -, rfl⟩ := List.mem_map.mp hentry
    change (m.2.value? depth).isSome
    rw [Tree.value?_of_zero hspells]
    rfl
  · exact hmild.isSome_value? hdepth

theorem kind?_of_spelling {t : Tree} {kind : Kind}
    (h : t.value? 0 = some (.ofName kind)) : kind? t = some kind := by
  unfold kind?
  rw [h]
  change (variantNamed Kind (Named.name kind)).toOption = some kind
  unfold variantNamed
  rw [LawfulNamed.find?_name]
  rfl

theorem finds_of_respells (h : Respells e.entries (Tree.Mild Literal.Readable addedDepth) ms)
    {depth : Nat} {vs : List (String × Value)}
    (hvs : Tree.namedValues? depth ((ms.map Tree.named).filter fun n => n.1 ≠ "type") = some vs) :
    Finds e.members vs := by
  intro α _ name v a hmem hread
  have hname : name ≠ "type" := by
    rintro rfl
    exact not_type_mem_members e v hmem
  rw [Tree.field?_namedValues? hvs, field?_filter]
  · have hentry : Entry.ofMember defaultMembers (name, v) ∈ e.entries :=
      List.mem_map_of_mem (List.mem_cons_of_mem _ hmem)
    refine h.scalar e.entries_nodup hentry hread ?_ depth
    exact fun w hw => (default?_eq hw).symm
  · rintro n rfl
    simpa using hname

end

def read? (depth : Nat) : Tree → Option Element
  | .object ms => (Tree.named? ms).bind (ofTree? depth)
  | _ => none

theorem read?_respelled {e : Element} {t : Tree} (h : e.SpelledBy Literal.Readable t) {depth : Nat}
    (hdepth : addedDepth ≤ depth) : read? depth t = some e := by
  obtain ⟨ms, hms, rfl⟩ := h
  have hkind : field? kind? "type" none (ms.map Tree.named) = some e.kind :=
    hms.field?_eq e.entries_nodup List.mem_cons_self (fun t ht => kind?_of_spelling ht)
      fun hdefault => by
        simp [Entry.ofMember, defaultMembers, QrOptions.members] at hdefault
  obtain ⟨vs, hvs⟩ := Option.isSome_iff_exists.mp
    (isSome_namedValues? hms hdepth fun n => n.1 ≠ "type")
  change (Tree.named? ms).bind (ofTree? depth) = some e
  unfold ofTree?
  rw [hms.named?_eq, Option.bind_some, hkind, hvs]
  change (ofValue (.object vs) e.kind).toOption = some e
  rw [ofValue_of_finds (finds_of_respells hms hvs)]
  rfl

theorem reads_respelled {number : Literal → Prop} {e : Element} {t : Tree}
    (h : e.SpelledBy number t) (depth : Nat) :
    Reads (FromText.read (depth + 1)) t (read? depth t) := by
  obtain ⟨ms, -, rfl⟩ := h
  exact reads_object depth ms

end Element

namespace Label

theorem entries_eq (number : Literal → Prop) (l : Label) :
    l.entries number =
      [ Entry.ofMember defaultMembers ("width", .ofOption .ofInt32 l.width),
        Entry.ofMember defaultMembers ("height", .ofOption .ofInt32 l.height),
        Entry.ofMember defaultMembers ("print_mode", .ofName l.printMode),
        l.configEntry, l.elementsEntry number ] := rfl

theorem entries_nodup (number : Literal → Prop) (l : Label) :
    ((l.entries number).map Entry.name).Nodup := by
  simp [entries_eq, Entry.ofMember, configEntry, elementsEntry]

theorem reads_respelled_elements {es : List Element} {ts : List Tree}
    (h : List.Forall₂ (Element.SpelledBy Literal.Readable) es ts) (depth : Nat)
    (hdepth : addedDepth ≤ depth) :
    Reads (FromText.read (depth + 2)) (.list ts) (some es) := by
  have hmap : ts.mapM (Element.read? depth) = some es := by
    induction h with
    | nil => rfl
    | cons ht _ ih =>
      rw [List.mapM_cons, Element.read?_respelled ht hdepth, ih]
      rfl
  rw [← hmap]
  apply reads_elements
  intro t ht
  obtain ⟨e, -, he⟩ := exists_of_forall₂ h ht
  exact Element.reads_respelled he depth

section

variable {l : Label} {ms : List (Pieces × Tree)}

theorem ofTree?_respelled
    (h : Respells (l.entries Literal.Readable) (Tree.Mild Literal.Finite addedDepth) ms) :
    ofTree? (Tree.readTree 0) (fun _ => some l.config) (fun _ => some l.elements)
      (ms.map Tree.named) = some l := by
  have hnodup := entries_nodup Literal.Readable l
  have hfield {α : Type} [FromValue α] {name : String} {v : Value} {default : Option α} {a : α}
      (hmem : Entry.ofMember defaultMembers (name, v) ∈ l.entries Literal.Readable)
      (hread : readValue v = some a)
      (hdefault : ∀ w, (name, w) ∈ defaultMembers → readValue w = default) :
      field? (Tree.readTree 0) name default (ms.map Tree.named) = some a :=
    h.scalar hnodup hmem hread hdefault 0
  have hconfig : field? (fun _ => some l.config) "config" (some {}) (ms.map Tree.named) =
      some l.config :=
    h.field?_eq (e := l.configEntry) hnodup (by simp [entries_eq])
      (fun _ _ => rfl) fun hdefault => congrArg some hdefault.symm
  have helements : field? (fun _ => some l.elements) "elements" (some []) (ms.map Tree.named) =
      some l.elements :=
    h.field?_eq (e := l.elementsEntry Literal.Readable) hnodup (by simp [entries_eq])
      (fun _ _ => rfl) fun hdefault => congrArg some hdefault.symm
  unfold ofTree?
  rw [hfield (v := .ofOption .ofInt32 l.width) (by simp [entries_eq]) (readValue_int32Option _)
      (by simp [defaultMembers]; rfl),
    hfield (v := .ofOption .ofInt32 l.height) (by simp [entries_eq]) (readValue_int32Option _)
      (by simp [defaultMembers]; rfl),
    hfield (v := .ofName l.printMode) (by simp [entries_eq]) (readValue_ofName _)
      (by simp [defaultMembers]; rfl), hconfig, helements]
  rfl

theorem reads_respelled
    (h : Respells (l.entries Literal.Readable) (Tree.Mild Literal.Finite addedDepth) ms) :
    Reads (FromText.read maxDepth) (.object ms) (some l) := by
  have hnodup := entries_nodup Literal.Readable l
  have hmode (m : Pieces × Tree) (hm : m ∈ ms) (hname : m.1.text? = some "print_mode") :
      Reads (FromText.read 126 : Reader PrintMode) m.2 (Tree.readTree 0 m.2) := by
    have hspells := h.spells_of_name hnodup hm
      (e := Entry.ofMember defaultMembers ("print_mode", .ofName l.printMode))
      (by simp [entries_eq]) hname
    exact ReadsScalars.reads (Tree.isScalar_of_zero hspells) 126
  have hconfig (m : Pieces × Tree) (hm : m ∈ ms) (hname : m.1.text? = some "config") :
      Reads (FromText.read 126) m.2 (some l.config) := by
    have hspells := h.spells_of_name (e := l.configEntry) hnodup hm
      (by simp [entries_eq]) hname
    exact PrinterConfig.reads_respelled hspells 125
  have helements (m : Pieces × Tree) (hm : m ∈ ms) (hname : m.1.text? = some "elements") :
      Reads (FromText.read 126) m.2 (some l.elements) := by
    have hspells := h.spells_of_name (e := l.elementsEntry Literal.Readable) hnodup hm
      (by simp [entries_eq]) hname
    obtain ⟨ts, hts, ht⟩ := hspells
    rw [ht]
    exact reads_respelled_elements hts 124 (by decide)
  have hread : Reads (FromText.read maxDepth) (.object ms) ((Tree.named? ms).bind
      (ofTree? (Tree.readTree 0) (fun _ => some l.config) fun _ => some l.elements)) :=
    reads_object hmode hconfig helements
  rwa [h.named?_eq, Option.bind_some, ofTree?_respelled h] at hread

end

end Label

end LabelPress

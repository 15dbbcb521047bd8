import LabelPress.Proofs.Document.RoundTrip
import LabelPress.Proofs.Json.Cutting

/-! Documents cut short. Wherever the document of a label breaks off, its reader asks for more: a
part of a document is never taken for another label, nor for a document with other faults. -/
namespace LabelPress

namespace Json

open Reader hiding true false null

variable {α : Type}

/-- The text of a plain value that has the type is used up wherever it breaks off. -/
class UsesUpScalars (α : Type) [FromText α] [FromValue α] : Prop where
  starves_nil (depth : Nat) : (FromText.read depth : Reader α).Starves []
  usesUp {v : Value} (hv : v.Plain) (hread : (readValue v : Option α).isSome) (depth : Nat) :
    UsesUp (FromText.read depth : Reader α) v.tree

namespace IntegerKind

theorem starves_read_blanks (kind : IntegerKind) {q : List Char} (hq : Blanks q) :
    kind.read.Starves q :=
  starves_peek (starves_fail rfl _) hq

theorem usesUp_read (kind : IntegerKind) {n : Int} (h : kind.low ≤ n ∧ n ≤ kind.high) :
    UsesUp kind.read (.number (.ofInt n)) := by
  refine UsesUp.ofInt (fun q => kind.starves_read_blanks) (fun b hb => ?_) fun m hmin hmax => ?_
  · refine starves_bind_of_run (run_peek_start hb rfl []) ?_
    exact starves_bind_of_run rfl (starves_number_nil true).bind
  · -- Every kind holds zero, so what lies between it and an integer of the kind is of the kind.
    have hrange : kind.low ≤ m ∧ m ≤ kind.high := by
      cases kind <;> simp only [low, high] at h ⊢ <;> omega
    have hbound : -0x8000000000000000 ≤ m ∧ m ≤ 0xFFFFFFFFFFFFFFFF := by
      cases kind <;> simp only [low, high] at hrange <;> omega
    have hread := Reads.integer kind (.number (.ofInt m))
    rw [Tree.value?, Literal.read_ofInt hbound.1 hbound.2] at hread
    change Reads kind.read _ (kind.ofNumber (.integer m)).toOption at hread
    rw [ofNumber_integer hrange] at hread
    exact ⟨m, hread⟩

theorem exists_of_plain {kind : IntegerKind} {v : Value} (hv : v.Plain)
    (h : (kind.ofValue v).toOption.isSome) :
    ∃ n, v = .integer n ∧ kind.low ≤ n ∧ n ≤ kind.high := by
  cases hv.whole with
  | @integer n _ _ =>
    refine ⟨n, rfl, ?_⟩
    by_contra hrange
    simp [ofValue, Value.integer, ofNumber, hrange, toOption_error] at h
  | _ => contradiction

theorem usesUp_as {kind : IntegerKind} {f : Int → α} {v : Value} (hv : v.Plain)
    (h : ((kind.ofValue v).map f).toOption.isSome) :
    UsesUp (do pure (f (← kind.read))) v.tree := by
  have hinteger : (kind.ofValue v).toOption.isSome := by
    cases hvalue : kind.ofValue v with
    | error e =>
      rw [hvalue] at h
      contradiction
    | ok n => rfl
  obtain ⟨n, rfl, hrange⟩ := exists_of_plain hv hinteger
  exact (kind.usesUp_read hrange).map f

end IntegerKind

instance : UsesUpScalars Int32 where
  starves_nil _ := (IntegerKind.starves_read_blanks _ Blanks.nil).bind
  usesUp hv h _ := IntegerKind.usesUp_as hv h

instance : UsesUpScalars UInt32 where
  starves_nil _ := (IntegerKind.starves_read_blanks _ Blanks.nil).bind
  usesUp hv h _ := IntegerKind.usesUp_as hv h

instance [Named α] : UsesUpScalars α where
  starves_nil depth := by
    change (readVariant α depth).Starves []
    exact starves_peek (starves_fail rfl _) Blanks.nil
  usesUp {v} hv h depth := by
    cases hv.whole with
    | string s => exact (needsAll_readVariant depth s).usesUp
    | object _ => exact absurd hv.value?_tree (by simp [Value.tree, Tree.value?])
    | _ => contradiction

instance [FromText α] [FromValue α] [UsesUpScalars α] : UsesUpScalars (Option α) where
  starves_nil depth :=
    starves_peek (UsesUpScalars.starves_nil depth).bind Blanks.nil
  usesUp {v} hv h depth := by
    refine UsesUp.ofStart (UsesUpScalars.starves_nil depth).bind fun c r q hs hq => ?_
    by_cases hnull : v = .null
    · subst hnull
      rw [Value.tree, Tree.Spells] at hs
      obtain ⟨rfl, rfl⟩ := List.cons.inj hs
      have hword : (do eat; Reader.null; pure none : Reader (Option α)).Starves ('n' :: q) :=
        starves_bind_of_run (run_eat _) (starves_word hq).bind
      exact hword.exhausts
    · have htree : v.tree ≠ .null := by
        intro htree
        have hvalue := hv.value?_tree
        rw [htree] at hvalue
        exact hnull (Option.some.inj hvalue).symm
      have hread : (readValue v : Option α).isSome := by
        have hoption := bind_readValue_option (α := α) (o := some v) (by simpa using hnull)
        rw [Option.bind_some, Option.bind_some] at hoption
        rwa [hoption, Option.isSome_map] at h
      have hn := hs.ne_n htree
      split
      · rename_i hc
        exact absurd (Option.some.inj hc) hn
      · exact ((UsesUpScalars.usesUp hv hread depth).exhausts_start hs hq).map some

theorem usesUp_fillFromText [FromText α] {depth : Nat} {t : Tree} {read : Tree → Option α}
    (h : (read t).isSome → UsesUp (FromText.read depth : Reader α) t) {name : String}
    {field : Option α} (hsome : (fillSlot read name field (name, t)).isSome) :
    UsesUpMember (fillFromText depth name field) t := by
  unfold fillSlot at hsome
  rw [if_pos rfl] at hsome
  unfold fillFromText
  cases field with
  | some a => contradiction
  | none =>
    rw [if_neg (by simp), Option.isSome_map] at hsome
    exact ((h hsome).map some).afterColon

theorem usesUp_fillScalar [FromText α] [FromValue α] [UsesUpScalars α] {v : Value} (hv : v.Plain)
    (depth : Nat) {name : String} {field : Option α}
    (hsome : (fillSlot (Tree.readTree 0) name field (name, v.tree)).isSome) :
    UsesUpMember (fillFromText depth name field) v.tree := by
  refine usesUp_fillFromText (fun hread => ?_) hsome
  unfold Tree.readTree at hread
  rw [hv.value?_tree] at hread
  exact UsesUpScalars.usesUp hv hread depth

theorem starves_readObjectOrList {name : String} {depth : Nat} {ofObject ofList : Nat → Reader α}
    {q : List Char} (hq : Blanks q) : (readObjectOrList name depth ofObject ofList).Starves q :=
  starves_peek (starves_fail rfl _) hq

end Json

open Json
open Json.Reader hiding true false null

namespace PrinterConfig

theorem usesUp_put {d : Draft} {k : String} {v : Value} (hk : k ∈ fieldNames) (hv : v.Plain)
    (depth : Nat)
    (hsome : (step? (Tree.readTree 0) (Tree.readTree 0) d (k, v.tree)).isSome) :
    UsesUpMember (put depth d k) v.tree := by
  unfold put
  split
  · exact UsesUpMember.map (usesUp_fillScalar hv depth (by simpa [step?] using hsome)) _
  · exact UsesUpMember.map (usesUp_fillScalar hv depth (by simpa [step?] using hsome)) _
  · exact UsesUpMember.map (usesUp_fillScalar hv depth (by simpa [step?] using hsome)) _
  · simp_all [fieldNames]

theorem needsAll_tree (c : PrinterConfig) (depth : Nat) :
    NeedsAll (FromText.read (depth + 1) : Reader PrinterConfig) c.toValue.tree := by
  have hok : Reads (FromText.read (depth + 1)) c.toValue.tree (some c) :=
    reads_respelled c.spelledBy_tree depth
  have hplain := c.plain_members
  have hobject (b s : List Char) (hb : Blanks b) :
      (FromText.read (depth + 1) : Reader PrinterConfig).run (b ++ '{' :: s) =
        (readMembers depth).run s := run_readObjectOrList hb s
  change NeedsAll _ (Value.object c.toValue.members).tree
  refine NeedsAll.ofMembers (f := step? (Tree.readTree 0) (Tree.readTree 0))
    (fun q hq => starves_readObjectOrList hq) hobject (fun m hm d => ?_)
    (fun m hm d hsome => ?_) hok
  · have hscalar := Tree.isScalar_of_zero (hplain m hm).value?_tree
    exact reads_put d (fun _ => ReadsScalars.reads hscalar depth)
      fun _ => ReadsScalars.reads hscalar depth
  · have hname : m.1 ∈ fieldNames := by
      simp only [toValue, Value.members, List.mem_cons, List.not_mem_nil, or_false] at hm
      rcases hm with rfl | rfl | rfl <;> simp [fieldNames]
    exact usesUp_put hname (hplain m hm) depth hsome

end PrinterConfig

namespace Element

theorem usesUp_readKind {v : Value} (hv : v.Plain) (hkind : (kind? v.tree).isSome) :
    UsesUp readKind v.tree := by
  unfold kind? at hkind
  rw [hv.value?_tree, Option.bind_some] at hkind
  cases hv.whole with
  | string s => exact ((needsAll_readString .variantName s).bind _).usesUp
  | _ => contradiction

theorem usesUp_put {depth : Nat} {d : Draft} {k : String} {v : Value} (hv : v.Plain)
    (hsome : (step? depth d (k, v.tree)).isSome) : UsesUpMember (put depth d k) v.tree := by
  unfold put
  unfold step? at hsome
  dsimp only at hsome
  split at hsome <;> rename_i hk
  · rw [if_pos hk]
    split at hsome <;> rename_i hkind
    · contradiction
    · rw [if_neg hkind]
      rw [Option.isSome_map] at hsome
      exact ((usesUp_readKind hv hsome).map _).afterColon
  · rw [if_neg hk]
    exact ((usesUp_value hv.whole (Tree.isScalar_of_zero hv.value?_tree) depth).map _).afterColon

theorem needsAll_tree (e : Element) {depth : Nat} (hdepth : addedDepth ≤ depth) :
    NeedsAll (FromText.read (depth + 1) : Reader Element) e.toValue.tree := by
  have hplain := e.plain_toValue_members
  have hobject (b s : List Char) (hb : Blanks b) :
      (FromText.read (depth + 1) : Reader Element).run (b ++ '{' :: s) =
        (readMembers depth).run s := by
    unfold FromText.read instFromText
    dsimp only
    rw [run_bind_of_run (run_peek_start hb rfl s)]
    exact run_bind_of_run (run_eat _)
  change NeedsAll _ (Value.object e.toValue.members).tree
  exact NeedsAll.ofMembers (f := step? depth)
    (fun q hq => starves_peek (starves_fail rfl _) hq) hobject
    (fun m _ d => reads_put depth d m.1 m.2.tree)
    (fun m hm d hsome => usesUp_put (hplain m hm) hsome) (e.reads_tree hdepth)

theorem needsAll_list (es : List Element) {depth : Nat} (hdepth : addedDepth ≤ depth) :
    NeedsAll (FromText.read (depth + 2) : Reader (List Element))
      (Value.list (es.map toValue)).tree := by
  rw [Value.tree, Value.itemTrees_eq, List.map_map]
  have hlist (b s : List Char) (hb : Blanks b)
      (hs : (items (FromText.read (depth + 1) : Reader Element)).Starves s) :
      (FromText.read (depth + 2) : Reader (List Element)).Starves (b ++ '[' :: s) :=
    starves_bind_of_run (run_peek_start hb rfl s) (starves_bind_of_run (run_eat _) hs)
  exact NeedsAll.ofItems
    (fun q hq => starves_peek (starves_fail rfl _) hq) hlist
    (fun e _ => e.reads_tree hdepth) fun e _ => (e.needsAll_tree hdepth).usesUp

end Element

namespace Label

section

variable {config? : Tree → Option PrinterConfig} {elements? : Tree → Option (List Element)}
  {depth : Nat} {d : Draft} {k : String} {v : Value}

theorem usesUp_put (hname : k ∈ "config" :: "elements" :: scalarNames)
    (hscalar : k ∈ scalarNames → v.Plain)
    (hconfig : k = "config" → UsesUp (FromText.read depth : Reader PrinterConfig) v.tree)
    (helements : k = "elements" → UsesUp (FromText.read depth : Reader (List Element)) v.tree)
    (hsome : (step? (Tree.readTree 0) config? elements? d (k, v.tree)).isSome) :
    UsesUpMember (put depth d k) v.tree := by
  unfold put
  split
  · exact UsesUpMember.map (usesUp_fillScalar (hscalar (by simp [scalarNames])) depth
      (by simpa [step?] using hsome)) _
  · exact UsesUpMember.map (usesUp_fillScalar (hscalar (by simp [scalarNames])) depth
      (by simpa [step?] using hsome)) _
  · exact UsesUpMember.map (usesUp_fillScalar (hscalar (by simp [scalarNames])) depth
      (by simpa [step?] using hsome)) _
  · exact UsesUpMember.map (usesUp_fillFromText (fun _ => hconfig rfl)
      (by simpa [step?] using hsome)) _
  · exact UsesUpMember.map (usesUp_fillFromText (fun _ => helements rfl)
      (by simpa [step?] using hsome)) _
  · simp_all [scalarNames]

end

theorem cases_of_mem_members (l : Label) {m : String × Value} (hm : m ∈ l.toValue.members) :
    m.1 ∈ "config" :: "elements" :: scalarNames ∧ (m.1 ∈ scalarNames → m.2.Plain) ∧
      (m.1 = "config" → m.2 = l.config.toValue) ∧
      (m.1 = "elements" → m.2 = .list (l.elements.map Element.toValue)) := by
  simp only [toValue, Value.members, List.mem_cons, List.not_mem_nil, or_false] at hm
  rcases hm with rfl | rfl | rfl | rfl | rfl <;> simp [scalarNames]

theorem needsAll_tree (l : Label) :
    NeedsAll (FromText.read maxDepth : Reader Label) l.toValue.tree := by
  have hok : Reads (FromText.read maxDepth) l.toValue.tree (some l) :=
    reads_respelled (l.respells_memberTrees Literal.Readable)
  have hobject (b s : List Char) (hb : Blanks b) :
      (FromText.read maxDepth : Reader Label).run (b ++ '{' :: s) = (readMembers 126).run s :=
    run_readObjectOrList hb s
  change NeedsAll _ (Value.object l.toValue.members).tree
  refine NeedsAll.ofMembers
    (f := step? (Tree.readTree 0) (fun _ => some l.config) fun _ => some l.elements)
    (fun q hq => starves_readObjectOrList hq) hobject (fun m hm d => ?_)
    (fun m hm d hsome => ?_) hok
  · obtain ⟨-, hscalar, hconfig, helements⟩ := l.cases_of_mem_members hm
    refine reads_put d (fun hk => ?_) (fun hk => ?_) fun hk => ?_
    · have hplain := hscalar (by simp [hk, scalarNames])
      exact ReadsScalars.reads (Tree.isScalar_of_zero hplain.value?_tree) 126
    · rw [hconfig hk]
      exact PrinterConfig.reads_respelled l.config.spelledBy_tree 125
    · rw [helements hk]
      exact reads_respelled_elements (Element.spelledBy_itemTrees Literal.Readable l.elements) 124
        (by decide)
  · obtain ⟨hname, hscalar, hconfig, helements⟩ := l.cases_of_mem_members hm
    refine usesUp_put hname hscalar (fun hk => ?_) (fun hk => ?_) hsome
    · rw [hconfig hk]
      exact (l.config.needsAll_tree 125).usesUp
    · rw [helements hk]
      exact (Element.needsAll_list l.elements (by decide)).usesUp

/-- Reading a part of the document of a label fails, and says that the document ends too early. -/
theorem ofDocument_cut (l : Label) {part missing : String} (h : l.render = part ++ missing)
    (hmissing : missing ≠ "") : ∃ e, ofDocument part = .error e ∧ e.category = .cutShort := by
  have hbreaks : BreaksOff part.toList ([] ++ l.toValue.prettyChars 0) := by
    refine ⟨missing.toList, by simpa using hmissing, ?_⟩
    have hchars := congrArg String.toList h
    unfold render Value.pretty at hchars
    rwa [String.toList_ofList, String.toList_append] at hchars
  have hspells := l.whole_toValue.spells_pretty 0
  obtain ⟨e, he, hcut⟩ := l.needsAll_tree.starves Blanks.nil hspells hbreaks
  refine ⟨e, ?_, hcut⟩
  unfold ofDocument parse
  rw [he]

/-- A cut within a width leaves a smaller width, which is not read. -/
theorem ofDocument_cut_width :
    let l : Label := { width := some 12 }
    let part := "\x7b\n  \"width\": 1"
    ∃ missing, l.render = part ++ missing ∧ missing ≠ "" ∧
      ∃ e, ofDocument part = .error e ∧ e.category = .cutShort := by
  intro l part
  let missing := "2,\n  \"height\": null,\n  \"print_mode\": \"tear_off\",\n  \"config\": \x7b\n" ++
    "    \"density\": \"dpi203\",\n    \"default_font\": null,\n" ++
    "    \"default_font_size\": null\n  \x7d,\n  \"elements\": []\n\x7d"
  have hrender : l.render = part ++ missing := by decide +kernel
  have hmissing : missing ≠ "" := by decide
  exact ⟨missing, hrender, hmissing, l.ofDocument_cut hrender hmissing⟩

end Label

end LabelPress

import LabelPress.Proofs.Document.Field

/-! Elements read from text. An element is made of its kind and of the values of its other members,
wherever the kind stands; a record that is read on its own is made of the values of all members. -/
namespace LabelPress

namespace Json

open Reader hiding true false null

variable {α σ : Type}

namespace Tree

def namedValues? (depth : Nat) (ns : List (String × Tree)) : Option (List (String × Value)) :=
  ns.mapM fun n => (n.2.value? depth).map (n.1, ·)

def readTree [FromValue α] (depth : Nat) (t : Tree) : Option α :=
  (t.value? depth).bind readValue

theorem namedValues?_cons {depth : Nat} {n : String × Tree} {ns : List (String × Tree)}
    {vs : List (String × Value)} :
    namedValues? depth (n :: ns) = some vs ↔
      ∃ v rest, n.2.value? depth = some v ∧ namedValues? depth ns = some rest ∧
        vs = (n.1, v) :: rest := by
  unfold namedValues?
  simp only [mapM_cons_eq_some_iff, Option.map_eq_some_iff]
  constructor
  · rintro ⟨m, rest, ⟨v, hv, rfl⟩, hrest, rfl⟩
    exact ⟨v, rest, hv, hrest, rfl⟩
  · rintro ⟨v, rest, hv, hrest, rfl⟩
    exact ⟨_, rest, ⟨v, hv, rfl⟩, hrest, rfl⟩

theorem field?_namedValues? {depth : Nat} {ns : List (String × Tree)} {vs : List (String × Value)}
    (h : namedValues? depth ns = some vs) (read : Value → Option α) (name : String)
    (default : Option α) :
    field? read name default vs = field? (fun t => (t.value? depth).bind read) name default ns := by
  have hfold (field : Option α) :
      vs.foldlM (fillSlot read name) field =
        ns.foldlM (fillSlot (fun t => (t.value? depth).bind read) name) field := by
    induction ns generalizing vs field with
    | nil =>
      cases h
      rfl
    | cons n ns ih =>
      obtain ⟨v, rest, hv, hrest, rfl⟩ := namedValues?_cons.mp h
      have hstep : fillSlot read name field (n.1, v) =
          fillSlot (fun t => (t.value? depth).bind read) name field n := by
        unfold fillSlot
        dsimp only
        rw [hv]
        rfl
      rw [List.foldlM_cons, List.foldlM_cons, hstep]
      congr 1
      funext field
      exact ih hrest field
  rw [field?_eq, field?_eq, hfold]

end Tree

theorem ReadsMember.construct {p : Reader α} {t : Tree} {o : Option σ} {F : σ → Except Fault α}
    {β : Type} {g : α → β} (h : ReadsMember p t (o.bind fun v => (F v).toOption)) :
    ReadsMember (do pure (g (← p))) t (o.bind fun v => (do pure (g (← F v))).toOption) := by
  constructor
  intro b b' s rest hb hb' hs hrest
  rw [run?_bind, h.run? hb hb' hs hrest]
  cases o with
  | none => rfl
  | some v =>
    simp only [Option.bind_some]
    cases F v <;> rfl

def alternativeNames : List String :=
  [ "color", "rotation", "font", "model", "input_mode", "character_mode", "error_correction" ]

def PlainAlternatives (ms : List (Pieces × Tree)) : Prop :=
  ∀ m ∈ ms, ∀ k ∈ alternativeNames, m.1.text? = some k → m.2.IsScalar

/-- A record whose members are read from the text as from their values. -/
class ReadsAlike (α : Type) [Record α] : Prop where
  reads_put {k : String} {t : Tree} (ht : k ∈ alternativeNames → t.IsScalar) (depth : Nat)
    (d : Record.Draft α) :
    ReadsMember (Record.put (Source.text depth) d k) t
      ((t.value? depth).bind fun v => (Record.put (Source.ofValue v) d k).toOption)

theorem reads_sourceValue [FromText α] [FromValue α] {t : Tree} {depth : Nat}
    (h : Reads (FromText.read depth : Reader α) t ((t.value? depth).bind readValue)) :
    ReadsMember ((Source.text depth).value : Reader α) t
      ((t.value? depth).bind fun v => ((Source.ofValue v).value : Except Fault α).toOption) :=
  h.afterColon

theorem reads_fill [FromText α] [FromValue α] {t : Tree} {depth : Nat}
    (h : Reads (FromText.read depth : Reader α) t ((t.value? depth).bind readValue))
    (name : String) (field : Option α) :
    ReadsMember ((Source.text depth).fill name field) t
      ((t.value? depth).bind fun v => ((Source.ofValue v).fill name field).toOption) := by
  unfold Source.fill
  cases field with
  | some a =>
    constructor
    intro b b' s rest hb hb' hs hrest
    cases t.value? depth <;> rfl
  | none => exact (reads_sourceValue h).construct

theorem reads_fill_scalar [FromText α] [FromValue α] [ReadsScalars α] {t : Tree}
    (ht : t.IsScalar) (depth : Nat) (name : String) (field : Option α) :
    ReadsMember ((Source.text depth).fill name field) t
      ((t.value? depth).bind fun v => ((Source.ofValue v).fill name field).toOption) := by
  refine reads_fill ?_ name field
  rw [Tree.value?_scalar ht]
  exact ReadsScalars.reads ht depth

instance : ReadsAlike TextField where
  reads_put {k t} ht depth d := by
    unfold Record.put TextField.instRecord
    dsimp only
    split
    · exact (reads_fill_scalar (ht (by simp [alternativeNames])) depth _ _).construct
    · exact (reads_fill (ReadsTrees.reads t depth) _ _).construct
    · exact (reads_fill_scalar (ht (by simp [alternativeNames])) depth _ _).construct
    · exact (reads_fill (ReadsTrees.reads t depth) _ _).construct
    · exact (reads_sourceValue (ReadsTrees.reads t depth)).construct

/-- The alternatives of a QR code are none of its own fields, so they are read as values too. -/
theorem reads_put_qrField (k : String) (t : Tree) (depth : Nat) (d : Record.Draft QrField) :
    ReadsMember (Record.put (Source.text depth) d k) t
      ((t.value? depth).bind fun v => (Record.put (Source.ofValue v) d k).toOption) := by
  unfold Record.put QrField.instRecord
  dsimp only
  split
  · exact (reads_fill (ReadsTrees.reads t depth) _ _).construct
  · exact (reads_sourceValue (ReadsTrees.reads t depth)).construct

instance : ReadsAlike QrField where
  reads_put {k t} _ := reads_put_qrField k t

instance : ReadsAlike GraphicBox where
  reads_put {k t} ht depth d := by
    unfold Record.put GraphicBox.instRecord
    dsimp only
    split
    · exact (reads_fill (ReadsTrees.reads t depth) _ _).construct
    · exact (reads_fill (ReadsTrees.reads t depth) _ _).construct
    · exact (reads_fill (ReadsTrees.reads t depth) _ _).construct
    · exact (reads_fill_scalar (ht (by simp [alternativeNames])) depth _ _).construct
    · exact (reads_fill (ReadsTrees.reads t depth) _ _).construct
    · exact (reads_sourceValue (ReadsTrees.reads t depth)).construct

instance : ReadsAlike CustomCommand where
  reads_put {k t} _ depth d := by
    unfold Record.put CustomCommand.instRecord
    dsimp only
    split
    · exact (reads_fill (ReadsTrees.reads t depth) _ _).construct
    · exact (reads_fill (ReadsTrees.reads t depth) _ _).construct
    · exact (reads_sourceValue (ReadsTrees.reads t depth)).construct

instance : ReadsAlike NativeZpl where
  reads_put {k t} _ depth d := by
    unfold Record.put NativeZpl.instRecord
    dsimp only
    split
    · exact (reads_fill (ReadsTrees.reads t depth) _ _).construct
    · exact (reads_sourceValue (ReadsTrees.reads t depth)).construct

theorem foldlM_namedValues? {depth : Nat} {f : σ → String × Value → Option σ} (start : σ)
    (ns : List (String × Tree)) :
    ns.foldlM (fun a n => (n.2.value? depth).bind fun v => f a (n.1, v)) start =
      (Tree.namedValues? depth ns).bind (·.foldlM f start) := by
  unfold Tree.namedValues?
  rw [← foldlM_bind]
  simp only [Option.bind_map]
  rfl

theorem toOption_ofMembers [Record α] (vs : List (String × Value)) :
    (Record.ofMembers α vs).toOption =
      (vs.foldlM (Record.step? α) Record.empty).bind fun d => (Record.finish d).toOption := by
  unfold Record.ofMembers
  rw [toOption_bind, toOption_foldlM]
  rfl

theorem reads_record_of_put [Record α] {depth : Nat} {ms : List (Pieces × Tree)}
    (hput : ∀ m ∈ ms, ∀ (d : Record.Draft α) (k : String), m.1.text? = some k →
      ReadsMember (Record.put (Source.text depth) d k) m.2
        ((m.2.value? depth).bind fun v => (Record.put (Source.ofValue v) d k).toOption)) :
    Reads (Record.readObject α (depth + 1)) (.object ms)
      (((Tree.named? ms).bind (Tree.namedValues? depth)).bind fun vs =>
        (Record.ofMembers α vs).toOption) := by
  have hread : Reads (Record.readObject α (depth + 1)) (.object ms)
      (((Tree.named? ms).bind (·.foldlM
        (fun d n => (n.2.value? depth).bind fun v => Record.step? α d (n.1, v)) Record.empty)).bind
          fun d => (Record.finish d).toOption) := by
    refine Reads.ofMembers (fun b s hb => ?_) hput
    unfold Record.readObject
    rw [run?_bind, run?_peek_start hb (by rfl)]
    simp only [Option.bind_some, enter, run?_bind, run?_eat, List.tail_cons, Record.readMembers,
      run?_ofExcept]
  simpa only [toOption_ofMembers, foldlM_namedValues?, Option.bind_assoc] using hread

theorem reads_record [Record α] [ReadsAlike α] (depth : Nat) {ms : List (Pieces × Tree)}
    (hms : PlainAlternatives ms) :
    Reads (Record.readObject α (depth + 1)) (.object ms)
      (((Tree.named? ms).bind (Tree.namedValues? depth)).bind fun vs =>
        (Record.ofMembers α vs).toOption) :=
  reads_record_of_put fun m hm d k hk =>
    ReadsAlike.reads_put (fun halternative => hms m hm k halternative hk) depth d

end Json

open Json
open Json.Reader hiding true false null

namespace Element

def kind? (t : Tree) : Option Kind :=
  ((t.value? 0).bind readValue).bind fun s => (variantNamed Kind s).toOption

theorem reads_kind (t : Tree) : Reads readKind t (kind? t) :=
  (Reads.string _ t).ofExcept _

def ofTree? (depth : Nat) (ns : List (String × Tree)) : Option Element := do
  let kind ← field? kind? "type" none ns
  let vs ← Tree.namedValues? depth (ns.filter fun n => n.1 ≠ "type")
  (ofValue (.object vs) kind).toOption

def step? (depth : Nat) (d : Draft) (n : String × Tree) : Option Draft :=
  if n.1 = "type" then
    if d.kind.isSome then none else (kind? n.2).map fun kind => { d with kind := some kind }
  else (n.2.value? depth).map fun v => { d with others := (n.1, v) :: d.others }

theorem reads_put (depth : Nat) (d : Draft) (k : String) (t : Tree) :
    ReadsMember (put depth d k) t (step? depth d (k, t)) := by
  unfold put step?
  dsimp only
  split
  · split
    · exact ⟨fun _ _ _ _ => rfl⟩
    · exact ((reads_kind t).map _).afterColon
  · exact ((reads_value t depth).map _).afterColon

def keepOther (depth : Nat) (others : Unclaimed) (n : String × Tree) : Option Unclaimed :=
  if n.1 = "type" then some others else (n.2.value? depth).map fun v => (n.1, v) :: others

theorem slotted (depth : Nat) :
    Slotted (step? depth)
      [.field kind? "type" Draft.kind, ⟨_, Draft.others, keepOther depth⟩] where
  step_iff := by
    rintro ⟨kind, others⟩ ⟨k, t⟩ ⟨kind', others'⟩
    unfold step? keepOther
    by_cases hk : k = "type"
    · cases h : kind? t <;> simp [hk, h, fillSlot, and_assoc]
    · cases h : t.value? depth <;> simp [hk, h]
  total := by
    rintro ⟨kind, others⟩ ⟨k, t⟩
    unfold step? keepOther
    by_cases hk : k = "type"
    · cases kind <;> simp [hk, fillSlot]
    · simp [hk]
  ext := by
    rintro ⟨kind, others⟩ ⟨kind', others'⟩
    simp

theorem foldlM_keepOther (depth : Nat) (ns : List (String × Tree)) :
    ns.foldlM (keepOther depth) [] =
      (Tree.namedValues? depth (ns.filter fun n => n.1 ≠ "type")).map List.reverse := by
  have hstep : keepOther depth = fun others (n : String × Tree) =>
      if decide (n.1 ≠ "type") = true then
        ((n.2.value? depth).map (n.1, ·)).map (· :: others)
      else pure others := by
    funext others n
    unfold keepOther
    by_cases hn : n.1 = "type"
    · simp [hn]
    · simp [hn]
      rfl
  unfold Tree.namedValues?
  rw [hstep, ← List.foldlM_filter, mapM_reverse]
  simp

theorem foldlM_step_eq_some_iff {depth : Nat} {ns : List (String × Tree)} {d : Draft} :
    ns.foldlM (step? depth) {} = some d ↔
      ns.foldlM (fillSlot kind? "type") none = some d.kind ∧
        Tree.namedValues? depth (ns.filter fun n => n.1 ≠ "type") = some d.others.reverse := by
  rw [(slotted depth).foldlM_iff]
  simp [foldlM_keepOther, List.reverse_eq_iff]

theorem ofTree?_eq (depth : Nat) (ns : List (String × Tree)) :
    ofTree? depth ns = (ns.foldlM (step? depth) {}).bind fun d =>
      (required "type" d.kind).toOption.bind fun kind =>
        (ofValue (.object d.others.reverse) kind).toOption := by
  apply Option.ext
  intro e
  unfold ofTree?
  simp only [Option.bind_eq_bind, Option.bind_eq_some_iff, foldlM_step_eq_some_iff,
    field?_required_iff, toOption_eq_some_iff, required_eq_ok_iff]
  constructor
  · rintro ⟨kind, hkind, vs, hvs, hvalue⟩
    refine ⟨⟨some kind, vs.reverse⟩, ⟨hkind, ?_⟩, kind, rfl, ?_⟩
    · rw [List.reverse_reverse]
      exact hvs
    · rw [List.reverse_reverse]
      exact hvalue
  · rintro ⟨d, ⟨hkind, hvs⟩, kind, hd, hvalue⟩
    rw [hd] at hkind
    exact ⟨kind, hkind, _, hvs, hvalue⟩

/-- An object is read as an element whatever the order of its members. -/
theorem reads_object (depth : Nat) (ms : List (Pieces × Tree)) :
    Reads (FromText.read (depth + 1)) (.object ms) ((Tree.named? ms).bind (ofTree? depth)) := by
  have hread : Reads (FromText.read (depth + 1) : Reader Element) (.object ms)
      (((Tree.named? ms).bind (·.foldlM (step? depth) {})).bind fun d =>
        (required "type" d.kind).toOption.bind fun kind =>
          (ofValue (.object d.others.reverse) kind).toOption) := by
    refine Reads.ofMembers (fun b s hb => ?_) fun m _ d k _ => reads_put depth d k m.2
    unfold FromText.read instFromText
    dsimp only
    rw [run?_bind, run?_peek_start hb (by rfl)]
    simp only [Option.bind_some, enter, run?_bind, run?_eat, List.tail_cons, readMembers,
      run?_ofExcept]
    congr 1
    funext x
    cases (required "type" x.1.kind).toOption <;> rfl
  have heq : ofTree? depth = fun ns => _ := funext (ofTree?_eq depth)
  rw [heq]
  rwa [Option.bind_assoc] at hread

end Element

end LabelPress

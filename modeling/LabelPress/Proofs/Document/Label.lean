import LabelPress.Label.Document
import LabelPress.Proofs.Document.Element
import LabelPress.Proofs.Json.Skipping

/-! Labels and configurations read from text. Their members are read where they stand; a member with
another name is passed over and does not matter. -/
namespace LabelPress

namespace Json

variable {α β : Type}

theorem ReadsMember.map {p : Reader α} {t : Tree} {o : Option α} (h : ReadsMember p t o)
    (f : α → β) : ReadsMember (do pure (f (← p))) t (o.map f) := by
  constructor
  intro b b' s rest hb hb' hs hrest
  rw [Reader.run?_bind, h.run? hb hb' hs hrest]
  cases o <;> rfl

theorem reads_fillFromText [FromText α] {depth : Nat} {t : Tree} {read : Tree → Option α}
    (h : Reads (FromText.read depth) t (read t)) (name : String) (field : Option α) :
    ReadsMember (fillFromText depth name field) t (fillSlot read name field (name, t)) := by
  unfold fillFromText fillSlot
  rw [if_pos rfl]
  cases field with
  | some a => exact ⟨fun _ _ _ _ => rfl⟩
  | none => exact (h.map some).afterColon

theorem reads_ignored (t : Tree) (a : α) :
    ReadsMember (do colon; skipValue; pure a) t (some a) := by
  have h := (Reads.map (reads_skipValue t) fun _ => a).afterColon
  exact h

section

open Reader

variable {name : String} {depth : Nat} {ofObject ofList : Nat → Reader α}

theorem run_readObjectOrList {b : List Char} (hb : Blanks b) (s : List Char) :
    (readObjectOrList name (depth + 1) ofObject ofList).run (b ++ '{' :: s) =
      (ofObject depth).run s := by
  unfold readObjectOrList
  rw [run_bind, run_peek_start hb rfl]
  change (eat >>= fun _ => ofObject depth).run ('{' :: s) = _
  rw [run_bind, run_eat]
  rfl

theorem run?_readObjectOrList {b : List Char} (hb : Blanks b) (s : List Char) :
    (readObjectOrList name (depth + 1) ofObject ofList).run? (b ++ '{' :: s) =
      (ofObject depth).run? s :=
  congrArg Except.toOption (run_readObjectOrList hb s)

end

theorem reads_readTree [FromText α] [FromValue α] [ReadsTrees α]
    (hlist : ∀ vs, (readValue (.list vs) : Option α) = none)
    (hobject : ∀ ms, (readValue (.object ms) : Option α) = none) (t : Tree) (depth : Nat) :
    Reads (FromText.read depth : Reader α) t (Tree.readTree 0 t) := by
  have h := ReadsTrees.reads (α := α) t depth
  rwa [t.bind_value? hlist hobject] at h

theorem reads_int32Option (t : Tree) (depth : Nat) :
    Reads (FromText.read depth : Reader (Option Int32)) t (Tree.readTree 0 t) :=
  reads_readTree (fun _ => rfl) (fun _ => rfl) t depth

theorem reads_uint32Option (t : Tree) (depth : Nat) :
    Reads (FromText.read depth : Reader (Option UInt32)) t (Tree.readTree 0 t) :=
  reads_readTree (fun _ => rfl) (fun _ => rfl) t depth

end Json

open Json
open Json.Reader hiding true false null

namespace PrinterConfig

def fieldNames : List String := ["density", "default_font", "default_font_size"]

section

variable (density? : Tree → Option Density) (font? : Tree → Option (Option Font))

def ofTree? (ns : List (String × Tree)) : Option PrinterConfig := do
  let density ← field? density? "density" (some default) ns
  let defaultFont ← field? font? "default_font" (some none) ns
  let defaultFontSize ← field? (Tree.readTree 0) "default_font_size" (some none) ns
  pure { density, defaultFont, defaultFontSize }

def slots : List (Slot Draft (String × Tree)) :=
  [ .field density? "density" Draft.density,
    .field font? "default_font" Draft.defaultFont,
    .field (Tree.readTree 0) "default_font_size" Draft.defaultFontSize ]

def step? (d : Draft) (n : String × Tree) : Option Draft :=
  match n.1 with
  | "density" =>
    (fillSlot density? "density" d.density n).map fun f => { d with density := f }
  | "default_font" =>
    (fillSlot font? "default_font" d.defaultFont n).map fun f => { d with defaultFont := f }
  | "default_font_size" =>
    (fillSlot (Tree.readTree 0) "default_font_size" d.defaultFontSize n).map fun f =>
      { d with defaultFontSize := f }
  | _ => some d

theorem step?_other (d : Draft) {k : String} (hk : k ∉ fieldNames) (t : Tree) :
    step? density? font? d (k, t) = some d := by
  unfold step?
  split <;> simp_all [fieldNames]

theorem slotted : Slotted (step? density? font?) (slots density? font?) where
  step_iff := by
    rintro ⟨density, font, size⟩ ⟨k, t⟩ ⟨density', font', size'⟩
    unfold step?
    dsimp only
    split <;> simp_all [slots] <;> tauto
  total := by
    rintro ⟨density, font, size⟩ ⟨k, t⟩
    unfold step?
    dsimp only
    split <;> simp_all [slots]
  ext := by
    rintro ⟨density, font, size⟩ ⟨density', font', size'⟩
    simp [slots]

theorem ofTree?_eq (ns : List (String × Tree)) :
    ofTree? density? font? ns =
      (ns.foldlM (step? density? font?) {}).bind fun d => some
        { density := d.density.getD default
          defaultFont := d.defaultFont.getD none
          defaultFontSize := d.defaultFontSize.getD none } := by
  apply Option.ext
  intro c
  unfold ofTree?
  simp only [Option.bind_eq_bind, Option.bind_eq_some_iff, (slotted _ _).foldlM_iff, slots,
    List.forall_mem_cons, List.not_mem_nil, false_implies, implies_true, and_true, Slot.field,
    field?_default_iff]
  constructor
  · rintro ⟨density, ⟨x, hx, rfl⟩, font, ⟨y, hy, rfl⟩, size, ⟨z, hz, rfl⟩, hc⟩
    exact ⟨⟨x, y, z⟩, ⟨hx, hy, hz⟩, hc⟩
  · rintro ⟨d, ⟨hx, hy, hz⟩, hc⟩
    exact ⟨_, ⟨_, hx, rfl⟩, _, ⟨_, hy, rfl⟩, _, ⟨_, hz, rfl⟩, hc⟩

variable {density? font?}

theorem reads_put {depth : Nat} (d : Draft) {k : String} {t : Tree}
    (hdensity : k = "density" → Reads (FromText.read depth) t (density? t))
    (hfont : k = "default_font" → Reads (FromText.read depth) t (font? t)) :
    ReadsMember (put depth d k) t (step? density? font? d (k, t)) := by
  unfold put
  split
  · exact ReadsMember.map (reads_fillFromText (hdensity rfl) _ _) _
  · exact ReadsMember.map (reads_fillFromText (hfont rfl) _ _) _
  · exact ReadsMember.map (reads_fillFromText (reads_uint32Option t depth) _ _) _
  · rw [step?_other _ _ d (by simp_all [fieldNames])]
    exact reads_ignored t d

theorem reads_object {depth : Nat} {ms : List (Pieces × Tree)}
    (hdensity : ∀ m ∈ ms, m.1.text? = some "density" →
      Reads (FromText.read depth) m.2 (density? m.2))
    (hfont : ∀ m ∈ ms, m.1.text? = some "default_font" →
      Reads (FromText.read depth) m.2 (font? m.2)) :
    Reads (FromText.read (depth + 1)) (.object ms)
      ((Tree.named? ms).bind (ofTree? density? font?)) := by
  have hread : Reads (FromText.read (depth + 1) : Reader PrinterConfig) (.object ms)
      (((Tree.named? ms).bind (·.foldlM (step? density? font?) {})).bind fun d => some
        { density := d.density.getD default
          defaultFont := d.defaultFont.getD none
          defaultFontSize := d.defaultFontSize.getD none }) := by
    refine Reads.ofMembers (fun b s hb => (run?_readObjectOrList hb s).trans ?_) fun m hm d k hk =>
      reads_put d (fun hname => hdensity m hm (hname ▸ hk)) fun hname => hfont m hm (hname ▸ hk)
    simp only [readMembers, run?_bind, run?_pure]
    rfl
  have heq : ofTree? density? font? = fun ns => _ := funext (ofTree?_eq density? font?)
  rw [heq]
  rwa [Option.bind_assoc] at hread

end

end PrinterConfig

namespace Label

def scalarNames : List String := ["width", "height", "print_mode"]

section

variable (mode? : Tree → Option PrintMode) (config? : Tree → Option PrinterConfig)
  (elements? : Tree → Option (List Element))

def ofTree? (ns : List (String × Tree)) : Option Label := do
  let width ← field? (Tree.readTree 0) "width" (some none) ns
  let height ← field? (Tree.readTree 0) "height" (some none) ns
  let printMode ← field? mode? "print_mode" (some default) ns
  let config ← field? config? "config" (some {}) ns
  let elements ← field? elements? "elements" (some []) ns
  pure { width, height, printMode, config, elements }

def slots : List (Slot Draft (String × Tree)) :=
  [ .field (Tree.readTree 0) "width" Draft.width,
    .field (Tree.readTree 0) "height" Draft.height,
    .field mode? "print_mode" Draft.printMode,
    .field config? "config" Draft.config,
    .field elements? "elements" Draft.elements ]

def step? (d : Draft) (n : String × Tree) : Option Draft :=
  match n.1 with
  | "width" => (fillSlot (Tree.readTree 0) "width" d.width n).map fun f => { d with width := f }
  | "height" => (fillSlot (Tree.readTree 0) "height" d.height n).map fun f => { d with height := f }
  | "print_mode" =>
    (fillSlot mode? "print_mode" d.printMode n).map fun f => { d with printMode := f }
  | "config" => (fillSlot config? "config" d.config n).map fun f => { d with config := f }
  | "elements" => (fillSlot elements? "elements" d.elements n).map fun f => { d with elements := f }
  | _ => some d

theorem step?_other (d : Draft) {k : String} (hk : k ∉ "config" :: "elements" :: scalarNames)
    (t : Tree) : step? mode? config? elements? d (k, t) = some d := by
  unfold step?
  split <;> simp_all [scalarNames]

theorem slotted : Slotted (step? mode? config? elements?) (slots mode? config? elements?) where
  step_iff := by
    rintro ⟨width, height, mode, config, elements⟩ ⟨k, t⟩
      ⟨width', height', mode', config', elements'⟩
    unfold step?
    dsimp only
    split <;> simp_all [slots] <;> tauto
  total := by
    rintro ⟨width, height, mode, config, elements⟩ ⟨k, t⟩
    unfold step?
    dsimp only
    split <;> simp_all [slots]
  ext := by
    rintro ⟨width, height, mode, config, elements⟩ ⟨width', height', mode', config', elements'⟩
    simp [slots]

theorem ofTree?_eq (ns : List (String × Tree)) :
    ofTree? mode? config? elements? ns =
      (ns.foldlM (step? mode? config? elements?) {}).bind fun d => some
        { width := d.width.getD none
          height := d.height.getD none
          printMode := d.printMode.getD default
          config := d.config.getD {}
          elements := d.elements.getD [] } := by
  apply Option.ext
  intro l
  unfold ofTree?
  simp only [Option.bind_eq_bind, Option.bind_eq_some_iff, (slotted _ _ _).foldlM_iff, slots,
    List.forall_mem_cons, List.not_mem_nil, false_implies, implies_true, and_true, Slot.field,
    field?_default_iff]
  constructor
  · rintro ⟨_, ⟨width, hwidth, rfl⟩, _, ⟨height, hheight, rfl⟩, _, ⟨mode, hmode, rfl⟩, _,
      ⟨config, hconfig, rfl⟩, _, ⟨elements, helements, rfl⟩, hl⟩
    exact ⟨⟨width, height, mode, config, elements⟩,
      ⟨hwidth, hheight, hmode, hconfig, helements⟩, hl⟩
  · rintro ⟨d, ⟨hwidth, hheight, hmode, hconfig, helements⟩, hl⟩
    exact ⟨_, ⟨_, hwidth, rfl⟩, _, ⟨_, hheight, rfl⟩, _, ⟨_, hmode, rfl⟩, _, ⟨_, hconfig, rfl⟩, _,
      ⟨_, helements, rfl⟩, hl⟩

variable {mode? config? elements?}

theorem reads_put {depth : Nat} (d : Draft) {k : String} {t : Tree}
    (hmode : k = "print_mode" → Reads (FromText.read depth) t (mode? t))
    (hconfig : k = "config" → Reads (FromText.read depth) t (config? t))
    (helements : k = "elements" → Reads (FromText.read depth) t (elements? t)) :
    ReadsMember (put depth d k) t (step? mode? config? elements? d (k, t)) := by
  unfold put
  split
  · exact ReadsMember.map (reads_fillFromText (reads_int32Option t depth) _ _) _
  · exact ReadsMember.map (reads_fillFromText (reads_int32Option t depth) _ _) _
  · exact ReadsMember.map (reads_fillFromText (hmode rfl) _ _) _
  · exact ReadsMember.map (reads_fillFromText (hconfig rfl) _ _) _
  · exact ReadsMember.map (reads_fillFromText (helements rfl) _ _) _
  · rw [step?_other _ _ _ d (by simp_all [scalarNames])]
    exact reads_ignored t d

theorem reads_object {depth : Nat} {ms : List (Pieces × Tree)}
    (hmode : ∀ m ∈ ms, m.1.text? = some "print_mode" →
      Reads (FromText.read depth) m.2 (mode? m.2))
    (hconfig : ∀ m ∈ ms, m.1.text? = some "config" →
      Reads (FromText.read depth) m.2 (config? m.2))
    (helements : ∀ m ∈ ms, m.1.text? = some "elements" →
      Reads (FromText.read depth) m.2 (elements? m.2)) :
    Reads (FromText.read (depth + 1)) (.object ms)
      ((Tree.named? ms).bind (ofTree? mode? config? elements?)) := by
  have hread : Reads (FromText.read (depth + 1) : Reader Label) (.object ms)
      (((Tree.named? ms).bind (·.foldlM (step? mode? config? elements?) {})).bind fun d => some
        { width := d.width.getD none
          height := d.height.getD none
          printMode := d.printMode.getD default
          config := d.config.getD {}
          elements := d.elements.getD [] }) := by
    refine Reads.ofMembers (fun b s hb => (run?_readObjectOrList hb s).trans ?_) fun m hm d k hk =>
      reads_put d (fun hname => hmode m hm (hname ▸ hk)) (fun hname => hconfig m hm (hname ▸ hk))
        fun hname => helements m hm (hname ▸ hk)
    simp only [readMembers, run?_bind, run?_pure]
    rfl
  have heq : ofTree? mode? config? elements? = fun ns => _ :=
    funext (ofTree?_eq mode? config? elements?)
  rw [heq]
  rwa [Option.bind_assoc] at hread

end

theorem reads_elements {depth : Nat} {ts : List Tree} {element? : Tree → Option Element}
    (h : ∀ t ∈ ts, Reads (FromText.read depth) t (element? t)) :
    Reads (FromText.read (depth + 1)) (.list ts) (ts.mapM element?) := by
  have hread : Reads (FromText.read (depth + 1) : Reader (List Element)) (.list ts)
      ((ts.mapM element?).map id) := by
    refine Reads.ofItems (fun b s hb => ?_) h
    unfold FromText.read instFromTextListElement
    dsimp only
    rw [run?_bind, run?_peek_start hb (by rfl)]
    simp only [Option.bind_some, enter, run?_bind, run?_eat, List.tail_cons]
    exact Option.map_id'.symm
  simpa using hread

end Label

end LabelPress

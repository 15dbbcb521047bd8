import LabelPress.Label.Edit
import LabelPress.Proofs.Document.RoundTrip

/-! Runs of edits. Every field ends as the last edit that writes it left it, the elements end in the
order in which they were added, and the program is that of the label at the end. Additions therefore
commute with all other edits. -/
namespace LabelPress.Label

namespace Edit

-- Each of these functions lists the edits that write one field, with the value that they write at
-- the density of their turn.
def density? : Edit → Option Density
  | density d => some d
  | _ => none

def width? (d : Density) : Edit → Option (Option Int32)
  | size w _ => some (some w)
  | sizeMm w _ => some (some (Units.dotsOfMm w d))
  | width w => some w
  | _ => none

def height? (d : Density) : Edit → Option (Option Int32)
  | size _ h => some (some h)
  | sizeMm _ h => some (some (Units.dotsOfMm h d))
  | height h => some h
  | _ => none

def printMode? : Edit → Option PrintMode
  | printMode mode => some mode
  | _ => none

def font? : Edit → Option (Option Font)
  | defaultFont family _ => some (some family)
  | font family => some family
  | _ => none

def fontSize? : Edit → Option (Option UInt32)
  | defaultFont _ n => some (some n)
  | fontSize n => some n
  | _ => none

def added? : Edit → Option Element
  | add e => some e
  | _ => none

def isSetting (e : Edit) : Bool := e.added?.isNone

/-- The value of a field after some edits: the last one that was written, or else the first one. -/
def latest {α : Type} (writes : Density → Edit → Option α) : Density → α → List Edit → α
  | _, a, [] => a
  | d, a, e :: es => latest writes (e.density?.getD d) ((writes d e).getD a) es

theorem latest_filter {α : Type} {writes : Density → Edit → Option α}
    (hadd : ∀ d x, writes d (add x) = none) (d : Density) (a : α) (es : List Edit) :
    latest writes d a (es.filter isSetting) = latest writes d a es := by
  induction es generalizing d a with
  | nil => rfl
  | cons e es ih =>
    cases e with
    | add x =>
      change latest writes d a (es.filter isSetting) = latest writes d ((writes d (add x)).getD a) es
      rw [hadd]
      exact ih d a
    | _ => exact ih _ _

end Edit

section

open Edit

/-- The label with every field as the last edit that writes it leaves it, and with the elements that
are added behind its own. -/
def edited (l : Label) (es : List Edit) : Label where
  width := latest width? l.config.density l.width es
  height := latest height? l.config.density l.height es
  printMode := latest (fun _ => printMode?) l.config.density l.printMode es
  config :=
    { density := latest (fun _ => density?) l.config.density l.config.density es
      defaultFont := latest (fun _ => font?) l.config.density l.config.defaultFont es
      defaultFontSize := latest (fun _ => fontSize?) l.config.density l.config.defaultFontSize es }
  elements := l.elements ++ es.filterMap added?

theorem edited_nil (l : Label) : l.edited [] = l := by
  unfold edited
  rw [List.filterMap_nil, List.append_nil]
  rfl

theorem edited_cons (l : Label) (e : Edit) (es : List Edit) :
    l.edited (e :: es) = (l.edited [e]).edited es := by
  cases e with
  | add x =>
    unfold edited
    rw [List.append_assoc]
    rfl
  | _ =>
    unfold edited
    rw [List.append_assoc]
    rfl

/-- No edit fails, and an edit writes its own fields only. The document of a label gives that label
again, so writing and reading it is no change. -/
theorem edit_eq (l : Label) (e : Edit) : l.edit e = .ok (l.edited [e]) := by
  cases e with
  | reload =>
    unfold edit edited
    rw [ofDocument_render, List.filterMap_cons_none rfl, List.filterMap_nil, List.append_nil]
    rfl
  | add x => rfl
  | _ =>
    unfold edited
    rw [List.filterMap_cons_none rfl, List.filterMap_nil, List.append_nil]
    rfl

theorem editAll_eq (l : Label) (es : List Edit) : l.editAll es = .ok (l.edited es) := by
  unfold editAll
  induction es generalizing l with
  | nil => rw [edited_nil]; rfl
  | cons e es ih =>
    rw [List.foldlM_cons, edit_eq, edited_cons l e es]
    exact ih (l.edited [e])

theorem edited_eq_of_filter {es es' : List Edit}
    (hadded : es'.filterMap added? = es.filterMap added?)
    (hsettings : es'.filter isSetting = es.filter isSetting) (l : Label) :
    l.edited es' = l.edited es := by
  have hlatest {α : Type} (writes : Density → Edit → Option α)
      (hadd : ∀ d x, writes d (.add x) = none) (d : Density) (a : α) :
      latest writes d a es' = latest writes d a es := by
    rw [← latest_filter hadd, hsettings, latest_filter hadd]
  unfold edited
  rw [hadded, hlatest width? fun _ _ => rfl, hlatest height? fun _ _ => rfl,
    hlatest (fun _ => printMode?) fun _ _ => rfl, hlatest (fun _ => density?) fun _ _ => rfl,
    hlatest (fun _ => font?) fun _ _ => rfl, hlatest (fun _ => fontSize?) fun _ _ => rfl]

end

/-- The lines of a program: its start, the print mode, the dimensions and the default font where
they are set, the elements as they are written at the configuration, and its end. -/
def layout (width height : Option Int32) (mode : PrintMode) (config : PrinterConfig)
    (elements : List Element) : String :=
  "^XA\n" ++ ("^MM" ++ mode.token ++ "\n")
    ++ (width.elim "" fun n => "^PW" ++ toString n.toInt ++ "\n")
    ++ (height.elim "" fun n => "^LL" ++ toString n.toInt ++ "\n")
    ++ (match config.defaultFont, config.defaultFontSize with
      | some font, some size =>
        "^CF" ++ (font.token ++ "," ++ toString (FontSize.inDots size config.density)) ++ "\n"
      | _, _ => "")
    ++ String.join (elements.map (Element.zpl config))
    ++ "^XZ\n"

theorem dimensionLine_eq (mnemonic : String) (n : Option Int32) :
    dimensionLine mnemonic n = n.elim "" fun n => "^" ++ mnemonic ++ toString n.toInt ++ "\n" := by
  cases n <;> rfl

theorem zpl_eq_layout (l : Label) :
    l.zpl = layout l.width l.height l.printMode l.config l.elements := by
  unfold zpl layout fontLine PrinterConfig.resolvedFont
  rw [dimensionLine_eq, dimensionLine_eq]
  cases l.config.defaultFont <;> cases l.config.defaultFontSize <;> rfl

/-- A run of edits succeeds, and its label is written from the fields as they are at the end, with
the added elements in order. Other runs with the same additions in the same order and the same other
edits in the same order give the same label, however the two kinds alternate. -/
theorem editAll_zpl (start : Label) (es : List Edit) :
    ∃ l, start.editAll es = .ok l ∧ l = start.edited es ∧
      l.zpl = layout l.width l.height l.printMode l.config
        (start.elements ++ es.filterMap Edit.added?) ∧
      ∀ es' : List Edit, es'.filterMap Edit.added? = es.filterMap Edit.added? →
        es'.filter Edit.isSetting = es.filter Edit.isSetting →
          start.editAll es' = .ok l ∧ (start.editAll es').map render = .ok l.render ∧
            (start.editAll es').map zpl = .ok l.zpl := by
  refine ⟨start.edited es, editAll_eq start es, rfl, zpl_eq_layout _, ?_⟩
  intro es' hadded hsettings
  rw [editAll_eq, edited_eq_of_filter hadded hsettings]
  exact ⟨rfl, rfl, rfl⟩

/-- Texts in the default font and in their own, the same one twice, before and after the density
changes. -/
def revision : List Edit :=
  [ .add (.text { content := "A", font := some .zero, fontSize := some 11 }),
    .sizeMm (.ofInt 50) (.ofInt 25),
    .defaultFont .b 14,
    .add (.text { content := "B" }),
    .density .dpi300,
    .reload,
    .add (.text { content := "B" }),
    .height none ]

def revision' : List Edit := revision.filter Edit.isSetting ++ revision.filter fun e => !e.isSetting

theorem editAll_zpl_revision :
    (revision'.filterMap Edit.added? = revision.filterMap Edit.added? ∧
      revision'.filter Edit.isSetting = revision.filter Edit.isSetting) ∧
    ({} : Label).editAll revision' = ({} : Label).editAll revision ∧
    (({} : Label).editAll revision').map zpl =
      .ok "^XA\n^MMT\n^PW400\n^CFB,58\n^A0N,46,46^FDA^FS\n^FDB^FS\n^FDB^FS\n^XZ\n" := by
  have hadded : revision'.filterMap Edit.added? = revision.filterMap Edit.added? := rfl
  have hsettings : revision'.filter Edit.isSetting = revision.filter Edit.isSetting := rfl
  obtain ⟨l, hl, hedited, -, hsame⟩ := editAll_zpl {} revision
  obtain ⟨hl', -, hzpl⟩ := hsame revision' hadded hsettings
  refine ⟨⟨hadded, hsettings⟩, hl'.trans hl.symm, hzpl.trans ?_⟩
  rw [hedited]
  decide +kernel

end LabelPress.Label

import LabelPress.CommandLine.Task

/-! What the usual arguments ask for: a command, its file, and each flag that is given with its
value in the next argument. -/
namespace LabelPress.CommandLine

def setting (name : String) : Option String → List String
  | none => []
  | some value => [name, value]

/-- A path that can stand among the arguments as it is. -/
def IsPath (text : String) : Prop := Argument.isOperand text ∧ text ≠ ""

instance : DecidablePred IsPath := fun _ => inferInstanceAs (Decidable (_ ∧ _))

def SpelledDensity (text : Option String) (density : Option Density) : Prop :=
  (∀ t ∈ text, Argument.isOperand t) ∧ text.map Density.ofText? = density.map some

namespace Argument

theorem ofText_operand {known : List Flag} {text : String} (h : isOperand text) :
    ofText known text = ([.operand text], none) := by
  unfold isOperand at h
  unfold ofText
  split at h
  · cases h
  · rename_i hdash
    split
    · exact absurd ‹_› (hdash _ _)
    · exact absurd ‹_› (hdash _ _)
    · rfl

theorem ofTexts_operand {known : List Flag} {text : String} (h : isOperand text)
    (rest : List String) : ofTexts known (text :: rest) = .operand text :: ofTexts known rest := by
  have hdashes : text ≠ "--" := by
    rintro rfl
    cases h
  rw [ofTexts, ofText_operand h]
  · rfl
  · exact hdashes

theorem ofTexts_setting {known : List Flag} {name : String} {f : Flag} {value : Option String}
    (hname : ofText known name = ([], some f)) (hdashes : name ≠ "--")
    (hvalue : ∀ v ∈ value, isOperand v) (rest : List String) :
    ofTexts known (setting name value ++ rest) =
      value.toList.map (.value f) ++ ofTexts known rest := by
  cases value with
  | none => rfl
  | some v =>
    change ofTexts known (name :: v :: rest) = _
    rw [ofTexts, hname]
    · exact if_pos (hvalue v rfl)
    · exact hdashes

end Argument

theorem pathOf_eq {text : String} (h : IsPath text) : pathOf text = .ok text := if_neg h.2

namespace Given

variable {g : Given} {verb : Verb}

theorem take_file {file : String} (hg : g.file = none) (hfile : IsPath file) :
    g.take (some verb) (.operand file) = .ok { g with file := some file } := by
  simp only [take, takeOperand, hg, pathOf_eq hfile]

theorem foldlM_take {g g' : Given} {f : Flag} {value : Option String} (hnone : value = none → g = g')
    (hsome : ∀ v ∈ value, g.take (some verb) (.value f v) = .ok g') :
    (value.toList.map (.value f)).foldlM (take (some verb)) g = .ok g' := by
  cases value with
  | none => exact congrArg Except.ok (hnone rfl)
  | some v =>
    simp only [Option.toList, List.map, List.foldlM, hsome v rfl]
    rfl

theorem take_output {output : Option String} (hg : g.output = none)
    (houtput : ∀ path ∈ output, IsPath path) :
    (output.toList.map (.value .output)).foldlM (take (some verb)) g = .ok { g with output } := by
  refine foldlM_take (fun hnone => by rw [hnone, ← hg]) fun path hpath => ?_
  simp only [take, hg, pathOf_eq (houtput path hpath)]
  rw [hpath]
  rfl

theorem take_device {device : Option String} (hg : g.device = none)
    (hdevice : ∀ path ∈ device, IsPath path) :
    (device.toList.map (.value .device)).foldlM (take (some verb)) g = .ok { g with device } := by
  refine foldlM_take (fun hnone => by rw [hnone, ← hg]) fun path hpath => ?_
  simp only [take, hg, pathOf_eq (hdevice path hpath)]
  rw [hpath]
  rfl

theorem take_density {text : Option String} {density : Option Density} (hg : g.density = none)
    (h : SpelledDensity text density) :
    (text.toList.map (.value .density)).foldlM (take (some verb)) g = .ok { g with density } := by
  obtain ⟨-, hread⟩ := h
  refine foldlM_take ?_ ?_
  · rintro rfl
    cases density with
    | none => rw [← hg]
    | some d => cases hread
  · rintro t rfl
    cases density with
    | none => cases hread
    | some d =>
      have hdensity : densityOf t = .ok d := by
        unfold densityOf
        rw [Option.some.inj hread]
      simp only [take, hg, hdensity]
      rfl

end Given

theorem given_settings (verb : Verb) (name : String) {file : String} {f : Flag}
    {value text : Option String} {density : Option Density} {g : Given} (hfile : IsPath file)
    (hname : Argument.ofText verb.flags name = ([], some f)) (hdashes : name ≠ "--")
    (hvalue : ∀ v ∈ value, Argument.isOperand v)
    (htake : (value.toList.map (.value f)).foldlM (Given.take (some verb))
      { file := some file } = .ok g)
    (hflag : Argument.ofText verb.flags "--density" = ([], some .density)) (hg : g.density = none)
    (hdensity : SpelledDensity text density) :
    given (some verb) verb.flags (file :: (setting name value ++ setting "--density" text)) =
      .ok { g with density } := by
  have harguments : Argument.ofTexts verb.flags
      (file :: (setting name value ++ setting "--density" text)) =
        .operand file :: (value.toList.map (.value f) ++ text.toList.map (.value .density)) := by
    rw [Argument.ofTexts_operand hfile.1, Argument.ofTexts_setting hname hdashes hvalue,
      ← List.append_nil (setting "--density" text),
      Argument.ofTexts_setting hflag (by decide) hdensity.1]
    exact congrArg _ (congrArg _ (List.append_nil _))
  unfold given
  rw [harguments, List.foldlM_cons, Given.take_file rfl hfile]
  change List.foldlM _ _ _ = _
  rw [List.foldlM_append, htake]
  exact Given.take_density hg hdensity

namespace Task

theorem ofArguments_verb (verb : Verb) (rest : List String) :
    ofArguments (Named.name verb :: rest) =
      (given (some verb) verb.flags rest).bind fun g => g.task verb := by
  cases verb <;> rfl

theorem ofArguments_encode {file : String} {output text : Option String}
    {density : Option Density} (hfile : IsPath file) (houtput : ∀ path ∈ output, IsPath path)
    (hdensity : SpelledDensity text density) :
    ofArguments ("encode" :: file :: (setting "-o" output ++ setting "--density" text)) =
      .ok (.encode file output density) := by
  have hgiven := given_settings .encode "-o" hfile rfl (by decide)
    (fun path h => (houtput path h).1) (Given.take_output rfl houtput) rfl rfl hdensity
  exact (ofArguments_verb .encode _).trans (by rw [hgiven]; rfl)

theorem ofArguments_print {file : String} {device text : Option String}
    {density : Option Density} (hfile : IsPath file) (hdevice : ∀ path ∈ device, IsPath path)
    (hdensity : SpelledDensity text density) :
    ofArguments ("print" :: file :: (setting "--device" device ++ setting "--density" text)) =
      .ok (.print file (device.getD Device.standardPath) density) := by
  have hgiven := given_settings .print "--device" hfile rfl (by decide)
    (fun path h => (hdevice path h).1) (Given.take_device rfl hdevice) rfl rfl hdensity
  exact (ofArguments_verb .print _).trans (by rw [hgiven]; rfl)

end Task

end LabelPress.CommandLine

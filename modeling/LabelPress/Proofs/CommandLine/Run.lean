import LabelPress.CommandLine.Run
import LabelPress.Proofs.CommandLine.Task
import LabelPress.Proofs.Document.RoundTrip
import LabelPress.Proofs.Output.Files

/-! Runs of the program on files as a value. All that can fail comes before the one change that a
run makes, so a run that fails leaves no trace. One that succeeds puts out the program of the label,
wherever its output goes. -/
namespace LabelPress

namespace Files

/-- The text in a file is the document of a label. -/
def Holds (files : Files) (file : String) (l : Label) : Prop :=
  ∃ text : String, files.read file = .ok text.toUTF8.data.toList ∧ Label.ofDocument text = .ok l

/-- No label can be read from a file. -/
inductive Unread (files : Files) (file : String) : Prop
  | missing {e : SystemError} : files.read file = .error e → Unread files file
  | notText {bytes : List UInt8} :
      files.read file = .ok bytes → (∀ text : String, bytes ≠ text.toUTF8.data.toList) →
        Unread files file
  | malformed {text : String} {fault : Json.Fault} :
      files.read file = .ok text.toUTF8.data.toList → Label.ofDocument text = .error fault →
        Unread files file

theorem holds_or_unread (files : Files) (file : String) :
    (∃ l, files.Holds file l) ∨ files.Unread file := by
  cases hbytes : files.read file with
  | error e => exact .inr (.missing hbytes)
  | ok bytes =>
    by_cases htext : ∃ text : String, bytes = text.toUTF8.data.toList
    · obtain ⟨text, rfl⟩ := htext
      cases hlabel : Label.ofDocument text with
      | error fault => exact .inr (.malformed hbytes hlabel)
      | ok l => exact .inl ⟨l, text, hbytes, hlabel⟩
    · exact .inr (.notText hbytes (not_exists.mp htext))

end Files

namespace CommandLine

/-- One run: how it ends, and the files after it. -/
def runOn (files : Files) (arguments : List String) : Outcome × Files :=
  (run (m := StateM Files) arguments).run files

def atDensity (l : Label) (density : Option Density) : Label :=
  { l with config := { l.config with density := density.getD l.config.density } }

theorem atDensity_none (l : Label) : atDensity l none = l := rfl

def Task.file : Task → String
  | encode file _ _ => file
  | preview file _ => file
  | print file _ _ => file

def Task.output? : Task → Option String
  | encode _ output _ => output
  | preview _ png => some png
  | print _ path _ => some path

section

variable {files : Files}

def performed {α : Type} (files : Files) (screen : Screen) (work : Printing (StateM Files) α) :
    (Except Failure α × Screen) × Files :=
  (work.run.run screen).run files

theorem performed_silently {α : Type} (screen : Screen) (work : ExceptT Failure (StateM Files) α) :
    performed files screen (silently work) =
      (((files.after work).1, screen), (files.after work).2) := rfl

theorem performed_say (screen : Screen) (text : String) :
    performed files screen (say text) =
      ((.ok (), { screen with stdout := screen.stdout ++ text }), files) := rfl

theorem performed_bind {α β : Type} (screen : Screen) (first : Printing (StateM Files) α)
    (rest : α → Printing (StateM Files) β) :
    performed files screen (first >>= rest) =
      match performed files screen first with
      | ((.ok a, between), files') => performed files' between (rest a)
      | ((.error e, between), files') => ((.error e, between), files') := by
  unfold performed
  rw [ExceptT.run_bind, StateT.run_bind, StateT.run_bind]
  rcases (first.run.run screen).run files with ⟨⟨e | a, between⟩, files'⟩ <;> rfl

theorem performed_silently_bind {α β : Type} (screen : Screen)
    (work : ExceptT Failure (StateM Files) α) (rest : α → Printing (StateM Files) β) :
    performed files screen (silently work >>= rest) =
      match files.after work with
      | (.ok a, files') => performed files' screen (rest a)
      | (.error e, files') => ((.error e, screen), files') := by
  rw [performed_bind, performed_silently]
  rcases files.after work with ⟨e | a, files'⟩ <;> rfl

def Task.performedOn (task : Task) (files : Files) : (Except Failure Unit × Screen) × Files :=
  performed files {} task.perform

theorem runOn_task {arguments : List String} {task : Task}
    (h : Task.ofArguments arguments = .ok task) :
    runOn files arguments =
      match task.performedOn files with
      | ((.ok (), screen), after) => ({ toScreen := screen, code := 0 }, after)
      | ((.error failure, screen), after) =>
        ({ code := 1, stdout := screen.stdout
           stderr := screen.stderr ++ "Error: " ++ failure.message ++ "\n" }, after) := by
  unfold runOn run
  rw [h]
  dsimp only
  rw [StateT.run_bind]
  unfold Task.performedOn performed
  rcases ((task.perform (m := StateM Files)).run.run {}).run files with
    ⟨⟨failure | _, screen⟩, after⟩ <;> rfl

theorem runOn_stop {arguments : List String} {stop : Stop}
    (h : Task.ofArguments arguments = .error stop) :
    runOn files arguments = (stop.outcome, files) := by
  unfold runOn run
  rw [h]
  rfl

theorem Stop.code_outcome_ne (stop : Stop) : stop.outcome.code ≠ 1 := by
  cases stop <;> simp [outcome]

variable {file : String} {l : Label}

theorem after_load (h : files.Holds file l) (density : Option Density) :
    files.after (load file density) = (.ok (atDensity l density), files) := by
  obtain ⟨text, hbytes, hlabel⟩ := h
  unfold load
  rw [Files.after_bind, Files.after_read, hbytes]
  dsimp only [Except.mapError]
  rw [Text.ofBytes?_eq_some_iff.mpr rfl]
  dsimp only
  rw [Files.after_bind, Files.after_ofExcept, hlabel]
  cases density <;> rfl

theorem after_load_unread (h : files.Unread file) (density : Option Density) :
    ∃ failure, files.after (load file density) = (.error failure, files) := by
  unfold load
  rw [Files.after_bind, Files.after_read]
  cases h with
  | missing hbytes =>
    rw [hbytes]
    exact ⟨_, rfl⟩
  | @notText bytes hbytes htext =>
    have hnone : Text.ofBytes? bytes = none :=
      Option.eq_none_iff_forall_ne_some.mpr fun text h =>
        htext text (Text.ofBytes?_eq_some_iff.mp h)
    rw [hbytes]
    dsimp only [Except.mapError]
    rw [hnone]
    exact ⟨_, rfl⟩
  | malformed hbytes hlabel =>
    rw [hbytes]
    dsimp only [Except.mapError]
    rw [Text.ofBytes?_eq_some_iff.mpr rfl]
    dsimp only
    rw [Files.after_bind, Files.after_ofExcept, hlabel]
    exact ⟨_, rfl⟩

theorem performed_load (h : files.Holds file l) (density : Option Density)
    (rest : Label → Printing (StateM Files) Unit) :
    performed files {} (silently (load file density) >>= rest) =
      performed files {} (rest (atDensity l density)) := by
  rw [performed_silently_bind, after_load h]

theorem performedOn_encode (h : files.Holds file l) (output : Option String)
    (density : Option Density) :
    (Task.encode file output density).performedOn files =
      match output with
      | none => ((.ok (), { stdout := (atDensity l density).zpl }), files)
      | some path =>
        match files.resolveToWrite path with
        | .error e => ((.error (.stream (.system e)), {}), files)
        | .ok place =>
          ((.ok (), {}), files.put place (.file (Text.bytes (atDensity l density).zpl))) := by
  unfold Task.performedOn Task.perform
  rw [performed_load h]
  cases output with
  | none =>
    dsimp only
    rw [performed_say, String.empty_append]
  | some path =>
    dsimp only
    rw [performed_silently, Files.after_replace]
    cases files.resolveToWrite path <;> rfl

theorem performedOn_preview (h : files.Holds file l) (png : String) :
    (Task.preview file png).performedOn files =
      match files.after (l.savePicture png) with
      | (.error failure, after) => ((.error failure, {}), after)
      | (.ok (), after) => ((.ok (), { stdout := "Saved preview to " ++ png ++ "\n" }), after) := by
  unfold Task.performedOn Task.perform
  rw [performed_load h, performed_silently_bind, atDensity_none]
  rcases files.after (l.savePicture png) with ⟨failure | _, after⟩
  · rfl
  · dsimp only
    rw [performed_say, String.empty_append]

theorem performedOn_print (h : files.Holds file l) (path : String) (density : Option Density) :
    (Task.print file path density).performedOn files =
      match files.resolveToWrite path with
      | .error e => ((.error (.deviceNotOpened path e), {}), files)
      | .ok place =>
        ((.ok (), { stdout := "Sent " ++ file ++ " to " ++ path ++ "\n" }),
          (files.opened place).append place (Text.bytes (atDensity l density).zpl)) := by
  unfold Task.performedOn Task.perform
  rw [performed_load h, performed_silently_bind, Files.after_connect]
  cases files.resolveToWrite path with
  | error e => rfl
  | ok place =>
    dsimp only
    rw [performed_silently_bind, Files.after_send]
    dsimp only
    rw [performed_say, String.empty_append]

theorem perform_eq_bind (task : Task) :
    ∃ (density : Option Density) (rest : Label → Printing (StateM Files) Unit),
      task.perform = silently (load task.file density) >>= rest := by
  cases task with
  | encode file output density => exact ⟨density, _, rfl⟩
  | preview file png => exact ⟨none, _, rfl⟩
  | print file path density => exact ⟨density, _, rfl⟩

theorem performedOn_unread {task : Task} (h : files.Unread task.file) :
    ∃ failure, task.performedOn files = ((.error failure, {}), files) := by
  obtain ⟨density, rest, hperform⟩ := perform_eq_bind task
  obtain ⟨failure, hload⟩ := after_load_unread h density
  unfold Task.performedOn
  rw [hperform, performed_silently_bind, hload]
  exact ⟨failure, rfl⟩

end

/-- The three outputs of a label agree: what is printed, what a file is replaced by and what a
device gets is its program at the density that was asked for. No other file changes, and the output
may be the file of the document itself. -/
theorem outputs_agree {files : Files} {file : String} {l : Label} (h : files.Holds file l)
    (density : Option Density) :
    let program := (atDensity l density).zpl
    (∀ arguments, Task.ofArguments arguments = .ok (.encode file none density) →
      runOn files arguments = ({ code := 0, stdout := program }, files)) ∧
    (∀ arguments path place,
      Task.ofArguments arguments = .ok (.encode file (some path) density) →
        files.resolveToWrite path = .ok place →
          ∃ files', runOn files arguments = ({ code := 0 }, files') ∧
            files'.content? place = some program.toUTF8.data.toList ∧
            ∀ other ≠ place, files'.node? other = files.node? other) ∧
    ∀ arguments path place,
      Task.ofArguments arguments = .ok (.print file path density) →
        files.resolveToWrite path = .ok place →
          ∃ files' stdout, runOn files arguments = ({ code := 0, stdout }, files') ∧
            files'.content? place =
              some ((files.content? place).getD [] ++ program.toUTF8.data.toList) ∧
            ∀ other ≠ place, files'.node? other = files.node? other := by
  refine ⟨?_, ?_, ?_⟩
  · intro arguments htask
    rw [runOn_task htask, performedOn_encode h]
  · intro arguments path place htask hplace
    refine ⟨files.put place (.file (Text.bytes (atDensity l density).zpl)), ?_, ?_, ?_⟩
    · rw [runOn_task htask, performedOn_encode h]
      dsimp only
      rw [hplace]
    · rw [Files.content?_put, if_pos rfl]
      rfl
    · intro other hother
      rw [Files.node?_put, if_neg hother]
  · intro arguments path place htask hplace
    refine ⟨(files.opened place).append place (Text.bytes (atDensity l density).zpl),
      "Sent " ++ file ++ " to " ++ path ++ "\n", ?_, ?_, ?_⟩
    · rw [runOn_task htask, performedOn_print h, hplace]
    · rw [Files.content?_append, if_pos rfl, Files.content?_opened, if_pos rfl]
      rfl
    · intro other hother
      rw [Files.node?_append_of_ne _ hother, Files.node?_opened_of_ne hother]

def tag : Label :=
  { width := some 300
    config := { defaultFont := some .zero, defaultFontSize := some 11 }
    elements := [.text { content := "é" }] }

/-- The document of the tag, a picture from before, and a device that nobody may write to. -/
def desk : Files :=
  ((({} : Files).put ["tag.json"] (.file (Text.bytes tag.render))).put ["tag.png"]
    (.file [1, 2])).put ["lp0"] (.readOnly [3])

theorem holds_tag : desk.Holds "tag.json" tag := ⟨tag.render, rfl, tag.ofDocument_render⟩

theorem outputs_agree_tag :
    runOn desk ["encode", "tag.json", "--density", "300"] =
      ({ code := 0, stdout := "^XA\n^MMT\n^PW300\n^CF0,46\n^FDé^FS\n^XZ\n" }, desk) ∧
    (runOn desk ["encode", "tag.json", "-o", "./tag.json", "--density", "300"]).2.content?
      ["tag.json"] = some (atDensity tag (some .dpi300)).zpl.toUTF8.data.toList ∧
    (runOn desk ["print", "tag.json", "--device", "tag.json"]).2.content? ["tag.json"] =
      some (tag.render.toUTF8.data.toList ++ tag.zpl.toUTF8.data.toList) := by
  have hfile : IsPath "tag.json" := by decide
  have hnowhere : ∀ path ∈ none, IsPath path := nofun
  have houtput : ∀ path ∈ some "./tag.json", IsPath path := by decide
  have hdevice : ∀ path ∈ some "tag.json", IsPath path := by decide
  have hdensity : SpelledDensity (some "300") (some .dpi300) := ⟨by decide, rfl⟩
  have hsame : SpelledDensity none none := ⟨nofun, rfl⟩
  have hzpl : (atDensity tag (some .dpi300)).zpl =
      "^XA\n^MMT\n^PW300\n^CF0,46\n^FDé^FS\n^XZ\n" := by
    decide +kernel
  obtain ⟨hstdout, hreplaced, -⟩ := outputs_agree holds_tag (some .dpi300)
  obtain ⟨-, -, happended⟩ := outputs_agree holds_tag none
  refine ⟨?_, ?_, ?_⟩
  · rw [← hzpl]
    exact hstdout _ (Task.ofArguments_encode hfile hnowhere hdensity)
  · obtain ⟨files', hrun, hcontent, -⟩ := hreplaced _ "./tag.json" ["tag.json"]
      (Task.ofArguments_encode hfile houtput hdensity) rfl
    exact (congrArg (·.2.content? ["tag.json"]) hrun).trans hcontent
  · obtain ⟨files', stdout, hrun, hcontent, -⟩ := happended _ "tag.json" ["tag.json"]
      (Task.ofArguments_print hfile hdevice hsame) rfl
    exact (congrArg (·.2.content? ["tag.json"]) hrun).trans hcontent

/-- Why a task cannot be done. -/
inductive Task.Obstructed (files : Files) (task : Task) : Prop
  | unread : files.Unread task.file → Obstructed files task
  | dimensionless {png : String} {l : Label} :
      task = .preview task.file png → files.Holds task.file l →
        l.width = none ∨ l.height = none → Obstructed files task
  | notPicture {png : String} {fault : PictureFault} :
      task = .preview task.file png → Path.checkPictureExtension png = .error fault →
        Obstructed files task
  | unopenable {path : String} {e : SystemError} :
      task.output? = some path → files.resolveToWrite path = .error e → Obstructed files task

section

variable {files : Files} {task : Task}

theorem performedOn_unopenable {l : Label} {path : String} {e : SystemError}
    (hl : files.Holds task.file l) (houtput : task.output? = some path)
    (herror : files.resolveToWrite path = .error e) :
    ∃ failure, task.performedOn files = ((.error failure, {}), files) := by
  cases task with
  | encode file output density =>
    change files.Holds file l at hl
    cases houtput
    rw [performedOn_encode hl]
    dsimp only
    rw [herror]
    exact ⟨_, rfl⟩
  | preview file png =>
    change files.Holds file l at hl
    cases houtput
    rw [performedOn_preview hl, Files.after_savePicture, herror]
    cases l.preview with
    | error failure => exact ⟨failure, rfl⟩
    | ok canvas => cases Path.checkPictureExtension path <;> exact ⟨_, rfl⟩
  | print file device density =>
    change files.Holds file l at hl
    cases houtput
    rw [performedOn_print hl, herror]
    exact ⟨_, rfl⟩

theorem performedOn_obstructed (h : task.Obstructed files) :
    ∃ failure, task.performedOn files = ((.error failure, {}), files) := by
  -- whatever the obstacle is, a document that cannot be read is found first
  rcases files.holds_or_unread task.file with ⟨l, hl⟩ | hunread
  · cases h with
    | unread hunread => exact performedOn_unread hunread
    | dimensionless htask hholds hmissing =>
      rw [htask, performedOn_preview hholds, Files.after_savePicture,
        Label.preview_eq_error hmissing]
      exact ⟨_, rfl⟩
    | notPicture htask hfault =>
      rw [htask, performedOn_preview hl, Files.after_savePicture, hfault]
      cases l.preview with
      | error failure => exact ⟨failure, rfl⟩
      | ok canvas => exact ⟨_, rfl⟩
    | unopenable houtput herror => exact performedOn_unopenable hl houtput herror
  · exact performedOn_unread hunread

theorem performedOn_unobstructed (h : ¬ task.Obstructed files) :
    ∃ screen files', task.performedOn files = ((.ok (), screen), files') := by
  rcases files.holds_or_unread task.file with ⟨l, hl⟩ | hunread
  · have hopens {path : String} (houtput : task.output? = some path) :
        ∃ place, files.resolveToWrite path = .ok place := by
      cases hplace : files.resolveToWrite path with
      | error e => exact absurd (.unopenable houtput hplace) h
      | ok place => exact ⟨place, rfl⟩
    cases task with
    | encode file output density =>
      change files.Holds file l at hl
      rw [performedOn_encode hl]
      cases output with
      | none => exact ⟨_, _, rfl⟩
      | some path =>
        obtain ⟨place, hplace⟩ := hopens rfl
        dsimp only
        rw [hplace]
        exact ⟨_, _, rfl⟩
    | preview file png =>
      change files.Holds file l at hl
      obtain ⟨place, hplace⟩ := hopens rfl
      obtain ⟨canvas, hcanvas⟩ :=
        Label.exists_preview fun hmissing => h (.dimensionless rfl hl hmissing)
      rw [performedOn_preview hl, Files.after_savePicture, hcanvas]
      cases hpath : Path.checkPictureExtension png with
      | error fault => exact absurd (.notPicture rfl hpath) h
      | ok =>
        dsimp only
        rw [hplace]
        exact ⟨_, _, rfl⟩
    | print file path density =>
      change files.Holds file l at hl
      obtain ⟨place, hplace⟩ := hopens rfl
      rw [performedOn_print hl, hplace]
      exact ⟨_, _, rfl⟩
  · exact absurd (.unread hunread) h

end

/-- A run ends with a failure exactly if its task cannot be done. It then prints nothing, and the
files are as they were. -/
theorem failure_leaves_no_trace (files : Files) (arguments : List String) :
    ((runOn files arguments).1.code = 1 ↔
      ∃ task, Task.ofArguments arguments = .ok task ∧ task.Obstructed files) ∧
    ((runOn files arguments).1.code = 1 →
      (runOn files arguments).1.stdout = "" ∧ (runOn files arguments).2 = files) := by
  cases htask : Task.ofArguments arguments with
  | error stop =>
    have hcode : (runOn files arguments).1.code ≠ 1 := by
      rw [runOn_stop htask]
      exact stop.code_outcome_ne
    exact ⟨⟨fun h => absurd h hcode, fun ⟨_, h, _⟩ => nomatch h⟩, fun h => absurd h hcode⟩
  | ok task =>
    by_cases h : task.Obstructed files
    · obtain ⟨failure, hafter⟩ := performedOn_obstructed h
      rw [runOn_task htask, hafter]
      exact ⟨⟨fun _ => ⟨task, rfl, h⟩, fun _ => rfl⟩, fun _ => ⟨rfl, rfl⟩⟩
    · obtain ⟨screen, files', hafter⟩ := performedOn_unobstructed h
      rw [runOn_task htask, hafter]
      refine ⟨⟨fun hcode => absurd hcode (by simp), ?_⟩, fun hcode => absurd hcode (by simp)⟩
      rintro ⟨task', htask', h'⟩
      cases htask'
      exact absurd h' h

/-- The tag has no height, so there is no picture of it, and the one from before is kept. The device
is there, and cannot be opened. -/
theorem failure_leaves_no_trace_tag :
    (runOn desk ["preview", "tag.json", "--png", "tag.png"]).1.code = 1 ∧
    (runOn desk ["preview", "tag.json", "--png", "tag.png"]).1.stdout = "" ∧
    (runOn desk ["preview", "tag.json", "--png", "tag.png"]).2.content? ["tag.png"] =
      some [1, 2] ∧
    (runOn desk ["print", "tag.json", "--device", "lp0"]).1.code = 1 ∧
    (runOn desk ["print", "tag.json", "--device", "lp0"]).2.content? ["lp0"] = some [3] := by
  obtain ⟨hpreview, hkept⟩ :=
    failure_leaves_no_trace desk ["preview", "tag.json", "--png", "tag.png"]
  obtain ⟨hprint, hunsent⟩ := failure_leaves_no_trace desk ["print", "tag.json", "--device", "lp0"]
  have hundrawn := hpreview.mpr
    ⟨.preview "tag.json" "tag.png", rfl, .dimensionless rfl holds_tag (.inr rfl)⟩
  have hdenied := hprint.mpr
    ⟨.print "tag.json" "lp0" none, rfl, .unopenable (e := .permissionDenied) rfl rfl⟩
  refine ⟨hundrawn, (hkept hundrawn).1, ?_, hdenied, ?_⟩
  · rw [(hkept hundrawn).2]
    rfl
  · rw [(hunsent hdenied).2]
    rfl

end CommandLine

end LabelPress

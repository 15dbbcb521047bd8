import LabelPress.Output.Device
import LabelPress.Output.Files
import LabelPress.Output.Picture

/-! Programs on files as a value. Each step of a program has one equation, which says what it gives
and which file it changes; a program that is stopped leaves the files as its last step left them. -/
namespace LabelPress

theorem Label.preview_eq_error {l : Label} (h : l.width = none ∨ l.height = none) :
    l.preview = .error .previewUnavailable := by
  have hnone : l.preview? = none := by
    unfold preview?
    rcases h with hwidth | hheight
    · rw [hwidth]
      rfl
    · rw [hheight]
      cases l.width <;> rfl
  unfold preview
  rw [hnone]

theorem Label.exists_preview {l : Label} (h : ¬ (l.width = none ∨ l.height = none)) :
    ∃ canvas, l.preview = .ok canvas := by
  obtain ⟨hwidth, hheight⟩ := not_or.mp h
  obtain ⟨width, hwidth⟩ := Option.ne_none_iff_exists'.mp hwidth
  obtain ⟨height, hheight⟩ := Option.ne_none_iff_exists'.mp hheight
  unfold preview preview?
  rw [hwidth, hheight]
  exact ⟨_, rfl⟩

namespace Files

def opened (files : Files) (place : Place) : Files :=
  if (files.content? place).isSome then files else files.put place (.file [])

theorem content?_opened (files : Files) (place other : Place) :
    (files.opened place).content? other =
      if other = place then some ((files.content? place).getD []) else files.content? other := by
  unfold opened
  cases h : files.content? place with
  | some bytes =>
    by_cases ho : other = place
    · subst ho
      simpa using h
    · simp [ho]
  | none => simp

theorem node?_opened_of_ne {files : Files} {place other : Place} (h : other ≠ place) :
    (files.opened place).node? other = files.node? other := by
  unfold opened
  split
  · rfl
  · rw [node?_put, if_neg h]

theorem node?_append_of_ne {files : Files} {place other : Place} (bytes : List UInt8)
    (h : other ≠ place) : (files.append place bytes).node? other = files.node? other := by
  unfold append
  rw [node?_put, if_neg h]

theorem openToAppend_eq (files : Files) (path : String) :
    files.openToAppend path = (files.resolveToWrite path).map fun p => (p, files.opened p) := by
  unfold openToAppend opened
  cases files.resolveToWrite path with
  | error e => rfl
  | ok place =>
    dsimp only [bind, Except.bind, Except.map]
    cases files.content? place <;> rfl

theorem replace_eq (files : Files) (path : String) (bytes : List UInt8) :
    files.replace path bytes =
      (files.resolveToWrite path).map fun p => files.put p (.file bytes) := by
  unfold replace
  cases files.resolveToWrite path <;> rfl

/-- What a program gives that starts with these files, and the files that it leaves. -/
def after {α : Type} (files : Files) (program : ExceptT Failure (StateM Files) α) :
    Except Failure α × Files :=
  program.run.run files

variable {α β : Type} (files : Files)

theorem after_ofExcept (x : Except Failure α) : files.after (ofExcept x) = (x, files) := by
  cases x <;> rfl

theorem after_attempt (cause : SystemError → Failure) (step : StateM Files (Except SystemError α)) :
    files.after (FileSystem.attempt cause step) =
      ((step.run files).1.mapError cause, (step.run files).2) := rfl

theorem after_bind (first : ExceptT Failure (StateM Files) α)
    (rest : α → ExceptT Failure (StateM Files) β) :
    files.after (first >>= rest) =
      match files.after first with
      | (.ok a, between) => between.after (rest a)
      | (.error e, between) => (.error e, between) := by
  unfold after
  rw [ExceptT.run_bind, StateT.run_bind]
  rcases first.run.run files with ⟨e | a, between⟩ <;> rfl

theorem after_read (cause : SystemError → Failure) (path : String) :
    files.after (FileSystem.attempt cause (FileSystem.read path)) =
      ((files.read path).mapError cause, files) := rfl

theorem run_replace (path : String) (bytes : List UInt8) :
    (FileSystem.replace path bytes : StateM Files _).run files =
      match files.resolveToWrite path with
      | .error e => (.error e, files)
      | .ok place => (.ok (), files.put place (.file bytes)) := by
  dsimp only [StateT.run, FileSystem.replace]
  rw [replace_eq]
  cases files.resolveToWrite path <;> rfl

theorem run_openToAppend (path : String) :
    (FileSystem.openToAppend path : StateM Files _).run files =
      match files.resolveToWrite path with
      | .error e => (.error e, files)
      | .ok place => (.ok place, files.opened place) := by
  dsimp only [StateT.run, FileSystem.openToAppend]
  rw [openToAppend_eq]
  cases files.resolveToWrite path <;> rfl

theorem after_replace (cause : SystemError → Failure) (path : String) (bytes : List UInt8) :
    files.after (FileSystem.attempt cause (FileSystem.replace path bytes)) =
      match files.resolveToWrite path with
      | .error e => (.error (cause e), files)
      | .ok place => (.ok (), files.put place (.file bytes)) := by
  rw [after_attempt, run_replace]
  cases files.resolveToWrite path <;> rfl

theorem after_connect (path : String) :
    files.after (Device.connect path) =
      match files.resolveToWrite path with
      | .error e => (.error (.deviceNotOpened path e), files)
      | .ok place => (.ok place, files.opened place) := by
  unfold Device.connect
  rw [after_attempt, run_openToAppend]
  cases files.resolveToWrite path <;> rfl

theorem after_send (place : Place) (l : Label) :
    files.after (Device.send place l) = (.ok (), files.append place (Text.bytes l.zpl)) := rfl

theorem after_savePicture (l : Label) (path : String) :
    files.after (l.savePicture path) =
      match l.preview with
      | .error e => (.error e, files)
      | .ok canvas =>
        match Path.checkPictureExtension path with
        | .error fault => (.error (.picture path fault), files)
        | .ok () =>
          match files.resolveToWrite path with
          | .error e => (.error (.picture path (.system e)), files)
          | .ok place => (.ok (), files.put place (.file (Png.encode canvas))) := by
  unfold Label.savePicture
  rw [after_bind, after_ofExcept]
  cases l.preview with
  | error e => rfl
  | ok canvas =>
    dsimp only
    rw [after_bind, after_ofExcept]
    cases Path.checkPictureExtension path with
    | error fault => rfl
    | ok => exact after_replace files _ path _

end Files

end LabelPress

import LabelPress.Output.Session
import LabelPress.Proofs.Output.Files

/-! Sessions with devices on files as a value. Every file holds what it held at first and then,
in order, what was written while the device was open on it. -/
namespace LabelPress.Session

def Request.data? : Request → Option (List UInt8)
  | connect _ => none
  | write data => some data
  | send l => some l.zpl.toUTF8.data.toList
  | savePicture _ _ => none

/-- A picture can only be saved of a label with both dimensions, to a path with the extension of a
picture. -/
def Request.SavesNothing : Request → Prop
  | savePicture path l =>
    l.width = none ∨ l.height = none ∨ ∃ fault, Path.checkPictureExtension path = .error fault
  | _ => True

/-- A request that was performed, with the place of the open device before it and after it. -/
structure Event where
  request : Request
  before : Option Place
  after : Option Place
  outcome : Except Fault Unit

namespace Event

def opens (e : Event) (place : Place) : Bool :=
  match e.request, e.outcome with
  | .connect _, .ok () => e.after = some place
  | _, _ => false

def written (e : Event) (place : Place) : List UInt8 :=
  match e.outcome with
  | .ok () => if e.before = some place then e.request.data?.getD [] else []
  | .error _ => []

theorem opens_eq_false {e : Event} {data : List UInt8} (h : e.request.data? = some data)
    (place : Place) : e.opens place = false := by
  unfold opens
  cases hr : e.request with
  | connect path => rw [hr] at h; cases h
  | _ => rfl

end Event

/-- All that a request can do to files. -/
inductive Step (files : Files) : Event → Files → Prop
  | opened {path : String} {place : Place} {before : Option Place} :
      files.resolveToWrite path = .ok place →
        Step files ⟨.connect path, before, some place, .ok ()⟩ (files.opened place)
  | notOpened {path : String} {e : SystemError} {before : Option Place} :
      files.resolveToWrite path = .error e →
        Step files ⟨.connect path, before, none, .error (.failed (.deviceNotOpened path e))⟩ files
  | written {r : Request} {data : List UInt8} {place : Place} :
      r.data? = some data → Step files ⟨r, some place, some place, .ok ()⟩ (files.append place data)
  | notConnected {r : Request} {data : List UInt8} :
      r.data? = some data → Step files ⟨r, none, none, .error .notConnected⟩ files
  | saved {path : String} {l : Label} {device : Option Place} {canvas : Canvas} {place : Place} :
      l.preview = .ok canvas → Path.checkPictureExtension path = .ok () →
        files.resolveToWrite path = .ok place →
          Step files ⟨.savePicture path l, device, device, .ok ()⟩
            (files.put place (.file (Png.encode canvas)))
  | notSaved {path : String} {l : Label} {device : Option Place} {failure : Failure} :
      Step files ⟨.savePicture path l, device, device, .error (.failed failure)⟩ files

variable (s : Session (StateM Files)) (files : Files)

def next (r : Request) : (Session (StateM Files) × Except Fault Unit) × Files :=
  (s.perform r).run files

def event (r : Request) : Event :=
  ⟨r, s.device, (s.next files r).1.1.device, (s.next files r).1.2⟩

theorem next_connect (path : String) :
    s.next files (.connect path) =
      match files.after (Device.connect path) with
      | (.error failure, after) => (({ device := none }, .error (.failed failure)), after)
      | (.ok place, after) => (({ device := some place }, .ok ()), after) := by
  unfold next perform Files.after
  rw [StateT.run_bind]
  rcases (Device.connect (m := StateM Files) path).run.run files with ⟨failure | place, after⟩
  · rfl
  · rfl

theorem next_savePicture (path : String) (l : Label) :
    s.next files (.savePicture path l) =
      match files.after (l.savePicture path) with
      | (result, after) => ((s, outcome result), after) := rfl

theorem next_data {r : Request} {data : List UInt8} (h : r.data? = some data) :
    s.next files r =
      match s.device with
      | none => ((s, .error .notConnected), files)
      | some place => ((s, .ok ()), files.append place data) := by
  obtain ⟨device⟩ := s
  cases r with
  | connect path => cases h
  | write bytes => cases h; cases device <;> rfl
  | send l => cases h; cases device <;> rfl
  | savePicture path l => cases h

theorem step_data {r : Request} {data : List UInt8} (h : r.data? = some data) :
    Step files (s.event files r) (s.next files r).2 := by
  unfold event
  rw [next_data s files h]
  obtain ⟨device⟩ := s
  cases device with
  | none => exact .notConnected h
  | some place => exact .written h

theorem step_next (r : Request) : Step files (s.event files r) (s.next files r).2 := by
  cases r with
  | connect path =>
    unfold event
    rw [next_connect, Files.after_connect]
    cases h : files.resolveToWrite path with
    | error e => exact .notOpened h
    | ok place => exact .opened h
  | write data => exact step_data s files rfl
  | send l => exact step_data s files rfl
  | savePicture path l =>
    unfold event
    rw [next_savePicture, Files.after_savePicture]
    cases hcanvas : l.preview with
    | error failure => exact .notSaved
    | ok canvas =>
      cases hpath : Path.checkPictureExtension path with
      | error fault => exact .notSaved
      | ok =>
        cases hplace : files.resolveToWrite path with
        | error e => exact .notSaved
        | ok place => exact .saved hcanvas hpath hplace

section

variable {files} {files' : Files} {e : Event}

theorem Step.eq_of_failed {fault : Fault} (h : Step files e files')
    (hfailed : e.outcome = .error fault) : files' = files := by
  cases h with
  | opened _ => cases hfailed
  | written _ => cases hfailed
  | saved _ _ _ => cases hfailed
  | notOpened _ => rfl
  | notConnected _ => rfl
  | notSaved => rfl

theorem Step.not_saved {path : String} {l : Label} (h : Step files e files')
    (hnothing : e.request.SavesNothing) (hpicture : e.request = .savePicture path l) :
    ∃ fault, e.outcome = .error fault := by
  cases h with
  | opened _ => cases hpicture
  | notOpened _ => cases hpicture
  | written hdata => cases hpicture; cases hdata
  | notConnected hdata => cases hpicture; cases hdata
  | notSaved => exact ⟨_, rfl⟩
  | saved hcanvas hpath _ =>
    rcases or_assoc.mpr hnothing with hmissing | ⟨fault, hfault⟩
    · rw [Label.preview_eq_error hmissing] at hcanvas
      cases hcanvas
    · rw [hpath] at hfault
      cases hfault

theorem Step.node?_eq (h : Step files e files') (hnothing : e.request.SavesNothing)
    {place : Place} (helsewhere : e.after ≠ some place) :
    files'.node? place = files.node? place := by
  cases h with
  | opened _ => exact Files.node?_opened_of_ne fun heq => helsewhere (congrArg some heq.symm)
  | written _ => exact Files.node?_append_of_ne _ fun heq => helsewhere (congrArg some heq.symm)
  | saved hcanvas hpath hplace =>
    obtain ⟨fault, hfault⟩ := (Step.saved hcanvas hpath hplace).not_saved hnothing rfl
    cases hfault
  | notOpened _ => rfl
  | notConnected _ => rfl
  | notSaved => rfl

def Present (files : Files) (device : Option Place) : Prop :=
  ∀ place, device = some place → (files.content? place).isSome

/-- The content of a file after a request, given what was there: nothing of it is lost, and only
what was written to it comes behind it. -/
theorem Step.content?_eq (h : Step files e files') (hnothing : e.request.SavesNothing)
    (hpresent : Present files e.before) (place : Place) :
    files'.content? place =
      if (files.content? place).isSome || e.opens place then
        some ((files.content? place).getD [] ++ e.written place)
      else none := by
  have hsame : (if (files.content? place).isSome then some ((files.content? place).getD [])
      else none) = files.content? place := by
    cases files.content? place <;> rfl
  cases h with
  | @opened path other before hplace =>
    rw [Files.content?_opened]
    by_cases hother : place = other
    · simp [Event.opens, Event.written, Request.data?, hother]
    · simp [Event.opens, Event.written, Request.data?, hother, Ne.symm hother, hsame]
  | @written r data other hdata =>
    rw [Files.content?_append]
    rw [Event.opens_eq_false hdata]
    by_cases hother : place = other
    · simp [Event.written, hdata, hother, hpresent other rfl]
    · simp [Event.written, hother, Ne.symm hother, hsame]
  | saved hcanvas hpath hplace =>
    obtain ⟨fault, hfault⟩ := (Step.saved hcanvas hpath hplace).not_saved hnothing rfl
    cases hfault
  | notOpened _ => simp [Event.opens, Event.written, hsame]
  | notConnected hdata =>
    rw [Event.opens_eq_false hdata]
    simp [Event.written, hsame]
  | notSaved => simp [Event.opens, Event.written, hsame]

theorem Step.present (h : Step files e files') (hnothing : e.request.SavesNothing)
    (hpresent : Present files e.before) : Present files' e.after := by
  intro place hplace
  rw [h.content?_eq hnothing hpresent]
  cases h with
  | opened _ =>
    cases hplace
    simp [Event.opens]
  | written _ => simp [hpresent place hplace]
  | saved _ _ _ => simp [hpresent place hplace]
  | notOpened _ => cases hplace
  | notConnected _ => cases hplace
  | notSaved => simp [hpresent place hplace]

end

def history : Session (StateM Files) → Files → List Request → List Event × Files
  | _, files, [] => ([], files)
  | s, files, r :: rs =>
    let ((s', _), files') := s.next files r
    let (events, last) := history s' files' rs
    (s.event files r :: events, last)

theorem history_cons (r : Request) (rs : List Request) :
    s.history files (r :: rs) =
      (s.event files r :: ((s.next files r).1.1.history (s.next files r).2 rs).1,
        ((s.next files r).1.1.history (s.next files r).2 rs).2) := rfl

theorem written_eq_nil {e : Event} {place : Place} (hpresent : Present files e.before)
    (habsent : (files.content? place).isSome = false) : e.written place = [] := by
  have hbefore : e.before ≠ some place := by
    intro heq
    rw [hpresent place heq] at habsent
    cases habsent
  unfold Event.written
  split
  · exact if_neg hbefore
  · rfl

theorem content?_history (requests : List Request) (hpictures : ∀ r ∈ requests, r.SavesNothing)
    (hpresent : Present files s.device) (place : Place) :
    (s.history files requests).2.content? place =
      if (files.content? place).isSome || (s.history files requests).1.any (·.opens place) then
        some ((files.content? place).getD [] ++
          (s.history files requests).1.flatMap (·.written place))
      else none := by
  induction requests generalizing s files with
  | nil =>
    change files.content? place = _
    cases files.content? place <;> simp [history]
  | cons r rs ih =>
    rw [List.forall_mem_cons] at hpictures
    have hstep := s.step_next files r
    have hcontent := hstep.content?_eq hpictures.1 hpresent place
    have hrest := ih (s.next files r).1.1 (s.next files r).2 hpictures.2
      (hstep.present hpictures.1 hpresent)
    rw [history_cons, hrest, List.any_cons, List.flatMap_cons, hcontent]
    -- A file that is not there after the first request got nothing from it.
    cases hthere : files.content? place with
    | some bytes => simp
    | none =>
      cases (s.event files r).opens place with
      | true => simp
      | false =>
        have hwritten : (s.event files r).written place = [] :=
          written_eq_nil files hpresent (by rw [hthere]; rfl)
        simp [hwritten]

/-- The laws of one request, from the files before it to the files after it. -/
structure Lawful (files : Files) (e : Event) (files' : Files) : Prop where
  eq_of_failed : ∀ fault, e.outcome = .error fault → files' = files
  node?_elsewhere : e.request.SavesNothing →
    ∀ place, e.after ≠ some place → files'.node? place = files.node? place
  kept : e.request.SavesNothing → ∀ place bytes, files.content? place = some bytes →
    ∃ more, files'.content? place = some (bytes ++ more)
  /-- The device before is closed, also when the other one cannot be opened. -/
  after_connect : ∀ path, e.request = .connect path →
    e.after = (files.resolveToWrite path).toOption ∧ (e.outcome = .ok () ↔ e.after.isSome)
  after_other : (∀ path, e.request ≠ .connect path) → e.after = e.before
  outcome_data : e.request.data? ≠ none → (e.outcome = .ok () ↔ e.before.isSome)
  not_saved : e.request.SavesNothing → ∀ path l, e.request = .savePicture path l →
    ∃ fault, e.outcome = .error fault

theorem Step.exists_append {files files' : Files} {e : Event} (h : Step files e files')
    (hnothing : e.request.SavesNothing) {place : Place} {bytes : List UInt8}
    (hcontent : files.content? place = some bytes) :
    ∃ more, files'.content? place = some (bytes ++ more) := by
  by_cases hplace : e.after = some place
  · cases h with
    | opened _ =>
      cases hplace
      exact ⟨[], by rw [Files.content?_opened, if_pos rfl, hcontent, List.append_nil]; rfl⟩
    | written _ =>
      cases hplace
      exact ⟨_, by rw [Files.content?_append, if_pos rfl, hcontent]; rfl⟩
    | saved hcanvas hpath hsaved =>
      obtain ⟨fault, hfault⟩ := (Step.saved hcanvas hpath hsaved).not_saved hnothing rfl
      cases hfault
    | notOpened _ => cases hplace
    | notConnected _ => cases hplace
    | notSaved => exact ⟨[], by rw [hcontent, List.append_nil]⟩
  · refine ⟨[], ?_⟩
    unfold Files.content? at hcontent ⊢
    rw [h.node?_eq hnothing hplace, List.append_nil]
    exact hcontent

theorem Step.lawful {files files' : Files} {e : Event} (h : Step files e files') :
    Lawful files e files' where
  eq_of_failed := fun _ => h.eq_of_failed
  node?_elsewhere := fun hnothing _ => h.node?_eq hnothing
  kept := fun hnothing _ _ => h.exists_append hnothing
  after_connect := by
    intro path hpath
    cases h with
    | opened hplace => cases hpath; simp [hplace, Except.toOption]
    | notOpened hplace => cases hpath; simp [hplace, Except.toOption]
    | written hdata => cases hpath; cases hdata
    | notConnected hdata => cases hpath; cases hdata
    | saved _ _ _ => cases hpath
    | notSaved => cases hpath
  after_other := by
    intro hother
    cases h with
    | @opened path _ _ _ => exact absurd rfl (hother path)
    | @notOpened path _ _ _ => exact absurd rfl (hother path)
    | _ => rfl
  outcome_data := by
    intro hdata
    cases h with
    | written _ => simp
    | notConnected _ => simp
    | _ => exact absurd rfl hdata
  not_saved := fun hnothing _ _ => h.not_saved hnothing

/-- In a session that starts without a device, a file is what it was at first, or empty if the
session created it, and then what the successful writes put behind it while the device was open on
it. Every single request keeps the laws. -/
theorem appends_only (files : Files) (requests : List Request)
    (hpictures : ∀ r ∈ requests, r.SavesNothing) :
    (∀ place, (history {} files requests).2.content? place =
      if (files.content? place).isSome || (history {} files requests).1.any (·.opens place) then
        some ((files.content? place).getD [] ++
          (history {} files requests).1.flatMap (·.written place))
      else none) ∧
    ∀ (s : Session (StateM Files)) (now : Files) (r : Request),
      Lawful now (s.event now r) (s.next now r).2 := by
  constructor
  · intro place
    exact content?_history {} files requests hpictures (fun _ h => nomatch h) place
  · intro s now r
    exact (s.step_next now r).lawful

def shelf : Files := ({} : Files).put ["log"] (.file "old\n".toUTF8.data.toList)

/-- A file is opened twice by different paths. In between the device is lost, because a file is no
directory. -/
def shift : List Request :=
  [ .write [1],
    .connect "log",
    .write "~JA\n".toUTF8.data.toList,
    .savePicture "log.png" {},
    .connect "log/lp0",
    .write [2],
    .connect "./log",
    .send {} ]

theorem appends_only_shift :
    (∀ r ∈ shift, r.SavesNothing) ∧
      (history {} shelf shift).2.content? ["log"] =
        some "old\n~JA\n^XA\n^MMT\n^XZ\n".toUTF8.data.toList := by
  have hpictures : ∀ r ∈ shift, r.SavesNothing := by
    simp [shift, Request.SavesNothing]
  refine ⟨hpictures, ?_⟩
  rw [(appends_only shelf shift hpictures).1 ["log"]]
  decide +kernel

end LabelPress.Session

import LabelPress.CommandLine.Usage
import LabelPress.Label.Document
import LabelPress.Output.Picture

/-!
Runs of the program. A run reads one label document and has one output: what it prints, a file that
it replaces, a picture, or a device that it appends to. Nothing is written or printed before all of
the document was read.
-/

namespace LabelPress.CommandLine

structure Screen where
  stdout : String := ""
  stderr : String := ""
deriving DecidableEq, Repr

/-- How a run ends: 0 for success, 1 for a failure, 2 for wrong arguments. -/
structure Outcome extends Screen where
  code : Nat
deriving DecidableEq, Repr

/-- Work that prints as it goes. What was printed stays there when the work fails. -/
abbrev Printing (m : Type → Type) : Type → Type := ExceptT Failure (StateT Screen m)

variable {m : Type → Type} [Monad m]

def silently {α : Type} (work : ExceptT Failure m α) : Printing m α :=
  ExceptT.mk (StateT.lift work.run)

def say (text : String) : Printing m Unit :=
  modify fun screen => { screen with stdout := screen.stdout ++ text }

variable [FileSystem m]

def load (file : String) (density : Option Density) : ExceptT Failure m Label := do
  let bytes ← FileSystem.attempt (fun e => .stream (.system e)) (FileSystem.read file)
  match Text.ofBytes? bytes with
  | none => throw (.stream .notText)
  | some text =>
    let l ← ofExcept ((Label.ofDocument text).mapError .document)
    match density with
    | none => return l
    | some d => return l.withDensity d

def Task.perform : Task → Printing m Unit
  | .encode file output density => do
    let l ← silently (load file density)
    match output with
    | none => say l.zpl
    | some path =>
      silently
        (FileSystem.attempt (fun e => .stream (.system e))
          (FileSystem.replace path (Text.bytes l.zpl)))
  | .preview file png => do
    let l ← silently (load file none)
    silently (l.savePicture png)
    say ("Saved preview to " ++ png ++ "\n")
  | .print file path density => do
    let l ← silently (load file density)
    let device ← silently (Device.connect path)
    silently (device.send l)
    say ("Sent " ++ file ++ " to " ++ path ++ "\n")

def Stop.outcome : Stop → Outcome
  | .help verb => { code := 0, stdout := helpText verb }
  | .version => { code := 0, stdout := versionLine }
  | .misused fault => { code := 2, stderr := "error: " ++ fault.message ++ "\n" }

def run (arguments : List String) : m Outcome := do
  match Task.ofArguments arguments with
  | .error stop => return stop.outcome
  | .ok task =>
    match ← task.perform.run.run {} with
    | (.ok (), screen) => return { toScreen := screen, code := 0 }
    | (.error failure, screen) => return {
        code := 1
        stdout := screen.stdout
        stderr := screen.stderr ++ "Error: " ++ failure.message ++ "\n" }

end LabelPress.CommandLine

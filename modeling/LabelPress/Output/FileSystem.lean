import LabelPress.Failure

/-!
What the outputs need of a file system: whole files are read or replaced, and an open file is
appended to. It is stated for any monad, so that the same program runs on disk and on a value.
-/

namespace LabelPress

class FileSystem (m : Type → Type) where
  Handle : Type
  read : String → m (Except SystemError (List UInt8))
  /-- Empties the file at a path, or creates it, and writes the bytes to it. -/
  replace : String → List UInt8 → m (Except SystemError Unit)
  /-- Creates the file at a path if there is none, and keeps what it holds. -/
  openToAppend : String → m (Except SystemError Handle)
  append : Handle → List UInt8 → m (Except SystemError Unit)

namespace FileSystem

def attempt {m : Type → Type} [Functor m] {α : Type} (cause : SystemError → Failure)
    (step : m (Except SystemError α)) : ExceptT Failure m α :=
  ExceptT.mk ((Except.mapError cause) <$> step)

end FileSystem

end LabelPress

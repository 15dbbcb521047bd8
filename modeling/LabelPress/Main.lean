import LabelPress.CommandLine.Run

/-!
The program on the files of the machine.
-/

namespace LabelPress

def SystemError.ofIO : IO.Error → SystemError
  | .noFileOrDirectory _ code text
  | .interrupted _ code text
  | .alreadyExists _ code text
  | .invalidArgument _ code text
  | .permissionDenied _ code text
  | .resourceExhausted _ code text
  | .inappropriateType _ code text
  | .noSuchThing _ code text
  | .otherError code text
  | .resourceBusy code text
  | .resourceVanished code text
  | .unsupportedOperation code text
  | .hardwareFault code text
  | .unsatisfiedConstraints code text
  | .illegalOperation code text
  | .protocolError code text
  | .timeExpired code text => .ofCode code.toNat text
  | .unexpectedEof => .other 0 "unexpected end of file"
  | .userError text => .other 0 text

def systemStep (step : IO α) : IO (Except SystemError α) := do
  try return .ok (← step)
  catch e => return .error (.ofIO e)

def writeOut (handle : IO.FS.Handle) (bytes : List UInt8) : IO Unit := do
  handle.write ⟨bytes.toArray⟩
  handle.flush

instance : FileSystem IO where
  Handle := IO.FS.Handle
  read path := systemStep do
    let bytes ← (← IO.FS.Handle.mk path .read).readBinToEnd
    return bytes.data.toList
  replace path bytes := systemStep do
    writeOut (← IO.FS.Handle.mk path .write) bytes
  openToAppend path := systemStep (IO.FS.Handle.mk path .append)
  append handle bytes := systemStep (writeOut handle bytes)

end LabelPress

def main (arguments : List String) : IO UInt32 := do
  let outcome : LabelPress.CommandLine.Outcome ← LabelPress.CommandLine.run arguments
  let stdout ← IO.getStdout
  stdout.putStr outcome.stdout
  stdout.flush
  (← IO.getStderr).putStr outcome.stderr
  return outcome.code.toUInt32

import LabelPress.Json.Fault

/-!
What can fail around the encoder, as causes, and how each is worded. Encoding itself never fails.
-/

namespace LabelPress

inductive SystemError
  | notFound
  | permissionDenied
  | notDirectory
  | isDirectory
  | nameTooLong
  | nulInPath
  | other (code : Nat) (text : String)
deriving DecidableEq, Repr

namespace SystemError

def numbered (text : String) (code : Nat) : String :=
  text ++ " (os error " ++ toString code ++ ")"

def message : SystemError → String
  | notFound => numbered "No such file or directory" 2
  | permissionDenied => numbered "Permission denied" 13
  | notDirectory => numbered "Not a directory" 20
  | isDirectory => numbered "Is a directory" 21
  | nameTooLong => numbered "File name too long" 36
  | nulInPath => "file name contained an unexpected NUL byte"
  | other code text => numbered text code

/-- The error with a given number; the text counts only for numbers without a case of their
own. -/
def ofCode (code : Nat) (text : String) : SystemError :=
  match code with
  | 2 => notFound
  | 13 => permissionDenied
  | 20 => notDirectory
  | 21 => isDirectory
  | 36 => nameTooLong
  | _ => other code text

end SystemError

inductive StreamFault
  | system (error : SystemError)
  | notText
  | nothingTaken
  | full
  | flushRefused
deriving DecidableEq, Repr

def StreamFault.message : StreamFault → String
  | system error => error.message
  | notText => "stream did not contain valid UTF-8"
  | nothingTaken => "failed to write whole buffer"
  | full => "sink full"
  | flushRefused => "flush failed"

inductive PictureFault
  | noExtension
  | unknownExtension (extension : String)
  | system (error : SystemError)
deriving DecidableEq, Repr

def PictureFault.message : PictureFault → String
  | noExtension => "The image format could not be determined"
  | unknownExtension extension =>
    "The file extension `." ++ Text.quoted extension
      ++ "` was not recognized as an image format"
  | system error => error.message

inductive Failure
  /-- The label lacks a width or a height. -/
  | previewUnavailable
  | unknownDensity (text : String)
  | deviceNotOpened (path : String) (error : SystemError)
  | picture (path : String) (fault : PictureFault)
  | document (fault : Json.Fault)
  | stream (fault : StreamFault)
deriving DecidableEq, Repr

def Failure.message : Failure → String
  | previewUnavailable => "Preview is only available on labels with both width and height set"
  | unknownDensity text =>
    "Invalid density: '" ++ text ++ "' (expected one of 152, 203, 300, 600)"
  | deviceNotOpened path error =>
    "Transport error: Failed to open " ++ path ++ ": " ++ error.message
  | picture path fault => "Image error: " ++ path ++ ": " ++ fault.message
  | document fault => "JSON error: " ++ fault.message
  | stream fault => "I/O error: " ++ fault.message

end LabelPress

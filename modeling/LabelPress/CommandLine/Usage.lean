import LabelPress.CommandLine.Task

/-!
What the program says about itself and about wrong arguments.
-/

namespace LabelPress.CommandLine

def programName : String := "zpl-label"

def versionLine : String := programName ++ " 0.1.0\n"

def lines (ls : List String) : String := String.join (ls.map (· ++ "\n"))

def Flag.display (f : Flag) : String :=
  "--" ++ f.long
    ++ match f with
      | .output | .png => " <FILE>"
      | .device => " <DEVICE>"
      | .density => " <DENSITY>"
      | .verbose | .help | .version => ""

def Flag.about : Flag → String
  | .verbose => "Log encoder activity"
  | .help => "Print help"
  | .version => "Print version"
  | .output => "Output file (defaults to stdout)"
  | .png => "Output PNG file"
  | .device => "Printer device path (defaults to " ++ Device.standardPath ++ ")"
  | .density => "Override the document's printer density (152, 203, 300, 600)"

def Flag.helpLine (f : Flag) : String :=
  (match f.short? with
    | some c => "  -" ++ String.ofList [c] ++ ", "
    | none => "      ")
    ++ f.display ++ "  " ++ f.about

def Verb.about : Verb → String
  | .encode => "Encode a JSON label document to ZPL"
  | .preview => "Render a layout preview PNG"
  | .print => "Encode a label and send it to a printer device"

def helpText : Option Verb → String
  | none =>
    lines
      (["ZPL label encoder for thermal label printers", "",
          "Usage: " ++ programName ++ " [OPTIONS] <COMMAND>", "", "Commands:"]
        ++ (Named.all : List Verb).map (fun v => "  " ++ Named.name v ++ "  " ++ v.about)
        ++ ["  help  Print this message or the help of a command", "", "Options:"]
        ++ generalFlags.map Flag.helpLine)
  | some verb =>
    lines
      ([verb.about, "",
          "Usage: " ++ programName ++ " " ++ Named.name verb ++ " [OPTIONS] <FILE>", "",
          "Arguments:", "  <FILE>  JSON label document", "", "Options:"]
        ++ verb.flags.map Flag.helpLine)

def UsageFault.message : UsageFault → String
  | noCommand => "a command is required"
  | unknownCommand name => "unrecognized command '" ++ name ++ "'"
  | unknownFlag argument => "unexpected argument '" ++ argument ++ "'"
  | valueNotTaken flag => "'" ++ flag.display ++ "' takes no value"
  | valueMissing flag => "'" ++ flag.display ++ "' needs a value"
  | valueEmpty => "a path must not be empty"
  | densityUnknown text => (Failure.unknownDensity text).message
  | flagRepeated flag => "'" ++ flag.display ++ "' cannot be used twice"
  | operandNotTaken text => "unexpected argument '" ++ text ++ "'"
  | operandMissing => "a file is required"
  | flagMissing flag => "'" ++ flag.display ++ "' is required"

end LabelPress.CommandLine

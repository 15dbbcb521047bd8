import LabelPress.Named

/-!
The commands and the flags of the command line.
-/

namespace LabelPress.CommandLine

inductive Verb
  | encode
  | preview
  | print
deriving DecidableEq, Repr

instance : Named Verb where
  all := [.encode, .preview, .print]
  name
    | .encode => "encode"
    | .preview => "preview"
    | .print => "print"

inductive Flag
  /-- Asks for a log. It is accepted with every command, and no command keeps a log. -/
  | verbose
  | help
  | version
  | output
  | png
  | device
  | density
deriving DecidableEq, Repr

namespace Flag

def long : Flag → String
  | verbose => "verbose"
  | help => "help"
  | version => "version"
  | output => "output"
  | png => "png"
  | device => "device"
  | density => "density"

def short? : Flag → Option Char
  | verbose => some 'v'
  | help => some 'h'
  | version => some 'V'
  | output => some 'o'
  | png | device | density => none

def takesValue : Flag → Bool
  | verbose | help | version => false
  | output | png | device | density => true

end Flag

def generalFlags : List Flag := [.verbose, .help, .version]

def Verb.flags : Verb → List Flag
  | .encode => [.verbose, .help, .output, .density]
  | .preview => [.verbose, .help, .png]
  | .print => [.verbose, .help, .device, .density]

end LabelPress.CommandLine

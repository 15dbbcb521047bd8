import LabelPress.CommandLine.Argument
import LabelPress.Output.Device
import LabelPress.Printer.Density

/-!
What the arguments of one run ask for. Arguments count from left to right: the first of them that is
wrong, or that asks for help or for the version, decides.
-/

namespace LabelPress.CommandLine

inductive Task
  | encode (file : String) (output : Option String) (density : Option Density)
  | preview (file png : String)
  | print (file device : String) (density : Option Density)
deriving DecidableEq, Repr

inductive Stop
  | help (about : Option Verb)
  | version
  | misused (fault : UsageFault)
deriving DecidableEq, Repr

/-- What the arguments so far have given; each thing may be given once. -/
structure Given where
  verbose : Option Unit := none
  file : Option String := none
  output : Option String := none
  png : Option String := none
  device : Option String := none
  density : Option Density := none
deriving DecidableEq, Repr

def once {α : Type} (flag : Flag) (before : Option α) (now : Except UsageFault α) :
    Except Stop (Option α) :=
  match before, now with
  | some _, _ => .error (.misused (.flagRepeated flag))
  | none, .error fault => .error (.misused fault)
  | none, .ok a => .ok (some a)

def pathOf (text : String) : Except UsageFault String :=
  if text = "" then .error .valueEmpty else .ok text

def densityOf (text : String) : Except UsageFault Density :=
  match Density.ofText? text with
  | none => .error (.densityUnknown text)
  | some d => .ok d

namespace Given

/-- Before the command there are no operands. -/
def takeOperand (verb : Option Verb) (g : Given) (text : String) : Except Stop Given :=
  match verb, g.file with
  | some _, none =>
    match pathOf text with
    | .error fault => .error (.misused fault)
    | .ok file => .ok { g with file := some file }
  | _, _ => .error (.misused (.operandNotTaken text))

def take (verb : Option Verb) (g : Given) : Argument → Except Stop Given
  | .fault fault => .error (.misused fault)
  | .operand text => g.takeOperand verb text
  | .flag .help => .error (.help verb)
  | .flag .version => .error .version
  | .flag flag => do return { g with verbose := ← once flag g.verbose (.ok ()) }
  | .value .output text => do return { g with output := ← once .output g.output (pathOf text) }
  | .value .png text => do return { g with png := ← once .png g.png (pathOf text) }
  | .value .device text => do return { g with device := ← once .device g.device (pathOf text) }
  | .value .density text => do
    return { g with density := ← once .density g.density (densityOf text) }
  | .value flag _ => .error (.misused (.valueNotTaken flag))

def task (g : Given) (verb : Verb) : Except Stop Task :=
  match g.file with
  | none => .error (.misused .operandMissing)
  | some file =>
    match verb with
    | .encode => .ok (.encode file g.output g.density)
    | .preview =>
      match g.png with
      | none => .error (.misused (.flagMissing .png))
      | some png => .ok (.preview file png)
    | .print => .ok (.print file (g.device.getD Device.standardPath) g.density)

end Given

def given (verb : Option Verb) (known : List Flag) (arguments : List String) :
    Except Stop Given :=
  (Argument.ofTexts known arguments).foldlM (Given.take verb) {}

def helpAbout : List String → Stop
  | [] => .help none
  | name :: rest =>
    if name = "help" ∧ rest = [] then .help none
    else
      match Named.find? name, rest with
      | some verb, [] => .help (some verb)
      | some _, extra :: _ => .misused (.unknownCommand extra)
      | none, _ => .misused (.unknownCommand name)

namespace Task

/-- The first operand names the command; general flags may stand before it. -/
def ofArguments (arguments : List String) : Except Stop Task := do
  let isFlag := fun text => !Argument.isOperand text
  let general := arguments.takeWhile isFlag
  let _ ← given none generalFlags general
  match arguments.dropWhile isFlag with
  | [] => throw (.misused .noCommand)
  | name :: rest =>
    if "--" ∈ general then throw (.misused (.operandNotTaken name))
    else if name = "help" then throw (helpAbout rest)
    else
      match Named.find? name with
      | none => throw (.misused (.unknownCommand name))
      | some verb => (← given (some verb) verb.flags rest).task verb

end Task

end LabelPress.CommandLine

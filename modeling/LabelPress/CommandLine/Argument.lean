import LabelPress.CommandLine.Flag

/-!
Arguments as flags, values and operands. A flag is written `--name`, or with one letter as in `-v`;
letters of flags without a value can be joined, as in `-vo out`. A value follows as the next
argument, or in the same one after `=`; after a letter it can also follow at once. After `--` there
are only operands, and `-` alone is an operand.
-/

namespace LabelPress.CommandLine

inductive UsageFault
  | noCommand
  | unknownCommand (name : String)
  | unknownFlag (argument : String)
  | valueNotTaken (flag : Flag)
  | valueMissing (flag : Flag)
  | valueEmpty
  | densityUnknown (text : String)
  | flagRepeated (flag : Flag)
  | operandNotTaken (text : String)
  | operandMissing
  | flagMissing (flag : Flag)
deriving DecidableEq, Repr

inductive Argument
  | flag (f : Flag)
  | value (f : Flag) (text : String)
  | operand (text : String)
  /-- Nothing after a fault counts. -/
  | fault (f : UsageFault)
deriving DecidableEq, Repr

namespace Argument

def isOperand (text : String) : Bool :=
  match text.toList with
  | '-' :: _ :: _ => false
  | _ => true

/-- The flag letters of one argument, and the flag that waits for its value in the next one. -/
def ofLetters (known : List Flag) (whole : String) : List Char → List Argument × Option Flag
  | [] => ([], none)
  | c :: r =>
    match known.find? fun f => f.short? == some c with
    | none => ([.fault (.unknownFlag whole)], none)
    | some f =>
      if f.takesValue then
        match r with
        | [] => ([], some f)
        | '=' :: v => ([.value f (String.ofList v)], none)
        | v => ([.value f (String.ofList v)], none)
      else
        let (more, waiting) := ofLetters known whole r
        (.flag f :: more, waiting)

def ofName (known : List Flag) (whole : String) (text : List Char) :
    List Argument × Option Flag :=
  let name := String.ofList (text.takeWhile (· ≠ '='))
  match known.find? fun f => f.long == name with
  | none => ([.fault (.unknownFlag whole)], none)
  | some f =>
    match text.dropWhile (· ≠ '='), f.takesValue with
    | [], false => ([.flag f], none)
    | [], true => ([], some f)
    | _ :: _, false => ([.fault (.valueNotTaken f)], none)
    | _ :: v, true => ([.value f (String.ofList v)], none)

def ofText (known : List Flag) (text : String) : List Argument × Option Flag :=
  match text.toList with
  | '-' :: '-' :: name => ofName known text name
  | '-' :: c :: letters => ofLetters known text (c :: letters)
  | _ => ([.operand text], none)

def ofTexts (known : List Flag) : List String → List Argument
  | [] => []
  | "--" :: rest => rest.map .operand
  | text :: rest =>
    match ofText known text with
    | (found, none) => found ++ ofTexts known rest
    | (found, some f) =>
      match rest with
      | [] => found ++ [.fault (.valueMissing f)]
      | next :: rest =>
        if isOperand next then found ++ .value f next :: ofTexts known rest
        else found ++ [.fault (.valueMissing f)]

end Argument

end LabelPress.CommandLine

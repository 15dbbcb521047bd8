import LabelPress.Json.Field

/-!
Records read from the members of an object. A draft collects the fields seen so far; each key fills
its field, a second time is a fault, and a missing field is found out at the end. The same step
serves both for reading the text and for going through members that were read before.
-/

namespace LabelPress.Json

open Reader

/-- Where the value of the key at hand comes from. -/
structure Source (m : Type → Type) where
  fail : {α : Type} → Fault → m α
  value : {α : Type} → [FromText α] → [FromValue α] → m α
  ignore : m Unit

namespace Source

def text (depth : Nat) : Source Reader where
  fail := Reader.fail
  value := do colon; FromText.read depth
  ignore := do colon; skipValue

def ofValue (v : Value) : Source (Except Fault) where
  fail := .error
  value := FromValue.ofValue v
  ignore := .ok ()

def fill {m : Type → Type} [Monad m] {α : Type} [FromText α] [FromValue α] (source : Source m)
    (name : String) (field : Option α) : m (Option α) := do
  if field.isSome then source.fail (.duplicateField name)
  else pure (some (← source.value))

end Source

/-- The members with keys that a record does not know, in the order written. -/
abbrev Unclaimed := List (String × Value)

class Record (α : Type) where
  Draft : Type
  name : String
  empty : Draft
  put : {m : Type → Type} → [Monad m] → Source m → Draft → String → m Draft
  finish : Draft → Except Fault α

namespace Record

variable (α : Type) [Record α]

def ofMembers (ms : List (String × Value)) : Except Fault α := do
  let step (draft : Draft α) (m : String × Value) : Except Fault (Draft α) :=
    put (Source.ofValue m.2) draft m.1
  let draft ← ms.foldlM step empty
  finish draft

def ofValue : Value → Except Fault α
  | .object ms => ofMembers α ms
  | v => wrongType v (.record (name α))

def readMembers (depth : Nat) : Reader α := do
  let step (draft : Draft α) (key : String) : Reader (Draft α) := put (Source.text depth) draft key
  let draft ← members step empty
  ofExcept (finish draft)

def readObject (depth : Nat) : Reader α := do
  match ← peek with
  | none => fail .endInValue
  | some '{' => enter depth (readMembers α)
  | some _ => mismatch (.record (name α))

end Record

def fillFromText {α : Type} [FromText α] (depth : Nat) (name : String) (field : Option α) :
    Reader (Option α) := do
  if field.isSome then fail (.duplicateField name)
  else do
    colon
    pure (some (← FromText.read depth))

def required {α : Type} (name : String) : Option α → Except Fault α
  | some a => .ok a
  | none => .error (.missingField name)

/-- The next item of a list as a field, or the default if the list ends here. The end stays. -/
def itemOr {α : Type} [FromText α] (depth : Nat) (isFirst : Bool) (default : α) : Reader α := do
  match ← peek with
  | none => fail .endInList
  | some ']' => pure default
  | some ',' =>
    if isFirst then FromText.read depth
    else do
      eat
      match ← peek with
      | none => fail .endInValue
      | some ']' => fail .trailingComma
      | some _ => FromText.read depth
  | some _ => if isFirst then FromText.read depth else fail .expectedCommaOrBracket

def listEnd : Reader Unit := do
  match ← peek with
  | none => fail .endInList
  | some ']' => eat
  | some ',' => do
    eat
    match ← peek with
    | some ']' => fail .trailingComma
    | _ => fail .trailingText
  | some _ => fail .trailingText

/-- A record written as an object, or as the list of its fields in order. -/
def readObjectOrList {α : Type} (name : String) (depth : Nat) (ofObject ofList : Nat → Reader α) :
    Reader α := do
  match ← peek with
  | none => fail .endInValue
  | some '{' => enter depth ofObject
  | some '[' => enter depth ofList
  | some _ => mismatch (.record name)

end LabelPress.Json

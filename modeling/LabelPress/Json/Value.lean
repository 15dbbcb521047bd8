import LabelPress.Json.Number
import LabelPress.Json.Text

/-!
Generic JSON values, and the readers of lists, of objects and of a value of any shape. An object is
its members in the order written, repeated keys included.
-/

namespace LabelPress.Json

open Reader

inductive Value
  | null
  | boolean (b : Bool)
  | number (n : Number)
  | string (s : String)
  | list (items : List Value)
  | object (members : List (String × Value))
deriving Repr, Inhabited

namespace Value

def integer (n : Int) : Value := number (.integer n)

def found : Value → Found
  | null => .null
  | boolean b => .boolean b
  | number n => n.found
  | string s => .string s
  | list _ => .sequence
  | object _ => .map

end Value

/-- How many containers may be open at once. -/
def maxDepth : Nat := 127

/-- Fails with what stands at the next character, as far as it can be read. -/
def mismatch {α : Type} (expected : Expected) : Reader α := do
  let wrong (found : Found) : Reader α := fail (.wrongType found expected)
  match ← look with
  | none => fail .expectedValue
  | some 'n' => do eat; Reader.null; wrong .null
  | some 't' => do eat; Reader.true; wrong (.boolean true)
  | some 'f' => do eat; Reader.false; wrong (.boolean false)
  | some '"' => do eat; wrong (.string (← text))
  | some '[' => wrong .sequence
  | some '{' => wrong .map
  | some '-' => do eat; wrong (← number true).found
  | some c => if Text.isDigit c then do wrong (← number false).found else fail .expectedValue

def nextItem {α : Type} (item : Reader α) (sofar : List α) : Reader (List α) := do
  match ← peek with
  | none => fail .endInValue
  | some ']' => fail .trailingComma
  | some _ => do
    let a ← item
    pure (a :: sofar)

def moreItems {α : Type} (item : Reader α) (sofar : List α) : Reader (List α) := do
  let backwards ←
    afterCommas ']' .endInList .expectedCommaOrBracket (nextItem item) sofar.reverse
  pure backwards.reverse

def items {α : Type} (item : Reader α) : Reader (List α) := do
  match ← peek with
  | none => fail .endInList
  | some ']' => do eat; pure []
  | some _ => do
    let first ← item
    moreItems item [first]

def nextMember {σ : Type} (step : σ → String → Reader σ) (state : σ) : Reader σ := do
  match ← peek with
  | none => fail .endInValue
  | some '"' => do eat; step state (← text)
  | some '}' => fail .trailingComma
  | some _ => fail .keyNotString

/-- Carries a state over the members of an object whose opening brace was read. A step is given the
key and starts at the colon. -/
def members {σ : Type} (step : σ → String → Reader σ) (start : σ) : Reader σ := do
  match ← peek with
  | none => fail .endInObject
  | some '}' => do eat; pure start
  | some '"' => do
    eat
    let state ← step start (← text)
    afterCommas '}' .endInObject .expectedCommaOrBrace (nextMember step) state
  | some _ => fail .keyNotString

def colon : Reader Unit := do
  match ← peek with
  | none => fail .endInObject
  | some ':' => eat
  | some _ => fail .expectedColon

/-- A value whose containers are read by the given readers, which start after the opening. -/
def valueWith (onList onObject : Reader Value) : Reader Value := do
  match ← peek with
  | none => fail .endInValue
  | some 'n' => do eat; Reader.null; pure .null
  | some 't' => do eat; Reader.true; pure (.boolean true)
  | some 'f' => do eat; Reader.false; pure (.boolean false)
  | some '"' => do eat; pure (.string (← text))
  | some '[' => do eat; onList
  | some '{' => do eat; onObject
  | some '-' => do eat; pure (.number (← number true))
  | some c => if Text.isDigit c then do pure (.number (← number false)) else fail .expectedValue

def value : (depth : Nat) → Reader Value
  | 0 => valueWith (fail .tooDeep) (fail .tooDeep)
  | depth + 1 =>
    valueWith
      (do pure (.list (← items (value depth))))
      (do
        let backwards ← members (fun sofar key => do
          colon
          let v ← value depth
          pure ((key, v) :: sofar)) []
        pure (.object backwards.reverse))

def parse {α : Type} (reader : Reader α) (s : String) : Except Fault α :=
  match reader.run s.toList with
  | .error e => .error e
  | .ok (a, r) => if (r.dropWhile isBlank).isEmpty then .ok a else .error .trailingText

end LabelPress.Json

import LabelPress.Json.Skip
import LabelPress.Named

/-!
Types that a field can have. A field is read straight from the text, or from a value that was read
before anyone knew what it was for; the two agree on what is right and differ in some faults.
-/

namespace LabelPress.Json

open Reader

/-- Reading straight from the text, with the number of containers that may still be opened. -/
class FromText (α : Type) where
  read : (depth : Nat) → Reader α

class FromValue (α : Type) where
  ofValue : Value → Except Fault α

instance : FromText Value := ⟨value⟩

instance : FromValue Value := ⟨.ok⟩

def wrongType {α : Type} (v : Value) (expected : Expected) : Except Fault α :=
  .error (.wrongType v.found expected)

def enter {α : Type} (depth : Nat) (inner : (depth : Nat) → Reader α) : Reader α :=
  match depth with
  | 0 => fail .tooDeep
  | depth + 1 => do eat; inner depth

def IntegerKind.ofNumber (kind : IntegerKind) : Number → Except Fault Int
  | .integer n =>
    if kind.low ≤ n ∧ n ≤ kind.high then .ok n
    else .error (.wrongValue (.integer n) (.integer kind))
  | .real x => .error (.wrongType (.real x) (.integer kind))

def IntegerKind.read (kind : IntegerKind) : Reader Int := do
  match ← peek with
  | none => fail .endInValue
  | some '-' => do eat; ofExcept (kind.ofNumber (← number true))
  | some c =>
    if Text.isDigit c then do ofExcept (kind.ofNumber (← number false))
    else mismatch (.integer kind)

def IntegerKind.ofValue (kind : IntegerKind) : Value → Except Fault Int
  | .number n => kind.ofNumber n
  | v => wrongType v (.integer kind)

instance : FromText Int32 := ⟨fun _ => do pure (Int32.ofInt (← IntegerKind.signed32.read))⟩
instance : FromText UInt32 := ⟨fun _ => do pure (UInt32.ofInt (← IntegerKind.unsigned32.read))⟩
instance : FromText UInt8 := ⟨fun _ => do pure (UInt8.ofInt (← IntegerKind.unsigned8.read))⟩

instance : FromValue Int32 := ⟨fun v => (IntegerKind.signed32.ofValue v).map Int32.ofInt⟩
instance : FromValue UInt32 := ⟨fun v => (IntegerKind.unsigned32.ofValue v).map UInt32.ofInt⟩
instance : FromValue UInt8 := ⟨fun v => (IntegerKind.unsigned8.ofValue v).map UInt8.ofInt⟩

def readString (expected : Expected) : Reader String := do
  match ← peek with
  | none => fail .endInValue
  | some '"' => do eat; text
  | some _ => mismatch expected

instance : FromText String := ⟨fun _ => readString .string⟩

instance : FromValue String where
  ofValue
    | .string s => .ok s
    | v => wrongType v .string

instance {α : Type} [FromText α] : FromText (Option α) where
  read depth := do
    match ← peek with
    | some 'n' => do eat; Reader.null; pure none
    | _ => do pure (some (← FromText.read depth))

instance {α : Type} [FromValue α] : FromValue (Option α) where
  ofValue
    | .null => .ok none
    | v => (FromValue.ofValue v).map some

def variantNamed (α : Type) [Named α] (s : String) : Except Fault α :=
  match Named.find? s with
  | some a => .ok a
  | none => .error (.unknownVariant s (Named.names α))

def readUnit : Reader Unit := do
  match ← peek with
  | none => fail .endInValue
  | some 'n' => do eat; Reader.null
  | some _ => mismatch .unit

def readVariantKey : Reader String := do
  match ← peek with
  | none => fail .endInObject
  | some '"' => do eat; text
  | some '}' => fail .expectedValue
  | some _ => fail .keyNotString

def readVariantMember (α : Type) [Named α] : Reader α := do
  let a ← ofExcept (variantNamed α (← readVariantKey))
  colon
  readUnit
  match ← peek with
  | none => fail .endInObject
  | some '}' => do eat; pure a
  | some _ => fail .expectedValue

/-- An alternative is its name, or an object with the name as its one key and null as the value. -/
def readVariant (α : Type) [Named α] (depth : Nat) : Reader α := do
  match ← peek with
  | none => fail .endInValue
  | some '"' => do eat; ofExcept (variantNamed α (← text))
  | some '{' => enter depth fun _ => readVariantMember α
  | some _ => fail .expectedValue

/-- The value with an alternative's name may also be an empty object. -/
def variantUnit : Value → Except Fault Unit
  | .null => .ok ()
  | .object [] => .ok ()
  | v => wrongType v .unit

def variantOfValue (α : Type) [Named α] : Value → Except Fault α
  | .string s => variantNamed α s
  | .object [(key, v)] => do
    let a ← variantNamed α key
    variantUnit v
    pure a
  | .object _ => .error (.wrongValue .map .singleEntry)
  | v => wrongType v .variant

instance {α : Type} [Named α] : FromText α := ⟨readVariant α⟩

instance {α : Type} [Named α] : FromValue α := ⟨variantOfValue α⟩

end LabelPress.Json

import LabelPress.Json.Value

/-!
Passing over a value that nobody asked for. Its syntax is checked, but neither its depth nor the
size of its numbers nor its surrogates, and an object cut short after a comma ends in the object.
-/

namespace LabelPress.Json

open Reader

inductive Container
  | list
  | object
deriving DecidableEq, Repr

namespace Container

def close : Container → Char
  | list => ']'
  | object => '}'

def atEnd : Container → Fault
  | list => .endInList
  | object => .endInObject

def expectedComma : Container → Fault
  | list => .expectedCommaOrBracket
  | object => .expectedCommaOrBrace

end Container

def skipKey : Container → Reader Unit
  | .list => pure ()
  | .object => do
    match ← peek with
    | none => fail .endInObject
    | some '"' => do eat; skipText; colon
    | some _ => fail .keyNotString

def skipScalar (first : Char) : Reader Unit :=
  if first = 'n' then Reader.null
  else if first = 't' then Reader.true
  else if first = 'f' then Reader.false
  else if first = '"' then skipText
  else if first = '-' then skipNegative
  else if Text.isDigit first then skipNumber first
  else fail .expectedValue

/-- What a value starts with: a scalar, here read whole, or the opening of a container. -/
inductive Start (s : List Char)
  | scalar (rest : { r : List Char // r.length < s.length })
  | opening (container : Container) (rest : { r : List Char // r.length < s.length })

def start (s : List Char) : Except Fault (Start s) :=
  match h : s.dropWhile isBlank with
  | [] => .error .endInValue
  | c :: r =>
    if c = '[' then .ok (.opening .list ⟨r, length_lt_of_dropWhile h⟩)
    else if c = '{' then .ok (.opening .object ⟨r, length_lt_of_dropWhile h⟩)
    else
      match skipScalar c r with
      | .error e => .error e
      | .ok (_, t) => .ok (.scalar ⟨t.val, Nat.lt_of_le_of_lt t.property (length_lt_of_dropWhile h)⟩)

def opened (container : Container) : Reader Bool := do
  match ← peek with
  | none => fail container.atEnd
  | some c => if c = container.close then do eat; pure true else do skipKey container; pure false

mutual

/-- Passes over a value and what is open around it. -/
def skipFrom (around : List Container) (s : List Char) : Except Fault (Rest s) :=
  match start s with
  | .error e => .error e
  | .ok (.scalar r) =>
    match skipAfter around r.val with
    | .error e => .error e
    | .ok t => .ok ⟨t.val, Nat.le_of_lt (Nat.lt_of_le_of_lt t.property r.property)⟩
  | .ok (.opening container r) =>
    match opened container r.val with
    | .error e => .error e
    | .ok (closed, t) =>
      have shorter := Nat.lt_of_le_of_lt t.property r.property
      match if closed then skipAfter around t.val else skipFrom (container :: around) t.val with
      | .error e => .error e
      | .ok u => .ok ⟨u.val, Nat.le_of_lt (Nat.lt_of_le_of_lt u.property shorter)⟩
termination_by s.length
decreasing_by
  all_goals
    have := r.property
    omega

/-- Passes over what follows a value in the containers that are open. -/
def skipAfter (around : List Container) (s : List Char) : Except Fault (Rest s) :=
  match around with
  | [] => .ok ⟨s, Nat.le_refl _⟩
  | container :: outer =>
    match separator container.close container.atEnd container.expectedComma s with
    | .error e => .error e
    | .ok (.closed r) =>
      match skipAfter outer r.val with
      | .error e => .error e
      | .ok t => .ok ⟨t.val, Nat.le_of_lt (Nat.lt_of_le_of_lt t.property r.property)⟩
    | .ok (.comma r) =>
      match skipKey container r.val with
      | .error e => .error e
      | .ok (_, t) =>
        have shorter := Nat.lt_of_le_of_lt t.property r.property
        match skipFrom (container :: outer) t.val with
        | .error e => .error e
        | .ok u => .ok ⟨u.val, Nat.le_of_lt (Nat.lt_of_le_of_lt u.property shorter)⟩
termination_by s.length
decreasing_by
  all_goals
    have := r.property
    omega

end

def skipValue : Reader Unit := fun s =>
  match skipFrom [] s with
  | .error e => .error e
  | .ok r => .ok ((), r)

end LabelPress.Json

import LabelPress.Json.Reader

/-!
Strings of JSON text: reading one after its opening quote, and passing over one that nobody asked
for, whose surrogates then are not looked at.
-/

namespace LabelPress.Json

open Reader

def hexValue? (c : Char) : Option Nat :=
  if '0' ≤ c ∧ c ≤ '9' then some (c.toNat - '0'.toNat)
  else if 'a' ≤ c ∧ c ≤ 'f' then some (c.toNat - 'a'.toNat + 10)
  else if 'A' ≤ c ∧ c ≤ 'F' then some (c.toNat - 'A'.toNat + 10)
  else none

/-- The four digits of a `\u` escape. Fewer than four bytes of text are an end within the string,
whatever they hold. -/
def hexEscape : Reader Nat := fun s =>
  if (s.take 4).foldl (fun n c => n + c.utf8Size) 0 < 4 then .error .endInString
  else
    match s with
    | a :: b :: c :: d :: r =>
      match hexValue? a, hexValue? b, hexValue? c, hexValue? d with
      | some i, some j, some k, some l =>
        .ok (((i * 16 + j) * 16 + k) * 16 + l, ((((Rest.all r).after d).after c).after b).after a)
      | _, _, _, _ => .error .badEscape
    | _ => .error .badEscape

def isFirstSurrogate (n : Nat) : Bool := 0xD800 ≤ n && n ≤ 0xDBFF
def isSecondSurrogate (n : Nat) : Bool := 0xDC00 ≤ n && n ≤ 0xDFFF

def escapeMark (c : Char) : Reader Unit := do
  match ← look with
  | none => fail .endInString
  | some d => if d = c then eat else fail .unfinishedPair

/-- The character of a `\u` escape; one beyond the first plane takes two. -/
def unicodeEscape : Reader Char := do
  let n ← hexEscape
  if isSecondSurrogate n then fail .loneSurrogate
  else if isFirstSurrogate n then do
    escapeMark '\\'
    escapeMark 'u'
    let m ← hexEscape
    if isSecondSurrogate m then
      pure (Char.ofNat ((n - 0xD800) * 0x400 + (m - 0xDC00) + 0x10000))
    else fail .loneSurrogate
  else pure (Char.ofNat n)

def simpleEscape? (c : Char) : Option Char :=
  if c = '"' ∨ c = '\\' ∨ c = '/' then some c
  else if c = 'b' then some '\x08'
  else if c = 'f' then some '\x0c'
  else if c = 'n' then some '\n'
  else if c = 'r' then some '\r'
  else if c = 't' then some '\t'
  else none

def escape : Reader Char := do
  match ← look with
  | none => fail .endInString
  | some c =>
    match simpleEscape? c with
    | some d => do eat; pure d
    | none => if c = 'u' then do eat; unicodeEscape else fail .badEscape

def skipEscape : Reader Unit := do
  match ← look with
  | none => fail .endInString
  | some c =>
    match simpleEscape? c with
    | some _ => eat
    | none => if c = 'u' then do eat; let _ ← hexEscape; pure () else fail .badEscape

/-- The characters up to the closing quote, by a reader of what follows a backslash. -/
def textWith {α : Type} (afterBackslash : Reader α) (plain : Char → α) : Reader (List α) := fun s =>
  match s with
  | [] => .error .endInString
  | c :: r =>
    if c = '"' then .ok ([], (Rest.all r).after c)
    else if c = '\\' then
      match afterBackslash r with
      | .error e => .error e
      | .ok (a, t) =>
        match textWith afterBackslash plain t.val with
        | .error e => .error e
        | .ok (as, u) => .ok (a :: as, (t.trans u).after c)
    else if c < ' ' then .error .controlCharacter
    else
      match textWith afterBackslash plain r with
      | .error e => .error e
      | .ok (as, u) => .ok (plain c :: as, u.after c)
termination_by s => s.length
decreasing_by
  · exact t.length_lt_cons c
  · exact Nat.lt_succ_self _

def text : Reader String := do
  let cs ← textWith escape id
  pure (String.ofList cs)

def skipText : Reader Unit := do
  let _ ← textWith skipEscape fun _ => ()
  pure ()

end LabelPress.Json

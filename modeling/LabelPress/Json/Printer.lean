import LabelPress.Json.Value

/-!
Writing JSON values, compactly or with one member or item a line, indented by two spaces.
-/

namespace LabelPress.Json

/-- Quotes, backslashes and control characters are escaped; all other characters stand for
themselves. -/
def escaped (c : Char) : List Char :=
  if c = '"' then ['\\', '"']
  else if c = '\\' then ['\\', '\\']
  else if c = '\x08' then ['\\', 'b']
  else if c = '\x0c' then ['\\', 'f']
  else if c = '\n' then ['\\', 'n']
  else if c = '\r' then ['\\', 'r']
  else if c = '\t' then ['\\', 't']
  else if c < ' ' then
    ['\\', 'u', '0', '0', Nat.digitChar (c.toNat / 16), Nat.digitChar (c.toNat % 16)]
  else [c]

def quotedText (s : String) : List Char := '"' :: s.toList.flatMap escaped ++ ['"']

def Number.text : Number → List Char
  | integer n => (toString n).toList
  | real x => x.text.toList

namespace Value

mutual

def compactChars : Value → List Char
  | null => ['n', 'u', 'l', 'l']
  | boolean true => ['t', 'r', 'u', 'e']
  | boolean false => ['f', 'a', 'l', 's', 'e']
  | number n => n.text
  | string s => quotedText s
  | list vs => '[' :: compactItems vs ++ [']']
  | object ms => '{' :: compactMembers ms ++ ['}']

def compactItems : List Value → List Char
  | [] => []
  | [v] => v.compactChars
  | v :: vs => v.compactChars ++ ',' :: compactItems vs

def compactMembers : List (String × Value) → List Char
  | [] => []
  | [(k, v)] => quotedText k ++ ':' :: v.compactChars
  | (k, v) :: ms => quotedText k ++ ':' :: v.compactChars ++ ',' :: compactMembers ms

end

def newline (indent : Nat) : List Char := '\n' :: List.replicate (2 * indent) ' '

mutual

def prettyChars (indent : Nat) : Value → List Char
  | null => ['n', 'u', 'l', 'l']
  | boolean true => ['t', 'r', 'u', 'e']
  | boolean false => ['f', 'a', 'l', 's', 'e']
  | number n => n.text
  | string s => quotedText s
  | list [] => ['[', ']']
  | list (v :: vs) =>
    '[' :: newline (indent + 1) ++ v.prettyChars (indent + 1) ++ prettyItems (indent + 1) vs
      ++ newline indent ++ [']']
  | object [] => ['{', '}']
  | object ((k, v) :: ms) =>
    '{' :: newline (indent + 1) ++ quotedText k ++ ':' :: ' ' :: v.prettyChars (indent + 1)
      ++ prettyMembers (indent + 1) ms ++ newline indent ++ ['}']

def prettyItems (indent : Nat) : List Value → List Char
  | [] => []
  | v :: vs => ',' :: newline indent ++ v.prettyChars indent ++ prettyItems indent vs

def prettyMembers (indent : Nat) : List (String × Value) → List Char
  | [] => []
  | (k, v) :: ms =>
    ',' :: newline indent ++ quotedText k ++ ':' :: ' ' :: v.prettyChars indent
      ++ prettyMembers indent ms

end

def compact (v : Value) : String := String.ofList v.compactChars

def pretty (v : Value) : String := String.ofList (v.prettyChars 0)

end Value

end LabelPress.Json

import LabelPress.Json.Value

/-! The grammar of JSON texts. A tree keeps what a text writes down: the digits of its numbers, the
escapes of its strings, the order of its members. Only the blanks between tokens are left out, so
that a tree has many texts. A tree has a value unless a number, a string or its depth forbids. -/
namespace LabelPress.Json

open Text (digitsValue isDigit)

structure Digits where
  chars : List Char
  nonempty : chars ≠ []
  areDigits : ∀ c ∈ chars, isDigit c = true

structure Exponent where
  mark : Char
  sign : Option Char
  digits : Digits
  mark_eq : mark = 'e' ∨ mark = 'E'
  sign_eq : ∀ c ∈ sign, c = '+' ∨ c = '-'

def Exponent.chars (e : Exponent) : List Char := e.mark :: e.sign.toList ++ e.digits.chars

def Exponent.value (e : Exponent) : Int :=
  let n := digitsValue 0 e.digits.chars
  if e.sign = some '-' then -n else n

/-- A number as it is written. -/
structure Literal where
  negative : Bool
  whole : Digits
  fraction : Option Digits
  exponent : Option Exponent
  noLeadingZero : whole.chars = ['0'] ∨ whole.chars.head? ≠ some '0'

namespace Literal

def fractionChars : Option Digits → List Char
  | none => []
  | some ds => '.' :: ds.chars

def exponentChars : Option Exponent → List Char
  | none => []
  | some e => e.chars

def magnitudeChars (n : Literal) : List Char :=
  n.whole.chars ++ fractionChars n.fraction ++ exponentChars n.exponent

def chars (n : Literal) : List Char :=
  if n.negative then '-' :: n.magnitudeChars else n.magnitudeChars

def value (n : Literal) : Rat :=
  let fraction := (n.fraction.map Digits.chars).getD []
  let exponent := (n.exponent.map Exponent.value).getD 0
  (if n.negative then -1 else 1) * digitsValue 0 (n.whole.chars ++ fraction)
    * (10 : Rat) ^ (exponent - fraction.length)

-- The number that is read, in double precision. It has the leading digits that fit 64 bits, and is
-- scaled once; it may turn out infinite although the number that is meant is not.
def readExponent (significand : Nat) (exponent : Int) :
    Option Exponent → Except Fault Binary.Double
  | none => Number.scale (.ofInt significand) exponent
  | some e =>
    let n := digitsValue 0 e.digits.chars
    if n ≤ Number.maxExponent then
      Number.scale (.ofInt significand)
        (if e.sign = some '-' then exponent - n else exponent + n)
    else if significand ≠ 0 ∧ e.sign ≠ some '-' then .error .numberOutOfRange
    else .ok (.zero false)

def readFraction (significand : Nat) (exponent : Int) (e : Option Exponent) :
    Option Digits → Except Fault Binary.Double
  | none => readExponent significand exponent e
  | some ds =>
    let (longer, taken) := Number.extend significand ds.chars
    readExponent longer (exponent - taken) e

def read (n : Literal) : Except Fault Number :=
  let (significand, taken) := Number.extend 0 n.whole.chars
  let dropped := n.whole.chars.length - taken
  if dropped = 0 ∧ n.fraction.isNone ∧ n.exponent.isNone then
    .ok (Number.ofSignificand n.negative significand)
  else
    (readFraction significand dropped n.exponent n.fraction).map fun x =>
      .real (if n.negative then x.negate else x)

/-- Reading stays within the range of doubles. -/
def Readable (n : Literal) : Prop := ∃ x, n.read = .ok x

/-- The number that is meant is within the range of doubles. -/
def Finite (n : Literal) : Prop :=
  let greatest := 9007199254740991 * (2 : Rat) ^ (971 : Int)
  n.value ≤ greatest ∧ -greatest ≤ n.value

end Literal

def hexValue4? (a b c d : Char) : Option Nat := do
  let i ← hexValue? a
  let j ← hexValue? b
  let k ← hexValue? c
  let l ← hexValue? d
  pure (((i * 16 + j) * 16 + k) * 16 + l)

theorem hexValue4?_eq_some_iff {a b c d : Char} {n : Nat} :
    hexValue4? a b c d = some n ↔
      ∃ i j k l, hexValue? a = some i ∧ hexValue? b = some j ∧ hexValue? c = some k ∧
        hexValue? d = some l ∧ ((i * 16 + j) * 16 + k) * 16 + l = n := by
  unfold hexValue4?
  simp only [Option.bind_eq_bind, Option.bind_eq_some_iff, Option.pure_def, Option.some_inj]
  constructor
  · rintro ⟨i, hi, j, hj, k, hk, l, hl, hn⟩
    exact ⟨i, j, k, l, hi, hj, hk, hl, hn⟩
  · rintro ⟨i, j, k, l, hi, hj, hk, hl, hn⟩
    exact ⟨i, hi, j, hj, k, hk, l, hl, hn⟩

/-- A part of a string as it is written: a character, or one of the two forms of escapes. -/
inductive Piece
  | plain (c : Char) (legal : c ≠ '"' ∧ c ≠ '\\' ∧ ¬ c < ' ')
  | letter (c d : Char) (legal : simpleEscape? c = some d)
  | code (a b c d : Char) (n : Nat) (legal : hexValue4? a b c d = some n)

def Piece.chars : Piece → List Char
  | plain c _ => [c]
  | letter c _ _ => ['\\', c]
  | code a b c d _ _ => ['\\', 'u', a, b, c, d]

abbrev Pieces := List Piece

namespace Pieces

def chars (ps : Pieces) : List Char := ps.flatMap Piece.chars

def quoted (ps : Pieces) : List Char := '"' :: ps.chars ++ ['"']

def ofPair (first second : Nat) : Char :=
  Char.ofNat ((first - 0xD800) * 0x400 + (second - 0xDC00) + 0x10000)

/-- The characters of a string; a surrogate without its partner is none. -/
def meant? : Pieces → Option (List Char)
  | [] => some []
  | .plain c _ :: ps => (meant? ps).map (c :: ·)
  | .letter _ d _ :: ps => (meant? ps).map (d :: ·)
  | .code _ _ _ _ n _ :: ps =>
    if isSecondSurrogate n then none
    else if isFirstSurrogate n then
      match ps with
      | .code _ _ _ _ m _ :: rest =>
        if isSecondSurrogate m then (meant? rest).map (ofPair n m :: ·) else none
      | _ => none
    else (meant? ps).map (Char.ofNat n :: ·)

def text? (ps : Pieces) : Option String := ps.meant?.map String.ofList

end Pieces

def Blanks (b : List Char) : Prop := ∀ c ∈ b, Reader.isBlank c = true

inductive Joined.After (close : Char) : List (List Char) → List Char → Prop
  | closed {b : List Char} : Blanks b → After close [] (b ++ [close])
  | comma {b b' item : List Char} {items : List (List Char)} {s : List Char} :
      Blanks b → Blanks b' → After close items s →
        After close (item :: items) (b ++ ',' :: (b' ++ item ++ s))

/-- Items with commas between them, up to the closing character. -/
inductive Joined (close : Char) : List (List Char) → List Char → Prop
  | empty {b : List Char} : Blanks b → Joined close [] (b ++ [close])
  | items {b item : List Char} {items : List (List Char)} {s : List Char} :
      Blanks b → Joined.After close items s → Joined close (item :: items) (b ++ item ++ s)

inductive Tree
  | null
  | boolean (b : Bool)
  | number (n : Literal)
  | string (s : Pieces)
  | list (items : List Tree)
  | object (members : List (Pieces × Tree))

namespace Tree

mutual

/-- The texts of a tree, without blanks around it. -/
def Spells : Tree → List Char → Prop
  | null, s => s = ['n', 'u', 'l', 'l']
  | boolean true, s => s = ['t', 'r', 'u', 'e']
  | boolean false, s => s = ['f', 'a', 'l', 's', 'e']
  | number n, s => s = n.chars
  | string ps, s => s = ps.quoted
  | list ts, s => ∃ items r, SpellItems ts items ∧ Joined ']' items r ∧ s = '[' :: r
  | object ms, s => ∃ items r, SpellMembers ms items ∧ Joined '}' items r ∧ s = '{' :: r

def SpellItems : List Tree → List (List Char) → Prop
  | [], items => items = []
  | t :: ts, items => ∃ s rest, t.Spells s ∧ SpellItems ts rest ∧ items = s :: rest

def SpellMembers : List (Pieces × Tree) → List (List Char) → Prop
  | [], items => items = []
  | (k, t) :: ms, items =>
    ∃ b b' s rest, Blanks b ∧ Blanks b' ∧ t.Spells s ∧ SpellMembers ms rest ∧
      items = (k.quoted ++ b ++ ':' :: (b' ++ s)) :: rest

end

def SpelledBy (t : Tree) (text : String) : Prop :=
  ∃ b s b', Blanks b ∧ t.Spells s ∧ Blanks b' ∧ text.toList = b ++ s ++ b'

mutual

/-- The value of a tree, unless more containers are open at once than `depth` allows, a number is
not readable, or a surrogate stands alone. -/
def value? : (depth : Nat) → Tree → Option Value
  | _, null => some .null
  | _, boolean b => some (.boolean b)
  | _, number n => n.read.toOption.map .number
  | _, string ps => ps.text?.map .string
  | 0, list _ => none
  | depth + 1, list ts => (itemValues? depth ts).map .list
  | 0, object _ => none
  | depth + 1, object ms => (memberValues? depth ms).map .object

def itemValues? (depth : Nat) : List Tree → Option (List Value)
  | [] => some []
  | t :: ts => do
    let v ← t.value? depth
    let vs ← itemValues? depth ts
    pure (v :: vs)

def memberValues? (depth : Nat) : List (Pieces × Tree) → Option (List (String × Value))
  | [] => some []
  | (k, t) :: ms => do
    let k ← k.text?
    let v ← t.value? depth
    let vs ← memberValues? depth ms
    pure ((k, v) :: vs)

end

end Tree

end LabelPress.Json

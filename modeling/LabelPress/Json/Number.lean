import LabelPress.Json.Reader

/-!
Numbers of JSON text. A literal without point or exponent that fits 64 bits is an integer; any other
is a double: the digits that fit 64 bits as a significand, then one multiplication or division by a
power of ten.
-/

namespace LabelPress.Json

open Reader Text

inductive Number
  | integer (n : Int)
  | real (x : Binary.Double)
deriving DecidableEq, Repr

def Number.found : Number → Found
  | integer n => .integer n
  | real x => .real x

namespace Number

def maxSignificand : Nat := 0xFFFFFFFFFFFFFFFF

def extend (significand : Nat) : List Char → Nat × Nat
  | [] => (significand, 0)
  | c :: cs =>
    let next := 10 * significand + digitValue c
    if next ≤ maxSignificand then
      let (last, taken) := extend next cs
      (last, taken + 1)
    else (significand, 0)

def power (k : Nat) : Binary.Double := .ofRat ((10 : Rat) ^ k)

def maxPower : Nat := 308

/-- Scales a double by a power of ten. A small number beyond the table is scaled in steps; zero
stays zero whatever the exponent. -/
def scale (x : Binary.Double) (exponent : Int) : Except Fault Binary.Double :=
  if exponent.natAbs ≤ maxPower then
    if 0 ≤ exponent then
      let y := x * power exponent.natAbs
      if y.isInfinite then .error .numberOutOfRange else .ok y
    else .ok (x / power exponent.natAbs)
  else if x.isZero then .ok x
  else if 0 ≤ exponent then .error .numberOutOfRange
  else scale (x / power maxPower) (exponent + maxPower)
termination_by (-exponent).toNat
decreasing_by
  simp only [maxPower] at *
  omega

/-- An exponent beyond 32 bits decides by its sign alone. -/
def maxExponent : Nat := 2147483647

def exponentPart (significand : Nat) (exponent : Int) : Reader Binary.Double := do
  let scaled (e : Int) : Reader Binary.Double := ofExcept (scale (.ofInt significand) e)
  match ← look with
  | some 'e' | some 'E' => do
    eat
    let sign ← look
    if sign = some '+' ∨ sign = some '-' then eat
    let ds ← span isDigit
    if ds.isEmpty then
      match ← look with
      | none => fail .endInValue
      | some _ => fail .badNumber
    else
      let n := digitsValue 0 ds
      if n ≤ maxExponent then
        scaled (if sign = some '-' then exponent - n else exponent + n)
      else if significand ≠ 0 ∧ sign ≠ some '-' then fail .numberOutOfRange
      else pure (.zero false)
  | _ => scaled exponent

/-- What follows the whole part: a fraction, an exponent, both or nothing. Digits of the fraction
beyond 64 bits are ignored. -/
def fractionPart (significand : Nat) (exponent : Int) : Reader Binary.Double := do
  match ← look with
  | some '.' => do
    eat
    let ds ← span isDigit
    if ds.isEmpty then
      match ← look with
      | none => fail .endInValue
      | some _ => fail .badNumber
    else
      let (longer, taken) := extend significand ds
      exponentPart longer (exponent - taken)
  | _ => exponentPart significand exponent

/-- An integer of 64 bits, or the double nearest to it: zero with a minus sign, and negative numbers
below the least word. -/
def ofSignificand (negative : Bool) (significand : Nat) : Number :=
  if negative then
    if significand = 0 ∨ 0x8000000000000000 < significand then
      real (Binary.Number.ofInt significand).negate
    else integer (-significand)
  else integer significand

def afterWhole (negative : Bool) (significand dropped : Nat) : Reader Number := do
  let next ← look
  if dropped = 0 ∧ next ≠ some '.' ∧ next ≠ some 'e' ∧ next ≠ some 'E' then
    pure (ofSignificand negative significand)
  else
    let x ← fractionPart significand dropped
    pure (real (if negative then x.negate else x))

end Number

def number (negative : Bool) : Reader Number := do
  match ← look with
  | none => fail .endInValue
  | some '0' => do
    eat
    if (← look).any isDigit then fail .badNumber else Number.afterWhole negative 0 0
  | some c =>
    if isDigit c then do
      let ds ← span isDigit
      let (significand, taken) := Number.extend 0 ds
      Number.afterWhole negative significand (ds.length - taken)
    else fail .badNumber

def skipDigits : Reader Unit := do
  let ds ← span isDigit
  if ds.isEmpty then fail .badNumber else pure ()

/-- Passes over the rest of a number whose first digit is given and was read; nothing about its size
is checked. -/
def skipNumber (first : Char) : Reader Unit := do
  if first = '0' then
    if (← look).any isDigit then fail .badNumber
  else
    let _ ← span isDigit
  if (← look) = some '.' then do
    eat
    skipDigits
  let next ← look
  if next = some 'e' ∨ next = some 'E' then do
    eat
    let sign ← look
    if sign = some '+' ∨ sign = some '-' then eat
    skipDigits

def skipNegative : Reader Unit := do
  match ← look with
  | none => fail .badNumber
  | some c => if isDigit c then do eat; skipNumber c else fail .badNumber

end LabelPress.Json

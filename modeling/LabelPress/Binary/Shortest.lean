import LabelPress.Binary.Number

/-!
The shortest decimal form of a double: the fewest digits that still round to it, of several decimals
with that many digits the nearest, and of two equally near ones the even one.
-/

namespace LabelPress.Binary

def floorLog10 (q : Rat) : Int :=
  let guess := floorLog2 q * 30103 / 100000
  if (10 : Rat) ^ (guess + 1) ≤ q then guess + 1
  else if q < (10 : Rat) ^ guess then guess - 1
  else guess

/-- The reals that round to `m * 2 ^ e`. The gap below a power of two is half as wide, and the two
ends belong to the interval when the significand is even. -/
structure Interval where
  value : Rat
  low : Rat
  high : Rat
  closed : Bool

def Interval.around (F : Format) (m : Nat) (e : Int) : Interval :=
  let value := Number.magnitude m e
  let half := (2 : Rat) ^ (e - 1)
  let narrow := m = F.leastNormal ∧ F.minExponent < e
  { value
    low := value - (if narrow then half / 2 else half)
    high := value + half
    closed := m % 2 == 0 }

def Interval.holds (i : Interval) (q : Rat) : Bool :=
  (i.low < q && q < i.high) || (i.closed && (q == i.low || q == i.high))

/-- Whether the lower one of two neighbours, `below` units from zero, is chosen: it is nearer, or as
near as the other one and even. -/
def Interval.takesLower (i : Interval) (below : Nat) (lower upper : Rat) : Bool :=
  i.value - lower < upper - i.value || (i.value - lower == upper - i.value && below % 2 == 0)

/-- The chosen one of a value's two neighbours on the grid of multiples of `10 ^ k`, among those
that the interval holds. -/
def Interval.onGrid? (i : Interval) (k : Int) : Option Nat :=
  let unit := (10 : Rat) ^ k
  let below := (i.value / unit).floor.toNat
  let lower := below * unit
  let upper := (below + 1) * unit
  match i.holds lower, i.holds upper with
  | true, true => some (if i.takesLower below lower upper then below else below + 1)
  | true, false => some below
  | false, true => some (below + 1)
  | false, false => none

/-- Grids of `digits`, `digits + 1`, … places are tried, `tries` of them. Seventeen places always
hold a hit. -/
def Interval.search (i : Interval) (top : Int) (digits : Nat) : Nat → Nat × Int
  | 0 => (0, 0)
  | tries + 1 =>
    let k := top - digits + 1
    match i.onGrid? k with
    | some d => if (d : Rat) = (10 : Rat) ^ digits then (1, k + digits) else (d, k)
    | none => i.search top (digits + 1) tries

/-- Digits `d` and exponent `k` with `d * 10 ^ k` the shortest decimal of `m * 2 ^ e`. -/
def shortest (F : Format) (m : Nat) (e : Int) : Nat × Int :=
  let i := Interval.around F m e
  i.search (floorLog10 i.value) 1 17

def exponentText (n : Int) : List Char :=
  'e' :: (if 0 ≤ n then ['+'] else []) ++ (toString n).toList

/-- Numbers from `1e-5` up to `1e16` are written in positions, with a point in every case; others
with one digit before the point and an exponent that always has a sign. -/
def Double.text : Double → String
  | .nan => "NaN"
  | .infinite s => if s then "-inf" else "inf"
  | .finite s m e =>
    let sign := if s then "-" else ""
    if m = 0 then sign ++ "0.0"
    else
      let (d, k) := shortest .double m e
      let digits := Nat.toDigits 10 d
      let point : Int := digits.length + k
      let zeros (n : Int) := List.replicate n.toNat '0'
      let body : List Char :=
        if 0 ≤ k ∧ point ≤ 16 then digits ++ zeros k ++ ['.', '0']
        else if 0 < point ∧ point ≤ 16 then
          digits.take point.toNat ++ '.' :: digits.drop point.toNat
        else if -5 < point ∧ point ≤ 0 then '0' :: '.' :: zeros (-point) ++ digits
        else
          let fraction := digits.drop 1
          digits.take 1 ++ (if fraction.isEmpty then [] else '.' :: fraction)
            ++ exponentText (point - 1)
      sign ++ String.ofList body

end LabelPress.Binary

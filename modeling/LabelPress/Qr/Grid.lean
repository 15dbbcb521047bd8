import LabelPress.Qr.Codeword

/-!
The modules of a QR symbol: which of them a fixed pattern takes, the path on which data is placed,
and the eight masks. Columns and rows count from zero at the top left.
-/

namespace LabelPress.Qr

inductive Cell
  | fixed (dark : Bool)
  | formatBit (i : Nat)
  | versionBit (i : Nat)
  | data
deriving DecidableEq, Repr

def distance (a b : Nat) : Nat := (a - b) + (b - a)

def ring (x y cx cy : Nat) : Nat := max (distance x cx) (distance y cy)

def alignmentCentres (version : Nat) : List Nat :=
  if version < 2 then []
  else
    let n := version / 7 + 2
    let step := (version * 8 + n * 3 + 5) / (n * 4 - 4) * 2
    6 :: ((List.range (n - 1)).map fun i => side version - 7 - i * step).reverse

def finderCell? (n x y : Nat) : Option Cell :=
  let near := [(3, 3), (n - 4, 3), (3, n - 4)].map fun (cx, cy) => ring x y cx cy
  (near.find? (· ≤ 4)).map fun r => .fixed (r ≠ 2 ∧ r ≠ 4)

def alignmentCell? (centres : List Nat) (n x y : Nat) : Option Cell := do
  let cx ← centres.find? fun c => distance x c ≤ 2
  let cy ← centres.find? fun c => distance y c ≤ 2
  if (cx, cy) = (6, 6) ∨ (cx, cy) = (6, n - 7) ∨ (cx, cy) = (n - 7, 6) then none
  else some (.fixed (ring x y cx cy ≠ 1))

/-- The two copies of the level and the mask, and the one module that is always dark. -/
def formatCell? (n x y : Nat) : Option Cell :=
  if x = 8 ∧ y < 6 then some (.formatBit y)
  else if x = 8 ∧ (y = 7 ∨ y = 8) then some (.formatBit (y - 1))
  else if y = 8 ∧ x = 7 then some (.formatBit 8)
  else if y = 8 ∧ x < 6 then some (.formatBit (14 - x))
  else if y = 8 ∧ n - 8 ≤ x then some (.formatBit (n - 1 - x))
  else if x = 8 ∧ n - 7 ≤ y then some (.formatBit (y + 15 - n))
  else if x = 8 ∧ y = n - 8 then some (.fixed true)
  else none

/-- The two copies of the version, which only greater symbols have. -/
def versionCell? (version n x y : Nat) : Option Cell :=
  if version < 7 then none
  else if n - 11 ≤ x ∧ x < n - 8 ∧ y < 6 then some (.versionBit (3 * y + (x + 11 - n)))
  else if n - 11 ≤ y ∧ y < n - 8 ∧ x < 6 then some (.versionBit (3 * x + (y + 11 - n)))
  else none

def timingCell? (x y : Nat) : Option Cell :=
  if x = 6 ∨ y = 6 then some (.fixed ((x + y) % 2 = 0)) else none

def cell (version : Nat) (centres : List Nat) (x y : Nat) : Cell :=
  let n := side version
  (finderCell? n x y <|> versionCell? version n x y <|> alignmentCell? centres n x y
    <|> timingCell? x y <|> formatCell? n x y).getD .data

/-- The right columns of the column pairs, from right to left. The vertical timing line is left
out. -/
def rightColumns (n : Nat) : List Nat :=
  ((List.range ((n - 7) / 2)).map fun i => n - 1 - 2 * i) ++ [5, 3, 1]

/-- All modules in the order in which data is placed: pairs of columns, by turns upward and
downward. -/
def path (n : Nat) : List (Nat × Nat) :=
  (rightColumns n).flatMap fun right =>
    (List.range n).flatMap fun i =>
      let y := if (right + 1) / 2 % 2 = 0 then n - 1 - i else i
      [(right, y), (right - 1, y)]

def mask (kind x y : Nat) : Bool :=
  match kind with
  | 0 => (x + y) % 2 == 0
  | 1 => y % 2 == 0
  | 2 => x % 3 == 0
  | 3 => (x + y) % 3 == 0
  | 4 => (x / 3 + y / 2) % 2 == 0
  | 5 => x * y % 2 + x * y % 3 == 0
  | 6 => (x * y % 2 + x * y % 3) % 2 == 0
  | _ => ((x + y) % 2 + x * y % 3) % 2 == 0

/-- The remainder of a division of binary polynomials: `steps` times the dividend is shifted up and
the divisor taken off where it reaches. -/
def polynomialRemainder (divisor reach : Nat) (dividend : Nat) : (steps : Nat) → Nat
  | 0 => dividend
  | steps + 1 =>
    let shifted := 2 * dividend
    let reduced := if shifted.testBit reach then shifted ^^^ divisor else shifted
    polynomialRemainder divisor reach reduced steps

def formatBits (level : Level) (kind : Nat) : Nat :=
  let payload := level.indicator * 8 + kind
  ((payload <<< 10) + polynomialRemainder 0x537 10 payload 10) ^^^ 0x5412

def versionBits (version : Nat) : Nat :=
  (version <<< 12) + polynomialRemainder 0x1F25 12 version 12

end LabelPress.Qr

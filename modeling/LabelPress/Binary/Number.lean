import LabelPress.Clamp

/-!
Binary floating-point numbers as exact values. A format says how many bits a significand keeps; a
number is a signed multiple of a power of two; an operation is the exact rational result rounded
once, to the nearest number of the format, a tie going to the even significand.
-/

namespace LabelPress.Binary

def roundEven (q : Rat) : Int :=
  let below := q.floor
  let excess := q - below
  if excess < 1 / 2 then below
  else if 1 / 2 < excess then below + 1
  else if below % 2 = 0 then below else below + 1

def roundAway (q : Rat) : Int :=
  if q < 0 then -(1 / 2 - q).floor else (q + 1 / 2).floor

def floorLog2 (q : Rat) : Int :=
  let guess : Int := (Nat.log2 q.num.natAbs : Int) - (Nat.log2 q.den : Int)
  if (2 : Rat) ^ guess ≤ q then guess else guess - 1

/-- How many bits a significand keeps, and the exponents its last bit may have. -/
structure Format where
  precision : Nat
  minExponent : Int
  maxExponent : Int
deriving DecidableEq, Repr

namespace Format

def single : Format := ⟨24, -149, 104⟩
def double : Format := ⟨53, -1074, 971⟩

def leastNormal (F : Format) : Nat := 1 <<< (F.precision - 1)

/-- The exponent of the last bit kept of a positive magnitude. Small magnitudes lose leading bits
rather than go below the least exponent. -/
def lastPlace (F : Format) (q : Rat) : Int :=
  max F.minExponent (floorLog2 q - (F.precision - 1))

end Format

/-- A finite number is `significand * 2 ^ exponent` with a sign of its own, so that zero has one. -/
inductive Number (F : Format)
  | nan
  | infinite (negative : Bool)
  | finite (negative : Bool) (significand : Nat) (exponent : Int)
deriving DecidableEq, Repr

abbrev Single := Number Format.single
abbrev Double := Number Format.double

namespace Number

variable {F : Format}

def zero (negative : Bool) : Number F := .finite negative 0 F.minExponent

def magnitude (m : Nat) (e : Int) : Rat := (m : Rat) * (2 : Rat) ^ e

def toRat? : Number F → Option Rat
  | .finite negative m e => some (if negative then -magnitude m e else magnitude m e)
  | _ => none

def isZero : Number F → Bool
  | .finite _ m _ => m == 0
  | _ => false

def isInfinite : Number F → Bool
  | .infinite _ => true
  | _ => false

def negate : Number F → Number F
  | .nan => .nan
  | .infinite s => .infinite !s
  | .finite s m e => .finite (!s) m e

/-- The number nearest to a magnitude `q ≥ 0` with the given sign. A significand that rounds up to
twice the least normal one moves to the next exponent, and one beyond the last exponent is infinite.
-/
def round (negative : Bool) (q : Rat) : Number F :=
  if q = 0 then zero negative
  else
    let place := F.lastPlace q
    let kept := (roundEven (q / (2 : Rat) ^ place)).toNat
    let carried := kept = 2 * F.leastNormal
    let exponent := if carried then place + 1 else place
    if F.maxExponent < exponent then .infinite negative
    else .finite negative (if carried then F.leastNormal else kept) exponent

def ofRat (q : Rat) : Number F := round (decide (q < 0)) (if q < 0 then -q else q)

def ofInt (n : Int) : Number F := round (decide (n < 0)) n.natAbs

def mul : Number F → Number F → Number F
  | .finite a m e, .finite b n f => round (a != b) (magnitude m e * magnitude n f)
  | .infinite a, .infinite b => .infinite (a != b)
  | .infinite a, .finite b n _ => if n = 0 then .nan else .infinite (a != b)
  | .finite a m _, .infinite b => if m = 0 then .nan else .infinite (a != b)
  | _, _ => .nan

def div : Number F → Number F → Number F
  | .finite a m e, .finite b n f =>
    if n = 0 then if m = 0 then .nan else .infinite (a != b)
    else round (a != b) (magnitude m e / magnitude n f)
  | .finite a _ _, .infinite b => zero (a != b)
  | .infinite a, .finite b _ _ => .infinite (a != b)
  | _, _ => .nan

instance : Mul (Number F) := ⟨mul⟩
instance : Div (Number F) := ⟨div⟩

def convert {G : Format} : Number F → Number G
  | .nan => .nan
  | .infinite s => .infinite s
  | .finite s m e => round s (magnitude m e)

/-- The nearest word: a half goes away from zero, values beyond the range stop at its ends, and
what is not a number gives zero. -/
def toInt32 : Number F → Int32
  | .nan => 0
  | .infinite true => clampInt32 (-2147483648)
  | .infinite false => clampInt32 2147483647
  | .finite s m e => clampInt32 (roundAway (if s then -magnitude m e else magnitude m e))

end Number

/-- The interchange form of a single: sign, biased exponent, and the significand without the bit
that is always one. -/
def Single.toBits : Single → UInt32
  | .nan => 0x7fc00000
  | .infinite s => (if s then 0x80000000 else 0) ||| 0x7f800000
  | .finite s m e =>
    let biased := if m < 0x800000 then 0 else (e + 150).toNat
    UInt32.ofNat ((if s then 0x80000000 else 0) + biased * 0x800000 + m % 0x800000)

end LabelPress.Binary

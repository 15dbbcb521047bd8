import LabelPress.Qr.Grid

/-!
The finished QR symbol of a text. Of the eight masks the one with the least penalty, a number of
sixteen bits, is taken, the first of several.
-/

namespace LabelPress.Qr

structure Symbol where
  size : Nat
  modules : Array Bool
deriving DecidableEq, Repr

namespace Symbol

def isDark (s : Symbol) (x y : Nat) : Bool :=
  if x < s.size ∧ y < s.size then s.modules.getD (y * s.size + x) false else false

def row (s : Symbol) (y : Nat) : List Bool := (List.range s.size).map fun x => s.isDark x y

def column (s : Symbol) (x : Nat) : List Bool := (List.range s.size).map fun y => s.isDark x y

def lines (s : Symbol) : List (List Bool) :=
  (List.range s.size).map s.row ++ (List.range s.size).map s.column

end Symbol

def runPenalty (n : Nat) : Nat := if 5 ≤ n then n - 2 else 0

/-- The runs of a line, going on from a run of `n` modules of one kind. -/
def runsPenalty (dark : Bool) (n : Nat) : List Bool → Nat
  | [] => runPenalty n
  | b :: r =>
    if b = dark then runsPenalty dark (n + 1) r else runPenalty n + runsPenalty b 1 r

def linePenalty : List Bool → Nat
  | [] => 0
  | b :: r => runsPenalty b 1 r

def finderRow : List Bool := [true, false, true, true, true, false, true]

/-- Finder rows with four light modules on one side or more. `before` holds up to four modules in
front, the nearest first. -/
def finderPenalty (before : List Bool) : List Bool → Nat
  | [] => 0
  | b :: r =>
    let line := b :: r
    let here :=
      if line.take 7 = finderRow ∧ (!before.any id ∨ !((line.drop 7).take 4).any id) then 40 else 0
    here + finderPenalty ((b :: before).take 4) r

def squarePenalty : List Bool → List Bool → Nat
  | a :: b :: r, c :: d :: t =>
    (if a = b ∧ b = c ∧ c = d then 3 else 0) + squarePenalty (b :: r) (d :: t)
  | _, _ => 0

def squaresPenalty : List (List Bool) → Nat
  | a :: b :: r => squarePenalty a b + squaresPenalty (b :: r)
  | _ => 0

/-- How far the share of dark modules is from one half, in half per cents. -/
def balancePenalty (modules : Array Bool) : Nat :=
  let dark := modules.foldl (fun n b => n + b.toNat) 0
  distance (200 * dark / modules.size) 100

def Symbol.penaltySum (s : Symbol) : Nat :=
  s.lines.foldl (fun n line => n + linePenalty line + finderPenalty [] line) 0
    + squaresPenalty ((List.range s.size).map s.row) + balancePenalty s.modules

/-- What the six lines through the heart of each of the three finders cost in every symbol. -/
def finderShare : UInt16 := 720

/-- The penalty by which masks are compared, without the share of the finders. It has sixteen bits
and wraps around, so that of a great and nearly uniform symbol it may come out small. -/
def Symbol.penalty (s : Symbol) : UInt16 := UInt16.ofNat s.penaltySum - finderShare

/-- The bits of the code words at the modules they are placed on; modules left over get no bit. -/
def placed (n : Nat) (cells : Array Cell) (words : List UInt8) : Array Bool :=
  let bits := words.flatMap fun b => bitsOf 8 b.toNat
  let free := (path n).filter fun (x, y) => cells.getD (y * n + x) .data = .data
  (free.zip bits).foldl (fun a ((x, y), b) => a.setIfInBounds (y * n + x) b)
    (Array.replicate (n * n) false)

def masked (level : Level) (version : Nat) (cells : Array Cell) (data : Array Bool) (kind : Nat) :
    Symbol :=
  let n := side version
  let format := formatBits level kind
  let versionInfo := versionBits version
  let modules := (Array.range (n * n)).map fun i =>
    match cells.getD i .data with
    | .fixed dark => dark
    | .formatBit k => format.testBit k
    | .versionBit k => versionInfo.testBit k
    | .data => data.getD i false != mask kind (i % n) (i / n)
  ⟨n, modules⟩

def better (a b : UInt16 × Symbol) : UInt16 × Symbol := if b.1 < a.1 then b else a

def assemble (level : Level) (version : Nat) (words : List UInt8) : Symbol :=
  let n := side version
  let centres := alignmentCentres version
  let cells := (Array.range (n * n)).map fun i => cell version centres (i % n) (i / n)
  let data := placed n cells words
  let scored (kind : Nat) : UInt16 × Symbol :=
    let s := masked level version cells data kind
    (s.penalty, s)
  (((List.range 7).map (· + 1)).foldl (fun best kind => better best (scored kind)) (scored 0)).2

def symbol? (level : Level) (text : List UInt8) : Option Symbol := do
  let (version, segments) ← plan? level text
  let data ← dataBytes? level version segments
  pure (assemble level version (arrange level version data))

end LabelPress.Qr

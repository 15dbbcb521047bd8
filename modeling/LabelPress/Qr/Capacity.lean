import LabelPress.Qr.Segment

/-!
How much a QR symbol holds: versions 1 to 40, four levels of error correction, and the blocks that
the code words of a symbol are dealt out to.
-/

namespace LabelPress.Qr

inductive Level
  | low
  | medium
  | quartile
  | high
deriving DecidableEq, Repr

namespace Level

def indicator : Level → Nat
  | low => 1
  | medium => 0
  | quartile => 3
  | high => 2

def correctionWordsTable : Level → List Nat
  | low =>
    [ 7, 10, 15, 20, 26, 18, 20, 24, 30, 18, 20, 24, 26, 30, 22, 24, 28, 30, 28, 28, 28, 28, 30, 30,
      26, 28, 30, 30, 30, 30, 30, 30, 30, 30, 30, 30, 30, 30, 30, 30 ]
  | medium =>
    [ 10, 16, 26, 18, 24, 16, 18, 22, 22, 26, 30, 22, 22, 24, 24, 28, 28, 26, 26, 26, 26, 28, 28,
      28, 28, 28, 28, 28, 28, 28, 28, 28, 28, 28, 28, 28, 28, 28, 28, 28 ]
  | quartile =>
    [ 13, 22, 18, 26, 18, 24, 18, 22, 20, 24, 28, 26, 24, 20, 30, 24, 28, 28, 26, 30, 28, 30, 30,
      30, 30, 28, 30, 30, 30, 30, 30, 30, 30, 30, 30, 30, 30, 30, 30, 30 ]
  | high =>
    [ 17, 28, 22, 16, 22, 28, 26, 26, 24, 28, 24, 28, 22, 24, 24, 30, 28, 28, 26, 28, 30, 24, 30,
      30, 30, 30, 30, 30, 30, 30, 30, 30, 30, 30, 30, 30, 30, 30, 30, 30 ]

def blocksTable : Level → List Nat
  | low =>
    [ 1, 1, 1, 1, 1, 2, 2, 2, 2, 4, 4, 4, 4, 4, 6, 6, 6, 6, 7, 8, 8, 9, 9, 10, 12, 12, 12, 13, 14,
      15, 16, 17, 18, 19, 19, 20, 21, 22, 24, 25 ]
  | medium =>
    [ 1, 1, 1, 2, 2, 4, 4, 4, 5, 5, 5, 8, 9, 9, 10, 10, 11, 13, 14, 16, 17, 17, 18, 20, 21, 23, 25,
      26, 28, 29, 31, 33, 35, 37, 38, 40, 43, 45, 47, 49 ]
  | quartile =>
    [ 1, 1, 2, 2, 4, 4, 6, 6, 8, 8, 8, 10, 12, 16, 12, 17, 16, 18, 21, 20, 23, 23, 25, 27, 29, 34,
      34, 35, 38, 40, 43, 45, 48, 51, 53, 56, 59, 62, 65, 68 ]
  | high =>
    [ 1, 1, 2, 4, 4, 4, 5, 6, 8, 8, 11, 11, 16, 16, 18, 16, 19, 21, 25, 25, 25, 34, 30, 32, 35, 37,
      40, 42, 45, 48, 51, 54, 57, 60, 63, 66, 70, 74, 77, 81 ]

def correctionWords (level : Level) (version : Nat) : Nat :=
  level.correctionWordsTable.getD (version - 1) 0

def blocks (level : Level) (version : Nat) : Nat := level.blocksTable.getD (version - 1) 1

end Level

def maxVersion : Nat := 40

def side (version : Nat) : Nat := 17 + 4 * version

/-- Modules that no fixed pattern takes. -/
def dataModules (version : Nat) : Nat :=
  let square := (16 * version + 128) * version + 64
  if version < 2 then square
  else
    let n := version / 7 + 2
    square - ((25 * n - 10) * n - 55) - (if version < 7 then 0 else 36)

def codewords (version : Nat) : Nat := dataModules version / 8

def dataWords (level : Level) (version : Nat) : Nat :=
  codewords version - level.correctionWords version * level.blocks version

/-- The data bits that a symbol holds. -/
def capacity (level : Level) (version : Nat) : Nat := 8 * dataWords level version

def leastVersion? (level : Level) (bits : Nat) : Option Nat :=
  ((List.range maxVersion).map (· + 1)).find? fun version => bits ≤ capacity level version

/-- The segments of a text and the version that holds them. The joining depends on the band of
versions, so the bands are tried in turn. -/
def plan? (level : Level) (text : List UInt8) : Option (Nat × List Segment) := do
  let runs := cut text
  let band ← Band.all.find? fun band =>
    totalBits band (merge band runs) ≤ capacity level band.top
  let segments := merge band runs
  let version ← leastVersion? level (totalBits band segments)
  pure (version, segments)

end LabelPress.Qr

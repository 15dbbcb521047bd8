import LabelPress.Printer.Density

/-!
Font sizes. A size is asked for in nominal points and snaps to a preset, which has one height in
dots per density.
-/

namespace LabelPress.FontSize

/-- A nominal size and its height in dots at each density. -/
structure Preset where
  nominal : Nat
  dots152 : Nat
  dots203 : Nat
  dots300 : Nat
  dots600 : Nat
deriving DecidableEq, Repr

def Preset.dots (p : Preset) : Density → Nat
  | .dpi152 => p.dots152
  | .dpi203 => p.dots203
  | .dpi300 => p.dots300
  | .dpi600 => p.dots600

def smallest : Preset := ⟨6, 13, 17, 25, 51⟩

def larger : List Preset :=
  [ ⟨7, 15, 20, 29, 59⟩,
    ⟨8, 17, 23, 33, 68⟩,
    ⟨9, 19, 25, 37, 76⟩,
    ⟨10, 21, 28, 42, 85⟩,
    ⟨11, 23, 31, 46, 93⟩,
    ⟨12, 25, 34, 50, 102⟩,
    ⟨13, 28, 37, 54, 110⟩,
    ⟨14, 30, 40, 58, 119⟩,
    ⟨16, 34, 45, 67, 135⟩,
    ⟨18, 38, 51, 75, 152⟩,
    ⟨20, 42, 56, 83, 169⟩,
    ⟨24, 51, 68, 100, 203⟩,
    ⟨28, 59, 79, 117, 237⟩,
    ⟨32, 68, 90, 133, 271⟩,
    ⟨36, 76, 102, 150, 305⟩,
    ⟨48, 102, 135, 200, 406⟩,
    ⟨72, 152, 203, 300, 610⟩ ]

def presets : List Preset := smallest :: larger

def Preset.distance (p : Preset) (size : Nat) : Nat := (p.nominal - size) + (size - p.nominal)

def closer (size : Nat) (best next : Preset) : Preset :=
  if next.distance size < best.distance size then next else best

/-- The preset nearest to a nominal size, the smaller one on a tie. -/
def nearest (size : Nat) : Preset := larger.foldl (closer size) smallest

def inDots (size : UInt32) (density : Density) : Nat := (nearest size.toNat).dots density

end LabelPress.FontSize

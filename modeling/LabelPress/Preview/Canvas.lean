import LabelPress.Zpl.Token

/-!
A canvas of black and white pixels, and filling rectangles on it. A rectangle may lie anywhere and
be of any size; only what falls on the canvas is drawn.
-/

namespace LabelPress

/-- A rectangle on the unbounded plane, and its colour. -/
structure Fill where
  left : Int32
  top : Int32
  width : Int32
  height : Int32
  ink : LineColor
deriving DecidableEq, Repr

structure Canvas where
  width : Nat
  height : Nat
  pixels : Array LineColor
deriving DecidableEq, Repr

namespace Canvas

def blank (width height : Nat) : Canvas :=
  { width, height, pixels := Array.replicate (width * height) .white }

/-- The colour at column `x` and row `y`; white outside the canvas. -/
def pixel (c : Canvas) (x y : Nat) : LineColor :=
  if x < c.width ∧ y < c.height then c.pixels.getD (y * c.width + x) .white else .white

def setRun (ink : LineColor) (pixels : Array LineColor) (i : Nat) : (count : Nat) → Array LineColor
  | 0 => pixels
  | count + 1 => setRun ink (pixels.setIfInBounds i ink) (i + 1) count

def setRows (ink : LineColor) (width count : Nat) (pixels : Array LineColor) (i : Nat) :
    (rows : Nat) → Array LineColor
  | 0 => pixels
  | rows + 1 => setRows ink width count (setRun ink pixels i count) (i + width) rows

/-- The part from `start` to `start + length` that lies between zero and a limit, as its two
ends. -/
def clip (start length : Int32) (limit : Nat) : Nat × Nat :=
  ((max 0 (min start.toInt limit)).toNat, (max 0 (min (start.toInt + length.toInt) limit)).toNat)

def fill (c : Canvas) (f : Fill) : Canvas :=
  let (x0, x1) := clip f.left f.width c.width
  let (y0, y1) := clip f.top f.height c.height
  { c with pixels := setRows f.ink c.width (x1 - x0) c.pixels (y0 * c.width + x0) (y1 - y0) }

def paint (c : Canvas) (fills : List Fill) : Canvas := fills.foldl fill c

def row (c : Canvas) (y : Nat) : List LineColor :=
  (c.pixels.extract (y * c.width) ((y + 1) * c.width)).toList

def rows (c : Canvas) : List (List LineColor) := (List.range c.height).map c.row

end Canvas

end LabelPress

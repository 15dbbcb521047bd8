import LabelPress.Units
import LabelPress.Zpl.Command

/-!
Where an element is placed, in dots. Both coordinates may be missing, and a position is written only
if neither is.
-/

namespace LabelPress

structure Position where
  x : Option Int32 := none
  y : Option Int32 := none
deriving DecidableEq, Repr, Inhabited

namespace Position

def ofDots (x y : Int32) : Position := ⟨some x, some y⟩

def ofMm (x y : Binary.Single) (d : Density) : Position :=
  ofDots (Units.dotsOfMm x d) (Units.dotsOfMm y d)

def resolved (p : Position) : Option (Int32 × Int32) :=
  match p.x, p.y with
  | some x, some y => some (x, y)
  | _, _ => none

def written (mnemonic : String) (p : Position) : String :=
  match p.resolved with
  | some (x, y) => Zpl.command mnemonic [Zpl.parameter x.toInt, Zpl.parameter y.toInt]
  | none => ""

def typeset (p : Position) : String := p.written Zpl.Mnemonic.fieldTypeset

def origin (p : Position) : String := p.written Zpl.Mnemonic.fieldOrigin

end Position

end LabelPress

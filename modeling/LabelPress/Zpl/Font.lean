import LabelPress.Named

/-!
The resident fonts of a printer, each named by one character.
-/

namespace LabelPress

/-- Font `zero` is scalable, the lettered ones are bitmaps that the printer magnifies. -/
inductive Font
  | zero | a | b | c | d | e | f | g | h | p | q | r | s | t | u | v
deriving DecidableEq, Repr, Inhabited

namespace Font

instance : Named Font where
  all := [zero, a, b, c, d, e, f, g, h, p, q, r, s, t, u, v]
  name
    | zero => "zero"
    | a => "a"
    | b => "b"
    | c => "c"
    | d => "d"
    | e => "e"
    | f => "f"
    | g => "g"
    | h => "h"
    | p => "p"
    | q => "q"
    | r => "r"
    | s => "s"
    | t => "t"
    | u => "u"
    | v => "v"

def token : Font → String
  | zero => "0"
  | a => "A"
  | b => "B"
  | c => "C"
  | d => "D"
  | e => "E"
  | f => "F"
  | g => "G"
  | h => "H"
  | p => "P"
  | q => "Q"
  | r => "R"
  | s => "S"
  | t => "T"
  | u => "U"
  | v => "V"

end Font

end LabelPress

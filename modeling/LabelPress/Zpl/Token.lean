import LabelPress.Named
import LabelPress.Zpl.Command

/-!
Closed sets of parameter values that several commands share, each with its letter on the wire.
-/

namespace LabelPress

inductive Rotation
  | normal
  | rotated
  | inverted
  | bottomUp
deriving DecidableEq, Repr, Inhabited

namespace Rotation

instance : Named Rotation where
  all := [normal, rotated, inverted, bottomUp]
  name
    | normal => "normal"
    | rotated => "rotated"
    | inverted => "inverted"
    | bottomUp => "bottom_up"

def token : Rotation → String
  | normal => "N"
  | rotated => "R"
  | inverted => "I"
  | bottomUp => "B"

end Rotation

/-- What the printer does with the media after a label. -/
inductive PrintMode
  | tearOff
  | peelOff
  | rewind
  | applicator
  | cutter
  | delayedCut
  | kiosk
deriving DecidableEq, Repr, Inhabited

namespace PrintMode

instance : Named PrintMode where
  all := [tearOff, peelOff, rewind, applicator, cutter, delayedCut, kiosk]
  name
    | tearOff => "tear_off"
    | peelOff => "peel_off"
    | rewind => "rewind"
    | applicator => "applicator"
    | cutter => "cutter"
    | delayedCut => "delayed_cut"
    | kiosk => "kiosk"

def token : PrintMode → String
  | tearOff => "T"
  | peelOff => "P"
  | rewind => "R"
  | applicator => "A"
  | cutter => "C"
  | delayedCut => "D"
  | kiosk => "K"

def zpl (mode : PrintMode) : String := Zpl.commandLine Zpl.Mnemonic.printMode [mode.token]

end PrintMode

inductive LineColor
  | black
  | white
deriving DecidableEq, Repr, Inhabited

namespace LineColor

instance : Named LineColor where
  all := [black, white]
  name
    | black => "black"
    | white => "white"

def token : LineColor → String
  | black => "B"
  | white => "W"

end LineColor

end LabelPress

import LabelPress.Printer.FontSize
import LabelPress.Zpl.Font

/-!
The printer configuration that a label is encoded against.
-/

namespace LabelPress

structure PrinterConfig where
  density : Density := default
  defaultFont : Option Font := none
  defaultFontSize : Option UInt32 := none
deriving DecidableEq, Repr, Inhabited

namespace PrinterConfig

def resolvedFont (c : PrinterConfig) : Option (Font × Nat) :=
  match c.defaultFont, c.defaultFontSize with
  | some font, some size => some (font, FontSize.inDots size c.density)
  | _, _ => none

end PrinterConfig

end LabelPress

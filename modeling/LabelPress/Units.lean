import LabelPress.Printer.Density

/-!
Conversions between physical measures and printer dots, in single precision with one rounding per
operation. A dot is one place of the print head's grid, a point is 1/72 inch, and a preview pixel is
a tenth of a millimetre.
-/

namespace LabelPress.Units

open Binary

/-- Millimetres per point, the rounded quotient of the rounded inch. -/
def mmPerPoint : Single := Number.ofRat (127 / 5) / Number.ofRat 72

def pixelsPerMm : Single := Number.ofRat 10

def dotsOfMm (mm : Single) (d : Density) : Int32 := (mm * d.dotsPerMm).toInt32

def mmOfDots (dots : Int32) (d : Density) : Single := Number.ofInt dots.toInt / d.dotsPerMm

def dotsOfPoints (points : Single) (d : Density) : Int32 := dotsOfMm (points * mmPerPoint) d

def pointsOfDots (dots : Int32) (d : Density) : Single := mmOfDots dots d / mmPerPoint

def pixelsOfDots (dots : Int32) (d : Density) : Int32 := (mmOfDots dots d * pixelsPerMm).toInt32

end LabelPress.Units

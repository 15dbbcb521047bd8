/-!
Blank characters: the 25 code points with the Unicode property White_Space, and trimming by it.
-/

namespace LabelPress.Text

/-- A character of the White_Space property. -/
def isBlank (c : Char) : Bool :=
  let n := c.toNat
  (0x09 ≤ n && n ≤ 0x0D) || n == 0x20 || n == 0x85 || n == 0xA0 || n == 0x1680
    || (0x2000 ≤ n && n ≤ 0x200A) || n == 0x2028 || n == 0x2029 || n == 0x202F || n == 0x205F
    || n == 0x3000

def trimWhere (p : Char → Bool) (s : List Char) : List Char :=
  (((s.dropWhile p).reverse).dropWhile p).reverse

def trim (s : List Char) : List Char := trimWhere isBlank s

end LabelPress.Text

/-!
Cutting text at a separator.
-/

namespace LabelPress.Text

/-- The pieces between separators, empty ones included; a text without a separator is one piece. -/
def split (separator : Char) : List Char → List (List Char)
  | [] => [[]]
  | c :: r =>
    if c = separator then [] :: split separator r
    else
      match split separator r with
      | [] => [[c]]
      | piece :: pieces => (c :: piece) :: pieces

def splitLast? (separator : Char) (s : List Char) : Option (List Char × List Char) :=
  let back := s.reverse
  match back.dropWhile (· ≠ separator) with
  | [] => none
  | _ :: before => some (before.reverse, (back.takeWhile (· ≠ separator)).reverse)

end LabelPress.Text

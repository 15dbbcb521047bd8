import LabelPress.Text.Split

/-!
Paths as text: their names, and the extension of the last one.
-/

namespace LabelPress.Path

def names (path : String) : List String :=
  ((Text.split '/' path.toList).filter (· ≠ [])).map String.ofList

def isAbsolute (path : String) : Bool := path.toList.head? = some '/'

def asksForDirectory (path : String) : Bool := path.toList.getLast? = some '/'

/-- The last name. Names `.` do not count, and `..` at the end names no file. -/
def fileName? (path : String) : Option String :=
  match ((names path).filter (· ≠ ".")).getLast? with
  | some ".." => none
  | last => last

/-- What follows the last point of the file name. A point that begins the name does not count. -/
def extension? (path : String) : Option String := do
  let name ← fileName? path
  let (before, after) ← Text.splitLast? '.' name.toList
  if before = [] then none else some (String.ofList after)

end LabelPress.Path

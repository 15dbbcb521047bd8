/-!
Closed sets of alternatives that a document refers to by name.
-/

namespace LabelPress

/-- Every alternative once, in the order in which messages list them, and its name in documents. -/
class Named (α : Type) where
  all : List α
  name : α → String

namespace Named

variable {α : Type} [Named α]

def names (α : Type) [Named α] : List String := (all : List α).map name

def find? (s : String) : Option α := all.find? fun a => name a == s

end Named

end LabelPress

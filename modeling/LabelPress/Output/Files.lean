import LabelPress.Output.FileSystem
import LabelPress.Output.Path

/-! Files and directories as a value. Paths lead from the working directory, name by name, and every
name but the last has to be a directory. Appending keeps what a file holds; only replacing empties
it. A step that fails changes nothing. -/

namespace LabelPress

/-- Where a path leads: names from the deepest one up to the working directory. A lowest name `/`
stands for the root, lowest names `..` for directories above the working directory. -/
abbrev Place := List String

inductive Node
  | file (bytes : List UInt8)
  /-- A file that may be read and must not be written to. -/
  | readOnly (bytes : List UInt8)
  | directory
deriving DecidableEq, Repr

/-- What there is at each place. The working directory, the root and the directories above the
working directory are always there. -/
structure Files where
  nodes : List (Place × Node) := []
deriving DecidableEq, Repr

namespace Files

def findNode? (place : Place) : List (Place × Node) → Option Node
  | [] => none
  | (p, n) :: r => if p = place then some n else findNode? place r

def node? (files : Files) (place : Place) : Option Node := findNode? place files.nodes

def putNode (place : Place) (node : Node) : List (Place × Node) → List (Place × Node)
  | [] => [(place, node)]
  | (p, n) :: r => if p = place then (p, node) :: r else (p, n) :: putNode place node r

def put (files : Files) (place : Place) (node : Node) : Files :=
  ⟨putNode place node files.nodes⟩

theorem findNode?_putNode (place other : Place) (node : Node) (nodes : List (Place × Node)) :
    findNode? other (putNode place node nodes) =
      if other = place then some node else findNode? other nodes := by
  induction nodes with
  | nil =>
    by_cases h : other = place
    · simp [putNode, findNode?, h]
    · simp [putNode, findNode?, h, Ne.symm h]
  | cons pn r ih =>
    obtain ⟨p, n⟩ := pn
    by_cases hp : p = place
    · subst hp
      by_cases h : other = p
      · simp [putNode, findNode?, h]
      · simp [putNode, findNode?, h, Ne.symm h]
    · by_cases ho : p = other
      · subst ho
        simp [putNode, findNode?, hp]
      · simp [putNode, findNode?, hp, ho, ih]

@[simp] theorem node?_put (files : Files) (place other : Place) (node : Node) :
    (files.put place node).node? other = if other = place then some node else files.node? other :=
  findNode?_putNode place other node files.nodes

def content? (files : Files) (place : Place) : Option (List UInt8) :=
  match files.node? place with
  | some (.file bytes) => some bytes
  | some (.readOnly bytes) => some bytes
  | _ => none

@[simp] theorem content?_put (files : Files) (place other : Place) (bytes : List UInt8) :
    (files.put place (.file bytes)).content? other =
      if other = place then some bytes else files.content? other := by
  unfold content?
  rw [node?_put]
  by_cases h : other = place <;> simp [h]

def maxPath : Nat := 4095

def maxName : Nat := 255

def isDirectory (files : Files) (place : Place) : Bool :=
  match place with
  | [] | "/" :: _ | ".." :: _ => true
  | _ => files.node? place = some .directory

def isReadOnly (files : Files) (place : Place) : Bool :=
  match files.node? place with
  | some (.readOnly _) => true
  | _ => false

def parent : Place → Place
  | [] => [".."]
  | "/" :: r => "/" :: r
  | ".." :: r => ".." :: ".." :: r
  | _ :: r => r

def enter (files : Files) (place : Place) (name : String) : Except SystemError Place :=
  if files.isDirectory place then
    if name = "." then .ok place
    else if name = ".." then .ok (parent place)
    else if name.utf8ByteSize ≤ maxName then .ok (name :: place)
    else .error .nameTooLong
  else if (files.node? place).isSome then .error .notDirectory
  else .error .notFound

def start (path : String) : Place := if Path.isAbsolute path then ["/"] else []

def checkPath (path : String) : Except SystemError Unit :=
  if path.toList.contains (Char.ofNat 0) then .error .nulInPath
  else if path = "" then .error .notFound
  else if maxPath < path.utf8ByteSize then .error .nameTooLong
  else .ok ()

/-- Where a path leads. A slash at its end asks for a directory. -/
def resolve (files : Files) (path : String) : Except SystemError Place := do
  checkPath path
  let place ← (Path.names path).foldlM files.enter (start path)
  if Path.asksForDirectory path then files.enter place "." else pure place

/-- Where a path leads that is to be written: a file that may be, or nothing, in a directory. -/
def resolveToWrite (files : Files) (path : String) : Except SystemError Place := do
  checkPath path
  let above := (Path.names path).dropLast
  let directory ← above.foldlM files.enter (start path)
  match (Path.names path).getLast? with
  | none => throw .isDirectory
  | some last =>
    let place ← files.enter directory (if Path.asksForDirectory path then "." else last)
    if files.isDirectory place then throw .isDirectory
    if files.isReadOnly place then throw .permissionDenied
    pure place

def read (files : Files) (path : String) : Except SystemError (List UInt8) := do
  let place ← files.resolve path
  if files.isDirectory place then throw .isDirectory
  match files.content? place with
  | some bytes => pure bytes
  | none => throw .notFound

def replace (files : Files) (path : String) (bytes : List UInt8) : Except SystemError Files := do
  let place ← files.resolveToWrite path
  pure (files.put place (.file bytes))

def openToAppend (files : Files) (path : String) : Except SystemError (Place × Files) := do
  let place ← files.resolveToWrite path
  match files.content? place with
  | some _ => pure (place, files)
  | none => pure (place, files.put place (.file []))

def append (files : Files) (place : Place) (bytes : List UInt8) : Files :=
  files.put place (.file ((files.content? place).getD [] ++ bytes))

@[simp] theorem content?_append (files : Files) (place other : Place) (bytes : List UInt8) :
    (files.append place bytes).content? other =
      if other = place then some ((files.content? place).getD [] ++ bytes)
      else files.content? other :=
  content?_put files place other _

/-- A step of programs on files: a failing one leaves them as they are. -/
instance : FileSystem (StateM Files) where
  Handle := Place
  read path := fun files => (files.read path, files)
  replace path bytes := fun files =>
    match files.replace path bytes with
    | .error e => (.error e, files)
    | .ok files => (.ok (), files)
  openToAppend path := fun files =>
    match files.openToAppend path with
    | .error e => (.error e, files)
    | .ok (place, files) => (.ok place, files)
  append place bytes := fun files => (.ok (), files.append place bytes)

end Files

end LabelPress

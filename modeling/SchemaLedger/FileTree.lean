import SchemaLedger.Path

/-!
# File trees

The files and directories a project lives among. A location is the list of names from the
root down to an entry; the root itself is always a directory, and relative paths begin at
the current directory. Content that is no text is told apart, because
it cannot be read as one.
-/

namespace SchemaLedger

/-- What an attempt to use a file can fail with. -/
inductive IoFault where
  | notFound
  | exists
  | notDirectory
  | isDirectory
  | notText
  deriving DecidableEq

/-- The wording of a fault. -/
def IoFault.message : IoFault → String
  | .notFound => "No such file or directory (os error 2)"
  | .exists => "File exists (os error 17)"
  | .notDirectory => "Not a directory (os error 20)"
  | .isDirectory => "Is a directory (os error 21)"
  | .notText => "stream did not contain valid UTF-8"

/-- An entry of a directory. -/
inductive Entry where
  | directory
  | file (text : String)
  | binary
  deriving DecidableEq

/-- The names from the root down to an entry. -/
abbrev Location := List String

/-- Files and directories. -/
structure FileTree where
  current : Location := []
  entries : List (Location × Entry) := []
  deriving DecidableEq

namespace FileTree

/-- The entry at a location. -/
def get? (t : FileTree) (l : Location) : Option Entry :=
  if l = [] then some .directory else t.entries.lookup l

/-- Puts an entry at a location, in place of any that is there. -/
def put (t : FileTree) (l : Location) (e : Entry) : FileTree :=
  { t with entries := (l, e) :: t.entries.filter (·.1 ≠ l) }

/-- Puts an entry at a location, and directories above it where there is nothing. -/
def install (t : FileTree) (l : Location) (e : Entry) : FileTree :=
  let above := (List.range l.length).map l.take
  (above.foldl (fun t l => if (t.get? l).isSome then t else t.put l .directory) t).put l e

/-- Takes away the entry at a location. -/
def erase (t : FileTree) (l : Location) : FileTree :=
  { t with entries := t.entries.filter (·.1 ≠ l) }

/-- Walks from a location along the parts of a path. All but the last have to be there. -/
def walk (t : FileTree) (l : Location) : List String → Except IoFault Location
  | [] => .ok l
  | name :: rest =>
    match t.get? l with
    | some .directory => t.walk (if name = ".." then l.dropLast else l ++ [name]) rest
    | some _ => .error .notDirectory
    | none => .error .notFound

/-- The location of a path. -/
def locate (t : FileTree) (p : Path) : Except IoFault Location :=
  if p.text.isEmpty then .error .notFound
  else t.walk (if p.isAbsolute then [] else t.current) p.steps

/-- The entry of a path. -/
def find (t : FileTree) (p : Path) : Except IoFault Entry := do
  match t.get? (← t.locate p) with
  | some .directory => return .directory
  | some e => if p.demandsDirectory then throw .notDirectory else return e
  | none => throw .notFound

/-- Whether a path leads to an entry. -/
def has (t : FileTree) (p : Path) : Bool :=
  match t.find p with
  | .ok _ => true
  | .error _ => false

/-- Whether a path leads to a directory. -/
def isDirectory (t : FileTree) (p : Path) : Bool :=
  match t.find p with
  | .ok .directory => true
  | _ => false

/-- The text of a file. -/
def read (t : FileTree) (p : Path) : Except IoFault String := do
  match ← t.find p with
  | .file text => return text
  | .binary => throw .notText
  | .directory => throw .isDirectory

/-- Writes a file, whose directory has to be there. -/
def write (t : FileTree) (p : Path) (text : String) : Except IoFault FileTree := do
  let l ← t.locate p
  if t.get? l = some .directory || p.demandsDirectory then throw .isDirectory
  return t.put l (.file text)

/-- Makes one directory. -/
def makeDirectory (t : FileTree) (p : Path) : Except IoFault FileTree := do
  let l ← t.locate p
  if (t.get? l).isSome then throw .exists
  return t.put l .directory

/-- What making a directory comes to where one that is there is as good as a new one. -/
def makeOrKeepDirectory (t : FileTree) (p : Path) : Except IoFault Unit × FileTree :=
  match t.makeDirectory p with
  | .ok t => (.ok (), t)
  | .error e => (if t.isDirectory p then .ok () else .error e, t)

/-- Makes a directory and those above it that are missing. Those that were made before a
failure stay. -/
def makeDirectories (t : FileTree) (p : Path) : Except IoFault Unit × FileTree :=
  if p.text.isEmpty then (.ok (), t)
  else
    match t.makeDirectory p with
    | .error .notFound =>
      match p.parent? with
      | some parent =>
        if parent.text.length < p.text.length then
          match t.makeDirectories parent with
          | (.ok (), t) => t.makeOrKeepDirectory p
          | failed => failed
        else (.error .notFound, t)
      | none => (.error .notFound, t)
    | _ => t.makeOrKeepDirectory p
termination_by p.text.length

/-- The names in a directory with their entries, in ascending order. -/
def list (t : FileTree) (l : Location) : List (String × Entry) :=
  (t.entries.filterMap fun (place, e) =>
    match place.getLast? with
    | some name => if place.dropLast = l then some (name, e) else none
    | none => none).mergeSort fun a b => decide (a.1 ≤ b.1)

/-- The entries that are in the second tree but not in the first. -/
def added (before after : FileTree) : List (Location × Entry) :=
  after.entries.filter fun (l, _) => (before.get? l).isNone

/-- The path of a location. -/
def pathOf (l : Location) : String :=
  if l = [] then "/" else String.join (l.map ("/" ++ ·))

end FileTree

end SchemaLedger

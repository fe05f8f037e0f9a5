import SchemaLedger.Source.Basic

/-!
# Directories of migration files

In a directory every file that ends in `.yml` or `.yaml` holds the migration that is named
by the rest of its file name. Subdirectories and hidden files do not count, and two files
for one name are an error. The order in which a directory lists its entries does not matter
for the answer.
-/

namespace SchemaLedger

/-- An entry as a directory lists it. A name that is no text is absent. -/
structure DirectoryEntry where
  name : Option String
  isDirectory : Bool
  deriving DecidableEq

namespace DirectoryEntry

/-- A migration file ends in one of these. -/
def extensions : List String := ["yml", "yaml"]

/-- The name of the file and of the migration that an entry holds. -/
def migration? (e : DirectoryEntry) : Option (String × Name) :=
  if e.isDirectory then none
  else
    e.name.bind fun file =>
      let stem := FileName.stem file
      if (FileName.extension? file).any (extensions.contains ·) && stem.toList.head? ≠ some '.'
      then (Name.ofText? stem).map (file, ·)
      else none

end DirectoryEntry

namespace MigrationDirectory

/-- Adds the migrations of some entries to those that were found before. -/
def scanFrom (dir : Path) (found : List (Name × Path)) :
    List DirectoryEntry → Except SourceError (List (Name × Path))
  | [] => .ok found
  | e :: rest =>
    match e.migration? with
    | none => scanFrom dir found rest
    | some (file, name) =>
      let path := dir.join file
      match found.lookup name with
      | some first => .error (.duplicateMigration name.text first.text path.text)
      | none => scanFrom dir (found ++ [(name, path)]) rest

/-- The migrations of a directory with their files. -/
def scan (dir : Path) (entries : List DirectoryEntry) : Except SourceError (List (Name × Path)) :=
  scanFrom dir [] entries

/-- The entries of a directory. -/
def entries (files : FileTree) (dir : Path) : Except SourceError (List DirectoryEntry) :=
  match files.locate dir with
  | .ok place =>
    if files.isDirectory dir then
      .ok ((files.list place).map fun (name, e) => ⟨some name, e = .directory⟩)
    else .error (.directoryNotFound dir.text)
  | .error _ => .error (.directoryNotFound dir.text)

/-- The migrations of a directory among other files. -/
def find (files : FileTree) (dir : Path) : Except SourceError (List (Name × Path)) := do
  scan dir (← entries files dir)

/-- The names in ascending order. -/
def names (files : FileTree) (dir : Path) : Except SourceError (List Name) :=
  (find files dir).map fun found => Name.sort (found.map (·.1))

/-- The file of a migration. -/
def pathOf (files : FileTree) (dir : Path) (name : Name) : Except SourceError Path := do
  match (← find files dir).lookup name with
  | some path => return path
  | none => throw (.migrationNotFound name.text)

/-- Loads a migration. -/
def load (files : FileTree) (dir : Path) (name : Name) : Except SourceError Definition := do
  let path ← pathOf files dir name
  return (← MigrationFile.load files path).definition

/-- A directory as a source. -/
def source (files : FileTree) (dir : Path) : Source where
  list := names files dir
  load := load files dir

end MigrationDirectory

end SchemaLedger

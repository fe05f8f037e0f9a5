import SchemaLedger.Calendar.Moment
import SchemaLedger.Source.Directory
import SchemaLedger.Sql.Name

/-!
# Scaffolds

A scaffold is a migration file that does nothing yet. Its name begins with the moment it was
made at, as digits that all have their places, so that files sort in the order they were made.
-/

namespace SchemaLedger

/-- Why there is no scaffold. -/
inductive ScaffoldFault where
  | invalidName (name : String)
  | directory (path : Path) (fault : IoFault)
  | exists (path : Path)
  | write (path : Path) (fault : IoFault)
  deriving DecidableEq

namespace Scaffold

/-- The identifier of a migration made at a moment. -/
def identifier (now : Moment) (name : String) : String := now.stamp ++ "_" ++ name

/-- The name of its file. -/
def fileName (now : Moment) (name : String) : String := identifier now name ++ ".yml"

/-- A name with blanks in place of its underscores. -/
def title (name : String) : String :=
  String.ofList (name.toList.map fun c => if c = '_' then ' ' else c)

/-- The text of a migration that does nothing yet. -/
def template (name : String) : String :=
  "description: " ++ title name ++ "\n" ++
  "up: []\n" ++
  "# up:\n" ++
  "#   - create_table:\n" ++
  "#       name: example\n" ++
  "#       columns:\n" ++
  "#         - \x7b name: id, type: id \x7d\n" ++
  "#         - \x7b type: timestamps \x7d\n" ++
  "down: []\n"

/-- Writes a scaffold into a directory, which is made if it is missing, and says where the
scaffold is. The files are those after the attempt, which may have made directories even if it
failed. -/
def create (files : FileTree) (dir : Path) (name : String) (now : Moment) :
    Except ScaffoldFault Path × FileTree :=
  if !Sql.isIdentifier name then (.error (.invalidName name), files)
  else
    match files.makeDirectories dir with
    | (.error fault, files) => (.error (.directory dir fault), files)
    | (.ok (), files) =>
      let path := dir.join (fileName now name)
      if files.has path then (.error (.exists path), files)
      else
        match files.write path (template name) with
        | .ok files => (.ok path, files)
        | .error fault => (.error (.write path fault), files)

end Scaffold

end SchemaLedger

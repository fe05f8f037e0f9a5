import SchemaLedger.FileTree
import SchemaLedger.Migration.Name
import SchemaLedger.Migration.Parse

/-!
# Why a source has no migrations to offer
-/

namespace SchemaLedger

/-- Why a source cannot list its migrations or load one. -/
inductive SourceError where
  | directoryNotFound (path : String)
  | migrationNotFound (name : String)
  | duplicateMigration (name first second : String)
  | parse (origin : String) (fault : MigrationFile.ParseFault)
  | io (path : String) (fault : IoFault)

/-- The wording of a source error. -/
def SourceError.message : SourceError → String
  | .directoryNotFound path => "[E003] Migrations directory not found: " ++ path
  | .migrationNotFound name => "[E004] Migration not found: " ++ name
  | .duplicateMigration name first second =>
    "[E005] Duplicate migration '" ++ name ++ "' in " ++ first ++ " and " ++ second
  | .parse origin fault =>
    "[E006] Failed to parse migration file " ++ origin ++ ": " ++ fault.message
  | .io path fault => "[E010] Failed to read '" ++ path ++ "': " ++ fault.message

namespace MigrationFile

/-- Reads the text of a migration file; `origin` names the file in messages. -/
def parseFrom (content origin : String) : Except SourceError MigrationFile :=
  (parse content).mapError (.parse origin)

/-- Reads a migration file. -/
def load (files : FileTree) (path : Path) : Except SourceError MigrationFile :=
  match files.read path with
  | .ok content => parseFrom content path.text
  | .error fault => .error (.io path.text fault)

end MigrationFile

end SchemaLedger

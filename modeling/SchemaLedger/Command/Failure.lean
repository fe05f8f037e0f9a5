import SchemaLedger.Migrate.Error
import SchemaLedger.Project.Basic
import SchemaLedger.Project.Scaffold

/-!
# Failures of commands

A command fails at one of its steps. The messages of a failure lead from the step to the
cause.
-/

namespace SchemaLedger

/-- The messages of an error that comes from a configuration. -/
def ConfigurationError.chain (e : ConfigurationError) : List String :=
  e.message ::
    match e with
    | .io _ fault => [fault.message]
    | .yaml error => [error.message]
    | .notFound _ | .invalid _ => []

/-- The messages of an error that comes from a source. -/
def SourceError.chain (e : SourceError) : List String :=
  e.message ::
    match e with
    | .io _ fault => [fault.message]
    | _ => []

/-- The messages of an error that comes from migrating. -/
def MigrateError.chain (e : MigrateError) : List String :=
  e.message ::
    match e with
    | .load _ error | .discovery error => error.chain
    | .compile _ error => [error.message]
    | _ => []

/-- The messages of a fault that comes from scaffolding. -/
def ScaffoldFault.chain : ScaffoldFault → List String
  | .invalidName name =>
    ["Invalid migration name '" ++ name ++ "': use letters, digits, and underscores"]
  | .directory path fault => ["Failed to create " ++ path.text, fault.message]
  | .exists path => ["Migration file already exists: " ++ path.text]
  | .write path fault => ["Failed to write " ++ path.text, fault.message]

/-- The step at which a command failed, with the cause. -/
inductive Failure where
  | loadProject (error : ConfigurationError)
  | chooseDatabase (fault : ConfigurationFault)
  | makeDirectory (path : Path) (fault : IoFault)
  | connect (error : MigrateError)
  | plan (error : MigrateError)
  | apply (error : MigrateError)
  | readLedger (error : MigrateError)
  | revert (error : MigrateError)
  | readStatus (error : MigrateError)
  | listMigrations (error : SourceError)
  | emptyName
  | loadMigration (name : Name) (error : SourceError)
  | compileMigration (name : Name) (error : SchemaError)
  | scaffold (fault : ScaffoldFault)

/-- The messages of a failure, from the step to the cause. -/
def Failure.chain : Failure → List String
  | .loadProject error => "Failed to load project" :: error.chain
  | .chooseDatabase fault =>
    "Failed to get database configuration" :: (ConfigurationError.invalid fault).chain
  | .makeDirectory path fault => ["Failed to create " ++ path.text, fault.message]
  | .connect error => "Failed to connect to database" :: error.chain
  | .plan error => "Failed to compile pending migrations" :: error.chain
  | .apply error => "Migration failed" :: error.chain
  | .readLedger error => "Failed to read the ledger" :: error.chain
  | .revert error => "Rollback failed" :: error.chain
  | .readStatus error => "Failed to read migration status" :: error.chain
  | .listMigrations error => "Failed to list migrations" :: error.chain
  | .emptyName => ["Invalid migration name ''"]
  | .loadMigration name error =>
    ("Failed to load migration '" ++ name.text ++ "'") :: error.chain
  | .compileMigration name error =>
    ["Failed to compile migration '" ++ name.text ++ "'", error.message]
  | .scaffold fault => fault.chain

end SchemaLedger

import SchemaLedger.Path
import SchemaLedger.Sql.Name

/-!
# Project configurations

A configuration names the project, the directory with its migrations, the table of its
ledger, and a database. Named targets may bring a database of their own. Which database is
meant depends on the target that was chosen, and a target that is not there is an error:
it never stands for the base database.
-/

namespace SchemaLedger

/-- The kinds of database. -/
inductive DatabaseKind where
  | duckdb
  deriving DecidableEq

/-- The name of a kind of database. -/
def DatabaseKind.name : DatabaseKind → String
  | .duckdb => "duckdb"

/-- The path that stands for a database in memory. -/
def memoryPath : String := ":memory:"

/-- How to find a database. -/
structure DatabaseSettings where
  kind : DatabaseKind := .duckdb
  path : String := memoryPath
  deriving DecidableEq

/-- What a target changes. -/
structure Target where
  database : Option DatabaseSettings := none
  deriving DecidableEq

/-- The table that a ledger has unless another one is named. -/
def defaultLedgerTable : String := "tw_migrations"

/-- The configuration of a project. -/
structure Configuration where
  name : String
  migrationsDirectory : String := "migrations"
  ledgerTable : String := defaultLedgerTable
  database : DatabaseSettings := {}
  targets : List (String × Target) := []
  deriving DecidableEq

/-- What is wrong with a configuration that can be read. -/
inductive ConfigurationFault where
  | emptyName
  | emptyMigrationsDirectory
  | invalidLedgerTable (table : String)
  | unknownTarget (name : String) (available : List String)
  deriving DecidableEq

/-- The wording of a fault. -/
def ConfigurationFault.message : ConfigurationFault → String
  | .emptyName => "Project name cannot be empty"
  | .emptyMigrationsDirectory => "migrations_dir cannot be empty"
  | .invalidLedgerTable table => "ledger_table '" ++ table ++ "' is not a valid table name"
  | .unknownTarget name available =>
    "Target '" ++ name ++ "' not found. Available targets: " ++ ", ".intercalate available

namespace Configuration

/-- Adds a target, in place of one of the same name. -/
def addTarget (targets : List (String × Target)) (name : String) (target : Target) :
    List (String × Target) :=
  targets.filter (·.1 ≠ name) ++ [(name, target)]

/-- Checks what a configuration says. -/
def check (c : Configuration) : Except ConfigurationFault Unit :=
  if c.name = "" then .error .emptyName
  else if c.migrationsDirectory = "" then .error .emptyMigrationsDirectory
  else if !Sql.isQualifiedName c.ledgerTable then .error (.invalidLedgerTable c.ledgerTable)
  else .ok ()

/-- The directory with the migrations of a project. -/
def migrationsPath (c : Configuration) (root : Path) : Path :=
  root.join c.migrationsDirectory

/-- The names of the targets in ascending order. -/
def targetNames (c : Configuration) : List String :=
  (c.targets.map (·.1)).mergeSort fun a b => decide (a ≤ b)

/-- The database of a target, or the base database if no target is meant. -/
def databaseOf (c : Configuration) : Option String → Except ConfigurationFault DatabaseSettings
  | none => .ok c.database
  | some name =>
    match c.targets.lookup name with
    | some target => .ok (target.database.getD c.database)
    | none => .error (.unknownTarget name c.targetNames)

/-- The target that is meant: the one given with the command, else the one of the
environment. An empty one is none. -/
def chosenTarget (given environment : Option String) : Option String :=
  (given.or environment).filter (· ≠ "")

end Configuration

end SchemaLedger

import SchemaLedger.Command.Failure
import SchemaLedger.Command.Invocation
import SchemaLedger.Migrate.Revert
import SchemaLedger.Report.Listing
import SchemaLedger.Report.StatusJson

/-!
# Tasks of commands

What a command does once its project is loaded, and what it prints. Migrating, reverting and
showing the status are dialogues with a database. Compiling needs only the source, and prints
what it has compiled before the first failure.
-/

namespace SchemaLedger

/-- A dialogue that ends in lines to print, or in a failure. -/
abbrev Task := ExceptT Failure Dialogue (List String)

namespace Task

/-- Work in which any error is the failure of one step. -/
def step {α : Type} (work : Work α) (failure : MigrateError → Failure) :
    ExceptT Failure Dialogue α :=
  ExceptT.adapt failure work

/-- A line for each name. -/
def nameLines (names : List Name) : List String := names.map fun name => "  " ++ name.text

/-- A number of migrations. -/
def countText (n : Nat) : String := toString n ++ " migration(s)"

/-- The lines for a plan. -/
def planLines (plan : List Planned) : List String :=
  if plan.isEmpty then ["Nothing to migrate."]
  else ("Dry run - would apply " ++ countText plan.length ++ ":") :: spacedListings plan

/-- The lines for what was applied. -/
def applyLines (report : ApplyReport) : List String :=
  match report.batch with
  | none => ["Nothing to migrate."]
  | some batch =>
    ("Batch " ++ toString batch ++ ": applied " ++ countText report.applied.length) ::
      nameLines report.applied

/-- The lines for what would be reverted. -/
def lastBatchLines : List Record → List String
  | [] => ["Nothing to roll back."]
  | first :: rest =>
    ("Dry run - would roll back batch " ++ toString first.batch ++ " (" ++
        countText (rest.length + 1) ++ "):") :: nameLines ((first :: rest).map (·.name))

/-- The lines for what was reverted. -/
def revertLines (report : RevertReport) : List String :=
  match report.batch with
  | none => ["Nothing to roll back."]
  | some batch =>
    ("Batch " ++ toString batch ++ ": rolled back " ++ countText report.reverted.length) ::
      nameLines report.reverted

/-- The lines for a status. -/
def statusLines (form : StatusForm) (all : List MigrationStatus) : List String :=
  match form with
  | .table => StatusTable.lines all
  | .json => [StatusJson.array all]

/-- Shows what migrating would do. -/
def plan (source : Source) (table : String) : Task :=
  planLines <$> step (Migrate.plan source table) .plan

/-- Applies what is pending. -/
def apply (source : Source) (table : String) : Task :=
  applyLines <$> step (Migrate.apply source table) .apply

/-- Shows what reverting would do. -/
def lastBatch (table : String) : Task :=
  lastBatchLines <$> step (Migrate.lastBatch table) .readLedger

/-- Reverts the last batch. -/
def revert (source : Source) (table : String) : Task :=
  revertLines <$> step (Migrate.revert source table) .revert

/-- Shows the status. -/
def status (source : Source) (table : String) (form : StatusForm) : Task :=
  statusLines form <$> step (Migrate.status source table) .readStatus

end Task

/-! ## Compiling -/

namespace Compilation

/-- The names to compile: those that are given, or all. -/
def names (source : Source) : List String → Except Failure (List Name)
  | [] => source.list.mapError .listMigrations
  | given => given.mapM fun text =>
    match Name.ofText? text with
    | some name => .ok name
    | none => .error .emptyName

/-- The statements of a migration in one direction. -/
def planned (source : Source) (down : Bool) (name : Name) : Except Failure Planned := do
  let definition ← (source.load name).mapError (.loadMigration name)
  let schema := if down then definition.down else definition.up
  return ⟨name, ← schema.compile.mapError (.compileMigration name)⟩

/-- What some migrations compile to, up to the first that fails. -/
def run (source : Source) (down : Bool) : List Name → List Planned × Option Failure
  | [] => ([], none)
  | name :: rest =>
    match planned source down name with
    | .error failure => ([], some failure)
    | .ok p =>
      let (more, failure) := run source down rest
      (p :: more, failure)

end Compilation

end SchemaLedger

import SchemaLedger.Migrate.Block

/-!
# Applying what is pending

A migration is pending if the source has it and the ledger does not. All pending migrations
are applied in ascending order, as one batch with one number. Each is loaded, compiled and
carried out before the next one is looked at, so a failure leaves those before it applied.
-/

namespace SchemaLedger

/-- What applying has done; without anything pending there is no batch. -/
structure ApplyReport where
  batch : Option Int := none
  applied : List Name := []
  deriving DecidableEq

/-- A migration and the statements it takes. -/
structure Planned where
  name : Name
  statements : List String
  deriving DecidableEq

namespace Migrate

/-- Turns an error of a source into a failure. -/
def orFailure {ε α : Type} (r : Except ε α) (failure : ε → MigrateError) : Work α :=
  ExceptT.mk (pure (r.mapError failure))

/-- The names that are not recorded. -/
def unrecorded (available : List Name) (records : List Record) : List Name :=
  available.filter fun name => !(records.any (·.name = name))

/-- The migrations of a source that are not recorded. -/
def pendingAfter (source : Source) (records : List Record) : Work (List Name) := do
  return unrecorded (← orFailure source.list .discovery) records

/-- The migrations that are pending. The ledger need not be there. -/
def pending (source : Source) (table : String) : Work (List Name) := do
  pendingAfter source (← Ledger.recordsIfPresent table)

/-- Loads a migration. -/
def load (source : Source) (name : Name) : Work Definition :=
  orFailure (source.load name) (.load name)

/-- Compiles a schema change of a migration. -/
def compile (name : Name) (schema : Schema) : Work (List String) :=
  orFailure schema.compile (.compile name)

/-- The statements that applying a migration takes. -/
def upStatements (source : Source) (name : Name) : Work (List String) := do
  compile name (← load source name).up

/-- The statements that some migrations take. -/
def planAll (source : Source) : List Name → Work (List Planned)
  | [] => return []
  | name :: rest => do
    let statements ← upStatements source name
    return ⟨name, statements⟩ :: (← planAll source rest)

/-- The pending migrations with the statements they would take. Nothing is carried out. -/
def plan (source : Source) (table : String) : Work (List Planned) := do
  planAll source (← pending source table)

/-- Applies one migration. -/
def applyOne (source : Source) (table : String) (batch : Int) (name : Name) : Work Unit := do
  let statements ← upStatements source name
  Block.run table ⟨name, statements, .record batch⟩
  Work.remark (.applied name statements.length)

/-- Applies migrations one after the other. -/
def applyAll (source : Source) (table : String) (batch : Int) : List Name → Work Unit
  | [] => return ()
  | name :: rest => do
    applyOne source table batch name
    applyAll source table batch rest

/-- Applies what is pending. -/
def apply (source : Source) (table : String) : Work ApplyReport := do
  Ledger.setup table
  let names ← pendingAfter source (← Ledger.records table)
  if names.isEmpty then
    Work.remark .nothingPending
    return {}
  else
    let batch ← Ledger.nextBatch table
    Work.remark (.applying names.length batch)
    applyAll source table batch names
    return ⟨some batch, names⟩

end Migrate

end SchemaLedger

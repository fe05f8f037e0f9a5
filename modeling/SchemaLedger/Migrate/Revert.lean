import SchemaLedger.Migrate.Apply

/-!
# Reverting the last batch

The records of the greatest batch are reverted, the newest first. All of their definitions
are loaded and compiled before anything is carried out, so a definition that is missing or
wrong leaves the database as it is.
-/

namespace SchemaLedger

/-- What reverting has done; without any record there is no batch. -/
structure RevertReport where
  batch : Option Int := none
  reverted : List Name := []
  deriving DecidableEq

namespace Migrate

/-- The greatest batch of some records. -/
def greatestBatch? : List Record → Option Int
  | [] => none
  | r :: rest => some (rest.foldl (fun n r => max n r.batch) r.batch)

/-- The records of the greatest batch, the newest first. -/
def newestBatch (records : List Record) : List Record :=
  match greatestBatch? records with
  | some batch => records.reverse.filter (·.batch = batch)
  | none => []

/-- The records of the last batch, the newest first. The ledger need not be there. -/
def lastBatch (table : String) : Work (List Record) := do
  return newestBatch (← Ledger.recordsIfPresent table)

/-- Loads a migration that is recorded. -/
def loadRecorded (source : Source) (name : Name) : Work Definition :=
  orFailure (source.load name) fun e =>
    match e with
    | .migrationNotFound _ => .missingMigration name
    | e => .load name e

/-- The blocks that revert some records. -/
def revertBlocks (source : Source) : List Record → Work (List Block)
  | [] => return []
  | r :: rest => do
    let statements ← compile r.name (← loadRecorded source r.name).down
    return ⟨r.name, statements, .remove⟩ :: (← revertBlocks source rest)

/-- Carries out blocks one after the other. -/
def revertAll (table : String) : List Block → Work Unit
  | [] => return ()
  | b :: rest => do
    b.run table
    Work.remark (.reverted b.name)
    revertAll table rest

/-- Reverts the last batch. -/
def revert (source : Source) (table : String) : Work RevertReport := do
  match ← lastBatch table with
  | [] =>
    Work.remark .nothingApplied
    return {}
  | first :: rest =>
    let blocks ← revertBlocks source (first :: rest)
    Work.remark (.reverting first.batch blocks.length)
    revertAll table blocks
    return ⟨some first.batch, blocks.map (·.name)⟩

end Migrate

end SchemaLedger

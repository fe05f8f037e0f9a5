import SchemaLedger.Ledger.Basic
import SchemaLedger.Source.Basic

/-!
# Blocks

A block is all that is done to a database for one migration: its statements and the change
of its record in the ledger, within one transaction. The transaction is committed if all of
that succeeds and rolled back if anything fails, the commit included.
-/

namespace SchemaLedger

/-- What a block does to the ledger. -/
inductive LedgerChange where
  | record (batch : Int)
  | remove
  deriving DecidableEq

/-- A block: a migration, the statements it takes, and the change of its record. -/
structure Block where
  name : Name
  statements : List String
  change : LedgerChange
  deriving DecidableEq

namespace Block

/-- Carries out the statements of a migration. -/
def executeAll (name : Name) : List String → Work Unit
  | [] => pure ()
  | sql :: rest => do
    Work.orFail (.asking (.executeBatch sql)) (.statement name)
    executeAll name rest

/-- Changes the ledger. -/
def changeLedger (table : String) (b : Block) : Work Unit :=
  match b.change with
  | .record batch => Ledger.record table b.name batch
  | .remove => Ledger.remove table b.name

/-- What is done within the transaction. -/
def body (table : String) (b : Block) : Work Unit := do
  executeAll b.name b.statements
  changeLedger table b

/-- Rolls back; that this may fail too is only remarked. -/
def rollBack (remark : DatabaseError → Note) : Dialogue Unit := do
  match ← Dialogue.asking (.execute "ROLLBACK") with
  | .ok _ => return ()
  | .error e => Dialogue.remarking (remark e)

/-- Ends the transaction as the outcome of its body demands. -/
def finish (name : Name) : Except MigrateError Unit → Dialogue (Except MigrateError Unit)
  | .ok () => do
    match ← Dialogue.asking (.execute "COMMIT") with
    | .ok _ => return .ok ()
    | .error e =>
      rollBack (.rollbackAfterCommitFailed name)
      return .error (.transaction (.commit name e))
  | .error failure => do
    rollBack (.rollbackFailed name)
    return .error failure

/-- Carries out a block. -/
def run (table : String) (b : Block) : Work Unit := do
  let _ ← Work.orFail (.asking (.execute "BEGIN TRANSACTION"))
    fun e => .transaction (.start e)
  ExceptT.mk do finish b.name (← (body table b).run)

end Block

end SchemaLedger

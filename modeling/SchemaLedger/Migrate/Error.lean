import SchemaLedger.Ledger.Record
import SchemaLedger.Schema.Compile
import SchemaLedger.Source.Error

/-!
# Why migrating fails
-/

namespace SchemaLedger

/-- Why the table of a ledger cannot be set up. -/
inductive LedgerSetupFault where
  | invalidTable (error : SchemaError)
  | schema (error : DatabaseError)
  | script (table : String) (error : DatabaseError)

/-- The wording of a fault. -/
def LedgerSetupFault.message : LedgerSetupFault → String
  | .invalidTable error => error.message
  | .schema error => error.message
  | .script table error => "failed to create " ++ table ++ ": " ++ error.message

/-- Why a transaction does not begin or end. -/
inductive TransactionFault where
  | start (error : DatabaseError)
  | commit (migration : Name) (error : DatabaseError)

/-- The wording of a fault. -/
def TransactionFault.message : TransactionFault → String
  | .start error => "BEGIN failed: " ++ error.message
  | .commit migration error => "COMMIT failed for '" ++ migration.text ++ "': " ++ error.message

/-- Why migrating fails. -/
inductive MigrateError where
  | connection (error : DatabaseError)
  | ledgerSetup (fault : LedgerSetupFault)
  | duplicateMigration (name : Name)
  | statement (migration : Name) (error : DatabaseError)
  | ledger (fault : LedgerFault)
  | load (migration : Name) (error : SourceError)
  | compile (migration : Name) (error : SchemaError)
  | missingMigration (name : Name)
  | transaction (fault : TransactionFault)
  | discovery (error : SourceError)

namespace MigrateError

/-- The wording of an error, without that of its cause. -/
def message : MigrateError → String
  | .connection error => "[M001] Database connection failed: " ++ error.message
  | .ledgerSetup fault => "[M002] Ledger initialization failed: " ++ fault.message
  | .duplicateMigration name =>
    "[M003] Migration '" ++ name.text ++ "' is already recorded in the ledger"
  | .statement migration error =>
    "[M004] Migration '" ++ migration.text ++ "' failed: " ++ error.message
  | .ledger fault => "[M005] Ledger query failed: " ++ fault.message
  | .load migration _ => "[M006] Failed to load migration '" ++ migration.text ++ "'"
  | .compile migration _ => "[M007] Failed to compile migration '" ++ migration.text ++ "'"
  | .missingMigration name =>
    "[M008] Migration '" ++ name.text ++ "' is recorded in the ledger but has no definition"
  | .transaction fault => "[M009] Transaction failed: " ++ fault.message
  | .discovery _ => "[M010] Migration discovery failed"

/-- The migration that an error is about. -/
def migration? : MigrateError → Option Name
  | .duplicateMigration name | .missingMigration name => some name
  | .statement migration _ | .load migration _ | .compile migration _ => some migration
  | _ => none

end MigrateError

end SchemaLedger

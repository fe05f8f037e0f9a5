import SchemaLedger.Migrate.Apply

/-!
# The status of every migration

Every migration of the source is pending or applied. After them come the records whose
migrations the source does not have.
-/

namespace SchemaLedger

/-- What has become of a migration. -/
inductive MigrationState where
  | pending
  | applied (batch : Int) (appliedAt : Moment)
  | missing (batch : Int) (appliedAt : Moment)
  deriving DecidableEq

/-- A migration and what has become of it. -/
structure MigrationStatus where
  name : Name
  state : MigrationState
  deriving DecidableEq

namespace Migrate

/-- The last record of a name. -/
def recordOf? (records : List Record) (name : Name) : Option Record :=
  records.reverse.find? (·.name = name)

/-- The status of a migration that the source has. -/
def statusOf (records : List Record) (name : Name) : MigrationStatus :=
  match recordOf? records name with
  | some r => ⟨name, .applied r.batch r.appliedAt⟩
  | none => ⟨name, .pending⟩

/-- The records whose migrations are not available. -/
def lost (available : List Name) (records : List Record) : List Record :=
  records.filter fun r => !(available.any (r.name = ·))

/-- The status of a record whose migration is not available. -/
def lostStatus (r : Record) : MigrationStatus := ⟨r.name, .missing r.batch r.appliedAt⟩

/-- Remarks on the records whose migrations are not available. -/
def remarkLost : List Record → Work Unit
  | [] => return ()
  | r :: rest => do
    Work.remark (.lost r.name r.batch)
    remarkLost rest

/-- The status of every migration. The ledger need not be there. -/
def status (source : Source) (table : String) : Work (List MigrationStatus) := do
  let available ← orFailure source.list .discovery
  let records ← Ledger.recordsIfPresent table
  let lost := lost available records
  remarkLost lost
  return available.map (statusOf records) ++ lost.map lostStatus

end Migrate

end SchemaLedger

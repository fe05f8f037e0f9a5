import SchemaLedger.Migrate.Dialogue
import SchemaLedger.Sql.Literal
import SchemaLedger.Text.Part

/-!
# Ledgers

A ledger is a table of a database, with one row for each migration that is applied. Here is
the wording of the statements it is kept with, and the dialogues they are used in. A ledger
is known by the name of its table, which may be qualified by a schema.
-/

namespace SchemaLedger

namespace Ledger

/-! ## Statements -/

/-- The sequence that numbers the rows. -/
def sequenceName (table : String) : String := table ++ "_id_seq"

/-- The statements that make the table. -/
def setupScript (table : String) : String :=
  "CREATE SEQUENCE IF NOT EXISTS " ++ sequenceName table ++ ";\n" ++
  "             CREATE TABLE IF NOT EXISTS " ++ table ++ " (\n" ++
  "                 id             INTEGER PRIMARY KEY DEFAULT nextval('" ++
    sequenceName table ++ "'),\n" ++
  "                 name           VARCHAR NOT NULL UNIQUE,\n" ++
  "                 batch          INTEGER NOT NULL,\n" ++
  "                 migration_time TIMESTAMP NOT NULL DEFAULT current_timestamp\n" ++
  "             );"

/-- The query for all records in the order of their numbers. -/
def listQuery (table : String) : String :=
  "SELECT id, name, batch, CAST(migration_time AS VARCHAR) FROM " ++ table ++ " ORDER BY id"

/-- The query for the number of the next batch. -/
def nextBatchQuery (table : String) : String :=
  "SELECT COALESCE(MAX(batch), 0) + 1 FROM " ++ table

/-- The query for the records of a name. -/
def namedQuery (table : String) (name : Name) : String :=
  "SELECT 1 FROM " ++ table ++ " WHERE name = " ++ Sql.Literal.quote name.text

/-- The statement that adds a record. -/
def insertStatement (table : String) (name : Name) (batch : Int) : String :=
  "INSERT INTO " ++ table ++ " (name, batch) VALUES (" ++ Sql.Literal.quote name.text ++ ", " ++
    toString batch ++ ")"

/-- The statement that takes a record away. -/
def deleteStatement (table : String) (name : Name) : String :=
  "DELETE FROM " ++ table ++ " WHERE name = " ++ Sql.Literal.quote name.text

/-! ## Dialogues -/

/-- A refusal in the middle of work with a ledger. -/
def refused (e : DatabaseError) : MigrateError := .ledger (.database e)

/-- Turns a fault of the ledger into a failure. -/
def orFault {α : Type} (r : Except LedgerFault α) : Work α :=
  ExceptT.mk (pure (r.mapError .ledger))

/-- Whether the table is there. -/
def isPresent (table : String) : Work Bool :=
  Work.orFail (.asking (.relationExists table)) refused

/-- Makes the schema that a qualified name demands. -/
def makeSchema (table : String) : Work Unit :=
  if table.toList.contains '.' then
    Work.orFail (.asking (.createSchema (Sql.splitQualified table).1))
      fun e => .ledgerSetup (.schema e)
  else pure ()

/-- Makes the table unless it is there, and the schema it is in. -/
def setup (table : String) : Work Unit := do
  match Sql.checkQualifiedName table with
  | .error e => throw (.ledgerSetup (.invalidTable e))
  | .ok () =>
    makeSchema table
    Work.orFail (.asking (.executeBatch (setupScript table)))
      fun e => .ledgerSetup (.script table e)

/-- All records, in the order of their numbers. -/
def records (table : String) : Work (List Record) := do
  let rows ← Work.orFail (.asking (.queryRows (listQuery table))) refused
  orFault (Record.ofRows rows)

/-- The records of a table that may not be there; if it is not there are none. -/
def recordsIfPresent (table : String) : Work (List Record) := do
  if ← isPresent table then records table else return []

/-- The value in the first column of the first row. -/
def firstValue? (rows : List (List String)) : Option String :=
  rows.head?.bind List.head?

/-- The number of the next batch: one more than the greatest there is. -/
def nextBatch (table : String) : Work Int := do
  let rows ← Work.orFail (.asking (.queryRows (nextBatchQuery table))) refused
  match firstValue? rows with
  | some value => orFault (Record.number "batch" value)
  | none => orFault (.error .noBatch)

/-- Whether the text of a refused insertion tells that the name is taken. -/
def tellsOfDuplicate (text : String) : Bool :=
  Text.occursIn "Duplicate key" text || Text.occursIn "unique constraint" text

/-- The failure that a refused insertion is. -/
def insertFailure (name : Name) (e : DatabaseError) : MigrateError :=
  if tellsOfDuplicate e.message then .duplicateMigration name else refused e

/-- Adds a record for a name that has none. -/
def record (table : String) (name : Name) (batch : Int) : Work Unit := do
  let found ← Work.orFail (.asking (.queryCount (namedQuery table name))) refused
  if 0 < found then throw (.duplicateMigration name)
  let _ ← Work.orFail (.asking (.execute (insertStatement table name batch)))
    (insertFailure name)

/-- Takes the record of a name away. -/
def remove (table : String) (name : Name) : Work Unit := do
  let affected ← Work.orFail (.asking (.execute (deleteStatement table name))) refused
  if affected = 0 then throw (.ledger (.noRecord name))

end Ledger

end SchemaLedger

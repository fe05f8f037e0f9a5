import SchemaLedger.Sql.Literal
import SchemaLedger.Text.Blank
import SchemaLedger.Text.Integer
import SchemaLedger.Text.Part

/-!
# Statements and queries that a store knows

A store knows the statements that begin and end transactions, those that make and drop
schemas and tables as a whole, and the statements and queries of a ledger. Any other
statement stands for work of which the store keeps nothing; any other query is unknown.
-/

namespace SchemaLedger.Store

/-- A statement. Names of tables are as written. -/
inductive Statement where
  | begin
  | commit
  | rollback
  | createSchema (name : String)
  | createSequence (name : String)
  | createTable (name : String)
  | dropTable (name : String)
  | insert (table name : String) (batch : Int)
  | delete (table name : String)
  | other
  deriving DecidableEq

/-- A query. -/
inductive Query where
  | relations (schema table : String)
  | rows (table : String)
  | nextBatch (table : String)
  | named (table name : String)
  | unknown
  deriving DecidableEq

namespace Statement

/-- The statement that inserts a row, from behind its first words. -/
def insert? (s : List Char) : Option Statement := do
  let (table, s) ← Text.cut? " (name, batch) VALUES ('".toList s
  let (name, s) ← Sql.Literal.take? s
  let (batch, rest) ← Text.cut? ")".toList (← Text.after? ", ".toList s)
  if rest ≠ [] then none
  else
    return .insert (String.ofList table) (String.ofList name)
      (← Text.integer? 10 Text.int64Min Text.int64Max batch)

/-- The statement that deletes rows, from behind its first words. -/
def delete? (s : List Char) : Option Statement := do
  let (table, s) ← Text.cut? " WHERE name = '".toList s
  let (name, rest) ← Sql.Literal.take? s
  if rest ≠ [] then none else return .delete (String.ofList table) (String.ofList name)

/-- The statement that makes a table, from behind its first words. -/
def createTable? (s : List Char) : Option Statement := do
  let (name, _) ← Text.cut? " (".toList s
  return .createTable (String.ofList name)

/-- The forms of statements: how they begin, and how the rest is read. -/
def forms : List (String × (List Char → Option Statement)) :=
  [("CREATE SCHEMA IF NOT EXISTS ", fun s => some (.createSchema (String.ofList s))),
    ("CREATE SEQUENCE IF NOT EXISTS ", fun s => some (.createSequence (String.ofList s))),
    ("CREATE TABLE IF NOT EXISTS ", createTable?),
    ("DROP TABLE IF EXISTS ", fun s => some (.dropTable (String.ofList s))),
    ("INSERT INTO ", insert?),
    ("DELETE FROM ", delete?)]

/-- The statement that a text is. -/
def ofText (sql : String) : Statement :=
  if sql = "BEGIN TRANSACTION" then .begin
  else if sql = "COMMIT" then .commit
  else if sql = "ROLLBACK" then .rollback
  else
    (forms.findSome? fun (start, read) => (Text.after? start.toList sql.toList).bind read).getD
      .other

/-- The statements of a batch: a semicolon ends each, and empty ones do not count. -/
def ofBatch (sql : String) : List Statement :=
  (((Text.splitAt ';' sql.toList).map Text.trimChars).filter (· ≠ [])).map
    fun piece => ofText (String.ofList piece)

end Statement

namespace Query

/-- The query for relations, from behind its first words. -/
def relations? (s : List Char) : Option Query := do
  let (schema, s) ← Sql.Literal.take? s
  let (table, rest) ← Sql.Literal.take? (← Text.after? " AND table_name = '".toList s)
  if rest ≠ [] then none else return .relations (String.ofList schema) (String.ofList table)

/-- The query for all rows, from behind its first words. -/
def rows? (s : List Char) : Option Query := do
  let (table, rest) ← Text.cut? " ORDER BY id".toList s
  if rest ≠ [] then none else return .rows (String.ofList table)

/-- The query for the rows of a name, from behind its first words. -/
def named? (s : List Char) : Option Query := do
  let (table, s) ← Text.cut? " WHERE name = '".toList s
  let (name, rest) ← Sql.Literal.take? s
  if rest ≠ [')'] then none else return .named (String.ofList table) (String.ofList name)

/-- The forms of queries: how they begin, and how the rest is read. -/
def forms : List (String × (List Char → Option Query)) :=
  [("SELECT COUNT(*) FROM information_schema.tables WHERE table_schema = '", relations?),
    ("SELECT id, name, batch, CAST(migration_time AS VARCHAR) FROM ", rows?),
    ("SELECT COALESCE(MAX(batch), 0) + 1 FROM ",
      fun s => some (.nextBatch (String.ofList s))),
    ("SELECT COUNT(*) FROM (SELECT 1 FROM ", named?)]

/-- The query that a text is. -/
def ofText (sql : String) : Query :=
  (forms.findSome? fun (start, read) => (Text.after? start.toList sql.toList).bind read).getD
    .unknown

end Query

end SchemaLedger.Store

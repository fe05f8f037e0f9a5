import SchemaLedger.Database.Engine
import SchemaLedger.Store.Statement

/-!
# Stores

A store keeps schemas, and tables with the rows of a ledger. It is an engine that carries
out what `Statement` and `Query` name. A transaction begins with a copy of the tables, to
which a rollback goes back; the numbers that rows were given are never given again.
-/

namespace SchemaLedger.Store

/-- A row of a ledger. -/
structure Row where
  id : Nat
  name : String
  batch : Int
  deriving DecidableEq

/-- Schemas, and tables with their rows in the order of insertion. -/
structure Tables where
  schemas : List String := []
  tables : List (String × List Row) := []
  deriving DecidableEq

/-- The contents of a database: its tables, and for each table the last number given to a
row. -/
structure Contents where
  current : Tables := {}
  counters : List (String × Nat) := []
  deriving DecidableEq

/-- A database that is in use, with the tables to go back to if a transaction is open. -/
structure Connection where
  contents : Contents := {}
  snapshot : Option Tables := none
  deriving DecidableEq

/-! ## Names -/

/-- The name that a table is kept by: the schema `main` is not part of it. -/
def key (table : String) : String :=
  match Text.after? "main.".toList table.toList with
  | some rest => String.ofList rest
  | none => table

/-- What a missing table is reported as. -/
def missingTable (table : String) : String :=
  "Catalog Error: Table with name " ++ table ++ " does not exist!"

/-- What a missing schema is reported as. -/
def missingSchema (schema : String) : String :=
  "Catalog Error: Schema with name " ++ schema ++ " does not exist!"

/-- What a name that is taken is reported as. -/
def duplicateName (name : String) : String :=
  "Constraint Error: Duplicate key \"name: " ++ name ++ "\" violates unique constraint."

namespace Tables

/-- The rows of a table. -/
def rows? (t : Tables) (table : String) : Option (List Row) := t.tables.lookup (key table)

/-- Puts rows in place of those of a table, or adds the table. -/
def put (t : Tables) (table : String) (rows : List Row) : Tables :=
  { t with
    tables :=
      if (t.rows? table).isSome then
        t.tables.map fun (k, old) => if k = key table then (k, rows) else (k, old)
      else t.tables ++ [(key table, rows)] }

/-- Takes a table away. -/
def erase (t : Tables) (table : String) : Tables :=
  { t with tables := t.tables.filter (·.1 ≠ key table) }

/-- Adds a schema. -/
def addSchema (t : Tables) (schema : String) : Tables :=
  if schema ∈ t.schemas then t else { t with schemas := t.schemas ++ [schema] }

/-- The schema that a name needs and that is not there. -/
def missingSchema? (t : Tables) (name : String) : Option String :=
  match Text.cut? ['.'] name.toList with
  | none => none
  | some (schema, _) =>
    let schema := String.ofList schema
    if schema = Sql.mainSchema || schema ∈ t.schemas then none else some schema

/-- Does something unless a name needs a schema that is not there. -/
def withSchema (t : Tables) (name : String) (after : Tables) : Except String Tables :=
  match t.missingSchema? name with
  | some schema => .error (missingSchema schema)
  | none => .ok after

end Tables

namespace Contents

/-- Replaces the tables. -/
def withTables (c : Contents) (t : Tables) : Contents := { c with current := t }

/-- The number of the next row of a table. -/
def nextId (c : Contents) (table : String) : Nat := (c.counters.lookup (key table)).getD 0 + 1

/-- Notes that a number has been given to a row of a table. -/
def count (c : Contents) (table : String) : Contents :=
  { c with
    counters := (key table, c.nextId table) :: c.counters.filter (·.1 ≠ key table) }

/-- Inserts a row. A number is used up even if the name is taken. -/
def insert (c : Contents) (table name : String) (batch : Int) :
    Except String Nat × Contents :=
  match c.current.rows? table with
  | none => (.error (missingTable table), c)
  | some rows =>
    if rows.any (·.name = name) then (.error (duplicateName name), c.count table)
    else
      (.ok 1, (c.count table).withTables
        (c.current.put table (rows ++ [⟨c.nextId table, name, batch⟩])))

/-- Deletes the rows of a name. -/
def delete (c : Contents) (table name : String) : Except String Nat × Contents :=
  match c.current.rows? table with
  | none => (.error (missingTable table), c)
  | some rows =>
    (.ok (rows.countP (·.name = name)),
      c.withTables (c.current.put table (rows.filter (·.name ≠ name))))

end Contents

namespace Connection

/-- What a transaction statement out of place is reported as. -/
def misplaced (what : String) : String := "TransactionContext Error: cannot " ++ what

/-- Replaces the tables. -/
def withTables (c : Connection) (t : Tables) : Connection :=
  { c with contents := c.contents.withTables t }

/-- Takes on new tables unless there is an error; no row is affected. -/
def change (c : Connection) : Except String Tables → Except String Nat × Connection
  | .ok t => (.ok 0, c.withTables t)
  | .error e => (.error e, c)

/-- Takes on new contents. -/
def keep (c : Connection) (r : Except String Nat × Contents) : Except String Nat × Connection :=
  (r.1, { c with contents := r.2 })

/-- Carries out a statement. -/
def perform (c : Connection) (s : Statement) : Except String Nat × Connection :=
  let t := c.contents.current
  match s with
  | .begin =>
    if c.snapshot.isSome then
      (.error (misplaced "start a transaction within a transaction"), c)
    else (.ok 0, { c with snapshot := some t })
  | .commit =>
    if c.snapshot.isSome then (.ok 0, { c with snapshot := none })
    else (.error (misplaced "commit - no transaction is active"), c)
  | .rollback =>
    match c.snapshot with
    | some before => (.ok 0, { c.withTables before with snapshot := none })
    | none => (.error (misplaced "rollback - no transaction is active"), c)
  | .createSchema name => c.change (.ok (t.addSchema name))
  | .createSequence name => c.change (t.withSchema name t)
  | .createTable name =>
    c.change (t.withSchema name (if (t.rows? name).isSome then t else t.put name []))
  | .dropTable name => c.change (.ok (t.erase name))
  | .insert table name batch => c.keep (c.contents.insert table name batch)
  | .delete table name => c.keep (c.contents.delete table name)
  | .other => (.ok 0, c)

/-- Carries out statements up to the first that fails. -/
def performAll (c : Connection) : List Statement → Except String Unit × Connection
  | [] => (.ok (), c)
  | s :: rest =>
    match c.perform s with
    | (.ok _, c) => c.performAll rest
    | (.error e, c) => (.error e, c)

/-- The time of a row: rows are a second apart, and an hour of them repeats. -/
def timeText (id : Nat) : String :=
  "2024-01-01 00:" ++ Text.zeroPadded 2 (id / 60 % 60) ++ ":" ++ Text.zeroPadded 2 (id % 60)

/-- A row with its time. -/
def rowCells (r : Row) : List Cell :=
  [.integer r.id, .text r.name, .integer r.batch, .text (timeText r.id)]

/-- The greatest batch of some rows, 0 if there are none. -/
def lastBatch : List Row → Int
  | [] => 0
  | r :: rest => rest.foldl (fun n row => max n row.batch) r.batch

/-- Answers a query from the rows of a table. -/
def fromRows (t : Tables) (table : String) (answer : List Row → List (List Cell)) :
    Except String (List (List Cell)) :=
  match t.rows? table with
  | some rows => .ok (answer rows)
  | none => .error (missingTable table)

/-- Answers a query. -/
def answer (t : Tables) : Query → Except String (List (List Cell))
  | .relations schema table =>
    let name := if schema = Sql.mainSchema then table else schema ++ "." ++ table
    .ok [[.integer (if t.tables.any (·.1 = name) then 1 else 0)]]
  | .rows table => fromRows t table fun rows => rows.map rowCells
  | .nextBatch table => fromRows t table fun rows => [[.integer (lastBatch rows + 1)]]
  | .named table name =>
    fromRows t table fun rows => [[.integer (rows.countP (·.name = name))]]
  | .unknown => .error "Parser Error: query not known to the store model"

/-- What a database holds after a connection to it was closed: an open transaction is
undone. -/
def close (c : Connection) : Contents :=
  match c.snapshot with
  | some before => c.contents.withTables before
  | none => c.contents

/-- A connection as an engine. -/
def engine : Engine Connection where
  execute sql c := c.perform (.ofText sql)
  batch sql c := c.performAll (Statement.ofBatch sql)
  query sql c := (answer c.contents.current (.ofText sql), c)

end Connection

end SchemaLedger.Store

import SchemaLedger.Database.Call
import SchemaLedger.Sql.Literal
import SchemaLedger.Sql.Name
import SchemaLedger.Text.Double
import SchemaLedger.Text.Part

/-!
# Engines

An engine carries out the text of statements and queries, and says in a text of its own
what is wrong. `Engine.database` makes a database of it: it words the statements that some
calls stand for, turns the cells of rows into texts, and tells from the text of an error
whether a table is missing.
-/

namespace SchemaLedger

/-- A value in a row. -/
inductive Cell where
  | null
  | text (s : String)
  | integer (n : Int)
  | boolean (b : Bool)
  | double (d : Text.Double)
  deriving DecidableEq

namespace Cell

/-- The cell as a signed 64-bit integer. -/
def integer? : Cell → Option Int
  | .integer n => some n
  | .double d => d.truncate?.filter fun n => Text.int64Min ≤ n && n ≤ Text.int64Max
  | .text s => Text.int64? s
  | _ => none

/-- The cell as a text: texts stay, and of other values the integer comes first. -/
def toText (c : Cell) : String :=
  match c with
  | .text s => s
  | _ =>
    match c.integer?, c with
    | some n, _ => toString n
    | none, .double d => d.toText
    | none, .boolean b => if b then "true" else "false"
    | none, _ => "null"

end Cell

/-- An engine with states of type `σ`. -/
structure Engine (σ : Type) where
  execute : String → σ → Except String Nat × σ
  batch : String → σ → Except String Unit × σ
  query : String → σ → Except String (List (List Cell)) × σ

namespace Engine

/-- The error texts that tell of a missing table. -/
def tellsOfMissingTable (text : String) : Bool :=
  Text.occursIn "Table with name" text || Text.occursIn "View with name" text ||
    Text.occursIn "Table or view with name" text ||
    (Text.occursIn "Catalog Error" text && Text.occursIn "Table" text &&
      Text.occursIn "not found" text)

/-- The error of a query. -/
def queryError (text : String) : DatabaseError :=
  if tellsOfMissingTable text then .tableNotFound text else .execution text

/-- The error of a statement, which is quoted. -/
def statementError (sql text : String) : DatabaseError :=
  .execution (text ++ ": " ++ sql)

/-- The integer in the first cell of the first row. -/
def firstInteger : List (List Cell) → Except String Int
  | [] => .error "Query returned no rows"
  | [] :: _ => .error "Invalid column index: 0"
  | (c :: _) :: _ =>
    match c.integer? with
    | some n => .ok n
    | none => .error "Invalid column type at index: 0"

/-- Counts come as signed 64-bit integers and are taken as unsigned ones. -/
def countOf (n : Int) : Nat := (n % 18446744073709551616).toNat

/-- The query for the number of rows of a query. -/
def countQuery (sql : String) : String := "SELECT COUNT(*) FROM (" ++ sql ++ ")"

/-- The query for the number of tables and views of a name. -/
def relationQuery (name : String) : String :=
  let (schema, table) := Sql.splitQualified name
  "SELECT COUNT(*) FROM information_schema.tables WHERE table_schema = " ++
    Sql.Literal.quote schema ++ " AND table_name = " ++ Sql.Literal.quote table

/-- The statement that makes a schema. -/
def schemaStatement (name : String) : String := "CREATE SCHEMA IF NOT EXISTS " ++ name

/-- An engine as a database. -/
def database {σ : Type} (engine : Engine σ) : Database σ where
  reply
    | .execute sql, s =>
      let (r, s) := engine.execute sql s
      (r.mapError (statementError sql), s)
    | .executeBatch sql, s =>
      let (r, s) := engine.batch sql s
      (r.mapError (statementError sql), s)
    | .relationExists name, s =>
      let (r, s) := engine.query (relationQuery name) s
      (((r.bind firstInteger).map fun n => decide (0 < n)).mapError .execution, s)
    | .queryCount sql, s =>
      let (r, s) := engine.query (countQuery sql) s
      (((r.bind firstInteger).map countOf).mapError queryError, s)
    | .queryRows sql, s =>
      let (r, s) := engine.query sql s
      ((r.map fun rows => rows.map fun row => row.map Cell.toText).mapError queryError, s)
    | .createSchema name, s =>
      let (r, s) := engine.execute (schemaStatement name) s
      ((r.map fun _ => ()).mapError (statementError (schemaStatement name)), s)

/-- What an engine is asked to do. -/
inductive Request where
  | openPath (path : String)
  | execute (sql : String)
  | batch (sql : String)
  | query (sql : String)
  deriving DecidableEq

/-- A state and the requests that led to it, the last one first. -/
structure Recorded (σ : Type) where
  state : σ
  requests : List Request := []

/-- Adds a request. -/
def Recorded.add {σ α : Type} (r : Request) (before : Recorded σ) (after : α × σ) :
    α × Recorded σ :=
  (after.1, ⟨after.2, r :: before.requests⟩)

/-- An engine that keeps what it is asked. -/
def recorded {σ : Type} (engine : Engine σ) : Engine (Recorded σ) where
  execute sql s := s.add (.execute sql) (engine.execute sql s.state)
  batch sql s := s.add (.batch sql) (engine.batch sql s.state)
  query sql s := s.add (.query sql) (engine.query sql s.state)

end Engine

end SchemaLedger

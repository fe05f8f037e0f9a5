import SchemaLedger.Schema.Basic
import SchemaLedger.Sql.Literal
import SchemaLedger.Sql.Name

/-!
# Statements of a schema change

Tables and sequences are created only if they are absent and tables dropped only if they
are present, so a statement can be executed again whatever a store already holds. Names
stand in the statements without quotes and are checked first; the first fault found ends
the compilation, in the order of the operations, and within a table: its name, the number
of its columns, then column by column the name, a repetition, the default, the reference;
then the sequences. A raw statement that is blank is left out.
-/

namespace SchemaLedger

/-- What is wrong with a table. -/
inductive TableFault where
  | noColumns
  | duplicateColumn (name : String)
  | nonFiniteDefault (column : String)
  deriving DecidableEq

/-- The wording of a table's fault. -/
def TableFault.message : TableFault → String
  | .noColumns => "a table needs at least one column"
  | .duplicateColumn name => "duplicate column '" ++ name ++ "'"
  | .nonFiniteDefault column => "column '" ++ column ++ "' has a non-finite default"

/-- Why a schema change has no statements. -/
inductive SchemaError where
  | invalidTable (table : String) (fault : TableFault)
  | invalidIdentifier (name : String)
  deriving DecidableEq

/-- The wording of a schema error. -/
def SchemaError.message : SchemaError → String
  | .invalidTable table fault =>
    "[E007] Invalid table definition for '" ++ table ++ "': " ++ fault.message
  | .invalidIdentifier name =>
    "[E008] Invalid identifier '" ++ name ++ "': must match [A-Za-z_][A-Za-z0-9_]*"

namespace Sql

/-- Demands an identifier. -/
def checkIdentifier (name : String) : Except SchemaError Unit :=
  if isIdentifier name then .ok () else .error (.invalidIdentifier name)

/-- Demands an identifier with at most one qualification. -/
def checkQualifiedName (name : String) : Except SchemaError Unit :=
  if isQualifiedName name then .ok () else .error (.invalidIdentifier name)

theorem isQualifiedName_of_check {name : String} (h : checkQualifiedName name = .ok ()) :
    isQualifiedName name = true := by
  unfold checkQualifiedName at h
  split at h
  · next hname => exact hname
  · cases h

end Sql

/-! ## Fragments -/

/-- The type of a column. -/
def Kind.sql : Kind → String
  | .string (some n) => "VARCHAR(" ++ toString n ++ ")"
  | .string none => "VARCHAR"
  | .text => "TEXT"
  | .integer => "INTEGER"
  | .bigInteger => "BIGINT"
  | .decimal precision scale => "DECIMAL(" ++ toString precision ++ ", " ++ toString scale ++ ")"
  | .boolean => "BOOLEAN"
  | .json => "JSON"
  | .uuid => "UUID"
  | .date => "DATE"
  | .timestamp => "TIMESTAMP"

/-- A default as it stands after its keyword. -/
def DefaultValue.sql : DefaultValue → String
  | .text s => Sql.Literal.quote s
  | .integer n => toString n
  | .float d => d.toText
  | .boolean b => if b then "true" else "false"
  | .expression sql => sql
  | .nextValue sequence => "nextval(" ++ Sql.Literal.quote sequence ++ ")"

/-- The clause of a reference. -/
def Reference.sql (target : Reference) : String :=
  let place := "REFERENCES " ++ target.table ++ "(" ++ target.column ++ ")"
  match target.onDelete with
  | some action => place ++ " ON DELETE " ++ action.sql
  | none => place

/-- The fragment of a modifier. -/
def Modifier.sql : Modifier → String
  | .notNull => "NOT NULL"
  | .default value => "DEFAULT " ++ value.sql
  | .primaryKey => "PRIMARY KEY"
  | .unique => "UNIQUE"
  | .references target => target.sql

/-- A column: its name, its type, then its modifiers in their order. -/
def Clause.sql (clause : Clause) : String :=
  clause.modifiers.foldl (fun text m => text ++ " " ++ m.sql)
    (clause.name ++ " " ++ clause.kind.sql)

/-! ## Checks -/

/-- Demands a default that a statement can hold. -/
def Clause.checkDefault (clause : Clause) (table : String) : Except SchemaError Unit :=
  match clause.defaultValue? with
  | some (.float d) =>
    if d.isFinite then .ok () else .error (.invalidTable table (.nonFiniteDefault clause.name))
  | _ => .ok ()

/-- Demands that a reference names a table and a column. -/
def Clause.checkReference (clause : Clause) : Except SchemaError Unit :=
  match clause.reference? with
  | some target => do
    Sql.checkQualifiedName target.table
    Sql.checkIdentifier target.column
  | none => .ok ()

/-- Checks the columns of a table of which `seen` are the names that went before. -/
def Table.checkColumns (table : String) (seen : List String) : List Clause → Except SchemaError Unit
  | [] => .ok ()
  | clause :: rest => do
    Sql.checkIdentifier clause.name
    if clause.name ∈ seen then
      throw (.invalidTable table (.duplicateColumn clause.name))
    clause.checkDefault table
    clause.checkReference
    checkColumns table (clause.name :: seen) rest

/-- Demands a table that has a statement. -/
def Table.check (table : Table) : Except SchemaError Unit := do
  Sql.checkQualifiedName table.name
  if table.columns.isEmpty then
    throw (.invalidTable table.name .noColumns)
  checkColumns table.name [] table.columns

/-! ## Statements -/

/-- The statement that creates a table. -/
def Table.createStatement (table : Table) : String :=
  "CREATE TABLE IF NOT EXISTS " ++ table.name ++ " (" ++
    ", ".intercalate (table.columns.map Clause.sql) ++ ")"

/-- The statement that creates a table, after all its checks. -/
def Table.compile (table : Table) : Except SchemaError String := do
  table.check
  return table.createStatement

/-- The sequence a column draws from. -/
def Clause.sequence? (clause : Clause) : Option String :=
  match clause.defaultValue? with
  | some (.nextValue sequence) => some sequence
  | _ => none

/-- The sequences a table draws from, in the order of its columns. -/
def Table.sequences (table : Table) : List String :=
  table.columns.filterMap Clause.sequence?

/-- The statement that creates a sequence. -/
def createSequence (sequence : String) : Except SchemaError String := do
  Sql.checkQualifiedName sequence
  return "CREATE SEQUENCE IF NOT EXISTS " ++ sequence

/-- The statements of one operation. A table comes after its sequences. -/
def Operation.compile : Operation → Except SchemaError (List String)
  | .createTable table => do
    let create ← table.compile
    let sequences ← table.sequences.mapM createSequence
    return sequences ++ [create]
  | .dropTable name => do
    Sql.checkQualifiedName name
    return ["DROP TABLE IF EXISTS " ++ name]
  | .raw sql => return if Text.isBlankText sql then [] else [sql]

/-- The statements of a schema change, operation by operation. -/
def Schema.compile (schema : Schema) : Except SchemaError (List String) := do
  return (← schema.mapM Operation.compile).flatten

end SchemaLedger

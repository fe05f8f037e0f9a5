import SchemaLedger.Column.Clause

/-!
# Building tables

A builder collects the columns of one table. A call that introduces a column appends
one clause and hands out a handle, the position of that clause; modifiers act through
the handle, so that a chain of modifiers stays with the column that began it whatever
else the builder holds. A reference is made in two steps, the column first and then the
table; nothing is recorded before the second.
-/

namespace SchemaLedger

/-- A finished table description. -/
structure Table where
  name : String
  columns : List Clause
  deriving DecidableEq

/-- The first column of a name. -/
def Table.column? (table : Table) (name : String) : Option Clause :=
  table.columns.find? (·.name = name)

/-- A table under construction. -/
structure Builder where
  table : String
  columns : List Clause := []
  deriving DecidableEq

/-- The position of the column a chain of modifiers belongs to. -/
structure Handle where
  index : Nat
  deriving DecidableEq

/-- A reference that names its column, but no table yet. -/
structure PendingReference where
  handle : Handle
  column : String

/-- The expression that fills the columns made by `Builder.id`. -/
def uuidGenerator : String := "gen_random_uuid()"

namespace Builder

/-- Appends a column. -/
def column (b : Builder) (name : String) (kind : Kind) : Builder × Handle :=
  ({ b with columns := b.columns ++ [{ name, kind }] }, ⟨b.columns.length⟩)

/-- The clause a handle belongs to. -/
def clause? (b : Builder) (h : Handle) : Option Clause :=
  b.columns[h.index]?

/-- Applies a modifier to the clause a handle belongs to. -/
def apply (b : Builder) (h : Handle) (m : Modifier) : Builder :=
  { b with columns := b.columns.modify h.index (·.apply m) }

/-- Refuses nulls. -/
def notNull (b : Builder) (h : Handle) : Builder := b.apply h .notNull

/-- Gives a default. -/
def defaultTo (b : Builder) (h : Handle) (value : DefaultValue) : Builder :=
  b.apply h (.default value)

/-- Makes the column the primary key. -/
def primary (b : Builder) (h : Handle) : Builder := b.apply h .primaryKey

/-- Demands distinct values. -/
def unique (b : Builder) (h : Handle) : Builder := b.apply h .unique

/-- Names the table of a pending reference, which records it without an action. -/
def inTable (b : Builder) (p : PendingReference) (table : String) : Builder :=
  b.apply p.handle (.references { table, column := p.column, onDelete := none })

/-- Sets the action of the recorded reference, and tells whether there is one. -/
def onDelete (b : Builder) (h : Handle) (action : OnDelete) : Bool × Builder :=
  (((b.clause? h).map fun c => (c.setOnDelete action).1).getD false,
    { b with columns := b.columns.modify h.index fun c => (c.setOnDelete action).2 })

/-! ## Column calls -/

/-- A primary key of random identifiers. -/
def id (b : Builder) (name : String) : Builder × Handle :=
  let (b, h) := b.column name .uuid
  ((b.defaultTo h (.expression uuidGenerator)).primary h, h)

/-- The sequence behind an auto-incrementing column. -/
def sequenceName (table column : String) : String :=
  table ++ "_" ++ column ++ "_seq"

/-- A primary key that counts up. -/
def increments (b : Builder) (name : String) : Builder × Handle :=
  let sequence := sequenceName b.table name
  let (b, h) := b.column name .integer
  ((b.defaultTo h (.nextValue sequence)).primary h, h)

/-- The columns `timestamps` adds, without and with their modifiers. -/
def timestampClause (name : String) : Clause :=
  (({ name, kind := .timestamp } : Clause).apply .notNull).apply
    (.default (.expression "current_timestamp"))

/-- Appends the times of creation and of the last change. -/
def timestamps (b : Builder) : Builder :=
  { b with columns := b.columns ++ [timestampClause "created_at", timestampClause "updated_at"] }

/-- The finished table. -/
def finish (b : Builder) : Table :=
  { name := b.table, columns := b.columns }

end Builder

end SchemaLedger

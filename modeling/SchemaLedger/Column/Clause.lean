import SchemaLedger.Column.OnDelete
import SchemaLedger.Text.Double

/-!
# Column clauses

A clause is one column of a table definition: its name, its kind, and the modifiers
applied to it in the order they were first applied. Each sort of modifier occurs at
most once. Applying a flag again changes nothing; a second default or reference takes
the place of the first, so that its position is kept.
-/

namespace SchemaLedger

/-- The storage type of a column. -/
inductive Kind where
  | string (length : Option Nat)
  | text
  | integer
  | bigInteger
  | decimal (precision scale : Nat)
  | boolean
  | json
  | uuid
  | date
  | timestamp
  deriving DecidableEq

/-- A column default. An expression stands in the statement as it is; a next value is
drawn from the sequence of that name. -/
inductive DefaultValue where
  | text (s : String)
  | integer (n : Int)
  | float (d : Text.Double)
  | boolean (b : Bool)
  | expression (sql : String)
  | nextValue (sequence : String)
  deriving DecidableEq

/-- A reference to a column of a table. -/
structure Reference where
  table : String
  column : String
  onDelete : Option OnDelete
  deriving DecidableEq

/-- A modifier of a column. -/
inductive Modifier where
  | notNull
  | default (value : DefaultValue)
  | primaryKey
  | unique
  | references (target : Reference)
  deriving DecidableEq

/-- The sorts of modifiers. -/
inductive Modifier.Sort where
  | notNull
  | default
  | primaryKey
  | unique
  | references
  deriving DecidableEq

/-- The sort of a modifier. -/
def Modifier.sort : Modifier → Modifier.Sort
  | .notNull => .notNull
  | .default _ => .default
  | .primaryKey => .primaryKey
  | .unique => .unique
  | .references _ => .references

/-- The default that a modifier sets. -/
def Modifier.defaultValue? : Modifier → Option DefaultValue
  | .default value => some value
  | _ => none

/-- The reference that a modifier sets. -/
def Modifier.reference? : Modifier → Option Reference
  | .references target => some target
  | _ => none

/-- One column of a table definition. -/
structure Clause where
  name : String
  kind : Kind
  modifiers : List Modifier := []
  deriving DecidableEq

namespace Clause

/-- Applies a modifier to a list of modifiers: it replaces the one of its sort, or is
added at the end. For flags the replacement is no change. -/
def applyTo : List Modifier → Modifier → List Modifier
  | [], m => [m]
  | present :: rest, m =>
    if present.sort = m.sort then m :: rest else present :: applyTo rest m

/-- Applies a modifier. -/
def apply (clause : Clause) (m : Modifier) : Clause :=
  { clause with modifiers := applyTo clause.modifiers m }

/-- The default of the column. -/
def defaultValue? (clause : Clause) : Option DefaultValue :=
  clause.modifiers.findSome? Modifier.defaultValue?

/-- The reference of the column. -/
def reference? (clause : Clause) : Option Reference :=
  clause.modifiers.findSome? Modifier.reference?

/-- Sets the action of the first reference of a list of modifiers. -/
def setOnDeleteIn (action : OnDelete) : List Modifier → List Modifier
  | [] => []
  | .references target :: rest => .references { target with onDelete := some action } :: rest
  | m :: rest => m :: setOnDeleteIn action rest

/-- Sets the action of the column's reference, and tells whether there is one. -/
def setOnDelete (clause : Clause) (action : OnDelete) : Bool × Clause :=
  (clause.reference?.isSome, { clause with modifiers := setOnDeleteIn action clause.modifiers })

/-- Whether a modifier has been applied. -/
def has (clause : Clause) (m : Modifier) : Bool :=
  clause.modifiers.contains m

/-- The column refuses nulls. -/
def isNotNull (clause : Clause) : Bool := clause.has .notNull

/-- The column is the primary key. -/
def isPrimaryKey (clause : Clause) : Bool := clause.has .primaryKey

/-- The column's values are distinct. -/
def isUnique (clause : Clause) : Bool := clause.has .unique

end Clause

end SchemaLedger

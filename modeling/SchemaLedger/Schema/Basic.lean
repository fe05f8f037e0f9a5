import SchemaLedger.Table.Call

/-!
# Schema changes

A schema change is a list of operations in the order they are carried out.
-/

namespace SchemaLedger

/-- One step of a schema change. -/
inductive Operation where
  | createTable (table : Table)
  | dropTable (name : String)
  | raw (sql : String)
  deriving DecidableEq

/-- The operations of a schema change, in order. -/
abbrev Schema := List Operation

namespace Schema

/-- Adds a table given by its body. -/
def createTable (schema : Schema) (name : String) (body : List Call) : Schema :=
  schema ++ [.createTable (Builder.build name body)]

/-- Adds the removal of a table. -/
def dropTable (schema : Schema) (name : String) : Schema :=
  schema ++ [.dropTable name]

/-- Adds a statement that is passed on as it is. -/
def raw (schema : Schema) (sql : String) : Schema :=
  schema ++ [.raw sql]

end Schema

/-- A migration: the change it makes, and the change that takes it back. -/
structure Definition where
  up : Schema
  down : Schema := []
  deriving DecidableEq

end SchemaLedger

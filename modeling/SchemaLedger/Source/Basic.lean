import SchemaLedger.Schema.Basic
import SchemaLedger.Source.Error

/-!
# Sources of migrations

A source lists the names of the migrations it has, in ascending order, and loads the
definition of one. Either may fail.
-/

namespace SchemaLedger

/-- A source of migrations. -/
structure Source where
  list : Except SourceError (List Name)
  load : Name → Except SourceError Definition

end SchemaLedger

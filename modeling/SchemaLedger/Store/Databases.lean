import SchemaLedger.Migrate.Error
import SchemaLedger.Configuration.Basic
import SchemaLedger.Store.Contents
import SchemaLedger.Store.Rule

/-!
# Databases by their paths

A store of databases keeps the contents of each by its path. A database in memory is a new
one each time it is opened, and is gone when it is closed.
-/

namespace SchemaLedger.Store

/-- The contents of databases by their paths. -/
structure Databases where
  contents : List (String × Contents) := []

namespace Databases

/-- What the database of a path holds when it is opened. -/
def contentsOf (d : Databases) (path : String) : Contents :=
  if path = memoryPath then {} else (d.contents.lookup path).getD {}

/-- Keeps what the database of a path holds when it is closed. -/
def keep (d : Databases) (path : String) (c : Contents) : Databases :=
  if path = memoryPath then d else ⟨(path, c) :: d.contents.filter (·.1 ≠ path)⟩

end Databases

/-- A connection behind rules, with what it was asked. -/
abbrev Session := Engine.Recorded (Ruled Connection)

namespace Session

/-- The engine of a session. -/
def engine : Engine Session := Connection.engine.ruled.recorded

/-- The database of a session. -/
def database : Database Session := engine.database

/-- The failure to open a database. -/
def openFailure (path text : String) : MigrateError :=
  .connection (.connection (if path = memoryPath then text else path ++ ": " ++ text))

/-- Opens a database behind rules. -/
def start (contents : Contents) (path : String) (rules : List Rule) :
    Except MigrateError Unit × Session :=
  let (refusal, rules) := Rule.openError rules path
  let session : Session := ⟨⟨{ contents }, rules⟩, [.openPath path]⟩
  match refusal with
  | some text => (.error (openFailure path text), session)
  | none => (.ok (), session)

/-- What is asked of a session from here on is recorded anew. -/
def forget (s : Session) : Session := { s with requests := [] }

end Session

end SchemaLedger.Store

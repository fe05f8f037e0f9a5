import SchemaLedger.Configuration.Basic
import SchemaLedger.Migrate.Error

/-!
# Dialogues with a database

Whatever is done with a database is a dialogue: a call, and then a dialogue that depends on
the reply, until there is a result. On the way remarks may be made to whoever watches. A
dialogue says all there is to say about what is called and in which order, and `run` holds
it with a database and keeps what happened.
-/

namespace SchemaLedger

/-- A remark on the work. -/
inductive Note where
  | nothingPending
  | applying (count : Nat) (batch : Int)
  | applied (name : Name) (statements : Nat)
  | nothingApplied
  | reverting (batch : Int) (count : Nat)
  | reverted (name : Name)
  | lost (name : Name) (batch : Int)
  | rollbackFailed (name : Name) (error : DatabaseError)
  | rollbackAfterCommitFailed (name : Name) (error : DatabaseError)
  deriving DecidableEq

namespace Note

/-- Remarks that warn. -/
def isWarning : Note → Bool
  | .lost .. | .rollbackFailed .. | .rollbackAfterCommitFailed .. => true
  | _ => false

/-- The wording of a remark. -/
def text : Note → String
  | .nothingPending => "Nothing to migrate"
  | .applying count batch =>
    "Applying " ++ toString count ++ " migration(s) as batch " ++ toString batch ++ " on " ++
      DatabaseKind.duckdb.name
  | .applied name statements =>
    "Migrated " ++ name.text ++ " (" ++ toString statements ++ " statement(s))"
  | .nothingApplied => "Nothing to roll back"
  | .reverting batch count =>
    "Rolling back batch " ++ toString batch ++ " (" ++ toString count ++ " migration(s))"
  | .reverted name => "Rolled back " ++ name.text
  | .lost name batch =>
    "Ledger record " ++ name.text ++ " (batch " ++ toString batch ++
      ") has no migration definition"
  | .rollbackFailed name error =>
    "ROLLBACK after failed migration " ++ name.text ++ " failed: " ++ error.message
  | .rollbackAfterCommitFailed name error =>
    "ROLLBACK after failed COMMIT of " ++ name.text ++ " failed: " ++ error.message

end Note

/-- A dialogue with a database. -/
inductive Dialogue (α : Type) where
  | done (result : α)
  | note (n : Note) (rest : Dialogue α)
  | call (c : DatabaseCall) (next : c.Reply → Dialogue α)

/-- What happens in a dialogue. -/
inductive Event where
  | note (n : Note)
  | answered (c : DatabaseCall) (reply : c.Reply)

/-- A dialogue that was held: its result, the state of the database after it, and what
happened, in order. -/
structure Outcome (σ α : Type) where
  result : α
  state : σ
  events : List Event

namespace Dialogue

/-- One dialogue after the other. -/
def andThen {α β : Type} : Dialogue α → (α → Dialogue β) → Dialogue β
  | .done a, f => f a
  | .note n rest, f => .note n (rest.andThen f)
  | .call c next, f => .call c fun reply => (next reply).andThen f

instance : Monad Dialogue where
  pure := .done
  bind := andThen

/-- Holds a dialogue with a database. -/
def run {σ α : Type} (db : Database σ) : Dialogue α → σ → Outcome σ α
  | .done a, s => ⟨a, s, []⟩
  | .note n rest, s =>
    let o := run db rest s
    { o with events := .note n :: o.events }
  | .call c next, s =>
    let (reply, s) := db.reply c s
    let o := run db (next reply) s
    { o with events := .answered c reply :: o.events }

/-- A call by itself. -/
def asking (c : DatabaseCall) : Dialogue c.Reply := .call c .done

/-- A remark by itself. -/
def remarking (n : Note) : Dialogue Unit := .note n (.done ())

end Dialogue

/-- The remarks among what happened. -/
def Event.note? : Event → Option Note
  | .note n => some n
  | .answered .. => none

/-- A dialogue that may fail. -/
abbrev Work := ExceptT MigrateError Dialogue

namespace Work

/-- A call whose refusal is a failure. -/
def orFail {α : Type} (d : Dialogue (Except DatabaseError α))
    (failure : DatabaseError → MigrateError) : Work α :=
  ExceptT.mk do
    match ← d with
    | .ok a => return .ok a
    | .error e => return .error (failure e)

/-- A remark. -/
def remark (n : Note) : Work Unit := ExceptT.lift (.remarking n)

end Work

end SchemaLedger

/-!
# Calls to a database

A database is asked by calls and answers each with a reply, which may be an error. Nothing
else is known of it: a `Database` may answer a call in any way, and change in any way when
it does.
-/

namespace SchemaLedger

/-- Why a database refuses a call. The lock on its connection is poisoned once something has
failed while holding it. -/
inductive DatabaseError where
  | connection (text : String)
  | execution (text : String)
  | tableNotFound (text : String)
  | lockPoisoned (text : String)
  deriving DecidableEq

/-- The wording of a refusal. -/
def DatabaseError.message : DatabaseError → String
  | .connection text => "[D001] Database connection failed: " ++ text
  | .execution text => "[D002] SQL execution failed: " ++ text
  | .tableNotFound text => "[D003] Table or view not found: " ++ text
  | .lockPoisoned text => "[D004] Database mutex poisoned: " ++ text

/-- A call. A batch is several statements parted by semicolons. -/
inductive DatabaseCall where
  | execute (sql : String)
  | executeBatch (sql : String)
  | relationExists (name : String)
  | queryCount (sql : String)
  | queryRows (sql : String)
  | createSchema (name : String)
  deriving DecidableEq

namespace DatabaseCall

/-- What a call is answered with: the number of rows that a statement affected, whether a
relation exists, the number of rows of a query, or the rows themselves, every value as
text. -/
abbrev Reply : DatabaseCall → Type
  | .execute _ => Except DatabaseError Nat
  | .executeBatch _ => Except DatabaseError Unit
  | .relationExists _ => Except DatabaseError Bool
  | .queryCount _ => Except DatabaseError Nat
  | .queryRows _ => Except DatabaseError (List (List String))
  | .createSchema _ => Except DatabaseError Unit

end DatabaseCall

/-- A database with states of type `σ`. -/
structure Database (σ : Type) where
  reply : (call : DatabaseCall) → σ → call.Reply × σ

end SchemaLedger

import SchemaLedger.Command.Switch

/-!
# Commands by their verbs

A verb has switches of its own and says how many words may follow it.
-/

namespace SchemaLedger

/-- What the program is told to do. -/
inductive Verb where
  | migrate
  | status
  | rollback
  | compile
  | make
  deriving DecidableEq

/-- How many words there is room for. -/
inductive Room where
  | none
  | one
  | many
  deriving DecidableEq

namespace Verb

/-- The word for a verb. -/
def word : Verb → String
  | .migrate => "migrate"
  | .status => "status"
  | .rollback => "rollback"
  | .compile => "compile"
  | .make => "make"

/-- All verbs. -/
def all : List Verb := [.migrate, .status, .rollback, .compile, .make]

/-- The verb that a word is. -/
def ofWord? (word : String) : Option Verb := all.find? (·.word = word)

/-- The switches that only this verb has. -/
def switches : Verb → List Switch
  | .migrate | .rollback => [.dryRun]
  | .status => [.output]
  | .compile => [.down]
  | .make => []

/-- How many words may follow a verb. -/
def room : Verb → Room
  | .migrate | .status | .rollback => .none
  | .compile => .many
  | .make => .one

end Verb

end SchemaLedger

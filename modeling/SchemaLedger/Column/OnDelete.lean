import SchemaLedger.Text.Blank

/-!
# What becomes of a row when the row it refers to is deleted
-/

namespace SchemaLedger

/-- The action of a reference when the referenced row is deleted. -/
inductive OnDelete where
  | cascade
  | setNull
  | setDefault
  | restrict
  | noAction
  deriving DecidableEq

namespace OnDelete

/-- All actions, in the order messages list them. -/
def all : List OnDelete := [cascade, setNull, setDefault, restrict, noAction]

/-- The keywords of an action. -/
def sql : OnDelete → String
  | cascade => "CASCADE"
  | setNull => "SET NULL"
  | setDefault => "SET DEFAULT"
  | restrict => "RESTRICT"
  | noAction => "NO ACTION"

/-- Blanks around an action do not count, nor does letter case; underscores and hyphens
read as blanks. -/
def normalize (s : String) : String :=
  String.ofList <| (Text.trim s).toList.map fun c =>
    if c = '_' || c = '-' then ' ' else c.toUpper

/-- Reads an action. -/
def ofText? (s : String) : Option OnDelete :=
  all.find? fun action => action.sql = normalize s

/-- What a text that names no action is told. -/
def unknownMessage (s : String) : String :=
  "unknown on_delete action '" ++ s ++
    "' (expected cascade, set null, set default, restrict, or no action)"

end OnDelete

end SchemaLedger

import SchemaLedger.Report.StatusTable

/-!
# The status as a JSON array

An array with one object for each migration, laid out with one member on a line and two
blanks for each level.
-/

namespace SchemaLedger

namespace StatusJson

/-- A character inside a string. -/
def encodeChar (c : Char) : List Char :=
  if c = '"' then ['\\', '"']
  else if c = '\\' then ['\\', '\\']
  else if c = '\x08' then ['\\', 'b']
  else if c = '\x0c' then ['\\', 'f']
  else if c = '\n' then ['\\', 'n']
  else if c = '\x0d' then ['\\', 'r']
  else if c = '\t' then ['\\', 't']
  else if c.toNat < 0x20 then
    ['\\', 'u', '0', '0', Nat.digitChar (c.toNat / 16), Nat.digitChar (c.toNat % 16)]
  else [c]

/-- A text as a string. -/
def string (s : String) : String :=
  String.ofList ('"' :: (s.toList.flatMap encodeChar ++ ['"']))

/-- The members of an object, each with its name and its value. -/
def members (s : MigrationStatus) : List (String × String) :=
  [("name", string s.name.text), ("state", string s.state.word)] ++
    match s.state.recorded? with
    | some (batch, at_) => [("batch", toString batch), ("applied_at", string at_.toText)]
    | none => []

/-- An object inside the array. -/
def object (s : MigrationStatus) : String :=
  "  \x7b\n" ++
    ",\n".intercalate
      ((members s).map fun (name, value) => "    " ++ string name ++ ": " ++ value) ++
    "\n  \x7d"

/-- The array. -/
def array (all : List MigrationStatus) : String :=
  if all.isEmpty then "[]"
  else "[\n" ++ ",\n".intercalate (all.map object) ++ "\n]"

end StatusJson

end SchemaLedger

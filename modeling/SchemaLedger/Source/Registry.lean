import SchemaLedger.Source.Basic

/-!
# Registries

A registry holds definitions by their names. A name that is taken stays with the definition
it was first registered for.
-/

namespace SchemaLedger

/-- Definitions by their names, in the order of registration. -/
structure Registry where
  entries : List (Name × Definition) := []
  deriving DecidableEq

namespace Registry

/-- What messages call the place of a registered migration. -/
def placeName : String := "<embedded>"

/-- The definition of a name. -/
def find? (r : Registry) (name : Name) : Option Definition :=
  r.entries.lookup name

/-- Registers a definition under a name that is not taken. -/
def register (r : Registry) (name : Name) (definition : Definition) :
    Except SourceError Registry :=
  if (r.find? name).isSome then
    .error (.duplicateMigration name.text placeName placeName)
  else .ok ⟨r.entries ++ [(name, definition)]⟩

/-- The number of definitions. -/
def size (r : Registry) : Nat := r.entries.length

/-- The names in ascending order. -/
def names (r : Registry) : List Name := Name.sort (r.entries.map (·.1))

/-- Loads a definition. -/
def load (r : Registry) (name : Name) : Except SourceError Definition :=
  match r.find? name with
  | some definition => .ok definition
  | none => .error (.migrationNotFound name.text)

/-- A registry as a source. -/
def source (r : Registry) : Source where
  list := .ok r.names
  load := r.load

end Registry

end SchemaLedger

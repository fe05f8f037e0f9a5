/-!
# Names of migrations

A migration is known by a name that is not empty. Names are ordered by their bytes, which
for Unicode text is the order of its code points, and that order is the order in which
migrations run.
-/

namespace SchemaLedger

/-- The name of a migration. -/
structure Name where
  text : String
  nonempty : text ≠ ""
  deriving DecidableEq

namespace Name

/-- What a text is told that is no name. -/
def emptyMessage : String := "MigrationName must not be empty"

/-- A text as a name, unless it is empty. -/
def ofText? (s : String) : Option Name :=
  if h : s = "" then none else some ⟨s, h⟩

/-- The order of names. -/
def le (a b : Name) : Bool := decide (a.text ≤ b.text)

/-- Names in ascending order. -/
def sort (names : List Name) : List Name := names.mergeSort le

/-- The length of a name in bytes. -/
def byteLength (name : Name) : Nat := name.text.utf8ByteSize

theorem eq_of_text {a b : Name} (h : a.text = b.text) : a = b := by
  cases a
  cases b
  cases h
  rfl

theorem ofText?_text (name : Name) : ofText? name.text = some name := by
  simp [ofText?, name.nonempty]

end Name

end SchemaLedger

import SchemaLedger.Migration.File
import SchemaLedger.Yaml.Decode.Open
import SchemaLedger.Yaml.Node.OfTokens

/-!
# Reading migration files

The text of a migration file is a document with one mapping. All of it is read before its
steps are checked, so a fault of the text comes before a fault of a step.
-/

namespace SchemaLedger

namespace MigrationFile

open Yaml Yaml.Decode

/-! ## Defaults -/

/-- What a key of an expression means: it may be the name of its only field, or the number
of a field. -/
def isRawKey? : Data → Option Bool
  | .value (.text s) => some (s = "raw")
  | .value (.unsigned n) => some (n = 0)
  | _ => none

/-- The expression of a mapping: it has one field that counts, given once, as a text. -/
def expression? (found : Option String) : List (Data × Data) → Option String
  | [] => found
  | (k, v) :: rest =>
    match isRawKey? k with
    | none => none
    | some false => expression? found rest
    | some true =>
      match found, v with
      | none, .value (.text s) => expression? (some s) rest
      | _, _ => none

/-- The default that data of any type stand for: a boolean, an integer of 64 bits, else a
floating-point number, a text, or an expression. -/
def defaultOf? : Data → Option DefaultValue
  | .value (.boolean b) => some (.boolean b)
  | .value (.unsigned n) =>
    if (n : Int) ≤ Text.int64Max then some (.integer n) else some (.float (.ofNat n))
  | .value (.signed n) => some (.integer n)
  | .value (.float d) => some (.float d)
  | .value (.text s) => some (.text s)
  | .mapping entries => (expression? none entries).map .expression
  | _ => none

/-- Reads a default. -/
def readDefault (spot : Spot) (n : Node) : Decode DefaultValue := do
  match defaultOf? (← data spot n) with
  | some value => return value
  | none => fail (.noAlternative "DefaultSpec")

/-! ## Entries -/

/-- Reads an action of a reference. -/
def readOnDelete (spot : Spot) (n : Node) : Decode OnDelete := do
  let s ← text spot n
  match OnDelete.ofText? s with
  | some action => return action
  | none => fail (.refused (OnDelete.unknownMessage s))

/-- The fields of a reference read so far. -/
structure ReferenceDraft where
  table : Option String := none
  column : String := "id"
  onDelete : Option OnDelete := none

/-- Reads a reference. -/
def readReference : Spot → Node → Decode ReferenceEntry :=
  record "struct ReferenceSpec" ["table", "column", "on_delete"]
    (fun (draft : ReferenceDraft) name spot n => do
      match name with
      | "table" => return { draft with table := some (← text spot n) }
      | "column" => return { draft with column := ← text spot n }
      | _ => return { draft with onDelete := ← optional readOnDelete spot n })
    {}
    (fun draft => return {
      table := ← required "table" draft.table
      column := draft.column
      onDelete := draft.onDelete })

/-- The greatest length of a column. -/
def maxLength : Nat := 4294967295

/-- The greatest precision and scale of a column. -/
def maxPrecision : Nat := 255

/-- Reads a length. -/
def readLength : Spot → Node → Decode Nat := natural maxLength "u32"

/-- Reads a precision or a scale. -/
def readPrecision : Spot → Node → Decode Nat := natural maxPrecision "u8"

/-- Reads a column entry. The type is kept apart until it is known to be there. -/
def readColumn : Spot → Node → Decode ColumnEntry :=
  record "struct ColumnSpec"
    ["name", "type", "length", "precision", "scale", "not_null", "default", "primary", "unique",
      "references"]
    (fun ((c, type) : ColumnEntry × Option ColumnType) name spot n => do
      match name with
      | "name" => return ({ c with name := ← optional text spot n }, type)
      | "type" => return (c, some (← variant ColumnType.names spot n))
      | "length" => return ({ c with length := ← optional readLength spot n }, type)
      | "precision" => return ({ c with precision := ← optional readPrecision spot n }, type)
      | "scale" => return ({ c with scale := ← optional readPrecision spot n }, type)
      | "not_null" => return ({ c with notNull := ← boolean spot n }, type)
      | "default" => return ({ c with default := ← optional readDefault spot n }, type)
      | "primary" => return ({ c with primary := ← boolean spot n }, type)
      | "unique" => return ({ c with unique := ← boolean spot n }, type)
      | _ => return ({ c with references := ← optional readReference spot n }, type))
    ({ type := .text }, none)
    (fun (c, type) => return { c with type := ← required "type" type })

/-- Reads a table entry. -/
def readTable : Spot → Node → Decode TableEntry :=
  record "struct TableSpec" ["name", "columns"]
    (fun ((table, columns) : Option String × Option (List ColumnEntry)) name spot n => do
      match name with
      | "name" => return (some (← text spot n), columns)
      | _ => return (table, some (← sequence readColumn spot n)))
    (none, none)
    (fun (table, columns) => return {
      name := ← required "name" table
      columns := ← required "columns" columns })

/-- Reads a step. -/
def readStep : Spot → Node → Decode StepEntry :=
  record "struct RawStep" ["create_table", "drop_table", "raw"]
    (fun (step : StepEntry) name spot n => do
      match name with
      | "create_table" => return { step with createTable := ← optional readTable spot n }
      | "drop_table" => return { step with dropTable := ← optional text spot n }
      | _ => return { step with raw := ← optional text spot n })
    {} pure

/-- Reads the content of a file. -/
def readFile : Spot → Node → Decode FileEntry :=
  record "struct RawMigrationFile" ["description", "up", "down"]
    (fun (file : FileEntry) name spot n => do
      match name with
      | "description" => return { file with description := ← optional text spot n }
      | "up" => return { file with up := ← sequence readStep spot n }
      | _ => return { file with down := ← sequence readStep spot n })
    {} pure

/-! ## Files -/

/-- Why a text is no migration file. -/
inductive ParseFault where
  | yaml (error : Yaml.Error)
  | step (fault : FileFault)

/-- The wording of a parse fault. -/
def ParseFault.message : ParseFault → String
  | .yaml error => error.message
  | .step fault => fault.message

/-- The entries of a text. -/
def decode (content : String) : Except Yaml.Error FileEntry :=
  run readFile (.ofText content)

/-- The migration file that a text is. -/
def parse (content : String) : Except ParseFault MigrationFile := do
  let entries ← (decode content).mapError .yaml
  entries.resolve.mapError .step

end MigrationFile

end SchemaLedger

import SchemaLedger.Schema.Basic

/-!
# Migration files

A migration file lists steps for either direction, each of them one operation. The steps
are entries as they were written; they are checked in order, all steps up before any step
down, and the first fault is reported by its step, and within a table by its column. Steps
that pass mean the calls on a table builder that one would write by hand for them.
-/

namespace SchemaLedger

/-- The type of a column entry. -/
inductive ColumnType where
  | id
  | increments
  | string
  | text
  | integer
  | bigInteger
  | decimal
  | boolean
  | json
  | uuid
  | date
  | timestamp
  | timestamps
  deriving DecidableEq

/-- The types as they are written in a file. -/
def ColumnType.names : List (String × ColumnType) :=
  [("id", .id), ("increments", .increments), ("string", .string), ("text", .text),
    ("integer", .integer), ("big_integer", .bigInteger), ("decimal", .decimal),
    ("boolean", .boolean), ("json", .json), ("uuid", .uuid), ("date", .date),
    ("timestamp", .timestamp), ("timestamps", .timestamps)]

/-- The reference of a column entry. -/
structure ReferenceEntry where
  table : String
  column : String := "id"
  onDelete : Option OnDelete := none
  deriving DecidableEq

/-- A column entry. -/
structure ColumnEntry where
  name : Option String := none
  type : ColumnType
  length : Option Nat := none
  precision : Option Nat := none
  scale : Option Nat := none
  notNull : Bool := false
  default : Option DefaultValue := none
  primary : Bool := false
  unique : Bool := false
  references : Option ReferenceEntry := none
  deriving DecidableEq

/-- A table entry. -/
structure TableEntry where
  name : String
  columns : List ColumnEntry
  deriving DecidableEq

/-- A step as it was written, with any number of operations. -/
structure StepEntry where
  createTable : Option TableEntry := none
  dropTable : Option String := none
  raw : Option String := none
  deriving DecidableEq

/-- The content of a migration file. -/
structure FileEntry where
  description : Option String := none
  up : List StepEntry := []
  down : List StepEntry := []
  deriving DecidableEq

/-- A checked step. -/
inductive Step where
  | createTable (table : TableEntry)
  | dropTable (name : String)
  | raw (sql : String)
  deriving DecidableEq

/-- A checked migration file. -/
structure MigrationFile where
  description : Option String
  up : List Step
  down : List Step
  deriving DecidableEq

/-! ## Faults -/

/-- The two directions of a migration. -/
inductive Direction where
  | up
  | down
  deriving DecidableEq

/-- The name of a direction. -/
def Direction.name : Direction → String
  | .up => "up"
  | .down => "down"

/-- What is wrong with a column entry. -/
inductive ColumnFault where
  | incompleteDecimal
  | misplaced (parameter : String)
  | decoratedTimestamps
  | unnamed
  deriving DecidableEq

/-- The wording of a column fault. -/
def ColumnFault.message : ColumnFault → String
  | .incompleteDecimal => "decimal requires precision and scale"
  | .misplaced parameter => "'" ++ parameter ++ "' is not valid for this column type"
  | .decoratedTimestamps => "timestamps takes no name or modifiers"
  | .unnamed => "column is missing a name"

/-- What is wrong with a step. -/
inductive StepFault where
  | noOperation
  | severalOperations
  | column (table : String) (index : Nat) (fault : ColumnFault)
  deriving DecidableEq

/-- The wording of a step fault. -/
def StepFault.message : StepFault → String
  | .noOperation => "step must contain one of create_table, drop_table, raw"
  | .severalOperations => "step must contain exactly one operation"
  | .column table index fault =>
    "table '" ++ table ++ "' column " ++ toString index ++ ": " ++ fault.message

/-- The first fault of a file. -/
structure FileFault where
  direction : Direction
  index : Nat
  fault : StepFault
  deriving DecidableEq

/-- The wording of a file fault. -/
def FileFault.message (f : FileFault) : String :=
  f.direction.name ++ "[" ++ toString f.index ++ "]: " ++ f.fault.message

/-! ## Checks -/

namespace ColumnEntry

/-- The parameters that a type takes. -/
def parametersOf : ColumnType → List String
  | .string => ["length"]
  | .decimal => ["precision", "scale"]
  | _ => []

/-- The parameters that are given, in the order in which they are checked. -/
def parameters (c : ColumnEntry) : List String :=
  (if c.length.isSome then ["length"] else []) ++
    (if c.precision.isSome then ["precision"] else []) ++
    (if c.scale.isSome then ["scale"] else [])

/-- Demands the parameters that the type takes, and no others. -/
def checkParameters (c : ColumnEntry) : Except ColumnFault Unit :=
  if c.type = .decimal && (c.precision.isNone || c.scale.isNone) then .error .incompleteDecimal
  else
    match c.parameters.find? (!(parametersOf c.type).contains ·) with
    | some parameter => .error (.misplaced parameter)
    | none => .ok ()

/-- Whether any modifier is given. -/
def hasModifiers (c : ColumnEntry) : Bool :=
  c.notNull || c.default.isSome || c.primary || c.unique || c.references.isSome

/-- Demands a name, or for the time columns that there is none and no modifier either. -/
def checkName (c : ColumnEntry) : Except ColumnFault Unit :=
  if c.type = .timestamps then
    if c.name.isSome || c.hasModifiers then .error .decoratedTimestamps else .ok ()
  else
    match c.name with
    | some name => if name.isEmpty then .error .unnamed else .ok ()
    | none => .error .unnamed

/-- Demands a well-formed column entry. -/
def check (c : ColumnEntry) : Except ColumnFault Unit := do
  c.checkParameters
  c.checkName

end ColumnEntry

/-- Checks the columns of a table from number `i` on. -/
def TableEntry.checkColumnsFrom (table : String) (i : Nat) :
    List ColumnEntry → Except StepFault Unit
  | [] => .ok ()
  | c :: rest =>
    match c.check with
    | .ok () => checkColumnsFrom table (i + 1) rest
    | .error fault => .error (.column table i fault)

/-- The one operation of a step. -/
def StepEntry.operation (s : StepEntry) : Except StepFault Step :=
  match s.createTable, s.dropTable, s.raw with
  | some table, none, none => .ok (.createTable table)
  | none, some name, none => .ok (.dropTable name)
  | none, none, some sql => .ok (.raw sql)
  | none, none, none => .error .noOperation
  | _, _, _ => .error .severalOperations

/-- Checks a step. -/
def StepEntry.resolve (s : StepEntry) : Except StepFault Step := do
  let step ← s.operation
  match step with
  | .createTable table => TableEntry.checkColumnsFrom table.name 0 table.columns
  | _ => pure ()
  return step

/-- Checks the steps of a direction from number `i` on. -/
def resolveFrom (direction : Direction) (i : Nat) : List StepEntry → Except FileFault (List Step)
  | [] => .ok []
  | s :: rest =>
    match s.resolve with
    | .ok step => (resolveFrom direction (i + 1) rest).map (step :: ·)
    | .error fault => .error ⟨direction, i, fault⟩

/-- Checks a file. -/
def FileEntry.resolve (f : FileEntry) : Except FileFault MigrationFile := do
  let up ← resolveFrom .up 0 f.up
  let down ← resolveFrom .down 0 f.down
  return ⟨f.description, up, down⟩

/-! ## Meaning -/

namespace ColumnEntry

/-- How a builder introduces a column of a type; none for the time columns. -/
def introduction? (c : ColumnEntry) : Option Introduction :=
  match c.type with
  | .id => some .id
  | .increments => some .increments
  | .string => some (.typed (.string c.length))
  | .text => some (.typed .text)
  | .integer => some (.typed .integer)
  | .bigInteger => some (.typed .bigInteger)
  | .decimal => some (.typed (.decimal (c.precision.getD 0) (c.scale.getD 0)))
  | .boolean => some (.typed .boolean)
  | .json => some (.typed .json)
  | .uuid => some (.typed .uuid)
  | .date => some (.typed .date)
  | .timestamp => some (.typed .timestamp)
  | .timestamps => none

/-- The modifiers of an entry, in the order in which they are applied. -/
def chain (c : ColumnEntry) : List Link :=
  (if c.notNull then [.notNull] else []) ++
    (c.default.map .default).toList ++
    (if c.primary then [.primary] else []) ++
    (if c.unique then [.unique] else []) ++
    (c.references.map fun r => .references r.column (some r.table) r.onDelete).toList

/-- The call that an entry stands for. -/
def call (c : ColumnEntry) : Call :=
  match c.introduction? with
  | some introduction => .column introduction (c.name.getD "") c.chain
  | none => .timestamps

end ColumnEntry

/-- Adds the operation of a step. -/
def Step.apply (schema : Schema) : Step → Schema
  | .createTable table => schema.createTable table.name (table.columns.map ColumnEntry.call)
  | .dropTable name => schema.dropTable name
  | .raw sql => schema.raw sql

/-- The migration that a file defines. -/
def MigrationFile.definition (f : MigrationFile) : Definition :=
  { up := f.up.foldl Step.apply [], down := f.down.foldl Step.apply [] }

end SchemaLedger

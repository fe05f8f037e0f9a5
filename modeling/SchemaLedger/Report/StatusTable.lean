import SchemaLedger.Migrate.Status

/-!
# The status as a table

One line for each migration, with columns wide enough for what is in them. The width of the
names is counted in bytes, the blanks that fill it up in characters.
-/

namespace SchemaLedger

/-- Blanks that bring a text up to a number of characters. -/
def filling (width : Nat) (s : String) : String :=
  String.ofList (List.replicate (width - s.length) ' ')

/-- A text with blanks behind it. -/
def padRight (width : Nat) (s : String) : String := s ++ filling width s

/-- A text with blanks in front of it. -/
def padLeft (width : Nat) (s : String) : String := filling width s ++ s

namespace MigrationState

/-- The word for a state. -/
def word : MigrationState → String
  | .pending => "pending"
  | .applied .. => "applied"
  | .missing .. => "missing"

/-- The batch and the moment of a migration that is recorded. -/
def recorded? : MigrationState → Option (Int × Moment)
  | .pending => none
  | .applied batch at_ | .missing batch at_ => some (batch, at_)

end MigrationState

namespace StatusTable

/-- A line of the table. -/
def line (width : Nat) (name state batch appliedAt : String) : String :=
  padRight width name ++ "  " ++ padRight 8 state ++ "  " ++ padLeft 5 batch ++ "  " ++ appliedAt

/-- The line of a migration. -/
def row (width : Nat) (s : MigrationStatus) : String :=
  let (batch, appliedAt) := match s.state.recorded? with
    | some (batch, at_) => (toString batch, at_.toTableText)
    | none => ("", "")
  line width s.name.text s.state.word batch appliedAt

/-- The heading of the first column. -/
def nameHeading : String := "MIGRATION"

/-- The width of the first column. -/
def nameWidth (all : List MigrationStatus) : Nat :=
  all.foldl (fun n s => max n s.name.byteLength) nameHeading.utf8ByteSize

/-- The number of migrations that are pending. -/
def pendingCount (all : List MigrationStatus) : Nat := all.countP (·.state = .pending)

/-- The lines of the table. -/
def lines (all : List MigrationStatus) : List String :=
  if all.isEmpty then ["No migrations found."]
  else
    let width := nameWidth all
    line width nameHeading "STATUS" "BATCH" "APPLIED AT" :: all.map (row width) ++
      ["", toString all.length ++ " migration(s), " ++ toString (pendingCount all) ++ " pending"]

end StatusTable

end SchemaLedger

import SchemaLedger.Calendar.Reading
import SchemaLedger.Database.Call
import SchemaLedger.Migration.Name
import SchemaLedger.Text.Integer

/-!
# Records of a ledger

A ledger has one record for each migration that is applied: a number that grows, the name,
the batch in which it was applied, and when. A record comes as a row of texts, and a row
that is no record is an error: none is passed over.
-/

namespace SchemaLedger

/-- A migration that is applied. -/
structure Record where
  id : Int
  name : Name
  batch : Int
  appliedAt : Moment
  deriving DecidableEq

/-- Why a ledger cannot be read or written. -/
inductive LedgerFault where
  | database (error : DatabaseError)
  | columnCount (n : Nat)
  | emptyName
  | invalidTime (text : String) (fault : MomentFault)
  | invalidNumber (column text : String)
  | noBatch
  | noRecord (name : Name)
  deriving DecidableEq

/-- The wording of a fault. -/
def LedgerFault.message : LedgerFault → String
  | .database error => error.message
  | .columnCount n => "expected 4 ledger columns, got " ++ toString n
  | .emptyName => "ledger record with empty name"
  | .invalidTime text fault =>
    "invalid migration_time '" ++ text ++ "': " ++ fault.message
  | .invalidNumber column text => "invalid " ++ column ++ " value '" ++ text ++ "'"
  | .noBatch => "batch query returned no rows"
  | .noRecord name => "no ledger record for '" ++ name.text ++ "'"

namespace Record

/-- A number in a column. -/
def number (column text : String) : Except LedgerFault Int :=
  match Text.int64? text with
  | some n => .ok n
  | none => .error (.invalidNumber column text)

/-- The record of the four values in a row. -/
def ofValues (id name batch time : String) : Except LedgerFault Record := do
  match Name.ofText? name with
  | none => throw .emptyName
  | some name =>
    let appliedAt ← (Moment.ofText time).mapError (.invalidTime time)
    let id ← number "id" id
    let batch ← number "batch" batch
    return { id, name, batch, appliedAt }

/-- The record that a row is. -/
def ofRow : List String → Except LedgerFault Record
  | [id, name, batch, time] => ofValues id name batch time
  | row => .error (.columnCount row.length)

/-- The records that rows are, up to the first that is none. -/
def ofRows : List (List String) → Except LedgerFault (List Record)
  | [] => .ok []
  | row :: rest => do
    let r ← ofRow row
    return r :: (← ofRows rest)

end Record

end SchemaLedger

import SchemaLedger.Text.Quoted
import SchemaLedger.Yaml.Malformation
import SchemaLedger.Yaml.Scalar

/-!
# Why a document cannot be read

A text may be malformed; else a part of it may be of the wrong shape, and the message says
which part, what it was, and what was expected there.
-/

namespace SchemaLedger.Yaml

/-- The place of a part in a document. A part whose key is no plain text of its own is
unnamed. -/
inductive Place where
  | root
  | key (parent : Place) (name : String)
  | index (parent : Place) (i : Nat)
  | unnamed (parent : Place)
  deriving DecidableEq

namespace Place

/-- The name of a place. -/
def name : Place → String
  | .root => "."
  | .key .root k => k
  | .key parent k => parent.name ++ "." ++ k
  | .index parent i => parent.name ++ "[" ++ toString i ++ "]"
  | .unnamed .root => "?"
  | .unnamed parent => parent.name ++ ".?"

/-- What a message puts in front of its text. -/
def heading : Place → String
  | .root => ""
  | place => place.name ++ ": "

end Place

/-- What was found where something else was expected. -/
inductive Found where
  | value (v : Value)
  | sequence
  | mapping
  deriving DecidableEq

/-- The name of what was found. -/
def Found.name : Found → String
  | .value .null => "unit value"
  | .value (.boolean b) => "boolean \x60" ++ (if b then "true" else "false") ++ "\x60"
  | .value (.unsigned n) => "integer \x60" ++ toString n ++ "\x60"
  | .value (.signed n) => "integer \x60" ++ toString n ++ "\x60"
  | .value (.wide n) =>
    "integer \x60" ++ toString n ++ "\x60 as " ++ (if 0 ≤ n then "u128" else "i128")
  | .value (.float d) => "floating point \x60" ++ d.toTextWithPoint ++ "\x60"
  | .value (.text s) => "string " ++ Text.quoted s
  | .sequence => "sequence"
  | .mapping => "map"

/-- The names that were expected, as a message lists them. -/
def oneOf (names : List String) : String :=
  let ticked := names.map fun n => "\x60" ++ n ++ "\x60"
  match ticked with
  | [a] => a
  | [a, b] => a ++ " or " ++ b
  | _ => "one of " ++ ", ".intercalate ticked

/-- What is wrong with a part of a document. -/
inductive Cause where
  | invalidType (found : Found) (expected : String)
  | invalidValue (found : Found) (expected : String)
  | missingField (name : String)
  | duplicateField (name : String)
  | unknownField (name : String) (known : List String)
  | unknownVariant (name : String) (known : List String)
  | taggedOpenValue
  | noAlternative (type : String)
  | refused (message : String)
  deriving DecidableEq

/-- The wording of a cause. -/
def Cause.message : Cause → String
  | .invalidType found expected => "invalid type: " ++ found.name ++ ", expected " ++ expected
  | .invalidValue found expected => "invalid value: " ++ found.name ++ ", expected " ++ expected
  | .missingField name => "missing field \x60" ++ name ++ "\x60"
  | .duplicateField name => "duplicate field \x60" ++ name ++ "\x60"
  | .unknownField name known => "unknown field \x60" ++ name ++ "\x60, expected " ++ oneOf known
  | .unknownVariant name known =>
    "unknown variant \x60" ++ name ++ "\x60, expected " ++ oneOf known
  | .taggedOpenValue => "untagged and internally tagged enums do not support enum input"
  | .noAlternative type => "data did not match any variant of untagged enum " ++ type
  | .refused message => message

/-- Why a document cannot be read. -/
inductive Error where
  | malformed (malformation : Malformation)
  | tooDeep
  | tooManyAliases
  | fault (place : Option Place) (cause : Cause)
  deriving DecidableEq

namespace Error

/-- Gives a fault a place unless it has one. -/
def locate (place : Place) : Error → Error
  | .fault none cause => .fault (some place) cause
  | e => e

/-- The wording of an error. -/
def message : Error → String
  | .malformed malformation => malformation.message
  | .tooDeep => "recursion limit exceeded"
  | .tooManyAliases => "repetition limit exceeded"
  | .fault none cause => cause.message
  | .fault (some place) cause => place.heading ++ cause.message

end Error

end SchemaLedger.Yaml

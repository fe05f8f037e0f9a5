/-!
# Names in statements

Statements carry the names of tables and columns without quotes, so a name has to be
an identifier: an ASCII letter or underscore, then letters, digits and underscores. A
table may be qualified by one schema name. A table that is not qualified lives in the
schema `main`.
-/

namespace SchemaLedger.Sql

/-- An ASCII letter or an underscore. -/
def isIdentifierStart (c : Char) : Bool :=
  c.isAlpha || c == '_'

/-- An ASCII letter or digit or an underscore. -/
def isIdentifierRest (c : Char) : Bool :=
  c.isAlphanum || c == '_'

/-- An identifier, as characters. -/
def isIdentifierChars : List Char → Bool
  | [] => false
  | c :: rest => isIdentifierStart c && rest.all isIdentifierRest

/-- A name that can stand in a statement without quotes. -/
def isIdentifier (name : String) : Bool :=
  isIdentifierChars name.toList

/-- An identifier, or two of them joined by a dot, as characters. -/
def isQualifiedChars (name : List Char) : Bool :=
  match name.dropWhile (· != '.') with
  | [] => isIdentifierChars name
  | _ :: table => isIdentifierChars (name.takeWhile (· != '.')) && isIdentifierChars table

/-- An identifier, optionally qualified by one schema name. -/
def isQualifiedName (name : String) : Bool :=
  isQualifiedChars name.toList

/-- The schema of tables that name none. -/
def mainSchema : String := "main"

/-- The schema and the table of a name, parted at the last dot. -/
def splitQualified (name : String) : String × String :=
  let backwards := name.toList.reverse
  match backwards.dropWhile (· != '.') with
  | [] => (mainSchema, name)
  | _ :: schema =>
    (String.ofList schema.reverse, String.ofList (backwards.takeWhile (· != '.')).reverse)

end SchemaLedger.Sql

import SchemaLedger.Text.Double
import SchemaLedger.Yaml.Node.Basic

/-!
# What a scalar stands for

Where a document leaves the type open, a plain scalar is the first of these that its text
allows: null, a boolean, an integer, a floating-point number, a text. A quoted scalar is a
text. A tag of one of the core types forces that type. An integer is classed by the
narrowest width it fits; one that exceeds 128 bits is a floating-point number, and digits
with a zero in front are a text.
-/

namespace SchemaLedger.Yaml

/-- The value of a scalar. -/
inductive Value where
  | null
  | boolean (b : Bool)
  | unsigned (n : Nat)
  | signed (n : Int)
  | wide (n : Int)
  | float (d : Text.Double)
  | text (s : String)
  deriving DecidableEq

namespace Scalar

/-- The spellings of null. -/
def isNullText (s : String) : Bool :=
  s == "null" || s == "Null" || s == "NULL" || s == "~"

/-- The spellings of the booleans. -/
def boolean? (s : String) : Option Bool :=
  if s == "true" || s == "True" || s == "TRUE" then some true
  else if s == "false" || s == "False" || s == "FALSE" then some false
  else none

/-- More than one digit, the first of them zero, after an optional sign. -/
def isPaddedDigits (s : List Char) : Bool :=
  let unsigned := match s with
    | '-' :: rest => rest
    | '+' :: rest => rest
    | _ => s
  match unsigned with
  | '0' :: d :: rest => (d :: rest).all Char.isDigit
  | _ => false

/-- The radix that a mark behind a leading zero announces. -/
def radix? (c : Char) : Option Nat :=
  match c with
  | 'x' => some 16
  | 'o' => some 8
  | 'b' => some 2
  | _ => none

/-- A text that begins with a sign. -/
def beginsWithSign : List Char → Bool
  | '+' :: _ => true
  | '-' :: _ => true
  | _ => false

/-- A non-negative integer of at most `hi`, decimal or with a radix mark. A mark with no
number behind it leaves the text to be read as a decimal, which then fails. -/
def natural? (hi : Nat) (s : String) : Option Nat :=
  let text := s.toList
  let unsigned := match text with
    | '+' :: rest => rest
    | _ => text
  let decimal : Option Nat :=
    if beginsWithSign unsigned || isPaddedDigits text then none
    else Text.natural? 10 hi unsigned
  match unsigned with
  | '0' :: mark :: rest =>
    match radix? mark with
    | some radix => if beginsWithSign rest then none else Text.natural? radix hi rest
    | none => decimal
  | _ => decimal

/-- An integer between `lo` and `hi`: a radix mark stands behind a minus sign. -/
def integer? (lo hi : Int) (s : String) : Option Int :=
  let text := s.toList
  let decimal : Option Int :=
    if isPaddedDigits text then none else Text.integer? 10 lo hi text
  match text with
  | '-' :: '0' :: mark :: rest =>
    match radix? mark with
    | some radix => Text.integer? radix lo hi ('-' :: rest)
    | none => decimal
  | _ => decimal

/-- A floating-point number: one of the dotted names, or a finite decimal. -/
def float? (s : String) : Option Text.Double :=
  let text := s.toList
  let unsigned := match text with
    | '+' :: rest => rest
    | _ => text
  let name := String.ofList unsigned
  if text.length ≠ unsigned.length && beginsWithSign unsigned then none
  else if name = ".inf" || name = ".Inf" || name = ".INF" then some (.infinity false)
  else if s = "-.inf" || s = "-.Inf" || s = "-.INF" then some (.infinity true)
  else if s = ".nan" || s = ".NaN" || s = ".NAN" then some .nan
  else (Text.Double.ofText? name).filter (·.isFinite)

/-- The integer that a text stands for, by its width. -/
def anyInteger? (s : String) : Option Value :=
  match natural? Text.uint64Max s with
  | some n => some (.unsigned n)
  | none =>
    match integer? Text.int64Min Text.int64Max s with
    | some n => some (.signed n)
    | none =>
      match natural? Text.uint128Max s with
      | some n => some (.wide n)
      | none => (integer? Text.int128Min Text.int128Max s).map .wide

/-- The value of a plain scalar without a tag. -/
def plainValue (s : String) : Value :=
  if s.isEmpty || isNullText s then .null
  else
    match boolean? s with
    | some b => .boolean b
    | none =>
      match anyInteger? s with
      | some v => v
      | none =>
        if isPaddedDigits s.toList then .text s
        else
          match float? s with
          | some d => .float d
          | none => .text s

/-- The value of a scalar; the error names the type that its tag demands in vain. -/
def value (s : Scalar) : Except String Value :=
  let demand (v : Option Value) (expected : String) : Except String Value :=
    match v with
    | some v => .ok v
    | none => .error expected
  match s.tag with
  | none => .ok (if s.style = .plain then plainValue s.text else .text s.text)
  | some tag =>
    if tag = Tag.core "bool" then demand ((boolean? s.text).map .boolean) "a boolean"
    else if tag = Tag.core "int" then demand (anyInteger? s.text) "an integer"
    else if tag = Tag.core "float" then demand ((float? s.text).map .float) "a float"
    else if tag = Tag.core "null" then
      demand (if isNullText s.text then some .null else none) "null"
    else if tag.localName?.isSome && s.style = .plain then .ok (plainValue s.text)
    else .ok (.text s.text)

/-- A plain scalar without text: nothing is written. -/
def isAbsent (s : Scalar) : Bool :=
  s.style = .plain && s.text.isEmpty

/-- Whether the text of a scalar is read by the rules of a type: it is plain, or it is a
literal block tagged with that type. -/
def isReadAs (s : Scalar) (type : String) : Bool :=
  s.style = .plain || (s.style = .literal && s.tag = some (Tag.core type))

end Scalar

end SchemaLedger.Yaml

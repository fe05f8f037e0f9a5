import SchemaLedger.Yaml.Cursor
import SchemaLedger.Yaml.Token.Basic
import SchemaLedger.Yaml.Token.Block

/-!
# Anchors, tags and directives

The words and addresses that may stand in front of a node or a document. An address may
escape octets by `%` and two digits; its octets have to follow the encoding pattern of one
character each, and if they do not decode to a text the tag has no readable suffix.
-/

namespace SchemaLedger.Yaml.Property

/-- Reads the word characters of a name. -/
def word (c : Cursor) : String × Cursor :=
  (String.ofList (c.rest.takeWhile isWordChar), c.skipWhile isWordChar)

/-- What may follow the name of an anchor or alias. -/
def endsName (text : List Char) : Bool :=
  atGap text ||
    match text with
    | c :: _ => "?:,]\x7d%@\x60".toList.contains c
    | [] => true

/-- Reads the name of an anchor or alias. -/
def name (scene : Scene) (c : Cursor) : Except Malformation (String × Cursor) :=
  let start := c.mark
  let (name, c) := word c.next
  if name.isEmpty || !endsName c.rest then
    .error (.during scene start .noWordCharacter c.mark)
  else .ok (name, c)

/-! ## Addresses -/

/-- Characters of an address that stand for themselves. -/
def isAddressChar (verbatim : Bool) (c : Char) : Bool :=
  isWordChar c || ";/?:@&=+$.!~*'()".toList.contains c ||
    (verbatim && (c == ',' || c == '[' || c == ']'))

/-- The number of octets of a character, told by its first one. -/
def octetCount? (octet : Nat) : Option Nat :=
  if octet < 0x80 then some 1
  else if 0xc0 ≤ octet && octet < 0xe0 then some 2
  else if 0xe0 ≤ octet && octet < 0xf0 then some 3
  else if 0xf0 ≤ octet && octet < 0xf8 then some 4
  else none

/-- How many octets follow one that is escaped; `due` were to come with it. -/
def octetsAfter (due octet : Nat) : Except Problem Nat :=
  if due = 0 then
    match octetCount? octet with
    | some n => .ok (n - 1)
    | none => .error .badFirstOctet
  else if 0x80 ≤ octet && octet < 0xc0 then .ok (due - 1)
  else .error .badLaterOctet

/-- Reads on in an address; `due` octets of an escaped character are still to come. -/
def octetsFrom (scene : Scene) (start : Mark) (verbatim : Bool) (due : Nat) (out : List UInt8)
    (mark : Mark) : List Char → Except Malformation (List UInt8 × Cursor)
  | '%' :: a :: b :: rest =>
    match hexValue? a, hexValue? b with
    | some x, some y =>
      match octetsAfter due (x * 16 + y) with
      | .ok due =>
        octetsFrom scene start verbatim due (UInt8.ofNat (x * 16 + y) :: out)
          (((mark.after '%').after a).after b) rest
      | .error problem => .error (.during scene start problem mark)
    | _, _ => .error (.during scene start .noEscapedOctet mark)
  | c :: rest =>
    if due = 0 && isAddressChar verbatim c then
      octetsFrom scene start verbatim 0 (UInt8.ofNat c.toNat :: out) (mark.after c) rest
    else if due = 0 && c ≠ '%' then .ok (out.reverse, ⟨mark, c :: rest⟩)
    else .error (.during scene start .noEscapedOctet mark)
  | [] =>
    if due = 0 then .ok (out.reverse, ⟨mark, []⟩)
    else .error (.during scene start .noEscapedOctet mark)

/-- Reads an address that may be empty. Its text is absent if the octets have none. -/
def address (scene : Scene) (start : Mark) (verbatim : Bool) (c : Cursor) :
    Except Malformation (List UInt8 × Cursor) :=
  octetsFrom scene start verbatim 0 [] c.mark c.rest

/-- Reads an address that may not be empty. -/
def someAddress (scene : Scene) (start : Mark) (verbatim : Bool) (c : Cursor) :
    Except Malformation (List UInt8 × Cursor) := do
  let (octets, c) ← address scene start verbatim c
  if octets.isEmpty then throw (.during scene start .noAddress c.mark)
  return (octets, c)

/-- The text of octets. -/
def textOf (octets : List UInt8) : Option String :=
  String.fromUTF8? ⟨octets.toArray⟩

/-! ## Tags -/

/-- Reads a handle: a mark, perhaps a word, and perhaps a second mark. -/
def handle (scene : Scene) (start : Mark) (c : Cursor) : Except Malformation (String × Cursor) :=
  if c.rest.head? = some '!' then
    let (name, c) := word c.next
    if c.rest.head? = some '!' then .ok ("!" ++ name ++ "!", c.next) else .ok ("!" ++ name, c)
  else .error (.during scene start .noExclamation c.mark)

/-- A handle that is closed by a second mark. -/
def isClosedHandle (handle : String) : Bool :=
  2 ≤ handle.length && handle.toList.getLast? = some '!'

/-- Reads a tag in the form `!<address>`. -/
def verbatimTag (c : Cursor) : Except Malformation (Token × Cursor) := do
  let start := c.mark
  let (octets, c) ← someAddress .addressOfTag start true (c.drop 2)
  if c.rest.head? = some '>' then return (.tag "" (textOf octets), c.next)
  else throw (.during .tag start .noClosingAngle c.mark)

/-- Reads a tag in one of the forms `!handle!suffix`, `!suffix` and `!`. -/
def shorthandTag (c : Cursor) : Except Malformation (Token × Cursor) := do
  let start := c.mark
  let (handle, c) ← handle .tag start c
  if isClosedHandle handle then
    let (octets, c) ← someAddress .addressOfTag start false c
    return (.tag handle (textOf octets), c)
  else
    let (octets, c) ← address .addressOfTag start false c
    let suffix := handle.toUTF8.toList.drop 1 ++ octets
    if suffix.isEmpty then return (.tag "" (some "!"), c)
    else return (.tag "!" (textOf suffix), c)

/-- Reads a tag; a gap has to follow, or in a flow collection a comma. -/
def tag (inFlow : Bool) (c : Cursor) : Except Malformation (Token × Cursor) := do
  let start := c.mark
  let (tag, c) ← match c.rest with
    | _ :: '<' :: _ => verbatimTag c
    | _ => shorthandTag c
  if atGap c.rest || (inFlow && c.rest.head? = some ',') then return (tag, c)
  else throw (.during .tag start .noBlankOrBreak c.mark)

/-! ## Directives -/

/-- Reads a number of at most nine digits. -/
def versionNumber (start : Mark) (c : Cursor) : Except Malformation (Nat × Cursor) :=
  let digits := c.rest.takeWhile Char.isDigit
  if digits.isEmpty then .error (.during .versionDirective start .noVersionNumber c.mark)
  else if 9 < digits.length then
    .error (.during .versionDirective start .longVersionNumber (c.drop 9).mark)
  else
    .ok (digits.foldl (fun n d => n * 10 + (d.toNat - '0'.toNat)) 0, c.skipWhile Char.isDigit)

/-- Reads the value of a version directive that begins at `start`. -/
def version (start : Mark) (c : Cursor) : Except Malformation (Token × Cursor) := do
  let (major, c) ← versionNumber start (c.skipWhile isSpacing)
  if c.rest.head? = some '.' then
    let (minor, c) ← versionNumber start c.next
    return (.versionDirective major minor, c)
  else throw (.during .versionDirective start .noVersionPoint c.mark)

/-- Reads the value of a tag directive: a handle and the address it stands for. -/
def tagDirective (start : Mark) (c : Cursor) : Except Malformation (Token × Cursor) := do
  let (handle, c) ← handle .handleOfDirective start (c.skipWhile isSpacing)
  if handle ≠ "!" && !isClosedHandle handle then
    throw (.during .openHandleOfDirective start .noExclamation c.mark)
  if !(c.rest.head?.any isSpacing) then throw (.during .tagDirective start .noBlank c.mark)
  let (octets, c) ← someAddress .addressOfDirective start true (c.skipWhile isSpacing)
  if !atGap c.rest then throw (.during .tagDirective start .noBlankOrBreak c.mark)
  return (.tagDirective handle (textOf octets), c)

/-- Reads a directive to the end of its line. -/
def directive (c : Cursor) : Except Malformation (Token × Cursor) := do
  let start := c.mark
  let (name, c) := word c.next
  if name.isEmpty then throw (.during .directive start .noDirectiveName c.mark)
  if !atGap c.rest then throw (.during .directive start .oddDirectiveName c.mark)
  let (token, c) ←
    if name = "YAML" then version start c
    else if name = "TAG" then tagDirective start c
    else throw (.during .directive start .unknownDirective c.mark)
  return (token, ← Block.endLine .directive start c)

end SchemaLedger.Yaml.Property

/-!
# Places in a YAML text

A cursor is what is left of a text together with where that is: the number of characters
passed, the line, and the column. Line breaks are made alike before anything is read, so a
break is one character: a line feed, or one of the two Unicode separators, which keep their
identity because scalars do.
-/

namespace SchemaLedger.Yaml

/-- Characters a YAML text may hold; any other one spoils the whole text. -/
def isReadable (c : Char) : Bool :=
  c == '\t' || c == '\n' || c == '\x0d' || (' ' ≤ c && c ≤ '~') || c == '\u0085' ||
    ('\u00a0' ≤ c && c.toNat ≤ 0xfffd) || 0x10000 ≤ c.toNat

/-- Writes every line break that a scalar reads as a line feed as a line feed: a carriage
return with or without one after it, and the next-line control. -/
def unifyBreaks : List Char → List Char
  | '\x0d' :: '\n' :: rest => '\n' :: unifyBreaks rest
  | '\x0d' :: rest => '\n' :: unifyBreaks rest
  | '\u0085' :: rest => '\n' :: unifyBreaks rest
  | c :: rest => c :: unifyBreaks rest
  | [] => []

/-- A line break. -/
def isBreak (c : Char) : Bool :=
  c == '\n' || c == '\u2028' || c == '\u2029'

/-- A space or a tab. -/
def isSpacing (c : Char) : Bool :=
  c == ' ' || c == '\t'

/-- The text ends here, or a space, a tab or a line break follows. -/
def atGap : List Char → Bool
  | [] => true
  | c :: _ => isSpacing c || isBreak c

/-- Characters of anchors and tag handles. -/
def isWordChar (c : Char) : Bool :=
  c.isAlphanum || c == '_' || c == '-'

/-- The value of a hexadecimal digit. -/
def hexValue? (c : Char) : Option Nat :=
  if '0' ≤ c && c ≤ '9' then some (c.toNat - '0'.toNat)
  else if 'a' ≤ c && c ≤ 'f' then some (c.toNat - 'a'.toNat + 10)
  else if 'A' ≤ c && c ≤ 'F' then some (c.toNat - 'A'.toNat + 10)
  else none

/-- A place: characters passed, line and column, all from zero. -/
structure Mark where
  index : Nat := 0
  line : Nat := 0
  column : Nat := 0
  deriving DecidableEq

/-- The place behind a character. -/
def Mark.after (m : Mark) (c : Char) : Mark :=
  if isBreak c then { index := m.index + 1, line := m.line + 1, column := 0 }
  else { index := m.index + 1, line := m.line, column := m.column + 1 }

/-- What is left of a text, and the place it starts at. -/
structure Cursor where
  mark : Mark := {}
  rest : List Char
  deriving DecidableEq

namespace Cursor

/-- Passes one character. -/
def next (c : Cursor) : Cursor :=
  match c.rest with
  | [] => c
  | ch :: rest => ⟨c.mark.after ch, rest⟩

/-- Passes some characters. -/
def drop (c : Cursor) : Nat → Cursor
  | 0 => c
  | n + 1 => c.next.drop n

/-- Passes the leading characters of a class. -/
def dropWhile (p : Char → Bool) (m : Mark) : List Char → Cursor
  | [] => ⟨m, []⟩
  | c :: rest => if p c then dropWhile p (m.after c) rest else ⟨m, c :: rest⟩

/-- Passes the leading characters of a class. -/
def skipWhile (c : Cursor) (p : Char → Bool) : Cursor :=
  dropWhile p c.mark c.rest

/-- Three equal marks at the start of a line, then a gap: the text is a document mark. -/
def atDocumentMark (column : Nat) (text : List Char) : Bool :=
  column = 0 &&
    match text with
    | '-' :: '-' :: '-' :: rest => atGap rest
    | '.' :: '.' :: '.' :: rest => atGap rest
    | _ => false

end Cursor

end SchemaLedger.Yaml

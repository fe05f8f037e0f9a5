import SchemaLedger.Yaml.Malformation
import SchemaLedger.Yaml.Token.Fold

/-!
# Quoted scalars

Between single quotes a quote is written twice and nothing else is special. Between double
quotes a backslash begins an escape; one in front of a line break takes the break away.
Both fold their line breaks, and neither may hold a document mark at the start of a line.
-/

namespace SchemaLedger.Yaml.Quoted

/-- Escapes of one character. -/
def shortEscape? (c : Char) : Option Char :=
  match c with
  | '0' => some '\x00'
  | 'a' => some '\x07'
  | 'b' => some '\x08'
  | 't' => some '\t'
  | '\t' => some '\t'
  | 'n' => some '\n'
  | 'v' => some '\x0b'
  | 'f' => some '\x0c'
  | 'r' => some '\x0d'
  | 'e' => some '\x1b'
  | ' ' => some ' '
  | '"' => some '"'
  | '/' => some '/'
  | '\\' => some '\\'
  | 'N' => some '\u0085'
  | '_' => some '\u00a0'
  | 'L' => some '\u2028'
  | 'P' => some '\u2029'
  | _ => none

/-- The number of digits that an escape by code point takes. -/
def codeLength? (c : Char) : Option Nat :=
  match c with
  | 'x' => some 2
  | 'u' => some 4
  | 'U' => some 8
  | _ => none

/-- The character of a code point. -/
def charOf? (code : Nat) : Option Char :=
  if h : code.isValidChar then some (Char.ofNatAux code h) else none

/-- What the next character belongs to, and where an escape or its number began. -/
inductive Mode where
  | text
  | escape (start : Mark)
  | code (digits value : Nat) (start : Mark)

/-- Reads on between single quotes, the first of which is at `start`. -/
def readSingle (start mark : Mark) (gap : Gap) (out : List Char) :
    List Char → Except Malformation (String × Cursor)
  | [] => .error (.during .quotedScalar start .endInScalar mark)
  | c :: rest =>
    if isSpacing c then readSingle start (mark.after c) (gap.spacing c) out rest
    else if isBreak c then readSingle start (mark.after c) (gap.newline c) out rest
    else if Cursor.atDocumentMark mark.column (c :: rest) then
      .error (.during .quotedScalar start .documentMarkInScalar mark)
    else if c = '\'' then
      match rest with
      | '\'' :: more =>
        readSingle start ((mark.after c).after c) .none ('\'' :: (gap.folded ++ out)) more
      | _ => .ok (String.ofList (gap.folded ++ out).reverse, ⟨mark.after c, rest⟩)
    else readSingle start (mark.after c) .none (c :: (gap.folded ++ out)) rest

/-- The text ends between double quotes. -/
def cutDouble (start : Mark) (mode : Mode) (mark : Mark) : Malformation :=
  match mode with
  | .text => .during .quotedScalar start .endInScalar mark
  | .escape place => .during .escape start .unknownEscape place
  | .code _ _ place => .during .escape start .noHexadecimalNumber place

/-- Reads on between double quotes, the first of which is at `start`. -/
def readDouble (start : Mark) (mode : Mode) (mark : Mark) (gap : Gap) (out : List Char) :
    List Char → Except Malformation (String × Cursor)
  | [] => .error (cutDouble start mode mark)
  | c :: rest =>
    match mode with
    | .escape place =>
      if isBreak c then readDouble start .text (mark.after c) (.breaks none []) out rest
      else
        match shortEscape? c, codeLength? c with
        | some e, _ => readDouble start .text (mark.after c) .none (e :: out) rest
        | none, some n =>
          readDouble start (.code n 0 (mark.after c)) (mark.after c) .none out rest
        | none, none => .error (.during .escape start .unknownEscape place)
    | .code digits value place =>
      match hexValue? c with
      | none => .error (.during .escape start .noHexadecimalNumber place)
      | some d =>
        let value := value * 16 + d
        if 1 < digits then
          readDouble start (.code (digits - 1) value place) (mark.after c) .none out rest
        else
          match charOf? value with
          | some e => readDouble start .text (mark.after c) .none (e :: out) rest
          | none => .error (.during .escape start .noCharacter place)
    | .text =>
      if isSpacing c then readDouble start .text (mark.after c) (gap.spacing c) out rest
      else if isBreak c then readDouble start .text (mark.after c) (gap.newline c) out rest
      else if Cursor.atDocumentMark mark.column (c :: rest) then
        .error (.during .quotedScalar start .documentMarkInScalar mark)
      else if c = '"' then
        .ok (String.ofList (gap.folded ++ out).reverse, ⟨mark.after c, rest⟩)
      else if c = '\\' then
        readDouble start (.escape mark) (mark.after c) .none (gap.folded ++ out) rest
      else readDouble start .text (mark.after c) .none (c :: (gap.folded ++ out)) rest

/-- Reads a scalar between single quotes. -/
def single (c : Cursor) : Except Malformation (String × Cursor) :=
  readSingle c.mark c.next.mark .none [] c.next.rest

/-- Reads a scalar between double quotes. -/
def double (c : Cursor) : Except Malformation (String × Cursor) :=
  readDouble c.mark .text c.next.mark .none [] c.next.rest

end SchemaLedger.Yaml.Quoted

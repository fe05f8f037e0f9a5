import SchemaLedger.Yaml.Malformation
import SchemaLedger.Yaml.Token.Fold

/-!
# Plain scalars

A plain scalar runs over words and gaps. It ends in front of a comment, a document mark, a
colon before a gap, in a flow collection in front of the marks of that collection, and
where the indentation falls back. A tab may not stand for indentation.
-/

namespace SchemaLedger.Yaml.Plain

/-- A scalar that has been read: its text, what follows, and whether line breaks were
passed behind its last word. -/
structure Reading where
  text : String
  after : Cursor
  brokeLine : Bool

/-- Marks that end a plain scalar in a flow collection. -/
def isFlowMark (c : Char) : Bool :=
  c == ',' || c == '[' || c == ']' || c == '\x7b' || c == '\x7d'

/-- Whether a gap or the end lies between the last word and this place. -/
def betweenWords (gap : Gap) (out : List Char) : Bool :=
  gap ≠ .none || out.isEmpty

/-- Whether a word cannot begin here. -/
def endsBeforeWord (inFlow : Bool) (indent : Nat) (mark : Mark) (gap : Gap) (text : List Char) :
    Bool :=
  (gap ≠ .none && !inFlow && mark.column < indent) || Cursor.atDocumentMark mark.column text ||
    text.head? = some '#'

/-- Whether a word ends in front of `c`, with `rest` behind it. -/
def endsWord (inFlow : Bool) (c : Char) (rest : List Char) : Bool :=
  (c == ':' && atGap rest) || (inFlow && isFlowMark c)

/-- A colon against a mark of a flow collection, which no scalar may hold. -/
def isMisplacedColon (inFlow : Bool) (c : Char) (rest : List Char) : Bool :=
  inFlow && c == ':' &&
    match rest with
    | d :: _ => isFlowMark d || d == '?'
    | [] => false

/-- Reads on from `text` at `mark` in a scalar that begins at `start`, with `out` read so far,
in reverse, and `gap` behind it. -/
def readFrom (inFlow : Bool) (indent : Nat) (start mark : Mark) (gap : Gap) (out : List Char) :
    List Char → Except Malformation Reading
  | [] => .ok ⟨String.ofList out.reverse, ⟨mark, []⟩, gap.hasBreak⟩
  | c :: rest =>
    if isSpacing c then
      if gap.hasBreak && mark.column < indent && c == '\t' then
        .error (.during .plainScalar start .tabInPlainScalar mark)
      else readFrom inFlow indent start (mark.after c) (gap.spacing c) out rest
    else if isBreak c then
      readFrom inFlow indent start (mark.after c) (gap.newline c) out rest
    else if betweenWords gap out && endsBeforeWord inFlow indent mark gap (c :: rest) then
      .ok ⟨String.ofList out.reverse, ⟨mark, c :: rest⟩, gap.hasBreak⟩
    else if isMisplacedColon inFlow c rest then
      .error (.during .plainScalar start .oddColon mark)
    else if endsWord inFlow c rest then
      .ok ⟨String.ofList out.reverse, ⟨mark, c :: rest⟩, gap.hasBreak⟩
    else readFrom inFlow indent start (mark.after c) .none (c :: (gap.folded ++ out)) rest

/-- Reads a plain scalar whose continuation lines are indented to `indent` at least. -/
def read (inFlow : Bool) (indent : Nat) (c : Cursor) : Except Malformation Reading :=
  readFrom inFlow indent c.mark c.mark .none [] c.rest

end SchemaLedger.Yaml.Plain

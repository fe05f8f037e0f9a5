import SchemaLedger.Yaml.Token.Plain
import SchemaLedger.Yaml.Token.Property
import SchemaLedger.Yaml.Token.Quoted

/-!
# From a text to its tokens

Whether a node is the key of a mapping shows only at the colon behind it. So the scanner
remembers, for each flow collection it is in and for the blocks around them, the last place
where a key could have begun. A colon turns that place into a key: the token `key`, and
`blockMapping` if a mapping begins with it, are put in front of what was read since. A
candidate lapses at the end of its line or after 1024 characters; one that has to be a key,
because it stands at the indentation of its block, makes the text malformed if it lapses.

A reader takes a token only when nothing can be put in front of it any more. Where the
text is malformed, the tokens that were settled before are all that is left of it, and the
malformation is what stands behind them.
-/

namespace SchemaLedger.Yaml

/-- A place where a key may have begun: the number of tokens before it. -/
structure Candidate where
  token : Nat
  required : Bool
  mark : Mark

/-- The state of the scanner. The tokens are in reverse order; `outer` has a candidate for
each collection around the current flow collection, innermost first. -/
structure Scanner where
  cursor : Cursor
  tokens : List Sign := []
  count : Nat := 0
  candidate : Option Candidate := none
  outer : List (Option Candidate) := []
  indents : List Nat := []
  keyAllowed : Bool := true

namespace Scanner

/-- Inside a flow collection. -/
def inFlow (s : Scanner) : Bool := !s.outer.isEmpty

/-- The indentation of the innermost block collection, -1 outside of any. -/
def indent (s : Scanner) : Int :=
  match s.indents with
  | [] => -1
  | n :: _ => n

/-- The current column. -/
def column (s : Scanner) : Nat := s.cursor.mark.column

/-- The current place. -/
def mark (s : Scanner) : Mark := s.cursor.mark

/-- Appends a token that begins here. -/
def emit (s : Scanner) (t : Token) : Scanner :=
  { s with tokens := ⟨t, s.mark⟩ :: s.tokens, count := s.count + 1 }

/-- Puts a token in front of the one with number `n`. -/
def emitAt (s : Scanner) (n : Nat) (t : Sign) : Scanner :=
  let later := s.count - n
  { s with tokens := s.tokens.take later ++ t :: s.tokens.drop later, count := s.count + 1 }

/-- Moves on. -/
def moveTo (s : Scanner) (c : Cursor) : Scanner := { s with cursor := c }

/-- Appends a token of `n` characters. -/
def emitPast (s : Scanner) (n : Nat) (t : Token) : Scanner :=
  (s.emit t).moveTo (s.cursor.drop n)

/-! ## Candidates for keys -/

/-- A candidate can no longer become a key. -/
def lapsed (now : Mark) (c : Candidate) : Bool :=
  c.mark.line < now.line || c.mark.index + 1024 < now.index

/-- A candidate that had to be a key is none. -/
def noKey (now : Mark) (c : Candidate) : Malformation :=
  .during .simpleKey c.mark .keyWithoutColon now

/-- Drops a candidate that has lapsed; fails if it had to be a key. -/
def settleOne (now : Mark) : Option Candidate → Except Malformation (Option Candidate)
  | none => .ok none
  | some c =>
    if lapsed now c then (if c.required then .error (noKey now c) else .ok none) else .ok (some c)

/-- Drops all candidates that have lapsed. -/
def settle (s : Scanner) : Except Malformation Scanner :=
  match s.outer.mapM (settleOne s.mark), settleOne s.mark s.candidate with
  | .ok outer, .ok candidate => .ok { s with candidate, outer }
  | .error e, _ | .ok _, .error e => .error e

/-- Gives up the current candidate; fails if it had to be a key. -/
def dropCandidate (s : Scanner) : Except Malformation Scanner :=
  match s.candidate with
  | some c => if c.required then .error (noKey s.mark c) else .ok { s with candidate := none }
  | none => .ok s

/-- Takes this place for a candidate, if a key may begin here. -/
def markCandidate (s : Scanner) : Except Malformation Scanner :=
  if s.keyAllowed then do
    let required := !s.inFlow && s.indent = s.column
    let s ← s.dropCandidate
    return { s with candidate := some ⟨s.count, required, s.mark⟩ }
  else .ok s

/-- The number of tokens that nothing can be put in front of any more. -/
def settledCount (s : Scanner) : Nat :=
  (s.candidate :: s.outer).foldl (fun n c => match c with
    | some c => min n c.token
    | none => n) s.count

/-! ## Block structure -/

/-- Closes the block collections that are indented further than `column`. -/
def closeBlocks (s : Scanner) (column : Int) : Scanner :=
  if s.inFlow then s
  else
    let open? (n : Nat) : Bool := column < n
    let closed := (s.indents.takeWhile open?).length
    { s with
      indents := s.indents.drop closed
      tokens := List.replicate closed ⟨.blockEnd, s.mark⟩ ++ s.tokens
      count := s.count + closed }

/-- Opens a block collection at a place unless one is open in its column; its token goes in
front of the one with number `n`. -/
def openBlock (s : Scanner) (place : Mark) (n : Nat) (t : Token) : Scanner :=
  if s.inFlow || place.column ≤ s.indent then s
  else { s.emitAt n ⟨t, place⟩ with indents := place.column :: s.indents }

/-! ## One token after the other -/

/-- Passes blanks, comments and line breaks. A tab may stand where no key can begin. -/
def gapFrom (inFlow : Bool) (inComment keyAllowed : Bool) (mark : Mark) :
    List Char → Cursor × Bool
  | [] => (⟨mark, []⟩, keyAllowed)
  | c :: rest =>
    if isBreak c then gapFrom inFlow false (keyAllowed || !inFlow) (mark.after c) rest
    else if inComment || c == '#' then gapFrom inFlow true keyAllowed (mark.after c) rest
    else if c == ' ' || (c == '\t' && (inFlow || !keyAllowed)) ||
        (c == '\ufeff' && mark.column = 0) then
      gapFrom inFlow false keyAllowed (mark.after c) rest
    else (⟨mark, c :: rest⟩, keyAllowed)

/-- Moves to the next token. -/
def skipGap (s : Scanner) : Scanner :=
  let (cursor, keyAllowed) := gapFrom s.inFlow false s.keyAllowed s.cursor.mark s.cursor.rest
  { s with cursor, keyAllowed }

/-- Something is not allowed here. -/
def refuse (s : Scanner) (problem : Problem) : Except Malformation Scanner :=
  .error (.misread problem s.mark none)

/-- Whether a part of a block collection may begin here. -/
def partAllowed (s : Scanner) : Bool := s.inFlow || s.keyAllowed

/-- Ends the stream. -/
def fetchEnd (s : Scanner) : Except Malformation Scanner := do
  let m := s.mark
  let s := if m.column = 0 then s
    else s.moveTo { s.cursor with mark := { m with line := m.line + 1, column := 0 } }
  let s ← (s.closeBlocks (-1)).dropCandidate
  return { s.emit .streamEnd with keyAllowed := false }

/-- Reads a directive. -/
def fetchDirective (s : Scanner) : Except Malformation Scanner := do
  let s ← (s.closeBlocks (-1)).dropCandidate
  let (token, c) ← Property.directive s.cursor
  return { (s.emit token).moveTo c with keyAllowed := false }

/-- Reads a document mark. -/
def fetchDocumentMark (s : Scanner) (t : Token) : Except Malformation Scanner := do
  let s ← (s.closeBlocks (-1)).dropCandidate
  return { s.emitPast 3 t with keyAllowed := false }

/-- Opens a flow collection. -/
def fetchFlowStart (s : Scanner) (t : Token) : Except Malformation Scanner := do
  let s ← s.markCandidate
  return { s.emitPast 1 t with
    candidate := none, outer := s.candidate :: s.outer, keyAllowed := true }

/-- Closes a flow collection. -/
def fetchFlowEnd (s : Scanner) (t : Token) : Except Malformation Scanner := do
  let s ← s.dropCandidate
  let (candidate, outer) := match s.outer with
    | c :: rest => (c, rest)
    | [] => (s.candidate, [])
  return { s.emitPast 1 t with candidate, outer, keyAllowed := false }

/-- Reads a comma between the entries of a flow collection. -/
def fetchFlowEntry (s : Scanner) : Except Malformation Scanner := do
  let s ← s.dropCandidate
  return { s.emitPast 1 .flowEntry with keyAllowed := true }

/-- Reads the mark of an entry of a block sequence. -/
def fetchBlockEntry (s : Scanner) : Except Malformation Scanner :=
  if s.partAllowed then do
    let s ← (s.openBlock s.mark s.count .blockSequence).dropCandidate
    return { s.emitPast 1 .blockEntry with keyAllowed := true }
  else s.refuse .misplacedEntry

/-- Reads the mark of a key. -/
def fetchKey (s : Scanner) : Except Malformation Scanner :=
  if s.partAllowed then do
    let s ← (s.openBlock s.mark s.count .blockMapping).dropCandidate
    return { s.emitPast 1 .key with keyAllowed := !s.inFlow }
  else s.refuse .misplacedKey

/-- Reads a colon. It makes a key of the candidate, or stands after a key without text. -/
def fetchValue (s : Scanner) : Except Malformation Scanner :=
  match s.candidate with
  | some c =>
    let s := (s.emitAt c.token ⟨.key, c.mark⟩).openBlock c.mark c.token .blockMapping
    .ok { s.emitPast 1 .value with candidate := none, keyAllowed := false }
  | none =>
    if s.partAllowed then
      let s := s.openBlock s.mark s.count .blockMapping
      .ok { s.emitPast 1 .value with keyAllowed := !s.inFlow }
    else s.refuse .misplacedValue

/-- Reads an alias or anchor. -/
def fetchName (s : Scanner) (scene : Scene) (t : String → Token) : Except Malformation Scanner := do
  let s ← s.markCandidate
  let (name, c) ← Property.name scene s.cursor
  return { (s.emit (t name)).moveTo c with keyAllowed := false }

/-- Reads a tag. -/
def fetchTag (s : Scanner) : Except Malformation Scanner := do
  let s ← s.markCandidate
  let (token, c) ← Property.tag s.inFlow s.cursor
  return { (s.emit token).moveTo c with keyAllowed := false }

/-- Reads a block scalar. -/
def fetchBlockScalar (s : Scanner) (style : Style) : Except Malformation Scanner := do
  let s ← s.dropCandidate
  let (text, c) ← Block.read (style = .folded) s.indent s.cursor
  return { (s.emit (.scalar style text)).moveTo c with keyAllowed := true }

/-- Reads a quoted scalar. -/
def fetchQuoted (s : Scanner) (style : Style) : Except Malformation Scanner := do
  let s ← s.markCandidate
  let (text, c) ←
    if style = .doubleQuoted then Quoted.double s.cursor else Quoted.single s.cursor
  return { (s.emit (.scalar style text)).moveTo c with keyAllowed := false }

/-- Reads a plain scalar. -/
def fetchPlain (s : Scanner) : Except Malformation Scanner := do
  let s ← s.markCandidate
  let r ← Plain.read s.inFlow (s.indent + 1).toNat s.cursor
  return { (s.emit (.scalar .plain r.text)).moveTo r.after with keyAllowed := r.brokeLine }

/-- Characters that cannot begin a plain scalar by themselves. -/
def isIndicator (c : Char) : Bool :=
  "-?:,[]\x7b\x7d#&*!|>'\"%@\x60".toList.contains c

/-- Whether a plain scalar begins with `c` in front of `rest`. -/
def beginsPlain (inFlow : Bool) (c : Char) (rest : List Char) : Bool :=
  !(isSpacing c || isBreak c || isIndicator c) ||
    (c == '-' && !(rest.head?.any isSpacing)) ||
    (!inFlow && (c == '?' || c == ':') && !atGap rest)

/-- Reads the token that begins here. -/
def fetchHere (s : Scanner) : Except Malformation Scanner :=
  match s.cursor.rest with
  | [] => s.fetchEnd
  | c :: rest =>
    let gapNext := atGap rest
    if s.column = 0 && c == '%' then s.fetchDirective
    else if Cursor.atDocumentMark s.column (c :: rest) then
      s.fetchDocumentMark (if c = '-' then .documentStart else .documentEnd)
    else if c = '[' then s.fetchFlowStart .flowSequence
    else if c = '\x7b' then s.fetchFlowStart .flowMapping
    else if c = ']' then s.fetchFlowEnd .flowSequenceEnd
    else if c = '\x7d' then s.fetchFlowEnd .flowMappingEnd
    else if c = ',' then s.fetchFlowEntry
    else if c = '-' && gapNext then s.fetchBlockEntry
    else if c = '?' && (s.inFlow || gapNext) then s.fetchKey
    else if c = ':' && (s.inFlow || gapNext) then s.fetchValue
    else if c = '*' then s.fetchName .alias .alias
    else if c = '&' then s.fetchName .anchor .anchor
    else if c = '!' then s.fetchTag
    else if c = '|' && !s.inFlow then s.fetchBlockScalar .literal
    else if c = '>' && !s.inFlow then s.fetchBlockScalar .folded
    else if c = '\'' then s.fetchQuoted .singleQuoted
    else if c = '"' then s.fetchQuoted .doubleQuoted
    else if beginsPlain s.inFlow c rest then s.fetchPlain
    else .error (.during .nextToken s.mark .noToken s.mark)

/-- Reads the next token, with the ends of blocks that precede it. -/
def fetch (s : Scanner) : Except Malformation Scanner := do
  let s ← s.skipGap.settle
  (s.closeBlocks s.column).fetchHere

/-- The first `n` tokens. -/
def firstTokens (s : Scanner) (n : Nat) : List Sign :=
  (s.tokens.drop (s.count - n)).reverse

end Scanner

/-- The tokens of a text, as far as it can be read, and why it cannot be read on. -/
structure Scan where
  tokens : List Sign
  malformation : Option Malformation
  deriving DecidableEq

namespace Scanner

/-- The tokens that are left of a malformed text. -/
def stop (s : Scanner) (ready : Nat) (m : Malformation) : Scan := ⟨s.firstTokens ready, some m⟩

/-- Scans to the end or to where the text is malformed, in at most `fuel` steps. -/
def run : Nat → Scanner → Nat → Scan
  | 0, s, ready => s.stop ready (.during .nextToken s.mark .noToken s.mark)
  | fuel + 1, s, ready =>
    match s.settle with
    | .error m => s.stop ready m
    | .ok s =>
      let ready := s.settledCount
      match s.fetch with
      | .error m => s.stop ready m
      | .ok t =>
        if t.tokens.head?.map Sign.token = some .streamEnd then
          match t.settle with
          | .error m => s.stop ready m
          | .ok _ => ⟨t.firstTokens t.count, none⟩
        else run fuel t ready

end Scanner

/-- The number of octets in front of the first character that no YAML text may hold. -/
def unreadableAt? (octets : Nat) : List Char → Option Nat
  | [] => none
  | c :: rest => if isReadable c then unreadableAt? (octets + c.utf8Size) rest else some octets

/-- The tokens of a text. They end in `streamEnd` unless the text is malformed. Every step but
the last passes a character, so there is a step for each. -/
def Scan.ofText (text : String) : Scan :=
  match unreadableAt? 0 text.toList with
  | some octets => ⟨[], some (.unreadable octets)⟩
  | none => Scanner.run (text.length + 1) { cursor := { rest := unifyBreaks text.toList } } 0

end SchemaLedger.Yaml
